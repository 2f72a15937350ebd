import Mathlib.Tactic

/-!
# What a C caller leaves in memory

A pointer that comes from C says where something lies, but not whether it lies there.  This
file reads C strings and arrays of pointers out of a memory with holes.  A read outside the
mapped memory has no result, and each reader is characterised by the bytes that the memory
has to hold for it to return a value.
-/

namespace CMemory

/-- The bytes from address 0 on, as far as they are mapped. -/
abbrev Memory := List (Option UInt8)

/-- An address. -/
abbrev Ptr := ℕ

/-- The memory holds the bytes from an address on. -/
def Holds (m : Memory) (p : Ptr) (bytes : List UInt8) : Prop := bytes.map some <+: m.drop p

instance (m : Memory) (p : Ptr) (bytes : List UInt8) : Decidable (Holds m p bytes) :=
  inferInstanceAs (Decidable (_ <+: _))

/-- The first cells, if they are mapped. -/
def takeBytes : List (Option UInt8) → ℕ → Option (List UInt8)
  | _, 0 => some []
  | some b :: cells, n + 1 => (takeBytes cells n).map (b :: ·)
  | _, _ + 1 => none

/-- The cells up to the first zero, if they are mapped. -/
def takeCStr : List (Option UInt8) → Option (List UInt8)
  | some b :: cells => if b = 0 then some [] else (takeCStr cells).map (b :: ·)
  | _ => none

/-- The C string at an address, without the zero at its end. -/
def cstrAt (m : Memory) (p : Ptr) : Option (List UInt8) := takeCStr (m.drop p)

/-- The size of a pointer. -/
def ptrSize : ℕ := 8

/-- A number in little-endian bytes. -/
def leBytes : ℕ → ℕ → List UInt8
  | 0, _ => []
  | w + 1, v => UInt8.ofNat v :: leBytes w (v / 256)

/-- The number that little-endian bytes stand for. -/
def leValue (bytes : List UInt8) : ℕ := Nat.ofDigits 256 (bytes.map UInt8.toNat)

/-- The pointer at an address. -/
def ptrAt (m : Memory) (p : Ptr) : Option Ptr := (takeBytes (m.drop p) ptrSize).map leValue

/-- The pointers in the cells from an address on. -/
def ptrsAt (m : Memory) (p : Ptr) : ℕ → Option (List Ptr)
  | 0 => some []
  | n + 1 => do
    let q ← ptrAt m p
    let rest ← ptrsAt m (p + ptrSize) n
    return q :: rest

/-! ## Numbers in memory -/

@[simp] lemma length_leBytes (w v : ℕ) : (leBytes w v).length = w := by
  induction w generalizing v with
  | zero => rfl
  | succ w ih => simp [leBytes, ih]

lemma leValue_lt (bytes : List UInt8) : leValue bytes < 256 ^ bytes.length := by
  have hlt := Nat.ofDigits_lt_base_pow_length (b := 256) (l := bytes.map UInt8.toNat)
    (by norm_num) ?_
  · rwa [List.length_map] at hlt
  · intro d hd
    obtain ⟨b, -, rfl⟩ := List.mem_map.mp hd
    exact b.toNat_lt

lemma leValue_leBytes {w v : ℕ} (h : v < 256 ^ w) : leValue (leBytes w v) = v := by
  induction w generalizing v with
  | zero =>
    rw [pow_zero] at h
    obtain rfl : v = 0 := by omega
    rfl
  | succ w ih =>
    have hrest := ih (v := v / 256) (Nat.div_lt_of_lt_mul (by rwa [pow_succ'] at h))
    rw [leValue] at hrest
    rw [leValue, leBytes, List.map_cons, Nat.ofDigits_cons, hrest]
    have hfirst : (UInt8.ofNat v).toNat = v % 256 := UInt8.toNat_ofNat'
    rw [hfirst]
    omega

lemma leBytes_leValue (bytes : List UInt8) : leBytes bytes.length (leValue bytes) = bytes := by
  induction bytes with
  | nil => rfl
  | cons b bytes ih =>
    have hb := b.toNat_lt
    have hvalue : leValue (b :: bytes) = b.toNat + 256 * leValue bytes := by
      simp [leValue, Nat.ofDigits_cons]
    have hfirst : UInt8.ofNat (leValue (b :: bytes)) = b := by
      apply UInt8.toNat_inj.mp
      rw [UInt8.toNat_ofNat', hvalue]
      omega
    have hrest : leValue (b :: bytes) / 256 = leValue bytes := by omega
    rw [List.length_cons, leBytes, hfirst, hrest, ih]

/-! ## Reading -/

variable {m : Memory} {p q : Ptr} {bytes s : List UInt8}

lemma holds_append {more : List UInt8} :
    Holds m p (bytes ++ more) ↔ Holds m p bytes ∧ Holds m (p + bytes.length) more := by
  unfold Holds
  rw [List.map_append, ← List.drop_drop]
  constructor
  · rintro ⟨cells, h⟩
    rw [← h]
    refine ⟨?_, ?_⟩
    · rw [List.append_assoc]
      exact List.prefix_append _ _
    · rw [List.append_assoc, List.drop_left' (by simp)]
      exact List.prefix_append _ _
  · rintro ⟨⟨cells, h⟩, hmore⟩
    rw [← h] at hmore ⊢
    rw [List.drop_left' (by simp)] at hmore
    exact (List.prefix_append_right_inj _).mpr hmore

lemma takeBytes_eq_some_iff {cells : List (Option UInt8)} {n : ℕ} :
    takeBytes cells n = some bytes ↔ bytes.length = n ∧ bytes.map some <+: cells := by
  induction n generalizing cells bytes with
  | zero =>
    cases bytes <;> simp [takeBytes]
  | succ n ih =>
    rcases cells with _ | ⟨_ | b, cells⟩
    · cases bytes <;> simp [takeBytes]
    · cases bytes <;> simp [takeBytes]
    · cases bytes with
      | nil => simp [takeBytes]
      | cons c bytes =>
        simp only [takeBytes, Option.map_eq_some_iff, List.cons.injEq, List.length_cons,
          List.map_cons, List.cons_prefix_cons, Option.some.injEq]
        constructor
        · rintro ⟨rest, hrest, rfl, rfl⟩
          obtain ⟨hlength, hprefix⟩ := ih.mp hrest
          exact ⟨by omega, rfl, hprefix⟩
        · rintro ⟨hlength, rfl, hprefix⟩
          exact ⟨bytes, ih.mpr ⟨by omega, hprefix⟩, rfl, rfl⟩

lemma takeCStr_eq_some_iff {cells : List (Option UInt8)} :
    takeCStr cells = some s ↔ 0 ∉ s ∧ (s ++ [0]).map some <+: cells := by
  induction cells generalizing s with
  | nil => cases s <;> simp [takeCStr]
  | cons cell cells ih =>
    cases cell with
    | none => cases s <;> simp [takeCStr]
    | some b =>
      rw [takeCStr]
      by_cases hb : b = 0
      · rw [if_pos hb]
        subst hb
        cases s with
        | nil => simp
        | cons c s =>
          simp only [Option.some.injEq, List.mem_cons, List.cons_append, List.map_cons,
            List.cons_prefix_cons]
          constructor
          · intro h
            exact absurd h (by simp)
          · rintro ⟨hnot, rfl, -⟩
            exact absurd (Or.inl rfl) hnot
      · rw [if_neg hb]
        cases s with
        | nil =>
          simp only [List.nil_append, List.map_cons, List.cons_prefix_cons, Option.some.injEq]
          constructor
          · intro h
            obtain ⟨rest, -, h⟩ := Option.map_eq_some_iff.mp h
            exact absurd h (by simp)
          · rintro ⟨-, h, -⟩
            exact absurd h.symm hb
        | cons c s =>
          simp only [Option.map_eq_some_iff, List.cons.injEq, List.mem_cons, List.cons_append,
            List.map_cons, List.cons_prefix_cons, Option.some.injEq]
          constructor
          · rintro ⟨rest, hrest, rfl, rfl⟩
            obtain ⟨hnot, hprefix⟩ := ih.mp hrest
            exact ⟨by rintro (h | h); exacts [hb h.symm, hnot h], rfl, hprefix⟩
          · rintro ⟨hnot, rfl, hprefix⟩
            exact ⟨s, ih.mpr ⟨fun h => hnot (Or.inr h), hprefix⟩, rfl, rfl⟩

/-- A string is read where its bytes lie with a zero behind them. -/
lemma cstrAt_eq_some_iff : cstrAt m p = some s ↔ 0 ∉ s ∧ Holds m p (s ++ [0]) :=
  takeCStr_eq_some_iff

lemma ptrAt_eq_some_iff :
    ptrAt m p = some q ↔ q < 256 ^ ptrSize ∧ Holds m p (leBytes ptrSize q) := by
  rw [ptrAt, Option.map_eq_some_iff]
  constructor
  · rintro ⟨bytes, hbytes, rfl⟩
    obtain ⟨hlength, hholds⟩ := takeBytes_eq_some_iff.mp hbytes
    rw [← hlength]
    exact ⟨leValue_lt bytes, by rwa [leBytes_leValue]⟩
  · rintro ⟨hlt, hholds⟩
    refine ⟨leBytes ptrSize q, takeBytes_eq_some_iff.mpr ⟨by simp, hholds⟩, leValue_leBytes hlt⟩

/-- An array of pointers is read where their bytes lie one after the other. -/
lemma ptrsAt_eq_some_iff {ptrs : List Ptr} {n : ℕ} : ptrsAt m p n = some ptrs ↔
    ptrs.length = n ∧ (∀ q ∈ ptrs, q < 256 ^ ptrSize) ∧
      Holds m p (ptrs.flatMap (leBytes ptrSize)) := by
  induction n generalizing p ptrs with
  | zero =>
    cases ptrs with
    | nil => simp [ptrsAt, Holds]
    | cons q ptrs => simp [ptrsAt]
  | succ n ih =>
    cases ptrs with
    | nil => simp [ptrsAt, Option.bind_eq_some_iff]
    | cons q ptrs =>
      rw [List.flatMap_cons, holds_append, length_leBytes]
      simp only [ptrsAt, Option.bind_eq_bind, Option.bind_eq_some_iff, Option.pure_def,
        Option.some.injEq, List.cons.injEq, List.length_cons, List.forall_mem_cons]
      constructor
      · rintro ⟨_, hq, _, hptrs, rfl, rfl⟩
        obtain ⟨hlt, hholds⟩ := ptrAt_eq_some_iff.mp hq
        obtain ⟨hlength, hlts, hrest⟩ := ih.mp hptrs
        exact ⟨by omega, ⟨hlt, hlts⟩, hholds, hrest⟩
      · rintro ⟨hlength, ⟨hlt, hlts⟩, hholds, hrest⟩
        exact ⟨q, ptrAt_eq_some_iff.mpr ⟨hlt, hholds⟩, ptrs, ih.mpr ⟨by omega, hlts, hrest⟩,
          rfl, rfl⟩

end CMemory
