import PamSshAgent.Library.Fallible
import PamSshAgent.Library.Occurrence

/-!
# Where the letters of an edited word come from

A program that expands a text in passes, each of which replaces the first occurrence of its
pattern, also searches what the passes before have pasted.  This file traces every letter to
its position in the input, cuts a word into stretches of the input and pasted values, and
compares the passes with the replacement of the patterns in the stretches alone, which is
what replacing them all at once in the input gives.
-/

namespace Provenance

open Occurrence

variable {α ε : Type}

/-! ## Words and their traces -/

/-- A word whose letters have their position in the input, if they come from there. -/
abbrev Traced (α : Type) := List (α × Option ℕ)

/-- The word without the positions. -/
def letters (t : Traced α) : List α := t.map Prod.fst

/-- A stretch of the input that starts at a position, or a pasted value. -/
inductive Piece (α : Type) where
  | literal (start : ℕ) (word : List α)
  | value (word : List α)

def Piece.word : Piece α → List α
  | literal _ word => word
  | value word => word

def Piece.traced : Piece α → Traced α
  | literal start word => (word.zipIdx start).map fun x => (x.1, some x.2)
  | value word => word.map fun x => (x, none)

/-- The word that the pieces make up. -/
def text (pieces : List (Piece α)) : List α := pieces.flatMap Piece.word

def traced (pieces : List (Piece α)) : Traced α := pieces.flatMap Piece.traced

/-- The stretches stand apart in the input, in order and from a position on. -/
def Separated : ℕ → List (Piece α) → Prop
  | _, [] => True
  | b, .literal start word :: rest => b ≤ start ∧ Separated (start + word.length + 1) rest
  | b, .value _ :: rest => Separated b rest

variable {pieces pieces' : List (Piece α)} {b : ℕ}

@[simp] lemma text_nil : text ([] : List (Piece α)) = [] := rfl

@[simp] lemma text_cons (piece : Piece α) (pieces : List (Piece α)) :
    text (piece :: pieces) = piece.word ++ text pieces := by
  simp [text]

@[simp] lemma text_append (pieces pieces' : List (Piece α)) :
    text (pieces ++ pieces') = text pieces ++ text pieces' := by
  simp [text]

@[simp] lemma traced_cons (piece : Piece α) (pieces : List (Piece α)) :
    traced (piece :: pieces) = piece.traced ++ traced pieces := by
  simp [traced]

@[simp] lemma traced_append (pieces pieces' : List (Piece α)) :
    traced (pieces ++ pieces') = traced pieces ++ traced pieces' := by
  simp [traced]

lemma letters_piece (piece : Piece α) : letters piece.traced = piece.word := by
  cases piece with
  | literal start word =>
    rw [letters, Piece.traced, List.map_map]
    exact List.zipIdx_map_fst start word
  | value word => simp [letters, Piece.traced, Piece.word, Function.comp_def]

@[simp] lemma letters_traced (pieces : List (Piece α)) : letters (traced pieces) = text pieces := by
  induction pieces with
  | nil => rfl
  | cons piece pieces ih =>
    rw [traced_cons, letters, List.map_append, text_cons, ← ih, ← letters_piece piece]
    rfl

@[simp] lemma length_traced_piece (piece : Piece α) : piece.traced.length = piece.word.length := by
  rw [← letters_piece, letters, List.length_map]

@[simp] lemma length_traced (pieces : List (Piece α)) :
    (traced pieces).length = (text pieces).length := by
  rw [← letters_traced, letters, List.length_map]

/-- A stretch cut in two. -/
lemma traced_literal_append (start : ℕ) (A B : List α) :
    (Piece.literal start (A ++ B)).traced =
      (Piece.literal start A).traced ++ (Piece.literal (start + A.length) B).traced := by
  simp [Piece.traced, List.zipIdx_append]

/-- The letters of a stretch and their positions. -/
lemma getElem?_literal (start : ℕ) (word : List α) (i : ℕ) :
    (Piece.literal start word).traced[i]? = word[i]?.map fun x => (x, some (start + i)) := by
  simp [Piece.traced, List.getElem?_zipIdx, Option.map_map, Function.comp_def]

/-- The first letters of a stretch, and the others. -/
lemma take_literal (start : ℕ) (word : List α) (n : ℕ) :
    (Piece.literal start word).traced.take n = (Piece.literal start (word.take n)).traced := by
  refine List.ext_getElem? fun i => ?_
  rw [List.getElem?_take, getElem?_literal, getElem?_literal, List.getElem?_take]
  split_ifs <;> rfl

lemma drop_literal (start : ℕ) (word : List α) (n : ℕ) :
    (Piece.literal start word).traced.drop n =
      (Piece.literal (start + n) (word.drop n)).traced := by
  refine List.ext_getElem? fun i => ?_
  rw [List.getElem?_drop, getElem?_literal, getElem?_literal, List.getElem?_drop, Nat.add_assoc]

/-- Pieces that stand apart from a position on come from there. -/
lemma Separated.le_of_mem {x : α} {p : ℕ} (hsep : Separated b pieces)
    (hmem : (x, some p) ∈ traced pieces) : b ≤ p := by
  induction pieces generalizing b with
  | nil => exact absurd hmem (by simp [traced])
  | cons piece pieces ih =>
    rw [traced_cons, List.mem_append] at hmem
    cases piece with
    | literal start word =>
      obtain ⟨hb, hrest⟩ := hsep
      rcases hmem with hmem | hmem
      · obtain ⟨⟨y, q⟩, hq, heq⟩ := List.mem_map.mp hmem
        have hstart : start ≤ q := (List.mem_zipIdx hq).1
        have hqp : q = p := by simpa using congrArg Prod.snd heq
        omega
      · have hp := ih hrest hmem
        omega
    | value word =>
      rcases hmem with hmem | hmem
      · exact absurd hmem (by simp [Piece.traced])
      · exact ih hsep hmem

lemma Separated.mono {c : ℕ} (hsep : Separated b pieces) (hcb : c ≤ b) : Separated c pieces := by
  induction pieces generalizing b c with
  | nil => trivial
  | cons piece pieces ih =>
    cases piece with
    | literal start word => exact ⟨hcb.trans hsep.1, hsep.2⟩
    | value word => exact ih hsep hcb

/-! ## The passes -/

variable [DecidableEq α]

/-- A pattern and the value for it, which may not be there. -/
structure Pass (ε α : Type) where
  pattern : List α
  value : Except ε (List α)

namespace Pass

/-- The pass of the program: the value is pasted over the first occurrence of the pattern. -/
def run (pass : Pass ε α) (word : List α) : Except ε (List α) :=
  match find pass.pattern word with
  | none => .ok word
  | some i => do
    let value ← pass.value
    return word.take i ++ value ++ word.drop (i + pass.pattern.length)

/-- The same, of a traced word. -/
def runTraced (pass : Pass ε α) (t : Traced α) : Except ε (Traced α) :=
  match find pass.pattern (letters t) with
  | none => .ok t
  | some i => do
    let value ← pass.value
    return t.take i ++ value.map (fun x => (x, none)) ++ t.drop (i + pass.pattern.length)

/-- The replacement of the first occurrence within a stretch of the input. -/
def runPieces (pass : Pass ε α) : List (Piece α) → Except ε (List (Piece α))
  | [] => .ok []
  | .literal start word :: rest =>
    match splitAround pass.pattern word with
    | some (A, B) => do
      let value ← pass.value
      return .literal start A :: .value value ::
        .literal (start + A.length + pass.pattern.length) B :: rest
    | none => do
      let rest' ← runPieces pass rest
      return .literal start word :: rest'
  | .value word :: rest => do
    let rest' ← runPieces pass rest
    return .value word :: rest'

end Pass

/-- Every pattern replaced in the stretches of the input. -/
def replaceAll (passes : List (Pass ε α)) (pieces : List (Piece α)) :
    Except ε (List (Piece α)) :=
  passes.foldlM (fun pieces pass => pass.runPieces pieces) pieces

/-- The occurrence that a search finds is one of the input: its letters stand side by side
there. -/
def Untouched (pattern : List α) (t : Traced α) : Prop :=
  ∀ i, find pattern (letters t) = some i →
    ∃ p, ∀ k < pattern.length, t[i + k]?.bind Prod.snd = some (p + k)

/-- No pass reads a pasted letter, or letters brought together by a replacement, as part of
its pattern. -/
def NeverReread : List (Pass ε α) → Traced α → Prop
  | [], _ => True
  | pass :: passes, t =>
    Untouched pass.pattern t ∧ ∀ t', pass.runTraced t = .ok t' → NeverReread passes t'

/-- What stands before the first occurrence of the pattern within a stretch of the input;
everything, if there is none. -/
def textBefore (pattern : List α) : List (Piece α) → List α
  | [] => []
  | .literal _ word :: rest =>
    match splitAround pattern word with
    | some (A, _) => A
    | none => word ++ textBefore pattern rest
  | .value word :: rest => word ++ textBefore pattern rest

/-- No pattern arises before its first occurrence in the input from the values that are
pasted there before its pass. -/
def ValuesApart : List (Pass ε α) → List (Piece α) → Prop
  | [], _ => True
  | pass :: passes, pieces =>
    ¬ pass.pattern <:+: textBefore pass.pattern pieces ∧
      ∀ pieces', pass.runPieces pieces = .ok pieces' → ValuesApart passes pieces'

instance ValuesApart.decidable :
    ∀ (passes : List (Pass ε α)) (pieces : List (Piece α)), Decidable (ValuesApart passes pieces)
  | [], _ => isTrue trivial
  | pass :: passes, pieces =>
    haveI : DecidablePred (ValuesApart passes) := ValuesApart.decidable passes
    inferInstanceAs (Decidable (_ ∧ ∀ pieces', pass.runPieces pieces = .ok pieces' →
      ValuesApart passes pieces'))

/-- The pattern is made of two different letters. -/
def IsPair (pattern : List α) : Prop := ∃ x y, x ≠ y ∧ pattern = [x, y]

/-! ## One pass -/

variable {pass : Pass ε α} {pattern : List α} {x y : α}

/-- What the search in the stretches finds. -/
lemma runPieces_cases (pass : Pass ε α) (pieces : List (Piece α)) :
    (pass.runPieces pieces = .ok pieces ∧ textBefore pass.pattern pieces = text pieces) ∨
      ∃ P start A B Q, pieces = P ++ .literal start (A ++ pass.pattern ++ B) :: Q ∧
        textBefore pass.pattern pieces = text P ++ A ∧
        pass.runPieces pieces = pass.value.map fun value =>
          P ++ .literal start A :: .value value ::
            .literal (start + A.length + pass.pattern.length) B :: Q := by
  induction pieces with
  | nil => exact Or.inl ⟨rfl, rfl⟩
  | cons piece pieces ih =>
    cases piece with
    | literal start word =>
      cases hsplit : splitAround pass.pattern word with
      -- the first stretch that has the pattern is cut there
      | some parts =>
        obtain ⟨A, B⟩ := parts
        obtain ⟨-, hword, -⟩ := splitAround_eq_some hsplit
        refine Or.inr ⟨[], start, A, B, pieces, by rw [← hword]; rfl, ?_, ?_⟩
        · rw [textBefore, hsplit]
          rfl
        · rw [Pass.runPieces, hsplit]
          cases pass.value <;> rfl
      | none =>
        rw [textBefore, Pass.runPieces, hsplit]
        rcases ih with ⟨hrun, htext⟩ | ⟨P, start', A, B, Q, hpieces, htext, hrun⟩
        · refine Or.inl ⟨?_, ?_⟩
          · simp [hrun]
          · simp [htext, Piece.word]
        · refine Or.inr ⟨.literal start word :: P, start', A, B, Q, by rw [hpieces]; rfl, ?_, ?_⟩
          · simp [htext, Piece.word]
          · rw [hrun]
            cases pass.value <;> rfl
    -- a value is passed over, whatever it contains
    | value word =>
      rw [textBefore, Pass.runPieces]
      rcases ih with ⟨hrun, htext⟩ | ⟨P, start', A, B, Q, hpieces, htext, hrun⟩
      · refine Or.inl ⟨?_, ?_⟩
        · simp [hrun]
        · simp [htext, Piece.word]
      · refine Or.inr ⟨.value word :: P, start', A, B, Q, by rw [hpieces]; rfl, ?_, ?_⟩
        · simp [htext, Piece.word]
        · rw [hrun]
          cases pass.value <;> rfl

/-- A pair that does not occur before a place where it stands is found there. -/
lemma find_pair_at {A B : List α} (hxy : x ≠ y) (habsent : ¬ [x, y] <:+: A) :
    find [x, y] (A ++ [x, y] ++ B) = some A.length := by
  have hfirst : find [x, y] ([x, y] ++ B) = some 0 := by simp [find]
  rw [List.append_assoc, find_pair_append _ habsent, hfirst]
  · rfl
  · right
    simpa using hxy

/-- When the pattern does not arise before it stands in the input, the pass finds what the
search in the stretches finds. -/
lemma runTraced_traced (hpair : IsPair pass.pattern)
    (habsent : ¬ pass.pattern <:+: textBefore pass.pattern pieces) :
    pass.runTraced (traced pieces) = (pass.runPieces pieces).map traced := by
  obtain ⟨x, y, hxy, hpattern⟩ := hpair
  rcases runPieces_cases pass pieces with ⟨hrun, htext⟩ | ⟨P, start, A, B, Q, rfl, htext, hrun⟩
  · rw [htext] at habsent
    rw [hrun, Pass.runTraced, letters_traced, find_eq_none_iff.mpr habsent]
    rfl
  · have hfind : find pass.pattern
        (text (P ++ .literal start (A ++ pass.pattern ++ B) :: Q)) = some (text P ++ A).length := by
      rw [htext, hpattern] at habsent
      have hat := find_pair_at (B := B ++ text Q) hxy habsent
      rw [hpattern]
      simpa [Piece.word] using hat
    rw [hrun, Pass.runTraced, letters_traced, hfind]
    cases pass.value with
    | error error => rfl
    | ok value =>
      have htraced : traced (P ++ .literal start (A ++ pass.pattern ++ B) :: Q) =
          (traced P ++ (Piece.literal start A).traced) ++
            (Piece.literal (start + A.length) pass.pattern).traced ++
              ((Piece.literal (start + A.length + pass.pattern.length) B).traced ++ traced Q) := by
        rw [traced_append, traced_cons, traced_literal_append, traced_literal_append,
          List.length_append]
        simp only [List.append_assoc, Nat.add_assoc]
      have hleft : (traced P ++ (Piece.literal start A).traced).length = (text P ++ A).length := by
        simp [Piece.word]
      have hright : ((traced P ++ (Piece.literal start A).traced) ++
          (Piece.literal (start + A.length) pass.pattern).traced).length =
            (text P ++ A).length + pass.pattern.length := by
        rw [List.length_append, hleft, length_traced_piece]
        rfl
      dsimp only
      rw [Except.ok_bind, htraced, ← hleft, List.append_assoc (traced P ++ _), List.take_left,
        ← List.append_assoc (traced P ++ _), hleft, ← hright, List.drop_left]
      simp [Except.map, Piece.traced]

/-- The place that the search finds lies within one stretch, or the pattern does not arise
before it stands in the input: a stretch before that has no occurrence, and the letters of two
stretches are no neighbours in the input. -/
lemma no_literal_before {i p : ℕ} (hsep : Separated b pieces)
    (hx : (traced pieces)[i]? = some (x, some p))
    (hy : (traced pieces)[i + 1]? = some (y, some (p + 1))) :
    ¬ i + 2 ≤ (textBefore [x, y] pieces).length := by
  intro hle
  induction pieces generalizing b i with
  | nil => simp [textBefore] at hle
  | cons piece pieces ih =>
    rw [traced_cons] at hx hy
    cases piece with
    | literal start word =>
      -- an occurrence within the stretch is one that the search in it would have found
      have hinside : ∀ n, i + 2 ≤ n → n ≤ word.length → [x, y] <:+: word.take n := by
        intro n hn hlength
        rw [List.getElem?_append_left (by rw [length_traced_piece]; simp only [Piece.word]; omega),
          getElem?_literal] at hx hy
        obtain ⟨x', hx', heq⟩ := Option.map_eq_some_iff.mp hx
        obtain ⟨y', hy', heq'⟩ := Option.map_eq_some_iff.mp hy
        obtain rfl : x' = x := congrArg Prod.fst heq
        obtain rfl : y' = y := congrArg Prod.fst heq'
        refine pair_infix_of_getElem? (i := i) ?_ ?_
        · rw [List.getElem?_take_of_lt (by omega), hx']
        · rw [List.getElem?_take_of_lt (by omega), hy']
      cases hsplit : splitAround [x, y] word with
      | some parts =>
        obtain ⟨A, B⟩ := parts
        rw [textBefore, hsplit] at hle
        obtain ⟨hfind, hword, -⟩ := splitAround_eq_some hsplit
        have hA : [x, y] <:+: A := by
          have hlength : A.length ≤ word.length := by
            rw [hword]
            simp
          have htake : word.take A.length = A := by
            rw [hword, List.append_assoc, List.take_left]
          exact htake ▸ hinside A.length hle hlength
        obtain ⟨j, hj⟩ := find_eq_some_of_occurs hA
        obtain ⟨A', B', hA', hlength⟩ := find_eq_some_split hj
        have hsame := find_append_of_eq_some hj ([x, y] ++ B)
        rw [← List.append_assoc, ← hword, hfind] at hsame
        have hlt : A.length = A'.length + 2 + B'.length := by
          rw [hA']
          simp only [List.length_append, List.length_cons, List.length_nil]
        have hjA : j = A.length := (Option.some.inj hsame).symm
        omega
      | none =>
        rw [textBefore, hsplit, List.length_append] at hle
        have hnone := splitAround_eq_none_iff.mp hsplit
        have hlength : (Piece.literal start word).traced.length = word.length :=
          length_traced_piece _
        rcases Nat.lt_or_ge (i + 1) word.length with hi | hi
        · have hoccurs := hinside word.length (by omega) le_rfl
          rw [List.take_length] at hoccurs
          exact hnone hoccurs
        · rcases Nat.lt_or_ge i word.length with hi' | hi'
          · -- the last letter of the stretch and the first one after it
            rw [List.getElem?_append_left (by omega), getElem?_literal] at hx
            obtain ⟨x', -, heq⟩ := Option.map_eq_some_iff.mp hx
            have hp : start + i = p := by simpa using congrArg Prod.snd heq
            rw [List.getElem?_append_right (by omega)] at hy
            have hbound := hsep.2.le_of_mem (List.mem_of_getElem? hy)
            omega
          · rw [List.getElem?_append_right (by omega)] at hx hy
            rw [show i + 1 - (Piece.literal start word).traced.length =
              i - (Piece.literal start word).traced.length + 1 by omega] at hy
            exact ih hsep.2 hx hy (by omega)
    | value word =>
      have hlength : (Piece.value word).traced.length = word.length := length_traced_piece _
      rw [textBefore, List.length_append] at hle
      rcases Nat.lt_or_ge i word.length with hi | hi
      · rw [List.getElem?_append_left (by omega), Piece.traced, List.getElem?_map] at hx
        obtain ⟨x', -, heq⟩ := Option.map_eq_some_iff.mp hx
        exact absurd (congrArg Prod.snd heq) (by simp)
      · rw [List.getElem?_append_right (by omega)] at hx hy
        rw [show i + 1 - (Piece.value word).traced.length =
          i - (Piece.value word).traced.length + 1 by omega] at hy
        exact ih hsep hx hy (by omega)

lemma textBefore_prefix (pattern : List α) (pieces : List (Piece α)) :
    textBefore pattern pieces <+: text pieces := by
  induction pieces with
  | nil => exact List.prefix_rfl
  | cons piece pieces ih =>
    rw [text_cons]
    cases piece with
    | literal start word =>
      cases hsplit : splitAround pattern word with
      | some parts =>
        obtain ⟨A, B⟩ := parts
        obtain ⟨-, hword, -⟩ := splitAround_eq_some hsplit
        rw [textBefore, hsplit]
        change A <+: word ++ text pieces
        rw [hword, List.append_assoc, List.append_assoc]
        exact List.prefix_append A _
      | none =>
        rw [textBefore, hsplit]
        exact (List.prefix_append_right_inj word).mpr ih
    | value word =>
      rw [textBefore]
      exact (List.prefix_append_right_inj word).mpr ih

/-- A pass reads the input exactly when the pattern does not arise before it stands there. -/
lemma untouched_iff (hsep : Separated b pieces) (hpair : IsPair pattern) :
    Untouched pattern (traced pieces) ↔ ¬ pattern <:+: textBefore pattern pieces := by
  obtain ⟨x, y, hxy, rfl⟩ := hpair
  constructor
  · intro huntouched hoccurs
    obtain ⟨i, hi⟩ := find_eq_some_of_occurs hoccurs
    obtain ⟨rest, hrest⟩ := textBefore_prefix [x, y] pieces
    have hfind : find [x, y] (text pieces) = some i := hrest ▸ find_append_of_eq_some hi rest
    have hletters := hfind
    rw [← letters_traced] at hletters
    obtain ⟨p, hp⟩ := huntouched i hletters
    obtain ⟨A, B, htext, hlength⟩ := find_eq_some_split hfind
    obtain ⟨A', B', hbefore, hlength'⟩ := find_eq_some_split hi
    -- the letters found, with their positions
    have hletter : ∀ k z, k < 2 → (text pieces)[i + k]? = some z →
        (traced pieces)[i + k]? = some (z, some (p + k)) := by
      intro k z hk hz
      rw [← letters_traced, letters, List.getElem?_map] at hz
      obtain ⟨⟨z', q⟩, hz', hzz⟩ := Option.map_eq_some_iff.mp hz
      have hq := hp k hk
      rw [hz'] at hq ⊢
      have hq' : q = some (p + k) := hq
      rw [hq', ← hzz]
    have hx := hletter 0 x (by omega) (by rw [htext, ← hlength]; simp)
    have hy := hletter 1 y (by omega) (by
      rw [htext, ← hlength, List.append_assoc, List.getElem?_append_right (by omega)]
      simp)
    refine no_literal_before hsep hx hy ?_
    rw [hbefore, ← hlength']
    simp only [List.length_append, List.length_cons, List.length_nil]
    omega
  · intro habsent i hi
    rw [letters_traced] at hi
    rcases runPieces_cases ⟨[x, y], (.ok [] : Except Unit (List α))⟩ pieces with
      ⟨-, htext⟩ | ⟨P, start, A, B, Q, rfl, htext, -⟩
    · rw [show textBefore [x, y] pieces = text pieces from htext] at habsent
      rw [find_eq_none_iff.mpr habsent] at hi
      exact absurd hi (by simp)
    · dsimp only at htext hi ⊢
      rw [htext] at habsent
      have hat := find_pair_at (B := B ++ text Q) hxy habsent
      have hi' : i = (text P ++ A).length := by
        have heq : text (P ++ Piece.literal start (A ++ [x, y] ++ B) :: Q) =
            text P ++ A ++ [x, y] ++ (B ++ text Q) := by
          simp [Piece.word]
        rw [heq, hat] at hi
        exact (Option.some.inj hi).symm
      refine ⟨start + A.length, fun k hk => ?_⟩
      have hlt : k < [x, y].length := hk
      have htwo : k < 2 := hk
      rw [hi', traced_append, traced_cons, List.getElem?_append_right (by simp; omega),
        List.getElem?_append_left (by simp [Piece.word]; omega), getElem?_literal]
      have hindex : (text P ++ A).length + k - (traced P).length = A.length + k := by
        rw [length_traced, List.length_append]
        omega
      rw [hindex, List.append_assoc, List.getElem?_append_right (by omega), Nat.add_sub_cancel_left,
        List.getElem?_append_left hlt, List.getElem?_eq_getElem hlt, Nat.add_assoc]
      rfl

/-! ## All passes -/

omit [DecidableEq α] in
/-- Pieces may be replaced by others that stand apart from the same position on. -/
lemma Separated.append_congr {P R R' : List (Piece α)} (hR : ∀ c, Separated c R → Separated c R')
    (hsep : Separated b (P ++ R)) : Separated b (P ++ R') := by
  induction P generalizing b with
  | nil => exact hR b hsep
  | cons piece P ih =>
    cases piece with
    | literal start word => exact ⟨hsep.1, ih hsep.2⟩
    | value word => exact ih hsep

lemma runPieces_separated (hpair : IsPair pass.pattern) (hsep : Separated b pieces)
    (h : pass.runPieces pieces = .ok pieces') : Separated b pieces' := by
  obtain ⟨x, y, -, hpattern⟩ := hpair
  rcases runPieces_cases pass pieces with ⟨hrun, -⟩ | ⟨P, start, A, B, Q, rfl, -, hrun⟩
  · rw [hrun] at h
    exact Except.ok.inj h ▸ hsep
  · rw [hrun] at h
    cases hvalue : pass.value with
    | error error =>
      rw [hvalue] at h
      exact absurd h (by simp [Except.map])
    | ok value =>
      rw [hvalue] at h
      rw [← Except.ok.inj h]
      refine hsep.append_congr fun c hc => ?_
      obtain ⟨hstart, hQ⟩ := hc
      have hlength : (A ++ pass.pattern ++ B).length = A.length + pass.pattern.length + B.length := by
        simp only [List.length_append]
      have htwo : pass.pattern.length = 2 := by rw [hpattern]; rfl
      refine ⟨hstart, ?_, hQ.mono ?_⟩
      · omega
      · omega

lemma letters_runTraced (pass : Pass ε α) (t : Traced α) :
    (pass.runTraced t).map letters = pass.run (letters t) := by
  rw [Pass.runTraced, Pass.run]
  cases find pass.pattern (letters t) with
  | none => rfl
  | some i =>
    cases pass.value with
    | error error => rfl
    | ok value =>
      have hvalue : (value.map fun x => (x, (none : Option ℕ))).map Prod.fst = value := by
        simp [Function.comp_def]
      simp [Except.map, letters, List.map_take, List.map_drop, hvalue]

/-- The condition on the pieces is exact. -/
theorem neverReread_iff {passes : List (Pass ε α)} (hpairs : ∀ pass ∈ passes, IsPair pass.pattern)
    (hsep : Separated b pieces) :
    NeverReread passes (traced pieces) ↔ ValuesApart passes pieces := by
  induction passes generalizing pieces with
  | nil => exact Iff.rfl
  | cons pass passes ih =>
    have hpair := hpairs pass List.mem_cons_self
    rw [NeverReread, ValuesApart, untouched_iff hsep hpair]
    refine and_congr_right fun habsent => ?_
    rw [runTraced_traced hpair habsent]
    have hrest : ∀ pieces', pass.runPieces pieces = .ok pieces' →
        (NeverReread passes (traced pieces') ↔ ValuesApart passes pieces') := fun pieces' hrun =>
      ih (fun pass' hmem => hpairs pass' (List.mem_cons_of_mem pass hmem))
        (runPieces_separated hpair hsep hrun)
    cases hrun : pass.runPieces pieces with
    | error error => simp [Except.map]
    | ok pieces' =>
      constructor
      · intro h pieces'' heq
        exact Except.ok.inj heq ▸ (hrest pieces' hrun).mp (h _ rfl)
      · intro h t' heq
        exact Except.ok.inj heq ▸ (hrest pieces' hrun).mpr (h _ rfl)

/-- Under the condition the passes replace all patterns at once. -/
theorem foldlM_run_of_valuesApart {passes : List (Pass ε α)}
    (hpairs : ∀ pass ∈ passes, IsPair pass.pattern) (hsep : Separated b pieces)
    (hapart : ValuesApart passes pieces) :
    passes.foldlM (fun word pass => pass.run word) (text pieces) =
      (replaceAll passes pieces).map text := by
  induction passes generalizing pieces with
  | nil => rfl
  | cons pass passes ih =>
    have hpair := hpairs pass List.mem_cons_self
    have hrun : pass.run (text pieces) = (pass.runPieces pieces).map text := by
      rw [← letters_traced, ← letters_runTraced, runTraced_traced hpair hapart.1]
      cases pass.runPieces pieces with
      | error error => rfl
      | ok pieces' => simp [Except.map]
    rw [replaceAll, List.foldlM_cons, List.foldlM_cons, hrun]
    cases hpieces : pass.runPieces pieces with
    | error error => rfl
    | ok pieces' =>
      exact ih (fun pass' hmem => hpairs pass' (List.mem_cons_of_mem pass hmem))
        (runPieces_separated hpair hsep hpieces) (hapart.2 pieces' hpieces)

end Provenance
