import PamSshAgent.Rust.Text
import PamSshAgent.Library.PrefixCode

/-!
# Slices of UTF-8 texts

A Rust `str` is a slice of bytes that is valid UTF-8.  Its positions are byte offsets, and
to cut it at an offset that is out of bounds or inside a character is a panic.  The texts of
the rest of the development are lists of characters; this file has the bytes, and with them
the offsets at which the program cuts.
-/

namespace PamSshAgent

open Occurrence PrefixCode

/-- A Rust `str` or `String`: bytes that are the UTF-8 encoding of a text. -/
@[ext]
structure Str where
  bytes : List UInt8
  valid : (Text.fromUtf8 bytes).isSome = true

/-! ## The bytes of a character -/

/-- `u8::is_utf8_char_boundary`: the byte is no continuation byte. -/
def isBoundaryByte (b : UInt8) : Bool := b < 0x80 || 0xc0 ≤ b

lemma isBoundaryByte_ofNat {n : ℕ} (h : n < 0x80 ∨ 0xc0 ≤ n) (hlt : n < 0x100) :
    isBoundaryByte (UInt8.ofNat n) = true := by
  have hn : (UInt8.ofNat n).toNat = n := UInt8.toNat_ofNat_of_lt hlt
  rw [isBoundaryByte, Bool.or_eq_true, decide_eq_true_iff, decide_eq_true_iff,
    UInt8.lt_iff_toNat_lt, UInt8.le_iff_toNat_le, hn]
  exact h

lemma isBoundaryByte_continuation (n : ℕ) :
    isBoundaryByte (UInt8.ofNat (n % 0x40 + 0x80)) = false := by
  have hn : (UInt8.ofNat (n % 0x40 + 0x80)).toNat = n % 0x40 + 0x80 :=
    UInt8.toNat_ofNat_of_lt (by show _ < 256; omega)
  rw [isBoundaryByte, Bool.or_eq_false_iff, decide_eq_false_iff_not, decide_eq_false_iff_not,
    UInt8.lt_iff_toNat_lt, UInt8.le_iff_toNat_le, hn]
  show ¬ n % 0x40 + 0x80 < 128 ∧ ¬ 192 ≤ n % 0x40 + 0x80
  omega

/-- A character has a first byte, and continuation bytes after it. -/
lemma utf8EncodeChar_eq_cons (c : Char) : ∃ first rest, String.utf8EncodeChar c = first :: rest ∧
    isBoundaryByte first = true ∧ ∀ b ∈ rest, isBoundaryByte b = false := by
  have hcons : ∀ (n : ℕ) (rest : List UInt8), (∀ b ∈ rest, isBoundaryByte b = false) →
      ∀ b ∈ UInt8.ofNat (n % 0x40 + 0x80) :: rest, isBoundaryByte b = false := by
    intro n rest hrest
    exact List.forall_mem_cons.mpr ⟨isBoundaryByte_continuation n, hrest⟩
  have hnil : ∀ b ∈ ([] : List UInt8), isBoundaryByte b = false := List.forall_mem_nil _
  unfold String.utf8EncodeChar
  dsimp only
  -- one to four bytes, by the size of the scalar value
  split_ifs with h₁ h₂ h₃
  · refine ⟨_, _, rfl, isBoundaryByte_ofNat ?_ ?_, hnil⟩ <;> omega
  · refine ⟨_, _, rfl, isBoundaryByte_ofNat ?_ ?_, hcons _ _ hnil⟩ <;> omega
  · refine ⟨_, _, rfl, isBoundaryByte_ofNat ?_ ?_, hcons _ _ (hcons _ _ hnil)⟩ <;> omega
  · refine ⟨_, _, rfl, isBoundaryByte_ofNat ?_ ?_,
      hcons _ _ (hcons _ _ (hcons _ _ hnil))⟩ <;> omega

/-- The first character of an encoded text can be read whatever follows it. -/
lemma isPrefixCode_utf8 : IsPrefixCode String.utf8EncodeChar := by
  refine isPrefixCode_of_read (fun _ => String.utf8EncodeChar_ne_nil)
    (fun b => b.toByteArray.utf8DecodeChar? 0) fun c rest => ?_
  rw [List.toByteArray_append]
  exact ByteArray.utf8DecodeChar?_utf8EncodeChar_append

namespace Text

lemma bytes_append (s t : Text) : bytes (s ++ t) = bytes s ++ bytes t := List.flatMap_append

lemma bytes_cons (c : Char) (t : Text) : bytes (c :: t) = String.utf8EncodeChar c ++ bytes t :=
  List.flatMap_cons

/-- The bytes of a text at the beginning of the bytes of another one are a beginning of it. -/
lemma bytes_append_eq_iff {s t : Text} {x : List UInt8} :
    bytes s ++ x = bytes t ↔ ∃ u, t = s ++ u ∧ x = bytes u :=
  isPrefixCode_utf8.flatMap_append_eq_iff

end Text

namespace Str

/-- The characters of a `str`. -/
def text (s : Str) : Text := (Text.fromUtf8 s.bytes).get s.valid

/-- The encoding of a text. -/
def ofText (t : Text) : Str := ⟨t.bytes, by rw [Text.fromUtf8_bytes]; rfl⟩

instance : Coe String Str := ⟨fun s => ofText s.toList⟩

@[simp] lemma bytes_ofText (t : Text) : (ofText t).bytes = t.bytes := rfl

@[simp] lemma bytes_text (s : Str) : s.text.bytes = s.bytes :=
  Text.bytes_of_fromUtf8 (Option.some_get s.valid).symm

@[simp] lemma ofText_text (s : Str) : ofText s.text = s := Str.ext (bytes_text s)

@[simp] lemma text_ofText (t : Text) : (ofText t).text = t := Text.bytes_injective (bytes_text _)

/-- `str::len`. -/
def len (s : Str) : ℕ := s.bytes.length

/-- `String::push_str`. -/
def pushStr (s t : Str) : Str :=
  ⟨s.bytes ++ t.bytes, by
    rw [← bytes_text s, ← bytes_text t, ← Text.bytes_append, Text.fromUtf8_bytes]
    rfl⟩

instance : Append Str := ⟨pushStr⟩

@[simp] lemma bytes_append (s t : Str) : (s ++ t).bytes = s.bytes ++ t.bytes := rfl

@[simp] lemma text_append (s t : Str) : (s ++ t).text = s.text ++ t.text := by
  apply Text.bytes_injective
  rw [bytes_text, bytes_append, Text.bytes_append, bytes_text, bytes_text]

lemma append_assoc (s t u : Str) : s ++ t ++ u = s ++ (t ++ u) :=
  Str.ext (List.append_assoc _ _ _)

lemma ofText_append (s t : Text) : ofText (s ++ t) = ofText s ++ ofText t :=
  Str.ext (Text.bytes_append s t)

/-! ## Positions -/

/-- `str::is_char_boundary`. -/
def isCharBoundary (s : Str) (i : ℕ) : Bool :=
  i = 0 || (s.bytes[i]?).elim (i = s.len) isBoundaryByte

/-- A beginning of a text ends at a character boundary. -/
lemma isCharBoundary_append (a b : Text) :
    (ofText (a ++ b)).isCharBoundary a.bytes.length = true := by
  rw [isCharBoundary, Bool.or_eq_true]
  right
  rw [len, bytes_ofText, Text.bytes_append, List.getElem?_append_right le_rfl, Nat.sub_self]
  cases b with
  | nil => simp [Text.bytes]
  | cons c b =>
    obtain ⟨first, rest, hc, hfirst, -⟩ := utf8EncodeChar_eq_cons c
    rw [Text.bytes_cons, hc]
    exact hfirst

/-- A position in a text with a first character is in that character or after it. -/
lemma isCharBoundary_cons {c : Char} {t : Text} {i : ℕ}
    (h : (ofText (c :: t)).isCharBoundary i = true) :
    i = 0 ∨ ∃ j, i = (String.utf8EncodeChar c).length + j ∧ (ofText t).isCharBoundary j = true := by
  obtain ⟨first, rest, hc, -, hrest⟩ := utf8EncodeChar_eq_cons c
  rw [isCharBoundary, Bool.or_eq_true, decide_eq_true_iff, len, bytes_ofText, Text.bytes_cons] at h
  rcases h with rfl | h
  · exact Or.inl rfl
  rcases Nat.lt_or_ge i (String.utf8EncodeChar c).length with hlt | hge
  · left
    rw [List.getElem?_append_left hlt] at h
    rw [hc] at h hlt
    cases i with
    | zero => rfl
    | succ i =>
      rw [List.length_cons] at hlt
      have hi : i < rest.length := by omega
      rw [List.getElem?_cons_succ, List.getElem?_eq_getElem hi] at h
      -- behind its first byte, a character has continuation bytes only
      have hfalse := hrest _ (List.getElem_mem hi)
      exact absurd h (by simp [hfalse])
  · right
    obtain ⟨j, rfl⟩ := Nat.exists_eq_add_of_le hge
    refine ⟨j, rfl, ?_⟩
    rw [List.getElem?_append_right hge, Nat.add_sub_cancel_left, List.length_append] at h
    rw [isCharBoundary, Bool.or_eq_true, bytes_ofText]
    right
    cases hb : t.bytes[j]? with
    | some b =>
      rw [hb] at h
      exact h
    | none =>
      rw [hb] at h
      have hj := of_decide_eq_true h
      exact decide_eq_true (Nat.add_left_cancel hj)

/-- A position is a character boundary exactly if it is the length of a beginning of the
text. -/
lemma isCharBoundary_iff {t : Text} {i : ℕ} :
    (ofText t).isCharBoundary i = true ↔ ∃ a b, t = a ++ b ∧ a.bytes.length = i := by
  constructor
  · intro h
    induction t generalizing i with
    | nil =>
      have hi : i = 0 := by simpa [isCharBoundary, len, Text.bytes] using h
      exact ⟨[], [], rfl, hi.symm⟩
    | cons c t ih =>
      rcases isCharBoundary_cons h with rfl | ⟨j, rfl, hj⟩
      · exact ⟨[], c :: t, rfl, rfl⟩
      · obtain ⟨a, b, rfl, rfl⟩ := ih hj
        exact ⟨c :: a, b, rfl, by rw [Text.bytes_cons, List.length_append]⟩
  · rintro ⟨a, b, rfl, rfl⟩
    exact isCharBoundary_append a b

lemma isCharBoundary_len (s : Str) : s.isCharBoundary s.len = true := by
  simp [isCharBoundary, len]

lemma le_len_of_isCharBoundary {s : Str} {i : ℕ} (h : s.isCharBoundary i = true) : i ≤ s.len := by
  rw [← ofText_text s] at h
  obtain ⟨a, b, htext, rfl⟩ := isCharBoundary_iff.mp h
  have hlen := congrArg List.length (congrArg Text.bytes htext)
  rw [bytes_text, Text.bytes_append, List.length_append] at hlen
  rw [len]
  omega

/-! ## Slices -/

/-- The bytes between two character boundaries are those of a text. -/
lemma isSome_fromUtf8_slice {s : Str} {i j : ℕ} (hi : s.isCharBoundary i = true)
    (hj : s.isCharBoundary j = true) (hle : i ≤ j) :
    (Text.fromUtf8 ((s.bytes.drop i).take (j - i))).isSome = true := by
  rw [← ofText_text s] at hi hj
  obtain ⟨a, b, htext, rfl⟩ := isCharBoundary_iff.mp hi
  obtain ⟨a', b', htext', rfl⟩ := isCharBoundary_iff.mp hj
  -- the shorter beginning is a beginning of the longer one
  have hbytes : a.bytes ++ b.bytes = a'.bytes ++ b'.bytes := by
    rw [← Text.bytes_append, ← Text.bytes_append, ← htext, ← htext']
  obtain ⟨x, hx⟩ := List.prefix_of_prefix_length_le (List.prefix_append a.bytes b.bytes)
    (hbytes ▸ List.prefix_append a'.bytes b'.bytes) hle
  obtain ⟨u, rfl, -⟩ := Text.bytes_append_eq_iff.mp hx
  have hslice : (s.bytes.drop a.bytes.length).take ((a ++ u).bytes.length - a.bytes.length) =
      u.bytes := by
    rw [← bytes_text s, htext', Text.bytes_append (a ++ u), Text.bytes_append a,
      List.append_assoc, List.drop_left, List.length_append, Nat.add_sub_cancel_left, List.take_left]
  rw [hslice, Text.fromUtf8_bytes]
  rfl

/-- `s[i..j]`; nothing when the program panics. -/
def slice (s : Str) (i j : ℕ) : Option Str :=
  if h : i ≤ j ∧ s.isCharBoundary i = true ∧ s.isCharBoundary j = true then
    some ⟨(s.bytes.drop i).take (j - i), isSome_fromUtf8_slice h.2.1 h.2.2 h.1⟩
  else none

/-- `s[..j]`. -/
def sliceTo (s : Str) (j : ℕ) : Option Str := s.slice 0 j

/-- `s[i..]`. -/
def sliceFrom (s : Str) (i : ℕ) : Option Str := s.slice i s.len

/-- A slice exists exactly between character boundaries. -/
lemma slice_isSome_iff {s : Str} {i j : ℕ} : (s.slice i j).isSome = true ↔
    i ≤ j ∧ s.isCharBoundary i = true ∧ s.isCharBoundary j = true := by
  by_cases h : i ≤ j ∧ s.isCharBoundary i = true ∧ s.isCharBoundary j = true
  · simp [slice, h]
  · simp [slice, h]

lemma sliceTo_isSome_iff {s : Str} {j : ℕ} :
    (s.sliceTo j).isSome = true ↔ s.isCharBoundary j = true := by
  have hzero : s.isCharBoundary 0 = true := rfl
  simp [sliceTo, slice_isSome_iff, hzero]

lemma sliceFrom_isSome_iff {s : Str} {i : ℕ} :
    (s.sliceFrom i).isSome = true ↔ s.isCharBoundary i = true := by
  rw [sliceFrom, slice_isSome_iff]
  constructor
  · intro h
    exact h.2.1
  · intro h
    exact ⟨le_len_of_isCharBoundary h, h, isCharBoundary_len s⟩

/-- The slice between two beginnings. -/
lemma slice_append (a b c : Str) : (a ++ b ++ c).slice a.len (a.len + b.len) = some b := by
  have htext : a ++ b ++ c = ofText (a.text ++ b.text ++ c.text) := by
    rw [ofText_append, ofText_append, ofText_text, ofText_text, ofText_text]
  have hi : (a ++ b ++ c).isCharBoundary a.len = true := by
    have h := isCharBoundary_append a.text (b.text ++ c.text)
    rwa [← List.append_assoc, ← htext, bytes_text] at h
  have hj : (a ++ b ++ c).isCharBoundary (a.len + b.len) = true := by
    have h := isCharBoundary_append (a.text ++ b.text) c.text
    rwa [← htext, Text.bytes_append, bytes_text, bytes_text, List.length_append] at h
  rw [slice, dif_pos ⟨Nat.le_add_right _ _, hi, hj⟩, Option.some_inj]
  ext1
  show ((a.bytes ++ b.bytes ++ c.bytes).drop a.len).take (a.len + b.len - a.len) = b.bytes
  rw [len, len, List.append_assoc, List.drop_left, Nat.add_sub_cancel_left, List.take_left]

lemma sliceTo_append (a b : Str) : (a ++ b).sliceTo a.len = some a := by
  have h := slice_append (ofText []) a b
  have hzero : (ofText []).len = 0 := rfl
  rw [hzero, Nat.zero_add] at h
  exact h

lemma sliceFrom_append (a b : Str) : (a ++ b).sliceFrom a.len = some b := by
  have h := slice_append a b (ofText [])
  have hnil : a ++ b ++ ofText [] = a ++ b := Str.ext (List.append_nil _)
  have hlen : (a ++ b).len = a.len + b.len := List.length_append
  rw [hnil, ← hlen] at h
  exact h

/-! ## Searching -/

/-- `str::find` for a string, or for its only character: the offset of the first occurrence of
its bytes. -/
def find (s pattern : Str) : Option ℕ := Occurrence.find pattern.bytes s.bytes

/-- Where the bytes of a text occur, the text occurs. -/
lemma split_of_bytes {s pattern : Str} {A B : List UInt8} (hne : pattern.bytes ≠ [])
    (h : s.bytes = A ++ pattern.bytes ++ B) :
    ∃ a b : Str, s = a ++ pattern ++ b ∧ a.bytes = A := by
  -- the first byte of the pattern is no continuation byte
  have hboundary : s.isCharBoundary A.length = true := by
    cases hp : pattern.text with
    | nil =>
      have hnil : pattern.bytes = [] := by rw [← bytes_text, hp]; rfl
      exact absurd hnil hne
    | cons c t =>
      obtain ⟨first, rest, hc, hfirst, -⟩ := utf8EncodeChar_eq_cons c
      have hbytes : pattern.bytes = first :: rest ++ Text.bytes t := by
        rw [← bytes_text, hp, Text.bytes_cons, hc]
      rw [isCharBoundary, Bool.or_eq_true, h, hbytes, List.append_assoc,
        List.getElem?_append_right le_rfl, Nat.sub_self]
      exact Or.inr hfirst
  rw [← ofText_text s] at hboundary
  obtain ⟨a, b, htext, ha⟩ := isCharBoundary_iff.mp hboundary
  have hsplit : a.bytes ++ b.bytes = A ++ (pattern.bytes ++ B) := by
    rw [← Text.bytes_append, ← htext, bytes_text, h, List.append_assoc]
  obtain ⟨rfl, hb⟩ := List.append_inj hsplit ha
  rw [← bytes_text pattern] at hb
  obtain ⟨u, rfl, -⟩ := Text.bytes_append_eq_iff.mp hb.symm
  refine ⟨ofText a, ofText u, ?_, rfl⟩
  rw [← ofText_text s, htext, ofText_append, ofText_append, ofText_text, append_assoc]

lemma find_eq_some {s pattern : Str} {idx : ℕ} (h : s.find pattern = some idx) :
    ∃ a b : Str, s = a ++ pattern ++ b ∧ a.len = idx := by
  by_cases hne : pattern.bytes = []
  · -- the empty pattern is found at the beginning
    have hsplit : s.bytes = [] ++ pattern.bytes ++ s.bytes := by rw [hne]; rfl
    rw [find, hsplit] at h
    have hidx : idx = 0 := Nat.le_zero.mp (find_le h)
    exact ⟨ofText [], s, Str.ext hsplit, hidx.symm⟩
  · obtain ⟨A, B, hs, rfl⟩ := find_eq_some_split h
    obtain ⟨a, b, hsplit, rfl⟩ := split_of_bytes hne hs
    exact ⟨a, b, hsplit, rfl⟩

/-- The offset of an occurrence counts the bytes of the characters before it. -/
lemma find_ofText (t pattern : Text) : (ofText t).find (ofText pattern) =
    (Occurrence.find pattern t).map fun i => (Text.bytes (t.take i)).length := by
  cases hchars : Occurrence.find pattern t with
  | none =>
    rw [Option.map_none]
    cases hbytes : (ofText t).find (ofText pattern) with
    | none => rfl
    | some idx =>
      obtain ⟨a, b, hsplit, -⟩ := find_eq_some hbytes
      have htext := congrArg text hsplit
      rw [text_append, text_append, text_ofText, text_ofText] at htext
      exact absurd ⟨a.text, b.text, htext.symm⟩ (find_eq_none_iff.mp hchars)
  | some i =>
    rw [Option.map_some]
    obtain ⟨A, B, rfl, rfl⟩ := find_eq_some_split hchars
    have hbytes : Text.bytes (A ++ pattern ++ B) =
        Text.bytes A ++ pattern.bytes ++ Text.bytes B := by
      rw [Text.bytes_append, Text.bytes_append]
    have hoccurs : pattern.bytes <:+: Text.bytes (A ++ pattern ++ B) := ⟨_, _, hbytes.symm⟩
    obtain ⟨idx, hidx⟩ := find_eq_some_of_occurs hoccurs
    have hfind : (ofText (A ++ pattern ++ B)).find (ofText pattern) = some idx := hidx
    obtain ⟨a, b, hsplit, rfl⟩ := find_eq_some hfind
    have htext := congrArg text hsplit
    rw [text_append, text_append, text_ofText, text_ofText] at htext
    -- neither search passes by what the other one found
    have hleBytes : a.len ≤ (Text.bytes A).length := find_le (hbytes ▸ hidx)
    have hleChars : A.length ≤ a.text.length := find_le (htext ▸ hchars)
    have hA : A <+: a.text := by
      refine List.prefix_of_prefix_length_le ?_ (List.prefix_append a.text (pattern ++ b.text))
        hleChars
      rw [← List.append_assoc, ← htext, List.append_assoc]
      exact List.prefix_append _ _
    obtain ⟨u, hu⟩ := hA
    have hlen : a.len = (Text.bytes A).length + (Text.bytes u).length := by
      rw [len, ← bytes_text a, ← hu, Text.bytes_append, List.length_append]
    rw [hfind, List.append_assoc, List.take_left]
    congr 1
    omega

end Str

end PamSshAgent
