import Mathlib.Tactic
import Mathlib.Data.List.DropRight
import PamSshAgent.Library.Occurrence

/-!
# Texts

A Rust `str` is modelled by the list of its Unicode scalar values, and its bytes by their
UTF-8 encoding.  This file has the operations of the standard library that the module
uses on texts, and the few facts about them that the rest of the development needs.
-/

namespace PamSshAgent

open Occurrence

/-- `uid_t`. -/
abbrev Uid := ℕ

/-- The scalar values of a Rust `str` or `String`. -/
abbrev Text := List Char

instance : Coe String Text := ⟨String.toList⟩

namespace Text

/-- The UTF-8 bytes of a text, `str::as_bytes`. -/
def bytes (t : Text) : List UInt8 := t.flatMap String.utf8EncodeChar

/-- `str::from_utf8` and `String::from_utf8`, without the position in the error. -/
def fromUtf8 (b : List UInt8) : Option Text := b.toByteArray.utf8Decode?.map Array.toList

/-- `str::contains` for a string pattern. -/
def contains (t pattern : Text) : Bool := (find pattern t).isSome

/-- `str::split_once` for a character: the text before and after its first occurrence. -/
def splitOnce (t : Text) (sep : Char) : Option (Text × Text) :=
  (find [sep] t).map fun i => (t.take i, t.drop (i + 1))

/-- `str::splitn(2, sep)`: at most two parts, the second with every further separator. -/
def splitn2 (t : Text) (sep : Char) : List Text :=
  match t.splitOnce sep with
  | none => [t]
  | some (head, rest) => [head, rest]

/-- `str::strip_prefix`. -/
def stripPrefix (t pre : Text) : Option Text :=
  if pre <+: t then some (t.drop pre.length) else none

/-- `Path::new(t).is_absolute()` on Unix. -/
def isAbsolutePath (t : Text) : Bool := t.head? = some '/'

/-- The value of a decimal digit. -/
def digitValue (c : Char) : Option ℕ :=
  if '0' ≤ c ∧ c ≤ '9' then some (c.toNat - '0'.toNat) else none

/-- The digits of `str::parse::<u64>`, from the most significant one; `none` for a
character that is no digit or a value that does not fit. -/
def parseDigits : ℕ → Text → Option ℕ
  | acc, [] => some acc
  | acc, c :: cs => do
    let d ← digitValue c
    if acc * 10 + d < 2 ^ 64 then parseDigits (acc * 10 + d) cs else none

/-- `str::parse::<u64>`: an optional `+` and at least one digit. -/
def parseU64 : Text → Option ℕ
  | [] => none
  | ['+'] => none
  | '+' :: cs => parseDigits 0 cs
  | cs => parseDigits 0 cs

/-- The decimal text of a user id. -/
def ofUid (uid : Uid) : Text := Nat.toDigits 10 uid

/-- `char::is_whitespace`, the Unicode property `White_Space`. -/
def isWhitespace (c : Char) : Bool :=
  let n := c.toNat
  (0x09 ≤ n && n ≤ 0x0d) || n = 0x20 || n = 0x85 || n = 0xa0 || n = 0x1680 ||
    (0x2000 ≤ n && n ≤ 0x200a) || n = 0x2028 || n = 0x2029 || n = 0x202f || n = 0x205f ||
    n = 0x3000

/-- `str::trim_end`. -/
def trimEnd (t : Text) : Text := t.rdropWhile isWhitespace

/-- A line without the carriage return at its end. -/
def stripCarriageReturn (line : Text) : Text :=
  if line.getLast? = some '\r' then line.dropLast else line

/-- `str::lines` on a text of which the characters `line` of the current line have been
read; the line end of the last line may be missing. -/
def linesFrom (line : Text) : Text → List Text
  | [] => if line = [] then [] else [line]
  | c :: rest =>
    if c = '\n' then line.stripCarriageReturn :: linesFrom [] rest
    else linesFrom (line ++ [c]) rest

/-- `str::lines`. -/
def lines (t : Text) : List Text := linesFrom [] t

example : lines "a\r\n\nb\r" = [("a" : Text), "", "b\r"] := by decide

/-! ## UTF-8 -/

lemma fromUtf8_bytes (t : Text) : fromUtf8 (bytes t) = some t := by
  have h := List.utf8Decode?_utf8Encode (l := t)
  rw [List.utf8Encode] at h
  simp [fromUtf8, bytes, h]

lemma bytes_of_fromUtf8 {b : List UInt8} {t : Text} (h : fromUtf8 b = some t) : bytes t = b := by
  simp only [fromUtf8, Option.map_eq_some_iff] at h
  obtain ⟨a, ha, rfl⟩ := h
  have hsome : b.toByteArray.utf8Decode?.isSome := by rw [ha]; rfl
  have hget : b.toByteArray.utf8Decode?.get hsome = a := by simp [ha]
  have henc := ByteArray.utf8Encode_get_utf8Decode? (b := b.toByteArray) (h := hsome)
  rw [hget, List.utf8Encode, List.toByteArray_inj] at henc
  exact henc

lemma bytes_injective : Function.Injective bytes := by
  intro s t h
  have hs := fromUtf8_bytes s
  rw [h, fromUtf8_bytes t] at hs
  exact (Option.some.inj hs).symm

/-! ## Searching and splitting -/

lemma contains_iff {t pattern : Text} : t.contains pattern = true ↔ pattern <:+: t :=
  find_isSome_iff

lemma contains_singleton_iff {t : Text} {c : Char} : t.contains [c] = true ↔ c ∈ t := by
  rw [contains_iff, List.singleton_infix_iff]

lemma splitOnce_eq_some {t a b : Text} {sep : Char} (h : t.splitOnce sep = some (a, b)) :
    t = a ++ sep :: b ∧ sep ∉ a := by
  simp only [splitOnce, Option.map_eq_some_iff, Prod.mk.injEq] at h
  obtain ⟨i, hi, rfl, rfl⟩ := h
  obtain ⟨A, B, rfl, hA, rfl⟩ := find_singleton_eq_some hi
  have hdrop : (A ++ sep :: B).drop (A.length + 1) = B := by simp
  rw [List.take_left, hdrop]
  exact ⟨rfl, hA⟩

lemma splitOnce_append {a : Text} (b : Text) {sep : Char} (h : sep ∉ a) :
    (a ++ sep :: b).splitOnce sep = some (a, b) := by
  have hnot : ∀ zs, zs ≠ [] → zs <:+ a → ¬ [sep] <+: zs ++ sep :: b := by
    intro zs hne hzs hpre
    obtain ⟨z, zs', rfl⟩ := List.exists_cons_of_ne_nil hne
    have hz : sep = z := by simpa using hpre
    subst hz
    exact h (hzs.subset (by simp))
  have hfind := find_append_of_not_prefix a (sep :: b) hnot
  have hhead : find [sep] (sep :: b) = some 0 := by simp [find]
  rw [hhead, Option.map_some, Nat.add_zero] at hfind
  simp [splitOnce, hfind]

lemma splitOnce_eq_none_iff {t : Text} {sep : Char} : t.splitOnce sep = none ↔ sep ∉ t := by
  rw [splitOnce, Option.map_eq_none_iff, find_eq_none_iff, List.singleton_infix_iff]

lemma stripPrefix_eq_some {t pre rest : Text} :
    t.stripPrefix pre = some rest ↔ t = pre ++ rest := by
  constructor
  · intro h
    by_cases hp : pre <+: t
    · obtain ⟨s, rfl⟩ := hp
      have hs : s = rest := by simpa [stripPrefix] using h
      rw [hs]
    · simp [stripPrefix, hp] at h
  · rintro rfl
    simp [stripPrefix]

/-! ## Numbers -/

lemma isDigit_of_mem_ofUid {uid : ℕ} {c : Char} (h : c ∈ ofUid uid) : c.isDigit :=
  Nat.isDigit_of_mem_toDigits (by decide) (by decide) h

end Text

end PamSshAgent
