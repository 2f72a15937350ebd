import Mathlib.Tactic
import PamSshAgent.Library.Occurrence

/-!
# Rules that are applied once each, in order

A system replaces pairs of letters: a marker and the letter of a rule.  Its run applies the
rules one after another, each to the first pair of its letter and to no other.  A value may
complete a pair with a marker on its left, but brings no marker of its own.

This file has the exact condition, on the word and the rules alone, under which the run
leaves no pair: read from the right, with every pair replaced as it is met, the word has no
pair of a rule twice, and none that only arises when its rule has been applied already.
-/

namespace RewriteOnce

open Occurrence

/-- The letter of a pair and the value that replaces it. -/
structure Rule (α : Type) where
  letter : α
  value : List α

/-- The rules, in the order in which they are applied. -/
structure System (α : Type) where
  marker : α
  rules : List (Rule α)
  nodup : (rules.map Rule.letter).Nodup
  letter_ne : ∀ rule ∈ rules, rule.letter ≠ marker
  value_free : ∀ rule ∈ rules, marker ∉ rule.value

variable {α : Type} [DecidableEq α] (S : System α)

namespace System

/-- No pair of a rule is left. -/
def Clean (word : List α) : Prop := ∀ rule ∈ S.rules, ¬ [S.marker, rule.letter] <:+: word

/-- The application of the rules after the first `r`. -/
def runFrom (r : ℕ) (word : List α) : List α :=
  (S.rules.drop r).foldl (fun word rule => replaceFirst [S.marker, rule.letter] rule.value word)
    word

/-- The rule of a letter, and its number. -/
def lookup (c : α) : Option (Rule α × ℕ) := S.rules.zipIdx.find? fun entry => entry.1.letter = c

end System

/-- A word read from the right, every letter with the number of rules after which it stands
next to the letter on its left, and the numbers of the rules that were applied. -/
structure Reading (α : Type) where
  word : List (α × ℕ)
  used : List ℕ

/-- No letter of the reading comes to stand where it is before `r` rules are applied. -/
def Reading.Later (r : ℕ) (s : Reading α) : Prop := ∀ e ∈ s.word, r ≤ e.2

/-- The letters of a word come to stand where they are after `n` rules at the earliest. -/
def delay (n : ℕ) (word : List (α × ℕ)) : List (α × ℕ) := word.map fun e => (e.1, max e.2 n)

namespace System

/-- Another letter on the left, after `r` rules.  A marker is replaced together with the
letter next to it, if that is the one of a rule; the reading fails when the rule was applied
before, or is applied before the pair arises. -/
def readLetter (r : ℕ) (x : α) (s : Reading α) : Option (Reading α) :=
  if x = S.marker then
    match s.word with
    | [] => some ⟨[(x, r)], s.used⟩
    | (c, t) :: rest =>
      match S.lookup c with
      | none => some ⟨(x, r) :: (c, t) :: rest, s.used⟩
      | some (rule, k) =>
        if t ≤ k ∧ k ∉ s.used then
          some ⟨rule.value.map (fun d => (d, k + 1)) ++ delay (k + 1) rest, k :: s.used⟩
        else none
  else some ⟨(x, r) :: s.word, s.used⟩

def readFrom (r : ℕ) (word : List α) (s : Option (Reading α)) : Option (Reading α) :=
  word.foldr (fun x s => s.bind (S.readLetter r x)) s

/-- The reading of a word to which the first `r` rules are not applied any more. -/
def read (r : ℕ) (word : List α) : Option (Reading α) := S.readFrom r word (some ⟨[], []⟩)

/-! ## The rules -/

variable {S} {r k t : ℕ} {x c : α} {word : List α} {rule : Rule α} {s s' : Reading α}

lemma lookup_eq_some (h : S.lookup c = some (rule, k)) :
    S.rules[k]? = some rule ∧ rule.letter = c := by
  have hletter := List.find?_some h
  have hmem := List.mem_of_find?_eq_some h
  rw [List.mem_zipIdx_iff_getElem?] at hmem
  exact ⟨hmem, by simpa using hletter⟩

lemma lookup_eq_none (h : S.lookup c = none) (hmem : rule ∈ S.rules) : rule.letter ≠ c := by
  obtain ⟨k, hk⟩ := List.mem_iff_getElem?.mp hmem
  have hentry : (rule, k) ∈ S.rules.zipIdx := List.mem_zipIdx_iff_getElem?.mpr hk
  simpa using List.find?_eq_none.mp h _ hentry

/-- Different rules have different letters. -/
lemma lookup_letter (h : S.rules[r]? = some rule) : S.lookup rule.letter = some (rule, r) := by
  cases hfound : S.lookup rule.letter with
  | none => exact absurd rfl (lookup_eq_none hfound (List.mem_of_getElem? h))
  | some entry =>
    obtain ⟨rule', k⟩ := entry
    obtain ⟨hk, hletter⟩ := lookup_eq_some hfound
    have hkr : k = r := by
      have hlt : k < (S.rules.map Rule.letter).length := by
        simpa using (List.getElem?_eq_some_iff.mp hk).1
      refine (List.getElem?_inj hlt S.nodup).mp ?_
      rw [List.getElem?_map, List.getElem?_map, hk, h]
      exact congrArg some hletter
    subst hkr
    rw [Option.some.inj (hk.symm.trans h)]

/-! ## One letter more -/

/-- What the letter does: it is put in front, or its pair is replaced. -/
lemma readLetter_cases (h : S.readLetter r x s = some s') :
    s' = ⟨(x, r) :: s.word, s.used⟩ ∨
      ∃ c t rest rule k, x = S.marker ∧ s.word = (c, t) :: rest ∧ S.lookup c = some (rule, k) ∧
        t ≤ k ∧ k ∉ s.used ∧
        s' = ⟨rule.value.map (fun d => (d, k + 1)) ++ delay (k + 1) rest, k :: s.used⟩ := by
  unfold readLetter at h
  by_cases hx : x = S.marker
  · rw [if_pos hx] at h
    cases hword : s.word with
    | nil =>
      rw [hword] at h
      exact Or.inl (Option.some.inj h).symm
    | cons e rest =>
      obtain ⟨c, t⟩ := e
      rw [hword] at h
      cases hlookup : S.lookup c with
      | none =>
        simp only [hlookup] at h
        exact Or.inl (Option.some.inj h).symm
      | some entry =>
        obtain ⟨rule, k⟩ := entry
        simp only [hlookup] at h
        split_ifs at h with hcond
        exact Or.inr ⟨c, t, rest, rule, k, hx, rfl, hlookup, hcond.1, hcond.2,
          (Option.some.inj h).symm⟩
  · rw [if_neg hx] at h
    exact Or.inl (Option.some.inj h).symm

omit [DecidableEq α] in
lemma le_of_mem_delay {n : ℕ} {w : List (α × ℕ)} {e : α × ℕ} (h : e ∈ delay n w) : n ≤ e.2 := by
  obtain ⟨e', -, rfl⟩ := List.mem_map.mp h
  exact le_max_right _ _

omit [DecidableEq α] in
/-- The letters that a replacement leaves stand there after its rule. -/
lemma le_of_mem_replaced {n : ℕ} {value : List α} {rest : List (α × ℕ)} {e : α × ℕ}
    (h : e ∈ value.map (fun d => (d, n)) ++ delay n rest) : n ≤ e.2 := by
  rcases List.mem_append.mp h with h | h
  · obtain ⟨d, -, rfl⟩ := List.mem_map.mp h
    exact le_rfl
  · exact le_of_mem_delay h

lemma readLetter_later (hlater : s.Later r) (h : S.readLetter r x s = some s') : s'.Later r := by
  rcases readLetter_cases h with rfl | ⟨c, t, rest, rule, k, -, hword, -, htk, -, rfl⟩
  · intro e he
    rcases List.mem_cons.mp he with rfl | he
    · exact le_rfl
    · exact hlater e he
  · intro e he
    have hrt : r ≤ t := hlater (c, t) (hword ▸ List.mem_cons_self)
    have hke := le_of_mem_replaced he
    omega

lemma readLetter_used (h : S.readLetter r x s = some s') (hk : k ∈ s.used) : k ∈ s'.used := by
  rcases readLetter_cases h with rfl | ⟨_, _, _, _, _, -, -, -, -, -, rfl⟩
  · exact hk
  · exact List.mem_cons_of_mem _ hk

/-- The reading with one rule more behind it. -/
def next (r : ℕ) (s : Reading α) : Reading α := ⟨delay (r + 1) s.word, s.used.filter (· ≠ r)⟩

omit [DecidableEq α] in
lemma delay_delay {m n : ℕ} (hmn : m ≤ n) (w : List (α × ℕ)) :
    delay m (delay n w) = delay n w ∧ delay n (delay m w) = delay n w := by
  constructor
  · simp only [delay, List.map_map]
    refine List.map_congr_left fun e _ => ?_
    simp only [Function.comp_apply]
    rw [max_eq_left (hmn.trans (le_max_right e.2 n))]
  · simp only [delay, List.map_map]
    refine List.map_congr_left fun e _ => ?_
    simp only [Function.comp_apply]
    rw [max_assoc, max_eq_right hmn]

omit [DecidableEq α] in
/-- A rule after the `r`th leaves the letters where they are with that rule behind. -/
lemma delay_replaced {k r : ℕ} (hrk : r ≤ k) (value : List α) (rest : List (α × ℕ)) :
    delay r (value.map (fun d => (d, k)) ++ delay k rest) =
      value.map (fun d => (d, k)) ++ delay k (delay r rest) := by
  have happend : delay r (value.map (fun d => (d, k)) ++ delay k rest) =
      delay r (value.map fun d => (d, k)) ++ delay r (delay k rest) :=
    List.map_append
  rw [happend, (delay_delay hrk rest).1, (delay_delay hrk rest).2]
  congr 1
  simp only [delay, List.map_map]
  refine List.map_congr_left fun d _ => ?_
  simp only [Function.comp_apply]
  rw [max_eq_left hrk]

/-- With one rule more behind it, the reading goes on as before, unless it would apply that
rule. -/
lemma readLetter_next (hlater : s.Later r) (x : α) :
    S.readLetter (r + 1) x (next r s) =
      ((S.readLetter r x s).filter fun s' => r ∈ s'.used → r ∈ s.used).map (next r) := by
  -- a letter that is only put in front does not use the rule
  have hput : ∀ s' : Reading α, s' = ⟨(x, r) :: s.word, s.used⟩ →
      ((some s').filter fun s' => r ∈ s'.used → r ∈ s.used).map (next r) =
        some ⟨(x, r + 1) :: delay (r + 1) s.word, s.used.filter (· ≠ r)⟩ := by
    rintro s' rfl
    rw [Option.filter_some_pos (by simp)]
    simp [next, delay]
  unfold readLetter
  by_cases hx : x = S.marker
  · rw [if_pos hx, if_pos hx]
    cases hword : s.word with
    | nil =>
      have hnext : (next r s).word = [] := by simp [next, delay, hword]
      rw [hnext]
      dsimp only
      rw [hput _ (by rw [hword])]
      simp [next, delay, hword]
    | cons e rest =>
      obtain ⟨c, t⟩ := e
      have hnext : (next r s).word = (c, max t (r + 1)) :: delay (r + 1) rest := by
        simp [next, delay, hword]
      have hrt : r ≤ t := hlater (c, t) (hword ▸ List.mem_cons_self)
      rw [hnext]
      cases hlookup : S.lookup c with
      | none =>
        simp only [hlookup]
        rw [hput _ (by rw [hword])]
        simp [next, delay, hword]
      | some entry =>
        obtain ⟨rule, k⟩ := entry
        simp only [hlookup]
        by_cases hkr : k = r
        · -- the pair of the rule itself
          subst hkr
          rw [if_neg (by omega)]
          split_ifs with hcond
          · rw [Option.filter_some_neg (by simpa using hcond.2)]
            rfl
          · rfl
        -- the pair of another rule is replaced in both readings or in neither
        · have hused : k ∉ (next r s).used ↔ k ∉ s.used := by
            simp [next, hkr]
          by_cases hcond : t ≤ k ∧ k ∉ s.used
          · rw [if_pos hcond, if_pos ⟨by omega, hused.mpr hcond.2⟩, Option.filter_some_pos]
            · have hrk : r + 1 ≤ k + 1 := by omega
              simp only [Option.map_some, next, delay_replaced hrk]
              simp [hkr]
            · simp [Ne.symm hkr]
          · rw [if_neg hcond, if_neg fun h => hcond ⟨by omega, hused.mp h.2⟩]
            rfl
  · rw [if_neg hx, if_neg hx, hput _ rfl]
    rfl

/-! ## A whole word -/

@[simp] lemma readFrom_nil (s : Option (Reading α)) : S.readFrom r [] s = s := rfl

lemma readFrom_cons (x : α) (word : List α) (s : Option (Reading α)) :
    S.readFrom r (x :: word) s = (S.readFrom r word s).bind (S.readLetter r x) := rfl

lemma readFrom_append (A B : List α) (s : Option (Reading α)) :
    S.readFrom r (A ++ B) s = S.readFrom r A (S.readFrom r B s) :=
  List.foldr_append

lemma readFrom_none (word : List α) : S.readFrom r word none = none := by
  induction word with
  | nil => rfl
  | cons x word ih => rw [readFrom_cons, ih]; rfl

lemma readFrom_later (hlater : s.Later r) (h : S.readFrom r word (some s) = some s') :
    s'.Later r := by
  induction word generalizing s' with
  | nil => exact Option.some.inj h ▸ hlater
  | cons x word ih =>
    obtain ⟨s₁, h₁, hx⟩ := Option.bind_eq_some_iff.mp h
    exact readLetter_later (ih h₁) hx

lemma readFrom_used (h : S.readFrom r word (some s) = some s') (hk : k ∈ s.used) : k ∈ s'.used := by
  induction word generalizing s' with
  | nil => exact Option.some.inj h ▸ hk
  | cons x word ih =>
    obtain ⟨s₁, h₁, hx⟩ := Option.bind_eq_some_iff.mp h
    exact readLetter_used hx (ih h₁)

/-- A word without the marker is put in front. -/
lemma readFrom_of_notMem (h : S.marker ∉ word) (s : Reading α) :
    S.readFrom r word (some s) = some ⟨word.map (fun d => (d, r)) ++ s.word, s.used⟩ := by
  induction word with
  | nil => rfl
  | cons x word ih =>
    have hx : x ≠ S.marker := fun heq => h (heq ▸ List.mem_cons_self)
    rw [readFrom_cons, ih fun hmem => h (List.mem_cons_of_mem x hmem), Option.bind_some, readLetter,
      if_neg hx]
    rfl

/-- The whole word is read with one rule more behind it as before, unless that rule is
applied. -/
lemma readFrom_next (hlater : s.Later r) (word : List α) :
    S.readFrom (r + 1) word (some (next r s)) =
      ((S.readFrom r word (some s)).filter fun s' => r ∈ s'.used → r ∈ s.used).map (next r) := by
  induction word with
  | nil =>
    rw [readFrom_nil, readFrom_nil, Option.filter_some_pos (by simp)]
    rfl
  | cons x word ih =>
    rw [readFrom_cons, readFrom_cons, ih]
    cases hword : S.readFrom r word (some s) with
    | none => rfl
    | some s₁ =>
      have hlater₁ := readFrom_later hlater hword
      have hnext := readLetter_next (S := S) hlater₁ x
      by_cases hused : r ∈ s₁.used → r ∈ s.used
      · have hsame : ∀ s' : Reading α, (r ∈ s'.used → r ∈ s₁.used) ↔ (r ∈ s'.used → r ∈ s.used) := by
          intro s'
          have hback : r ∈ s.used → r ∈ s₁.used := readFrom_used hword
          tauto
        rw [Option.filter_some_pos (by simpa only [decide_eq_true_eq] using hused), Option.map_some, Option.bind_some, hnext,
          Option.bind_some]
        simp only [hsame]
      · -- the rule was applied on the way, and stays so
        rw [Option.filter_some_neg (by simpa only [decide_eq_false_iff_not] using hused), Option.map_none, Option.bind_none,
          Option.bind_some]
        cases hx : S.readLetter r x s₁ with
        | none => rfl
        | some s₂ =>
          have hused₂ : ¬ (r ∈ s₂.used → r ∈ s.used) := fun h => hused fun h₁ =>
            h (readLetter_used hx h₁)
          rw [Option.filter_some_neg (by simpa only [decide_eq_false_iff_not] using hused₂)]
          rfl

omit [DecidableEq α] in
lemma later_empty (r : ℕ) : (⟨[], []⟩ : Reading α).Later r := fun _ he => nomatch he

/-- A rule that the reading applies with nothing more behind it has its pair in the word. -/
lemma occurs_of_used (hrule : S.rules[r]? = some rule) (h : S.read r word = some s) :
    (∀ c rest, s.word = (c, r) :: rest → word.head? = some c) ∧
      (r ∈ s.used → [S.marker, rule.letter] <:+: word) := by
  induction word generalizing s with
  | nil =>
    obtain rfl : ⟨[], []⟩ = s := Option.some.inj h
    exact ⟨fun c rest hword => (nomatch hword), fun hr => (nomatch hr)⟩
  | cons x word ih =>
    obtain ⟨s₁, h₁, hx⟩ := Option.bind_eq_some_iff.mp h
    obtain ⟨hhead, hoccurs⟩ := ih h₁
    have hlater := readFrom_later (later_empty r) h₁
    rcases readLetter_cases hx with rfl | ⟨c, t, rest, rule', k, rfl, hword, hlookup, htk, -, rfl⟩
    · refine ⟨fun c rest heq => ?_, fun hr => ?_⟩
      · have hxc : x = c := congrArg Prod.fst (List.cons.inj heq).1
        rw [← hxc]
        rfl
      · exact (hoccurs hr).trans (List.suffix_cons x word).isInfix
    · have hrt : r ≤ t := hlater (c, t) (hword ▸ List.mem_cons_self)
      refine ⟨fun d rest' heq => ?_, fun hr => ?_⟩
      · have hlate : k + 1 ≤ r :=
          le_of_mem_replaced (e := (d, r)) (heq ▸ List.mem_cons_self)
        omega
      · rcases List.mem_cons.mp hr with rfl | hr
        · obtain rfl : t = r := by omega
          obtain ⟨hsame, hletter⟩ := lookup_eq_some hlookup
          obtain rfl : rule = rule' := Option.some.inj (hrule.symm.trans hsame)
          obtain ⟨tail, rfl⟩ : ∃ tail, word = c :: tail := by
            cases word with
            | nil => exact absurd (hhead c rest hword) (by simp)
            | cons d tail => exact ⟨tail, by rw [Option.some.inj (hhead c rest hword)]⟩
          exact ⟨[], tail, by rw [hletter]; rfl⟩
        · exact (hoccurs hr).trans (List.suffix_cons _ word).isInfix

/-- The reading of a pair. -/
lemma readFrom_pair (hrule : S.rules[r]? = some rule) (s : Reading α) :
    S.readFrom r [S.marker, rule.letter] (some s) =
      if r ∈ s.used then none
      else some ⟨rule.value.map (fun d => (d, r + 1)) ++ delay (r + 1) s.word, r :: s.used⟩ := by
  have hne := S.letter_ne rule (List.mem_of_getElem? hrule)
  have hletter : S.readLetter r rule.letter s = some ⟨(rule.letter, r) :: s.word, s.used⟩ := by
    rw [readLetter, if_neg hne]
  rw [readFrom_cons, readFrom_cons, readFrom_nil, Option.bind_some, hletter, Option.bind_some,
    readLetter, if_pos rfl]
  simp only [lookup_letter hrule]
  split_ifs with hcond hused hused
  · exact absurd hused hcond.2
  · rfl
  · rfl
  · exact absurd ⟨le_rfl, hused⟩ hcond

/-- The application of a rule does not change the reading, with the rule behind it. -/
lemma read_replaceFirst (hrule : S.rules[r]? = some rule) (word : List α) :
    S.read (r + 1) (replaceFirst [S.marker, rule.letter] rule.value word) =
      (S.read r word).map (next r) := by
  have hempty : next r (⟨[], []⟩ : Reading α) = ⟨[], []⟩ := rfl
  have hread : ∀ w, S.read (r + 1) w =
      ((S.read r w).filter fun s' => r ∈ s'.used → r ∈ ([] : List ℕ)).map (next r) := fun w =>
    readFrom_next (later_empty r) w
  cases hsplit : splitAround [S.marker, rule.letter] word with
  | none =>
    have habsent := splitAround_eq_none_iff.mp hsplit
    rw [replaceFirst_of_not_occurs habsent, hread]
    cases hword : S.read r word with
    | none => rfl
    | some s =>
      have hunused : r ∉ s.used := fun hr => habsent ((occurs_of_used hrule hword).2 hr)
      rw [Option.filter_some_pos (by simpa using hunused)]
  | some parts =>
    obtain ⟨A, B⟩ := parts
    obtain ⟨-, hword, hreplace⟩ := splitAround_eq_some hsplit
    have hfree := S.value_free rule (List.mem_of_getElem? hrule)
    have hB := hread B
    rw [hreplace, hword, read, read, readFrom_append, readFrom_append, readFrom_append,
      readFrom_append]
    rw [read, read] at hB
    rw [hB]
    -- what is right of the pair is read first
    cases hs : S.readFrom r B (some ⟨[], []⟩) with
    | none => simp [readFrom_none]
    | some s =>
      have hlater := readFrom_later (later_empty r) hs
      rw [readFrom_pair hrule]
      by_cases hused : r ∈ s.used
      · rw [if_pos hused, Option.filter_some_neg (by simpa using hused)]
        simp [readFrom_none]
      · rw [if_neg hused, Option.filter_some_pos (by simpa using hused), Option.map_some,
          readFrom_of_notMem hfree]
        have hlater₁ : (⟨rule.value.map (fun d => (d, r + 1)) ++ delay (r + 1) s.word,
            r :: s.used⟩ : Reading α).Later r := fun e he =>
          (Nat.le_succ r).trans (le_of_mem_replaced he)
        have hstate : next r ⟨rule.value.map (fun d => (d, r + 1)) ++ delay (r + 1) s.word,
            r :: s.used⟩ =
              ⟨rule.value.map (fun d => (d, r + 1)) ++ (next r s).word, (next r s).used⟩ := by
          simp only [next, delay_replaced le_rfl, (delay_delay le_rfl s.word).1]
          simp
        rw [← hstate, readFrom_next hlater₁]
        congr 1
        cases S.readFrom r A (some _) with
        | none => rfl
        | some s' => exact Option.filter_some_pos (by simp)

/-! ## The run -/

omit [DecidableEq α] in
lemma pair_infix_cons_iff {m : α} :
    [m, c] <:+: x :: word ↔ (x = m ∧ word.head? = some c) ∨ [m, c] <:+: word := by
  rw [List.infix_cons_iff]
  refine or_congr_left ?_
  cases word with
  | nil => simp
  | cons d tail => simp [eq_comm]

omit [DecidableEq α] in
lemma clean_cons_iff : S.Clean (x :: word) ↔
    (∀ rule ∈ S.rules, ¬ (x = S.marker ∧ word.head? = some rule.letter)) ∧ S.Clean word := by
  simp only [Clean, pair_infix_cons_iff, not_or]
  exact forall₂_and

/-- With all rules behind it, a letter is put in front unless it completes a pair. -/
lemma readLetter_length (x : α) (word : List α) :
    S.readLetter S.rules.length x ⟨word.map fun d => (d, S.rules.length), []⟩ =
      if ∃ rule ∈ S.rules, x = S.marker ∧ word.head? = some rule.letter then none
      else some ⟨(x :: word).map fun d => (d, S.rules.length), []⟩ := by
  rw [readLetter]
  by_cases hx : x = S.marker
  · cases word with
    | nil => simp [hx]
    | cons d tail =>
      rw [if_pos hx]
      simp only [List.map_cons]
      cases hlookup : S.lookup d with
      | none =>
        rw [if_neg]
        rintro ⟨rule, hmem, -, hhead⟩
        exact lookup_eq_none hlookup hmem (Option.some.inj hhead).symm
      | some entry =>
        obtain ⟨rule, k⟩ := entry
        obtain ⟨hk, hletter⟩ := lookup_eq_some hlookup
        have hlt : k < S.rules.length := (List.getElem?_eq_some_iff.mp hk).1
        simp only
        rw [if_neg (by omega), if_pos]
        exact ⟨rule, List.mem_of_getElem? hk, hx, by rw [hletter]; rfl⟩
  · rw [if_neg hx, if_neg]
    · rfl
    · rintro ⟨rule, -, hmarker, -⟩
      exact hx hmarker

/-- With all rules behind it, the word is read as it is, if no pair is left. -/
lemma read_length (word : List α) :
    (S.Clean word →
      S.read S.rules.length word = some ⟨word.map fun d => (d, S.rules.length), []⟩) ∧
    ((S.read S.rules.length word).isSome → S.Clean word) := by
  induction word with
  | nil => exact ⟨fun _ => rfl, fun _ rule _ h => by simpa using h.length_le⟩
  | cons x word ih =>
    obtain ⟨hread, hclean⟩ := ih
    rw [read, readFrom_cons, ← read, clean_cons_iff]
    constructor
    · rintro ⟨hpair, hword⟩
      rw [hread hword, Option.bind_some, readLetter_length, if_neg]
      rintro ⟨rule, hmem, hx⟩
      exact hpair rule hmem hx
    · intro hsome
      have hword : S.Clean word := by
        refine hclean ?_
        cases hs : S.read S.rules.length word with
        | none =>
          rw [hs] at hsome
          exact absurd hsome (by simp)
        | some s => rfl
      refine ⟨fun rule hmem hx => ?_, hword⟩
      rw [hread hword, Option.bind_some, readLetter_length, if_pos ⟨rule, hmem, hx⟩] at hsome
      exact absurd hsome (by simp)

/-- The run from any rule on leaves no pair exactly when the word can be read. -/
lemma clean_runFrom_iff (hr : r ≤ S.rules.length) (word : List α) :
    S.Clean (S.runFrom r word) ↔ (S.read r word).isSome := by
  induction hr using Nat.decreasingInduction generalizing word with
  | self =>
    obtain ⟨hread, hclean⟩ := read_length (S := S) word
    have hrun : S.runFrom S.rules.length word = word := by simp [runFrom]
    rw [hrun]
    exact ⟨fun h => by rw [hread h]; rfl, hclean⟩
  | of_succ r hr ih =>
    have hrule : S.rules[r]? = some S.rules[r] := List.getElem?_eq_getElem hr
    have hrun : S.runFrom r word =
        S.runFrom (r + 1) (replaceFirst [S.marker, S.rules[r].letter] S.rules[r].value word) := by
      rw [runFrom, List.drop_eq_getElem_cons hr]
      rfl
    rw [hrun, ih, read_replaceFirst hrule]
    simp

/-- The run leaves no pair exactly when the word can be read. -/
theorem clean_run_iff (S : System α) (word : List α) :
    S.Clean (S.runFrom 0 word) ↔ (S.read 0 word).isSome :=
  clean_runFrom_iff (Nat.zero_le _) word

end System

end RewriteOnce
