import PamSshAgent.Policy.Roles

/-!
# The language of policies

What strict mode accepts of a text of keys, and that legacy mode gives the entries of an
accepted text the same roles.  The entries are those that `AuthorizedKeys` yields; it goes
through the text line by line, and white space at the end of a text is invisible to it.
-/

namespace PamSshAgent

variable {crate : SshKeyCrate} {caKeys : Bool} {what text : Text}

/-- The strict parser accepts a text exactly when it parses under strict mode. -/
lemma fromStrStrict_eq_ok {items : List Authorized} :
    fromStrStrict crate text what caKeys = .ok items ↔
      Parses crate text .strict ∧
        items = (parsedEntries crate text).map (authorizeLegacy caKeys) := by
  have h := @parsePolicy_eq_ok crate .strict caKeys what text items
  rwa [parsePolicy, if_pos rfl] at h

/-- **The strict parser accepts exactly its language, and then agrees with the legacy one.**
It succeeds when every entry parses with no option or with the one of a certificate
authority and there are not too many of them; legacy mode then returns the same list. -/
theorem strict_policy_language (crate : SshKeyCrate) (buf what what' : Text) (caKeys : Bool) :
    ((∃ items, fromStrStrict crate buf what caKeys = .ok items) ↔
      (∀ entry ∈ crate.authorizedKeys buf, ∃ parsed, entry = .ok parsed ∧
        (parsed.configOpts = [] ∨ parsed.configOpts = [certAuthority])) ∧
      (crate.authorizedKeys buf).length ≤ maxPolicyEntries) ∧
    ∀ items, fromStrStrict crate buf what caKeys = .ok items →
      parsePolicy crate buf what' caKeys .legacy = .ok items := by
  constructor
  · constructor
    · rintro ⟨items, h⟩
      exact (fromStrStrict_eq_ok.mp h).1
    · intro hparses
      exact ⟨_, fromStrStrict_eq_ok.mpr ⟨hparses, rfl⟩⟩
  · intro items h
    obtain ⟨-, hitems⟩ := fromStrStrict_eq_ok.mp h
    exact parsePolicy_eq_ok.mpr ⟨trivial, hitems⟩

/-! ## Lines -/

/-- A line without its comment and the white space at its end. -/
def policyLine (line : Text) : Text := Text.trimEnd (line.takeWhile (· ≠ '#'))

/-- The lines of a text that hold an entry. -/
def policyLines (text : Text) : List Text := (text.lines.map policyLine).filter (· ≠ [])

/-- `AuthorizedKeys` parses the lines of a text one by one. -/
def SshKeyCrate.LineWise (crate : SshKeyCrate) : Prop :=
  ∃ parseLine : Text → Except Text Entry,
    ∀ text, crate.authorizedKeys text = (policyLines text).map parseLine

/-- White space at the end of a line is dropped with it. -/
lemma policyLine_concat {c : Char} (hc : Text.isWhitespace c = true) (line : Text) :
    policyLine (line ++ [c]) = policyLine line := by
  have hhash : c ≠ '#' := by
    rintro rfl
    exact absurd hc (by decide)
  rw [policyLine, policyLine, List.takeWhile_append]
  split_ifs with hall
  · rw [List.takeWhile_cons_of_pos (by simpa using hhash), List.takeWhile_nil]
    have hline : line.takeWhile (· ≠ '#') = line :=
      (List.takeWhile_prefix _).eq_of_length hall
    rw [hline, Text.trimEnd, Text.trimEnd, List.rdropWhile_concat_pos _ _ _ hc]
  · rfl

lemma policyLine_stripCarriageReturn (line : Text) :
    policyLine line.stripCarriageReturn = policyLine line := by
  rw [Text.stripCarriageReturn]
  split_ifs with hlast
  · have hsplit : line = line.dropLast ++ ['\r'] :=
      (List.dropLast_append_getLast? '\r' hlast).symm
    have hdrop := policyLine_concat (show Text.isWhitespace '\r' = true by decide) line.dropLast
    rw [← hsplit] at hdrop
    exact hdrop.symm
  · rfl

/-- The lines that hold an entry, when a part of the first line has been read. -/
def policyLinesFrom (line text : Text) : List Text :=
  ((Text.linesFrom line text).map policyLine).filter (· ≠ [])

/-- One more white space at the end makes no line that holds an entry, and changes none. -/
lemma policyLinesFrom_concat {c : Char} (hc : Text.isWhitespace c = true) (line text : Text) :
    policyLinesFrom line (text ++ [c]) = policyLinesFrom line text := by
  have hsingle : ∀ line : Text, policyLinesFrom line [] = [policyLine line].filter (· ≠ []) := by
    intro line
    rw [policyLinesFrom, Text.linesFrom]
    split_ifs with hnil
    · subst hnil
      rfl
    · rfl
  induction text generalizing line with
  | nil =>
    rw [List.nil_append, hsingle line]
    by_cases hnewline : c = '\n'
    · have hlines : Text.linesFrom line [c] = [line.stripCarriageReturn] := by
        simp [Text.linesFrom, hnewline]
      rw [policyLinesFrom, hlines, List.map_singleton, policyLine_stripCarriageReturn]
    · have hlines : policyLinesFrom line [c] = policyLinesFrom (line ++ [c]) [] := by
        simp [policyLinesFrom, Text.linesFrom, hnewline]
      rw [hlines, hsingle, policyLine_concat hc]
  | cons d text ih =>
    by_cases hnewline : d = '\n'
    · have hcons : ∀ text : Text, policyLinesFrom line (d :: text) =
          [policyLine line.stripCarriageReturn].filter (· ≠ []) ++ policyLinesFrom [] text := by
        intro text
        rw [policyLinesFrom, Text.linesFrom, if_pos hnewline, List.map_cons, ← List.singleton_append,
          List.filter_append, policyLinesFrom]
      rw [List.cons_append, hcons, hcons, ih]
    · have hcons : ∀ text : Text, policyLinesFrom line (d :: text) =
          policyLinesFrom (line ++ [d]) text := by
        intro text
        rw [policyLinesFrom, Text.linesFrom, if_neg hnewline, policyLinesFrom]
      rw [List.cons_append, hcons, hcons, ih]

/-- White space at the end of a text is invisible. -/
lemma policyLines_trimEnd (text : Text) : policyLines text.trimEnd = policyLines text := by
  have hdrop : ∀ text : Text, policyLines (text.rdropWhile Text.isWhitespace) =
      policyLines text := by
    intro text
    induction text using List.reverseRecOn with
    | nil => rfl
    | append_singleton text c ih =>
      by_cases hc : Text.isWhitespace c = true
      · rw [List.rdropWhile_concat_pos _ _ _ hc, ih]
        exact (policyLinesFrom_concat hc [] text).symm
      · rw [List.rdropWhile_concat_neg _ _ _ hc]
  exact hdrop text

/-- A crate that parses line by line yields the same entries without the white space. -/
lemma SshKeyCrate.LineWise.trimEnd (h : crate.LineWise) (text : Text) :
    crate.authorizedKeys text.trimEnd = crate.authorizedKeys text := by
  obtain ⟨parseLine, hparse⟩ := h
  rw [hparse, hparse, policyLines_trimEnd]

end PamSshAgent
