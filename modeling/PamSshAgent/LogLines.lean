import PamSshAgent.Library.PrefixCode
import PamSshAgent.Rust.Text

/-!
# The text of a log record

`escape_log_value` replaces the control characters and the backslashes of a message, and
`PrefixFormatter` puts the name of the service in front of it, escaped as well.  The escapes
are a prefix code, so that the escaped text can be read back.
-/

namespace PamSshAgent

open PrefixCode

/-- `char::is_control`, the Unicode category `Cc`. -/
def isControl (c : Char) : Bool := c.toNat < 0x20 || (0x7f ≤ c.toNat && c.toNat < 0xa0)

/-- The format `{:x}` of a number. -/
def lowerHex (n : ℕ) : Text := Nat.toDigits 16 n

/-- The match on one character in `escape_log_value`. -/
def escapeChar (c : Char) : Text :=
  match c with
  | '\\' => "\\\\"
  | '\n' => "\\n"
  | '\r' => "\\r"
  | '\t' => "\\t"
  | c => if isControl c then ("\\u\x7b" : Text) ++ lowerHex c.toNat ++ ("\x7d" : Text) else [c]

/-- `escape_log_value`. -/
def escapeLogValue (value : Text) : Text := value.flatMap escapeChar

example : escapeLogValue "service\r\nuser\t\u0007\\key" =
    ("service\\r\\nuser\\t\\u\x7b7\x7d\\\\key" : Text) := by decide

/-- `PrefixFormatter`, without the formatter of the `syslog` crate inside it. -/
structure PrefixFormatter where
  linePrefix : Text

/-- `PrefixFormatter::new`. -/
def PrefixFormatter.new (pamService : Text) : PrefixFormatter where
  linePrefix := ("pam_ssh_agent(" : Text) ++ escapeLogValue pamService ++ (":auth): " : Text)

/-- `PrefixFormatter::format`: the text that is handed to the formatter inside. -/
def PrefixFormatter.format (self : PrefixFormatter) (message : Text) : Text :=
  self.linePrefix ++ escapeLogValue message

/-! ## Reading an escaped text -/

/-- Where the reader of an escaped text is. -/
inductive EscapeState where
  | plain
  /-- After a backslash. -/
  | escape
  /-- After the `u` of a number. -/
  | number
  /-- Among the digits of a number, with the value so far. -/
  | digits (value : ℕ)

/-- The value of a hexadecimal digit. -/
def hexValue (c : Char) : ℕ :=
  if c.toNat < 0x3a then c.toNat - 0x30 else c.toNat - 0x57

/-- The character that a backslash and a letter stand for. -/
def escaped : Char → Char
  | 'n' => '\n'
  | 'r' => '\r'
  | 't' => '\t'
  | c => c

/-- Read an escaped text from a state on. -/
def unescapeFrom : EscapeState → Text → Text
  | _, [] => []
  | .plain, c :: rest =>
    if c = '\\' then unescapeFrom .escape rest else c :: unescapeFrom .plain rest
  | .escape, c :: rest =>
    if c = 'u' then unescapeFrom .number rest else escaped c :: unescapeFrom .plain rest
  | .number, _ :: rest => unescapeFrom (.digits 0) rest
  | .digits value, c :: rest =>
    if c = '\x7d' then Char.ofNat value :: unescapeFrom .plain rest
    else unescapeFrom (.digits (16 * value + hexValue c)) rest

/-- The text that an escaped text stands for. -/
def unescape (text : Text) : Text := unescapeFrom .plain text

/-! ## Numbers -/

lemma digitChar_facts : ∀ d < 16, hexValue (Nat.digitChar d) = d ∧ Nat.digitChar d ≠ '\x7d' ∧
    isControl (Nat.digitChar d) = false := by
  decide

/-- The digits of a number are hexadecimal digits, the last one that of the remainder. -/
lemma lowerHex_eq (n : ℕ) : lowerHex n =
    (if n < 16 then [] else lowerHex (n / 16)) ++ [Nat.digitChar (n % 16)] := by
  rw [lowerHex, Nat.toDigits_eq_if (by decide)]
  split_ifs with hsmall
  · rw [Nat.mod_eq_of_lt hsmall]
    rfl
  · rfl

lemma mem_lowerHex {n : ℕ} {c : Char} (h : c ∈ lowerHex n) : ∃ d < 16, c = Nat.digitChar d := by
  induction n using Nat.strong_induction_on with
  | _ n ih =>
    rw [lowerHex_eq] at h
    rcases List.mem_append.mp h with hfront | hlast
    · split_ifs at hfront with hsmall
      · exact absurd hfront (by simp)
      · exact ih (n / 16) (by omega) hfront
    · exact ⟨n % 16, by omega, List.mem_singleton.mp hlast⟩

/-- Digits that are no closing brace are read up. -/
lemma unescapeFrom_digits {ds : Text} (hds : '\x7d' ∉ ds) (value : ℕ) (rest : Text) :
    unescapeFrom (.digits value) (ds ++ rest) =
      unescapeFrom (.digits (ds.foldl (fun value c => 16 * value + hexValue c) value)) rest := by
  induction ds generalizing value with
  | nil => rfl
  | cons d ds ih =>
    obtain ⟨hd, hds⟩ := not_or.mp (mt List.mem_cons.mpr hds)
    rw [List.cons_append, unescapeFrom, if_neg (Ne.symm hd), ih hds, List.foldl_cons]

lemma foldl_lowerHex (n : ℕ) :
    (lowerHex n).foldl (fun value c => 16 * value + hexValue c) 0 = n := by
  induction n using Nat.strong_induction_on with
  | _ n ih =>
    rw [lowerHex_eq, List.foldl_append]
    have hdigit : hexValue (Nat.digitChar (n % 16)) = n % 16 :=
      (digitChar_facts (n % 16) (by omega)).1
    split_ifs with hsmall
    · rw [List.foldl_nil, List.foldl_cons, List.foldl_nil, hdigit]
      omega
    · rw [ih (n / 16) (by omega), List.foldl_cons, List.foldl_nil, hdigit]
      omega

/-! ## The escapes -/

/-- Reading an escape gives back the character, whatever follows. -/
lemma unescape_escapeChar (c : Char) (rest : Text) :
    unescape (escapeChar c ++ rest) = c :: unescape rest := by
  unfold escapeChar
  split
  · rfl
  · rfl
  · rfl
  · rfl
  · rename_i hback _ _ _
    split_ifs with hcontrol
    · -- the digits are read up to the closing brace
      have hbrace : '\x7d' ∉ lowerHex c.toNat := by
        intro hmem
        obtain ⟨d, hd, hchar⟩ := mem_lowerHex hmem
        exact (digitChar_facts d hd).2.1 hchar.symm
      have hstart : unescape (("\\u\x7b" : Text) ++ lowerHex c.toNat ++ ("\x7d" : Text) ++ rest) =
          unescapeFrom (.digits 0) (lowerHex c.toNat ++ '\x7d' :: rest) := by
        rw [List.append_assoc, List.append_assoc]
        rfl
      rw [hstart, unescapeFrom_digits hbrace, foldl_lowerHex, unescapeFrom, if_pos rfl,
        Char.ofNat_toNat]
      rfl
    · rw [List.singleton_append, unescape, unescapeFrom, if_neg hback]
      rfl

lemma escapeChar_ne_nil (c : Char) : escapeChar c ≠ [] := by
  unfold escapeChar
  split
  · decide
  · decide
  · decide
  · decide
  · split_ifs
    · exact List.append_ne_nil_of_right_ne_nil _ (by decide)
    · exact List.cons_ne_nil _ _

/-- The escapes are a prefix code. -/
lemma isPrefixCode_escapeChar : IsPrefixCode escapeChar := by
  refine isPrefixCode_of_read escapeChar_ne_nil (fun text => (unescape text).head?) ?_
  intro c rest
  rw [unescape_escapeChar, List.head?_cons]

/-- A fixed text is looked through once. -/
lemma isControl_of_all {text : Text} (h : text.all (! isControl ·) = true) {d : Char}
    (hd : d ∈ text) : isControl d = false := by
  have hall := List.all_eq_true.mp h d hd
  simpa using hall

/-- No escape has a control character. -/
lemma isControl_of_mem_escapeChar {c d : Char} (h : d ∈ escapeChar c) : isControl d = false := by
  unfold escapeChar at h
  split at h
  · exact isControl_of_all (by decide) h
  · exact isControl_of_all (by decide) h
  · exact isControl_of_all (by decide) h
  · exact isControl_of_all (by decide) h
  · split_ifs at h with hcontrol
    · rcases List.mem_append.mp h with hfront | hclose
      · rcases List.mem_append.mp hfront with hopen | hdigit
        · exact isControl_of_all (by decide) hopen
        · obtain ⟨digit, hlt, rfl⟩ := mem_lowerHex hdigit
          exact (digitChar_facts digit hlt).2.2
      · exact isControl_of_all (by decide) hclose
    · rw [List.mem_singleton.mp h]
      simpa using hcontrol

/-! ## Texts and lines -/

/-- Reading an escaped text gives back the text. -/
lemma unescape_escapeLogValue (value : Text) : unescape (escapeLogValue value) = value := by
  induction value with
  | nil => rfl
  | cons c value ih =>
    rw [escapeLogValue, List.flatMap_cons, ← escapeLogValue, unescape_escapeChar, ih]

lemma isControl_of_mem_escapeLogValue {value : Text} {c : Char} (h : c ∈ escapeLogValue value) :
    isControl c = false := by
  obtain ⟨d, -, hc⟩ := List.mem_flatMap.mp h
  exact isControl_of_mem_escapeChar hc

lemma escapeLogValue_injective : Function.Injective escapeLogValue :=
  isPrefixCode_escapeChar.flatMap_injective

/-- A line has no control character, whoever chose the service and the message. -/
lemma isControl_of_mem_format {service message : Text} {c : Char}
    (h : c ∈ (PrefixFormatter.new service).format message) : isControl c = false := by
  rcases List.mem_append.mp h with hprefix | hmessage
  · rcases List.mem_append.mp hprefix with hfront | hend
    · rcases List.mem_append.mp hfront with hname | hservice
      · exact isControl_of_all (by decide) hname
      · exact isControl_of_mem_escapeLogValue hservice
    · exact isControl_of_all (by decide) hend
  · exact isControl_of_mem_escapeLogValue hmessage

/-- **The escape of a log value loses nothing and starts no line.**  An escaped text has no
control character and can be read back, so that different texts have different escapes; what
follows an escaped text inside another one is the escape of the rest of that text.  A line as a
whole has no control character, and differs with the message and with the service. -/
theorem escapeLogValue_lossless :
    (∀ value, ∀ c ∈ escapeLogValue value, isControl c = false) ∧
    (∀ value, unescape (escapeLogValue value) = value) ∧
    (∀ value value', escapeLogValue value = escapeLogValue value' → value = value') ∧
    (∀ value rest whole, escapeLogValue value ++ rest = escapeLogValue whole →
      ∃ more, whole = value ++ more ∧ rest = escapeLogValue more) ∧
    (∀ service message, ∀ c ∈ (PrefixFormatter.new service).format message,
      isControl c = false) ∧
    (∀ service message message', (PrefixFormatter.new service).format message =
      (PrefixFormatter.new service).format message' → message = message') ∧
    ∀ service service' message, (PrefixFormatter.new service).format message =
      (PrefixFormatter.new service').format message → service = service' := by
  refine ⟨?_, unescape_escapeLogValue, ?_, ?_, ?_, ?_, ?_⟩
  · intro value c hc
    exact isControl_of_mem_escapeLogValue hc
  · intro value value' heq
    exact escapeLogValue_injective heq
  · intro value rest whole heq
    exact isPrefixCode_escapeChar.flatMap_append_eq_iff.mp heq
  · intro service message c hc
    exact isControl_of_mem_format hc
  · intro service message message' heq
    exact escapeLogValue_injective (List.append_cancel_left heq)
  · intro service service' message heq
    have hprefix := List.append_cancel_right heq
    have hservice := List.append_cancel_right hprefix
    exact escapeLogValue_injective (List.append_cancel_left hservice)

end PamSshAgent
