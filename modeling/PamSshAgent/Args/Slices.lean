import PamSshAgent.Rust.Path
import PamSshAgent.Rust.Str
import PamSshAgent.Library.Interaction
import PamSshAgent.Args.Expansions

/-!
# The slices of the expansions

`expand_homedir` and `expand_var` cut their input at byte offsets: the one where the search
found its pattern, the one behind the pattern, and the one behind a user name.  Here they
work on the bytes of a `str`, and a slice that is out of bounds or cuts a character in two
ends the run with a panic.
-/

namespace PamSshAgent

open Interaction Occurrence

/-- How a function that does not return has ended. -/
inductive Abort where
  | panic
  | error (error : Error)

/-- The argument `get_homedir` of `expand_homedir`, called with a user name. -/
abbrev HomedirCalls : Interface := ⟨Str, fun _ => Except Error Str⟩

/-- The argument `get_value` of `expand_var`. -/
abbrev ValueCalls : Interface := ⟨Unit, fun _ => Except Error Str⟩

/-- A slice that is used: the function panics if it does not exist. -/
def orPanic {I : Interface} (slice : Option Str) : Prog I Abort Str :=
  match slice with
  | some part => .ret part
  | none => .fail .panic

@[simp] lemma orPanic_some {I : Interface} (part : Str) :
    orPanic (some part) = (.ret part : Prog I Abort Str) := rfl

/-- The operator `?` on the reply of a call. -/
def orError {I : Interface} (reply : Except Error Str) : Prog I Abort Str :=
  .ofExcept (reply.mapError .error)

/-- The byte `~`. -/
def tilde : UInt8 := 0x7e

namespace Str

/-- The loop of `get_username`, over the bytes from `offset` on. -/
def usernameLoop (input : Str) (idx : ℕ) : (offset : ℕ) → List UInt8 → Option Str
  | _, [] => input.sliceFrom idx
  | offset, char :: bytes =>
    if char = slash then input.slice idx (idx + offset)
    else usernameLoop input idx (offset + 1) bytes

/-- `get_username`. -/
def getUsername (input : Str) (idx : ℕ) : Option Str := do
  let idx := idx + 1
  let tail ← input.sliceFrom idx
  usernameLoop input idx 0 tail.bytes

/-- `expand_var`. -/
def expandVar (input pattern : Str) : Prog ValueCalls Abort Str :=
  match input.find pattern with
  | none => .ret input
  | some idx => do
    let output ← orPanic (input.sliceTo idx)
    let value ← Prog.query (I := ValueCalls) ()
    let value ← orError value
    let output := output.pushStr value
    let rest ← orPanic (input.sliceFrom (idx + pattern.len))
    return output.pushStr rest

/-- `expand_homedir`. -/
def expandHomedir (input : Str) : Prog HomedirCalls Abort Str :=
  match input.find "~" with
  | none => .ret input
  | some idx => do
    let user ← orPanic (input.getUsername idx)
    let output ← orPanic (input.sliceTo idx)
    let home ← Prog.query (I := HomedirCalls) user
    let home ← orError home
    let output := output.pushStr home
    let rest ← orPanic (input.sliceFrom (idx + 1 + user.len))
    return output.pushStr rest

lemma bytes_tilde : ("~" : Str).bytes = [tilde] := rfl

lemma bytes_slash : ("/" : Str).bytes = [slash] := rfl

end Str

/-- The first tilde of a path, the user name after it, and the rest from the next slash on. -/
structure TildeSplit (input before user rest : List UInt8) : Prop where
  split : input = before ++ tilde :: (user ++ rest)
  before_free : tilde ∉ before
  user_free : slash ∉ user
  rest_slash : rest = [] ∨ rest.head? = some slash

/-- There is at most one such split. -/
lemma TildeSplit.unique {input before user rest before' user' rest' : List UInt8}
    (h : TildeSplit input before user rest) (h' : TildeSplit input before' user' rest') :
    before' = before ∧ user' = user ∧ rest' = rest := by
  have heq : before' ++ tilde :: (user' ++ rest') = before ++ tilde :: (user ++ rest) :=
    h'.split.symm.trans h.split
  have hbefore : before' = before := by
    have hcut := congrArg (List.takeWhile (· ≠ tilde)) heq
    rwa [takeWhile_append_of_notMem h'.before_free (Or.inr rfl),
      takeWhile_append_of_notMem h.before_free (Or.inr rfl)] at hcut
  subst hbefore
  have htail : user' ++ rest' = user ++ rest := (List.cons.inj (List.append_cancel_left heq)).2
  have huser : user' = user := by
    have hcut := congrArg (List.takeWhile (· ≠ slash)) htail
    rwa [takeWhile_append_of_notMem h'.user_free h'.rest_slash,
      takeWhile_append_of_notMem h.user_free h.rest_slash] at hcut
  subst huser
  exact ⟨rfl, rfl, List.append_cancel_left htail⟩

/-! ## The user name -/

namespace Str

/-- The loop stops at the first slash. -/
lemma usernameLoop_eq (input : Str) (idx offset : ℕ) (bytes : List UInt8) :
    input.usernameLoop idx offset bytes =
      match Occurrence.find [slash] bytes with
      | none => input.sliceFrom idx
      | some k => input.slice idx (idx + (offset + k)) := by
  induction bytes generalizing offset with
  | nil => rfl
  | cons char bytes ih =>
    by_cases hchar : char = slash
    · subst hchar
      have hfind : Occurrence.find [slash] (slash :: bytes) = some 0 := by
        simp [Occurrence.find]
      rw [usernameLoop, if_pos rfl, hfind]
      rfl
    · have hfind : Occurrence.find [slash] (char :: bytes) =
          (Occurrence.find [slash] bytes).map (· + 1) := by
        simp [Occurrence.find, Ne.symm hchar]
      rw [usernameLoop, if_neg hchar, ih, hfind]
      cases Occurrence.find [slash] bytes with
      | none => rfl
      | some k =>
        show input.slice idx (idx + (offset + 1 + k)) = input.slice idx (idx + (offset + (k + 1)))
        congr 2
        omega

/-- The slices of `get_username` behind a tilde exist. -/
lemma getUsername_eq (before tail : Str) : ∃ user rest : Str, tail = user ++ rest ∧
    slash ∉ user.bytes ∧ (rest.bytes = [] ∨ rest.bytes.head? = some slash) ∧
      (before ++ "~" ++ tail).getUsername before.len = some user := by
  have hlen : (before ++ ("~" : Str)).len = before.len + 1 := by
    rw [len, bytes_append, bytes_tilde, List.length_append, List.length_singleton, len]
  have htail : (before ++ "~" ++ tail).sliceFrom (before.len + 1) = some tail := by
    rw [← hlen]
    exact sliceFrom_append _ _
  have hname : (before ++ "~" ++ tail).getUsername before.len =
      (before ++ "~" ++ tail).usernameLoop (before.len + 1) 0 tail.bytes := by
    rw [getUsername, htail, Option.bind_eq_bind, Option.bind_some]
  rw [usernameLoop_eq] at hname
  cases hfind : Occurrence.find [slash] tail.bytes with
  | none =>
    refine ⟨tail, ofText [], Str.ext (List.append_nil _).symm, ?_, Or.inl rfl, ?_⟩
    · intro hmem
      exact find_eq_none_iff.mp hfind ((List.singleton_infix_iff _ _).mpr hmem)
    · rw [hname, hfind, htail]
  | some k =>
    obtain ⟨A, B, htailBytes, hA, rfl⟩ := find_singleton_eq_some hfind
    have hsplit : tail.bytes = A ++ ("/" : Str).bytes ++ B := by
      rw [htailBytes, bytes_slash, List.append_assoc, List.singleton_append]
    obtain ⟨user, rest, rfl, rfl⟩ := split_of_bytes (List.cons_ne_nil _ _) hsplit
    refine ⟨user, "/" ++ rest, append_assoc _ _ _, hA, Or.inr rfl, ?_⟩
    have hslice : (before ++ "~" ++ (user ++ "/" ++ rest)).slice (before.len + 1)
        (before.len + 1 + user.len) = some user := by
      rw [append_assoc user, ← append_assoc (before ++ "~") user, ← hlen]
      exact slice_append _ _ _
    rw [hname, hfind]
    show Str.slice _ (before.len + 1) (before.len + 1 + (0 + user.len)) = some user
    rw [Nat.zero_add]
    exact hslice

example : (("é~müller/x" : Str).getUsername 2).map Str.bytes = some (Text.bytes "müller") := by
  decide

/-! ## The expansions -/

/-- Where the pattern of `expand_var` is found, its slices exist. -/
lemma expandVar_of_find {before pattern after : Str}
    (h : (before ++ pattern ++ after).find pattern = some before.len) :
    (before ++ pattern ++ after).expandVar pattern =
      .ask () fun reply => orError (reply.map fun value => before ++ value ++ after) := by
  have hto : (before ++ pattern ++ after).sliceTo before.len = some before := by
    rw [append_assoc]
    exact sliceTo_append _ _
  have hfrom : (before ++ pattern ++ after).sliceFrom (before.len + pattern.len) = some after := by
    have hlen : (before ++ pattern).len = before.len + pattern.len := List.length_append
    rw [← hlen]
    exact sliceFrom_append _ _
  rw [expandVar, h]
  simp only [hto, hfrom]
  refine congrArg (Prog.ask (I := ValueCalls) ()) (funext fun reply => ?_)
  cases reply with
  | ok value => rfl
  | error error => rfl

/-- Where `expand_homedir` finds a tilde, its slices exist. -/
lemma expandHomedir_of_find {before tail : Str}
    (h : (before ++ "~" ++ tail).find "~" = some before.len) :
    ∃ user rest : Str, tail = user ++ rest ∧ slash ∉ user.bytes ∧
      (rest.bytes = [] ∨ rest.bytes.head? = some slash) ∧
        (before ++ "~" ++ tail).expandHomedir =
          .ask user fun reply => orError (reply.map fun home => before ++ home ++ rest) := by
  obtain ⟨user, rest, rfl, huser, hrest, hname⟩ := getUsername_eq before tail
  refine ⟨user, rest, rfl, huser, hrest, ?_⟩
  have hto : (before ++ "~" ++ (user ++ rest)).sliceTo before.len = some before := by
    rw [append_assoc]
    exact sliceTo_append _ _
  have hfrom : (before ++ "~" ++ (user ++ rest)).sliceFrom (before.len + 1 + user.len) =
      some rest := by
    have hlen : (before ++ ("~" : Str) ++ user).len = before.len + 1 + user.len := by
      rw [len, bytes_append, bytes_append, bytes_tilde, List.length_append, List.length_append,
        List.length_singleton, len, len]
    rw [← append_assoc, ← hlen]
    exact sliceFrom_append _ _
  rw [expandHomedir, h]
  simp only [hname, hto, orPanic_some, Prog.ret_bind]
  refine congrArg (Prog.ask (I := HomedirCalls) user) (funext fun reply => ?_)
  cases reply with
  | ok home =>
    show (orPanic ((before ++ "~" ++ (user ++ rest)).sliceFrom (before.len + 1 + user.len)) >>=
      fun rest => Prog.ret ((before ++ home).pushStr rest)) = _
    rw [hfrom]
    rfl
  | error error => rfl

/-- How a run ends in which one query is asked and its reply used. -/
lemma ends_ask_orError {I : Interface} {q : I.Query} {f : I.Reply q → Except Error Str}
    {es : List (Event I)} {x : Except Abort Str} :
    (Prog.ask q fun reply => orError (f reply)).Ends es x ↔
      ∃ reply, es = [⟨q, reply⟩] ∧ x = (f reply).mapError .error := by
  rw [Prog.ends_ask]
  constructor
  · rintro ⟨reply, es', rfl, h⟩
    obtain ⟨rfl, rfl⟩ := Prog.ends_ofExcept.mp h
    exact ⟨reply, rfl, rfl⟩
  · rintro ⟨reply, rfl, rfl⟩
    exact ⟨reply, [], rfl, Prog.ends_ofExcept.mpr ⟨rfl, rfl⟩⟩

/-- A run that has got as far as its query does not panic. -/
lemma not_panic_ask {I : Interface} {q : I.Query} {f : I.Reply q → Except Error Str}
    {es : List (Event I)} :
    ¬ (Prog.ask q fun reply => orError (f reply)).Ends es (.error .panic) := by
  intro h
  obtain ⟨reply, -, hpanic⟩ := ends_ask_orError.mp h
  cases hreply : f reply with
  | ok part =>
    rw [hreply] at hpanic
    exact absurd hpanic (by simp [Except.mapError])
  | error error =>
    rw [hreply] at hpanic
    exact absurd hpanic (by simp [Except.mapError])

/-- `expand_var` returns the text, or replaces a pattern in it by what `get_value` returns. -/
lemma expandVar_cases (input pattern : Str) : input.expandVar pattern = .ret input ∨
    ∃ before after : Str, input.expandVar pattern =
      .ask () fun reply => orError (reply.map fun value => before ++ value ++ after) := by
  cases h : input.find pattern with
  | none =>
    left
    rw [expandVar, h]
  | some idx =>
    right
    obtain ⟨before, after, rfl, rfl⟩ := find_eq_some h
    exact ⟨before, after, expandVar_of_find h⟩

/-- A path with a tilde splits in one way, and `expand_homedir` asks for the user of that
split. -/
lemma expandHomedir_of_mem {input : Str} (h : tilde ∈ input.bytes) :
    ∃ before user rest : Str, TildeSplit input.bytes before.bytes user.bytes rest.bytes ∧
      input.expandHomedir =
        .ask user fun reply => orError (reply.map fun home => before ++ home ++ rest) := by
  obtain ⟨idx, hidx⟩ := find_eq_some_of_occurs ((List.singleton_infix_iff _ _).mpr h)
  have hfind : input.find "~" = some idx := hidx
  obtain ⟨A, B, hsplit, hA, hlen⟩ := find_singleton_eq_some hidx
  obtain ⟨before, tail, rfl, rfl⟩ := find_eq_some hfind
  obtain ⟨user, rest, rfl, huser, hrest, hprogram⟩ := expandHomedir_of_find hfind
  have hbytes : (before ++ "~" ++ (user ++ rest)).bytes =
      before.bytes ++ tilde :: (user.bytes ++ rest.bytes) := by
    rw [bytes_append, bytes_append, bytes_append, bytes_tilde, List.append_assoc,
      List.singleton_append]
  have hbefore : A = before.bytes := (List.append_inj (hsplit.symm.trans hbytes) hlen).1
  exact ⟨before, user, rest, ⟨hbytes, hbefore ▸ hA, huser, hrest⟩, hprogram⟩

lemma expandHomedir_of_notMem {input : Str} (h : tilde ∉ input.bytes) :
    input.expandHomedir = .ret input := by
  have hfind : input.find "~" = none := by
    rw [find, bytes_tilde, find_eq_none_iff, List.singleton_infix_iff]
    exact h
  rw [expandHomedir, hfind]

end Str

/-! ## Bytes and characters -/

/-- With the reply of `get_value`, `expand_var` ends on the bytes as it does on the
characters. -/
lemma expandVar_ofText (t pattern : Text) (getValue : Except Error Text) :
    ∃ es, ((Str.ofText t).expandVar (Str.ofText pattern)).Ends es
        (((expandVar t pattern getValue).map Str.ofText).mapError .error) ∧
      ∀ e ∈ es, e.reply = getValue.map Str.ofText := by
  have hoffset := Str.find_ofText t pattern
  cases hfind : find pattern t with
  | none =>
    rw [hfind, Option.map_none] at hoffset
    refine ⟨[], ?_, List.forall_mem_nil _⟩
    rw [Str.expandVar, hoffset, expandVar, hfind]
    exact Prog.ends_ret.mpr ⟨rfl, rfl⟩
  | some i =>
    obtain ⟨A, B, rfl, rfl⟩ := find_eq_some_split hfind
    have hchars : expandVar (A ++ pattern ++ B) pattern getValue =
        getValue.map fun value => A ++ value ++ B := by
      have hreplace : ∀ value,
          replaceFirst pattern value (A ++ pattern ++ B) = A ++ value ++ B := by
        intro value
        rw [replaceFirst_of_find hfind, ← List.length_append, List.drop_left, List.append_assoc A,
          List.take_left]
      rw [expandVar_of_occurs ⟨A, B, rfl⟩]
      simp only [hreplace]
    rw [hfind, Option.map_some, List.append_assoc, List.take_left, ← List.append_assoc,
      Str.ofText_append, Str.ofText_append] at hoffset
    refine ⟨[⟨(), getValue.map Str.ofText⟩], ?_, by simp⟩
    rw [hchars, Str.ofText_append, Str.ofText_append, Str.expandVar_of_find hoffset,
      Str.ends_ask_orError]
    refine ⟨_, rfl, ?_⟩
    cases getValue with
    | ok value =>
      show Except.ok (Str.ofText (A ++ value ++ B)) =
        Except.ok (Str.ofText A ++ Str.ofText value ++ Str.ofText B)
      rw [Str.ofText_append, Str.ofText_append]
    | error error => rfl

/-- The user name behind a tilde, on the characters. -/
lemma takeWhile_text {user rest : Str} (huser : slash ∉ user.bytes)
    (hrest : rest.bytes = [] ∨ rest.bytes.head? = some slash) :
    (user.text ++ rest.text).takeWhile (· ≠ '/') = user.text := by
  apply takeWhile_append_of_notMem
  · intro hmem
    obtain ⟨a, b, hsplit⟩ := List.append_of_mem hmem
    apply huser
    rw [← Str.bytes_text user, hsplit, Text.bytes_append, Text.bytes_cons]
    exact List.mem_append_right _ List.mem_cons_self
  · rcases hrest with hnil | hhead
    · left
      apply Text.bytes_injective
      rw [Str.bytes_text, hnil]
      rfl
    · right
      obtain ⟨B, hB⟩ := List.head?_eq_some_iff.mp hhead
      have hsplit : rest.bytes = [] ++ ("/" : Str).bytes ++ B := hB
      obtain ⟨a, b, rfl, ha⟩ := Str.split_of_bytes (List.cons_ne_nil _ _) hsplit
      have htext : a.text = [] := Text.bytes_injective ((Str.bytes_text a).trans ha)
      rw [Str.text_append, Str.text_append, htext, Str.text_ofText]
      rfl

/-- With the reply of `get_homedir`, `expand_homedir` ends on the bytes as it does on the
characters. -/
lemma expandHomedir_ofText (t : Text) (getHomedir : Text → Except Error Text) :
    ∃ es, (Str.ofText t).expandHomedir.Ends es
        (((expandHomedir t getHomedir).map Str.ofText).mapError .error) ∧
      ∀ e ∈ es, e.reply = (getHomedir e.query.text).map Str.ofText := by
  have hoffset : (Str.ofText t).find "~" =
      (find ['~'] t).map fun i => (Text.bytes (t.take i)).length := Str.find_ofText t ['~']
  cases hfind : find ['~'] t with
  | none =>
    rw [hfind, Option.map_none] at hoffset
    refine ⟨[], ?_, List.forall_mem_nil _⟩
    rw [Str.expandHomedir, hoffset, expandHomedir, hfind]
    exact Prog.ends_ret.mpr ⟨rfl, rfl⟩
  | some i =>
    obtain ⟨A, B, rfl, rfl⟩ := find_eq_some_split hfind
    have hbytes : Str.ofText (A ++ ['~'] ++ B) = Str.ofText A ++ "~" ++ Str.ofText B := by
      rw [Str.ofText_append, Str.ofText_append]
      rfl
    rw [hfind, Option.map_some, List.append_assoc, List.take_left, ← List.append_assoc,
      hbytes] at hoffset
    -- both forms cut the text behind the tilde at its first slash
    obtain ⟨user, rest, htail, huser, hrest, hprogram⟩ := Str.expandHomedir_of_find hoffset
    have hB : B = user.text ++ rest.text := by
      rw [← Str.text_ofText B, htail, Str.text_append]
    subst hB
    have hchars : expandHomedir (A ++ ['~'] ++ (user.text ++ rest.text)) getHomedir =
        (getHomedir user.text).map fun home => A ++ home ++ rest.text := by
      have hname : getUsername (A ++ ['~'] ++ (user.text ++ rest.text)) A.length = user.text := by
        have hdrop : (A ++ ['~'] ++ (user.text ++ rest.text)).drop (A.length + 1) =
            user.text ++ rest.text := by
          simp
        rw [getUsername, hdrop, takeWhile_text huser hrest]
      have hafter : (A ++ ['~'] ++ (user.text ++ rest.text)).drop
          (A.length + 1 + user.text.length) = rest.text := by
        simp [← List.drop_drop]
      have hbefore : (A ++ ['~'] ++ (user.text ++ rest.text)).take A.length = A := by simp
      rw [expandHomedir, hfind]
      simp only [hname, hafter, hbefore]
      cases getHomedir user.text with
      | ok home => rfl
      | error error => rfl
    refine ⟨[⟨user, (getHomedir user.text).map Str.ofText⟩], ?_, by simp⟩
    rw [hchars, hbytes, hprogram, Str.ends_ask_orError]
    refine ⟨_, rfl, ?_⟩
    cases getHomedir user.text with
    | ok home =>
      show Except.ok (Str.ofText (A ++ home ++ rest.text)) =
        Except.ok (Str.ofText A ++ Str.ofText home ++ rest)
      rw [Str.ofText_append, Str.ofText_append, Str.ofText_text]
    | error error => rfl

/-- **The slices of the expansions.**  Whatever the text, and whatever `get_homedir` and
`get_value` return, no slice of `expand_homedir` and `expand_var` is out of bounds or inside a
character.  A text without a tilde is returned as it is.  In a text with a tilde there is just
one first tilde with a user name and a rest behind it; `get_homedir` is asked for that user, and
the home directory takes the place of the two. -/
theorem expandHomedir_decomposes (input : Str) :
    (∀ es, ¬ input.expandHomedir.Ends es (.error .panic)) ∧
    (∀ pattern es, ¬ (input.expandVar pattern).Ends es (.error .panic)) ∧
    (tilde ∉ input.bytes → ∀ es x, input.expandHomedir.Ends es x ↔ es = [] ∧ x = .ok input) ∧
    (tilde ∈ input.bytes → ∃ before user rest : Str,
      TildeSplit input.bytes before.bytes user.bytes rest.bytes ∧
      (∀ before' user' rest', TildeSplit input.bytes before' user' rest' →
        before' = before.bytes ∧ user' = user.bytes ∧ rest' = rest.bytes) ∧
      ∀ es x, input.expandHomedir.Ends es x ↔ ∃ reply : Except Error Str, es = [⟨user, reply⟩] ∧
        x = (reply.map fun home => before ++ home ++ rest).mapError .error) := by
  refine ⟨fun es hes => ?_, fun pattern es hes => ?_, fun htilde es x => ?_, fun htilde => ?_⟩
  · by_cases htilde : tilde ∈ input.bytes
    · obtain ⟨before, user, rest, -, hprogram⟩ := Str.expandHomedir_of_mem htilde
      rw [hprogram] at hes
      exact Str.not_panic_ask hes
    · rw [Str.expandHomedir_of_notMem htilde, Prog.ends_ret] at hes
      exact absurd hes.2 (by simp)
  · rcases Str.expandVar_cases input pattern with hprogram | ⟨before, after, hprogram⟩
    · rw [hprogram, Prog.ends_ret] at hes
      exact absurd hes.2 (by simp)
    · rw [hprogram] at hes
      exact Str.not_panic_ask hes
  · rw [Str.expandHomedir_of_notMem htilde]
    exact Prog.ends_ret
  · obtain ⟨before, user, rest, hsplit, hprogram⟩ := Str.expandHomedir_of_mem htilde
    refine ⟨before, user, rest, hsplit, fun before' user' rest' h' => hsplit.unique h', ?_⟩
    intro es x
    rw [hprogram]
    exact Str.ends_ask_orError

end PamSshAgent
