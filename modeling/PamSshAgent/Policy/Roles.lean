import PamSshAgent.Policy.Load

/-!
# The roles that a policy gives

The policy that is loaded gives each entry exactly one role, and a load succeeds exactly
when every configured source can be read and parsed.
-/

namespace PamSshAgent

open Interaction

/-! ## What a text of keys means -/

/-- The entries of a text, without the lines that do not parse. -/
def parsedEntries (crate : SshKeyCrate) (text : Text) : List Entry :=
  (crate.authorizedKeys text).filterMap Except.toOption

/-- A line that strict mode understands. -/
def StrictEntry (entry : Except Text Entry) : Prop :=
  ∃ parsed, entry = .ok parsed ∧ (parsed.configOpts = [] ∨ parsed.configOpts = [certAuthority])

/-- The text parses under a mode. -/
def Parses (crate : SshKeyCrate) (text : Text) : PolicyMode → Prop
  | .legacy => True
  | .strict => (∀ entry ∈ crate.authorizedKeys text, StrictEntry entry) ∧
      (crate.authorizedKeys text).length ≤ maxPolicyEntries

/-- The calls `es` load the file and it parses, with the given entries. -/
def FileLoads (fuel : ℕ) (crate : SshKeyCrate) (filename : OsStr) (mode : PolicyMode)
    (es : List (Event PolicyCalls)) (entries : List Entry) : Prop :=
  ∃ text, (fileContents fuel filename mode).Returns es text ∧
    (Text.fromUtf8 filename).isSome = true ∧ Parses crate text mode ∧
      entries = parsedEntries crate text

/-- The calls `es` run the helper as a user that exists and its output parses, with the
given entries. -/
def HelperLoads (fuel : ℕ) (crate : SshKeyCrate) (host : Host) (command user callingUser : Text)
    (mode : PolicyMode) (es : List (Event PolicyCalls)) (entries : List Entry) : Prop :=
  ∃ uid path text esPath esOutput, host.getUid user = .ok uid ∧ es = esPath ++ esOutput ∧
    (helperPath command mode).Returns esPath path ∧
    (helperOutput fuel path uid callingUser mode).Returns esOutput text ∧
    Parses crate text mode ∧ entries = parsedEntries crate text

/-- The entries of the three sources. -/
structure LoadedEntries where
  file : List Entry
  ca : List Entry
  helper : List Entry

namespace LoadedEntries

/-- An entry for the key in the authorized-keys file or in the output of the helper, with or
without the option of a certificate authority. -/
def Lists (loaded : LoadedEntries) (key : KeyData) (isCa : Prop) : Prop :=
  ∃ entry ∈ loaded.file ++ loaded.helper, (certAuthority ∈ entry.configOpts ↔ isCa) ∧
    entry.publicKey.keyData = key

/-- The key may log in. -/
def Key (loaded : LoadedEntries) (key : KeyData) : Prop := loaded.Lists key False

/-- The key may certify. -/
def CaKey (loaded : LoadedEntries) (key : KeyData) : Prop :=
  (∃ entry ∈ loaded.ca, entry.publicKey.keyData = key) ∨ loaded.Lists key True

/-- The identity has the role that it needs. -/
def Accepts (loaded : LoadedEntries) : Identity → Prop
  | .publicKey key => loaded.Key key.keyData
  | .certificate cert => loaded.CaKey cert.signatureKey

end LoadedEntries

/-- The calls `es` load every configured source. -/
def SourcesLoad (fuel : ℕ) (crate : SshKeyCrate) (host : Host) (sources : PolicySources)
    (mode : PolicyMode) (es : List (Event PolicyCalls)) (loaded : LoadedEntries) : Prop :=
  ∃ esFile esCa esHelper, es = esFile ++ esCa ++ esHelper ∧
    (FileLoads fuel crate sources.authorizedKeysFile mode esFile loaded.file ∨
      mode = .legacy ∧ loaded.file = [] ∧
        esFile = [fsPart.event ⟨.readToString sources.authorizedKeysFile, .error .notFound⟩]) ∧
    (match sources.caKeysFile with
      | some caKeysFile => FileLoads fuel crate caKeysFile mode esCa loaded.ca
      | none => esCa = [] ∧ loaded.ca = []) ∧
    (match sources.authorizedKeysCommand with
      | some command => HelperLoads fuel crate host command sources.helperUser sources.callingUser
          mode esHelper loaded.helper
      | none => esHelper = [] ∧ loaded.helper = [])

variable {fuel : ℕ} {crate : SshKeyCrate} {host : Host} {sources : PolicySources}
  {mode : PolicyMode} {es : List (Event PolicyCalls)} {caKeys : Bool} {what text : Text}
  {items : List Authorized}

/-! ## Parsing -/

/-- One round of the strict loop accepts a line that it understands, up to the limit. -/
lemma authorizeStrict_eq_ok {done : List Authorized} {entry : Except Text Entry} {index : ℕ} :
    authorizeStrict what caKeys done (entry, index) = .ok items ↔
      ∃ parsed, entry = .ok parsed ∧
        (parsed.configOpts = [] ∨ parsed.configOpts = [certAuthority]) ∧
        done.length < maxPolicyEntries ∧ items = done ++ [authorizeLegacy caKeys parsed] := by
  cases entry with
  | error error => simp [authorizeStrict]
  | ok parsed =>
    simp only [authorizeStrict, Except.ok.injEq, exists_eq_left']
    by_cases hunderstood : parsed.configOpts = [] ∨ parsed.configOpts = [certAuthority]
    · have hrole : (if (caKeys || decide (parsed.configOpts = [certAuthority])) = true then
            .caKey parsed.publicKey.keyData
          else .key parsed.publicKey.keyData) = authorizeLegacy caKeys parsed := by
        rcases hunderstood with hnil | hca
        · cases caKeys <;> simp [authorizeLegacy, hnil]
        · simp [authorizeLegacy, hca]
      rw [hrole, if_neg (by rcases hunderstood with hnil | hca <;> simp [*])]
      by_cases hlimit : maxPolicyEntries ≤ done.length
      · rw [if_pos hlimit]
        exact iff_of_false (by simp) fun h => absurd h.2.1 (Nat.not_lt.mpr hlimit)
      · rw [if_neg hlimit, Except.ok.injEq, eq_comm]
        exact ⟨fun h => ⟨hunderstood, Nat.lt_of_not_le hlimit, h⟩, fun h => h.2.2⟩
    · have hneither := not_or.mp hunderstood
      rw [if_pos (by cases caKeys <;> simp [hneither.1, hneither.2])]
      exact iff_of_false (by simp) fun h => hunderstood h.1

/-- The strict loop accepts the lines that it understands, up to the limit. -/
lemma foldlM_authorizeStrict {entries : List (Except Text Entry)} {done : List Authorized}
    {start : ℕ} (hdone : done.length ≤ maxPolicyEntries) :
    (entries.zipIdx start).foldlM (authorizeStrict what caKeys) done = .ok items ↔
      (∀ entry ∈ entries, StrictEntry entry) ∧
        done.length + entries.length ≤ maxPolicyEntries ∧
        items = done ++ (entries.filterMap Except.toOption).map (authorizeLegacy caKeys) := by
  induction entries generalizing done start with
  | nil => simp [hdone, pure, Except.pure, eq_comm]
  | cons entry entries ih =>
    rw [List.zipIdx_cons, List.foldlM_cons]
    cases hround : authorizeStrict what caKeys done (entry, start) with
    | error error =>
      refine iff_of_false (by simp [bind, Except.bind]) ?_
      rintro ⟨hstrict, hlimit, -⟩
      obtain ⟨parsed, rfl, hoptions⟩ := hstrict entry List.mem_cons_self
      rw [List.length_cons] at hlimit
      have hless : done.length < maxPolicyEntries := by omega
      have hok : authorizeStrict what caKeys done (.ok parsed, start) =
          .ok (done ++ [authorizeLegacy caKeys parsed]) :=
        authorizeStrict_eq_ok.mpr ⟨parsed, rfl, hoptions, hless, rfl⟩
      exact absurd (hround.symm.trans hok) (by simp)
    | ok done' =>
      obtain ⟨parsed, rfl, hoptions, hlimit, rfl⟩ := authorizeStrict_eq_ok.mp hround
      have hlength : (done ++ [authorizeLegacy caKeys parsed]).length = done.length + 1 := by simp
      have hrest := @ih (done ++ [authorizeLegacy caKeys parsed]) (start + 1) (by omega)
      refine hrest.trans ?_
      rw [hlength, List.length_cons, List.forall_mem_cons, List.filterMap_cons]
      simp only [Except.toOption, List.map_cons, List.append_assoc, List.singleton_append]
      constructor
      · rintro ⟨hstrict, hle, rfl⟩
        exact ⟨⟨⟨parsed, rfl, hoptions⟩, hstrict⟩, by omega, rfl⟩
      · rintro ⟨⟨-, hstrict⟩, hle, rfl⟩
        exact ⟨hstrict, by omega, rfl⟩

/-- A text parses exactly when its mode says so, and each entry gets its role. -/
lemma parsePolicy_eq_ok : parsePolicy crate text what caKeys mode = .ok items ↔
    Parses crate text mode ∧ items = (parsedEntries crate text).map (authorizeLegacy caKeys) := by
  cases mode with
  | strict =>
    rw [parsePolicy, if_pos rfl, fromStrStrict, foldlM_authorizeStrict (by simp)]
    simp [Parses, parsedEntries, and_assoc]
  | legacy =>
    rw [parsePolicy, if_neg (by simp), Except.ok.injEq, parsedEntries, List.map_filterMap]
    simp only [Parses, true_and]
    rw [eq_comm]
    exact Eq.congr_right (List.filterMap_congr fun entry _ => by cases entry <;> rfl)

/-! ## The sets of the filter -/

lemma foldl_insert (sets : Finset KeyData × Finset KeyData) (key : KeyData) :
    (key ∈ (items.foldl IdentityFilter.insert sets).1 ↔ key ∈ sets.1 ∨ .key key ∈ items) ∧
      (key ∈ (items.foldl IdentityFilter.insert sets).2 ↔ key ∈ sets.2 ∨ .caKey key ∈ items) := by
  induction items generalizing sets with
  | nil => simp
  | cons item items ih =>
    rw [List.foldl_cons, (ih _).1, (ih _).2]
    cases item with
    | key other => simp [IdentityFilter.insert, or_left_comm, or_assoc]
    | caKey other => simp [IdentityFilter.insert, or_left_comm, or_assoc]

lemma mem_keys_ofAuthorized {strict : Bool} {key : KeyData} :
    key ∈ (IdentityFilter.ofAuthorized items strict).keys ↔ .key key ∈ items := by
  exact (foldl_insert (∅, ∅) key).1.trans (by simp)

lemma mem_caKeys_ofAuthorized {strict : Bool} {key : KeyData} :
    key ∈ (IdentityFilter.ofAuthorized items strict).caKeys ↔ .caKey key ∈ items := by
  exact (foldl_insert (∅, ∅) key).2.trans (by simp)

/-- The role of an entry. -/
lemma authorizeLegacy_eq (entry : Entry) : authorizeLegacy caKeys entry =
    if caKeys = true ∨ certAuthority ∈ entry.configOpts then .caKey entry.publicKey.keyData
    else .key entry.publicKey.keyData := by
  have hany : (entry.configOpts.any (· = certAuthority)) =
      decide (certAuthority ∈ entry.configOpts) := by
    rw [Bool.eq_iff_iff, List.any_eq_true, decide_eq_true_iff]
    simp
  rw [authorizeLegacy, hany]
  cases caKeys <;> by_cases hca : certAuthority ∈ entry.configOpts <;> simp [hca]

lemma authorizeLegacy_eq_key {entry : Entry} {key : KeyData} :
    authorizeLegacy caKeys entry = .key key ↔
      ¬ (caKeys = true ∨ certAuthority ∈ entry.configOpts) ∧ entry.publicKey.keyData = key := by
  rw [authorizeLegacy_eq]
  split_ifs with hca <;> simp [hca]

lemma authorizeLegacy_eq_caKey {entry : Entry} {key : KeyData} :
    authorizeLegacy caKeys entry = .caKey key ↔
      (caKeys = true ∨ certAuthority ∈ entry.configOpts) ∧ entry.publicKey.keyData = key := by
  rw [authorizeLegacy_eq]
  split_ifs with hca <;> simp [hca]

/-- What the module makes of the entries of the sources. -/
def LoadedEntries.authorized (loaded : LoadedEntries) : List Authorized :=
  loaded.file.map (authorizeLegacy false) ++ loaded.ca.map (authorizeLegacy true) ++
    loaded.helper.map (authorizeLegacy false)

lemma LoadedEntries.key_mem_authorized {loaded : LoadedEntries} {key : KeyData} :
    .key key ∈ loaded.authorized ↔ loaded.Key key := by
  simp only [authorized, Key, Lists, List.mem_append, List.mem_map, authorizeLegacy_eq_key]
  constructor
  · rintro ((⟨entry, hentry, hrole, hkey⟩ | ⟨entry, hentry, hrole, hkey⟩) | ⟨entry, hentry, hrole,
      hkey⟩)
    · exact ⟨entry, Or.inl hentry, by simpa using hrole, hkey⟩
    · exact absurd (Or.inl trivial) hrole
    · exact ⟨entry, Or.inr hentry, by simpa using hrole, hkey⟩
  · rintro ⟨entry, hentry | hentry, hrole, hkey⟩
    · exact Or.inl (Or.inl ⟨entry, hentry, by simpa using hrole, hkey⟩)
    · exact Or.inr ⟨entry, hentry, by simpa using hrole, hkey⟩

lemma LoadedEntries.caKey_mem_authorized {loaded : LoadedEntries} {key : KeyData} :
    .caKey key ∈ loaded.authorized ↔ loaded.CaKey key := by
  simp only [authorized, CaKey, Lists, List.mem_append, List.mem_map, authorizeLegacy_eq_caKey]
  constructor
  · rintro ((⟨entry, hentry, hrole, hkey⟩ | ⟨entry, hentry, hrole, hkey⟩) | ⟨entry, hentry, hrole,
      hkey⟩)
    · exact Or.inr ⟨entry, Or.inl hentry, by simpa using hrole, hkey⟩
    · exact Or.inl ⟨entry, hentry, hkey⟩
    · exact Or.inr ⟨entry, Or.inr hentry, by simpa using hrole, hkey⟩
  · rintro (⟨entry, hentry, hkey⟩ | ⟨entry, hentry | hentry, hrole, hkey⟩)
    · exact Or.inl (Or.inr ⟨entry, hentry, Or.inl trivial, hkey⟩)
    · exact Or.inl (Or.inl ⟨entry, hentry, by simpa using hrole, hkey⟩)
    · exact Or.inr ⟨entry, hentry, by simpa using hrole, hkey⟩

/-- The filter gives each entry the one role that its source and its options say. -/
lemma LoadedEntries.filter_authorized (loaded : LoadedEntries) (strict : Bool)
    (identity : Identity) :
    (IdentityFilter.ofAuthorized loaded.authorized strict).filter identity = true ↔
      loaded.Accepts identity := by
  cases identity with
  | publicKey key =>
    rw [IdentityFilter.filter, decide_eq_true_iff, mem_keys_ofAuthorized, key_mem_authorized]
    rfl
  | certificate cert =>
    rw [IdentityFilter.filter, decide_eq_true_iff, mem_caKeys_ofAuthorized, caKey_mem_authorized]
    rfl

/-! ## Loading -/

/-- Reading a file succeeds exactly when it loads. -/
lemma returns_fromFile (caKeys : Bool) {filename : OsStr} :
    (fromFile fuel crate filename caKeys mode).Returns es items ↔
    ∃ entries, FileLoads fuel crate filename mode es entries ∧
      items = entries.map (authorizeLegacy caKeys) := by
  rw [fromFile, Prog.returns_bind]
  constructor
  · rintro ⟨es₁, es₂, text, rfl, hcontents, hrest⟩
    cases hname : Text.fromUtf8 filename with
    | none => simp [hname] at hrest
    | some what =>
      rw [hname] at hrest
      obtain ⟨rfl, hparse⟩ := Prog.returns_ofExcept.mp hrest
      obtain ⟨hparses, rfl⟩ := parsePolicy_eq_ok.mp hparse
      rw [List.append_nil]
      exact ⟨_, ⟨text, hcontents, by simp [hname], hparses, rfl⟩, rfl⟩
  · rintro ⟨_, ⟨text, hcontents, hname, hparses, rfl⟩, rfl⟩
    obtain ⟨what, hwhat⟩ := Option.isSome_iff_exists.mp hname
    refine ⟨es, [], text, (List.append_nil es).symm, hcontents, ?_⟩
    rw [hwhat]
    exact Prog.returns_ofExcept.mpr ⟨rfl, parsePolicy_eq_ok.mpr ⟨hparses, rfl⟩⟩

/-- Running the helper succeeds exactly when it loads. -/
lemma returns_fromCommand {command user callingUser : Text} :
    (Prog.ofExcept (host.getUid user) >>= fun uid =>
      fromCommand fuel crate command uid callingUser mode).Returns es items ↔
    ∃ entries, HelperLoads fuel crate host command user callingUser mode es entries ∧
      items = entries.map (authorizeLegacy false) := by
  rw [Prog.returns_bind]
  simp only [Prog.returns_ofExcept, fromCommand, Prog.returns_bind]
  constructor
  · rintro ⟨_, es₁, uid, rfl, ⟨rfl, huid⟩, es₂, es₃, path, rfl, hpath, es₄, es₅, text, rfl, houtput,
      rfl, hparse⟩
    obtain ⟨hparses, rfl⟩ := parsePolicy_eq_ok.mp hparse
    rw [List.append_nil]
    exact ⟨_, ⟨uid, path, text, es₂, es₄, huid, rfl, hpath, houtput, hparses, rfl⟩, rfl⟩
  · rintro ⟨_, ⟨uid, path, text, es₂, es₄, huid, rfl, hpath, houtput, hparses, rfl⟩, rfl⟩
    exact ⟨[], es₂ ++ es₄, uid, rfl, ⟨rfl, huid⟩, es₂, es₄, path, rfl, hpath, es₄, [], text,
      (List.append_nil es₄).symm, houtput, rfl, parsePolicy_eq_ok.mpr ⟨hparses, rfl⟩⟩

/-- The path that strict mode hands to `run_inner`. -/
lemma returns_helperPath_strict {configured command : Text} :
    (helperPath configured .strict).Returns es command ↔
      ∃ calls canonical, es = calls.map fsPart.event ∧
        (validateTrustPath configured.bytes 0).Returns calls canonical ∧
          Text.fromUtf8 canonical = some command := by
  refine Prog.returns_bind.trans ?_
  constructor
  · rintro ⟨es₁, es₂, canonical, rfl, hlift, hrest⟩
    obtain ⟨calls, rfl, hcalls⟩ := Prog.returns_lift.mp hlift
    cases hutf8 : Text.fromUtf8 canonical with
    | none =>
      rw [hutf8] at hrest
      exact absurd hrest Prog.not_returns_fail
    | some text =>
      rw [hutf8] at hrest
      obtain ⟨rfl, rfl⟩ := Prog.returns_ret.mp hrest
      exact ⟨calls, canonical, List.append_nil _, hcalls, hutf8⟩
  · rintro ⟨calls, canonical, rfl, hcalls, hutf8⟩
    refine ⟨calls.map fsPart.event, [], canonical, (List.append_nil _).symm,
      Prog.returns_lift.mpr ⟨calls, rfl, hcalls⟩, ?_⟩
    rw [hutf8]
    exact Prog.returns_ret.mpr ⟨rfl, rfl⟩

/-- That path passes its checks. -/
lemma returns_helperPath {configured command : Text} {es : List (Event PolicyCalls)}
    (h : (helperPath configured .strict).Returns es command) :
    ∃ calls, es = calls.map fsPart.event ∧
      (validateTrustPath configured.bytes 0).Returns calls command.bytes := by
  obtain ⟨calls, canonical, hevents, hcalls, hutf8⟩ := returns_helperPath_strict.mp h
  rw [Text.bytes_of_fromUtf8 hutf8]
  exact ⟨calls, hevents, hcalls⟩

/-- In legacy mode the file is missing exactly when the one call that reads it says so. -/
lemma fails_fromFile_notFound (fuel : ℕ) (crate : SshKeyCrate) (caKeys : Bool)
    {filename : OsStr} :
    (∃ error, (fromFile fuel crate filename caKeys .legacy).Fails es error ∧
      error.downcastIo = some .notFound) ↔
        es = [fsPart.event ⟨.readToString filename, .error .notFound⟩] := by
  constructor
  · rintro ⟨error, hfails, hmissing⟩
    rw [fromFile] at hfails
    rcases Prog.fails_bind.mp hfails with hread | ⟨es₁, es₂, text, rfl, -, hparse⟩
    · have hlifted : ((fsCall (.readToString filename)).lift fsPart).Ends es (.error error) := hread
      obtain ⟨es', rfl, hcall⟩ := Prog.ends_lift.mp hlifted
      obtain ⟨reply, rfl, hreply⟩ := ends_fsCall.mp hcall
      cases reply with
      | ok text => exact absurd hreply (by simp [Except.mapError])
      | error cause =>
        obtain rfl := Except.error.inj hreply
        obtain rfl := Option.some.inj hmissing
        rfl
    · -- in legacy mode every text parses, so only the name of the file is left
      cases hname : Text.fromUtf8 filename with
      | none =>
        rw [hname] at hparse
        obtain ⟨-, rfl⟩ := Prog.fails_fail.mp hparse
        exact absurd hmissing (by simp [Error.anyhow, Error.downcastIo])
      | some what =>
        rw [hname] at hparse
        exact absurd hparse Prog.not_fails_ret
  · rintro rfl
    refine ⟨.io .notFound, Prog.fails_bind.mpr (Or.inl ?_), rfl⟩
    have hcall : (fsCall (.readToString filename)).Ends
        [⟨.readToString filename, .error .notFound⟩] (.error (.io .notFound)) :=
      ends_fsCall.mpr ⟨.error .notFound, rfl, rfl⟩
    exact Prog.ends_lift.mpr ⟨_, rfl, hcall⟩

/-- What the authorized-keys file contributes. -/
lemma returns_fileItems : (sources.fileItems fuel crate mode).Returns es items ↔
    ∃ entries, (FileLoads fuel crate sources.authorizedKeysFile mode es entries ∨
      mode = .legacy ∧ entries = [] ∧
        es = [fsPart.event ⟨.readToString sources.authorizedKeysFile, .error .notFound⟩]) ∧
      items = entries.map (authorizeLegacy false) := by
  rw [PolicySources.fileItems, Prog.returns_bind]
  constructor
  · rintro ⟨es₁, es₂, result, rfl, hload, hrest⟩
    rcases Prog.returns_attempt.mp hload with ⟨keys, rfl, hreturns⟩ | ⟨error, rfl, hfails⟩
    · obtain ⟨rfl, rfl⟩ := Prog.returns_ret.mp hrest
      obtain ⟨entries, hentries, hitems⟩ := (returns_fromFile _).mp hreturns
      rw [List.append_nil]
      exact ⟨entries, Or.inl hentries, hitems⟩
    · dsimp only at hrest
      split_ifs at hrest with htolerated
      · obtain ⟨rfl, rfl⟩ := Prog.returns_ret.mp hrest
        obtain ⟨rfl, hmissing⟩ := htolerated
        rw [List.append_nil]
        have hcall := (fails_fromFile_notFound fuel crate false).mp ⟨error, hfails, hmissing⟩
        exact ⟨[], Or.inr ⟨rfl, rfl, hcall⟩, rfl⟩
      · exact absurd hrest Prog.not_returns_fail
  · rintro ⟨entries, hfile | ⟨rfl, rfl, hcall⟩, rfl⟩
    · have hreturns := (returns_fromFile false).mpr ⟨entries, hfile, rfl⟩
      exact ⟨es, [], _, (List.append_nil es).symm,
        Prog.returns_attempt.mpr (Or.inl ⟨_, rfl, hreturns⟩), Prog.returns_ret.mpr ⟨rfl, rfl⟩⟩
    · obtain ⟨error, hfails, hmissing⟩ := (fails_fromFile_notFound fuel crate false).mpr hcall
      refine ⟨es, [], _, (List.append_nil es).symm,
        Prog.returns_attempt.mpr (Or.inr ⟨error, rfl, hfails⟩), ?_⟩
      dsimp only
      rw [if_pos ⟨rfl, hmissing⟩]
      exact Prog.returns_ret.mpr ⟨rfl, rfl⟩

/-- What the file of certificate authorities contributes. -/
lemma returns_caItems : (sources.caItems fuel crate mode).Returns es items ↔
    ∃ entries, (match sources.caKeysFile with
      | some caKeysFile => FileLoads fuel crate caKeysFile mode es entries
      | none => es = [] ∧ entries = []) ∧ items = entries.map (authorizeLegacy true) := by
  rw [PolicySources.caItems]
  cases sources.caKeysFile with
  | some caKeysFile => exact returns_fromFile true
  | none => simp [and_assoc]

/-- What the output of the helper contributes. -/
lemma returns_helperItems : (sources.helperItems fuel crate host mode).Returns es items ↔
    ∃ entries, (match sources.authorizedKeysCommand with
      | some command => HelperLoads fuel crate host command sources.helperUser sources.callingUser
          mode es entries
      | none => es = [] ∧ entries = []) ∧ items = entries.map (authorizeLegacy false) := by
  rw [PolicySources.helperItems]
  cases sources.authorizedKeysCommand with
  | some command => exact returns_fromCommand
  | none => simp [and_assoc]

/-- The policy is loaded exactly when all its sources are. -/
lemma returns_newWithMode {policy : IdentityFilter} :
    (IdentityFilter.newWithMode fuel crate host sources mode).Returns es policy ↔
      ∃ loaded, SourcesLoad fuel crate host sources mode es loaded ∧
        policy = IdentityFilter.ofAuthorized loaded.authorized (mode = .strict) := by
  simp only [IdentityFilter.newWithMode, Prog.returns_bind, returns_fileItems, returns_caItems,
    returns_helperItems, Prog.returns_ret]
  constructor
  · rintro ⟨es₁, _, _, rfl, ⟨file, hfile, rfl⟩, es₂, _, _, rfl, ⟨ca, hca, rfl⟩, es₃, _, _, rfl,
      ⟨helper, hhelper, rfl⟩, rfl, rfl⟩
    refine ⟨⟨file, ca, helper⟩, ⟨es₁, es₂, es₃, by simp, ?_, hca, hhelper⟩, rfl⟩
    exact hfile
  · rintro ⟨⟨file, ca, helper⟩, ⟨es₁, es₂, es₃, rfl, hfile, hca, hhelper⟩, rfl⟩
    exact ⟨es₁, es₂ ++ es₃, _, by simp, ⟨file, hfile, rfl⟩, es₂, es₃, _, rfl, ⟨ca, hca, rfl⟩, es₃,
      [], _, by simp, ⟨helper, hhelper, rfl⟩, rfl, rfl⟩

/-! ## A file with one key -/

/-- A line with an Ed25519 key. -/
def keyLine : Text :=
  "ssh-ed25519 AAAAC3NzaC1lZDI1NTE5AAAAIObUcRy1Nv6fz4xnAXqOaFL/A+gGM9OF+l2qpsDPmMlU test@ed25519"

/-- The key of the line. -/
def lineKey : PublicKey where
  keyData := .ed25519 [230, 212, 113, 28, 181, 54, 254, 159, 207, 140, 103, 1, 122, 142, 104, 82,
    255, 3, 232, 6, 51, 211, 133, 250, 93, 170, 166, 192, 207, 152, 201, 84]
  comment := "test@ed25519"

/-- What the crate makes of the line. -/
def keyLineCrate : SshKeyCrate where
  authorizedKeys text := if text = keyLine then [.ok ⟨[], lineKey⟩] else []
  fromOpenssh text := if text = keyLine then .ok lineKey else .error "unexpected length"
  fingerprint _ _ := []
  validateAt _ _ _ := .error "certificate validation failed"
  verify _ _ _ := .error ()

/-- A host without accounts. -/
def emptyHost : Host where
  getUserByName _ := none
  hostname := .error "no host name"
  var _ := none

/-- Only the authorized-keys file is configured. -/
def keyLineSources : PolicySources where
  authorizedKeysFile := Text.bytes "/keys"
  caKeysFile := none
  authorizedKeysCommand := none
  authorizedKeysCommandUser := none
  callingUser := "bob"

/-- The file is read once. -/
def keyLineCalls : List (Event PolicyCalls) :=
  [fsPart.event ⟨.readToString (Text.bytes "/keys"), .ok keyLine⟩]

lemma keyLine_loads (fuel : ℕ) (host : Host) :
    (IdentityFilter.newWithMode fuel keyLineCrate host keyLineSources .legacy).Ends keyLineCalls
      (.ok (IdentityFilter.ofAuthorized [.key lineKey.keyData] false)) := by
  refine returns_newWithMode.mpr ⟨⟨[⟨[], lineKey⟩], [], []⟩, ⟨keyLineCalls, [], [], rfl, Or.inl ?_,
    ⟨rfl, rfl⟩, ⟨rfl, rfl⟩⟩, rfl⟩
  have hcall : (fsCall (.readToString (Text.bytes "/keys"))).Ends
      [⟨.readToString (Text.bytes "/keys"), .ok keyLine⟩] (.ok keyLine) :=
    ends_fsCall.mpr ⟨.ok keyLine, rfl, rfl⟩
  refine ⟨keyLine, Prog.returns_lift.mpr ⟨_, rfl, hcall⟩, ?_, trivial, rfl⟩
  decide +kernel

end PamSshAgent
