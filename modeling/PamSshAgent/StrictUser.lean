import PamSshAgent.Environment

/-!
# Plain local users

In strict mode the calling user and the user of the helper must be plain names of local
accounts.
-/

namespace PamSshAgent

/-- `byte.is_ascii_alphanumeric() || matches!(byte, b'_' | b'-')`. -/
def isPlainByte (b : UInt8) : Bool :=
  (48 ≤ b && b ≤ 57) || (65 ≤ b && b ≤ 90) || (97 ≤ b && b ≤ 122) || b = 95 || b = 45

/-- The test of the name in `validate_strict_user`. -/
def isPlainName (name : Text) : Bool := !name.isEmpty && name.bytes.all isPlainByte

/-- `validate_strict_user`. -/
def validateStrictUser (host : Host) (name : Text) : Except Error Uid :=
  if !isPlainName name then
    .error (.anyhow ["strict mode requires a plain local user name"])
  else
    match host.getUserByName name with
    | none => .error (.anyhow ["strict mode could not resolve local user '", name, "'"])
    | some user =>
      if user.name ≠ name then
        .error (.anyhow ["strict mode user name does not match the local account"])
      else
        .ok user.uid

/-- No byte of a plain name starts a variable. -/
lemma percent_notMem_of_isPlainName {name : Text} (h : isPlainName name = true) :
    '%' ∉ name := by
  intro hmem
  simp only [isPlainName, Bool.and_eq_true, List.all_eq_true] at h
  have hbyte : (37 : UInt8) ∈ name.bytes :=
    List.mem_flatMap.mpr ⟨'%', hmem, by decide⟩
  exact absurd (h.2 37 hbyte) (by decide)

/-- What a successful check says about the name. -/
lemma validateStrictUser_eq_ok {host : Host} {name : Text} {uid : Uid}
    (h : validateStrictUser host name = .ok uid) :
    isPlainName name = true ∧
      ∃ user, host.getUserByName name = some user ∧ user.name = name ∧ user.uid = uid := by
  unfold validateStrictUser at h
  split_ifs at h with hplain
  cases huser : host.getUserByName name with
  | none => simp [huser] at h
  | some user =>
    simp only [huser] at h
    split_ifs at h with hname
    exact ⟨by simpa using hplain, user, rfl, not_not.mp hname, Except.ok.inj h⟩

end PamSshAgent
