import PamSshAgent.Library.Halting
import PamSshAgent.Trust.Path

/-!
# Reading a trust file to its end

`read_bounded` asks for one byte more than a policy may have.  It gives a text only when it has
seen the end of the file, so that a file that is too long, or one that stops being readable, is
never used in part.  Reading comes to an end whatever the file delivers, unless it is interrupted
again and again.
-/

namespace PamSshAgent

open Interaction

/-- The bytes that the reads have brought. -/
def receivedBytes (es : List (Event FsCalls)) : List UInt8 :=
  es.flatMap fun
    | ⟨.read _ _ _, .ok (chunk : List UInt8)⟩ => chunk
    | _ => []

/-- A read brings no more than it asks for. -/
def ReadFits : Event FsCalls → Prop
  | ⟨.read _ _ limit, .ok (chunk : List UInt8)⟩ => chunk.length ≤ limit
  | _ => True

/-- The last read of the file has this reply. -/
def LastRead (file : FileId) (es : List (Event FsCalls)) (reply : Except IoError (List UInt8)) :
    Prop :=
  ∃ before position limit, es = before ++ [⟨.read file position limit, reply⟩]

/-- Each read goes on where the one before has stopped, up to the limit. -/
def ReadsOn (file : FileId) (limit : ℕ) (done : List UInt8) (es : List (Event FsCalls)) : Prop :=
  ∀ es₁ e es₂, es = es₁ ++ e :: es₂ → e.query =
    .read file (done ++ receivedBytes es₁).length (limit - (done ++ receivedBytes es₁).length)

/-- How reading to the limit ends: at the end of the file, at the limit or with an error. -/
inductive ReadEnds (file : FileId) (limit : ℕ) (done : List UInt8) (es : List (Event FsCalls)) :
    Except Error (List UInt8) → Prop
  | endOfFile (h : LastRead file es (.ok [])) (hshort : (done ++ receivedBytes es).length < limit) :
      ReadEnds file limit done es (.ok (done ++ receivedBytes es))
  | full (h : (done ++ receivedBytes es).length = limit) :
      ReadEnds file limit done es (.ok (done ++ receivedBytes es))
  | failed {error : IoError} (h : LastRead file es (.error error)) (herror : error ≠ .interrupted)
      (hshort : (done ++ receivedBytes es).length < limit) :
      ReadEnds file limit done es (.error (.io error))

variable {file : FileId} {limit fuel : ℕ} {done : List UInt8} {es : List (Event FsCalls)}

lemma receivedBytes_cons (e : Event FsCalls) (es : List (Event FsCalls)) :
    receivedBytes (e :: es) = receivedBytes [e] ++ receivedBytes es := by
  simp [receivedBytes]

lemma LastRead.cons {reply : Except IoError (List UInt8)} (h : LastRead file es reply)
    (e : Event FsCalls) : LastRead file (e :: es) reply := by
  obtain ⟨before, position, limit, rfl⟩ := h
  exact ⟨e :: before, position, limit, rfl⟩

/-- A read in front of the others. -/
lemma ReadsOn.cons {reply : Except IoError (List UInt8)}
    (h : ReadsOn file limit
      (done ++ receivedBytes [⟨.read file done.length (limit - done.length), reply⟩]) es) :
    ReadsOn file limit done (⟨.read file done.length (limit - done.length), reply⟩ :: es) := by
  intro es₁ e es₂ hsplit
  cases es₁ with
  | nil =>
    obtain ⟨rfl, -⟩ := List.cons.inj hsplit
    simp [receivedBytes]
  | cons e₁ es₁ =>
    obtain ⟨rfl, hrest⟩ := List.cons.inj hsplit
    rw [receivedBytes_cons, ← List.append_assoc]
    exact h es₁ e es₂ hrest

lemma ReadEnds.cons {x : Except Error (List UInt8)} {e : Event FsCalls}
    (h : ReadEnds file limit (done ++ receivedBytes [e]) es x) :
    ReadEnds file limit done (e :: es) x := by
  have hall : done ++ receivedBytes [e] ++ receivedBytes es = done ++ receivedBytes (e :: es) := by
    rw [receivedBytes_cons e es, List.append_assoc]
  cases h with
  | endOfFile h hshort =>
    rw [hall] at hshort ⊢
    exact .endOfFile (h.cons e) hshort
  | full h =>
    rw [hall] at h ⊢
    exact .full h
  | failed h herror hshort =>
    rw [hall] at hshort
    exact .failed (h.cons e) herror hshort

/-- What reading does, after the bytes `done`. -/
lemma ends_readToEnd_reads {x : Except Error (List UInt8)} (hdone : done.length ≤ limit)
    (hfits : ∀ e ∈ es, ReadFits e) (h : (readToEnd file limit fuel done).Ends es x) :
    ReadsOn file limit done es ∧ ReadEnds file limit done es x := by
  induction fuel generalizing done es with
  | zero => exact absurd h Prog.not_ends_spin
  | succ fuel ih =>
    rw [readToEnd] at h
    have hnone : ReadsOn file limit done [] := by
      intro es₁ e es₂ hsplit
      exact absurd hsplit (by simp)
    split_ifs at h with hfull
    · obtain ⟨rfl, rfl⟩ := Prog.ends_ret.mp h
      have hreceived : done ++ receivedBytes [] = done := by simp [receivedBytes]
      refine ⟨hnone, ?_⟩
      have hends : ReadEnds file limit done [] (.ok (done ++ receivedBytes [])) :=
        .full (by rw [hreceived]; omega)
      rwa [hreceived] at hends
    rw [Prog.query_bind] at h
    obtain ⟨reply, es', rfl, hrest⟩ := Prog.ends_ask.mp h
    have hfits' := fun e he => hfits e (List.mem_cons_of_mem _ he)
    have hfirst : ReadFits ⟨.read file done.length (limit - done.length), reply⟩ :=
      hfits _ List.mem_cons_self
    -- after a read, the rest of the run is that of a call with what it has brought
    have hagain : ∀ done', done' = done ++ receivedBytes
        [⟨.read file done.length (limit - done.length), reply⟩] → done'.length ≤ limit →
        (readToEnd file limit fuel done').Ends es' x →
        ReadsOn file limit done (⟨.read file done.length (limit - done.length), reply⟩ :: es') ∧
          ReadEnds file limit done
            (⟨.read file done.length (limit - done.length), reply⟩ :: es') x := by
      rintro _ rfl hlength hrest
      obtain ⟨hreads, hends⟩ := ih hlength hfits' hrest
      exact ⟨hreads.cons, hends.cons⟩
    have hlast : es' = [] → ReadsOn file limit done
        (⟨.read file done.length (limit - done.length), reply⟩ :: es') ∧ LastRead file
          (⟨.read file done.length (limit - done.length), reply⟩ :: es') reply := by
      rintro rfl
      refine ⟨ReadsOn.cons fun es₁ e es₂ hsplit => absurd hsplit (by simp), [], _, _, rfl⟩
    rcases reply with error | _ | ⟨b, chunk⟩
    · by_cases herror : error = .interrupted
      · subst herror
        exact hagain done (by simp [receivedBytes]) hdone hrest
      · obtain ⟨rfl, rfl⟩ : es' = [] ∧ x = .error (.io error) := by
          cases error with
          | interrupted => exact absurd rfl herror
          | _ => exact Prog.ends_fail.mp hrest
        obtain ⟨hreads, hfailed⟩ := hlast rfl
        exact ⟨hreads, .failed hfailed herror (by simpa [receivedBytes] using hfull)⟩
    · obtain ⟨rfl, rfl⟩ := Prog.ends_ret.mp hrest
      obtain ⟨hreads, hended⟩ := hlast rfl
      refine ⟨hreads, ?_⟩
      have hends := @ReadEnds.endOfFile file limit done _ hended
        (by simpa [receivedBytes] using hfull)
      simpa [receivedBytes] using hends
    · refine hagain (done ++ b :: chunk) (by simp [receivedBytes]) ?_ hrest
      have hcount : (b :: chunk).length ≤ limit - done.length := hfirst
      rw [List.length_append]
      omega

/-- The last read has only one reply. -/
lemma LastRead.unique {reply reply' : Except IoError (List UInt8)} (h : LastRead file es reply)
    (h' : LastRead file es reply') : reply = reply' := by
  obtain ⟨before, position, limit, rfl⟩ := h
  obtain ⟨before', position', limit', heq⟩ := h'
  have hlast := (List.append_inj' heq rfl).2
  cases hlast
  rfl

/-! ## Reading comes to an end -/

/-- A read of a file was interrupted. -/
def Interrupted : Event FsCalls → Bool
  | ⟨.read _ _ _, .error .interrupted⟩ => true
  | _ => false

lemma fsCall_spins {R : List (Event FsCalls) → Prop} (query : FsQuery) :
    (fsCall query).SpinsOnly R :=
  Prog.spinsOnly_ask fun _ => Prog.spinsOnly_ofExcept _

lemma validateComponentsFrom_spins {R : List (Event FsCalls) → Prop} (requiredUid : Uid)
    (allowSymlink : Bool) (current : OsStr) (components : List Component) :
    (validateComponentsFrom requiredUid allowSymlink current components).SpinsOnly R := by
  induction components generalizing current R with
  | nil => exact Prog.spinsOnly_ret _
  | cons component rest ih =>
    rw [validateComponentsFrom]
    refine (fsCall_spins _).bind fun _ _ _ => ?_
    exact (Prog.spinsOnly_ofExcept _).bind fun _ _ _ => ih _

lemma validateTrustPath_spins {R : List (Event FsCalls) → Prop} (path : OsStr) (requiredUid : Uid) :
    (validateTrustPath path requiredUid).SpinsOnly R := by
  rw [validateTrustPath]
  split_ifs
  · exact Prog.spinsOnly_fail _
  refine (validateComponentsFrom_spins _ _ _ _).bind fun _ _ _ => ?_
  refine (fsCall_spins _).bind fun _ _ _ => ?_
  refine (validateComponentsFrom_spins _ _ _ _).bind fun _ _ _ => ?_
  refine (fsCall_spins _).bind fun _ _ _ => ?_
  split_ifs
  · exact Prog.spinsOnly_fail _
  · exact Prog.spinsOnly_ret _

/-- Each read that is not interrupted delivers something, up to the limit. -/
lemma readToEnd_spins (file : FileId) (limit fuel : ℕ) (bytes : List UInt8) :
    (readToEnd file limit fuel bytes).SpinsOnly fun es =>
      fuel ≤ es.countP Interrupted + (limit - bytes.length) + 1 := by
  induction fuel generalizing bytes with
  | zero => exact Prog.spinsOnly_spin (Nat.zero_le _)
  | succ fuel ih =>
    rw [readToEnd]
    split_ifs with hlimit
    · exact Prog.spinsOnly_ret _
    rw [Prog.query_bind]
    refine Prog.spinsOnly_ask ?_
    rintro (error | chunk)
    · cases error with
      | interrupted =>
        have hinterrupted : Interrupted ⟨.read file bytes.length (limit - bytes.length),
          .error .interrupted⟩ = true := rfl
        refine (ih bytes).mono fun es h => ?_
        rw [List.countP_cons, if_pos hinterrupted]
        omega
      | _ => exact Prog.spinsOnly_fail _
    · cases chunk with
      | nil => exact Prog.spinsOnly_ret _
      | cons byte chunk =>
        refine (ih (bytes ++ byte :: chunk)).mono fun es h => ?_
        rw [List.countP_cons]
        rw [List.length_append, List.length_cons] at h
        omega

lemma readBounded_spins (fuel : ℕ) (file : FileId) : (readBounded fuel file).SpinsOnly fun es =>
    fuel ≤ es.countP Interrupted + maxPolicyBytes + 2 := by
  rw [readBounded]
  refine ((readToEnd_spins _ _ _ _).mono fun es h => ?_).bind fun _ bytes _ => ?_
  · rw [List.length_nil] at h
    omega
  split_ifs
  · exact Prog.spinsOnly_fail _
  · split
    · exact Prog.spinsOnly_ret _
    · exact Prog.spinsOnly_fail _

lemma readStrictFile_spins (fuel : ℕ) (path : OsStr) (requiredUid : Uid) :
    (readStrictFile fuel path requiredUid).SpinsOnly fun es =>
      fuel ≤ es.countP Interrupted + maxPolicyBytes + 2 := by
  rw [readStrictFile]
  refine (validateTrustPath_spins _ _).bind fun es₁ canonical _ => ?_
  refine (fsCall_spins _).bind fun es₂ expected _ => ?_
  refine (fsCall_spins _).bind fun es₃ file _ => ?_
  refine (fsCall_spins _).bind fun es₄ actual _ => ?_
  split_ifs
  · exact Prog.spinsOnly_fail _
  refine (readBounded_spins fuel file).mono fun es h => ?_
  simp only [List.countP_append]
  omega

/-! ## `read_bounded` -/

/-- The error of a trust file that is too long. -/
def oversized : Error :=
  .anyhow ["Trusted-key policy exceeds ", Text.ofUid maxPolicyBytes, " bytes"]

/-- What `read_bounded` does with a file and gives for it. -/
structure ReadWhole (file : FileId) (es : List (Event FsCalls)) (x : Except Error Text) : Prop where
  /-- The file is read from its start on, and no further than a byte behind the limit. -/
  reads : ReadsOn file (maxPolicyBytes + 1) [] es
  received : (receivedBytes es).length ≤ maxPolicyBytes + 1
  /-- There is a text exactly if the end of the file was seen, and it is all that was read. -/
  whole : ∀ text, x = .ok text ↔ LastRead file es (.ok []) ∧
    (receivedBytes es).length ≤ maxPolicyBytes ∧ Text.fromUtf8 (receivedBytes es) = some text
  notText : x = .error .utf8 ↔ LastRead file es (.ok []) ∧
    (receivedBytes es).length ≤ maxPolicyBytes ∧ Text.fromUtf8 (receivedBytes es) = none
  /-- The limit is passed exactly if there is a byte more. -/
  tooLong : x = .error oversized ↔ (receivedBytes es).length = maxPolicyBytes + 1
  /-- No error of a read is passed over, except that an interrupted read is made again. -/
  failed : ∀ error, x = .error (.io error) ↔ LastRead file es (.error error) ∧
    error ≠ .interrupted ∧ (receivedBytes es).length ≤ maxPolicyBytes

/-- What is left of `read_bounded` after the reads. -/
def judged : Except Error (List UInt8) → Except Error Text
  | .error error => .error error
  | .ok bytes =>
    if maxPolicyBytes < bytes.length then .error oversized
    else (Text.fromUtf8 bytes).elim (.error .utf8) .ok

lemma ends_readBounded {x : Except Error Text} (h : (readBounded fuel file).Ends es x) :
    ∃ read, (readToEnd file (maxPolicyBytes + 1) fuel []).Ends es read ∧ x = judged read := by
  rw [readBounded] at h
  rcases Prog.ends_bind.mp h with ⟨error, rfl, hread⟩ | ⟨es₁, es₂, bytes, rfl, hread, hrest⟩
  · exact ⟨_, hread, rfl⟩
  have hjudged : es₂ = [] ∧ x = judged (.ok bytes) := by
    rw [judged]
    split_ifs at hrest ⊢ with hlimit
    · exact Prog.ends_fail.mp hrest
    · cases htext : Text.fromUtf8 bytes with
      | some text =>
        rw [htext] at hrest
        exact Prog.ends_ret.mp hrest
      | none =>
        rw [htext] at hrest
        exact Prog.ends_fail.mp hrest
  obtain ⟨rfl, rfl⟩ := hjudged
  exact ⟨_, (List.append_nil es₁).symm ▸ hread, rfl⟩

/-- How a run of `read_bounded` ends, when the reads bring no more than they are asked for. -/
lemma readWhole_of_ends {x : Except Error Text} (hfits : ∀ e ∈ es, ReadFits e)
    (h : (readBounded fuel file).Ends es x) : ReadWhole file es x := by
  obtain ⟨read, hread, rfl⟩ := ends_readBounded h
  obtain ⟨hreads, hends⟩ := ends_readToEnd_reads (Nat.zero_le _) hfits hread
  cases hends with
  | endOfFile hlast hshort =>
    rw [List.nil_append] at hshort ⊢
    have hle : (receivedBytes es).length ≤ maxPolicyBytes := Nat.lt_succ_iff.mp hshort
    have hio : ∀ error, ¬ LastRead file es (.error error) := by
      intro error herror
      exact absurd (hlast.unique herror) (by simp)
    rw [judged, if_neg (Nat.not_lt.mpr hle)]
    cases htext : Text.fromUtf8 (receivedBytes es) with
    | some text => exact
        { reads := hreads
          received := by omega
          whole := by simp [hlast, hle, htext]
          notText := by simp [htext]
          tooLong := iff_of_false (by simp) (by omega)
          failed := by simp [hio] }
    | none => exact
        { reads := hreads
          received := by omega
          whole := by simp [htext]
          notText := by simp [hlast, hle, htext]
          tooLong := iff_of_false (by simp [oversized, Error.anyhow]) (by omega)
          failed := by simp [hio] }
  | full hfull =>
    rw [List.nil_append] at hfull ⊢
    have hover : maxPolicyBytes < (receivedBytes es).length := by omega
    rw [judged, if_pos hover]
    exact
      { reads := hreads
        received := hfull.le
        whole := by simp [hover.not_ge]
        notText := by simp [hover.not_ge, oversized, Error.anyhow]
        tooLong := by simp [hfull]
        failed := by simp [hover.not_ge, oversized, Error.anyhow] }
  | failed hlast herror hshort =>
    rw [List.nil_append] at hshort
    have hle : (receivedBytes es).length ≤ maxPolicyBytes := Nat.lt_succ_iff.mp hshort
    have hended : ¬ LastRead file es (.ok []) := by
      intro hended
      exact absurd (hlast.unique hended) (by simp)
    rw [judged]
    refine
      { reads := hreads
        received := by omega
        whole := by simp [hended]
        notText := by simp [hended]
        tooLong := iff_of_false (by simp [oversized, Error.anyhow]) (by omega)
        failed := fun error => ⟨?_, ?_⟩ }
    · intro heq
      obtain rfl : _ = error := by simpa using heq
      exact ⟨hlast, herror, hle⟩
    · rintro ⟨hlast', -, -⟩
      have heq := hlast.unique hlast'
      simpa using heq

/-- **A trust file is read as a whole.**  Whatever the reads reply, as long as they bring no more
than they are asked for: `read_bounded` comes to an end, unless it is interrupted again and again,
and what it gives then says how far the file was read. -/
theorem readBounded_whole (fuel : ℕ) (file : FileId) :
    (∀ es x, (∀ e ∈ es, ReadFits e) → (readBounded fuel file).Ends es x → ReadWhole file es x) ∧
    ∀ (σ : Type) (responder : Prog.Responder FsCalls σ) (s : σ),
      let run := (readBounded fuel file).run responder s
      (∀ e ∈ run.2.1, ReadFits e) → run.2.1.countP Interrupted + maxPolicyBytes + 2 < fuel →
        ∃ x, run.1 = Prog.ofExcept x ∧ ReadWhole file run.2.1 x := by
  refine ⟨fun es x hfits h => readWhole_of_ends hfits h, ?_⟩
  intro σ responder s run hfits hfuel
  obtain ⟨x, hx⟩ := (readBounded_spins fuel file).exists_ends (Nat.not_le.mpr hfuel)
  have hends : (readBounded fuel file).Ends run.2.1 x := by
    have hsteps := Prog.steps_run responder (readBounded fuel file) s
    rwa [hx] at hsteps
  exact ⟨x, hx, readWhole_of_ends hfits hends⟩

/-- A file with one byte, whose first read is interrupted. -/
def interruptedFile : Prog.Responder FsCalls ℕ
  | .read _ _ _, 0 => (.error .interrupted, 1)
  | .read _ _ _, 1 => (.ok [0x61], 2)
  | .read _ _ _, n => (.ok [], n)
  | _, n => (.error .notFound, n)

/-- The run that reads it. -/
def interruptedRun : Prog FsCalls Error Text × List (Event FsCalls) × ℕ :=
  (readBounded (2 ^ 21) ⟨0, 7⟩).run interruptedFile 0

lemma interruptedRun_events : interruptedRun.2.1 =
    [⟨.read ⟨0, 7⟩ 0 1048577, .error .interrupted⟩, ⟨.read ⟨0, 7⟩ 0 1048577, .ok [0x61]⟩,
      ⟨.read ⟨0, 7⟩ 1 1048576, .ok []⟩] := rfl

/-- It ends, and what it gives is the whole text. -/
theorem readBounded_whole_interrupted :
    ∃ x, interruptedRun.1 = Prog.ofExcept x ∧ ReadWhole ⟨0, 7⟩ interruptedRun.2.1 x := by
  refine (readBounded_whole (2 ^ 21) ⟨0, 7⟩).2 ℕ interruptedFile 0 ?_ ?_
  · intro e he
    have hmem : e ∈ interruptedRun.2.1 := he
    rw [interruptedRun_events] at hmem
    rcases List.mem_cons.mp hmem with rfl | hmem
    · trivial
    rcases List.mem_pair.mp hmem with rfl | rfl
    · show 1 ≤ 1048577
      omega
    · show 0 ≤ 1048576
      omega
  · show interruptedRun.2.1.countP Interrupted + maxPolicyBytes + 2 < 2 ^ 21
    rw [interruptedRun_events]
    decide

end PamSshAgent
