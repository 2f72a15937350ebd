import PamSshAgent.Cmd.Run
import PamSshAgent.Library.Embedding

/-!
# The budget of `drain_output`

`drain_output` reads from any reader until that has nothing more at the moment, and writes
to variables of its caller, also when it fails.  A reader may deliver data for ever; the
loop ends all the same, because every chunk that is kept uses up a part of the budget that
all calls for one command share.
-/

namespace PamSshAgent

open Interaction

/-- `Read::read` into a buffer of the given size. -/
structure ReadQuery where
  size : ℕ

/-- The calls of `drain_output`: reads from one reader. -/
abbrev ReadCalls : Interface := ⟨ReadQuery, fun _ => Except IoError (List UInt8)⟩

/-- The variables that `drain_output` has references to. -/
structure DrainVars where
  output : List UInt8
  eof : Bool

/-- The error of `drain_output` itself. -/
def outputLimit : IoError := .invalidData "output limit exceeded"

/-- The match on the reply of a read in `drain_output`; `again` is the next round. -/
def drainReply (again : DrainVars → Prog ReadCalls IoError (Except IoError Unit × DrainVars))
    (vars : DrainVars) :
    Except IoError (List UInt8) → Prog ReadCalls IoError (Except IoError Unit × DrainVars)
  | .ok [] => .ret (.ok (), { vars with eof := true })
  | .ok chunk =>
    if maxOutputBytes < vars.output.length + chunk.length then .ret (.error outputLimit, vars)
    else again { vars with output := vars.output ++ chunk }
  | .error .wouldBlock => .ret (.ok (), vars)
  | .error .interrupted => again vars
  | .error error => .ret (.error error, vars)

/-- `drain_output` with the variables as it leaves them, also when it fails; `fuel` bounds the
number of reads. -/
def drain : (fuel : ℕ) → DrainVars → Prog ReadCalls IoError (Except IoError Unit × DrainVars)
  | 0, _ => .spin
  | fuel + 1, vars => do
    let reply ← Prog.query (I := ReadCalls) ⟨chunkSize⟩
    drainReply (drain fuel) vars reply

/-- The reads from a pipe among the calls of `run_inner`. -/
def streamPart (stream : Stream) : Embedding ReadCalls CmdCalls :=
  ⟨fun query => .read stream query.size, fun _ => Equiv.refl _⟩

/-- `run_inner` calls it for its two pipes and uses the variables only after a success. -/
lemma drainOutput_eq (stream : Stream) (fuel : ℕ) (vars : DrainVars) :
    drainOutput stream fuel vars.output vars.eof =
      (drain fuel vars).lift (streamPart stream) >>= fun after =>
        match after.1 with
        | .ok () => .ret (after.2.output, after.2.eof)
        | .error error => .fail error := by
  induction fuel generalizing vars with
  | zero => rfl
  | succ fuel ih =>
    rw [drainOutput, drain, Prog.query_bind, Prog.query_bind, Prog.lift, Prog.ask_bind]
    refine congrArg (Prog.ask _) (funext fun reply => ?_)
    cases reply with
    | ok chunk =>
      cases chunk with
      | nil => rfl
      | cons byte chunk =>
        show (if maxOutputBytes < vars.output.length + (byte :: chunk).length then _ else _) =
          Prog.lift (streamPart stream)
            (if maxOutputBytes < vars.output.length + (byte :: chunk).length then _ else _) >>= _
        by_cases hlimit : maxOutputBytes < vars.output.length + (byte :: chunk).length
        · rw [if_pos hlimit, if_pos hlimit]
          rfl
        · rw [if_neg hlimit, if_neg hlimit]
          exact ih { vars with output := vars.output ++ byte :: chunk }
    | error error =>
      cases error with
      | interrupted => exact ih vars
      | _ => rfl

/-! ## Readers -/

/-- What `impl Read` does with a buffer of `CHUNK_SIZE` bytes: it fills no more than that, and
it is interrupted a finite number of times in a row. -/
structure Reader (σ : Type) where
  read : σ → Except IoError (List UInt8) × σ
  count_le : ∀ s chunk, (read s).1 = .ok chunk → chunk.length ≤ chunkSize
  settles : ∀ s, ∃ n, (read ((fun s => (read s).2)^[n] s)).1 ≠ .error .interrupted

variable {σ : Type}

/-- The replies of a reader. -/
def Reader.respond (reader : Reader σ) : Prog.Responder ReadCalls σ := fun _ s => reader.read s

/-- A read and what it returned. -/
abbrev readEvent (reply : Except IoError (List UInt8)) : Event ReadCalls := ⟨⟨chunkSize⟩, reply⟩

/-- The chunks that the reads delivered; a read of length zero delivers none. -/
def received (es : List (Event ReadCalls)) : List (List UInt8) :=
  es.filterMap fun e =>
    match e.reply with
    | .ok chunk => if chunk = [] then none else some chunk
    | .error _ => none

/-- What the last read returned. -/
def lastReply (es : List (Event ReadCalls)) : Option (Except IoError (List UInt8)) :=
  es.getLast?.map fun e => e.reply

/-- What a call of `drain_output` leaves after the reads `es`: the chunks that were kept, and the
one that would have passed the limit, if there was one. -/
structure DrainOutcome (before : DrainVars) (es : List (Event ReadCalls))
    (result : Except IoError Unit) (after : DrainVars) (kept refused : List (List UInt8)) :
    Prop where
  chunks : received es = kept ++ refused
  output : after.output = before.output ++ kept.flatten
  bound : after.output.length ≤ maxOutputBytes
  refused_le : refused.length ≤ 1
  passes : ∀ chunk ∈ refused, maxOutputBytes < after.output.length + chunk.length
  /-- The call fails with the limit error exactly for such a chunk, unless the reader itself
  returned that error. -/
  limit : refused ≠ [] ↔
    result = .error outputLimit ∧ lastReply es ≠ some (.error outputLimit)
  /-- Any other error is that of the last read. -/
  failure : ∀ error, result = .error error → refused = [] → lastReply es = some (.error error)
  eof : after.eof = if lastReply es = some (.ok []) then true else before.eof
  /-- A call without an error ends at the end of the stream or where nothing more is there yet. -/
  stopped : result = .ok () →
    lastReply es = some (.ok []) ∨ lastReply es = some (.error .wouldBlock)
  /-- Each read but the last one was interrupted or delivered a chunk that was kept. -/
  earlier : ∀ e ∈ es.dropLast, e.reply = .error .interrupted ∨ ∃ chunk ∈ kept, e.reply = .ok chunk
  budget : kept.length ≤ after.output.length - before.output.length

variable {before after : DrainVars} {es : List (Event ReadCalls)} {result : Except IoError Unit}
  {kept refused : List (List UInt8)}

lemma lastReply_cons (e : Event ReadCalls) (h : es ≠ []) : lastReply (e :: es) = lastReply es := by
  rw [lastReply, List.getLast?_cons_of_ne_nil h, lastReply]

/-! ## One read -/

/-- The last read delivered nothing, and the call fails with the error of that read or not at
all. -/
lemma DrainOutcome.ofStop {reply : Except IoError (List UInt8)}
    (hlength : before.output.length ≤ maxOutputBytes)
    (hnothing : received [readEvent reply] = []) (houtput : after.output = before.output)
    (hfailure : ∀ error, result = .error error → reply = .error error)
    (hstopped : result = .ok () → reply = .ok [] ∨ reply = .error .wouldBlock)
    (heof : after.eof = if reply = .ok [] then true else before.eof) :
    DrainOutcome before [readEvent reply] result after [] [] where
  chunks := hnothing
  output := by rw [houtput, List.flatten_nil, List.append_nil]
  bound := by rw [houtput]; exact hlength
  refused_le := Nat.zero_le _
  passes := List.forall_mem_nil _
  limit := by
    refine iff_of_false (fun h => h rfl) fun h => h.2 ?_
    show some reply = some (.error outputLimit)
    rw [hfailure outputLimit h.1]
  failure error herror _ := by
    show some reply = some (.error error)
    rw [hfailure error herror]
  eof := by
    show after.eof = if some reply = some (.ok []) then true else before.eof
    rw [heof]
    simp only [Option.some_inj]
  stopped hok := by
    show some reply = some (.ok []) ∨ some reply = some (.error .wouldBlock)
    simpa only [Option.some_inj] using hstopped hok
  earlier := List.forall_mem_nil _
  budget := Nat.zero_le _

/-- The last read delivered a chunk that would have passed the limit. -/
lemma DrainOutcome.ofLimit {chunk : List UInt8} (hne : chunk ≠ [])
    (hlength : before.output.length ≤ maxOutputBytes)
    (hover : maxOutputBytes < before.output.length + chunk.length) :
    DrainOutcome before [readEvent (.ok chunk)] (.error outputLimit) before [] [chunk] where
  chunks := by simp [received, hne]
  output := (List.append_nil _).symm
  bound := hlength
  refused_le := le_rfl
  passes := by simpa using hover
  limit := by simp [lastReply]
  failure error _ hnil := absurd hnil (List.cons_ne_nil _ _)
  eof := by simp [lastReply, hne]
  stopped hok := absurd hok (by simp)
  earlier := List.forall_mem_nil _
  budget := Nat.zero_le _

/-- A read that is interrupted changes nothing. -/
lemma DrainOutcome.interrupted (h : DrainOutcome before es result after kept refused)
    (hes : es ≠ []) : DrainOutcome before (readEvent (.error .interrupted) :: es) result after kept
      refused := by
  obtain ⟨hchunks, houtput, hbound, hrefused, hpasses, hlimit, hfailure, heof, hstopped, hearlier,
    hbudget⟩ := h
  refine ⟨hchunks, houtput, hbound, hrefused, hpasses, ?_, ?_, ?_, ?_, ?_, hbudget⟩
  · rw [lastReply_cons _ hes]
    exact hlimit
  · rw [lastReply_cons _ hes]
    exact hfailure
  · rw [lastReply_cons _ hes]
    exact heof
  · rw [lastReply_cons _ hes]
    exact hstopped
  · rw [List.dropLast_cons_of_ne_nil hes]
    exact List.forall_mem_cons.mpr ⟨Or.inl rfl, hearlier⟩

/-- A chunk within the limit is kept. -/
lemma DrainOutcome.keep {chunk : List UInt8} (hne : chunk ≠ [])
    (h : DrainOutcome { before with output := before.output ++ chunk } es result after kept refused)
    (hes : es ≠ []) :
    DrainOutcome before (readEvent (.ok chunk) :: es) result after (chunk :: kept) refused := by
  obtain ⟨hchunks, houtput, hbound, hrefused, hpasses, hlimit, hfailure, heof, hstopped, hearlier,
    hbudget⟩ := h
  refine ⟨?_, ?_, hbound, hrefused, hpasses, ?_, ?_, ?_, ?_, ?_, ?_⟩
  · have hfirst : received (readEvent (.ok chunk) :: es) = chunk :: received es := by
      simp [received, hne]
    rw [hfirst, hchunks, List.cons_append]
  · rw [houtput, List.flatten_cons, List.append_assoc]
  · rw [lastReply_cons _ hes]
    exact hlimit
  · rw [lastReply_cons _ hes]
    exact hfailure
  · rw [lastReply_cons _ hes]
    exact heof
  · rw [lastReply_cons _ hes]
    exact hstopped
  · rw [List.dropLast_cons_of_ne_nil hes]
    refine List.forall_mem_cons.mpr ⟨Or.inr ⟨chunk, List.mem_cons_self, rfl⟩, fun e he => ?_⟩
    exact (hearlier e he).imp_right fun ⟨chunk', hkept, hreply⟩ =>
      ⟨chunk', List.mem_cons_of_mem _ hkept, hreply⟩
  · -- the chunk has at least one byte
    have hpos : 0 < chunk.length := List.length_pos_iff.mpr hne
    rw [houtput] at hbudget ⊢
    simp only [List.length_append] at hbudget ⊢
    rw [List.length_cons]
    omega

/-! ## The loop -/

/-- The call ends with this outcome as soon as `fuel` allows for its reads. -/
structure Drains (reader : Reader σ) (s : σ) (before : DrainVars) (es : List (Event ReadCalls))
    (result : Except IoError Unit) (after : DrainVars) (kept refused : List (List UInt8)) :
    Prop where
  run : ∃ s', ∀ fuel, es.length ≤ fuel →
    (drain fuel before).run reader.respond s = (.ret (result, after), es, s')
  nonempty : es ≠ []
  outcome : DrainOutcome before es result after kept refused

variable {reader : Reader σ} {s s₁ s' : σ} {reply : Except IoError (List UInt8)} {fuel : ℕ}

/-- The run of a call begins with a read. -/
lemma run_drain_succ {p : Prog ReadCalls IoError (Except IoError Unit × DrainVars)}
    (hread : reader.read s = (reply, s₁))
    (hrun : (drainReply (drain fuel) before reply).run reader.respond s₁ = (p, es, s')) :
    (drain (fuel + 1) before).run reader.respond s = (p, readEvent reply :: es, s') := by
  have hreply : reader.respond ⟨chunkSize⟩ s = (reply, s₁) := hread
  rw [drain, Prog.query_bind, Prog.run_ask, hreply, hrun]

/-- A call that the read ends. -/
lemma Drains.stop (hread : reader.read s = (reply, s₁))
    (hend : ∀ again, drainReply again before reply = .ret (result, after))
    (houtcome : DrainOutcome before [readEvent reply] result after kept refused) :
    Drains reader s before [readEvent reply] result after kept refused := by
  refine ⟨⟨s₁, fun fuel hfuel => ?_⟩, List.cons_ne_nil _ _, houtcome⟩
  obtain ⟨fuel, rfl⟩ := Nat.exists_eq_add_of_le' hfuel
  exact run_drain_succ hread (by rw [hend, Prog.run_ret])

/-- A call that goes on after the read. -/
lemma Drains.again {next : DrainVars} {kept' : List (List UInt8)}
    (hread : reader.read s = (reply, s₁))
    (hagain : ∀ again, drainReply again before reply = again next)
    (h : Drains reader s₁ next es result after kept refused)
    (houtcome : DrainOutcome before (readEvent reply :: es) result after kept' refused) :
    Drains reader s before (readEvent reply :: es) result after kept' refused := by
  obtain ⟨⟨s', hrun⟩, hes, -⟩ := h
  refine ⟨⟨s', fun fuel hfuel => ?_⟩, List.cons_ne_nil _ _, houtcome⟩
  rw [List.length_cons] at hfuel
  obtain ⟨fuel, rfl⟩ := Nat.exists_eq_add_of_le' (Nat.le_of_add_left_le hfuel)
  exact run_drain_succ hread (by rw [hagain]; exact hrun fuel (by omega))

/-- A read that is not interrupted ends the call or uses up a part of the budget. -/
lemma exists_drains_of_read (hread : reader.read s = (reply, s₁))
    (hreply : reply ≠ .error .interrupted) (hlength : before.output.length ≤ maxOutputBytes)
    (hkeep : ∀ next : DrainVars, before.output.length < next.output.length →
      next.output.length ≤ maxOutputBytes →
        ∃ es result after kept refused, Drains reader s₁ next es result after kept refused) :
    ∃ es result after kept refused, Drains reader s before es result after kept refused := by
  cases reply with
  | ok chunk =>
    cases chunk with
    | nil =>
      have houtcome : DrainOutcome before [readEvent (.ok [])] (.ok ()) { before with eof := true }
          [] [] := .ofStop hlength rfl rfl (by simp) (fun _ => Or.inl rfl) rfl
      exact ⟨_, _, _, _, _, Drains.stop hread (fun _ => rfl) houtcome⟩
    | cons byte chunk =>
      have hne : byte :: chunk ≠ [] := List.cons_ne_nil _ _
      by_cases hover : maxOutputBytes < before.output.length + (byte :: chunk).length
      · have hend : ∀ again, drainReply again before (.ok (byte :: chunk)) =
            .ret (.error outputLimit, before) := fun _ => if_pos hover
        exact ⟨_, _, _, _, _, Drains.stop hread hend (.ofLimit hne hlength hover)⟩
      · let next : DrainVars := { before with output := before.output ++ byte :: chunk }
        have hnext : next.output.length = before.output.length + (byte :: chunk).length :=
          List.length_append
        have hpos : 0 < (byte :: chunk).length := Nat.succ_pos _
        obtain ⟨es, result, after, kept, refused, hdrains⟩ := hkeep next (by omega) (by omega)
        have hagain : ∀ again, drainReply again before (.ok (byte :: chunk)) = again next :=
          fun _ => if_neg hover
        exact ⟨_, _, _, _, _,
          hdrains.again hread hagain (.keep hne hdrains.outcome hdrains.nonempty)⟩
  | error error =>
    cases error with
    | wouldBlock =>
      have houtcome : DrainOutcome before [readEvent (.error .wouldBlock)] (.ok ()) before [] [] :=
        .ofStop hlength rfl rfl (by simp) (fun _ => Or.inr rfl) rfl
      exact ⟨_, _, _, _, _, Drains.stop hread (fun _ => rfl) houtcome⟩
    | interrupted => exact absurd rfl hreply
    | _ =>
      -- any other error is returned as it is
      have hfails : ∀ error error' : IoError, (.error error : Except IoError Unit) = .error error' →
          (.error error : Except IoError (List UInt8)) = .error error' :=
        fun _ _ h => congrArg Except.error (Except.error.inj h)
      exact ⟨_, _, _, _, _,
        Drains.stop hread (fun _ => rfl)
          (.ofStop hlength rfl rfl (hfails _) (fun hok => absurd hok (by simp)) rfl)⟩

/-- Every call ends: the budget shrinks with every chunk, and between two chunks the reader is
interrupted a finite number of times. -/
lemma exists_drains (reader : Reader σ) {budget : ℕ} {before : DrainVars}
    (hbudget : maxOutputBytes - before.output.length = budget)
    (hlength : before.output.length ≤ maxOutputBytes) (s : σ) :
    ∃ es result after kept refused, Drains reader s before es result after kept refused := by
  induction budget using Nat.strong_induction_on generalizing before s with
  | _ budget ihBudget =>
    have hkeep : ∀ (s₁ : σ) (next : DrainVars), before.output.length < next.output.length →
        next.output.length ≤ maxOutputBytes →
          ∃ es result after kept refused, Drains reader s₁ next es result after kept refused := by
      intro s₁ next hmore hnext
      exact ihBudget (maxOutputBytes - next.output.length) (by omega) rfl hnext s₁
    obtain ⟨n, hn⟩ := reader.settles s
    induction n generalizing s with
    | zero => exact exists_drains_of_read rfl hn hlength (hkeep _)
    | succ n ih =>
      by_cases hinterrupted : (reader.read s).1 = .error .interrupted
      · obtain ⟨es, result, after, kept, refused, hdrains⟩ := ih (reader.read s).2 hn
        have hread : reader.read s = (.error .interrupted, (reader.read s).2) :=
          Prod.ext hinterrupted rfl
        exact ⟨_, _, _, _, _, hdrains.again hread (fun _ => rfl)
          (hdrains.outcome.interrupted hdrains.nonempty)⟩
      · exact exists_drains_of_read rfl hinterrupted hlength (hkeep _)

/-- **`drain_output` ends and stays within its budget.**  Whatever the reader delivers, and be it
for ever, a call ends after at most as many chunks as bytes are left of the budget, and one more.
It has then appended the chunks it received, whole and in order, but for one that would have
passed the limit; for such a chunk, and for no other reason of its own, it fails with the limit
error; it has set `eof` exactly if the last read had length zero; and it stops nowhere else than
there, at an error, or where nothing more is there yet. -/
theorem drain_budget {σ : Type} (reader : Reader σ) (s : σ) (before : DrainVars)
    (hlength : before.output.length ≤ maxOutputBytes) :
    ∃ es result after kept refused,
      (∃ s', ∀ fuel, es.length ≤ fuel →
        (drain fuel before).run reader.respond s = (.ret (result, after), es, s')) ∧
      (received es).length ≤ maxOutputBytes - before.output.length + 1 ∧
      received es = kept ++ refused ∧
      after.output = before.output ++ kept.flatten ∧
      after.output.length ≤ maxOutputBytes ∧
      (refused = [] ∨ ∃ chunk, refused = [chunk] ∧
        maxOutputBytes < after.output.length + chunk.length) ∧
      (refused ≠ [] ↔ result = .error outputLimit ∧ lastReply es ≠ some (.error outputLimit)) ∧
      (∀ error, result = .error error → refused = [] → lastReply es = some (.error error)) ∧
      after.eof = (if lastReply es = some (.ok []) then true else before.eof) ∧
      es ≠ [] ∧
      (result = .ok () → lastReply es = some (.ok []) ∨ lastReply es = some (.error .wouldBlock)) ∧
      ∀ e ∈ es.dropLast, e.reply = .error .interrupted ∨ ∃ chunk ∈ kept, e.reply = .ok chunk := by
  obtain ⟨es, result, after, kept, refused, hrun, hnonempty, houtcome⟩ := exists_drains reader rfl hlength s
  refine ⟨es, result, after, kept, refused, hrun, ?_, houtcome.chunks, houtcome.output,
    houtcome.bound, ?_, houtcome.limit, houtcome.failure, houtcome.eof, hnonempty, houtcome.stopped,
    houtcome.earlier⟩
  · have hbudget := houtcome.budget
    have hbound := houtcome.bound
    have hrefused := houtcome.refused_le
    rw [houtcome.chunks, List.length_append]
    omega
  · cases refused with
    | nil => exact Or.inl rfl
    | cons chunk more =>
      have hle := houtcome.refused_le
      rw [List.length_cons] at hle
      obtain rfl : more = [] := List.length_eq_zero_iff.mp (by omega)
      exact Or.inr ⟨chunk, rfl, houtcome.passes chunk List.mem_cons_self⟩

/-- A reader that delivers one byte at a time, for ever. -/
def endlessReader : Reader Unit where
  read _ := (.ok [0], ())
  count_le _ chunk h := by
    rw [← Except.ok.inj h]
    decide
  settles _ := ⟨0, by simp⟩

/-- Also from that reader a call ends, with no more than the budget read. -/
theorem drain_budget_endless : ∃ es result after, ∃ kept refused : List (List UInt8),
    (∃ s', ∀ fuel, es.length ≤ fuel →
      (drain fuel ⟨[], false⟩).run endlessReader.respond () = (.ret (result, after), es, s')) ∧
    (received es).length ≤ maxOutputBytes + 1 ∧ received es = kept ++ refused ∧
    after.output = kept.flatten ∧ after.output.length ≤ maxOutputBytes := by
  obtain ⟨es, result, after, kept, refused, hrun, hreads, hchunks, houtput, hbound, -⟩ :=
    drain_budget endlessReader () ⟨[], false⟩ (Nat.zero_le _)
  exact ⟨es, result, after, kept, refused, hrun, hreads, hchunks, houtput, hbound⟩

end PamSshAgent
