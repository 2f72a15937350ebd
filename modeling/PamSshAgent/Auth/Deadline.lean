import PamSshAgent.Auth.Connection

/-!
# One deadline for the whole exchange

The deadline is fixed when the connection is opened.  Every call that can block is made
right after a reading of the clock and gets no more than the time left at that reading.
When a reading has reached the deadline, every later operation reads the clock, finds no
time left and fails without a call on the socket.
-/

namespace PamSshAgent

open Interaction

/-- The timeout of a socket that limits a call. -/
def StreamQuery.direction : StreamQuery → Direction
  | read _ => .read
  | write _ | flush => .write

/-- After the calls `before`, the call cannot block beyond the deadline. -/
def Armed (deadline : Instant) (before : List (Event SocketCalls)) : SocketQuery → Prop
  | .poll milliseconds => ∃ now : Instant, [⟨.now, now⟩] <:+ before ∧ now < deadline ∧
      1 ≤ milliseconds ∧ (milliseconds = 1 ∨ milliseconds * 10 ^ 6 ≤ deadline - now)
  | .transfer call => ∃ (now : Instant) (duration : Duration),
      [⟨.now, now⟩, ⟨.setTimeout call.direction duration, .ok ()⟩] <:+ before ∧
        0 < duration ∧ duration ≤ deadline - now
  | .connect _ => ∃ flags, [⟨.setFlags (flags ||| nonblock), .ok ()⟩] <:+ before
  | .connectPlain _ => False
  | _ => True

/-- Every call is armed. -/
def EachArmed (deadline : Instant) (before es : List (Event SocketCalls)) : Prop :=
  ∀ es₁ e es₂, es = es₁ ++ e :: es₂ → Armed deadline (before ++ es₁) e.query

variable {deadline : Instant} {before es es' : List (Event SocketCalls)}

lemma eachArmed_nil : EachArmed deadline before [] := by
  intro es₁ e es₂ hsplit
  exact absurd hsplit (by simp)

lemma EachArmed.append (h : EachArmed deadline before es)
    (h' : EachArmed deadline (before ++ es) es') : EachArmed deadline before (es ++ es') := by
  intro es₁ e es₂ hsplit
  rcases List.append_eq_append_iff.mp hsplit with ⟨middle, rfl, hright⟩ | ⟨middle, hleft, hright⟩
  · have hlater := h' middle e es₂ hright
    rwa [List.append_assoc] at hlater
  · cases middle with
    | nil =>
      rw [List.append_nil] at hleft
      have hlater := h' [] e es₂ (by simpa using hright.symm)
      rwa [List.append_nil, hleft] at hlater
    | cons e' middle =>
      obtain ⟨rfl, -⟩ := List.cons.inj hright
      exact h es₁ e middle hleft

/-- What an operation on the stream does. -/
lemma limited_eq (deadline : Instant) (direction : Direction) (call : StreamQuery) :
    DeadlineStream.limited ⟨deadline⟩ direction call = .ask .now fun now =>
      if (deadline - now : ℕ) = 0 then .fail DeadlineStream.timedOut
      else .ask (.setTimeout direction (deadline - now : ℕ)) fun set =>
        Prog.ofExcept set >>= fun _ => .ask (.transfer call) fun reply =>
          Prog.ofExcept (reply.mapError DeadlineStream.mapTimeout) := by
  rw [DeadlineStream.limited, DeadlineStream.remaining, Prog.query_bind, Prog.ask_bind]
  congr 1
  funext now
  dsimp only
  split_ifs with hleft
  · exact rfl
  · exact rfl

/-- A call with a limit is armed by its own reading of the clock. -/
lemma limited_armed (direction : Direction) (call : StreamQuery)
    (hdirection : direction = call.direction) (before : List (Event SocketCalls)) :
    (DeadlineStream.limited ⟨deadline⟩ direction call).AsksAfter (Armed deadline) before := by
  subst hdirection
  rw [limited_eq]
  refine ⟨trivial, fun now => ?_⟩
  dsimp only
  split_ifs with hleft
  · trivial
  refine ⟨trivial, ?_⟩
  rintro (error | _)
  · trivial
  refine ⟨⟨now, deadline - now, ⟨before, by simp⟩, Nat.pos_of_ne_zero hleft, le_refl _⟩, fun reply => ?_⟩
  exact Prog.asksAfter_ofExcept _ _

lemma call_armed (call : StreamQuery) (before : List (Event SocketCalls)) :
    (DeadlineStream.call ⟨deadline⟩ call).AsksAfter (Armed deadline) before := by
  cases call with
  | read size => exact limited_armed .read _ rfl before
  | write buffer => exact limited_armed .write _ rfl before
  | flush => exact limited_armed .write _ rfl before

/-- The poll gets the time that is left, in milliseconds, and at least one. -/
lemma connectMillis_bounds (remaining : ℕ) : 1 ≤ connectMillis remaining ∧
    (connectMillis remaining = 1 ∨ connectMillis remaining * 10 ^ 6 ≤ remaining) := by
  have hmillis : remaining / 10 ^ 6 * 10 ^ 6 ≤ remaining := Nat.div_mul_le_self _ _
  rw [connectMillis, Duration.asMillis]
  omega

lemma waitForConnect_armed (fuel : ℕ) (before : List (Event SocketCalls)) :
    (waitForConnect deadline fuel).AsksAfter (Armed deadline) before := by
  induction fuel generalizing before with
  | zero => trivial
  | succ fuel ih =>
    rw [waitForConnect, Prog.query_bind]
    refine ⟨trivial, fun now => ?_⟩
    dsimp only
    split_ifs with hleft
    · trivial
    obtain ⟨hone, hbound⟩ := connectMillis_bounds (deadline - now)
    rw [Prog.query_bind]
    refine ⟨⟨now, ⟨before, rfl⟩, Nat.sub_ne_zero_iff_lt.mp hleft, hone, hbound⟩, fun reply => ?_⟩
    dsimp only
    split
    · trivial
    · exact ih _
    · trivial
    · refine ⟨trivial, fun socketError => (Prog.asksAfter_ofExcept _ _).bind fun error _ _ => ?_⟩
      cases error <;> trivial

lemma finishConnect_armed (fuel : ℕ) (connected : Except IoError Unit)
    (before : List (Event SocketCalls)) :
    (finishConnect fuel deadline connected).AsksAfter (Armed deadline) before := by
  rcases connected with error | _
  · rw [finishConnect.eq_def]
    dsimp only
    split_ifs
    · exact waitForConnect_armed fuel _
    · trivial
  · trivial

/-- Connecting arms the poll, and connects a socket that does not block. -/
lemma connectUnix_armed (fuel : ℕ) (path : List UInt8) (before : List (Event SocketCalls)) :
    (connectUnix fuel path deadline).AsksAfter (Armed deadline) before := by
  rw [connectUnix]
  split_ifs
  · trivial
  refine ⟨trivial, fun socket => (Prog.asksAfter_ofExcept _ _).bind fun _ _ _ => ?_⟩
  refine ⟨trivial, fun cloexec => (Prog.asksAfter_ofExcept _ _).bind fun _ _ _ => ?_⟩
  refine ⟨trivial, fun flags => (Prog.asksAfter_ofExcept _ _).bind fun statusFlags _ _ => ?_⟩
  refine ⟨trivial, ?_⟩
  rintro (error | _)
  · trivial
  refine ⟨⟨statusFlags, ⟨_, rfl⟩⟩, fun connected => ?_⟩
  exact (finishConnect_armed fuel connected _).bind
    fun _ _ _ => ⟨trivial, fun _ => Prog.asksAfter_ofExcept _ _⟩

/-- The first call of `connect` fixes the deadline. -/
lemma connect_armed {fuel : ℕ} {path : List UInt8} {timeout : Duration} {start : Instant}
    {es : List (Event SocketCalls)} {p : Prog SocketCalls Error AgentStream}
    (h : (connect fuel path (some timeout)).Steps (⟨.now, start⟩ :: es) p) :
    EachArmed (start + timeout) [] (⟨.now, start⟩ :: es) := by
  cases h with
  | ask hsteps =>
    have harmed : (connectUnix fuel path (start + timeout)).AsksAfter (Armed (start + timeout))
      [⟨.now, start⟩] := connectUnix_armed fuel path _
    have hrest : EachArmed (start + timeout) [⟨.now, start⟩] es :=
      hsteps.asksAfter (harmed.attempt.bind fun x es _ => by rcases x with error | _ <;> trivial)
    have hfirst : EachArmed (start + timeout) [] [⟨.now, start⟩] := by
      intro es₁ e es₂ hsplit
      cases es₁ with
      | nil =>
        obtain ⟨rfl, -⟩ := List.cons.inj hsplit
        trivial
      | cons e₁ es₁ => exact absurd (List.cons.inj hsplit).2 (by simp)
    exact hfirst.append hrest

/-- The connection is the deadline stream. -/
lemma connect_returns {fuel : ℕ} {path : List UInt8} {timeout : Duration} {start : Instant}
    {es : List (Event SocketCalls)} {stream : AgentStream}
    (h : (connect fuel path (some timeout)).Returns (⟨.now, start⟩ :: es) stream) :
    stream = .limited ⟨start + timeout⟩ := by
  cases h with
  | ask hsteps =>
    let opening : Prog SocketCalls Error (Except IoError Unit) :=
      (connectUnix fuel path (start + timeout)).attempt
    obtain ⟨es₁, es₂, x, rfl, -, hx⟩ := (Prog.returns_bind (p := opening)).mp hsteps
    rcases x with error | _
    · exact absurd hx Prog.not_returns_fail
    · exact (Prog.returns_ret.mp hx).2

/-! ## The clock -/

/-- The readings of the clock. -/
def readings (es : List (Event SocketCalls)) : List Instant :=
  es.filterMap fun
    | ⟨.now, now⟩ => some now
    | _ => none

lemma readings_append (es es' : List (Event SocketCalls)) :
    readings (es ++ es') = readings es ++ readings es' := List.filterMap_append

lemma mem_readings {now : Instant} : now ∈ readings es ↔ ⟨.now, now⟩ ∈ es := by
  refine List.mem_filterMap.trans ⟨?_, fun h => ⟨_, h, rfl⟩⟩
  rintro ⟨⟨query, reply⟩, he, hsome⟩
  cases query with
  | now =>
    obtain rfl := Option.some.inj hsome
    exact he
  | _ => exact absurd hsome (by simp)

/-- A call on the socket. -/
def Transfers (e : Event SocketCalls) : Prop := ∃ call, e.query = .transfer call

/-- In a run whose calls are armed, there is no call on the socket after a reading of the
clock that has reached the deadline. -/
lemma EachArmed.silent (harmed : EachArmed deadline [] es)
    (hclock : (readings es).Pairwise (· ≤ ·)) {now : Instant} {es₁ es₂ : List (Event SocketCalls)}
    (hsplit : es = es₁ ++ ⟨.now, now⟩ :: es₂) (hnow : deadline ≤ now) :
    ∀ e ∈ es₂, ¬ Transfers e := by
  rintro e he ⟨call, hcall⟩
  obtain ⟨es₃, es₄, rfl⟩ := List.append_of_mem he
  have hsplit' : es = (es₁ ++ ⟨.now, now⟩ :: es₃) ++ e :: es₄ := by
    rw [hsplit, List.append_assoc, List.cons_append]
  have hat : Armed deadline ([] ++ (es₁ ++ ⟨.now, now⟩ :: es₃)) (.transfer call) :=
    hcall ▸ harmed _ e es₄ hsplit'
  obtain ⟨now', duration, ⟨es₀, hsuffix⟩, hpositive, hleft⟩ := hat
  -- the reading before the call is the last one, and so not earlier than the given one
  have hreadings : readings (es₁ ++ ⟨.now, now⟩ :: es₃) = readings es₀ ++ [now'] := by
    rw [← List.nil_append (es₁ ++ ⟨.now, now⟩ :: es₃), ← hsuffix, readings_append]
    rfl
  have hsorted : (readings es₀ ++ [now']).Pairwise (· ≤ ·) := by
    rw [hsplit', readings_append, hreadings] at hclock
    exact (List.pairwise_append.mp hclock).1
  have hmem : now ∈ readings es₀ ++ [now'] := by
    rw [← hreadings, mem_readings]
    simp
  have hle : now ≤ now' := by
    rcases List.mem_append.mp hmem with hearlier | hlast
    · exact (List.pairwise_append.mp hsorted).2.2 now hearlier now' List.mem_cons_self
    · exact (List.mem_singleton.mp hlast).le
  have hearly : now' < deadline := Nat.lt_of_sub_pos (Nat.lt_of_lt_of_le hpositive hleft)
  exact absurd (hnow.trans hle) (Nat.not_le.mpr hearly)

/-- An operation that starts with a reading that has reached the deadline times out. -/
lemma call_timedOut {call : StreamQuery} {reply : Except IoError call.Result}
    (h : ((DeadlineStream.call ⟨deadline⟩ call).attempt : Prog SocketCalls Error _).Returns es reply)
    (hclock : ∀ now ∈ readings es, deadline ≤ now) : reply = .error DeadlineStream.timedOut := by
  have hlimited : ∃ direction, DeadlineStream.call ⟨deadline⟩ call =
      DeadlineStream.limited ⟨deadline⟩ direction call := by
    cases call with
    | read size => exact ⟨.read, rfl⟩
    | write buffer => exact ⟨.write, rfl⟩
    | flush => exact ⟨.write, rfl⟩
  obtain ⟨direction, hcall⟩ := hlimited
  have hends := Prog.returns_attempt_iff_ends.mp h
  rw [hcall, limited_eq] at hends
  obtain ⟨now, es', rfl, hrest⟩ := Prog.ends_ask.mp hends
  have hnow : deadline ≤ now := hclock now (mem_readings.mpr List.mem_cons_self)
  rw [if_pos (Nat.sub_eq_zero_of_le hnow)] at hrest
  exact (Prog.ends_fail.mp hrest).2

/-! ## The exchange -/

variable {K : Interface}

/-- The events of the socket. -/
def socketEvents (es : List (Event (SocketCalls.sum K))) : List (Event SocketCalls) :=
  es.filterMap fun
    | ⟨.inl query, reply⟩ => some ⟨query, reply⟩
    | ⟨.inr _, _⟩ => none

lemma socketEvents_append (es es' : List (Event (SocketCalls.sum K))) :
    socketEvents (es ++ es') = socketEvents es ++ socketEvents es' := List.filterMap_append

lemma socketEvents_map (es : List (Event SocketCalls)) :
    socketEvents (es.map (Embedding.inl (J := K)).event) = es := by
  rw [socketEvents, List.filterMap_map]
  exact List.filterMap_some

/-- The calls of an answer to the client are armed. -/
lemma answer_armed (q : (StreamCalls.sum K).Query) {events : List (Event (SocketCalls.sum K))}
    {p : Prog (SocketCalls.sum K) Error ((StreamCalls.sum K).Reply q)}
    (h : (AgentStream.answer (.limited ⟨deadline⟩) q).Steps events p)
    (before : List (Event SocketCalls)) : EachArmed deadline before (socketEvents events) := by
  cases q with
  | inl call =>
    obtain ⟨es, p', rfl, hcall⟩ := Prog.steps_lift h
    rw [socketEvents_map]
    exact hcall.asksAfter (call_armed call before).attempt
  | inr q =>
    have hnone : socketEvents events = [] := by
      cases h with
      | refl => rfl
      | ask h =>
        cases h with
        | refl => rfl
    rw [hnone]
    exact eachArmed_nil

lemma operations_armed {ops : List (Operation (StreamCalls.sum K) (SocketCalls.sum K))}
    (h : Prog.Served (AgentStream.answer (.limited ⟨deadline⟩)) ops)
    (before : List (Event SocketCalls)) :
    EachArmed deadline before (socketEvents (ops.flatMap Prod.snd)) := by
  induction ops generalizing before with
  | nil => exact eachArmed_nil
  | cons op ops ih =>
    rw [List.flatMap_cons, socketEvents_append]
    have hop := answer_armed op.1.query (h op List.mem_cons_self) before
    exact hop.append (ih (fun op' hop' => h op' (List.mem_cons_of_mem _ hop')) _)

/-- How an exchange is cut into the calls that open the connection and the operations of the
client: it is still connecting, or the client works on a stream with the deadline. -/
inductive ExchangeRun {α : Type} (fuel : ℕ) (path : List UInt8) (timeout : Duration)
    (deadline : Instant) (client : Prog (StreamCalls.sum K) Error α) :
    List (Event (SocketCalls.sum K)) → List (Event SocketCalls) →
      List (Operation (StreamCalls.sum K) (SocketCalls.sum K)) → Prop
  | connecting {opening : List (Event SocketCalls)} {p : Prog SocketCalls Error AgentStream}
      (h : (connect fuel path (some timeout)).Steps opening p) :
      ExchangeRun fuel path timeout deadline client (opening.map Embedding.inl.event) opening []
  | connected {opening : List (Event SocketCalls)}
      {ops : List (Operation (StreamCalls.sum K) (SocketCalls.sum K))}
      {last : List (Event (SocketCalls.sum K))} {rest : Prog (StreamCalls.sum K) Error α}
      (h : (connect fuel path (some timeout)).Returns opening (.limited ⟨deadline⟩))
      (hserved : Prog.Served (AgentStream.answer (.limited ⟨deadline⟩)) ops)
      (hlast : Prog.Pending (AgentStream.answer (.limited ⟨deadline⟩)) last)
      (hclient : client.Steps (ops.map Prod.fst) rest) :
      ExchangeRun fuel path timeout deadline client
        (opening.map Embedding.inl.event ++ (ops.flatMap Prod.snd ++ last)) opening ops

/-- The exchange keeps the deadline. -/
structure KeepsDeadline {α : Type} (fuel : ℕ) (path : List UInt8) (timeout : Duration)
    (client : Prog (StreamCalls.sum K) Error α) (deadline : Instant)
    (es : List (Event (SocketCalls.sum K))) : Prop where
  /-- Every call that can block is limited by the time left at a reading right before it. -/
  armed : EachArmed deadline [] (socketEvents es)
  /-- There is no call on the socket after a reading that has reached the deadline. -/
  silent : ∀ (now : Instant) es₁ es₂, socketEvents es = es₁ ++ ⟨.now, now⟩ :: es₂ →
    deadline ≤ now → ∀ e ∈ es₂, ¬ Transfers e
  /-- Every operation after such a reading times out. -/
  timesOut : ∃ opening ops, ExchangeRun fuel path timeout deadline client es opening ops ∧
    ∀ earlier call reply events later, ops = earlier ++ (⟨.inl call, reply⟩, events) :: later →
      (∃ now ∈ readings (opening ++ socketEvents (earlier.flatMap Prod.snd)), deadline ≤ now) →
        reply = .error DeadlineStream.timedOut

/-- A run of an exchange is cut into its opening and its operations. -/
lemma exchangeRun_of_steps {α : Type} {fuel : ℕ} {path : List UInt8} {timeout : Duration}
    {client : Prog (StreamCalls.sum K) Error α} {start : Instant}
    {es : List (Event (SocketCalls.sum K))} {rest : Prog (SocketCalls.sum K) Error α}
    (h : (exchange fuel path (some timeout) client).Steps (⟨.inl .now, start⟩ :: es) rest) :
    ∃ opening ops, ExchangeRun fuel path timeout (start + timeout) client
      (⟨.inl .now, start⟩ :: es) (⟨.now, start⟩ :: opening) ops := by
  rcases Prog.steps_bind h with ⟨p, hconnect⟩ | ⟨es₁, es₂, stream, hes, hconnect, hclient⟩
  · obtain ⟨opening, p', hes, hsteps⟩ := Prog.steps_lift hconnect
    have hopening : opening = ⟨.now, start⟩ :: socketEvents es := by
      rw [← socketEvents_map (K := K) opening, ← hes]
      rfl
    subst hopening
    rw [hes]
    exact ⟨socketEvents es, [], .connecting hsteps⟩
  · obtain ⟨opening, rfl, hreturns⟩ := Prog.returns_lift.mp hconnect
    obtain ⟨start', opening', rfl, -⟩ := Prog.returns_ask.mp hreturns
    obtain ⟨hfirst, rfl⟩ := List.cons.inj hes
    obtain rfl : start = start' := eq_of_heq (Event.mk.inj hfirst).2
    obtain rfl := connect_returns hreturns
    obtain ⟨ops, last, rfl, hserved, hlast, rest', hsteps⟩ := Prog.steps_interpret hclient
    exact ⟨opening', ops, .connected hreturns hserved hlast hsteps⟩

namespace ExchangeRun

variable {α : Type} {fuel : ℕ} {path : List UInt8} {timeout : Duration} {start : Instant}
  {client : Prog (StreamCalls.sum K) Error α} {es : List (Event (SocketCalls.sum K))}
  {opening : List (Event SocketCalls)}
  {ops : List (Operation (StreamCalls.sum K) (SocketCalls.sum K))}

lemma armed (h : ExchangeRun fuel path timeout (start + timeout) client es opening ops)
    (hstart : opening.head? = some ⟨.now, start⟩) :
    EachArmed (start + timeout) [] (socketEvents es) := by
  obtain ⟨opening, rfl⟩ := List.head?_eq_some_iff.mp hstart
  cases h with
  | connecting hconnect =>
    rw [socketEvents_map]
    exact connect_armed hconnect
  | connected hconnect hserved hlast hclient =>
    rw [socketEvents_append, socketEvents_append, socketEvents_map]
    refine (connect_armed hconnect).append ((operations_armed hserved _).append ?_)
    rcases hlast with rfl | ⟨q, p, hlast⟩
    · exact eachArmed_nil
    · exact answer_armed q hlast _

lemma timesOut (h : ExchangeRun fuel path timeout (start + timeout) client es opening ops)
    (hclock : (readings (socketEvents es)).Pairwise (· ≤ ·))
    {earlier later : List (Operation (StreamCalls.sum K) (SocketCalls.sum K))} {call : StreamQuery}
    {reply : Except IoError call.Result} {events : List (Event (SocketCalls.sum K))}
    (hops : ops = earlier ++ (⟨.inl call, reply⟩, events) :: later)
    (hlate : ∃ now ∈ readings (opening ++ socketEvents (earlier.flatMap Prod.snd)),
      start + timeout ≤ now) : reply = .error DeadlineStream.timedOut := by
  obtain ⟨now, hnow, hdeadline⟩ := hlate
  cases h with
  | connecting hconnect => exact absurd hops (by simp)
  | @connected _ _ last _ hconnect hserved hlast hclient =>
    subst hops
    have hreturns := hserved _ (List.mem_append_right _ List.mem_cons_self)
    obtain ⟨es', rfl, hcall⟩ := Prog.returns_lift.mp hreturns
    refine call_timedOut hcall fun now' hnow' => hdeadline.trans ?_
    -- the readings of the operation come after the given one
    have hevents : socketEvents (opening.map Embedding.inl.event ++
        ((earlier ++ ⟨⟨.inl call, reply⟩, es'.map Embedding.inl.event⟩ :: later).flatMap Prod.snd ++
          last)) = (opening ++ socketEvents (earlier.flatMap Prod.snd)) ++
            (es' ++ socketEvents (later.flatMap Prod.snd ++ last)) := by
      simp only [socketEvents_append, socketEvents_map, List.flatMap_append, List.flatMap_cons,
        List.append_assoc]
    rw [hevents, readings_append] at hclock
    refine (List.pairwise_append.mp hclock).2.2 now hnow now' ?_
    rw [readings_append]
    exact List.mem_append_left _ hnow'

end ExchangeRun

/-- **One deadline for the whole agent exchange.**  Whatever the client of the agent does on
the connection and whatever the system replies, as long as the clock does not go back: each
call that can block gets a positive time that is no longer than what is left of the timeout
given to `connect`; and when the clock has reached that deadline, the socket is not touched
any more and every operation times out. -/
theorem exchange_keepsDeadline {α : Type} (fuel : ℕ) (path : List UInt8) (timeout : Duration)
    (client : Prog (StreamCalls.sum K) Error α) (start : Instant)
    (es : List (Event (SocketCalls.sum K))) (rest : Prog (SocketCalls.sum K) Error α)
    (h : (exchange fuel path (some timeout) client).Steps (⟨.inl .now, start⟩ :: es) rest)
    (hclock : (readings (socketEvents (⟨.inl .now, start⟩ :: es))).Pairwise (· ≤ ·)) :
    KeepsDeadline fuel path timeout client (start + timeout) (⟨.inl .now, start⟩ :: es) := by
  obtain ⟨opening, ops, hrun⟩ := exchangeRun_of_steps h
  have harmed := hrun.armed rfl
  refine ⟨harmed, fun now es₁ es₂ => harmed.silent hclock, _, ops, hrun, ?_⟩
  exact fun earlier call reply events later => hrun.timesOut hclock

/-- No other calls. -/
def noCalls : Interface := ⟨Empty, Empty.elim⟩

/-- A client that reads the length of a response. -/
def readLength : Prog (StreamCalls.sum noCalls) Error Unit :=
  .ask (.inl (.read 4)) fun _ => .ret ()

/-- The calls of an exchange whose agent accepts the connection and then is silent for as long
as the timeout. -/
def silentAgent : List (Event (SocketCalls.sum noCalls)) :=
  [⟨.inl .socket, .ok ()⟩, ⟨.inl .setCloexec, .ok ()⟩, ⟨.inl .getFlags, .ok 2⟩,
    ⟨.inl (.setFlags (2 ||| nonblock)), .ok ()⟩, ⟨.inl (.connect [47, 97]), .ok ()⟩,
    ⟨.inl (.setFlags 2), .ok ()⟩, ⟨.inl .now, Duration.fromSecs 1⟩]

lemma silentAgent_steps : (exchange 1 [47, 97] (some (Duration.fromSecs 1)) readLength).Steps
    (⟨.inl .now, (0 : Instant)⟩ :: silentAgent) (.ret ()) := by
  exact .ask (.ask (.ask (.ask (.ask (.ask (.ask (.ask (.refl _))))))))

/-- The exchange with the silent agent keeps its deadline. -/
theorem exchange_keepsDeadline_silentAgent :
    KeepsDeadline 1 [47, 97] (Duration.fromSecs 1) readLength (0 + Duration.fromSecs 1)
      (⟨.inl .now, (0 : Instant)⟩ :: silentAgent) :=
  exchange_keepsDeadline 1 [47, 97] (Duration.fromSecs 1) readLength 0 silentAgent (.ret ())
    silentAgent_steps (by decide)

end PamSshAgent
