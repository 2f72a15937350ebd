import PamSshAgent.Auth.Deadline
import PamSshAgent.InitLogging
import PamSshAgent.Module.Confinement
import PamSshAgent.Module.Restriction

/-!
# The module with the layers under it

A call of the module leaves it open how logging is started, how the agent is connected to and
how a request reaches it.  Here these calls are answered by `init_logging`, by
`agent_connection::connect` and by a client of the agent protocol that works on the stream of
the connection.  What the module does over these layers is what it does by itself, with their
replies; and in strict mode everything that happens on the socket is limited by one deadline.
-/

namespace PamSshAgent

open Interaction

/-! ## The layers -/

/-- The calls of `authenticate` that do not go to the agent. -/
inductive ClockQuery where
  /-- `SystemTime::now`. -/
  | now
  /-- `getrandom::fill`. -/
  | fill

/-- What they reply. -/
@[reducible] def ClockQuery.Reply : ClockQuery → Type
  | now => SystemTime
  | fill => Option Challenge

/-- The calls of `authenticate` that do not go to the agent. -/
abbrev ClockCalls : Interface := ⟨ClockQuery, ClockQuery.Reply⟩

/-- What the module calls beside the socket. -/
abbrev HostCalls : Interface := LogCalls.sum (PolicyCalls.sum ClockCalls)

/-- The calls under all layers. -/
abbrev SystemCalls : Interface := SocketCalls.sum HostCalls

/-- `ssh_agent_client_rs::Client`, by what it does on its stream for a request. -/
structure AgentClient where
  /-- `Client::list_all_identities`. -/
  listIdentities : Prog StreamCalls SACError (List Identity)
  /-- `Client::sign_with_ref`. -/
  sign : Identity → Challenge → Prog StreamCalls SACError Signature

/-- A request on the stream of a connection. -/
def AgentStream.request {α : Type} (stream : AgentStream) (request : Prog StreamCalls SACError α) :
    Prog SystemCalls Error (Except SACError α) :=
  ((request.attempt (δ := Error)).lift (Embedding.inl (J := HostCalls))).interpret stream.answer

/-- A request on the connection, of which there is none before `connect`. -/
def requestOn {α : Type} (request : Prog StreamCalls SACError α) :
    Option AgentStream → Prog SystemCalls Error (Except SACError α × Option AgentStream)
  | none => .spin
  | some stream => do
    let reply ← stream.request request
    return (reply, some stream)

/-- How the calls of the module are answered; what is passed on is the connection. -/
def AgentClient.answer (client : AgentClient) (fuel : ℕ) : (q : ModuleCalls.Query) →
    Option AgentStream → Prog SystemCalls Error (ModuleCalls.Reply q × Option AgentStream)
  | .inl (.initLogging service), connection => do
    let reply ← ((initLogging service).attempt (δ := Error)).lift
      (Embedding.comp (Embedding.inr (I := SocketCalls))
        (Embedding.inl (J := PolicyCalls.sum ClockCalls)))
    return (reply, connection)
  | .inl (.connect path timeout), connection => do
    match ← ((connect fuel path.bytes (timeout.map Duration.fromSecs)).attempt (δ := Error)).lift
        (Embedding.inl (J := HostCalls)) with
    | .ok stream => return (.ok (), some stream)
    | .error error => return (.error error, connection)
  | .inr (.inl query), connection => do
    let reply ← Prog.query (I := SystemCalls) (.inr (.inr (.inl query)))
    return (reply, connection)
  | .inr (.inr .now), connection => do
    let reply ← Prog.query (I := SystemCalls) (.inr (.inr (.inr .now)))
    return (reply, connection)
  | .inr (.inr .fill), connection => do
    let reply ← Prog.query (I := SystemCalls) (.inr (.inr (.inr .fill)))
    return (reply, connection)
  | .inr (.inr .listIdentities), connection => requestOn client.listIdentities connection
  | .inr (.inr (.sign identity data)), connection => requestOn (client.sign identity data) connection

/-- `sm_authenticate` over the layers. -/
def AgentClient.smAuthenticate (client : AgentClient) (fuel : ℕ) (crate : SshKeyCrate)
    (host : Host) (handle : PamHandleExt) (args : List CStr) :
    Prog SystemCalls Error PamResultCode :=
  (PamSshAgent.smAuthenticate fuel crate host handle args).interpretFrom (client.answer fuel) none

/-! ## The timeout of a strict call -/

/-- The timeout of a strict call, while its arguments are read. -/
def TimeoutInRange (st : ParseState) : Prop :=
  ∃ seconds, st.agentTimeout = some seconds ∧ 1 ≤ seconds ∧ seconds ≤ 300

lemma parseArg_timeoutInRange {strict : Bool} {env : Environment} {handle : PamHandleExt}
    {st st' : ParseState} {arg : CStr} (h : parseArg strict env handle st arg = .ok st')
    (hst : TimeoutInRange st) : TimeoutInRange st' := by
  have hnote : ∀ any, TimeoutInRange (st.noteFile any) := by
    intro any
    unfold ParseState.noteFile
    split <;> exact hst
  obtain ⟨any, -, ⟨-, rfl⟩ | ⟨-, rfl⟩ | ⟨-, rfl⟩ | ⟨-, -, _, key, value, -, -, hassign⟩⟩ :=
    parseArg_cases h
  · exact hst
  · exact hst
  · exact hst
  · rcases assign_cases hassign with ⟨-, rfl⟩ | ⟨-, rfl⟩ | ⟨-, rfl⟩ | ⟨-, rfl⟩ | ⟨-, rfl⟩ |
      ⟨-, seconds, -, hmin, hmax, rfl⟩
    · exact hnote any
    · exact hnote any
    · exact hnote any
    · exact hnote any
    · exact hnote any
    · exact ⟨seconds, rfl, hmin, hmax⟩

lemma foldlM_timeoutInRange {strict : Bool} {env : Environment} {handle : PamHandleExt}
    {st st' : ParseState} {args : List CStr}
    (h : args.foldlM (parseArg strict env handle) st = .ok st') (hst : TimeoutInRange st) :
    TimeoutInRange st' := by
  induction args generalizing st with
  | nil =>
    obtain rfl : st = st' := Except.ok.inj h
    exact hst
  | cons arg args ih =>
    obtain ⟨st₁, hround, hrest⟩ := Except.foldlM_cons_eq_ok_iff.mp h
    exact ih hrest (parseArg_timeoutInRange hround hst)

/-- A strict call has a timeout between a second and five minutes. -/
lemma parse_agentTimeout {env : Environment} {handle : PamHandleExt} {args : List CStr}
    {parsed : Args} (h : Args.parse args env handle = .ok parsed) (hstrict : hasStrict args = true) :
    ∃ seconds, parsed.agentTimeout = some seconds ∧ 1 ≤ seconds ∧ seconds ≤ 300 := by
  obtain ⟨st, hfold, hfinish⟩ := Except.bind_eq_ok_iff.mp h
  have hsame : parsed.agentTimeout = st.agentTimeout := by
    unfold ParseState.finish at hfinish
    split_ifs at hfinish
    exact Except.ok.inj hfinish ▸ rfl
  rw [hsame]
  refine foldlM_timeoutInRange hfold ?_
  rw [hstrict]
  exact ⟨30, rfl, by omega, by omega⟩

/-- The event is a call of `connect`. -/
def Connects (e : Event ModuleCalls) : Prop :=
  ∃ path timeout, e.query = .inl (.connect path timeout)

/-- The one connection that a call opens has a timeout in range. -/
def OpensBounded (before : List (Event ModuleCalls)) : ModuleCalls.Query → Prop
  | .inl (.connect _ timeout) => (∀ e ∈ before, ¬ Connects e) ∧
      ∃ seconds, timeout = some seconds ∧ 1 ≤ seconds ∧ seconds ≤ 300
  | _ => True

section

variable {fuel : ℕ} {crate : SshKeyCrate} {host : Host} {handle : PamHandleExt} {args : List CStr}

lemma not_connects_policy (es : List (Event PolicyCalls)) :
    ∀ e ∈ es.map policyPart.event, ¬ Connects e := by
  intro e he
  obtain ⟨e', -, rfl⟩ := List.mem_map.mp he
  rintro ⟨path, timeout, h⟩
  cases h

lemma setupCall_opensBounded {query : SetupQuery} {before : List (Event ModuleCalls)}
    (h : OpensBounded before (setupPart.query query)) :
    ((setupCall query).lift setupPart).AsksAfter OpensBounded before := by
  refine ⟨h, ?_⟩
  rintro (error | _) <;> trivial

lemma run_opensBounded (hstrict : hasStrict args = true) :
    (run fuel crate host handle args).AsksAfter OpensBounded [] := by
  rw [run]
  refine (Prog.asksAfter_ofExcept _ _).bind fun context es₁ hcontext => ?_
  refine (setupCall_opensBounded (by trivial)).bind fun _ es₂ hlog => ?_
  refine (Prog.asksAfter_ofExcept _ _).bind fun parsed es₃ hparsed => ?_
  refine (Prog.asksAfter_ofExcept _ _).bind fun _ es₄ husers => ?_
  obtain ⟨rfl, -⟩ := Prog.returns_ofExcept.mp hcontext
  obtain ⟨logged, rfl, hsetup⟩ := Prog.returns_lift.mp hlog
  obtain rfl := returns_setupCall.mp hsetup
  obtain ⟨rfl, hparse⟩ := Prog.returns_ofExcept.mp hparsed
  obtain ⟨rfl, -⟩ := Prog.returns_ofExcept.mp husers
  rw [doAuthenticate]
  refine Prog.AsksAfter.bind (Prog.asksAfter_lift (fun _ _ => trivial) _ _)
    fun policy es₅ hload => ?_
  refine (Prog.asksAfter_ofExcept _ _).bind fun special es₆ hspecial => ?_
  obtain ⟨calls, rfl, -⟩ := Prog.returns_lift.mp hload
  obtain ⟨rfl, -⟩ := Prog.returns_ofExcept.mp hspecial
  split_ifs
  · trivial
  refine (Prog.asksAfter_ofExcept _ _).bind fun path es₇ hpath => ?_
  obtain ⟨rfl, -⟩ := Prog.returns_ofExcept.mp hpath
  refine Prog.AsksAfter.bind (setupCall_opensBounded ?_) fun _ _ _ => ?_
  · refine ⟨?_, parse_agentTimeout hparse hstrict⟩
    intro e he
    simp only [List.append_nil, List.nil_append, List.map_cons, List.map_nil, List.cons_append,
      List.mem_cons] at he
    rcases he with rfl | he
    · rintro ⟨path', timeout, h⟩
      cases h
    · exact not_connects_policy calls e he
  · refine (Prog.asksAfter_lift (fun _ _ => trivial) _ _).bind fun known _ _ => ?_
    cases known <;> trivial

lemma smAuthenticate_opensBounded (hstrict : hasStrict args = true) :
    (smAuthenticate fuel crate host handle args).AsksAfter OpensBounded [] := by
  refine (run_opensBounded hstrict).attempt.bind fun result _ _ => ?_
  cases result <;> trivial

end

/-! ## What happens on the socket -/

section

variable {client : AgentClient} {fuel : ℕ} {deadline : Instant} {connection : Option AgentStream}
  {es : List (Event SystemCalls)}

/-- A call whose connection is passed on as it is. -/
lemma steps_passOn {α : Type} {call : Prog SystemCalls Error α}
    {p' : Prog SystemCalls Error (α × Option AgentStream)}
    (h : (call >>= fun reply => Prog.ret (reply, connection)).Steps es p') :
    (∃ p'', call.Steps es p'') ∧ ∀ r c, p' = .ret (r, c) → c = connection := by
  rcases Prog.steps_bind h with ⟨p'', hcall⟩ | ⟨es₁, es₂, reply, rfl, hcall, hret⟩
  · refine ⟨⟨p'', hcall⟩, ?_⟩
    rintro r c rfl
    obtain ⟨es₁, es₂, reply, rfl, -, hret⟩ := Prog.returns_bind.mp h
    obtain ⟨-, hpair⟩ := Prog.returns_ret.mp hret
    exact (Prod.mk.inj hpair).2
  · cases hret with
    | refl =>
      refine ⟨⟨_, by rwa [List.append_nil]⟩, ?_⟩
      rintro r c hpair
      exact (Prod.mk.inj (Prog.ret.inj hpair)).2.symm

lemma socketEvents_host {I : Interface} {ε α : Type} (f : Embedding I HostCalls)
    {p : Prog I ε α} {p' : Prog SystemCalls ε α}
    (h : (p.lift (Embedding.comp (Embedding.inr (I := SocketCalls)) f)).Steps es p') :
    socketEvents es = [] := by
  obtain ⟨es', p'', rfl, -⟩ := Prog.steps_lift h
  rw [socketEvents, List.filterMap_map]
  exact List.filterMap_eq_nil_iff.mpr fun _ _ => rfl

lemma socketEvents_query {query : HostCalls.Query}
    {p' : Prog SystemCalls Error (HostCalls.Reply query)}
    (h : (Prog.query (I := SystemCalls) (.inr query) : Prog SystemCalls Error _).Steps es p') :
    socketEvents es = [] := by
  cases h with
  | refl => rfl
  | ask h =>
    cases h
    rfl

/-- Before there is a connection, only `connect` uses the socket. -/
lemma answer_unconnected {q : ModuleCalls.Query}
    (hq : ∀ path timeout, q ≠ .inl (.connect path timeout))
    {p' : Prog SystemCalls Error (ModuleCalls.Reply q × Option AgentStream)}
    (h : (client.answer fuel q none).Steps es p') :
    socketEvents es = [] ∧ ∀ r c, p' = .ret (r, c) → c = none := by
  rcases q with (service | ⟨path, timeout⟩) | query | query
  · obtain ⟨⟨p'', hcall⟩, hkept⟩ := steps_passOn h
    exact ⟨socketEvents_host _ hcall, hkept⟩
  · exact absurd rfl (hq path timeout)
  · obtain ⟨⟨p'', hcall⟩, hkept⟩ := steps_passOn h
    exact ⟨socketEvents_query hcall, hkept⟩
  · cases query with
    | now | fill =>
      obtain ⟨⟨p'', hcall⟩, hkept⟩ := steps_passOn h
      exact ⟨socketEvents_query hcall, hkept⟩
    | listIdentities | sign =>
      cases h with
      | refl => exact ⟨rfl, fun r c hret => absurd hret (by simp [AgentClient.answer, requestOn])⟩

/-- What a request does on the socket is armed. -/
lemma request_armed {α : Type} {request : Prog StreamCalls SACError α}
    {p' : Prog SystemCalls Error (Except SACError α)}
    (h : (AgentStream.request (.limited ⟨deadline⟩) request).Steps es p')
    (before : List (Event SocketCalls)) : EachArmed deadline before (socketEvents es) := by
  obtain ⟨ops, last, rfl, hserved, hlast, -⟩ := Prog.steps_interpret h
  rw [socketEvents_append]
  refine (operations_armed hserved before).append ?_
  rcases hlast with rfl | ⟨q, p, hlast⟩
  · exact eachArmed_nil
  · exact answer_armed q hlast _

/-- On a connection with a deadline, what the module calls is armed. -/
lemma answer_connected {q : ModuleCalls.Query}
    (hq : ∀ path timeout, q ≠ .inl (.connect path timeout))
    {p' : Prog SystemCalls Error (ModuleCalls.Reply q × Option AgentStream)}
    (h : (client.answer fuel q connection).Steps es p')
    (hconnection : ∀ stream ∈ connection, stream = .limited ⟨deadline⟩)
    (before : List (Event SocketCalls)) : EachArmed deadline before (socketEvents es) ∧
      ∀ r c, p' = .ret (r, c) → c = connection := by
  cases connection with
  | none =>
    obtain ⟨hnone, hkept⟩ := answer_unconnected hq h
    rw [hnone]
    exact ⟨eachArmed_nil, hkept⟩
  | some stream =>
    obtain rfl := hconnection stream rfl
    have hquiet : ∀ es : List (Event SystemCalls), socketEvents es = [] →
        EachArmed deadline before (socketEvents es) := by
      intro es hnone
      rw [hnone]
      exact eachArmed_nil
    rcases q with (service | ⟨path, timeout⟩) | query | query
    · obtain ⟨⟨p'', hcall⟩, hkept⟩ := steps_passOn h
      exact ⟨hquiet _ (socketEvents_host _ hcall), hkept⟩
    · exact absurd rfl (hq path timeout)
    · obtain ⟨⟨p'', hcall⟩, hkept⟩ := steps_passOn h
      exact ⟨hquiet _ (socketEvents_query hcall), hkept⟩
    · cases query with
      | now | fill =>
        obtain ⟨⟨p'', hcall⟩, hkept⟩ := steps_passOn h
        exact ⟨hquiet _ (socketEvents_query hcall), hkept⟩
      | listIdentities | sign =>
        obtain ⟨⟨p'', hcall⟩, hkept⟩ := steps_passOn h
        exact ⟨request_armed hcall before, hkept⟩

end

/-- A run of the socket that is limited by one deadline, a number of seconds in range after its
first reading of the clock. -/
structure Limited (start : Instant) (seconds : ℕ) (sock : List (Event SocketCalls)) : Prop where
  first : ∃ rest, sock = ⟨.now, start⟩ :: rest
  min : 1 ≤ seconds
  max : seconds ≤ 300
  armed : EachArmed (start + Duration.fromSecs seconds) [] sock

lemma Limited.append {start : Instant} {seconds : ℕ} {sock sock' : List (Event SocketCalls)}
    (h : Limited start seconds sock)
    (h' : EachArmed (start + Duration.fromSecs seconds) sock sock') :
    Limited start seconds (sock ++ sock') := by
  obtain ⟨rest, hrest⟩ := h.first
  exact ⟨⟨rest ++ sock', by rw [hrest, List.cons_append]⟩, h.min, h.max, h.armed.append h'⟩

/-- Where a strict call is with its connection, after the calls `before` of the module and the
calls `sock` on the socket. -/
inductive Session (before : List (Event ModuleCalls)) :
    Option AgentStream → List (Event SocketCalls) → Prop
  | unconnected (h : ∀ e ∈ before, ¬ Connects e) : Session before none []
  | connected {start : Instant} {seconds : ℕ} {connection : Option AgentStream}
      {sock : List (Event SocketCalls)} (h : Limited start seconds sock)
      (hconnects : ∃ e ∈ before, Connects e)
      (hconnection : ∀ stream ∈ connection,
        stream = .limited ⟨start + Duration.fromSecs seconds⟩) :
      Session before connection sock

section

variable {client : AgentClient} {fuel : ℕ} {connection : Option AgentStream}
  {before : List (Event ModuleCalls)} {sock : List (Event SocketCalls)}
  {es : List (Event SystemCalls)}

/-- `connect` with a timeout starts with a reading of the clock. -/
lemma connect_eq (fuel : ℕ) (path : List UInt8) (timeout : Duration) : ∃ k,
    connect fuel path (some timeout) = .ask .now k := ⟨_, rfl⟩

/-- What `connect` does on the socket is limited, and so is the stream that it makes. -/
lemma connect_limited {path : Text} {seconds : ℕ} (hmin : 1 ≤ seconds) (hmax : seconds ≤ 300)
    {p' : Prog SystemCalls Error (Except Error Unit × Option AgentStream)}
    (h : (client.answer fuel (.inl (.connect path (some seconds))) none).Steps es p') :
    (socketEvents es = [] ∧ ∀ r c, p' ≠ .ret (r, c)) ∨ ∃ start,
      Limited start seconds (socketEvents es) ∧ ∀ r c, p' = .ret (r, c) →
        ∀ stream ∈ c, stream = .limited ⟨start + Duration.fromSecs seconds⟩ := by
  have hreturned : ∀ r c, p' = .ret (r, c) → ∃ es' x, es = es'.map Embedding.inl.event ∧
      (connect fuel path.bytes (some (Duration.fromSecs seconds))).Ends es' x ∧
      ∀ stream ∈ c, x = .ok stream := by
    rintro r c rfl
    obtain ⟨es₁, es₂, x, rfl, hcall, hret⟩ := Prog.returns_bind.mp h
    obtain ⟨es', rfl, hattempt⟩ := Prog.returns_lift.mp hcall
    have hends := Prog.returns_attempt_iff_ends.mp hattempt
    cases x with
    | ok stream =>
      obtain ⟨rfl, hpair⟩ := Prog.returns_ret.mp hret
      obtain ⟨rfl, rfl⟩ := Prod.mk.inj hpair
      exact ⟨es', _, by simp, hends, fun stream' hstream => by simpa using hstream⟩
    | error error =>
      obtain ⟨rfl, hpair⟩ := Prog.returns_ret.mp hret
      obtain ⟨rfl, rfl⟩ := Prod.mk.inj hpair
      exact ⟨es', _, by simp, hends, fun stream hstream => absurd hstream (by simp)⟩
  have hsteps : ∃ es' p'', es = es'.map Embedding.inl.event ∧
      (connect fuel path.bytes (some (Duration.fromSecs seconds))).Steps es' p'' := by
    rcases Prog.steps_bind h with ⟨p'', hcall⟩ | ⟨es₁, es₂, x, rfl, hcall, hret⟩
    · obtain ⟨es', p₁, rfl, hattempt⟩ := Prog.steps_lift hcall
      obtain ⟨p₂, hconnect⟩ := Prog.steps_attempt hattempt
      exact ⟨es', p₂, rfl, hconnect⟩
    · obtain ⟨es', p₁, rfl, hattempt⟩ := Prog.steps_lift hcall
      obtain ⟨p₂, hconnect⟩ := Prog.steps_attempt hattempt
      have hnil : es₂ = [] := by
        cases x <;> (cases hret; rfl)
      exact ⟨es', p₂, by rw [hnil, List.append_nil], hconnect⟩
  obtain ⟨es', p'', rfl, hconnect⟩ := hsteps
  rw [socketEvents_map]
  have hinj : ∀ es'' : List (Event SocketCalls), es'.map Embedding.inl.event =
      es''.map (Embedding.inl (J := HostCalls)).event → es'' = es' := by
    intro es'' hsame
    have hsocket := congrArg socketEvents hsame
    rw [socketEvents_map, socketEvents_map] at hsocket
    exact hsocket.symm
  rcases es' with _ | ⟨⟨query, reply⟩, es'⟩
  · refine Or.inl ⟨rfl, ?_⟩
    rintro r c hp'
    obtain ⟨es'', x, hsame, hends, -⟩ := hreturned r c hp'
    obtain rfl := hinj es'' hsame
    obtain ⟨k, hk⟩ := connect_eq fuel path.bytes (Duration.fromSecs seconds)
    rw [hk] at hends
    obtain ⟨_, _, hcons, -⟩ := Prog.ends_ask.mp hends
    exact absurd hcons (by simp)
  · obtain rfl : query = .now := by
      cases hconnect
      rfl
    have hlimited : Limited reply seconds (⟨.now, reply⟩ :: es') :=
      ⟨⟨es', rfl⟩, hmin, hmax, connect_armed hconnect⟩
    refine Or.inr ⟨reply, hlimited, ?_⟩
    rintro r c hp' stream hstream
    obtain ⟨es'', x, hsame, hends, hok⟩ := hreturned r c hp'
    obtain rfl := hinj es'' hsame
    obtain rfl := hok stream hstream
    exact connect_returns hends

lemma Session.unconnected_of {path : Text} {timeout : Option ℕ}
    (h : Session before connection sock) (hq : OpensBounded before (.inl (.connect path timeout))) :
    connection = none ∧ sock = [] := by
  cases h with
  | unconnected _ => exact ⟨rfl, rfl⟩
  | connected _ hconnects _ =>
    obtain ⟨e, he, hconnects⟩ := hconnects
    exact absurd hconnects (hq.1 e he)

/-- A call of the module keeps the session in order. -/
lemma Session.step {q : ModuleCalls.Query} {r : ModuleCalls.Reply q}
    {connection' : Option AgentStream} (h : Session before connection sock)
    (hq : OpensBounded before q)
    (hreturns : (client.answer fuel q connection).Returns es (r, connection')) :
    Session (before ++ [⟨q, r⟩]) connection' (sock ++ socketEvents es) := by
  by_cases hconnect : ∃ path timeout, q = .inl (.connect path timeout)
  · obtain ⟨path, timeout, rfl⟩ := hconnect
    obtain ⟨rfl, rfl⟩ := h.unconnected_of hq
    obtain ⟨-, seconds, rfl, hmin, hmax⟩ := hq
    rcases connect_limited hmin hmax hreturns with ⟨-, hnot⟩ | ⟨start, hlimited, hstream⟩
    · exact absurd rfl (hnot r connection')
    · exact .connected hlimited
        ⟨_, List.mem_append_right _ (List.mem_singleton_self _), path, _, rfl⟩
        (hstream r connection' rfl)
  · have hother : ∀ path timeout, q ≠ .inl (.connect path timeout) :=
      fun path timeout hq => hconnect ⟨path, timeout, hq⟩
    cases h with
    | unconnected hnone =>
      obtain ⟨hquiet, hkept⟩ := answer_unconnected hother hreturns
      obtain rfl := hkept r connection' rfl
      rw [hquiet]
      refine .unconnected fun e he => ?_
      rcases List.mem_append.mp he with he | he
      · exact hnone e he
      · obtain rfl := List.mem_singleton.mp he
        rintro ⟨path, timeout, heq⟩
        exact hother path timeout heq
    | @connected start seconds _ _ hlimited hconnects hconnection =>
      obtain ⟨harmed, hkept⟩ := answer_connected hother hreturns hconnection sock
      obtain rfl := hkept r connection' rfl
      obtain ⟨e, he, hconnects⟩ := hconnects
      exact .connected (hlimited.append harmed) ⟨e, List.mem_append_left _ he, hconnects⟩ hconnection

/-- So does the beginning of a call. -/
lemma Session.pending {q : ModuleCalls.Query}
    {p' : Prog SystemCalls Error (ModuleCalls.Reply q × Option AgentStream)}
    (h : Session before connection sock) (hq : OpensBounded before q)
    (hsteps : (client.answer fuel q connection).Steps es p') :
    sock ++ socketEvents es = [] ∨ ∃ start seconds,
      Limited start seconds (sock ++ socketEvents es) := by
  by_cases hconnect : ∃ path timeout, q = .inl (.connect path timeout)
  · obtain ⟨path, timeout, rfl⟩ := hconnect
    obtain ⟨rfl, rfl⟩ := h.unconnected_of hq
    obtain ⟨-, seconds, rfl, hmin, hmax⟩ := hq
    exact (connect_limited hmin hmax hsteps).imp (fun hnone => hnone.1)
      fun ⟨start, hlimited, _⟩ => ⟨start, seconds, hlimited⟩
  · have hother : ∀ path timeout, q ≠ .inl (.connect path timeout) :=
      fun path timeout hq => hconnect ⟨path, timeout, hq⟩
    cases h with
    | unconnected _ => exact Or.inl (answer_unconnected hother hsteps).1
    | @connected start seconds _ _ hlimited _ hconnection =>
      exact Or.inr ⟨start, seconds,
        hlimited.append (answer_connected hother hsteps hconnection sock).1⟩

end

/-- What the module does over its layers. -/
structure OverLayers (client : AgentClient) (fuel : ℕ) (crate : SshKeyCrate) (host : Host)
    (handle : PamHandleExt) (args : List CStr) (es : List (Event SystemCalls))
    (p' : Prog SystemCalls Error PamResultCode) : Prop where
  /-- It returns what it returns by itself with the replies of the layers, which run one after
  the other on the same connection. -/
  refines : ∀ code, p' = .ret code → ∃ ops connection, es = ops.flatMap Prod.snd ∧
    Prog.ServedFrom (client.answer fuel) none ops connection ∧
    (PamSshAgent.smAuthenticate fuel crate host handle args).Returns (ops.map Prod.fst) code
  /-- In strict mode all that happens on the socket is limited by one deadline. -/
  limited : hasStrict args = true → socketEvents es = [] ∨
    ∃ start seconds, Limited start seconds (socketEvents es)
  /-- After that deadline the agent is not talked to. -/
  silent : ∀ start seconds, Limited start seconds (socketEvents es) →
    (readings (socketEvents es)).Pairwise (· ≤ ·) → ∀ now es₁ es₂,
      socketEvents es = es₁ ++ ⟨.now, now⟩ :: es₂ → start + Duration.fromSecs seconds ≤ now →
        ∀ e ∈ es₂, ¬ Transfers e

/-- **The module over its layers.**  Whatever the client of the agent does on its stream and
whatever the system replies, the module returns what it returns by itself; and a strict call
uses the socket of the agent for no more than five minutes. -/
theorem call_overLayers (client : AgentClient) (fuel : ℕ) (crate : SshKeyCrate) (host : Host)
    (handle : PamHandleExt) (args : List CStr) (es : List (Event SystemCalls))
    (p' : Prog SystemCalls Error PamResultCode)
    (h : (client.smAuthenticate fuel crate host handle args).Steps es p') :
    OverLayers client fuel crate host handle args es p' := by
  refine ⟨?_, ?_, fun start seconds hlimited hclock now es₁ es₂ => hlimited.armed.silent hclock⟩
  · rintro code rfl
    exact Prog.returns_interpretFrom.mp h
  · intro hstrict
    obtain ⟨ops, last, connection, rest, rfl, hserved, hsteps, hlast⟩ := Prog.steps_interpretFrom h
    have hasks : (PamSshAgent.smAuthenticate fuel crate host handle args).AsksAfter OpensBounded
        [] := smAuthenticate_opensBounded hstrict
    have hsession : Session ([] ++ ops.map Prod.fst) connection
        (socketEvents ([] ++ ops.flatMap Prod.snd)) := by
      refine Prog.ServedFrom.invariant (P := fun before connection es =>
        Session before connection (socketEvents es)) ?_ hserved hasks hsteps (.unconnected (by simp))
      intro before s es q r s' es' hinv hq hreturns
      rw [socketEvents_append]
      exact hinv.step hq hreturns
    rw [List.nil_append, List.nil_append] at hsession
    rw [socketEvents_append]
    rcases hlast with rfl | ⟨q, k, p'', rfl, hpending⟩
    · rw [show socketEvents ([] : List (Event SystemCalls)) = [] from rfl, List.append_nil]
      generalize socketEvents (ops.flatMap Prod.snd) = sock at hsession ⊢
      cases hsession with
      | unconnected _ => exact Or.inl rfl
      | @connected start seconds _ _ hlimited _ _ => exact Or.inr ⟨start, seconds, hlimited⟩
    · exact hsession.pending (hsteps.asksAfter_ask hasks) hpending

/-! ## An agent that hangs up -/

/-- A client that reads the length of a response and finds none. -/
def lengthClient : AgentClient where
  listIdentities := .ask (.read 4) fun _ => .fail (.other "unexpected end of file")
  sign _ _ := .fail .remoteFailure

/-- The replies of a system with empty files whose agent accepts a connection and closes it. -/
def hangUpReplies : Prog.Responder SystemCalls Unit
  | .inl query, s =>
    match query with
    | .now => ((0 : Instant), s)
    | .connectPlain _ | .socket | .setCloexec | .setFlags _ | .connect _ | .setTimeout _ _ =>
      (.ok (), s)
    | .getFlags => (.ok (2 : ℕ), s)
    | .poll _ => (.ok (1 : ℕ), s)
    | .socketError => (.ok none, s)
    | .transfer (.read _) => (.ok [], s)
    | .transfer (.write _) => (.ok (0 : ℕ), s)
    | .transfer .flush => (.ok (), s)
  | .inr (.inl query), s =>
    match query with
    | .readGuard => (true, s)
    | .lock | .unlock | .writeGuard _ | .setMaxLevel _ => ((), s)
    | .openSyslog _ | .setBoxedLogger _ => (.ok (), s)
  | .inr (.inr (.inl (.inl query))), s => (emptyFilesFs.answer query, s)
  | .inr (.inr (.inl (.inr query))), s => ((rootReplies (.inr (.inl (.inr query))) s).1, s)
  | .inr (.inr (.inr query)), s =>
    match query with
    | .now => ((0 : SystemTime), s)
    | .fill => (none, s)

/-- A host with an agent. -/
def agentHost : Host := { bobHost with var := fun _ => some (some "/a") }

/-- The parameters of a strict call for `bob`. -/
def agentArgs : Args :=
  { file := "/bob", strict := true, sshdShortcut := false, agentTimeout := some 30 }

/-- The call, with its arguments read. -/
def hangUpCall : Prog ModuleCalls Error PamResultCode := do
  match ← ((do
    (setupCall (.initLogging "sudo")).lift setupPart
    doAuthenticate 3 keyLineCrate agentHost agentArgs ⟨"bob", "sudo"⟩).attempt (δ := Error)) with
  | .ok () => .ret .success
  | .error _ => .ret .authErr

lemma smAuthenticate_eq_hangUpCall : smAuthenticate 3 keyLineCrate agentHost
    ⟨.ok "bob", .ok "sudo"⟩ (cstrs ["strict", "file=/%u"]) = hangUpCall := by
  have hparse : Args.parse (cstrs ["strict", "file=/%u"]) agentHost.unixEnvironment
      ⟨.ok "bob", .ok "sudo"⟩ = .ok agentArgs := by
    decide +kernel
  have husers : checkStrictUsers agentHost agentArgs ⟨"bob", "sudo"⟩ = .ok () := by
    decide +kernel
  rw [smAuthenticate, run]
  simp only [PamContext.new, PamContext.handle, Except.ok_bind, Except.pure_eq_ok, Prog.ofExcept_ok,
    Prog.ret_bind, hparse, husers]
  rfl

/-- A run of it on the system whose agent hangs up. -/
def hangUpRun : Prog SystemCalls Error PamResultCode × List (Event SystemCalls) × Unit :=
  (hangUpCall.interpretFrom (lengthClient.answer 3) none).run hangUpReplies ()

lemma hangUpRun_steps : (lengthClient.smAuthenticate 3 keyLineCrate agentHost
    ⟨.ok "bob", .ok "sudo"⟩ (cstrs ["strict", "file=/%u"])).Steps hangUpRun.2.1 hangUpRun.1 := by
  rw [AgentClient.smAuthenticate, smAuthenticate_eq_hangUpCall, hangUpRun]
  exact Prog.steps_run _ _ _

/-- The call reads from the socket once, and denies. -/
theorem call_overLayers_hangUp : OverLayers lengthClient 3 keyLineCrate agentHost
    ⟨.ok "bob", .ok "sudo"⟩ (cstrs ["strict", "file=/%u"]) hangUpRun.2.1 hangUpRun.1 ∧
    ((socketEvents hangUpRun.2.1).map Event.query).getLast? = some (.transfer (.read 4)) ∧
    hangUpRun.1.returned = some .authErr :=
  ⟨call_overLayers lengthClient 3 keyLineCrate agentHost ⟨.ok "bob", .ok "sudo"⟩
    (cstrs ["strict", "file=/%u"]) hangUpRun.2.1 hangUpRun.1 hangUpRun_steps,
    by decide +kernel, by decide +kernel⟩

end PamSshAgent
