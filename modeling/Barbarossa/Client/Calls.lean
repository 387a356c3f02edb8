import Barbarossa.Client.Steps

/-!
# Calls and replies

The server calls registered operations by CALL messages. An operation runs before
`SendMessage` asks for a session, so a CALL without one is refused only afterwards. In a
run of messages that the session processes without throwing, the RESULT and ERROR frames
are the replies to the CALLs, one for each and in their order.
-/

namespace Barbarossa
open Barbarossa.Base

namespace Session

/-- Without a session, a reply is refused. -/
theorem sendOutcome_of_no_session {s : Session} (hid : s.sessionId = 0) (net : Net) (m : Message) :
    ∃ x, s.sendOutcome net m true = .thrown x := by
  rcases s.sendOutcome_cases net m true with hv | ⟨x, hx, -⟩
  · have hroute : ∃ t, s.route net true = .ok t := by
      unfold sendOutcome at hv
      cases hr : s.route net true with
      | error x =>
        rw [hr] at hv
        cases hv
      | ok t => exact ⟨t, rfl⟩
    obtain ⟨t, hr⟩ := hroute
    exact absurd hid ((route_eq_ok.mp hr).2.2 rfl)
  · exact ⟨x, hx⟩

/-- Without a session, every readable CALL ends with an exception. -/
theorem callOutcome_of_no_session {s : Session} (hid : s.sessionId = 0) (net : Net)
    (r : CallRequest) : ∃ x, s.callOutcome net r = .thrown x := by
  unfold callOutcome
  cases s.operations r.operation with
  | none => exact sendOutcome_of_no_session hid net _
  | some fn =>
    dsimp only
    split
    · next x hx => exact ⟨x, rfl⟩
    · split
      · exact sendOutcome_of_no_session hid net _
      · exact ⟨_, rfl⟩

/-- A CALL invokes an operation exactly when it names a registered one. -/
theorem invoked_mem_callOutput {net : Net} {s : Session} {r : CallRequest} {operation : Bytes}
    {arguments : Json} : .invoked operation arguments ∈ s.callOutput net r ↔
      (s.operations r.operation).isSome = true ∧ operation = r.operation ∧
        arguments = r.arguments := by
  have hsend : ∀ m, Effect.invoked operation arguments ∉ s.sendOutput net m true := by
    intro m hm
    obtain ⟨t, -, -, he⟩ := mem_sendOutput.mp hm
    cases he
  unfold callOutput
  cases s.operations r.operation with
  | none => simp [hsend]
  | some fn =>
    simp only [List.mem_cons, Effect.invoked.injEq, Option.isSome_some, true_and,
      or_iff_left_iff_imp]
    intro hm
    split at hm
    · cases hm
    · split at hm
      · exact absurd hm (hsend _)
      · cases hm

end Session

namespace Client

/-- A CALL, readable or not. -/
def isCall : Action → Bool
  | .message _ m _ =>
    match m.received with
    | .call _ => true
    | _ => false
  | _ => false

/-- A readable CALL that names a registered operation. -/
def callsRegistered (c : Client) : Action → Bool
  | .message _ m _ =>
    match m.received with
    | .call (.ok r) => (c.session.operations r.operation).isSome
    | _ => false
  | _ => false

/-- A step that invokes no operation, and ends with an exception if it delivers a CALL. -/
structure RefusesCalls (e : ClientEntry) : Prop where
  invoked : ∀ operation arguments, .invoked operation arguments ∉ e.output.2
  thrown : isCall e.action = true → ∃ x, e.output.1 = .thrown x

/-- Only a CALL of a registered operation invokes anything. -/
theorem invoked_mem_outputAfter {c : Client} {a : Action} {operation : Bytes} {arguments : Json}
    (h : .invoked operation arguments ∈ c.outputAfter a) : c.callsRegistered a = true := by
  have hsend : ∀ (net : Net) (s : Session) (m : Message) (b : Bool),
      Effect.invoked operation arguments ∉ s.sendOutput net m b := by
    intro net s m b hm
    obtain ⟨t, -, -, he⟩ := Session.mem_sendOutput.mp hm
    cases he
  cases a with
  | runDispatched ec =>
    simp only [outputAfter, Session.helloOutput] at h
    split at h
    · cases h
    · split at h
      · cases h
      · exact absurd h (hsend _ _ _ _)
    · exact absurd h (hsend _ _ _ _)
    · cases h
  | message t m ec =>
    simp only [outputAfter, Session.onMessageOutput] at h
    simp only [callsRegistered]
    cases hr : m.received with
    | call request =>
      rw [hr] at h
      cases request with
      | ok r => exact (Session.invoked_mem_callOutput.mp h).1
      | error x => cases h
    | _ =>
      rw [hr] at h
      cases h
  | _ => cases h

/-- Without a session, a step refuses calls exactly when it delivers no CALL of a registered
operation. -/
theorem refusesCalls_step {p p' : Process Client Fault} {a : Action}
    {o : Outcome Exception Fault PUnit × List Effect} (hs : step p a = some (o, p'))
    (hid : p.state.session.sessionId = 0) :
    RefusesCalls ⟨p, a, o, p'⟩ ↔ p.state.callsRegistered a = false := by
  have hf := step_facts hs
  constructor
  · intro hrefuses
    by_contra hne
    rw [Bool.not_eq_false] at hne
    cases a with
    | message t m ec =>
      simp only [callsRegistered] at hne
      split at hne
      · next r hr =>
        have hinvoked := hrefuses.invoked r.operation r.arguments
        dsimp only at hinvoked
        rw [hf.output] at hinvoked
        apply hinvoked
        simp only [outputAfter, hr, Session.onMessageOutput]
        exact Session.invoked_mem_callOutput.mpr ⟨hne, rfl, rfl⟩
      · cases hne
    | _ => cases hne
  · intro hnone
    constructor
    · intro operation arguments hmem
      dsimp only at hmem
      rw [hf.output] at hmem
      rw [invoked_mem_outputAfter hmem] at hnone
      cases hnone
    · intro hcall
      cases a with
      | message t m ec =>
        dsimp only
        rw [step_message hs]
        simp only [isCall] at hcall
        split at hcall
        · next r hr =>
          rw [hr]
          cases r with
          | error x => exact ⟨x, rfl⟩
          | ok r => exact Session.callOutcome_of_no_session hid _ r
        · cases hcall
      | _ => cases hcall

/-- In a run, no step without a session invokes an operation, and every CALL is refused, exactly
when CALLs of registered operations arrive only while there is a session. -/
theorem refuses_calls_iff {h : ClientHistory} {p : Process Client Fault} (hr : ClientRun h p) :
    (∀ e ∈ h, e.before.state.session.sessionId = 0 → RefusesCalls e) ↔
      ∀ e ∈ h, e.before.state.callsRegistered e.action = true →
        e.before.state.session.sessionId ≠ 0 := by
  have hstep : ∀ e ∈ h, e.before.state.session.sessionId = 0 →
      (RefusesCalls e ↔ e.before.state.callsRegistered e.action = false) := by
    intro e he hid
    obtain ⟨older, -, hs⟩ := hr.of_mem he
    exact refusesCalls_step hs hid
  constructor
  · intro hall e he hcalls hid
    rw [(hstep e he hid).mp (hall e he hid)] at hcalls
    cases hcalls
  · intro hall e he hid
    apply (hstep e he hid).mpr
    by_contra hne
    rw [Bool.not_eq_false] at hne
    exact hall e he hne hid

/-- The operation that returns its arguments. -/
def echo : Operation := fun arguments => .ok arguments

/-- A CALL of `f`. -/
def callF : Message := ⟨[.integer 10, .integer 1, .string (utf8 "f"), .null]⟩

/-- A run whose CALL comes after the WELCOME. -/
theorem refuses_calls_joined : ∃ h p, ClientRun h p ∧
    ((∀ e ∈ h, e.before.state.session.sessionId = 0 → RefusesCalls e) ↔
      ∀ e ∈ h, e.before.state.callsRegistered e.action = true →
        e.before.state.session.sessionId ≠ 0) ∧
    ∃ e ∈ h, e.before.state.callsRegistered e.action = true := by
  obtain ⟨h, p, hr, hc⟩ := exists_run_of_replay step init
    [.registerOperation (utf8 "f") echo, .attach 0, .transport 0 .onClientOpen,
      .join (utf8 "realm"), .runDispatched none, .message 0 ⟨[.integer 2, .integer 7]⟩ none,
      .message 0 callF none]
    (fun h _ => h.any fun e => e.before.state.callsRegistered e.action) (by decide)
  exact ⟨h, p, hr, refuses_calls_iff hr, List.any_eq_true.mp hc⟩

/-- A CALL that arrives before `Join` runs the operation. -/
theorem not_refuses_calls : ¬ ∀ h p, ClientRun h p →
    ∀ e ∈ h, e.before.state.session.sessionId = 0 → RefusesCalls e := by
  intro hall
  obtain ⟨h, p, hr, hc⟩ := exists_run_of_replay step init
    [.registerOperation (utf8 "f") echo, .attach 0, .transport 0 .onClientOpen,
      .message 0 callF none]
    (fun h _ => h.any fun e => decide (e.before.state.session.sessionId = 0) &&
      decide (Effect.invoked (utf8 "f") .null ∈ e.output.2)) (by decide)
  obtain ⟨e, he, hc⟩ := List.any_eq_true.mp hc
  simp only [Bool.and_eq_true, decide_eq_true_eq] at hc
  exact (hall h p hr e he hc.1).invoked _ _ hc.2

/-! ### Replies -/

/-- A RESULT or ERROR frame. -/
def isReply (frame : List Json) : Bool :=
  frame.head? = some (.integer 11) || frame.head? = some (.integer 9)

/-- The frame of an effect, if it is a RESULT or an ERROR. -/
def replyFrame? : Effect → Option (List Json)
  | .send _ frame _ => if isReply frame then some frame else none
  | .invoked _ _ => none

/-- The RESULT and ERROR frames that were handed over, oldest first. -/
def sentReplies : ClientHistory → List (List Json)
  | [] => []
  | e :: h => sentReplies h ++ e.output.2.filterMap replyFrame?

/-- The operation registered last under a name. -/
def registered : ClientHistory → Bytes → Option Operation
  | [], _ => none
  | e :: h, name =>
    match e.action with
    | .registerOperation operation fn => if name = operation then some fn else registered h name
    | _ => registered h name

/-- The reply to a CALL: its request id, with the value of the operation or the error. -/
def callReply (operations : Bytes → Option Operation) (m : Message) : List (List Json) :=
  match m.fields with
  | _ :: .integer id :: .string operation :: arguments :: _ =>
    match operations operation with
    | none => [[.integer 9, .integer 10, .integer id, .string (utf8 "ERR_NO_SUCH_OPERATION"),
        .object []]]
    | some fn =>
      match fn arguments with
      | .ok result => [[.integer 11, .integer id, result]]
      | .error _ => []
  | _ => []

/-- The replies an action asks for: one for a CALL, none otherwise. -/
def expectedReply (operations : Bytes → Option Operation) : Action → List (List Json)
  | .message t m ec => if isCall (.message t m ec) then callReply operations m else []
  | _ => []

/-- The replies to the CALLs that arrived in `h`, oldest first, after a history `h₀`. -/
def expectedReplies (h₀ : ClientHistory) : ClientHistory → List (List Json)
  | [] => []
  | e :: h => expectedReplies h₀ h ++ expectedReply (registered (h ++ h₀)) e.action

/-- A CALL with an int32 id, an operation name and arguments. -/
def wellFormedCall (m : Message) : Bool :=
  match m.fields with
  | _ :: .integer id :: .string _ :: _ :: _ => -2147483648 ≤ id && id < 2147483648
  | _ => false

/-- A message was processed without throwing, and is well formed if it is a CALL. -/
def served (e : ClientEntry) : Bool :=
  match e.action with
  | .message t m ec =>
    e.output.1 = .value ⟨⟩ && (!isCall (.message t m ec) || wellFormedCall m)
  | _ => true

/-- The registered operations are the ones registered last. -/
theorem operations_eq {h : ClientHistory} {p : Process Client Fault} (hr : ClientRun h p) :
    p.state.session.operations = registered h := by
  refine hr.invariant (fun h p => p.state.session.operations = registered h) rfl ?_
  intro h p a o p' ih hs
  rw [(step_facts hs).session]
  funext name
  cases a with
  | registerOperation operation fn => simp only [sessionAfter, registered, ih]
  | runDispatched ec =>
    simp only [sessionAfter, registered, ← ih]
    split <;> simp
  | attach t | detach t =>
    simp only [sessionAfter, registered, ← ih]
    split <;> rfl
  | message t m ec => simp [sessionAfter, registered, ← ih]
  | hearbeat => simp [sessionAfter, registered, ← ih]
  | _ => simp only [sessionAfter, registered, ← ih]

/-- A send that ended normally handed over its frame. -/
theorem sendOutput_of_value {net : Net} {s : Session} {m : Message} {b : Bool}
    (h : s.sendOutcome net m b = .value ⟨⟩) :
    ∃ t, s.sendOutput net m b = [.send t m.fields none] := by
  unfold Session.sendOutcome at h
  unfold Session.sendOutput
  cases hr : s.route net b with
  | error x =>
    rw [hr] at h
    cases h
  | ok t =>
    rw [hr] at h
    dsimp only at h ⊢
    split at h
    · next hd =>
      rw [if_pos hd]
      split at h
      · cases h
      · next hec => exact ⟨t, by rw [hec]⟩
    · cases h

/-- The fields of a well-formed CALL. -/
theorem fields_of_wellFormed {m : Message} (h : wellFormedCall m = true) :
    ∃ type id operation arguments rest,
      m.fields = type :: .integer id :: .string operation :: arguments :: rest ∧
        -2147483648 ≤ id ∧ id < 2147483648 := by
  unfold wellFormedCall at h
  split at h
  · next type id operation arguments rest hm =>
    rw [Bool.and_eq_true, decide_eq_true_eq, decide_eq_true_eq] at h
    exact ⟨type, id, operation, arguments, rest, hm, h.1, h.2⟩
  · cases h

/-- What a well-formed CALL is read as. -/
theorem callRequest_of_wellFormed {m : Message} {type : Json} {id : Int} {operation : Bytes}
    {arguments : Json} {rest : List Json}
    (hm : m.fields = type :: .integer id :: .string operation :: arguments :: rest) :
    m.callRequest = .ok ⟨Int32.ofInt id, operation, arguments⟩ := by
  obtain ⟨fields⟩ := m
  subst hm
  rfl

/-- A CALL that ends normally is answered by its reply. -/
theorem replies_of_call {net : Net} {s : Session} {m : Message} (hm : wellFormedCall m = true)
    {r : CallRequest} (hr : m.callRequest = .ok r) (hv : s.callOutcome net r = .value ⟨⟩) :
    (s.callOutput net r).filterMap replyFrame? = callReply s.operations m := by
  obtain ⟨type, id, operation, arguments, rest, hfields, hlo, hhi⟩ := fields_of_wellFormed hm
  rw [callRequest_of_wellFormed hfields] at hr
  cases hr
  have hid : (Int32.ofInt id).toInt = id := Int32.toInt_ofInt_of_le hlo hhi
  unfold Session.callOutcome at hv
  unfold Session.callOutput callReply
  rw [hfields]
  dsimp only at hv ⊢
  cases ho : s.operations operation with
  | none =>
    rw [ho] at hv
    obtain ⟨t, ht⟩ := sendOutput_of_value hv
    rw [ht]
    simp [replyFrame?, isReply, Session.errorFrame, hid]
  | some fn =>
    rw [ho] at hv
    dsimp only at hv ⊢
    cases hfn : fn arguments with
    | error x =>
      rw [hfn] at hv
      cases hv
    | ok result =>
      rw [hfn] at hv
      dsimp only at hv ⊢
      split at hv
      · next hd =>
        obtain ⟨t, ht⟩ := sendOutput_of_value hv
        rw [if_pos hd, ht]
        simp only [Session.resultFrame, hid]
        rfl
      · cases hv

private theorem received_of_isCall {t : TransportId} {m : Message} {ec : Option Bytes}
    (h : isCall (.message t m ec) = true) : m.received = .call m.callRequest := by
  simp only [isCall] at h
  split at h
  · next r hr =>
    rw [hr]
    unfold Message.received at hr
    split at hr
    · cases hr
    · split at hr
      · cases hr
      · split at hr <;> cases hr
        rfl
  · cases h

/-- One step hands over the reply to the CALL it delivers, and no other RESULT or ERROR. -/
theorem replies_step {p p' : Process Client Fault} {a : Action}
    {o : Outcome Exception Fault PUnit × List Effect} (hs : step p a = some (o, p'))
    (hbuilt : ∀ d ∈ p.state.session.ioContext, Built d) (hserved : served ⟨p, a, o, p'⟩ = true) :
    o.2.filterMap replyFrame? = expectedReply p.state.session.operations a := by
  rw [(step_facts hs).output]
  cases a with
  | message t m ec =>
    simp only [served, Bool.and_eq_true, decide_eq_true_eq] at hserved
    obtain ⟨hv, hwell⟩ := hserved
    rw [step_message hs] at hv
    by_cases hcall : isCall (.message t m ec) = true
    · rw [expectedReply, if_pos hcall]
      have hr := received_of_isCall hcall
      simp only [outputAfter, hr] at hv ⊢
      cases hreq : m.callRequest with
      | error x =>
        rw [hreq] at hv
        cases hv
      | ok r =>
        rw [hreq] at hv
        rw [hcall] at hwell
        exact replies_of_call hwell hreq hv
    · rw [expectedReply, if_neg hcall]
      simp only [outputAfter, Session.onMessageOutput]
      split
      · next hr => exact absurd (by simp only [isCall, hr]) hcall
      · rfl
  | runDispatched ec =>
    have hnone : ∀ (net : Net) (s : Session) (m : Message) (b : Bool), isReply m.fields = false →
        (s.sendOutput net m b).filterMap replyFrame? = [] := by
      intro net s m b hm
      rw [List.filterMap_eq_nil_iff]
      intro x hx
      obtain ⟨t, -, -, rfl⟩ := Session.mem_sendOutput.mp hx
      simp only [replyFrame?, hm, Bool.false_eq_true, ite_false]
    simp only [outputAfter]
    split
    · rfl
    · next hq =>
      obtain ⟨realm, rfl⟩ := hbuilt _ (hq ▸ List.mem_cons_self)
      unfold Session.helloOutput
      split
      · rfl
      · exact hnone _ _ _ _ rfl
    · next hq =>
      have hping := hbuilt _ (hq ▸ List.mem_cons_self)
      cases hping
      exact hnone _ _ _ _ rfl
    · rfl
  | _ => rfl

/-- In a run in which every message is processed without throwing and every CALL is well formed,
the RESULT and ERROR frames are the replies to the CALLs, one for each and in their order. -/
theorem replies_eq {h₀ h : ClientHistory} {p₀ p : Process Client Fault} (hr₀ : ClientRun h₀ p₀)
    (hr : Run step p₀ h p) (hserved : ∀ e ∈ h, served e = true) :
    sentReplies h = expectedReplies h₀ h := by
  induction hr with
  | nil => rfl
  | @cons h p p' a o hr hs ih =>
    rw [List.forall_mem_cons] at hserved
    have hrun : ClientRun (h ++ h₀) p := hr₀.trans hr
    have hreplies := replies_step hs (built_of_mem_ioContext hrun) hserved.1
    rw [operations_eq hrun] at hreplies
    simp only [sentReplies, expectedReplies, ih hserved.2, hreplies]

/-- A joined session over a connected transport whose sends succeed processes every CALL of an
operation that returns a dumpable value, and every CALL of an unknown one. -/
theorem callOutcome_of_session {net : Net} {s : Session} {t : TransportId} {r : CallRequest}
    (ht : s.transport = some t) (hc : net.isConnected t = true) (hid : s.sessionId ≠ 0)
    (hec : net.ec = none) (hfn : ∀ fn, s.operations r.operation = some fn →
      ∃ result, fn r.arguments = .ok result ∧ result.dumpable = true) :
    s.callOutcome net r = .value ⟨⟩ := by
  have hroute : s.route net true = .ok t := Session.route_eq_ok.mpr ⟨ht, hc, fun _ => hid⟩
  have hsend : ∀ m : Message, Json.dumpable (.array m.fields) = true →
      s.sendOutcome net m true = .value ⟨⟩ := by
    intro m hd
    simp only [Session.sendOutcome, hroute, hd, ite_true, hec]
  unfold Session.callOutcome
  cases ho : s.operations r.operation with
  | none =>
    apply hsend
    exact Session.dumpable_errorFrame r.requestId
  | some fn =>
    obtain ⟨result, hresult, hd⟩ := hfn fn ho
    dsimp only
    rw [hresult]
    dsimp only
    rw [if_pos hd]
    apply hsend
    rw [Session.dumpable_resultFrame, hd]

/-- A CALL of `g`. -/
def callG : Message := ⟨[.integer 10, .integer 2, .string (utf8 "g"), .null]⟩

/-- Two CALLs after a WELCOME, one of a registered and one of an unknown operation. -/
theorem replies_eq_two : ∃ h₀ p₀ h p, ClientRun h₀ p₀ ∧ Run step p₀ h p ∧
    sentReplies h = expectedReplies h₀ h ∧
    sentReplies h = [[.integer 11, .integer 1, .null], [.integer 9, .integer 10, .integer 2,
      .string (utf8 "ERR_NO_SUCH_OPERATION"), .object []]] := by
  obtain ⟨h₀, p₀, h, p, hr₀, hr, hc⟩ := exists_continuation_of_replay step init
    [.registerOperation (utf8 "f") echo, .attach 0, .transport 0 .onClientOpen,
      .join (utf8 "realm"), .runDispatched none, .message 0 ⟨[.integer 2, .integer 7]⟩ none]
    [.message 0 callF none, .message 0 callG none]
    (fun _ _ h _ => h.all served &&
      decide (sentReplies h = [[.integer 11, .integer 1, .null], [.integer 9, .integer 10,
        .integer 2, .string (utf8 "ERR_NO_SUCH_OPERATION"), .object []]])) (by decide)
  simp only [Bool.and_eq_true, decide_eq_true_eq] at hc
  exact ⟨h₀, p₀, h, p, hr₀, hr, replies_eq hr₀ hr (List.all_eq_true.mp hc.1), hc.2⟩

end Client
end Barbarossa
