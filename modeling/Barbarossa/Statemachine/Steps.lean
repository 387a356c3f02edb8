import Barbarossa.Statemachine.WebsocketEndpoint

/-!
# The steps of an endpoint

What each step of the two threads leaves of the shared state and of the points at which the threads
stand, as functions of the state before it.
-/

namespace Barbarossa
open Barbarossa.Base Barbarossa.Protocol

/-- Where `OnMessage` goes on when a class has been asked for its message. -/
def OnMessagePoint.afterGet {α : Type} (point : OnMessagePoint) :
    Outcome Exception Undefined α → Except EndpointFault OnMessagePoint
  | .value _ => .ok point
  | .thrown e => .error (.uncaught e)
  | .crashed u => .error (.undefined u)

namespace WebsocketEndpoint

/-! ### The answer to a HELLO -/

/-- What `OnMessage` does about a message it expects. -/
def reaction (m : BasicMessage) : Except EndpointFault OnMessagePoint :=
  match (BasicMessage.getMessageType m).outcome with
  | .value t =>
    if t = .welcome then OnMessagePoint.afterGet .registering
      (BasicMessage.get WelcomeMessage.fromJson (BasicMessage.getMessageType m).state).outcome
    else if t = .abort then OnMessagePoint.afterGet .closing
      (BasicMessage.get AbortMessage.fromJson (BasicMessage.getMessageType m).state).outcome
    else .ok .closing
  | .thrown e => .error (.uncaught e)
  | .crashed f => f.elim

private theorem map_output {φ τ α : Type} (x : Exec Exception φ Empty τ α) (t : τ) :
    (x t).output.map (Empty.elim : Empty → EndpointEffect) = [] := by
  cases ho : (x t).output with
  | nil => rfl
  | cons e _ => exact e.elim

private theorem runOn_get_eq {α : Type} (m : BasicMessage) (fromJson : Decoder α)
    (point : OnMessagePoint) (s : WebsocketEndpoint) :
    (Exec.runOn EndpointFault.undefined Empty.elim m (BasicMessage.get fromJson) >>=
      fun _ => setMessage point : EndpointM PUnit) s =
      match (BasicMessage.get fromJson m).outcome with
      | .value _ => ⟨.value ⟨⟩, { s with message := point }, []⟩
      | .thrown e => ⟨.thrown e, s, []⟩
      | .crashed u => ⟨.crashed (.undefined u), s, []⟩ := by
  rw [Exec.bind_apply, Exec.runOn_apply, map_output]
  cases (BasicMessage.get fromJson m).outcome <;> rfl

private theorem noexcept_greeted (m : BasicMessage) (s : WebsocketEndpoint) :
    Exec.noexcept EndpointFault.uncaught (onMessageGreeted m) s =
      match reaction m with
      | .ok point => ⟨.value ⟨⟩, { s with message := point }, []⟩
      | .error f => ⟨.crashed f, s, []⟩ := by
  rw [Exec.noexcept_apply]
  unfold onMessageGreeted reaction
  rw [Exec.bind_apply, Exec.runOn_apply, map_output]
  cases ht : (BasicMessage.getMessageType m).outcome with
  | crashed f => exact f.elim
  | thrown e => rfl
  | value t =>
    simp only [Ran.andThen_value, Ran.after_nil, Exec.ite_apply, runOn_get_eq]
    by_cases hw : t = .welcome
    · simp only [if_pos hw]
      cases (BasicMessage.get WelcomeMessage.fromJson
        (BasicMessage.getMessageType m).state).outcome <;> rfl
    · by_cases ha : t = .abort
      · simp only [if_neg hw, if_pos ha]
        cases (BasicMessage.get AbortMessage.fromJson
          (BasicMessage.getMessageType m).state).outcome <;> rfl
      · simp only [if_neg hw, if_neg ha]
        rfl

/-- The step of `OnMessage` on the state reacts to the message when the HELLO is recorded. -/
theorem onMessageState_eq (m : BasicMessage) (s : WebsocketEndpoint) :
    onMessageState m s =
      if s.state = .greeted then
        match reaction m with
        | .ok point => ⟨.value ⟨⟩, { s with message := point }, []⟩
        | .error f => ⟨.crashed f, s, []⟩
      else ⟨.value ⟨⟩, { s with message := .idle }, []⟩ := by
  by_cases hs : s.state = .greeted
  · rw [if_pos hs, ← noexcept_greeted]
    simp [onMessageState, Exec.noexcept_apply, hs]
  · rw [if_neg hs]
    simp [onMessageState, Exec.noexcept_apply, hs, setMessage]

/-! ### What a step leaves -/

/-- The action is enabled. -/
def Enabled (s : WebsocketEndpoint) : EndpointAction → Prop
  | .handler _ => s.handler ≠ .left
  | .onOpen | .onFail => s.connection = .connecting ∧ s.message = .idle
  | .onClose | .onMessage _ => s.connection = .live ∧ s.message = .idle
  | .goOn => s.message ≠ .idle

/-- The shared state after an action. -/
def stateAfter (s : WebsocketEndpoint) : EndpointAction → ControlChannelStates
  | .handler _ => if s.handler = .recording then .greeted else s.state
  | .onOpen => .connected
  | .onClose | .onFail => .disconnected
  | .onMessage _ => s.state
  | .goOn => if s.message = .registering then .registered else s.state

/-- The connection after an action. -/
def connectionAfter (s : WebsocketEndpoint) : EndpointAction → Connection
  | .onOpen => .live
  | .onClose | .onFail => .ended
  | _ => s.connection

/-- Where the handler thread goes from the state it reads. -/
def handlerFrom (s : WebsocketEndpoint) : HandlerPoint :=
  match s.state with
  | .connected => .greeting
  | .registered => if s.timeout = 30 then .pinging else .checking
  | _ => .checking

/-- Where the handler thread is after an action. -/
def handlerAfter (s : WebsocketEndpoint) : EndpointAction → HandlerPoint
  | .handler _ =>
    match s.handler with
    | .reading => s.handlerFrom
    | .greeting => .recording
    | .recording | .pinging => .checking
    | .checking => if s.ec.isSome ∨ s.done then .left else .reading
    | .left => .left
  | _ => s.handler

/-- `done` after an action. -/
def doneAfter (s : WebsocketEndpoint) : EndpointAction → Bool
  | .handler _ => decide (s.handler = .reading ∧ s.state = .disconnected) || s.done
  | _ => s.done

/-- Where `OnMessage` is after an action. -/
def messageAfter (text : JsonText) (s : WebsocketEndpoint) : EndpointAction → OnMessagePoint
  | .onMessage payload =>
    match parse text payload with
    | .ok m => .parsed m
    | .error _ => s.message
  | .goOn =>
    match s.message with
    | .parsed m =>
      if s.state = .greeted then
        match reaction m with
        | .ok point => point
        | .error _ => .parsed m
      else .idle
    | _ => .idle
  | _ => s.message

/-- The fault of an action. -/
def faultAfter (text : JsonText) (s : WebsocketEndpoint) : EndpointAction → Option EndpointFault
  | .onMessage payload =>
    match parse text payload with
    | .ok _ => none
    | .error e => some (.uncaught e)
  | .goOn =>
    match s.message with
    | .parsed m =>
      if s.state = .greeted then
        match reaction m with
        | .ok _ => none
        | .error f => some f
      else none
    | _ => none
  | _ => none

/-- What an action hands to the websocket client. -/
def outputAfter (s : WebsocketEndpoint) : EndpointAction → List EndpointEffect
  | .handler _ =>
    match s.handler with
    | .greeting => [.send helloFrame]
    | .pinging => [.send (PingMessage.toJson {})]
    | _ => []
  | .goOn => if s.message = .closing then [.close 1001 []] else []
  | _ => []

/-- What is known of a program that an action runs. -/
structure ActFacts (text : JsonText) (s : WebsocketEndpoint) (a : EndpointAction)
    (r : Ran Exception EndpointFault EndpointEffect WebsocketEndpoint PUnit) : Prop where
  enabled : s.Enabled a
  state : r.state.state = s.stateAfter a
  connection : r.state.connection = s.connectionAfter a
  handler : r.state.handler = s.handlerAfter a
  done : r.state.done = s.doneAfter a
  message : r.state.message = s.messageAfter text a
  fault : r.outcome.fault? = s.faultAfter text a
  output : r.output = s.outputAfter a

private theorem handlerState_facts {text : JsonText} {s : WebsocketEndpoint} {ec : Option Bytes}
    (hh : s.handler = .reading) : ActFacts text s (.handler ec) (handlerState s) := by
  unfold handlerState
  cases hs : s.state with
  | registered =>
    by_cases ht : s.timeout = 30 <;> constructor <;>
      simp [Enabled, stateAfter, connectionAfter, handlerAfter, handlerFrom, doneAfter,
        messageAfter, faultAfter, outputAfter, hh, hs, ht, setHandler]
  | _ =>
    constructor <;> simp [Enabled, stateAfter, connectionAfter, handlerAfter, handlerFrom,
      doneAfter, messageAfter, faultAfter, outputAfter, hh, hs, setHandler]

private theorem handler_facts {text : JsonText} {s : WebsocketEndpoint} {ec : Option Bytes}
    {x : EndpointM PUnit} (hx : handlerAt ec s.handler = some x) :
    ActFacts text s (.handler ec) (x s) := by
  cases hh : s.handler with
  | reading =>
    rw [hh] at hx
    cases hx
    exact handlerState_facts hh
  | greeting =>
    rw [hh] at hx
    cases hx
    constructor <;> simp [Enabled, stateAfter, connectionAfter, handlerAfter, doneAfter,
      messageAfter, faultAfter, outputAfter, hh, handlerHello, send, setHandler]
  | recording =>
    rw [hh] at hx
    cases hx
    constructor <;> simp [Enabled, stateAfter, connectionAfter, handlerAfter, doneAfter,
      messageAfter, faultAfter, outputAfter, hh, handlerRecord, setState, setHandler]
  | pinging =>
    rw [hh] at hx
    cases hx
    constructor <;> simp [Enabled, stateAfter, connectionAfter, handlerAfter, doneAfter,
      messageAfter, faultAfter, outputAfter, hh, handlerPing, send, setHandler]
  | checking =>
    rw [hh] at hx
    cases hx
    by_cases hc : s.ec.isSome = true ∨ s.done = true <;> constructor <;>
      simp [Enabled, stateAfter, connectionAfter, handlerAfter, doneAfter, messageAfter,
        faultAfter, outputAfter, hh, handlerCheck, setHandler, hc]
  | left =>
    rw [hh] at hx
    cases hx

private theorem goOn_facts {text : JsonText} {s : WebsocketEndpoint} {x : EndpointM PUnit}
    (hx : onMessageAt s.message = some x) : ActFacts text s .goOn (x s) := by
  cases hm : s.message with
  | idle =>
    rw [hm] at hx
    cases hx
  | parsed m =>
    rw [hm] at hx
    cases hx
    rw [onMessageState_eq]
    by_cases hs : s.state = .greeted
    · cases hr : reaction m <;> constructor <;>
        simp [Enabled, stateAfter, connectionAfter, handlerAfter, doneAfter, messageAfter,
          faultAfter, outputAfter, hm, hs, hr]
    · constructor <;> simp [Enabled, stateAfter, connectionAfter, handlerAfter, doneAfter,
        messageAfter, faultAfter, outputAfter, hm, hs]
  | registering =>
    rw [hm] at hx
    cases hx
    constructor <;> simp [Enabled, stateAfter, connectionAfter, handlerAfter, doneAfter,
      messageAfter, faultAfter, outputAfter, hm, onMessageRegister, setState, setMessage]
  | closing =>
    rw [hm] at hx
    cases hx
    constructor <;> simp [Enabled, stateAfter, connectionAfter, handlerAfter, doneAfter,
      messageAfter, faultAfter, outputAfter, hm, onMessageClose, setMessage]

/-- What the program of an enabled action does. -/
theorem act_facts {text : JsonText} {s : WebsocketEndpoint} {a : EndpointAction}
    {x : EndpointM PUnit} (hx : act text s a = some x) : ActFacts text s a (x s) := by
  cases a with
  | handler ec => exact handler_facts hx
  | goOn => exact goOn_facts hx
  | onOpen =>
    obtain ⟨hg, rfl⟩ := guard_eq_some hx
    exact ⟨hg, rfl, rfl, rfl, rfl, rfl, rfl, rfl⟩
  | onClose =>
    obtain ⟨hg, rfl⟩ := guard_eq_some hx
    exact ⟨hg, rfl, rfl, rfl, rfl, rfl, rfl, rfl⟩
  | onFail =>
    obtain ⟨hg, rfl⟩ := guard_eq_some hx
    exact ⟨hg, rfl, rfl, rfl, rfl, rfl, rfl, rfl⟩
  | onMessage payload =>
    obtain ⟨hg, rfl⟩ := guard_eq_some hx
    cases hp : parse text payload <;> constructor <;>
      simp [Enabled, stateAfter, connectionAfter, handlerAfter, doneAfter, messageAfter,
        faultAfter, outputAfter, hg, hp, onMessage, setMessage, Exec.noexcept_apply]

variable {text : JsonText} {p p' : Process WebsocketEndpoint EndpointFault} {a : EndpointAction}
  {o : Outcome Exception EndpointFault PUnit × List EndpointEffect}

/-- What a step leaves. -/
structure StepFacts (text : JsonText) (p : Process WebsocketEndpoint EndpointFault)
    (a : EndpointAction) (o : Outcome Exception EndpointFault PUnit × List EndpointEffect)
    (p' : Process WebsocketEndpoint EndpointFault) : Prop where
  running : p.fault = none
  enabled : p.state.Enabled a
  state : p'.state.state = p.state.stateAfter a
  connection : p'.state.connection = p.state.connectionAfter a
  handler : p'.state.handler = p.state.handlerAfter a
  done : p'.state.done = p.state.doneAfter a
  message : p'.state.message = p.state.messageAfter text a
  fault : p'.fault = p.state.faultAfter text a
  output : o.2 = p.state.outputAfter a

/-- What is known of every step. -/
theorem step_facts (hs : step text p a = some (o, p')) : StepFacts text p a o p' := by
  obtain ⟨hf, x, hx, rfl, hstate, hfault⟩ := Process.step_eq_some hs
  have hact := act_facts hx
  constructor
  · exact hf
  · exact hact.enabled
  · exact (congrArg WebsocketEndpoint.state hstate).trans hact.state
  · exact (congrArg WebsocketEndpoint.connection hstate).trans hact.connection
  · exact (congrArg WebsocketEndpoint.handler hstate).trans hact.handler
  · exact (congrArg WebsocketEndpoint.done hstate).trans hact.done
  · exact (congrArg WebsocketEndpoint.message hstate).trans hact.message
  · exact hfault.trans hact.fault
  · exact hact.output

/-- A message is handled on a live connection only. -/
def Attended (s : WebsocketEndpoint) : Prop := s.message ≠ .idle → s.connection = .live

/-- A step keeps that messages are handled on a live connection. -/
theorem Attended.step (hi : p.state.Attended)
    (hs : WebsocketEndpoint.step text p a = some (o, p')) : p'.state.Attended := by
  have hf := step_facts hs
  have henabled := hf.enabled
  intro hm
  rw [hf.message] at hm
  rw [hf.connection]
  cases a with
  | handler ec => exact hi hm
  | goOn => exact hi henabled
  | onMessage payload => exact henabled.1
  | onOpen | onClose | onFail => exact absurd henabled.2 hm

/-- `OnMessage` can always go on while the process lives. -/
theorem exists_step_goOn (hf : p.fault = none) (hm : p.state.message ≠ .idle) :
    ∃ o p', step text p .goOn = some (o, p') := by
  cases hpoint : p.state.message with
  | idle => exact absurd hpoint hm
  | _ => exact ⟨_, _, Process.step_of_act hf (congrArg onMessageAt hpoint)⟩

/-- The handler thread can always go on until it has left. -/
theorem exists_step_handler (hf : p.fault = none) (hh : p.state.handler ≠ .left)
    (ec : Option Bytes) : ∃ o p', step text p (.handler ec) = some (o, p') := by
  cases hpoint : p.state.handler with
  | left => exact absurd hpoint hh
  | _ => exact ⟨_, _, Process.step_of_act hf (congrArg (handlerAt ec) hpoint)⟩

end WebsocketEndpoint
end Barbarossa
