import Barbarossa.Base.Promise
import Barbarossa.Message.Message

/-!
# The websocket transport

`include/barbarossa/websocket_transport.ipp`. The object's flags, its `connected_`
promise and its worker thread, with one program for each piece of code that runs
without waiting. A call that waits is split at the wait: the call is recorded, and a
second program is what runs once the wait is over.
-/

namespace Barbarossa
open Barbarossa.Base

/-- A transport object. -/
abbrev TransportId := Nat

/-- A transport handler object, that is, a session. -/
abbrev HandlerId := Nat

/-- The ways in which the process itself ends. -/
inductive Fault where
  /-- An exception left a thread function or a `noexcept` function. -/
  | uncaught (e : Exception)
  /-- A joinable `std::thread` was assigned to. -/
  | threadReassigned
  /-- A call through the empty `transport_` pointer. -/
  | nullTransport
  /-- A thread joined itself inside a `noexcept` function. -/
  | selfJoin
  /-- A thread was joined a second time inside a `noexcept` function. -/
  | doubleJoin
  /-- A joinable `std::thread` was destroyed. -/
  | joinableDestroyed
  deriving DecidableEq, Repr

/-- What other parties can observe. -/
inductive Effect where
  /-- A frame was handed to the websocket client, which answered with an error text or none. -/
  | send (transport : TransportId) (frame : List Json) (ec : Option Bytes)
  /-- A registered operation was invoked. -/
  | invoked (operation : Bytes) (arguments : Json)
  deriving DecidableEq

/-- The thread a call is made on: the transport's own worker or any other. -/
inductive Caller where
  | worker
  | other
  deriving DecidableEq, Repr

/-- A call of `Connect`, at one of its waits or finished. -/
inductive ConnectCall where
  | queued
  | waiting
  | finished (result : Except Exception PUnit)

/-- The lifetime of the object; `destroying` is the wait inside the destructor. -/
inductive Stage where
  | alive
  | destroying
  | destroyed
  deriving DecidableEq, Repr

/-- `include/barbarossa/websocket_transport.hpp:27`, as `StartClient` leaves it. -/
structure WebSocketTransport where
  opened : Bool := false
  done : Bool := false
  handler : Option HandlerId := none
  connected : Promise Exception PUnit := {}
  /-- The worker has not returned from `client_t::run`. -/
  running : Bool := true
  /-- `thread_->joinable()`. -/
  joinable : Bool := true
  connects : List ConnectCall := []
  /-- A call of `Disconnect` waits in `thread_->join()`. -/
  disconnecting : Bool := false
  /-- The worker is in `OnClientFail`, behind `connected_` and before `done_`. -/
  failing : Bool := false
  stage : Stage := .alive

/-- Code of the transport. -/
abbrev TransportM := Exec Exception Fault Effect WebSocketTransport

namespace WebSocketTransport

/-- The `connected_` member. -/
def connectedLens : Lens WebSocketTransport (Promise Exception PUnit) where
  get t := t.connected
  set p t := { t with connected := p }
  get_set _ _ := rfl
  set_get _ := rfl
  set_set _ _ _ := rfl

/-- `websocket_transport.ipp:84`. -/
def isConnected (t : WebSocketTransport) : Bool := t.opened && !t.done

/-- Append every field to a JSON array; `websocket_transport.ipp:90`. -/
def encodeFields (m : Message) : Except Exception (List Json) :=
  (List.range m.size).foldlM (fun j i => return j ++ [← m.fieldJson i]) []

/-- Hand the message to the websocket client of transport `self`, whose error code is `ec`;
`websocket_transport.ipp:89`. The text is the dump of the array, which may throw. -/
def sendMessage {σ : Type} (self : TransportId) (ec : Option Bytes) (m : Message) :
    Exec Exception Fault Effect σ PUnit := do
  let j ← Exec.ofExcept (encodeFields m)
  if ¬ Json.dumpable (.array j) then Exec.throw (.typeError 316) else do
    Exec.emit (.send self j ec)
    match ec with
    | some text => Exec.throw (.networkError text)
    | none => pure ⟨⟩

/-- `websocket_transport.ipp:206`. -/
def onClientOpen : TransportM PUnit := do
  Exec.modify fun t => { t with opened := true }
  Exec.zoom connectedLens
    (Promise.setResult (.futureError .promiseAlreadySatisfied) (.ok ⟨⟩))

/-- `websocket_transport.ipp:215`. -/
def onClientClose : TransportM PUnit := Exec.modify fun t => { t with done := true }

/-- `OnClientFail` up to the promise that wakes the caller of `Connect`, or as a whole where it sets
none; `websocket_transport.ipp:223`. -/
def onClientFail : TransportM PUnit := do
  if ¬ (← Exec.get).opened then do
    Exec.zoom connectedLens (Promise.setResult (.futureError .promiseAlreadySatisfied)
      (.error (.networkError ErrorMessages.transportConnectionFailed)))
    Exec.modify fun t => { t with failing := true }
  else Exec.modify fun t => { t with done := true }

/-- `OnClientFail` behind that promise; `websocket_transport.ipp:234`. -/
def onClientFailed : TransportM PUnit :=
  Exec.modify fun t => { t with done := true, failing := false }

/-- `Connect` up to the queued connection; `websocket_transport.ipp:44`. -/
def connect (ec : Option Bytes) : TransportM PUnit := do
  if (← Exec.get).opened then Exec.throw (.logicError ErrorMessages.transportAlreadyConnected)
  else match ec with
    | some text => Exec.throw (.systemError text)
    | none => Exec.modify fun t => { t with connects := t.connects ++ [.queued] }

/-- Record where call `i` of `Connect` is. -/
def setConnect (i : Nat) (c : ConnectCall) : TransportM PUnit :=
  Exec.modify fun t => { t with connects := t.connects.set i c }

/-- `Connect` takes the future; `websocket_transport.ipp:64`. -/
def connectFuture (i : Nat) : TransportM PUnit :=
  Exec.catching (fun _ => true)
    (do
      Exec.zoom connectedLens (Promise.getFuture (.futureError .futureAlreadyRetrieved))
      setConnect i .waiting)
    (fun e => setConnect i (.finished (.error e)))

/-- `thread_->join()` on the calling thread up to the wait; a join that throws does so inside a
`noexcept` function. -/
def joinThread (caller : Caller) : TransportM PUnit := do
  let t ← Exec.get
  if caller = .worker then Exec.crash .selfJoin
  else if t.disconnecting ∨ ¬ t.joinable then Exec.crash .doubleJoin
  else pure ⟨⟩

/-- `StopClient` up to the wait in `join`; `close` is what `client_.close` throws, if it does;
`websocket_transport.ipp:253`. -/
def stopClient (caller : Caller) (close : Option Exception) : TransportM PUnit :=
  Exec.noexcept Fault.uncaught do
    if (← Exec.get).done then pure ⟨⟩
    else match close with
      | some e => Exec.throw e
      | none => do
        joinThread caller
        Exec.modify fun t => { t with disconnecting := true }

/-- `StopClient` after the wait; `websocket_transport.ipp:273`. -/
def stopClientJoined : TransportM PUnit :=
  Exec.modify fun t => { t with joinable := false, disconnecting := false, opened := false }

/-- `websocket_transport.ipp:73`. -/
def disconnect (caller : Caller) (close : Option Exception) : TransportM PUnit := do
  if ¬ (← Exec.get).opened then
    Exec.throw (.logicError ErrorMessages.transportAlreadyDisconnected)
  else stopClient caller close

/-- The member `thread_` is destroyed with the object. -/
def releaseThread : TransportM PUnit := do
  if (← Exec.get).joinable then Exec.crash .joinableDestroyed
  else Exec.modify fun t => { t with stage := .destroyed }

/-- The destructor up to the wait in `join`; `websocket_transport.ipp:32`. -/
def destroy (caller : Caller) : TransportM PUnit := do
  if ¬ (← Exec.get).done then do
    joinThread caller
    Exec.modify fun t => { t with stage := .destroying }
  else releaseThread

/-- The destructor after the wait. -/
def destroyJoined : TransportM PUnit := do
  Exec.modify fun t => { t with joinable := false }
  releaseThread

/-- The first half of `Attach`, before the handler's `OnAttach`; `websocket_transport.ipp:106`. -/
def attach (handler : HandlerId) : TransportM PUnit := do
  match (← Exec.get).handler with
  | some _ => Exec.throw (.logicError ErrorMessages.transportHandlerAlreadyAttached)
  | none => Exec.modify fun t => { t with handler := some handler }

/-- `Detach` before the handler's `OnDetach`; `websocket_transport.ipp:119`. -/
def detach : TransportM HandlerId := do
  match (← Exec.get).handler with
  | some handler => pure handler
  | none => Exec.throw (.logicError ErrorMessages.transportHandlerAlreadyDetached)

/-- `Detach` after the handler's `OnDetach`; `websocket_transport.ipp:127`. -/
def detached : TransportM PUnit := Exec.modify fun t => { t with handler := none }

end WebSocketTransport

/-- What can happen to a transport, apart from attaching and sending. -/
inductive TransportAction where
  | onClientOpen
  | onClientClose
  | onClientFail
  /-- The rest of `OnClientFail`, behind the promise. -/
  | onClientFailed
  | connect (ec : Option Bytes)
  | connectFuture (i : Nat)
  | connectReady (i : Nat)
  | disconnect (caller : Caller) (close : Option Exception)
  | disconnectJoined
  | workerExit
  | destroy (caller : Caller)
  | destroyJoined

/-- The worker returns or makes a call. A callback may be taken by any thread that runs the
io_context. -/
def TransportAction.onWorker : TransportAction → Bool
  | .workerExit => true
  | .disconnect caller _ | .destroy caller => caller = .worker
  | .onClientOpen | .onClientClose | .onClientFail | .onClientFailed | .connect _
  | .connectFuture _ | .connectReady _ | .disconnectJoined | .destroyJoined => false

namespace WebSocketTransport

/-- The worker can take a callback: it has not returned and is in no other one. -/
def takesCallbacks (t : WebSocketTransport) : Bool := t.running && !t.failing

/-- A thread that can make a call: the worker only while it could take a callback. -/
def canCall (t : WebSocketTransport) : Caller → Bool
  | .worker => t.takesCallbacks
  | .other => true

/-- Every call of `Connect` is over. -/
def connectsFinished (t : WebSocketTransport) : Bool :=
  t.connects.all fun
    | .finished _ => true
    | _ => false

/-- The program of each action while it is enabled. Callbacks run on the worker, one at a time; a
wait is over when what it waits for has happened; nothing of the object runs after its destructor,
and the destructor runs when no call is in progress. -/
def act (t : WebSocketTransport) : TransportAction → Option (TransportM PUnit)
  | .onClientOpen => if t.takesCallbacks ∧ t.stage ≠ .destroyed then some onClientOpen else none
  | .onClientClose => if t.takesCallbacks ∧ t.stage ≠ .destroyed then some onClientClose else none
  | .onClientFail => if t.takesCallbacks ∧ t.stage ≠ .destroyed then some onClientFail else none
  | .onClientFailed => if t.failing then some onClientFailed else none
  | .connect ec => if t.stage = .alive then some (connect ec) else none
  | .connectFuture i =>
    match t.connects[i]? with
    | some .queued => some (connectFuture i)
    | _ => none
  | .connectReady i =>
    match t.connects[i]?, t.connected.result with
    | some .waiting, some r => some (setConnect i (.finished r))
    | _, _ => none
  | .disconnect caller close =>
    if t.stage = .alive ∧ t.canCall caller then some (disconnect caller close) else none
  | .disconnectJoined => if t.disconnecting ∧ ¬ t.running then some stopClientJoined else none
  | .workerExit =>
    if t.takesCallbacks then some (Exec.modify fun t => { t with running := false }) else none
  | .destroy caller =>
    if t.stage = .alive ∧ t.canCall caller ∧ ¬ t.disconnecting ∧ t.connectsFinished then
      some (destroy caller)
    else none
  | .destroyJoined => if t.stage = .destroying ∧ ¬ t.running then some destroyJoined else none

/-- The transport as a process of its own. -/
def step : Step (Process WebSocketTransport Fault) TransportAction
    (Outcome Exception Fault PUnit × List Effect) :=
  Process.step act

end WebSocketTransport
end Barbarossa
