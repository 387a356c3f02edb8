import Barbarossa.Session.Received

/-!
# The client

One session with its callers, its heartbeat thread, the io thread and any number of
transports, as `src/main.cpp` puts them together. Every action is one atomic piece of
one thread: a call, a dispatched lambda or a callback up to its next wait or to the promise
that wakes another thread, a message, or one step of the heartbeat loop. Waits have no
clock: a timed wait may run out whenever what it waits for has not happened.
-/

namespace Barbarossa
open Barbarossa.Base

/-- A call of `Join`, at one of its waits or finished. -/
inductive JoinCall where
  /-- The lambda is dispatched; the future is not yet taken. -/
  | dispatched
  | waiting
  | finished (result : Except Exception UInt32)
  deriving DecidableEq

/-- A call of `Listen`, waiting or finished. -/
inductive ListenCall where
  | waiting
  | finished (result : Except Exception PUnit)
  deriving DecidableEq

/-- A call of `Leave` that satisfied `leaved_`. -/
inductive LeaveCall where
  /-- Before the call of `Disconnect`, on the worker of a transport or on another thread. -/
  | leaving (worker : Option TransportId)
  /-- In the wait of `Disconnect`. -/
  | disconnecting (transport : TransportId)
  | finished
  deriving DecidableEq

/-- The session, the transports, and the calls that other threads make. Only one call of `Leave`
gets beyond its promise. -/
structure Client where
  session : Session := {}
  transports : TransportId → WebSocketTransport := fun _ => {}
  joins : List JoinCall := []
  listens : List ListenCall := []
  leaves : Option LeaveCall := none

/-- Code of the client. -/
abbrev ClientM := Exec Exception Fault Effect Client

/-- The atomic steps of all threads. -/
inductive Action where
  /-- `Join` up to the dispatched lambda. -/
  | join (realm : Bytes)
  /-- Call `i` of `Join` takes the future. -/
  | joinFuture (i : Nat)
  /-- Call `i` of `Join` finds its future ready. -/
  | joinReady (i : Nat)
  /-- Call `i` of `Join` has waited 16 seconds. -/
  | joinTimeout (i : Nat)
  /-- `Leave` up to its promise, on the worker of a transport or on another thread. -/
  | leave (worker : Option TransportId)
  /-- `Leave` calls `Disconnect`; `close` is what closing the connection throws, if it does. -/
  | leaveDisconnect (close : Option Exception)
  /-- `Leave` finds the wait of `Disconnect` over. -/
  | leaveJoined
  | listen
  /-- Call `i` of `Listen` finds its future ready. -/
  | listenReady (i : Nat)
  | registerOperation (operation : Bytes) (fn : Operation)
  /-- The io thread runs the oldest dispatched lambda; `ec` is the websocket client's answer. -/
  | runDispatched (ec : Option Bytes)
  /-- A transport delivers a message to its handler. -/
  | message (transport : TransportId) (message : Message) (ec : Option Bytes)
  | attach (transport : TransportId)
  | detach (transport : TransportId)
  | transport (transport : TransportId) (action : TransportAction)
  /-- The heartbeat loop goes to its next point; a wait it stands in has timed out. -/
  | hearbeat
  /-- The idle wait of the heartbeat loop ends without a timeout. -/
  | hearbeatWoken

namespace Client

/-- The session as a transport handler. -/
def self : HandlerId := 0

/-- The session of the client. -/
def sessionLens : Lens Client Session where
  get c := c.session
  set s c := { c with session := s }
  get_set _ _ := rfl
  set_get _ := rfl
  set_set _ _ _ := rfl

/-- One transport of the client. -/
def transportLens (t : TransportId) : Lens Client WebSocketTransport where
  get c := c.transports t
  set x c := { c with transports := fun u => if u = t then x else c.transports u }
  get_set _ _ := by simp
  set_get c := by
    have h : (fun u => if u = t then c.transports t else c.transports u) = c.transports := by
      funext u
      split
      · next h => rw [h]
      · rfl
    rw [h]
  set_set c a b := by
    have h : (fun u => if u = t then b else if u = t then a else c.transports u) =
        fun u => if u = t then b else c.transports u := by
      funext u
      split <;> rfl
    simp only [h]

/-- What a step sees of the transports. -/
def net (c : Client) (ec : Option Bytes) : Net where
  isConnected t := (c.transports t).isConnected
  ec := ec

/-- Run code of the session. -/
def onSession {α : Type} (x : SessionM α) : ClientM α := Exec.zoom sessionLens x

/-- Run code of one transport. -/
def onTransport {α : Type} (t : TransportId) (x : TransportM α) : ClientM α :=
  Exec.zoom (transportLens t) x

/-- Record where call `i` of `Join` is. -/
def setJoin (i : Nat) (j : JoinCall) : ClientM PUnit :=
  Exec.modify fun c => { c with joins := c.joins.set i j }

/-- Record where call `i` of `Listen` is. -/
def setListen (i : Nat) (l : ListenCall) : ClientM PUnit :=
  Exec.modify fun c => { c with listens := c.listens.set i l }

/-- `Join`; `session.ipp:49`. -/
def join (realm : Bytes) : ClientM PUnit := do
  onSession (Session.join realm)
  Exec.modify fun c => { c with joins := c.joins ++ [.dispatched] }

/-- `Join` takes the future; `session.ipp:87`. -/
def joinFuture (i : Nat) : ClientM PUnit :=
  Exec.catching (fun _ => true)
    (do
      onSession (Session.getFuture Session.joinedLens)
      setJoin i .waiting)
    (fun e => setJoin i (.finished (.error e)))

/-- Record where the call of `Leave` is. -/
def setLeave (l : LeaveCall) : ClientM PUnit := Exec.modify fun c => { c with leaves := some l }

/-- `Leave` up to its promise; `session.ipp:98`. -/
def leave (worker : Option TransportId) : ClientM PUnit := do
  onSession Session.leave
  setLeave (.leaving worker)

/-- The thread of a worker, or another one, as `Disconnect` on transport `t` sees it. -/
def callerOn (worker : Option TransportId) (t : TransportId) : Caller :=
  if worker = some t then .worker else .other

/-- `Leave` behind its promise, up to the wait in `Disconnect`; `session.ipp:104`. The call is over
where `Disconnect` throws, and where it finds `done_` set and does not wait. -/
def leaveDisconnect (worker : Option TransportId) (close : Option Exception) : ClientM PUnit := do
  setLeave .finished
  let t ← onSession Session.leaveTransport
  let done := ((← Exec.get).transports t).done
  onTransport t (WebSocketTransport.disconnect (callerOn worker t) close)
  if done then pure ⟨⟩ else setLeave (.disconnecting t)

/-- `Listen` up to its wait; `session.ipp:119`. -/
def listen : ClientM PUnit :=
  Exec.catching (fun _ => true)
    (do
      onSession (Session.getFuture Session.leavedLens)
      Exec.modify fun c => { c with listens := c.listens ++ [.waiting] })
    (fun e => Exec.modify fun c => { c with listens := c.listens ++ [.finished (.error e)] })

/-- The io thread takes the oldest lambda off the queue and runs it. -/
def runDispatched (net : Net) (d : Dispatched) (rest : List Dispatched) : SessionM PUnit := do
  Exec.modify fun s => { s with ioContext := rest }
  match d with
  | .hello m => Session.joinDispatched net m
  | .ping m => Session.pingDispatched net m
  | .pingFailed e => Session.pingFailed e

/-- `Attach` of the session to a transport; `websocket_transport.ipp:106`. -/
def attach (t : TransportId) : ClientM PUnit := do
  onTransport t (WebSocketTransport.attach self)
  onSession (Session.onAttach t)

/-- `Detach` of a transport; `websocket_transport.ipp:119`. -/
def detach (t : TransportId) : ClientM PUnit := do
  let _ ← onTransport t WebSocketTransport.detach
  onSession Session.onDetach
  onTransport t WebSocketTransport.detached

/-- The worker of transport `t` is in `Leave`. -/
def leavesOn (c : Client) (t : TransportId) : Bool := c.leaves = some (.leaving (some t))

/-- A worker can call `Leave` while it could take a callback, and any other thread always. -/
def canLeave (c : Client) : Option TransportId → Bool
  | some t => (c.transports t).takesCallbacks && !c.leavesOn t
  | none => true

/-- A transport is released only when the session does not hold it. -/
def canRelease (c : Client) (t : TransportId) : TransportAction → Bool
  | .destroy _ => c.session.transport ≠ some t
  | _ => true

/-- A worker that is in `Leave` neither returns nor makes another call. -/
def workerFree (c : Client) (t : TransportId) (a : TransportAction) : Bool :=
  !(a.onWorker && c.leavesOn t)

/-- The program of each action while it is enabled. -/
def act (c : Client) : Action → Option (ClientM PUnit)
  | .join realm => some (join realm)
  | .joinFuture i =>
    match c.joins[i]? with
    | some .dispatched => some (joinFuture i)
    | _ => none
  | .joinReady i =>
    match c.joins[i]?, c.session.joined.result with
    | some .waiting, some r => some (setJoin i (.finished r))
    | _, _ => none
  | .joinTimeout i =>
    match c.joins[i]?, c.session.joined.result with
    | some .waiting, none => some (setJoin i (.finished (.error .timeoutError)))
    | _, _ => none
  | .leave worker => if c.canLeave worker then some (leave worker) else none
  | .leaveDisconnect close =>
    match c.leaves with
    | some (.leaving worker) => some (leaveDisconnect worker close)
    | _ => none
  | .leaveJoined =>
    match c.leaves with
    | some (.disconnecting t) =>
      if (c.transports t).disconnecting then none else some (setLeave .finished)
    | _ => none
  | .listen => some listen
  | .listenReady i =>
    match c.listens[i]?, c.session.leaved.result with
    | some .waiting, some r => some (setListen i (.finished (r.map fun _ => ⟨⟩)))
    | _, _ => none
  | .registerOperation operation fn => some (onSession (Session.registerOperation operation fn))
  | .runDispatched ec =>
    match c.session.ioContext with
    | [] => none
    | d :: rest => some (onSession (runDispatched (c.net ec) d rest))
  | .message t m ec =>
    if (c.transports t).handler = some self then some (onSession (Session.onMessage (c.net ec) m))
    else none
  | .attach t => if (c.transports t).stage = .alive then some (attach t) else none
  | .detach t => some (detach t)
  | .transport t a =>
    if c.canRelease t a ∧ c.workerFree t a then ((c.transports t).act a).map (onTransport t)
    else none
  | .hearbeat =>
    (Session.hearbeatController c.session).map fun x => onSession (Exec.noexcept Fault.uncaught x)
  | .hearbeatWoken => (Session.hearbeatWoken c.session).map onSession

/-- One step of the client: how the code of the step ended and what it gave out. -/
def step : Step (Process Client Fault) Action (Outcome Exception Fault PUnit × List Effect) :=
  Process.step act

/-- The client before anything happened. -/
def init : Process Client Fault := { state := {} }

end Client

/-- One recorded step of a client. -/
abbrev ClientEntry :=
  Entry (Process Client Fault) Action (Outcome Exception Fault PUnit × List Effect)

/-- The recorded steps of a client. -/
abbrev ClientHistory :=
  History (Process Client Fault) Action (Outcome Exception Fault PUnit × List Effect)

/-- A run of the client from its start. -/
abbrev ClientRun (h : ClientHistory) (p : Process Client Fault) : Prop :=
  Run Client.step Client.init h p

end Barbarossa
