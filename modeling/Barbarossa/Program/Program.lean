import Barbarossa.Base.Refinement
import Barbarossa.Client.Delivery
import Barbarossa.Client.Outcomes
import Barbarossa.Program.SayHello
import Barbarossa.Transport.Retry

/-!
# The program

`src/main.cpp`: one session over one transport, and four threads of control. The main thread makes
its calls one after another and tears everything down; the worker of the transport runs the
handlers of the `io_context`, that is, the callbacks, the dispatched lambdas and the signal handler,
until the context is stopped; the heartbeat thread loops. A handler that satisfied a promise for
which another thread waits goes on later, also when the context was stopped. An exception that
leaves `main`, a handler or a thread function ends the process.
-/

namespace Barbarossa
open Barbarossa.Base

/-- Where the main thread is. -/
inductive MainPoint where
  | registering
  /-- Before `signals.async_wait`. -/
  | wiring
  | attaching
  | connecting
  | connectFuture
  | connectWait
  | joining
  | joinFuture
  | joinWait
  | listening
  | listenWait
  /-- Behind the try block. -/
  | detaching
  /-- In `io_context.run()`. -/
  | running
  /-- Behind `return 0`: the session is released, and destroyed if nobody else holds it. -/
  | releasingSession
  /-- Before the destructor of the transport. -/
  | releasingTransport
  /-- In the destructor of the transport. -/
  | joiningWorker
  | exited
  deriving DecidableEq, Repr

/-- Where the signal handler is. -/
inductive SignalPoint where
  /-- No signal was handled yet. -/
  | awaited
  /-- A thread is in `Leave` or behind it, before `io_context.stop()`. -/
  | leaving (caller : Caller)
  | handled
  deriving DecidableEq, Repr

/-- The ways in which the program is terminated. -/
inductive ProgramFault where
  | client (f : Fault)
  | uncaught (e : Exception)
  /-- `shared_from_this()` threw in the heartbeat thread of a session that is being destroyed. -/
  | badWeakPtr
  deriving DecidableEq, Repr

/-- The objects of `main` and what its threads have reached; `realm` is `argv[2]`. -/
structure Program where
  realm : Bytes
  client : Client := {}
  point : MainPoint := .registering
  signal : SignalPoint := .awaited
  /-- `io_context.stop()` was called. -/
  stopped : Bool := false
  /-- The thread in the lambda of a PING that could not be sent, behind `pong_received_`. Up to its
  end the lambda holds the session. -/
  pinging : Option Caller := none
  /-- The thread in `OnClientFail`, behind `connected_`. -/
  failing : Option Caller := none

/-- Code of the program. -/
abbrev ProgramM := Exec Exception ProgramFault Effect Program

/-- What the main thread does at a point. -/
inductive Statement where
  /-- A call up to its next wait. -/
  | call (a : Action) (next : MainPoint)
  /-- A call of the try block is over, with an exception or without. -/
  | returned (failure : Option Exception) (next : MainPoint)
  | goOn (next : MainPoint)
  | blocked

/-- What can happen to the program: a step of the main thread, a handler, the end of the worker, or
a step of the heartbeat thread. -/
inductive ProgramAction where
  /-- `ec` is the error of `get_connection`, if it has one. -/
  | main (ec : Option Bytes)
  /-- The signal handler up to the promise in `Leave`. -/
  | signal (caller : Caller)
  /-- It calls `Disconnect`; `close` is what closing the connection throws, if it does. -/
  | signalDisconnect (close : Option Exception)
  /-- It finds the wait of `Disconnect` over. -/
  | signalJoined
  | signalStop
  /-- A lambda, up to the promise that wakes the heartbeat loop if it is that of a failed PING. -/
  | runDispatched (caller : Caller) (ec : Option Bytes)
  /-- That lambda behind the promise. -/
  | pingFailed
  /-- That lambda is over and releases the session. -/
  | pingOver
  | onClientOpen
  | onClientClose
  /-- `OnClientFail`, up to the promise that wakes the main thread if it sets one. -/
  | onClientFail (caller : Caller)
  /-- `OnClientFail` behind the promise. -/
  | onClientFailed
  | onClientMessage (opcode : Opcode) (payload : Bytes) (ec : Option Bytes)
  | workerExit
  | hearbeat
  | hearbeatWoken

/-- The exception that a call ended with. -/
def failure? {α : Type} : Except Exception α → Option Exception
  | .ok _ => none
  | .error e => some e

/-- How a call of `Join` ended. -/
def JoinCall.result? : JoinCall → Option (Except Exception UInt32)
  | .finished r => some r
  | _ => none

/-- How a call of `Listen` ended. -/
def ListenCall.result? : ListenCall → Option (Except Exception PUnit)
  | .finished r => some r
  | _ => none

namespace MainPoint

/-- The calls of the try block; `main.cpp:100`. -/
def inTry : MainPoint → Bool
  | .connecting | .connectFuture | .connectWait | .joining | .joinFuture | .joinWait
  | .listening | .listenWait => true
  | _ => false

/-- `io_context.run()` has returned. -/
def behindRun : MainPoint → Bool
  | .releasingSession | .releasingTransport | .joiningWorker | .exited => true
  | _ => false

/-- The main thread does not hold the session any more. -/
def released : MainPoint → Bool
  | .releasingTransport | .joiningWorker | .exited => true
  | _ => false

/-- The signal handler waits for its signal: from `async_wait` to the end of the scope. -/
def wired : MainPoint → Bool
  | .registering | .wiring => false
  | point => !point.behindRun

end MainPoint

namespace Program

/-- The transport of `main`. -/
def transport : TransportId := 0

/-- The objects of the program. -/
def clientLens : Lens Program Client where
  get p := p.client
  set c p := { p with client := c }
  get_set _ _ := rfl
  set_get _ := rfl
  set_set _ _ _ := rfl

/-- Run code of the objects. -/
def onClient (x : ClientM PUnit) : ProgramM PUnit :=
  Exec.zoom clientLens (Exec.mapFault .client x)

/-- The main thread goes on at a point. -/
def goto (point : MainPoint) : ProgramM PUnit := Exec.modify fun p => { p with point := point }

/-- `io_context.stop()`. -/
def stop : ProgramM PUnit := Exec.modify fun p => { p with stopped := true }

/-- Code that no handler surrounds. -/
def outermost (x : ProgramM PUnit) : ProgramM PUnit := Exec.noexcept .uncaught x

/-- What the handlers of `main` catch: an `AbortError`, a `TimeoutError` or any other
`NetworkError`; `main.cpp:111`. -/
def handled : Exception → Bool
  | .abortError _ => true
  | e => e.isNetworkError

/-- The try block of `main`, whose handlers stop the context. -/
def tryBlock (x : ProgramM PUnit) : ProgramM PUnit :=
  outermost (Exec.catching handled x fun _ => do
    stop
    goto .detaching)

/-- Code of the main thread at a point. -/
def scope (point : MainPoint) (x : ProgramM PUnit) : ProgramM PUnit :=
  if point.inTry then tryBlock x else outermost x

/-! ### The main thread -/

/-- The calls of `Connect`, `Join` and `Listen` that the main thread makes are the first ones. -/
def mainCall : Nat := 0

/-- A thread is in a handler that has satisfied a promise and is not yet over. -/
def busy (p : Program) (caller : Caller) : Bool :=
  decide (p.signal = .leaving caller) || decide (p.pinging = some caller) ||
    decide (p.failing = some caller)

/-- The destructor of the session waits for the heartbeat thread. -/
def hearbeatOver (p : Program) : Bool :=
  match p.client.session.hearbeatThread with
  | none | some .ended => true
  | some _ => false

/-- `main.cpp:27`. A call that waits is over when its result is recorded; a timed wait runs out
when there is none. -/
def statement (p : Program) (ec : Option Bytes) : Statement :=
  match p.point with
  | .registering => .call (.registerOperation sayHelloName sayHello) .wiring
  | .wiring => .goOn .attaching
  | .attaching => .call (.attach transport) .connecting
  | .connecting => .call (.transport transport (.connect ec)) .connectFuture
  | .connectFuture => .call (.transport transport (.connectFuture mainCall)) .connectWait
  | .connectWait =>
    match ((p.client.transports transport).connects[mainCall]?).bind ConnectCall.result? with
    | some r => .returned (failure? r) .joining
    | none => .call (.transport transport (.connectReady mainCall)) .connectWait
  | .joining => .call (.join p.realm) .joinFuture
  | .joinFuture => .call (.joinFuture mainCall) .joinWait
  | .joinWait =>
    match (p.client.joins[mainCall]?).bind JoinCall.result? with
    | some r => .returned (failure? r) .listening
    | none =>
      .call (if p.client.session.joined.satisfied then .joinReady mainCall
        else .joinTimeout mainCall) .joinWait
  | .listening => .call .listen .listenWait
  | .listenWait =>
    match (p.client.listens[mainCall]?).bind ListenCall.result? with
    | some r => .returned (failure? r) .detaching
    | none => .call (.listenReady mainCall) .listenWait
  | .detaching => .call (.detach transport) .running
  | .running =>
    if p.stopped ∧ ¬ p.busy .other then .goOn .releasingSession else .blocked
  | .releasingSession =>
    if p.pinging.isSome ∨ p.hearbeatOver then .goOn .releasingTransport else .blocked
  | .releasingTransport => .call (.transport transport (.destroy .other)) .joiningWorker
  | .joiningWorker =>
    if (p.client.transports transport).stage = .destroyed then .goOn .exited
    else .call (.transport transport .destroyJoined) .joiningWorker
  | .exited => .blocked

/-- The step of the main thread. -/
def mainStep (p : Program) (ec : Option Bytes) : Option (ProgramM PUnit) :=
  match p.statement ec with
  | .call a next => (p.client.act a).map fun x => scope p.point do
      onClient x
      goto next
  | .returned none next => some (goto next)
  | .returned (some e) _ => some (tryBlock (Exec.throw e))
  | .goOn next => some (goto next)
  | .blocked => none

/-! ### The other threads -/

/-- A thread that takes handlers: the worker, and the main thread in `io_context.run()`, until the
context is stopped and while it is in no handler. -/
def runsHandlers (p : Program) (caller : Caller) : Bool :=
  !p.stopped && !p.busy caller &&
    match caller with
    | .worker => (p.client.transports transport).running
    | .other => decide (p.point = .running)

/-- Some thread takes handlers. -/
def takesHandlers (p : Program) : Bool := p.runsHandlers .worker || p.runsHandlers .other

/-- A thread function or a handler that performs an action of the client. -/
def perform (p : Program) (a : Action) : Option (ProgramM PUnit) :=
  (p.client.act a).map fun x => outermost (onClient x)

/-- The same, and then what is recorded of the thread. -/
def performThen (p : Program) (a : Action) (k : Program → Program) : Option (ProgramM PUnit) :=
  (p.client.act a).map fun x => outermost do
    onClient x
    Exec.modify k

/-- A handler that performs an action of the client. -/
def handler (p : Program) (a : Action) : Option (ProgramM PUnit) :=
  if p.takesHandlers then p.perform a else none

/-- The thread of a handler as a caller of `Leave`. -/
def workerOf : Caller → Option TransportId
  | .worker => some transport
  | .other => none

/-- The signal handler up to the promise in `Leave`; `main.cpp:88`. -/
def signalHandler (p : Program) (caller : Caller) : Option (ProgramM PUnit) :=
  if p.runsHandlers caller ∧ p.point.wired ∧ p.signal = .awaited then
    p.performThen (.leave (workerOf caller)) fun q => { q with signal := .leaving caller }
  else none

/-- The signal handler goes on in `Leave`. -/
def signalGoesOn (p : Program) (a : Action) : Option (ProgramM PUnit) :=
  match p.signal with
  | .leaving _ => p.perform a
  | _ => none

/-- The end of the signal handler; `main.cpp:91`. -/
def signalStop (p : Program) : Option (ProgramM PUnit) :=
  match p.signal with
  | .leaving _ =>
    if p.client.leaves = some .finished then
      some do
        stop
        Exec.modify fun p => { p with signal := .handled }
    else none
  | _ => none

/-- The lambda of a PING whose send failed goes on behind `pong_received_`, on the thread that ran
it. -/
def recordPing (caller : Caller) (p : Program) : Program :=
  { p with pinging := if p.client.failure.isSome then some caller else none }

/-- A lambda; `session.ipp:71`, `session.ipp:300`. -/
def runDispatched (p : Program) (caller : Caller) (ec : Option Bytes) : Option (ProgramM PUnit) :=
  if p.runsHandlers caller ∧ p.pinging = none then
    p.performThen (.runDispatched ec) (recordPing caller)
  else none

/-- The lambda of a failed PING behind `pong_received_`; `session.ipp:311`. -/
def pingFailed (p : Program) : Option (ProgramM PUnit) :=
  if p.pinging.isSome ∧ p.client.failure.isSome then p.perform (.runDispatched none) else none

/-- The lambda of a failed PING releases the session, whose destructor it runs when the main thread
has released it before. -/
def pingOver (p : Program) : Option (ProgramM PUnit) :=
  if p.pinging.isSome ∧ p.client.failure.isNone ∧ (p.point.released → p.hearbeatOver) then
    some (Exec.modify fun p => { p with pinging := none })
  else none

/-- `OnClientFail` goes on behind `connected_`, on the thread that runs it. -/
def recordFail (caller : Caller) (p : Program) : Program :=
  { p with failing := if (p.client.transports transport).failing then some caller else none }

/-- The fail callback; `websocket_transport.ipp:223`. -/
def onClientFail (p : Program) (caller : Caller) : Option (ProgramM PUnit) :=
  if p.runsHandlers caller then
    p.performThen (.transport transport .onClientFail) (recordFail caller)
  else none

/-- The fail callback behind `connected_`; `websocket_transport.ipp:234`. -/
def onClientFailed (p : Program) : Option (ProgramM PUnit) :=
  if p.failing.isSome then
    p.performThen (.transport transport .onClientFailed) fun p => { p with failing := none }
  else none

/-- The worker returns when the context is stopped and no handler is left on it. -/
def workerExit (p : Program) : Option (ProgramM PUnit) :=
  if p.stopped ∧ ¬ p.busy .worker then p.perform (.transport transport .workerExit) else none

/-- Somebody holds the session: the main thread up to its end, and the lambda of a failed PING. -/
def owned (p : Program) : Bool :=
  match p.point with
  | .releasingSession => p.pinging.isSome
  | point => !point.released || p.client.failure.isSome

/-- The heartbeat thread. A session in its destructor has no owner any more, so the loop gets no
further than to its next PING; `session.ipp:299`. -/
def hearbeat (p : Program) : Option (ProgramM PUnit) :=
  if p.owned = false ∧ p.client.session.hearbeatThread = some .idle then
    some (Exec.crash .badWeakPtr)
  else p.perform .hearbeat

/-- The program of each action while it is enabled. -/
def act (text : JsonText) (p : Program) : ProgramAction → Option (ProgramM PUnit)
  | .main ec => p.mainStep ec
  | .signal caller => p.signalHandler caller
  | .signalDisconnect close => p.signalGoesOn (.leaveDisconnect close)
  | .signalJoined => p.signalGoesOn .leaveJoined
  | .signalStop => p.signalStop
  | .runDispatched caller ec => p.runDispatched caller ec
  | .pingFailed => p.pingFailed
  | .pingOver => p.pingOver
  | .onClientOpen => p.handler (.transport transport .onClientOpen)
  | .onClientClose => p.handler (.transport transport .onClientClose)
  | .onClientFail caller => p.onClientFail caller
  | .onClientFailed => p.onClientFailed
  | .onClientMessage opcode payload ec =>
    if p.takesHandlers then
      some (outermost (onClient (Client.onClientMessage text transport opcode payload ec)))
    else none
  | .workerExit => p.workerExit
  | .hearbeat => p.hearbeat
  | .hearbeatWoken => p.perform .hearbeatWoken

/-- The program as a process. -/
def step (text : JsonText) : Step (Process Program ProgramFault) ProgramAction
    (Outcome Exception ProgramFault PUnit × List Effect) :=
  Process.step (act text)

/-- The recorded steps of a program. -/
abbrev ProgramHistory :=
  History (Process Program ProgramFault) ProgramAction
    (Outcome Exception ProgramFault PUnit × List Effect)

/-- A run of `main` with the realm from its arguments. -/
abbrev ProgramRun (text : JsonText) (realm : Bytes) (h : ProgramHistory)
    (p : Process Program ProgramFault) : Prop :=
  Run (step text) { state := { realm := realm } } h p

end Program
end Barbarossa
