import Barbarossa.Transport.WebSocketTransport

/-!
# The session

`include/barbarossa/session.ipp`: the members of `Session` and one program for each of
its functions, in the order of the source. `Join`, `Listen` and the heartbeat loop wait,
so they are split at their waits. `Leave` and the lambda of the heartbeat loop go on after
they satisfied a promise for which another thread waits, so they are split there. A lambda
given to `asio::dispatch` is queued in the session's io_context and runs later on the io
thread.
-/

namespace Barbarossa
open Barbarossa.Base

/-- `include/barbarossa/session_state.hpp:11`. -/
inductive SessionState where
  | closed
  | establishing
  | established
  | closing
  deriving DecidableEq, Repr

/-- A registered operation: it returns a value or throws. -/
abbrev Operation := Json → Except Exception Json

/-- The two lambdas the session dispatches, with the message each one captures. -/
inductive Dispatched where
  | hello (message : Message)
  | ping (message : Message)
  /-- The rest of the second one, behind `pong_received_`, when its send failed with `e`. -/
  | pingFailed (e : Exception)
  deriving DecidableEq

/-- Where the heartbeat thread stands in `HearbeatController`. -/
inductive HearbeatPoint where
  /-- In `stop_signal_.wait_for`. -/
  | idle
  /-- The PING is dispatched; the future is not yet taken. -/
  | dispatched
  /-- In `pong_received_future.wait_for`. -/
  | waiting
  /-- That wait timed out; the promise is not yet set to false. -/
  | expired
  /-- Before `pong_received_future.get`. -/
  | judging
  /-- Before the promise is replaced. -/
  | resetting
  /-- The loop was left. -/
  | ended
  deriving DecidableEq, Repr

/-- `include/barbarossa/session.hpp:32`. `hearbeatThread` is none while `hearbeat_thread_` is not
joinable. -/
structure Session where
  ioContext : List Dispatched := []
  state : SessionState := .closed
  sessionId : UInt32 := 0
  transport : Option TransportId := none
  joined : Promise Exception UInt32 := {}
  leaved : Promise Exception Bool := {}
  hearbeatThread : Option HearbeatPoint := none
  pongReceived : Promise Exception Bool := {}
  operations : Bytes → Option Operation := fun _ => none

/-- What one step sees of the transports: whether each is connected, and what the websocket
client answers to a send. -/
structure Net where
  isConnected : TransportId → Bool
  ec : Option Bytes

/-- Code of the session. -/
abbrev SessionM := Exec Exception Fault Effect Session

namespace Session

/-- The `joined_` member. -/
def joinedLens : Lens Session (Promise Exception UInt32) where
  get s := s.joined
  set p s := { s with joined := p }
  get_set _ _ := rfl
  set_get _ := rfl
  set_set _ _ _ := rfl

/-- The `leaved_` member. -/
def leavedLens : Lens Session (Promise Exception Bool) where
  get s := s.leaved
  set p s := { s with leaved := p }
  get_set _ _ := rfl
  set_get _ := rfl
  set_set _ _ _ := rfl

/-- The `pong_received_` member. -/
def pongReceivedLens : Lens Session (Promise Exception Bool) where
  get s := s.pongReceived
  set p s := { s with pongReceived := p }
  get_set _ _ := rfl
  set_get _ := rfl
  set_set _ _ _ := rfl

/-- Set a promise member, or throw `std::future_error` when it is already satisfied. -/
def setPromise {α : Type} (l : Lens Session (Promise Exception α)) (r : Except Exception α) :
    SessionM PUnit :=
  Exec.zoom l (Promise.setResult (.futureError .promiseAlreadySatisfied) r)

/-- Take the future of a promise member. -/
def getFuture {α : Type} (l : Lens Session (Promise Exception α)) : SessionM PUnit :=
  Exec.zoom l (Promise.getFuture (.futureError .futureAlreadyRetrieved))

/-- `asio::dispatch(io_context_, ..)` from a thread that does not run the io_context. -/
def dispatch (d : Dispatched) : SessionM PUnit :=
  Exec.modify fun s => { s with ioContext := s.ioContext ++ [d] }

/-- `session.ipp:182`. -/
def ensureState (state : SessionState) : SessionM PUnit :=
  Exec.modify fun s => { s with state := state }

/-- `session.ipp:188`. -/
def currentState : SessionM SessionState := do return (← Exec.get).state

/-- `session.ipp:193`. -/
def sendMessage (net : Net) (message : Message) (sessionEstablished : Bool) : SessionM PUnit := do
  let s ← Exec.get
  match s.transport with
  | none => Exec.throw .noTransportError
  | some t =>
    if ¬ net.isConnected t then Exec.throw .noTransportError
    else if sessionEstablished ∧ s.sessionId = 0 then Exec.throw .noSessionError
    else WebSocketTransport.sendMessage t net.ec message

/-- The HELLO of `Join`; `session.ipp:52`. -/
def helloMessage (realm : Bytes) : Except Exception Message := do
  let m ← (Message.ofSize 2).setField 0 (.integer MessageType.hello.toInt)
  m.setField 1 (.string realm)

/-- `Join` up to the dispatched lambda; `session.ipp:49`. -/
def join (realm : Bytes) : SessionM PUnit := do
  let hello ← Exec.ofExcept (helloMessage realm)
  ensureState .establishing
  dispatch (.hello hello)

/-- The lambda of `Join`; `session.ipp:71`. -/
def joinDispatched (net : Net) (hello : Message) : SessionM PUnit := do
  if (← Exec.get).sessionId ≠ 0 then
    setPromise joinedLens (.error (.logicError ErrorMessages.sessionAlreadyJoined))
  else
    Exec.catching Exception.isException (sendMessage net hello false)
      (fun e => setPromise joinedLens (.error e.copyException))

/-- `Leave` up to the promise that wakes the caller of `Listen`; `session.ipp:98`. -/
def leave : SessionM PUnit := setPromise leavedLens (.ok true)

/-- `Leave` behind that promise: the call of `Disconnect` needs a transport; `session.ipp:104`. -/
def leaveTransport : SessionM TransportId := do
  match (← Exec.get).transport with
  | some t => pure t
  | none => Exec.crash .nullTransport

/-- `session.ipp:107`. -/
def onAttach (transport : TransportId) : SessionM PUnit := do
  match (← Exec.get).transport with
  | some _ => Exec.throw (.logicError ErrorMessages.sessionTransportAlreadyAttached)
  | none => Exec.modify fun s => { s with transport := some transport }

/-- `session.ipp:124`. -/
def registerOperation (operation : Bytes) (fn : Operation) : SessionM PUnit :=
  Exec.modify fun s =>
    { s with operations := fun name => if name = operation then some fn else s.operations name }

/-- `session.ipp:129`. -/
def onDetach : SessionM PUnit := do
  match (← Exec.get).transport with
  | none => Exec.throw (.logicError ErrorMessages.sessionTransportAlreadyDetached)
  | some _ => Exec.modify fun s => { s with transport := none }

/-- `hearbeat_thread_ = std::thread(..)`. -/
def startHearbeat : SessionM PUnit := do
  match (← Exec.get).hearbeatThread with
  | some _ => Exec.crash .threadReassigned
  | none => Exec.modify fun s => { s with hearbeatThread := some .idle }

/-- `session.ipp:208`. -/
def processWelcomeMessage (message : Message) : SessionM PUnit := do
  if (← currentState) ≠ .establishing then
    Exec.throw (.protocolError
      (utf8 "client received WELCOME message but session already established"))
  else do
    ensureState .established
    startHearbeat
    let sessionId ← Exec.ofExcept (message.fieldUInt32 1)
    Exec.modify fun s => { s with sessionId := sessionId }
    setPromise joinedLens (.ok sessionId)

/-- `session.ipp:228`. -/
def processAbortMessage (message : Message) : SessionM PUnit := do
  let reason ← Exec.ofExcept (message.fieldString 1)
  setPromise joinedLens (.error (.abortError reason))

/-- `session.ipp:236`. -/
def processPongMessage : SessionM PUnit := setPromise pongReceivedLens (.ok true)

/-- The RESULT of a call; `session.ipp:257`. -/
def resultMessage (requestId : Int32) (result : Json) : Except Exception Message := do
  let m ← (Message.ofSize 3).setField 0 (.integer MessageType.result.toInt)
  let m ← m.setField 1 (.integer requestId.toInt)
  m.setField 2 result

/-- The ERROR for an unknown operation; `session.ipp:266`. -/
def errorMessage (requestId : Int32) : Except Exception Message := do
  let m ← (Message.ofSize 5).setField 0 (.integer MessageType.error.toInt)
  let m ← m.setField 1 (.integer MessageType.call.toInt)
  let m ← m.setField 2 (.integer requestId.toInt)
  let m ← m.setField 3 (.string (utf8 "ERR_NO_SUCH_OPERATION"))
  m.setField 4 (.object [])

/-- `session.ipp:241`. The debug line dumps the result before the reply is built. -/
def processCallMessage (net : Net) (message : Message) : SessionM PUnit := do
  let requestId ← Exec.ofExcept (message.fieldInt32 1)
  let operation ← Exec.ofExcept (message.fieldString 2)
  let arguments ← Exec.ofExcept (message.fieldJson 3)
  match (← Exec.get).operations operation with
  | some fn => do
    Exec.emit (.invoked operation arguments)
    let result ← Exec.ofExcept (fn arguments)
    if ¬ result.dumpable then Exec.throw (.typeError 316) else do
      let reply ← Exec.ofExcept (resultMessage requestId result)
      sendMessage net reply true
  | none => do
    let reply ← Exec.ofExcept (errorMessage requestId)
    sendMessage net reply true

/-- `session.ipp:137`. -/
def onMessage (net : Net) (message : Message) : SessionM PUnit := do
  if message.size < 1 then
    setPromise leavedLens (.error (.protocolError ErrorMessages.invalidMessageStructure))
  else do
    let tag ← Exec.ofExcept (message.fieldInt32 0)
    match MessageType.ofInt32? tag with
    | some .hello => Exec.throw (.protocolError (utf8 "client received HELLO message"))
    | some .welcome => processWelcomeMessage message
    | some .abort => processAbortMessage message
    | some .ping => Exec.throw (.protocolError (utf8 "client received PING message"))
    | some .pong => processPongMessage
    | some .error => pure ⟨⟩
    | some .call => processCallMessage net message
    | some .result =>
      Exec.throw (.protocolError (utf8 "client received unsupported RESULT message"))
    | some .publish => pure ⟨⟩
    | some .published => pure ⟨⟩
    | none => pure ⟨⟩

/-! ### The heartbeat loop -/

/-- The heartbeat thread moves to another point of its loop. -/
def setHearbeat (point : HearbeatPoint) : SessionM PUnit :=
  Exec.modify fun s => { s with hearbeatThread := some point }

/-- The PING of the loop; `session.ipp:294`. -/
def pingMessage : Except Exception Message := do
  let m ← (Message.ofSize 2).setField 0 (.integer MessageType.ping.toInt)
  m.setField 1 (.object [])

/-- The lambda of the loop up to the promise that wakes the loop; `session.ipp:300`. The io thread
goes on with the rest of the lambda before it takes another one. -/
def pingDispatched (net : Net) (ping : Message) : SessionM PUnit :=
  Exec.catching Exception.isNetworkError (sendMessage net ping true) fun e => do
    setPromise pongReceivedLens (.ok false)
    Exec.modify fun s => { s with ioContext := .pingFailed e :: s.ioContext }

/-- The lambda of the loop behind that promise; `session.ipp:311`. -/
def pingFailed (e : Exception) : SessionM PUnit :=
  setPromise leavedLens (.error e.copyNetworkError)

/-- The reading of the pong future; `session.ipp:330`. Only a false value ends the loop. -/
def judgePong : Except Exception Bool → SessionM PUnit
  | .ok true => setHearbeat .resetting
  | .ok false => do
    setPromise leavedLens (.error .timeoutError)
    setHearbeat .ended
  | .error e =>
    if e.isNetworkError then do
      setPromise leavedLens (.error e.copyNetworkError)
      setHearbeat .resetting
    else Exec.throw e

/-- `HearbeatController` from one point of its loop to the next, where a timed wait has run out
unless what it waits for has happened; `session.ipp:277`. None when the thread is blocked or
over. -/
def hearbeatController (s : Session) : Option (SessionM PUnit) :=
  match s.hearbeatThread with
  | none => none
  | some .idle => some do
    let ping ← Exec.ofExcept pingMessage
    dispatch (.ping ping)
    setHearbeat .dispatched
  | some .dispatched => some do
    getFuture pongReceivedLens
    setHearbeat .waiting
  | some .waiting =>
    some (setHearbeat (if s.pongReceived.satisfied then .judging else .expired))
  | some .expired => some do
    setPromise pongReceivedLens (.ok false)
    setHearbeat .judging
  | some .judging => s.pongReceived.result.map judgePong
  | some .resetting => some do
    Exec.modify fun s => { s with pongReceived := {} }
    setHearbeat .idle
  | some .ended => none

/-- The wait of the loop is over without a timeout, by a notification or spuriously;
`session.ipp:286`. -/
def hearbeatWoken (s : Session) : Option (SessionM PUnit) :=
  if s.hearbeatThread = some .idle then some (setHearbeat .ended) else none

end Session
end Barbarossa
