import Barbarossa.Protocol.Decoder

/-!
# The endpoint with its handler thread

`spikes/statemachine/websocket.hpp`: two threads share one state behind a lock. The handler thread
loops over reading the state, acting on it and writing the next one; the websocket thread runs the
callbacks of one connection. Each locked access, each send and each close request is a step of its
own, so the other thread can run between any two of them.
-/

namespace Barbarossa
open Barbarossa.Base Barbarossa.Protocol

/-- `websocket.hpp:24`. -/
inductive ControlChannelStates where
  | opened
  | connected
  | greeted
  | registered
  | disconnected
  deriving DecidableEq, Repr

/-- Where the handler thread is. -/
inductive HandlerPoint where
  /-- Before it reads the state. -/
  | reading
  /-- Before it sends the HELLO. -/
  | greeting
  /-- The HELLO was sent, the state that says so is not written. -/
  | recording
  /-- Before it sends a PING. -/
  | pinging
  /-- Behind the switch. -/
  | checking
  | left
  deriving DecidableEq, Repr

/-- Where `OnMessage` is on the websocket thread. -/
inductive OnMessagePoint where
  | idle
  /-- The payload is parsed, the state is not read. -/
  | parsed (m : BasicMessage)
  /-- Before it writes the state after a WELCOME. -/
  | registering
  /-- Before it requests to close the connection. -/
  | closing
  deriving DecidableEq

/-- What the websocket client knows of the connection. -/
inductive Connection where
  | connecting
  | live
  | ended
  deriving DecidableEq, Repr

/-- `websocket.hpp:32`, while `Run` is in progress. -/
structure WebsocketEndpoint where
  state : ControlChannelStates := .opened
  connection : Connection := .connecting
  handler : HandlerPoint := .reading
  /-- The local variables of `Handler`. -/
  timeout : Nat := 0
  done : Bool := false
  ec : Option Bytes := none
  message : OnMessagePoint := .idle
  deriving DecidableEq

/-- The ways in which the endpoint ends for good. -/
inductive EndpointFault where
  /-- An exception left the websocket thread. -/
  | uncaught (e : Exception)
  | undefined (u : Undefined)
  deriving DecidableEq, Repr

/-- What the endpoint hands to the websocket client. -/
inductive EndpointEffect where
  | send (frame : Json)
  | close (code : Nat) (reason : Bytes)
  deriving DecidableEq

/-- Code of the endpoint. -/
abbrev EndpointM := Exec Exception EndpointFault EndpointEffect WebsocketEndpoint

namespace WebsocketEndpoint

/-- `set_state`; `websocket.hpp:247`. -/
def setState (state : ControlChannelStates) : EndpointM PUnit :=
  Exec.modify fun s => { s with state := state }

/-- The handler thread goes on at a point. -/
def setHandler (point : HandlerPoint) : EndpointM PUnit :=
  Exec.modify fun s => { s with handler := point }

/-- `OnMessage` goes on at a point. -/
def setMessage (point : OnMessagePoint) : EndpointM PUnit :=
  Exec.modify fun s => { s with message := point }

/-- Send a frame to a client that answers with `ec`. -/
def send (frame : Json) (ec : Option Bytes) : EndpointM PUnit := do
  Exec.emit (.send frame)
  Exec.modify fun s => { s with ec := ec }

/-! ### The callbacks -/

/-- `websocket.hpp:116`. -/
def onOpen : EndpointM PUnit := setState .connected

/-- `websocket.hpp:125`. -/
def onClose : EndpointM PUnit := setState .disconnected

/-- `websocket.hpp:133`. -/
def onFail : EndpointM PUnit := setState .disconnected

/-- `OnMessage` up to the state; `websocket.hpp:140`. Nothing on the websocket thread catches what
it throws. -/
def onMessage (text : JsonText) (payload : Bytes) : EndpointM PUnit :=
  Exec.noexcept .uncaught do
    let m ← Exec.ofExcept (parse text payload)
    setMessage (.parsed m)

/-- The switch on the type of a message while an answer is expected; `websocket.hpp:152`. -/
def onMessageGreeted (m : BasicMessage) : EndpointM PUnit := do
  let r ← Exec.runOn Empty.elim Empty.elim m BasicMessage.getMessageType
  if r.1 = .welcome then do
    let _ ← Exec.runOn .undefined Empty.elim r.2 (BasicMessage.get WelcomeMessage.fromJson)
    setMessage .registering
  else if r.1 = .abort then do
    let _ ← Exec.runOn .undefined Empty.elim r.2 (BasicMessage.get AbortMessage.fromJson)
    setMessage .closing
  else setMessage .closing

/-- `OnMessage` from the state on, up to what it does about it; `websocket.hpp:149`. -/
def onMessageState (m : BasicMessage) : EndpointM PUnit :=
  Exec.noexcept .uncaught do
    if (← Exec.get).state = .greeted then onMessageGreeted m else setMessage .idle

/-- `OnMessage` after a WELCOME; `websocket.hpp:156`. -/
def onMessageRegister : EndpointM PUnit := do
  setState .registered
  setMessage .idle

/-- `OnMessage` after an ABORT or a message it does not expect; `websocket.hpp:163`. -/
def onMessageClose : EndpointM PUnit := do
  Exec.emit (.close 1001 [])
  setMessage .idle

/-- The steps of `OnMessage` on the websocket thread. -/
def onMessageAt : OnMessagePoint → Option (EndpointM PUnit)
  | .idle => none
  | .parsed m => some (onMessageState m)
  | .registering => some onMessageRegister
  | .closing => some onMessageClose

/-! ### The handler thread -/

/-- The switch on the state; `websocket.hpp:188`. -/
def handlerState : EndpointM PUnit := do
  let s ← Exec.get
  match s.state with
  | .opened => setHandler .checking
  | .connected => setHandler .greeting
  | .greeted => setHandler .checking
  | .registered =>
    if s.timeout = 30 then setHandler .pinging
    else do
      Exec.modify fun s => { s with timeout := s.timeout + 1 }
      setHandler .checking
  | .disconnected => do
    Exec.modify fun s => { s with done := true }
    setHandler .checking

/-- The HELLO of `Handler`. -/
def helloFrame : Json := HelloMessage.toJson { realm := utf8 "barbarossa@test" }

/-- `websocket.hpp:193`. -/
def handlerHello (ec : Option Bytes) : EndpointM PUnit := do
  send helloFrame ec
  setHandler .recording

/-- `websocket.hpp:196`. -/
def handlerRecord : EndpointM PUnit := do
  setState .greeted
  setHandler .checking

/-- `websocket.hpp:200`. -/
def handlerPing (ec : Option Bytes) : EndpointM PUnit := do
  send (PingMessage.toJson {}) ec
  Exec.modify fun s => { s with timeout := 0 }
  setHandler .checking

/-- Behind the switch: leave after an error or at the end, or sleep; `websocket.hpp:216`. -/
def handlerCheck : EndpointM PUnit := do
  let s ← Exec.get
  if s.ec.isSome ∨ s.done then setHandler .left else setHandler .reading

/-- The steps of `Handler`; `ec` is the client's answer to a send. -/
def handlerAt (ec : Option Bytes) : HandlerPoint → Option (EndpointM PUnit)
  | .reading => some handlerState
  | .greeting => some (handlerHello ec)
  | .recording => some handlerRecord
  | .pinging => some (handlerPing ec)
  | .checking => some handlerCheck
  | .left => none

end WebsocketEndpoint

/-- What can happen to an endpoint: a step of the handler thread, a callback, or a step of the
`OnMessage` in progress. -/
inductive EndpointAction where
  | handler (ec : Option Bytes)
  | onOpen
  | onClose
  | onFail
  | onMessage (payload : Bytes)
  | goOn

namespace WebsocketEndpoint

/-- The program of each action while it is enabled. The websocket thread runs one callback at a
time; a connection is opened or fails once, and messages and the close follow the open. -/
def act (text : JsonText) (s : WebsocketEndpoint) : EndpointAction → Option (EndpointM PUnit)
  | .handler ec => handlerAt ec s.handler
  | .onOpen =>
    if s.connection = .connecting ∧ s.message = .idle then
      some do
        Exec.modify fun s => { s with connection := .live }
        onOpen
    else none
  | .onClose =>
    if s.connection = .live ∧ s.message = .idle then
      some do
        Exec.modify fun s => { s with connection := .ended }
        onClose
    else none
  | .onFail =>
    if s.connection = .connecting ∧ s.message = .idle then
      some do
        Exec.modify fun s => { s with connection := .ended }
        onFail
    else none
  | .onMessage payload =>
    if s.connection = .live ∧ s.message = .idle then some (onMessage text payload) else none
  | .goOn => onMessageAt s.message

/-- The endpoint as a process. -/
def step (text : JsonText) : Step (Process WebsocketEndpoint EndpointFault) EndpointAction
    (Outcome Exception EndpointFault PUnit × List EndpointEffect) :=
  Process.step (act text)

/-- The recorded steps of an endpoint. -/
abbrev EndpointHistory :=
  History (Process WebsocketEndpoint EndpointFault) EndpointAction
    (Outcome Exception EndpointFault PUnit × List EndpointEffect)

/-- A run from the call of `Run`. -/
abbrev EndpointRun (text : JsonText) (h : EndpointHistory)
    (p : Process WebsocketEndpoint EndpointFault) : Prop :=
  Run (step text) { state := {} } h p

end WebsocketEndpoint
end Barbarossa
