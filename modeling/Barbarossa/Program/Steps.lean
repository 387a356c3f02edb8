import Barbarossa.Client.Transports
import Barbarossa.Program.Program

/-!
# What one step of the program can do

A step of the program performs at most one action of the client, and then the thread that took it
goes on. What it leaves of the program is a function of the state before it and the action, as long
as the process survives it.
-/

namespace Barbarossa
open Barbarossa.Base

namespace Program

variable {text : JsonText} {p p' : Process Program ProgramFault} {a : ProgramAction}
  {o : Outcome Exception ProgramFault PUnit × List Effect}

/-! ### Performing an action of the client -/

/-- What the ending of an action of the client is for the program: an exception leaves a thread. -/
def faultOf : Outcome Exception Fault PUnit → Option ProgramFault
  | .value _ => none
  | .thrown e => some (.uncaught e)
  | .crashed f => some (.client f)

/-- A thread performs `x` and goes on with `k` when it ends normally. -/
def performed (x : ClientM PUnit) (k : Program → Program) (p : Program) :
    Ran Exception ProgramFault Effect Program PUnit :=
  match x p.client with
  | ⟨.value _, c, out⟩ => ⟨.value ⟨⟩, k { p with client := c }, out⟩
  | ⟨.thrown e, c, out⟩ => ⟨.crashed (.uncaught e), { p with client := c }, out⟩
  | ⟨.crashed f, c, out⟩ => ⟨.crashed (.client f), { p with client := c }, out⟩

/-- A thread function that is an action of the client. -/
theorem outermost_onClient (x : ClientM PUnit) (p : Program) :
    outermost (onClient x) p = performed x id p := by
  unfold outermost onClient performed
  rw [Exec.noexcept_apply]
  simp only [Exec.zoom_apply, Exec.mapFault, clientLens]
  rcases x p.client with ⟨y | e | f, c, out⟩ <;> rfl

/-- A thread function that performs an action of the client and goes on. -/
theorem outermost_perform (x : ClientM PUnit) (k : Program → Program) (p : Program) :
    outermost (onClient x >>= fun _ => Exec.modify k) p = performed x k p := by
  unfold outermost onClient performed
  rw [Exec.noexcept_apply]
  simp only [Exec.bind_apply, Exec.zoom_apply, Exec.mapFault, clientLens]
  rcases x p.client with ⟨y | e | f, c, out⟩ <;> simp

/-- The handlers of the try block do not matter to a call that throws nothing they catch. -/
theorem tryBlock_perform {x : ClientM PUnit} (k : Program → Program) {p : Program}
    (hx : ∀ e, (x p.client).outcome = .thrown e → handled e = false) :
    tryBlock (onClient x >>= fun _ => Exec.modify k) p = performed x k p := by
  unfold tryBlock outermost onClient performed
  rw [Exec.noexcept_apply]
  simp only [Exec.catching, Exec.bind_apply, Exec.zoom_apply, Exec.mapFault, clientLens]
  generalize x p.client = r at hx
  obtain ⟨y, c, out⟩ := r
  cases y with
  | value y => simp
  | crashed f => simp
  | thrown e => simp [hx e rfl]

/-- What the client ran, `y`, is seen in what the program ran, `r`. -/
structure Performed (y : Ran Exception Fault Effect Client PUnit) (k : Program → Program)
    (p : Program) (r : Ran Exception ProgramFault Effect Program PUnit) : Prop where
  fault : r.outcome.fault? = faultOf y.outcome
  client : r.state.client = y.state
  output : r.output = y.output
  realm : r.state.realm = p.realm
  survived : r.outcome.fault? = none → r.state = k { p with client := y.state }

/-- What the client ran is seen in what the program ran. -/
theorem performed_facts (x : ClientM PUnit) {k : Program → Program}
    (hclient : ∀ q, (k q).client = q.client) (hrealm : ∀ q, (k q).realm = q.realm) (p : Program) :
    Performed (x p.client) k p (performed x k p) := by
  unfold performed
  generalize x p.client = y
  rcases y with ⟨y | e | f, c, out⟩
  · exact ⟨rfl, hclient _, rfl, hrealm _, fun _ => rfl⟩
  · exact ⟨rfl, rfl, rfl, rfl, by simp⟩
  · exact ⟨rfl, rfl, rfl, rfl, by simp⟩

/-! ### The parts of a step -/

/-- The action of the client that an action of the program performs. -/
def clientAction (text : JsonText) (p : Program) : ProgramAction → Option Action
  | .main ec =>
    match p.statement ec with
    | .call a _ => some a
    | _ => none
  | .signal caller => some (.leave (workerOf caller))
  | .signalDisconnect close => some (.leaveDisconnect close)
  | .signalJoined => some .leaveJoined
  | .signalStop => none
  | .runDispatched _ ec => some (.runDispatched ec)
  | .pingFailed => some (.runDispatched none)
  | .pingOver => none
  | .onClientOpen => some (.transport transport .onClientOpen)
  | .onClientClose => some (.transport transport .onClientClose)
  | .onClientFail _ => some (.transport transport .onClientFail)
  | .onClientFailed => some (.transport transport .onClientFailed)
  | .onClientMessage opcode payload ec =>
    match opcode, (p.client.transports transport).handler, text.parse payload with
    | .text, some _, .ok (.array elements) => some (.message transport ⟨elements⟩ ec)
    | _, _, _ => none
  | .workerExit => some (.transport transport .workerExit)
  | .hearbeat =>
    if p.owned = false ∧ p.client.session.hearbeatThread = some .idle then none
    else some .hearbeat
  | .hearbeatWoken => some .hearbeatWoken

/-- Where the main thread is after an action. -/
def pointAfter (p : Program) : ProgramAction → MainPoint
  | .main ec =>
    match p.statement ec with
    | .call _ next | .returned none next | .goOn next => next
    | .returned (some _) _ => .detaching
    | .blocked => p.point
  | _ => p.point

/-- Whether the context is stopped after an action. -/
def stoppedAfter (p : Program) : ProgramAction → Bool
  | .main ec =>
    match p.statement ec with
    | .returned (some _) _ => true
    | _ => p.stopped
  | .signalStop => true
  | _ => p.stopped

/-- Where the signal handler is after an action. -/
def signalAfter (p : Program) : ProgramAction → SignalPoint
  | .signal caller => .leaving caller
  | .signalStop => .handled
  | _ => p.signal

/-- The thread behind a failed PING after an action that left the client `c`. -/
def pingingAfter (p : Program) (c : Client) : ProgramAction → Option Caller
  | .runDispatched caller _ => if c.failure.isSome then some caller else none
  | .pingOver => none
  | _ => p.pinging

/-- The thread in the fail callback after an action that left the client `c`. -/
def failingAfter (p : Program) (c : Client) : ProgramAction → Option Caller
  | .onClientFail caller => if (c.transports transport).failing then some caller else none
  | .onClientFailed => none
  | _ => p.failing

/-- What an action leaves of the program, with the client `c`. -/
def after (p : Program) (c : Client) (a : ProgramAction) : Program where
  realm := p.realm
  client := c
  point := p.pointAfter a
  signal := p.signalAfter a
  stopped := p.stoppedAfter a
  pinging := p.pingingAfter c a
  failing := p.failingAfter c a

/-- When an action is enabled, apart from what the client has to say to it. -/
def Enabled (p : Program) : ProgramAction → Prop
  | .main ec => p.statement ec ≠ .blocked
  | .signal caller => p.runsHandlers caller = true ∧ p.point.wired = true ∧ p.signal = .awaited
  | .signalDisconnect _ | .signalJoined => ∃ caller, p.signal = .leaving caller
  | .signalStop => (∃ caller, p.signal = .leaving caller) ∧ p.client.leaves = some .finished
  | .runDispatched caller _ => p.runsHandlers caller = true ∧ p.pinging = none
  | .pingFailed => p.pinging.isSome = true ∧ p.client.failure.isSome = true
  | .pingOver => p.pinging.isSome = true ∧ p.client.failure = none ∧
      (p.point.released = true → p.hearbeatOver = true)
  | .onClientFail caller => p.runsHandlers caller = true
  | .onClientFailed => p.failing.isSome = true
  | .onClientOpen | .onClientClose | .onClientMessage _ _ _ => p.takesHandlers = true
  | .workerExit => p.stopped = true ∧ p.busy .worker = false
  | .hearbeat | .hearbeatWoken => True

/-- The main thread catches what its call ended with, if that is an exception. -/
def Caught (p : Program) : ProgramAction → Prop
  | .main ec => ∀ e next, p.statement ec = .returned (some e) next → handled e = true
  | _ => True

/-- What is known of one step of a program. -/
structure StepFacts (text : JsonText) (p : Process Program ProgramFault) (a : ProgramAction)
    (o : Outcome Exception ProgramFault PUnit × List Effect) (p' : Process Program ProgramFault) :
    Prop where
  running : p.fault = none
  enabled : p.state.Enabled a
  realm : p'.state.realm = p.state.realm
  performs : ∀ b, p.state.clientAction text a = some b →
    ∃ out, Client.step ⟨p.state.client, none⟩ b =
        some ((out, o.2), ⟨p'.state.client, out.fault?⟩) ∧ p'.fault = faultOf out
  idle : p.state.clientAction text a = none →
    p'.state.client = p.state.client ∧ o.2 = [] ∧ ∀ f, p'.fault ≠ some (.client f)
  caught : p'.fault = none → p.state.Caught a
  state : p'.fault = none → p'.state = p.state.after p'.state.client a

namespace StepFacts

/-- Where the main thread goes on. -/
theorem point (hs : StepFacts text p a o p') (hf : p'.fault = none) :
    p'.state.point = p.state.pointAfter a :=
  congrArg Program.point (hs.state hf)

/-- Whether the context is stopped then. -/
theorem stopped (hs : StepFacts text p a o p') (hf : p'.fault = none) :
    p'.state.stopped = p.state.stoppedAfter a :=
  congrArg Program.stopped (hs.state hf)

/-- Where the signal handler goes on. -/
theorem signal (hs : StepFacts text p a o p') (hf : p'.fault = none) :
    p'.state.signal = p.state.signalAfter a :=
  congrArg Program.signal (hs.state hf)

/-- Which thread is behind a failed PING then. -/
theorem pinging (hs : StepFacts text p a o p') (hf : p'.fault = none) :
    p'.state.pinging = p.state.pingingAfter p'.state.client a :=
  congrArg Program.pinging (hs.state hf)

/-- Which thread is in the fail callback then. -/
theorem failing (hs : StepFacts text p a o p') (hf : p'.fault = none) :
    p'.state.failing = p.state.failingAfter p'.state.client a :=
  congrArg Program.failing (hs.state hf)

end StepFacts

/-- The calls of the main thread: where it makes them and where it goes on. -/
inductive MainCall (p : Program) (ec : Option Bytes) : Action → MainPoint → Prop
  | registerOperation (hp : p.point = .registering) :
      MainCall p ec (.registerOperation sayHelloName sayHello) .wiring
  | attach (hp : p.point = .attaching) : MainCall p ec (.attach transport) .connecting
  | connect (hp : p.point = .connecting) :
      MainCall p ec (.transport transport (.connect ec)) .connectFuture
  | connectFuture (hp : p.point = .connectFuture) :
      MainCall p ec (.transport transport (.connectFuture mainCall)) .connectWait
  | connectReady (hp : p.point = .connectWait) :
      MainCall p ec (.transport transport (.connectReady mainCall)) .connectWait
  | join (hp : p.point = .joining) : MainCall p ec (.join p.realm) .joinFuture
  | joinFuture (hp : p.point = .joinFuture) : MainCall p ec (.joinFuture mainCall) .joinWait
  | joinReady (hp : p.point = .joinWait) : MainCall p ec (.joinReady mainCall) .joinWait
  | joinTimeout (hp : p.point = .joinWait) : MainCall p ec (.joinTimeout mainCall) .joinWait
  | listen (hp : p.point = .listening) : MainCall p ec .listen .listenWait
  | listenReady (hp : p.point = .listenWait) : MainCall p ec (.listenReady mainCall) .listenWait
  | detach (hp : p.point = .detaching) : MainCall p ec (.detach transport) .running
  | destroy (hp : p.point = .releasingTransport) :
      MainCall p ec (.transport transport (.destroy .other)) .joiningWorker
  | destroyJoined (hp : p.point = .joiningWorker) :
      MainCall p ec (.transport transport .destroyJoined) .joiningWorker

/-- A statement that is a call is one of them. -/
theorem mainCall_of_statement {p : Program} {ec : Option Bytes} {a : Action} {next : MainPoint}
    (hc : p.statement ec = .call a next) : MainCall p ec a next := by
  unfold statement at hc
  cases hp : p.point with
  | registering =>
    rw [hp] at hc
    cases hc
    exact .registerOperation hp
  | attaching =>
    rw [hp] at hc
    cases hc
    exact .attach hp
  | connecting =>
    rw [hp] at hc
    cases hc
    exact .connect hp
  | connectFuture =>
    rw [hp] at hc
    cases hc
    exact .connectFuture hp
  | connectWait =>
    simp only [hp] at hc
    split at hc
    · cases hc
    · cases hc
      exact .connectReady hp
  | joining =>
    rw [hp] at hc
    cases hc
    exact .join hp
  | joinFuture =>
    rw [hp] at hc
    cases hc
    exact .joinFuture hp
  | joinWait =>
    simp only [hp] at hc
    split at hc
    · cases hc
    · cases hc
      split
      · exact .joinReady hp
      · exact .joinTimeout hp
  | listening =>
    rw [hp] at hc
    cases hc
    exact .listen hp
  | listenWait =>
    simp only [hp] at hc
    split at hc
    · cases hc
    · cases hc
      exact .listenReady hp
  | detaching =>
    rw [hp] at hc
    cases hc
    exact .detach hp
  | releasingTransport =>
    rw [hp] at hc
    cases hc
    exact .destroy hp
  | running | releasingSession =>
    simp only [hp] at hc
    split at hc <;> cases hc
  | joiningWorker =>
    simp only [hp] at hc
    split at hc
    · cases hc
    · cases hc
      exact .destroyJoined hp
  | wiring | exited =>
    rw [hp] at hc
    cases hc

/-- What the threads perform: a call of the main thread, a handler, the end of the worker or a step
of the heartbeat loop. -/
inductive Performs (text : JsonText) (p : Program) : ProgramAction → Action → Prop
  | call (ec : Option Bytes) (b : Action) (next : MainPoint) (hc : MainCall p ec b next) :
      Performs text p (.main ec) b
  | leave (caller : Caller) : Performs text p (.signal caller) (.leave (workerOf caller))
  | leaveDisconnect (close : Option Exception) :
      Performs text p (.signalDisconnect close) (.leaveDisconnect close)
  | leaveJoined : Performs text p .signalJoined .leaveJoined
  | runDispatched (caller : Caller) (ec : Option Bytes) :
      Performs text p (.runDispatched caller ec) (.runDispatched ec)
  | pingFailed : Performs text p .pingFailed (.runDispatched none)
  | onClientOpen : Performs text p .onClientOpen (.transport transport .onClientOpen)
  | onClientClose : Performs text p .onClientClose (.transport transport .onClientClose)
  | onClientFail (caller : Caller) :
      Performs text p (.onClientFail caller) (.transport transport .onClientFail)
  | onClientFailed : Performs text p .onClientFailed (.transport transport .onClientFailed)
  | message (payload : Bytes) (ec : Option Bytes) (elements : List Json)
      (hparse : text.parse payload = .ok (.array elements)) :
      Performs text p (.onClientMessage .text payload ec) (.message transport ⟨elements⟩ ec)
  | workerExit : Performs text p .workerExit (.transport transport .workerExit)
  | hearbeat : Performs text p .hearbeat .hearbeat
  | hearbeatWoken : Performs text p .hearbeatWoken .hearbeatWoken

/-- An action of the client is performed in one of these ways. -/
theorem performs_of_clientAction {p : Program} {b : Action}
    (hb : p.clientAction text a = some b) : p.Performs text a b := by
  cases a with
  | main ec =>
    simp only [clientAction] at hb
    split at hb
    · next c next hc =>
      cases hb
      exact .call ec _ _ (mainCall_of_statement hc)
    · cases hb
  | onClientMessage opcode payload ec =>
    simp only [clientAction] at hb
    split at hb
    · next elements _ hparse =>
      cases hb
      exact .message payload ec elements hparse
    · cases hb
  | hearbeat =>
    simp only [clientAction, Option.ite_none_left_eq_some] at hb
    obtain ⟨-, hb⟩ := hb
    cases hb
    exact .hearbeat
  | signalStop | pingOver => cases hb
  | _ =>
    cases hb
    constructor

/-- The calls of the main thread that end: how, and where it goes on. -/
inductive MainReturn (p : Program) : Option Exception → MainPoint → Prop
  | connect (r : Except Exception PUnit) (hp : p.point = .connectWait)
      (hr : (p.client.transports transport).connects[mainCall]? = some (.finished r)) :
      MainReturn p (failure? r) .joining
  | join (r : Except Exception UInt32) (hp : p.point = .joinWait)
      (hr : p.client.joins[mainCall]? = some (.finished r)) : MainReturn p (failure? r) .listening
  | listen (r : Except Exception PUnit) (hp : p.point = .listenWait)
      (hr : p.client.listens[mainCall]? = some (.finished r)) : MainReturn p (failure? r) .detaching

/-- A call that ends is one that waited. -/
theorem waits_of_return {p : Program} {failure : Option Exception} {next : MainPoint}
    (hc : MainReturn p failure next) :
    p.point = .connectWait ∨ p.point = .joinWait ∨ p.point = .listenWait := by
  cases hc with
  | connect r hp => exact .inl hp
  | join r hp => exact .inr (.inl hp)
  | listen r hp => exact .inr (.inr hp)

/-- None of them is behind `io_context.run()`. -/
theorem not_behind_of_return {p : Program} {failure : Option Exception} {next : MainPoint}
    (hc : MainReturn p failure next) : p.point.behindRun = false := by
  rcases waits_of_return hc with hp | hp | hp <;>
  · rw [hp]
    rfl

/-- A statement that ends a call ends one of them. -/
theorem mainReturn_of_statement {p : Program} {ec : Option Bytes} {failure : Option Exception}
    {next : MainPoint} (hc : p.statement ec = .returned failure next) :
    MainReturn p failure next := by
  unfold statement at hc
  cases hp : p.point with
  | connectWait =>
    simp only [hp] at hc
    split at hc
    · next r hr =>
      cases hc
      obtain ⟨c, hcall, hresult⟩ := Option.bind_eq_some_iff.mp hr
      rw [ConnectCall.eq_finished hresult] at hcall
      exact .connect r hp hcall
    · cases hc
  | joinWait =>
    simp only [hp] at hc
    split at hc
    · next r hr =>
      cases hc
      obtain ⟨c, hcall, hresult⟩ := Option.bind_eq_some_iff.mp hr
      cases c <;> cases hresult
      exact .join r hp hcall
    · cases hc
  | listenWait =>
    simp only [hp] at hc
    split at hc
    · next r hr =>
      cases hc
      obtain ⟨c, hcall, hresult⟩ := Option.bind_eq_some_iff.mp hr
      cases c <;> cases hresult
      exact .listen r hp hcall
    · cases hc
  | running | releasingSession | joiningWorker =>
    simp only [hp] at hc
    split at hc <;> cases hc
  | _ =>
    rw [hp] at hc
    cases hc

/-- Where the main thread goes on without a call. -/
inductive MainMove (p : Program) : MainPoint → Prop
  | wiring (hp : p.point = .wiring) : MainMove p .attaching
  | running (hp : p.point = .running) (hstopped : p.stopped = true)
      (hfree : p.busy .other = false) : MainMove p .releasingSession
  | releasingSession (hp : p.point = .releasingSession)
      (hover : p.pinging.isSome = true ∨ p.hearbeatOver = true) : MainMove p .releasingTransport
  | joiningWorker (hp : p.point = .joiningWorker)
      (hdestroyed : (p.client.transports transport).stage = .destroyed) : MainMove p .exited

/-- A statement without a call is one of them. -/
theorem mainMove_of_statement {p : Program} {ec : Option Bytes} {next : MainPoint}
    (hc : p.statement ec = .goOn next) : MainMove p next := by
  unfold statement at hc
  cases hp : p.point with
  | wiring =>
    rw [hp] at hc
    cases hc
    exact .wiring hp
  | running =>
    simp only [hp] at hc
    split at hc
    · next hg =>
      cases hc
      exact .running hp hg.1 (Bool.not_eq_true _ ▸ hg.2)
    · cases hc
  | releasingSession =>
    simp only [hp] at hc
    split at hc
    · next hg =>
      cases hc
      exact .releasingSession hp hg
    · cases hc
  | joiningWorker =>
    simp only [hp] at hc
    split at hc
    · next hg =>
      cases hc
      exact .joiningWorker hp hg
    · cases hc
  | connectWait | joinWait | listenWait =>
    simp only [hp] at hc
    split at hc <;> cases hc
  | _ =>
    rw [hp] at hc
    cases hc

/-- What the main thread calls in the try block throws nothing that its handlers catch; the errors
that they do catch come out of the futures. -/
theorem not_handled_of_call {p : Program} {ec : Option Bytes} {a : Action} {next : MainPoint}
    {x : ClientM PUnit} (htry : p.point.inTry = true) (hc : p.statement ec = .call a next)
    (hx : p.client.act a = some x) {e : Exception} (he : (x p.client).outcome = .thrown e) :
    handled e = false := by
  have hvalue : Client.isCallPiece a = true → handled e = false := by
    intro ha
    rw [Client.outcome_of_isCallPiece ha hx] at he
    cases he
  cases mainCall_of_statement hc with
  | connect hp =>
    obtain ⟨-, -, y, hy, rfl⟩ := Client.act_transport hx
    obtain ⟨-, rfl⟩ := guard_eq_some hy
    simp only [Client.onTransport, Exec.zoom_apply, WebSocketTransport.connect, Exec.bind_apply,
      Exec.get_apply, Ran.andThen_value, Ran.after_nil, Exec.ite_apply] at he
    split at he
    · cases he
      rfl
    · cases ec with
      | some text =>
        cases he
        rfl
      | none => cases he
  | connectFuture hp =>
    obtain ⟨-, -, y, hy, rfl⟩ := Client.act_transport hx
    simp only [WebSocketTransport.act] at hy
    split at hy
    · cases hy
      simp [Client.onTransport, WebSocketTransport.connectFuture_eq] at he
    · cases hy
  | connectReady hp =>
    obtain ⟨-, -, y, hy, rfl⟩ := Client.act_transport hx
    simp only [WebSocketTransport.act] at hy
    split at hy
    · cases hy
      cases he
    · cases hy
  | join hp | joinFuture hp | joinReady hp | joinTimeout hp | listen hp | listenReady hp =>
    exact hvalue rfl
  | registerOperation hp | attach hp | detach hp | destroy hp | destroyJoined hp =>
    rw [hp] at htry
    cases htry

private theorem StepFacts.of_performed {b : Action} {x : ClientM PUnit} {k : Program → Program}
    {r : Ran Exception ProgramFault Effect Program PUnit} (hrunning : p.fault = none)
    (ho : o = (r.outcome, r.output)) (hstate : p'.state = r.state)
    (hfault : p'.fault = r.outcome.fault?) (haction : p.state.clientAction text a = some b)
    (hx : p.state.client.act b = some x) (hr : Performed (x p.state.client) k p.state r)
    (henabled : p.state.Enabled a) (hcaught : p.state.Caught a)
    (hk : ∀ c, k { p.state with client := c } = p.state.after c a) : StepFacts text p a o p' := by
  constructor
  · exact hrunning
  · exact henabled
  · rw [hstate, hr.realm]
  · intro b' hb
    rw [haction] at hb
    cases hb
    refine ⟨(x p.state.client).outcome, ?_, hfault.trans hr.fault⟩
    rw [hstate, hr.client, ho, hr.output]
    exact Process.step_of_act (p := ⟨p.state.client, none⟩) rfl hx
  · intro hnone
    rw [haction] at hnone
    cases hnone
  · exact fun _ => hcaught
  · intro hf
    rw [hstate, hr.client, hr.survived (hfault.symm.trans hf), hk]

private theorem StepFacts.of_idle (hrunning : p.fault = none) (hsilent : o.2 = [])
    (hnone : p.state.clientAction text a = none) (hclient : p'.state.client = p.state.client)
    (hrealm : p'.state.realm = p.state.realm) (henabled : p.state.Enabled a)
    (hfault : ∀ f, p'.fault ≠ some (.client f)) (hcaught : p'.fault = none → p.state.Caught a)
    (hstate : p'.fault = none → p'.state = p.state.after p.state.client a) :
    StepFacts text p a o p' := by
  refine ⟨hrunning, henabled, hrealm, ?_, fun _ => ⟨hclient, hsilent, hfault⟩, hcaught, ?_⟩
  · intro b hb
    rw [hnone] at hb
    cases hb
  · intro hf
    rw [hclient]
    exact hstate hf

private theorem StepFacts.of_performThen {b : Action} {k : Program → Program} {y : ProgramM PUnit}
    (hrunning : p.fault = none) (hy : p.state.performThen b k = some y)
    (ho : o = ((y p.state).outcome, (y p.state).output))
    (hstate : p'.state = (y p.state).state) (hfault : p'.fault = (y p.state).outcome.fault?)
    (haction : p.state.clientAction text a = some b) (henabled : p.state.Enabled a)
    (hcaught : p.state.Caught a) (hclient : ∀ q, (k q).client = q.client)
    (hrealm : ∀ q, (k q).realm = q.realm)
    (hk : ∀ c, k { p.state with client := c } = p.state.after c a) : StepFacts text p a o p' := by
  obtain ⟨x, hx, rfl⟩ := Option.map_eq_some_iff.mp hy
  rw [outermost_perform] at ho hstate hfault
  exact .of_performed hrunning ho hstate hfault haction hx (performed_facts x hclient hrealm _)
    henabled hcaught hk

private theorem StepFacts.of_perform {b : Action} {y : ProgramM PUnit} (hrunning : p.fault = none)
    (hy : p.state.perform b = some y) (ho : o = ((y p.state).outcome, (y p.state).output))
    (hstate : p'.state = (y p.state).state) (hfault : p'.fault = (y p.state).outcome.fault?)
    (haction : p.state.clientAction text a = some b) (henabled : p.state.Enabled a)
    (hcaught : p.state.Caught a)
    (hk : ∀ c, { p.state with client := c } = p.state.after c a) : StepFacts text p a o p' := by
  obtain ⟨x, hx, rfl⟩ := Option.map_eq_some_iff.mp hy
  rw [outermost_onClient] at ho hstate hfault
  exact .of_performed hrunning ho hstate hfault haction hx
    (performed_facts x (fun _ => rfl) (fun _ => rfl) _) henabled hcaught hk

private theorem step_main {ec : Option Bytes} (hs : step text p (.main ec) = some (o, p')) :
    StepFacts text p (.main ec) o p' := by
  obtain ⟨hrunning, y, hy, ho, hstate, hfault⟩ := Process.step_eq_some hs
  have hy : p.state.mainStep ec = some y := hy
  unfold mainStep at hy
  cases hc : p.state.statement ec with
  | call b next =>
    rw [hc] at hy
    obtain ⟨x, hx, rfl⟩ := Option.map_eq_some_iff.mp hy
    have hrun : scope p.state.point (onClient x >>= fun _ => goto next) p.state =
        performed x (fun q => { q with point := next }) p.state := by
      unfold scope goto
      split
      · next htry =>
        exact tryBlock_perform _ fun e he => not_handled_of_call htry hc hx he
      · exact outermost_perform x _ p.state
    rw [hrun] at ho hstate hfault
    apply StepFacts.of_performed hrunning ho hstate hfault (b := b) (x := x)
      (k := fun q => { q with point := next })
    · simp only [clientAction, hc]
    · exact hx
    · exact performed_facts x (k := fun q => { q with point := next }) (fun _ => rfl)
        (fun _ => rfl) p.state
    · simp only [Enabled, hc, ne_eq, reduceCtorEq, not_false_eq_true]
    · simp only [Caught, hc, reduceCtorEq, false_implies, implies_true]
    · intro c
      simp only [after, pointAfter, stoppedAfter, hc]
      rfl
  | returned failure next =>
    cases failure with
    | none =>
      rw [hc] at hy
      cases hy
      apply StepFacts.of_idle hrunning <;>
        simp [ho, hstate, hfault, goto, clientAction, Enabled, Caught, after, pointAfter,
          stoppedAfter, signalAfter, pingingAfter, failingAfter, hc]
    | some e =>
      rw [hc] at hy
      cases hy
      have hrun : tryBlock (Exec.throw e) p.state =
          if handled e then
            ⟨.value ⟨⟩, { p.state with stopped := true, point := .detaching }, []⟩
          else ⟨.crashed (.uncaught e), p.state, []⟩ := by
        unfold tryBlock outermost
        rw [Exec.noexcept_apply]
        cases hh : handled e <;> simp [Exec.catching, hh, stop, goto]
      rw [hrun] at ho hstate hfault
      cases hh : handled e with
      | true =>
        rw [hh] at ho hstate hfault
        apply StepFacts.of_idle hrunning <;>
          simp [ho, hstate, hfault, clientAction, Enabled, Caught, after, pointAfter,
            stoppedAfter, signalAfter, pingingAfter, failingAfter, hc, hh]
      | false =>
        rw [hh] at ho hstate hfault
        apply StepFacts.of_idle hrunning <;>
          simp [ho, hstate, hfault, clientAction, Enabled, hc]
  | goOn next =>
    rw [hc] at hy
    cases hy
    apply StepFacts.of_idle hrunning <;>
      simp [ho, hstate, hfault, goto, clientAction, Enabled, Caught, after, pointAfter,
        stoppedAfter, signalAfter, pingingAfter, failingAfter, hc]
  | blocked =>
    rw [hc] at hy
    cases hy

private theorem StepFacts.of_dropped {opcode : Opcode} {payload : Bytes} {ec : Option Bytes}
    {x : ClientM PUnit} {out : Outcome Exception Fault PUnit} (hrunning : p.fault = none)
    (hx : x p.state.client = ⟨out, p.state.client, []⟩) (hout : ∀ f, out ≠ .crashed f)
    (ho : o = ((performed x id p.state).outcome, (performed x id p.state).output))
    (hstate : p'.state = (performed x id p.state).state)
    (hfault : p'.fault = (performed x id p.state).outcome.fault?)
    (hnone : p.state.clientAction text (.onClientMessage opcode payload ec) = none)
    (htakes : p.state.takesHandlers = true) :
    StepFacts text p (.onClientMessage opcode payload ec) o p' := by
  have hr := performed_facts x (k := id) (fun _ => rfl) (fun _ => rfl) p.state
  have hsurvived : p'.fault = none → p'.state = p.state := by
    intro hf
    rw [hstate, hr.survived (hfault.symm.trans hf), hx]
    rfl
  refine StepFacts.of_idle hrunning ?_ hnone ?_ ?_ htakes ?_ (fun _ => trivial) ?_
  · rw [ho, hr.output, hx]
  · rw [hstate, hr.client, hx]
  · rw [hstate, hr.realm]
  · intro f hf
    rw [hfault, hr.fault, hx] at hf
    cases out with
    | value => cases hf
    | thrown e => cases hf
    | crashed g => exact hout g rfl
  · intro hf
    rw [hsurvived hf]
    rfl

private theorem step_onClientMessage {opcode : Opcode} {payload : Bytes} {ec : Option Bytes}
    (hk : p.state.client.HandlersKnown)
    (hs : step text p (.onClientMessage opcode payload ec) = some (o, p')) :
    StepFacts text p (.onClientMessage opcode payload ec) o p' := by
  obtain ⟨hrunning, y, hy, ho, hstate, hfault⟩ := Process.step_eq_some hs
  obtain ⟨htakes, rfl⟩ := guard_eq_some hy
  rw [outermost_onClient] at ho hstate hfault
  have hrun : Client.onClientMessage text transport opcode payload ec p.state.client =
      WebSocketTransport.onClientMessage text (Client.transportLens transport)
        (fun _ m => Client.onSession (Session.onMessage (p.state.client.net ec) m)) opcode payload
        p.state.client := rfl
  rw [WebSocketTransport.onClientMessage_eq] at hrun
  cases opcode with
  | binary => exact .of_dropped hrunning hrun (by simp) ho hstate hfault rfl htakes
  | text =>
    dsimp only at hrun
    rw [WebSocketTransport.recvMessage_eq] at hrun
    dsimp only [Client.transportLens] at hrun
    cases hh : (p.state.client.transports transport).handler with
    | none =>
      rw [hh] at hrun
      apply StepFacts.of_dropped hrunning hrun (by simp) ho hstate hfault _ htakes
      simp only [clientAction, hh]
    | some handler =>
      obtain rfl := hk transport handler hh
      rw [hh] at hrun
      cases hparse : text.parse payload with
      | error e =>
        rw [hparse] at hrun
        apply StepFacts.of_dropped hrunning hrun (by simp) ho hstate hfault _ htakes
        simp only [clientAction, hh, hparse]
      | ok v =>
        rw [hparse] at hrun
        cases v with
        | array elements =>
          obtain ⟨x, hx, hsame⟩ := Client.onClientMessage_act ec hh hparse
          apply StepFacts.of_performed hrunning ho hstate hfault (k := id) (x := x)
            (b := .message transport ⟨elements⟩ ec)
          · simp only [clientAction, hh, hparse]
          · exact hx
          · rw [hsame]
            exact performed_facts _ (fun _ => rfl) (fun _ => rfl) p.state
          · exact htakes
          · trivial
          · exact fun _ => rfl
        | _ =>
          apply StepFacts.of_dropped hrunning hrun (by simp) ho hstate hfault _ htakes
          simp only [clientAction, hh, hparse]

private theorem step_signalGoesOn {b : Action} {y : ProgramM PUnit} (hrunning : p.fault = none)
    (hy : p.state.signalGoesOn b = some y) (ho : o = ((y p.state).outcome, (y p.state).output))
    (hstate : p'.state = (y p.state).state) (hfault : p'.fault = (y p.state).outcome.fault?)
    (haction : p.state.clientAction text a = some b)
    (henabled : (∃ caller, p.state.signal = .leaving caller) → p.state.Enabled a)
    (hcaught : p.state.Caught a) (hk : ∀ c, { p.state with client := c } = p.state.after c a) :
    StepFacts text p a o p' := by
  unfold signalGoesOn at hy
  split at hy
  · next caller hsignal =>
    exact .of_perform hrunning hy ho hstate hfault haction (henabled ⟨caller, hsignal⟩) hcaught hk
  · cases hy

/-- The facts of an enabled step. -/
theorem step_facts (hk : p.state.client.HandlersKnown) (hs : step text p a = some (o, p')) :
    StepFacts text p a o p' := by
  obtain ⟨hrunning, y, hy, ho, hstate, hfault⟩ := Process.step_eq_some hs
  cases a with
  | main ec => exact step_main hs
  | onClientMessage opcode payload ec => exact step_onClientMessage hk hs
  | signal caller =>
    obtain ⟨hg, hy⟩ := Option.ite_none_right_eq_some.mp hy
    exact .of_performThen hrunning hy ho hstate hfault rfl hg trivial (fun _ => rfl)
      (fun _ => rfl) (fun _ => rfl)
  | signalDisconnect close | signalJoined =>
    exact step_signalGoesOn hrunning hy ho hstate hfault rfl id trivial fun _ => rfl
  | signalStop =>
    have hy : p.state.signalStop = some y := hy
    unfold signalStop at hy
    split at hy
    · next caller hsignal =>
      obtain ⟨hfinished, hy⟩ := Option.ite_none_right_eq_some.mp hy
      cases hy
      apply StepFacts.of_idle hrunning <;>
        simp [ho, hstate, hfault, stop, clientAction, Enabled, Caught, after, pointAfter,
          stoppedAfter, signalAfter, pingingAfter, failingAfter, hsignal, hfinished]
    · cases hy
  | runDispatched caller ec =>
    obtain ⟨hg, hy⟩ := Option.ite_none_right_eq_some.mp hy
    exact .of_performThen hrunning hy ho hstate hfault rfl hg trivial (fun _ => rfl)
      (fun _ => rfl) (fun _ => rfl)
  | pingFailed =>
    obtain ⟨hg, hy⟩ := Option.ite_none_right_eq_some.mp hy
    exact .of_perform hrunning hy ho hstate hfault rfl hg trivial fun _ => rfl
  | pingOver =>
    obtain ⟨⟨hpinging, hover, hreleased⟩, hy⟩ := Option.ite_none_right_eq_some.mp hy
    cases hy
    apply StepFacts.of_idle hrunning
    · rw [ho]
      rfl
    · rfl
    · rw [hstate]
      rfl
    · rw [hstate]
      rfl
    · exact ⟨hpinging, Option.isNone_iff_eq_none.mp hover, hreleased⟩
    · intro f hf
      rw [hfault] at hf
      cases hf
    · exact fun _ => trivial
    · intro _
      rw [hstate]
      rfl
  | onClientFail caller =>
    obtain ⟨hg, hy⟩ := Option.ite_none_right_eq_some.mp hy
    exact .of_performThen hrunning hy ho hstate hfault rfl hg trivial (fun _ => rfl)
      (fun _ => rfl) (fun _ => rfl)
  | onClientFailed =>
    obtain ⟨hg, hy⟩ := Option.ite_none_right_eq_some.mp hy
    exact .of_performThen hrunning hy ho hstate hfault rfl hg trivial (fun _ => rfl)
      (fun _ => rfl) (fun _ => rfl)
  | onClientOpen | onClientClose =>
    obtain ⟨htakes, hy⟩ := Option.ite_none_right_eq_some.mp hy
    exact .of_perform hrunning hy ho hstate hfault rfl htakes trivial fun _ => rfl
  | workerExit =>
    obtain ⟨⟨hstopped, hfree⟩, hy⟩ := Option.ite_none_right_eq_some.mp hy
    exact .of_perform hrunning hy ho hstate hfault rfl ⟨hstopped, Bool.not_eq_true _ ▸ hfree⟩
      trivial fun _ => rfl
  | hearbeat =>
    have hy : p.state.hearbeat = some y := hy
    unfold hearbeat at hy
    split at hy
    · next hc =>
      cases hy
      apply StepFacts.of_idle hrunning <;>
        simp [ho, hstate, hfault, clientAction, Enabled, hc]
    · next hc =>
      have haction : p.state.clientAction text .hearbeat = some .hearbeat := by
        simp only [clientAction, hc, if_false]
      exact .of_perform hrunning hy ho hstate hfault haction trivial trivial fun _ => rfl
  | hearbeatWoken =>
    exact .of_perform hrunning hy ho hstate hfault rfl trivial trivial fun _ => rfl

end Program
end Barbarossa
