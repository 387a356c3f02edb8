import Barbarossa.Client.Client
import Barbarossa.Transport.Lifetime

/-!
# What one step of the client can do

For each part of the client, what it is after a step, as a function of the state before
and the action. Every invariant of a run is derived from these equations; no later
module unfolds the programs of the actions.
-/

namespace Barbarossa
open Barbarossa.Base

namespace Session

/-! ### The dispatched lambdas -/

/-- A send never crashes the process, and what it throws derives from `std::exception`. -/
theorem sendOutcome_cases (net : Net) (s : Session) (m : Message) (b : Bool) :
    s.sendOutcome net m b = .value ⟨⟩ ∨
      ∃ e, s.sendOutcome net m b = .thrown e ∧ e.isException = true := by
  unfold sendOutcome route
  cases s.transport with
  | none => exact .inr ⟨_, rfl, rfl⟩
  | some t =>
    dsimp only
    by_cases hc : net.isConnected t
    · by_cases hs : b = true ∧ s.sessionId = 0
      · rw [if_neg (by simp [hc]), if_pos hs]
        exact .inr ⟨_, rfl, rfl⟩
      · rw [if_neg (by simp [hc]), if_neg hs]
        dsimp only
        split
        · cases net.ec with
          | none => exact .inl rfl
          | some text => exact .inr ⟨_, rfl, rfl⟩
        · exact .inr ⟨_, rfl, rfl⟩
    · rw [if_pos (by simp [hc])]
      exact .inr ⟨_, rfl, rfl⟩

/-- The session after the lambda of `Join`. -/
def afterHello (net : Net) (m : Message) (s : Session) : Session :=
  if s.sessionId ≠ 0 then
    { s with joined := s.joined.offer (.error (.logicError ErrorMessages.sessionAlreadyJoined)) }
  else match s.sendOutcome net m false with
    | .thrown e => { s with joined := s.joined.offer (.error e.copyException) }
    | _ => s

/-- What the lambda of `Join` hands to the websocket client. -/
def helloOutput (net : Net) (m : Message) (s : Session) : List Effect :=
  if s.sessionId ≠ 0 then [] else s.sendOutput net m false

/-- The session after the lambda of the heartbeat loop, up to the promise that wakes the loop. When
the pong promise was satisfied already, the lambda throws, and there is no rest of it. -/
def afterPing (net : Net) (m : Message) (s : Session) : Session :=
  match s.sendOutcome net m true with
  | .thrown e =>
    if e.isNetworkError then
      { s with
        pongReceived := s.pongReceived.offer (.ok false)
        ioContext :=
          if s.pongReceived.satisfied then s.ioContext else .pingFailed e :: s.ioContext }
    else s
  | _ => s

/-- The lambda of `Join` does what the equations say. -/
theorem joinDispatched_state (net : Net) (m : Message) (s : Session) :
    (joinDispatched net m s).state = s.afterHello net m ∧
      (joinDispatched net m s).output = s.helloOutput net m := by
  unfold joinDispatched afterHello helloOutput
  by_cases hz : s.sessionId = 0
  · have hrun := sendMessage_eq net m false s
    rcases s.sendOutcome_cases net m false with hv | ⟨e, he, hi⟩
    · rw [hv] at hrun
      simp [hz, hv, Exec.catching_value hrun]
    · rw [he] at hrun
      simp [hz, he, Exec.catching_thrown hrun, hi, setPromise_apply, joinedLens]
  · simp [hz, setPromise_apply, joinedLens]

/-- The lambda of the heartbeat loop does what the equations say. -/
theorem pingDispatched_state (net : Net) (m : Message) (s : Session) :
    (pingDispatched net m s).state = s.afterPing net m ∧
      (pingDispatched net m s).output = s.sendOutput net m true := by
  unfold pingDispatched afterPing
  have hrun := sendMessage_eq net m true s
  rcases s.sendOutcome_cases net m true with hv | ⟨e, he, -⟩
  · rw [hv] at hrun
    simp [hv, Exec.catching_value hrun]
  · rw [he] at hrun
    by_cases hn : e.isNetworkError
    · by_cases hp : s.pongReceived.satisfied <;>
        simp [he, Exec.catching_thrown hrun, hn, hp, setPromise_apply, pongReceivedLens]
    · simp [he, Exec.catching_thrown hrun, hn]

/-! ### The heartbeat loop -/

/-- The session after a step of the heartbeat loop. A step that throws leaves the thread where it
was, and the process is gone. -/
def afterHearbeat (s : Session) : Session :=
  match s.hearbeatThread with
  | none | some .ended => s
  | some .idle =>
    { s with
      ioContext := s.ioContext ++ [.ping ⟨[.integer 4, .object []]⟩]
      hearbeatThread := some .dispatched }
  | some .dispatched =>
    { s with
      pongReceived := { s.pongReceived with retrieved := true }
      hearbeatThread := some (if s.pongReceived.retrieved then .dispatched else .waiting) }
  | some .waiting =>
    { s with hearbeatThread := some (if s.pongReceived.satisfied then .judging else .expired) }
  | some .expired =>
    { s with
      pongReceived := s.pongReceived.offer (.ok false)
      hearbeatThread := some (if s.pongReceived.satisfied then .expired else .judging) }
  | some .judging =>
    match s.pongReceived.result with
    | none => s
    | some (.ok true) => { s with hearbeatThread := some .resetting }
    | some (.ok false) =>
      { s with
        leaved := s.leaved.offer (.error .timeoutError)
        hearbeatThread := some (if s.leaved.satisfied then .judging else .ended) }
    | some (.error e) =>
      if e.isNetworkError then
        { s with
          leaved := s.leaved.offer (.error e.copyNetworkError)
          hearbeatThread := some (if s.leaved.satisfied then .judging else .resetting) }
      else s
  | some .resetting => { s with pongReceived := {}, hearbeatThread := some .idle }

private theorem judgePong_state (s : Session) (r : Except Exception Bool)
    (ht : s.hearbeatThread = some .judging) (hr : s.pongReceived.result = some r) :
    (judgePong r s).state = s.afterHearbeat ∧ (judgePong r s).output = [] := by
  unfold judgePong afterHearbeat
  cases r with
  | ok alive =>
    cases alive with
    | true => simp [ht, hr, setHearbeat]
    | false =>
      by_cases hl : s.leaved.satisfied <;>
        simp [ht, hr, hl, setHearbeat, setPromise_apply, leavedLens]
  | error e =>
    by_cases hn : e.isNetworkError
    · by_cases hl : s.leaved.satisfied <;>
        simp [ht, hr, hn, hl, setHearbeat, setPromise_apply, leavedLens]
    · simp [ht, hr, hn]

/-- A step of the heartbeat loop does what the equations say. -/
theorem hearbeatController_state {s : Session} {x : SessionM PUnit}
    (hx : hearbeatController s = some x) :
    (Exec.noexcept Fault.uncaught x s).state = s.afterHearbeat ∧
      (Exec.noexcept Fault.uncaught x s).output = [] := by
  rw [Exec.noexcept_apply]
  dsimp only
  unfold hearbeatController at hx
  cases ht : s.hearbeatThread with
  | none => simp [ht] at hx
  | some point =>
    cases point with
    | judging =>
      simp only [ht] at hx
      obtain ⟨r, hr, rfl⟩ := Option.map_eq_some_iff.mp hx
      exact judgePong_state s r ht hr
    | ended => simp [ht] at hx
    | idle =>
      simp only [ht, Option.some.injEq] at hx
      subst hx
      simp [afterHearbeat, ht, pingMessage_eq, dispatch, setHearbeat]
    | dispatched =>
      simp only [ht, Option.some.injEq] at hx
      subst hx
      by_cases hp : s.pongReceived.retrieved <;>
        simp [afterHearbeat, ht, hp, getFuture, Promise.getFuture, pongReceivedLens, setHearbeat]
    | waiting =>
      simp only [ht, Option.some.injEq] at hx
      subst hx
      simp [afterHearbeat, ht, setHearbeat]
    | expired =>
      simp only [ht, Option.some.injEq] at hx
      subst hx
      by_cases hp : s.pongReceived.satisfied <;>
        simp [afterHearbeat, ht, hp, setPromise_apply, pongReceivedLens, setHearbeat]
    | resetting =>
      simp only [ht, Option.some.injEq] at hx
      subst hx
      simp [afterHearbeat, ht, setHearbeat]

end Session

namespace Client

/-- The session after an action. -/
def sessionAfter (c : Client) : Action → Session
  | .join realm =>
    { c.session with
      state := .establishing
      ioContext := c.session.ioContext ++ [.hello ⟨[.integer 1, .string realm]⟩] }
  | .joinFuture _ =>
    { c.session with joined := { c.session.joined with retrieved := true } }
  | .leave _ => { c.session with leaved := c.session.leaved.offer (.ok true) }
  | .listen => { c.session with leaved := { c.session.leaved with retrieved := true } }
  | .registerOperation operation fn =>
    { c.session with
      operations := fun name => if name = operation then some fn else c.session.operations name }
  | .runDispatched ec =>
    match c.session.ioContext with
    | [] => c.session
    | .hello m :: rest => { c.session with ioContext := rest }.afterHello (c.net ec) m
    | .ping m :: rest => { c.session with ioContext := rest }.afterPing (c.net ec) m
    | .pingFailed e :: rest =>
      { c.session with
        ioContext := rest
        leaved := c.session.leaved.offer (.error e.copyNetworkError) }
  | .message _ m _ => c.session.after m.received
  | .attach t =>
    if (c.transports t).handler = none ∧ c.session.transport = none then
      { c.session with transport := some t }
    else c.session
  | .detach t =>
    if (c.transports t).handler = none then c.session else { c.session with transport := none }
  | .hearbeat => c.session.afterHearbeat
  | .hearbeatWoken => { c.session with hearbeatThread := some .ended }
  | .joinReady _ | .joinTimeout _ | .listenReady _ | .leaveDisconnect _ | .leaveJoined
  | .transport _ _ => c.session

/-- The calls of `Join` after an action. -/
def joinsAfter (c : Client) : Action → List JoinCall
  | .join _ => c.joins ++ [.dispatched]
  | .joinFuture i =>
    c.joins.set i (if c.session.joined.retrieved then
      .finished (.error (.futureError .futureAlreadyRetrieved)) else .waiting)
  | .joinReady i =>
    match c.session.joined.result with
    | some r => c.joins.set i (.finished r)
    | none => c.joins
  | .joinTimeout i => c.joins.set i (.finished (.error .timeoutError))
  | _ => c.joins

/-- The calls of `Listen` after an action. -/
def listensAfter (c : Client) : Action → List ListenCall
  | .listen =>
    c.listens ++ [if c.session.leaved.retrieved then
      .finished (.error (.futureError .futureAlreadyRetrieved)) else .waiting]
  | .listenReady i =>
    match c.session.leaved.result with
    | some r => c.listens.set i (.finished (r.map fun _ => ⟨⟩))
    | none => c.listens
  | _ => c.listens

/-- The call of `Leave` after an action. -/
def leavesAfter (c : Client) : Action → Option LeaveCall
  | .leave worker => if c.session.leaved.satisfied then c.leaves else some (.leaving worker)
  | .leaveDisconnect close =>
    match c.leaves, c.session.transport with
    | some (.leaving worker), some t =>
      some (if (c.transports t).waits (callerOn worker t) close then .disconnecting t
        else .finished)
    | _, _ => some .finished
  | .leaveJoined => some .finished
  | _ => c.leaves

/-- What an action gives out. -/
def outputAfter (c : Client) : Action → List Effect
  | .runDispatched ec =>
    match c.session.ioContext with
    | [] => []
    | .hello m :: rest => { c.session with ioContext := rest }.helloOutput (c.net ec) m
    | .ping m :: rest => { c.session with ioContext := rest }.sendOutput (c.net ec) m true
    | .pingFailed _ :: _ => []
  | .message _ m ec => c.session.onMessageOutput (c.net ec) m.received
  | _ => []

/-- When an action is enabled, apart from the parts that only concern a transport. -/
def Enabled (c : Client) : Action → Prop
  | .joinFuture i => c.joins[i]? = some .dispatched
  | .joinReady i => c.joins[i]? = some .waiting ∧ c.session.joined.offers ≠ []
  | .joinTimeout i => c.joins[i]? = some .waiting ∧ c.session.joined.offers = []
  | .leaveDisconnect _ => ∃ worker, c.leaves = some (.leaving worker)
  | .leaveJoined =>
    ∃ t, c.leaves = some (.disconnecting t) ∧ (c.transports t).disconnecting = false
  | .listenReady i => c.listens[i]? = some .waiting ∧ c.session.leaved.offers ≠ []
  | .runDispatched _ => c.session.ioContext ≠ []
  | .message t _ _ => (c.transports t).handler = some self
  | .hearbeat =>
    match c.session.hearbeatThread with
    | none | some .ended => False
    | some .judging => c.session.pongReceived.offers ≠ []
    | some _ => True
  | .hearbeatWoken => c.session.hearbeatThread = some .idle
  | _ => True

end Client

namespace WebSocketTransport

private theorem silent_joinThread (caller : Caller) : Exec.Silent (joinThread caller) :=
  .bind Exec.silent_get fun _ => .ite (Exec.silent_crash _) (.ite (Exec.silent_crash _)
    (Exec.silent_pure _))

private theorem silent_setConnected (r : Except Exception PUnit) :
    Exec.Silent (Exec.zoom connectedLens
      (Promise.setResult (.futureError .promiseAlreadySatisfied) r) : TransportM PUnit) :=
  .zoom fun _ => rfl

/-- `Disconnect` gives out nothing to the other parties of the model. -/
theorem silent_disconnect (caller : Caller) (close : Option Exception) :
    Exec.Silent (disconnect caller close) := by
  refine .bind Exec.silent_get fun _ => .ite (Exec.silent_throw _) (.noexcept ?_)
  refine .bind Exec.silent_get fun _ => .ite (Exec.silent_pure _) ?_
  cases close with
  | some e => exact Exec.silent_throw e
  | none => exact .bind (silent_joinThread caller) fun _ => Exec.silent_modify _

private theorem silent_releaseThread : Exec.Silent releaseThread :=
  .bind Exec.silent_get fun _ => .ite (Exec.silent_crash _) (Exec.silent_modify _)

/-- No action of a transport gives out anything to the other parties of the model. -/
theorem silent_act {t : WebSocketTransport} {a : TransportAction} {x : TransportM PUnit}
    (hx : t.act a = some x) : Exec.Silent x := by
  cases a with
  | onClientOpen =>
    obtain ⟨-, rfl⟩ := guard_eq_some hx
    exact .bind (Exec.silent_modify _) fun _ => silent_setConnected _
  | onClientClose =>
    obtain ⟨-, rfl⟩ := guard_eq_some hx
    exact Exec.silent_modify _
  | onClientFail =>
    obtain ⟨-, rfl⟩ := guard_eq_some hx
    exact .bind Exec.silent_get fun _ => .ite
      (.bind (silent_setConnected _) fun _ => Exec.silent_modify _) (Exec.silent_modify _)
  | onClientFailed =>
    obtain ⟨-, rfl⟩ := guard_eq_some hx
    exact Exec.silent_modify _
  | connect ec =>
    obtain ⟨-, rfl⟩ := guard_eq_some hx
    refine .bind Exec.silent_get fun _ => .ite (Exec.silent_throw _) ?_
    cases ec with
    | some text => exact Exec.silent_throw _
    | none => exact Exec.silent_modify _
  | connectFuture i =>
    simp only [act] at hx
    split at hx
    · cases hx
      exact .catching (.bind (.zoom fun _ => rfl) fun _ => Exec.silent_modify _)
        fun _ => Exec.silent_modify _
    · cases hx
  | connectReady i =>
    simp only [act] at hx
    split at hx
    · cases hx
      exact Exec.silent_modify _
    · cases hx
  | disconnect caller close =>
    obtain ⟨-, rfl⟩ := guard_eq_some hx
    exact silent_disconnect caller close
  | disconnectJoined | workerExit =>
    obtain ⟨-, rfl⟩ := guard_eq_some hx
    exact Exec.silent_modify _
  | destroy caller =>
    obtain ⟨-, rfl⟩ := guard_eq_some hx
    exact .bind Exec.silent_get fun _ =>
      .ite (.bind (silent_joinThread caller) fun _ => Exec.silent_modify _) silent_releaseThread
  | destroyJoined =>
    obtain ⟨-, rfl⟩ := guard_eq_some hx
    exact .bind (Exec.silent_modify _) fun _ => silent_releaseThread

end WebSocketTransport

namespace Client

/-- What one step does to the session, its callers and the outside, as far as they are not the
transports' own business. -/
structure Stepped (c : Client) (a : Action) (x : ClientM PUnit) : Prop where
  enabled : c.Enabled a
  session : (x c).state.session = c.sessionAfter a
  joins : (x c).state.joins = c.joinsAfter a
  listens : (x c).state.listens = c.listensAfter a
  leaves : (x c).state.leaves = c.leavesAfter a
  output : (x c).output = c.outputAfter a

private theorem offers_ne_nil_of_result {α : Type} {p : Promise Exception α}
    {r : Except Exception α} (h : p.result = some r) : p.offers ≠ [] := by
  intro he
  rw [Promise.result_eq_none.mpr he] at h
  cases h

private theorem clear_transport {s : Session} (h : s.transport = none) :
    s = { s with transport := none } := by
  cases s
  cases h
  rfl

/-- What taking the future of `joined_` leaves. -/
theorem joinFuture_apply (c : Client) (i : Nat) : joinFuture i c =
    ⟨.value ⟨⟩, { c with
      session := c.sessionAfter (.joinFuture i)
      joins := c.joinsAfter (.joinFuture i) }, []⟩ := by
  unfold joinFuture
  by_cases hr : c.session.joined.retrieved
  · have hx : (onSession (Session.getFuture Session.joinedLens) >>= fun _ => setJoin i .waiting) c =
        ⟨.thrown (.futureError .futureAlreadyRetrieved),
          { c with session := c.sessionAfter (.joinFuture i) }, []⟩ := by
      simp [onSession, sessionLens, Session.getFuture, Session.joinedLens, Promise.getFuture, hr,
        sessionAfter]
    rw [Exec.catching_thrown hx]
    simp [setJoin, joinsAfter, hr]
  · have hx : (onSession (Session.getFuture Session.joinedLens) >>= fun _ => setJoin i .waiting) c =
        ⟨.value ⟨⟩, { c with
          session := c.sessionAfter (.joinFuture i)
          joins := c.joins.set i .waiting }, []⟩ := by
      simp [onSession, sessionLens, Session.getFuture, Session.joinedLens, Promise.getFuture, hr,
        sessionAfter, setJoin]
    rw [Exec.catching_value hx]
    simp [joinsAfter, hr]

/-- What the call of `Listen` up to its wait leaves. -/
theorem listen_apply (c : Client) : listen c =
    ⟨.value ⟨⟩, { c with
      session := c.sessionAfter .listen
      listens := c.listensAfter .listen }, []⟩ := by
  unfold listen
  by_cases hr : c.session.leaved.retrieved
  · have hx : (onSession (Session.getFuture Session.leavedLens) >>= fun _ =>
        Exec.modify fun c => { c with listens := c.listens ++ [ListenCall.waiting] }) c =
        ⟨.thrown (.futureError .futureAlreadyRetrieved),
          { c with session := c.sessionAfter .listen }, []⟩ := by
      simp [onSession, sessionLens, Session.getFuture, Session.leavedLens, Promise.getFuture, hr,
        sessionAfter]
    rw [Exec.catching_thrown hx]
    simp [listensAfter, hr]
  · have hx : (onSession (Session.getFuture Session.leavedLens) >>= fun _ =>
        Exec.modify fun c => { c with listens := c.listens ++ [ListenCall.waiting] }) c =
        ⟨.value ⟨⟩, { c with
          session := c.sessionAfter .listen
          listens := c.listens ++ [.waiting] }, []⟩ := by
      simp [onSession, sessionLens, Session.getFuture, Session.leavedLens, Promise.getFuture, hr,
        sessionAfter]
    rw [Exec.catching_value hx]
    simp [listensAfter, hr]

private theorem stepped_leave (c : Client) (worker : Option TransportId) :
    c.Stepped (.leave worker) (leave worker) := by
  unfold leave Session.leave setLeave
  cases hl : c.session.leaved.satisfied <;> constructor <;>
    simp [Enabled, onSession, sessionLens, Session.setPromise_apply, Session.leavedLens, hl,
      sessionAfter, joinsAfter, listensAfter, leavesAfter, outputAfter]

/-- `Disconnect` ends normally exactly where it waits, or finds `done_` set. -/
theorem isValue_disconnect (caller : Caller) (close : Option Exception)
    (t : WebSocketTransport) :
    (WebSocketTransport.disconnect caller close t).outcome.isValue =
      (t.waits caller close || t.opened && t.done) := by
  rw [WebSocketTransport.disconnect_eq]
  unfold WebSocketTransport.waits
  cases t.opened <;> cases t.done <;> cases close <;> cases caller <;>
    cases t.disconnecting <;> cases t.joinable <;> rfl

private theorem stepped_leaveDisconnect {c : Client} {worker : Option TransportId}
    (hl : c.leaves = some (.leaving worker)) (close : Option Exception) :
    c.Stepped (.leaveDisconnect close) (leaveDisconnect worker close) := by
  unfold leaveDisconnect Session.leaveTransport setLeave
  cases ht : c.session.transport with
  | none =>
    constructor <;> simp [Enabled, hl, onSession, sessionLens, ht, sessionAfter, joinsAfter,
      listensAfter, leavesAfter, outputAfter]
  | some t =>
    have hsilent := WebSocketTransport.silent_disconnect (callerOn worker t) close (c.transports t)
    have hvalue := isValue_disconnect (callerOn worker t) close (c.transports t)
    generalize hrun : WebSocketTransport.disconnect (callerOn worker t) close (c.transports t) = r
      at hsilent hvalue
    obtain ⟨x, t', o⟩ := r
    dsimp only at hsilent
    subst hsilent
    cases x with
    | value =>
      -- `Disconnect` waits unless it finds `done_` set.
      cases hd : (c.transports t).done with
      | true =>
        have hw : (c.transports t).waits (callerOn worker t) close = false := by
          simp [WebSocketTransport.waits, hd]
        constructor <;> simp [Enabled, hl, onSession, sessionLens, onTransport, transportLens, ht,
          hrun, hd, hw, sessionAfter, joinsAfter, listensAfter, leavesAfter, outputAfter]
      | false =>
        have hw : (c.transports t).waits (callerOn worker t) close = true := by
          simpa [Outcome.isValue, hd] using hvalue
        constructor <;> simp [Enabled, hl, onSession, sessionLens, onTransport, transportLens, ht,
          hrun, hd, hw, sessionAfter, joinsAfter, listensAfter, leavesAfter, outputAfter]
    | _ =>
      have hw : (c.transports t).waits (callerOn worker t) close = false :=
        (Bool.or_eq_false_iff.mp hvalue.symm).1
      constructor <;> simp [Enabled, hl, onSession, sessionLens, onTransport, transportLens, ht,
        hrun, hw, sessionAfter, joinsAfter, listensAfter, leavesAfter, outputAfter]

private theorem stepped_runDispatched {c : Client} {d : Dispatched} {rest : List Dispatched}
    (hq : c.session.ioContext = d :: rest) (ec : Option Bytes) :
    c.Stepped (.runDispatched ec) (onSession (runDispatched (c.net ec) d rest)) := by
  cases d with
  | hello m =>
    have hd := Session.joinDispatched_state (c.net ec) m { c.session with ioContext := rest }
    constructor <;> simp [Enabled, onSession, sessionLens, runDispatched, sessionAfter, hq,
      hd.1, hd.2, joinsAfter, listensAfter, leavesAfter, outputAfter]
  | ping m =>
    have hd := Session.pingDispatched_state (c.net ec) m { c.session with ioContext := rest }
    constructor <;> simp [Enabled, onSession, sessionLens, runDispatched, sessionAfter, hq,
      hd.1, hd.2, joinsAfter, listensAfter, leavesAfter, outputAfter]
  | pingFailed e =>
    constructor <;> simp [Enabled, onSession, sessionLens, runDispatched, Session.pingFailed,
      Session.setPromise_apply, Session.leavedLens, sessionAfter, hq, joinsAfter, listensAfter,
      leavesAfter, outputAfter]

private theorem stepped_attach (c : Client) (t : TransportId) :
    c.Stepped (.attach t) (attach t) := by
  unfold attach WebSocketTransport.attach Session.onAttach
  cases hh : (c.transports t).handler <;> cases ht : c.session.transport <;>
    constructor <;> simp [Enabled, onTransport, transportLens, onSession, sessionLens, hh, ht,
      sessionAfter, joinsAfter, listensAfter, leavesAfter, outputAfter]

private theorem stepped_detach (c : Client) (t : TransportId) :
    c.Stepped (.detach t) (detach t) := by
  unfold detach WebSocketTransport.detach Session.onDetach WebSocketTransport.detached
  have hclear := @clear_transport c.session
  cases hh : (c.transports t).handler <;> cases ht : c.session.transport <;>
    constructor <;> simp [Enabled, onTransport, transportLens, onSession, sessionLens, hh, ht,
      sessionAfter, joinsAfter, listensAfter, leavesAfter, outputAfter]
  exact hclear ht

private theorem stepped_hearbeat {c : Client} {y : SessionM PUnit}
    (hy : Session.hearbeatController c.session = some y) :
    c.Stepped .hearbeat (onSession (Exec.noexcept Fault.uncaught y)) := by
  have hd := Session.hearbeatController_state hy
  refine ⟨?_, hd.1, rfl, rfl, rfl, hd.2⟩
  unfold Session.hearbeatController at hy
  unfold Enabled
  cases ht : c.session.hearbeatThread with
  | none => simp [ht] at hy
  | some point =>
    cases point with
    | ended => simp [ht] at hy
    | judging =>
      simp only [ht] at hy
      obtain ⟨r, hr, -⟩ := Option.map_eq_some_iff.mp hy
      exact offers_ne_nil_of_result hr
    | _ => trivial

/-- Every enabled step does what the equations say. -/
theorem act_stepped {c : Client} {a : Action} {x : ClientM PUnit} (hx : c.act a = some x) :
    c.Stepped a x := by
  cases a with
  | join realm =>
    cases hx
    constructor <;> simp [Enabled, join, onSession, sessionLens, Session.join,
      Session.helloMessage_eq, Session.ensureState, Session.dispatch, sessionAfter, joinsAfter,
      listensAfter, leavesAfter, outputAfter]
  | joinFuture i =>
    simp only [act] at hx
    split at hx
    · next hj =>
      cases hx
      constructor <;> simp [joinFuture_apply, Enabled, hj, listensAfter, leavesAfter, outputAfter]
    · cases hx
  | joinReady i =>
    simp only [act] at hx
    split at hx
    · next hj hr =>
      cases hx
      constructor <;> simp [Enabled, hj, offers_ne_nil_of_result hr, setJoin, sessionAfter,
        joinsAfter, hr, listensAfter, leavesAfter, outputAfter]
    · cases hx
  | joinTimeout i =>
    simp only [act] at hx
    split at hx
    · next hj hr =>
      cases hx
      constructor <;> simp [Enabled, hj, Promise.result_eq_none.mp hr, setJoin, sessionAfter,
        joinsAfter, listensAfter, leavesAfter, outputAfter]
    · cases hx
  | leave worker =>
    obtain ⟨-, rfl⟩ := guard_eq_some hx
    exact stepped_leave c worker
  | leaveDisconnect close =>
    simp only [act] at hx
    split at hx
    · next hl =>
      cases hx
      exact stepped_leaveDisconnect hl close
    · cases hx
  | leaveJoined =>
    simp only [act] at hx
    split at hx
    · next t hl =>
      obtain ⟨hw, hx⟩ := Option.ite_none_left_eq_some.mp hx
      cases hx
      exact ⟨⟨t, hl, by simpa using hw⟩, rfl, rfl, rfl, rfl, rfl⟩
    · cases hx
  | listen =>
    cases hx
    constructor <;> simp [listen_apply, Enabled, joinsAfter, leavesAfter, outputAfter]
  | listenReady i =>
    simp only [act] at hx
    split at hx
    · next hj hr =>
      cases hx
      constructor <;> simp [Enabled, hj, offers_ne_nil_of_result hr, setListen, sessionAfter,
        joinsAfter, hr, listensAfter, leavesAfter, outputAfter]
    · cases hx
  | registerOperation operation fn =>
    cases hx
    constructor <;> simp [Enabled, onSession, sessionLens, Session.registerOperation,
      sessionAfter, joinsAfter, listensAfter, leavesAfter, outputAfter]
  | runDispatched ec =>
    simp only [act] at hx
    split at hx
    · cases hx
    · next d rest hq =>
      cases hx
      exact stepped_runDispatched hq ec
  | message t m ec =>
    obtain ⟨hh, rfl⟩ := guard_eq_some hx
    constructor <;> simp [Enabled, hh, onSession, sessionLens, Session.onMessage_eq, sessionAfter,
      joinsAfter, listensAfter, leavesAfter, outputAfter]
  | attach t =>
    obtain ⟨-, rfl⟩ := guard_eq_some hx
    exact stepped_attach c t
  | detach t =>
    cases hx
    exact stepped_detach c t
  | transport t a =>
    obtain ⟨-, hx⟩ := Option.ite_none_right_eq_some.mp hx
    obtain ⟨y, hy, rfl⟩ := Option.map_eq_some_iff.mp hx
    exact ⟨trivial, rfl, rfl, rfl, rfl, WebSocketTransport.silent_act hy _⟩
  | hearbeat =>
    obtain ⟨y, hy, rfl⟩ := Option.map_eq_some_iff.mp hx
    exact stepped_hearbeat hy
  | hearbeatWoken =>
    obtain ⟨y, hy, rfl⟩ := Option.map_eq_some_iff.mp hx
    obtain ⟨ht, rfl⟩ := guard_eq_some hy
    exact ⟨ht, rfl, rfl, rfl, rfl, rfl⟩

/-- What is known of one step of a client process. -/
structure StepFacts (p : Process Client Fault) (a : Action)
    (o : Outcome Exception Fault PUnit × List Effect) (p' : Process Client Fault) : Prop where
  running : p.fault = none
  enabled : p.state.Enabled a
  session : p'.state.session = p.state.sessionAfter a
  joins : p'.state.joins = p.state.joinsAfter a
  listens : p'.state.listens = p.state.listensAfter a
  leaves : p'.state.leaves = p.state.leavesAfter a
  output : o.2 = p.state.outputAfter a
  fault : p'.fault = o.1.fault?

/-- The facts of an enabled step. -/
theorem step_facts {p p' : Process Client Fault} {a : Action}
    {o : Outcome Exception Fault PUnit × List Effect} (h : step p a = some (o, p')) :
    StepFacts p a o p' := by
  obtain ⟨hf, x, hx, rfl, hs, hfault⟩ := Process.step_eq_some h
  have hstep := act_stepped hx
  constructor
  · exact hf
  · exact hstep.enabled
  · rw [hs, hstep.session]
  · rw [hs, hstep.joins]
  · rw [hs, hstep.listens]
  · rw [hs, hstep.leaves]
  · exact hstep.output
  · exact hfault

/-- A message ends as its reading says. -/
theorem step_message {p p' : Process Client Fault} {t : TransportId} {m : Message}
    {ec : Option Bytes} {o : Outcome Exception Fault PUnit × List Effect}
    (h : step p (.message t m ec) = some (o, p')) :
    o.1 = p.state.session.onMessageOutcome (p.state.net ec) m.received := by
  obtain ⟨-, x, hx, rfl, -, -⟩ := Process.step_eq_some h
  obtain ⟨-, rfl⟩ := guard_eq_some hx
  simp [onSession, sessionLens, Session.onMessage_eq]

end Client

namespace Session

/-! ### What stays untouched -/

/-- The lambda of `Join` writes only `joined_`. -/
@[simp] theorem afterHello_frame (net : Net) (m : Message) (s : Session) :
    (s.afterHello net m).ioContext = s.ioContext ∧ (s.afterHello net m).state = s.state ∧
      (s.afterHello net m).sessionId = s.sessionId ∧
      (s.afterHello net m).transport = s.transport ∧ (s.afterHello net m).leaved = s.leaved ∧
      (s.afterHello net m).hearbeatThread = s.hearbeatThread ∧
      (s.afterHello net m).pongReceived = s.pongReceived ∧
      (s.afterHello net m).operations = s.operations := by
  unfold afterHello
  split
  · simp
  · split <;> simp

/-- The lambda of the heartbeat loop writes only `pong_received_`, and may leave its rest. -/
@[simp] theorem afterPing_frame (net : Net) (m : Message) (s : Session) :
    (s.afterPing net m).state = s.state ∧ (s.afterPing net m).sessionId = s.sessionId ∧
      (s.afterPing net m).transport = s.transport ∧ (s.afterPing net m).joined = s.joined ∧
      (s.afterPing net m).leaved = s.leaved ∧
      (s.afterPing net m).hearbeatThread = s.hearbeatThread ∧
      (s.afterPing net m).operations = s.operations := by
  unfold afterPing
  split
  · split <;> simp
  · simp

/-- The lambda of the heartbeat loop leaves the queue as it is, or its own rest in front of it. -/
theorem afterPing_ioContext (net : Net) (m : Message) (s : Session) :
    (s.afterPing net m).ioContext = s.ioContext ∨ ∃ e, e.isNetworkError = true ∧
      (s.afterPing net m).ioContext = .pingFailed e :: s.ioContext := by
  unfold afterPing
  split
  · split
    · next e _ hn =>
      by_cases hp : s.pongReceived.satisfied
      · exact .inl (by simp [hp])
      · exact .inr ⟨e, hn, by simp [hp]⟩
    · exact .inl rfl
  · exact .inl rfl

/-- The heartbeat thread leaves the handshake's members alone, and stays a thread. -/
@[simp] theorem afterHearbeat_frame (s : Session) :
    s.afterHearbeat.state = s.state ∧ s.afterHearbeat.sessionId = s.sessionId ∧
      s.afterHearbeat.transport = s.transport ∧ s.afterHearbeat.joined = s.joined ∧
      s.afterHearbeat.operations = s.operations ∧
      (s.afterHearbeat.hearbeatThread = none ↔ s.hearbeatThread = none) := by
  unfold afterHearbeat
  cases ht : s.hearbeatThread with
  | none => simp [ht]
  | some point =>
    cases point with
    | judging =>
      dsimp only
      split
      · simp [ht]
      · simp
      · simp
      · split <;> simp [ht]
    | ended => simp [ht]
    | _ => simp

/-- Only the end of the idle wait queues a lambda, the PING of the cycle. -/
theorem afterHearbeat_ioContext (s : Session) :
    s.afterHearbeat.ioContext =
      if s.hearbeatThread = some .idle then s.ioContext ++ [.ping ⟨[.integer 4, .object []]⟩]
      else s.ioContext := by
  unfold afterHearbeat
  cases ht : s.hearbeatThread with
  | none => simp
  | some point =>
    cases point with
    | judging =>
      dsimp only
      split
      · simp
      · simp
      · simp
      · split <;> simp
    | _ => simp

/-- A HELLO that was handed over leaves the session as it is. -/
theorem afterHello_of_value {net : Net} {m : Message} {s : Session} (hid : s.sessionId = 0)
    (hv : s.sendOutcome net m false = .value ⟨⟩) : s.afterHello net m = s := by
  simp only [afterHello, hid, ne_eq, not_true_eq_false, ite_false, hv]

/-- A HELLO that could not be sent offers the failure to `joined_`. -/
theorem afterHello_of_thrown {net : Net} {m : Message} {s : Session} {e : Exception}
    (hid : s.sessionId = 0) (he : s.sendOutcome net m false = .thrown e) :
    s.afterHello net m = { s with joined := s.joined.offer (.error e.copyException) } := by
  simp only [afterHello, hid, ne_eq, not_true_eq_false, ite_false, he]

/-- A message touches neither the queue, nor the transport, nor the operations. -/
@[simp] theorem after_frame (s : Session) (r : Received) :
    (s.after r).ioContext = s.ioContext ∧ (s.after r).transport = s.transport ∧
      (s.after r).operations = s.operations := by
  unfold after welcomed
  split
  · simp
  · split
    · split <;> simp
    · simp
  all_goals simp

/-- The result a message offers to `joined_`. -/
def joinOffer (s : Session) : Received → Option (Except Exception UInt32)
  | .welcome (.ok sessionId) =>
    if s.state = .establishing ∧ s.hearbeatThread = none then some (.ok sessionId) else none
  | .abort (.ok reason) => some (.error (.abortError reason))
  | _ => none

/-- Only a WELCOME that finds the session joining offers an id. -/
theorem joinOffer_eq_ok {s : Session} {r : Received} {sessionId : UInt32}
    (h : s.joinOffer r = some (.ok sessionId)) :
    r = .welcome (.ok sessionId) ∧ s.state = .establishing ∧ s.hearbeatThread = none := by
  cases r with
  | welcome id =>
    cases id with
    | error e => cases h
    | ok id =>
      simp only [joinOffer, Option.ite_none_right_eq_some, Option.some.injEq,
        Except.ok.injEq] at h
      obtain ⟨⟨hs, hn⟩, rfl⟩ := h
      exact ⟨rfl, hs, hn⟩
  | abort reason => cases reason <;> simp [joinOffer] at h
  | _ => cases h

/-- A message that offers nothing to `joined_` leaves it and the session id alone. -/
theorem after_of_no_offer {s : Session} {r : Received} (h : s.joinOffer r = none) :
    (s.after r).joined = s.joined ∧ (s.after r).sessionId = s.sessionId := by
  cases r with
  | welcome sessionId =>
    unfold after welcomed
    by_cases hs : s.state = .establishing
    · cases ht : s.hearbeatThread with
      | some point => simp [hs]
      | none =>
        cases sessionId with
        | error e => simp [hs]
        | ok sessionId => simp [joinOffer, hs, ht] at h
    · simp [hs]
  | abort reason =>
    cases reason with
    | error e => exact ⟨rfl, rfl⟩
    | ok reason => simp [joinOffer] at h
  | _ => exact ⟨rfl, rfl⟩

/-- What a message offers to `joined_` is appended to its offers. -/
theorem after_of_offer {s : Session} {r : Received} {x : Except Exception UInt32}
    (h : s.joinOffer r = some x) : (s.after r).joined = s.joined.offer x := by
  cases r with
  | welcome sessionId =>
    cases sessionId with
    | error e => simp [joinOffer] at h
    | ok sessionId =>
      simp only [joinOffer, Option.ite_none_right_eq_some, Option.some.injEq] at h
      obtain ⟨⟨hs, ht⟩, rfl⟩ := h
      simp only [after, hs, ite_true, welcomed, ht]
  | abort reason =>
    cases reason with
    | error e => simp [joinOffer] at h
    | ok reason =>
      simp only [joinOffer, Option.some.injEq] at h
      subst h
      rfl
  | _ => simp [joinOffer] at h

/-- The session id changes only with a WELCOME that is offered to `joined_`. -/
theorem sessionId_after (s : Session) (r : Received) :
    (s.after r).sessionId =
      match s.joinOffer r with
      | some (.ok sessionId) => sessionId
      | _ => s.sessionId := by
  cases r with
  | welcome sessionId =>
    unfold after welcomed joinOffer
    by_cases hs : s.state = .establishing
    · cases ht : s.hearbeatThread <;> cases sessionId <;> simp [hs]
    · cases sessionId <;> simp [hs]
  | abort reason => cases reason <;> rfl
  | _ => rfl

/-- A message other than a PONG leaves `pong_received_` alone, and at most starts the heartbeat. -/
theorem after_of_not_pong {s : Session} {r : Received} (h : r ≠ .pong) :
    (s.after r).pongReceived = s.pongReceived ∧
      ((s.after r).hearbeatThread = s.hearbeatThread ∨
        s.hearbeatThread = none ∧ (s.after r).hearbeatThread = some .idle) := by
  cases r with
  | pong => exact absurd rfl h
  | welcome sessionId =>
    unfold after welcomed
    by_cases hs : s.state = .establishing
    · cases ht : s.hearbeatThread with
      | some point => simp [hs]
      | none => cases sessionId <;> simp [hs]
    · simp [hs]
  | abort reason => cases reason <;> exact ⟨rfl, .inl rfl⟩
  | _ => exact ⟨rfl, .inl rfl⟩

/-- What a CALL hands over went through the guard of a send that needs a session, and is the ERROR
or a RESULT for its request id. -/
theorem send_mem_callOutput {net : Net} {s : Session} {r : CallRequest} {t : TransportId}
    {frame : List Json} {ec : Option Bytes} (h : .send t frame ec ∈ s.callOutput net r) :
    s.route net true = .ok t ∧
      (frame = errorFrame r.requestId ∨ ∃ result, frame = resultFrame r.requestId result) := by
  have hsend : ∀ m, .send t frame ec ∈ s.sendOutput net m true →
      s.route net true = .ok t ∧ frame = m.fields := by
    intro m hm
    obtain ⟨u, hr, -, he⟩ := mem_sendOutput.mp hm
    cases he
    exact ⟨hr, rfl⟩
  unfold callOutput at h
  cases ho : s.operations r.operation with
  | none =>
    rw [ho] at h
    obtain ⟨hr, he⟩ := hsend _ h
    exact ⟨hr, .inl he⟩
  | some fn =>
    rw [ho] at h
    rcases List.mem_cons.mp h with he | h
    · cases he
    · split at h
      · cases h
      · split at h
        · obtain ⟨hr, he⟩ := hsend _ h
          exact ⟨hr, .inr ⟨_, he⟩⟩
        · cases h

end Session

namespace Client

/-- Every frame a step hands over went through the guard of `SendMessage`, and the one that needs
no session is a HELLO on its way out. -/
theorem route_of_send_mem {c : Client} {a : Action} {t : TransportId} {frame : List Json}
    {ec : Option Bytes} (h : .send t frame ec ∈ c.outputAfter a) :
    (∃ m, .hello m ∈ c.session.ioContext ∧ frame = m.fields ∧
      c.session.route (c.net ec) false = .ok t) ∨ c.session.route (c.net ec) true = .ok t := by
  cases a with
  | runDispatched ec' =>
    simp only [outputAfter] at h
    cases hq : c.session.ioContext with
    | nil =>
      rw [hq] at h
      cases h
    | cons d rest =>
      rw [hq] at h
      cases d with
      | hello m =>
        left
        refine ⟨m, List.mem_cons_self, ?_⟩
        dsimp only at h
        unfold Session.helloOutput at h
        split at h
        · cases h
        · obtain ⟨u, hr, -, he⟩ := Session.mem_sendOutput.mp h
          cases he
          exact ⟨rfl, hr⟩
      | ping m =>
        right
        obtain ⟨u, hr, -, he⟩ := Session.mem_sendOutput.mp h
        cases he
        exact hr
      | pingFailed e => cases h
  | message u m ec' =>
    right
    have h : .send t frame ec ∈ c.session.onMessageOutput (c.net ec') m.received := h
    unfold Session.onMessageOutput at h
    split at h
    · -- The guard does not look at the client's answer.
      have hr : c.session.route (c.net ec') true = .ok t := (Session.send_mem_callOutput h).1
      exact hr
    · cases h
  | _ => cases h

/-- Every frame a step hands over is a HELLO on its way out, or goes to the attached transport of
a session with an id. -/
theorem send_mem_outputAfter {c : Client} {a : Action} {t : TransportId} {frame : List Json}
    {ec : Option Bytes} (h : .send t frame ec ∈ c.outputAfter a) :
    (∃ m, .hello m ∈ c.session.ioContext ∧ frame = m.fields) ∨
      c.session.transport = some t ∧ c.session.sessionId ≠ 0 := by
  rcases route_of_send_mem h with ⟨m, hm, he, -⟩ | hr
  · exact .inl ⟨m, hm, he⟩
  · have hroute := Session.route_eq_ok.mp hr
    exact .inr ⟨hroute.1, hroute.2.2 rfl⟩

/-- A lambda with a message that `Join` or the heartbeat loop built, or the rest of one. -/
def Built : Dispatched → Prop
  | .hello m => ∃ realm, m = ⟨[.integer 1, .string realm]⟩
  | .ping m => m = ⟨[.integer 4, .object []]⟩
  | .pingFailed e => e.isNetworkError = true

/-- Every lambda that waits after a step waited before, or was just built. -/
theorem mem_ioContext_sessionAfter {c : Client} {a : Action} {d : Dispatched}
    (hd : d ∈ (c.sessionAfter a).ioContext) : d ∈ c.session.ioContext ∨ Built d := by
  cases a with
  | join realm =>
    simp only [sessionAfter, List.mem_append, List.mem_singleton] at hd
    rcases hd with hd | rfl
    · exact .inl hd
    · exact .inr ⟨realm, rfl⟩
  | runDispatched ec =>
    simp only [sessionAfter] at hd
    split at hd
    · exact .inl hd
    · next hq =>
      left
      rw [hq]
      exact List.mem_cons_of_mem _ (by simpa using hd)
    · next m rest hq =>
      rcases Session.afterPing_ioContext (c.net ec) m { c.session with ioContext := rest } with
        hsame | ⟨e, hn, hrest⟩
      · rw [hsame] at hd
        exact .inl (by rw [hq]; exact List.mem_cons_of_mem _ hd)
      · rw [hrest] at hd
        rcases List.mem_cons.mp hd with rfl | hd
        · exact .inr hn
        · exact .inl (by rw [hq]; exact List.mem_cons_of_mem _ hd)
    · next hq =>
      left
      rw [hq]
      exact List.mem_cons_of_mem _ hd
  | message t m ec =>
    left
    simpa [sessionAfter] using hd
  | attach t | detach t =>
    left
    simp only [sessionAfter] at hd
    split at hd <;> exact hd
  | hearbeat =>
    simp only [sessionAfter, Session.afterHearbeat_ioContext] at hd
    split at hd
    · rw [List.mem_append, List.mem_singleton] at hd
      rcases hd with hd | rfl
      · exact .inl hd
      · exact .inr rfl
    · exact .inl hd
  | _ => exact .inl hd

/-- The io_context holds only lambdas that `Join` or the heartbeat loop built. -/
theorem built_of_mem_ioContext {h : ClientHistory} {p : Process Client Fault} (hr : ClientRun h p) :
    ∀ d ∈ p.state.session.ioContext, Built d := by
  refine hr.invariant (fun _ p => ∀ d ∈ p.state.session.ioContext, Built d) ?_ ?_
  · exact List.forall_mem_nil _
  · intro h p a o p' ih hs d hd
    rw [(step_facts hs).session] at hd
    rcases mem_ioContext_sessionAfter hd with hd | hd
    · exact ih d hd
    · exact hd

/-- The rest of a lambda waits nowhere but in front of the queue. -/
def RestsInFront (s : Session) : Prop := ∀ e, .pingFailed e ∉ s.ioContext.tail

private theorem restsInFront_append {q : List Dispatched} {d : Dispatched}
    (hq : ∀ e, .pingFailed e ∉ q.tail) (hd : ∀ e, d ≠ .pingFailed e) (e : Exception) :
    .pingFailed e ∉ (q ++ [d]).tail := by
  cases q with
  | nil => exact List.not_mem_nil
  | cons d' rest =>
    simp only [List.cons_append, List.tail_cons, List.mem_append, List.mem_singleton, not_or]
    exact ⟨hq e, fun he => hd e he.symm⟩

/-- The io thread goes on with the rest of a lambda before it takes another one. -/
theorem restsInFront_sessionAfter {c : Client} (hc : RestsInFront c.session) (a : Action) :
    RestsInFront (c.sessionAfter a) := by
  intro e
  cases a with
  | join realm => exact restsInFront_append hc (by simp) e
  | runDispatched ec =>
    have hrest : ∀ d rest, c.session.ioContext = d :: rest → .pingFailed e ∉ rest := by
      intro d rest hq
      simpa [hq] using hc e
    simp only [sessionAfter]
    split
    · exact hc e
    · next rest hq =>
      have hnot := hrest _ _ hq
      simpa using fun hmem => hnot (List.mem_of_mem_tail hmem)
    · next m rest hq =>
      have hnot := hrest _ _ hq
      rcases Session.afterPing_ioContext (c.net ec) m { c.session with ioContext := rest } with
        hsame | ⟨x, -, hfront⟩
      · rw [hsame]
        exact fun hmem => hnot (List.mem_of_mem_tail hmem)
      · rw [hfront]
        exact hnot
    · next hq => exact fun hmem => hrest _ _ hq (List.mem_of_mem_tail hmem)
  | message t m ec => simpa [sessionAfter] using hc e
  | attach t | detach t =>
    simp only [sessionAfter]
    split <;> exact hc e
  | hearbeat =>
    simp only [sessionAfter, Session.afterHearbeat_ioContext]
    split
    · exact restsInFront_append hc (by simp) e
    · exact hc e
  | _ => exact hc e

/-- In every run, the rest of a lambda waits nowhere but in front of the queue. -/
theorem restsInFront_of_run {h : ClientHistory} {p : Process Client Fault} (hr : ClientRun h p) :
    RestsInFront p.state.session := by
  refine hr.invariant (fun _ p => RestsInFront p.state.session) ?_ ?_
  · exact fun _ => List.not_mem_nil
  · intro h p a o p' hi hs
    rw [(step_facts hs).session]
    exact restsInFront_sessionAfter hi a

/-! ### What is offered to `joined_` -/

/-- The results an action offers to `joined_`. -/
def joinOffers (c : Client) : Action → List (Except Exception UInt32)
  | .message _ m _ => (c.session.joinOffer m.received).toList
  | .runDispatched ec =>
    match c.session.ioContext with
    | .hello m :: rest =>
      if c.session.sessionId ≠ 0 then [.error (.logicError ErrorMessages.sessionAlreadyJoined)]
      else match { c.session with ioContext := rest }.sendOutcome (c.net ec) m false with
      | .thrown e => [.error e.copyException]
      | _ => []
    | _ => []
  | _ => []

/-- Every offer to `joined_` stays, and an action adds its own. -/
theorem offers_sessionAfter (c : Client) (a : Action) :
    (c.sessionAfter a).joined.offers = c.session.joined.offers ++ c.joinOffers a := by
  cases a with
  | message t m ec =>
    simp only [sessionAfter, joinOffers]
    cases hx : c.session.joinOffer m.received with
    | none => simp [(Session.after_of_no_offer hx).1]
    | some x => simp [Session.after_of_offer hx]
  | runDispatched ec =>
    simp only [sessionAfter, joinOffers]
    cases hq : c.session.ioContext with
    | nil => simp
    | cons d rest =>
      cases d with
      | ping m | pingFailed e => simp
      | hello m =>
        dsimp only
        unfold Session.afterHello
        by_cases hid : c.session.sessionId = 0
        · simp only [hid, ne_eq, not_true_eq_false, ite_false]
          split <;> simp
        · simp [hid]
  | attach t | detach t =>
    simp only [sessionAfter, joinOffers, List.append_nil]
    split <;> rfl
  | _ => simp [sessionAfter, joinOffers]

/-- The only id that is offered is the one of a WELCOME that finds the session joining, and it
becomes the session's. -/
theorem ok_mem_joinOffers {c : Client} {a : Action} {sessionId : UInt32}
    (h : .ok sessionId ∈ c.joinOffers a) : ∃ t m ec, a = .message t m ec ∧
      m.received = .welcome (.ok sessionId) ∧ c.session.state = .establishing ∧
      c.session.hearbeatThread = none ∧ (c.sessionAfter a).sessionId = sessionId := by
  cases a with
  | message t m ec =>
    have hx : c.session.joinOffer m.received = some (.ok sessionId) := by
      simpa [joinOffers] using h
    have hid := c.session.sessionId_after m.received
    rw [hx] at hid
    obtain ⟨hr, hs, hn⟩ := Session.joinOffer_eq_ok hx
    exact ⟨t, m, ec, rfl, hr, hs, hn, hid⟩
  | runDispatched ec =>
    simp only [joinOffers] at h
    split at h
    · split at h
      · simp at h
      · split at h <;> simp at h
    · cases h
  | _ => cases h

end Client
end Barbarossa
