import Barbarossa.Client.Steps

/-!
# How one step of the client ends

The endings of the steps that satisfy `pong_received_` or `leaved_`: the two parts of the
lambda of the heartbeat loop, the loop itself and `Leave`. An exception that leaves the
heartbeat thread ends the process.
-/

namespace Barbarossa
open Barbarossa.Base

/-- What `set_value` and `set_exception` throw on a satisfied promise. -/
def alreadySatisfied : Exception := .futureError .promiseAlreadySatisfied

namespace Session

/-- How the lambda of the heartbeat loop ends, or how it comes to the promise that wakes the
loop. -/
def pingOutcome (net : Net) (m : Message) (s : Session) : Outcome Exception Fault PUnit :=
  match s.sendOutcome net m true with
  | .thrown e =>
    if e.isNetworkError then
      if s.pongReceived.satisfied then .thrown alreadySatisfied else .value ⟨⟩
    else .thrown e
  | x => x

/-- How a step that satisfies `leaved_` ends. -/
def leavedOutcome (s : Session) : Outcome Exception Fault PUnit :=
  if s.leaved.satisfied then .thrown alreadySatisfied else .value ⟨⟩

/-- How the lambda of `Join` ends. -/
def helloOutcome (net : Net) (m : Message) (s : Session) : Outcome Exception Fault PUnit :=
  if s.sessionId ≠ 0 then
    if s.joined.satisfied then .thrown alreadySatisfied else .value ⟨⟩
  else match s.sendOutcome net m false with
  | .thrown _ => if s.joined.satisfied then .thrown alreadySatisfied else .value ⟨⟩
  | x => x

/-- How a step of the heartbeat loop ends. -/
def hearbeatOutcome (s : Session) : Outcome Exception Fault PUnit :=
  match s.hearbeatThread with
  | some .dispatched =>
    if s.pongReceived.retrieved then .crashed (.uncaught (.futureError .futureAlreadyRetrieved))
    else .value ⟨⟩
  | some .expired =>
    if s.pongReceived.satisfied then .crashed (.uncaught alreadySatisfied) else .value ⟨⟩
  | some .judging =>
    match s.pongReceived.result with
    | some (.ok false) =>
      if s.leaved.satisfied then .crashed (.uncaught alreadySatisfied) else .value ⟨⟩
    | some (.error e) =>
      if e.isNetworkError then
        if s.leaved.satisfied then .crashed (.uncaught alreadySatisfied) else .value ⟨⟩
      else .crashed (.uncaught e)
    | _ => .value ⟨⟩
  | _ => .value ⟨⟩

/-- The `NetworkError` of a PING that could not be sent. -/
def pingError (net : Net) (m : Message) (s : Session) : Option Exception :=
  match s.sendOutcome net m true with
  | .thrown e => if e.isNetworkError then some e else none
  | _ => none

/-- A PING that could not be sent makes the lambda throw the error of a satisfied promise exactly
when `pong_received_` is satisfied. -/
theorem pingOutcome_of_pingError {net : Net} {m : Message} {s : Session}
    (h : (s.pingError net m).isSome = true) : s.pingOutcome net m =
      if s.pongReceived.satisfied then .thrown alreadySatisfied else .value ⟨⟩ := by
  unfold pingError at h
  unfold pingOutcome
  rcases s.sendOutcome_cases net m true with hv | ⟨e, he, -⟩
  · simp [hv] at h
  · by_cases hn : e.isNetworkError
    · simp [he, hn]
    · simp [he, hn] at h

/-- A PING that could not be sent offers false to `pong_received_`. -/
theorem pongReceived_afterPing (net : Net) (m : Message) (s : Session) :
    (s.afterPing net m).pongReceived =
      s.pongReceived.offerAll ((s.pingError net m).map fun _ => .ok false).toList := by
  unfold afterPing pingError
  rcases s.sendOutcome_cases net m true with hv | ⟨e, he, -⟩
  · simp [hv]
  · by_cases hn : e.isNetworkError
    · by_cases hp : s.pongReceived.satisfied <;> simp [he, hn, hp]
    · simp [he, hn]

/-- A PING that could not be sent leaves the rest of the lambda in front of the queue, unless
`pong_received_` was satisfied. -/
theorem ioContext_afterPing (net : Net) (m : Message) (s : Session) :
    (s.afterPing net m).ioContext =
      if s.pongReceived.satisfied then s.ioContext
      else ((s.pingError net m).map .pingFailed).toList ++ s.ioContext := by
  unfold afterPing pingError
  rcases s.sendOutcome_cases net m true with hv | ⟨e, he, -⟩
  · simp [hv]
  · by_cases hn : e.isNetworkError
    · by_cases hp : s.pongReceived.satisfied <;> simp [he, hn, hp]
    · simp [he, hn]

/-- How the lambda of `Join` ends. -/
theorem joinDispatched_outcome (net : Net) (m : Message) (s : Session) :
    (joinDispatched net m s).outcome = s.helloOutcome net m := by
  unfold joinDispatched helloOutcome
  by_cases hz : s.sessionId = 0
  · have hrun := sendMessage_eq net m false s
    rcases s.sendOutcome_cases net m false with hv | ⟨e, he, hi⟩
    · rw [hv] at hrun
      simp [hz, hv, Exec.catching_value hrun]
    · rw [he] at hrun
      simp [hz, he, Exec.catching_thrown hrun, hi, setPromise_apply, joinedLens,
        alreadySatisfied]
  · simp [hz, setPromise_apply, joinedLens, alreadySatisfied]

/-- The lambda of `Join` does not end the process. -/
theorem fault?_helloOutcome (net : Net) (m : Message) (s : Session) :
    (s.helloOutcome net m).fault? = none := by
  unfold helloOutcome
  rcases s.sendOutcome_cases net m false with hv | ⟨e, he, -⟩
  · rw [hv]
    split
    · split <;> rfl
    · rfl
  · rw [he]
    split
    · split <;> rfl
    · dsimp only
      split <;> rfl

/-- The lambda of the heartbeat loop does not end the process. -/
theorem fault?_pingOutcome (net : Net) (m : Message) (s : Session) :
    (s.pingOutcome net m).fault? = none := by
  unfold pingOutcome
  rcases s.sendOutcome_cases net m true with hv | ⟨e, he, -⟩
  · rw [hv]
    rfl
  · rw [he]
    dsimp only
    split
    · split <;> rfl
    · rfl

/-- How the lambda of the heartbeat loop ends. -/
theorem pingDispatched_outcome (net : Net) (m : Message) (s : Session) :
    (pingDispatched net m s).outcome = s.pingOutcome net m := by
  unfold pingDispatched pingOutcome
  have hrun := sendMessage_eq net m true s
  rcases s.sendOutcome_cases net m true with hv | ⟨e, he, -⟩
  · rw [hv] at hrun
    simp [hv, Exec.catching_value hrun]
  · rw [he] at hrun
    by_cases hn : e.isNetworkError
    · by_cases hp : s.pongReceived.satisfied <;>
        simp [he, Exec.catching_thrown hrun, hn, hp, setPromise_apply, pongReceivedLens,
          alreadySatisfied]
    · simp [he, Exec.catching_thrown hrun, hn]

/-- How a step of the heartbeat loop ends. -/
theorem hearbeatController_outcome {s : Session} {x : SessionM PUnit}
    (hx : hearbeatController s = some x) :
    (Exec.noexcept Fault.uncaught x s).outcome = s.hearbeatOutcome := by
  rw [Exec.noexcept_apply]
  dsimp only
  unfold hearbeatController at hx
  unfold hearbeatOutcome
  cases ht : s.hearbeatThread with
  | none => simp [ht] at hx
  | some point =>
    cases point with
    | ended => simp [ht] at hx
    | judging =>
      simp only [ht] at hx
      obtain ⟨r, hr, rfl⟩ := Option.map_eq_some_iff.mp hx
      unfold judgePong
      cases r with
      | ok alive =>
        cases alive with
        | true => simp [hr, setHearbeat]
        | false =>
          by_cases hl : s.leaved.satisfied <;>
            simp [hr, hl, setHearbeat, setPromise_apply, leavedLens, alreadySatisfied]
      | error e =>
        by_cases hn : e.isNetworkError
        · by_cases hl : s.leaved.satisfied <;>
            simp [hr, hn, hl, setHearbeat, setPromise_apply, leavedLens, alreadySatisfied]
        · simp [hr, hn]
    | idle =>
      simp only [ht, Option.some.injEq] at hx
      subst hx
      simp [pingMessage_eq, dispatch, setHearbeat]
    | dispatched =>
      simp only [ht, Option.some.injEq] at hx
      subst hx
      by_cases hp : s.pongReceived.retrieved <;>
        simp [hp, getFuture, Promise.getFuture, pongReceivedLens, setHearbeat]
    | waiting =>
      simp only [ht, Option.some.injEq] at hx
      subst hx
      simp [setHearbeat]
    | expired =>
      simp only [ht, Option.some.injEq] at hx
      subst hx
      by_cases hp : s.pongReceived.satisfied <;>
        simp [hp, setPromise_apply, pongReceivedLens, setHearbeat, alreadySatisfied]
    | resetting =>
      simp only [ht, Option.some.injEq] at hx
      subst hx
      simp [setHearbeat]

/-- Offering a result to `leaved_` does not end the process. -/
theorem fault?_leavedOutcome (s : Session) : s.leavedOutcome.fault? = none := by
  unfold leavedOutcome
  split <;> rfl

/-- `Leave` throws on a satisfied `leaved_`. -/
theorem leave_outcome (s : Session) : (leave s).outcome = s.leavedOutcome := by
  simp [leave, setPromise_apply, leavedLens, leavedOutcome, alreadySatisfied]

/-- The rest of the lambda of the heartbeat loop throws on a satisfied `leaved_`. -/
theorem pingFailed_outcome (e : Exception) (s : Session) :
    (pingFailed e s).outcome = s.leavedOutcome := by
  simp [pingFailed, setPromise_apply, leavedLens, leavedOutcome, alreadySatisfied]

end Session

namespace Client

/-- The `NetworkError` of an action that fails to send a PING. -/
def pingError (c : Client) : Action → Option Exception
  | .runDispatched ec =>
    match c.session.ioContext with
    | .ping m :: rest => { c.session with ioContext := rest }.pingError (c.net ec) m
    | _ => none
  | _ => none

/-- The error of a failed PING that its lambda has not yet offered to `leaved_`. -/
def failure (c : Client) : Option (Except Exception Bool) :=
  match c.session.ioContext with
  | .pingFailed e :: _ => some (.error e.copyNetworkError)
  | _ => none

variable {p p' : Process Client Fault} {o : Outcome Exception Fault PUnit × List Effect}

/-- How the heartbeat thread's steps end. -/
theorem step_hearbeat (h : step p .hearbeat = some (o, p')) :
    o.1 = p.state.session.hearbeatOutcome := by
  obtain ⟨-, x, hx, rfl, -, -⟩ := Process.step_eq_some h
  obtain ⟨y, hy, rfl⟩ := Option.map_eq_some_iff.mp hx
  exact Session.hearbeatController_outcome hy

/-- How sending a HELLO ends. -/
theorem step_hello {ec : Option Bytes} {m : Message} {rest : List Dispatched}
    (h : step p (.runDispatched ec) = some (o, p'))
    (hq : p.state.session.ioContext = .hello m :: rest) :
    o.1 = { p.state.session with ioContext := rest }.helloOutcome (p.state.net ec) m := by
  obtain ⟨-, x, hx, rfl, -, -⟩ := Process.step_eq_some h
  simp only [act, hq, Option.some.injEq] at hx
  subst hx
  rw [← Session.joinDispatched_outcome]
  simp [onSession, sessionLens, runDispatched]

/-- How sending a PING ends. -/
theorem step_ping {ec : Option Bytes} {m : Message} {rest : List Dispatched}
    (h : step p (.runDispatched ec) = some (o, p'))
    (hq : p.state.session.ioContext = .ping m :: rest) :
    o.1 = { p.state.session with ioContext := rest }.pingOutcome (p.state.net ec) m := by
  obtain ⟨-, x, hx, rfl, -, -⟩ := Process.step_eq_some h
  simp only [act, hq, Option.some.injEq] at hx
  subst hx
  rw [← Session.pingDispatched_outcome]
  simp [onSession, sessionLens, runDispatched]

/-- How the rest of the lambda of a PING that failed ends. -/
theorem step_pingFailed {ec : Option Bytes} {e : Exception} {rest : List Dispatched}
    (h : step p (.runDispatched ec) = some (o, p'))
    (hq : p.state.session.ioContext = .pingFailed e :: rest) :
    o.1 = p.state.session.leavedOutcome := by
  obtain ⟨-, x, hx, rfl, -, -⟩ := Process.step_eq_some h
  simp only [act, hq, Option.some.injEq] at hx
  subst hx
  simp [onSession, sessionLens, runDispatched, Session.pingFailed_outcome, Session.leavedOutcome]

/-- How `Leave` ends, or how it comes to its promise. -/
theorem step_leave {worker : Option TransportId} (h : step p (.leave worker) = some (o, p')) :
    o.1 = p.state.session.leavedOutcome := by
  obtain ⟨-, x, hx, rfl, -, -⟩ := Process.step_eq_some h
  obtain ⟨-, rfl⟩ := guard_eq_some hx
  have houtcome := p.state.session.leave_outcome
  unfold Session.leavedOutcome at houtcome ⊢
  by_cases hl : p.state.session.leaved.satisfied
  · rw [if_pos hl] at houtcome
    simp [leave, onSession, sessionLens, Ran.andThen, houtcome, hl]
  · rw [if_neg hl] at houtcome
    simp [leave, onSession, sessionLens, Ran.andThen, houtcome, hl, setLeave]

/-- How the call of `Disconnect` in `Leave` ends. -/
def leaveOutcome (c : Client) (worker : Option TransportId) (close : Option Exception) :
    Outcome Exception Fault PUnit :=
  match c.session.transport with
  | none => .crashed .nullTransport
  | some t => (WebSocketTransport.disconnect (callerOn worker t) close (c.transports t)).outcome

/-- `Leave` ends as its call of `Disconnect` does, or comes to the wait there. -/
theorem leaveDisconnect_outcome (c : Client) (worker : Option TransportId)
    (close : Option Exception) :
    (leaveDisconnect worker close c).outcome = c.leaveOutcome worker close := by
  unfold leaveDisconnect leaveOutcome Session.leaveTransport setLeave
  cases ht : c.session.transport with
  | none => simp [onSession, sessionLens, ht]
  | some t =>
    generalize hrun : WebSocketTransport.disconnect (callerOn worker t) close (c.transports t) = r
    obtain ⟨x, t', o⟩ := r
    cases x with
    | value =>
      cases hd : (c.transports t).done <;>
        simp [onSession, sessionLens, onTransport, transportLens, ht, hrun, hd]
    | _ => simp [onSession, sessionLens, onTransport, transportLens, ht, hrun]

/-- How `Leave` goes on behind its promise. -/
theorem step_leaveDisconnect {close : Option Exception}
    (h : step p (.leaveDisconnect close) = some (o, p')) :
    ∃ worker, p.state.leaves = some (.leaving worker) ∧
      o.1 = p.state.leaveOutcome worker close := by
  obtain ⟨-, x, hx, rfl, -, -⟩ := Process.step_eq_some h
  simp only [act] at hx
  split at hx
  · next worker hl =>
    cases hx
    exact ⟨worker, hl, leaveDisconnect_outcome _ _ _⟩
  · cases hx

/-- A piece of a call of `Join`, `Listen` or `RegisterOperation`. -/
def isCallPiece : Action → Bool
  | .join _ | .joinFuture _ | .joinReady _ | .joinTimeout _ | .listen | .listenReady _
  | .registerOperation _ _ => true
  | _ => false

/-- The pieces of the waiting calls record what they end with and throw nothing themselves. -/
theorem outcome_of_isCallPiece {c : Client} {a : Action} {x : ClientM PUnit}
    (ha : isCallPiece a = true) (hx : c.act a = some x) : (x c).outcome = .value ⟨⟩ := by
  cases a with
  | join realm =>
    cases hx
    simp [join, onSession, Session.join, Session.helloMessage_eq, Session.ensureState,
      Session.dispatch]
  | joinFuture i =>
    simp only [act] at hx
    split at hx
    · cases hx
      rw [joinFuture_apply]
    · cases hx
  | joinReady i | joinTimeout i | listenReady i =>
    simp only [act] at hx
    split at hx
    · cases hx
      rfl
    · cases hx
  | listen =>
    cases hx
    rw [listen_apply]
  | registerOperation operation fn =>
    cases hx
    rfl
  | _ => cases ha

/-- A transport's own action runs on that transport. -/
theorem act_transport {c : Client} {t : TransportId} {b : TransportAction} {x : ClientM PUnit}
    (hx : c.act (.transport t b) = some x) : c.canRelease t b = true ∧
      c.workerFree t b = true ∧ ∃ y, (c.transports t).act b = some y ∧ x = onTransport t y := by
  obtain ⟨⟨hc, hw⟩, hx⟩ := Option.ite_none_right_eq_some.mp hx
  obtain ⟨y, hy, rfl⟩ := Option.map_eq_some_iff.mp hx
  exact ⟨hc, hw, y, hy, rfl⟩

/-! ### Steps that can be taken -/

/-- `Join` can be called at any time. -/
theorem exists_step_join (hf : p.fault = none) (realm : Bytes) :
    ∃ o p', step p (.join realm) = some (o, p') ∧ p'.fault = none := by
  refine ⟨_, _, Process.step_of_act hf rfl, ?_⟩
  simp [join, onSession, Session.join, Session.helloMessage_eq, Session.ensureState,
    Session.dispatch]

/-- A call of `Join` behind its dispatch goes on to its future. -/
theorem exists_step_joinFuture {i : Nat} (hf : p.fault = none)
    (hj : p.state.joins[i]? = some .dispatched) :
    ∃ o p', step p (.joinFuture i) = some (o, p') ∧ p'.fault = none := by
  have hx : act p.state (.joinFuture i) = some (joinFuture i) := by simp only [act, hj]
  refine ⟨_, _, Process.step_of_act hf hx, ?_⟩
  rw [joinFuture_apply]
  rfl

/-- A call of `Join` that waits finds an outcome. -/
theorem exists_step_joinReady {i : Nat} (hf : p.fault = none)
    (hj : p.state.joins[i]? = some .waiting) (hne : p.state.session.joined.offers ≠ []) :
    ∃ o p', step p (.joinReady i) = some (o, p') ∧ p'.fault = none := by
  cases hr : p.state.session.joined.result with
  | none => exact absurd (Promise.result_eq_none.mp hr) hne
  | some r =>
    have hx : act p.state (.joinReady i) = some (setJoin i (.finished r)) := by
      simp only [act, hj, hr]
    exact ⟨_, _, Process.step_of_act hf hx, rfl⟩

/-- A lambda that waits can be run. -/
theorem exists_step_runDispatched {d : Dispatched} {rest : List Dispatched} (hf : p.fault = none)
    (hq : p.state.session.ioContext = d :: rest) (ec : Option Bytes) :
    ∃ o p', step p (.runDispatched ec) = some (o, p') ∧ p'.fault = none := by
  have hx : act p.state (.runDispatched ec) =
      some (onSession (runDispatched (p.state.net ec) d rest)) := by
    simp only [act, hq]
  have hs : step p (.runDispatched ec) = some _ := Process.step_of_act hf hx
  refine ⟨_, _, hs, ?_⟩
  rw [(step_facts hs).fault]
  cases d with
  | hello m => rw [step_hello hs hq, Session.fault?_helloOutcome]
  | ping m => rw [step_ping hs hq, Session.fault?_pingOutcome]
  | pingFailed e => rw [step_pingFailed hs hq, Session.fault?_leavedOutcome]

end Client
end Barbarossa
