import Barbarossa.Transport.Retry

/-!
# The lifetime of a transport

The handler, the worker's thread object and the stage of a transport after each of its actions.
Together with the flags, the promise and the calls of `Connect` these are all parts of a transport,
so that no later module unfolds the programs of its actions.
-/

namespace Barbarossa
open Barbarossa.Base

namespace WebSocketTransport

/-- A call of `Disconnect` gets as far as its wait. -/
def waits (t : WebSocketTransport) (caller : Caller) (close : Option Exception) : Bool :=
  t.opened && !t.done && close.isNone && decide (caller = .other) && !t.disconnecting && t.joinable

/-- Whether a call of `Disconnect` waits after an action. -/
def disconnectingAfter (t : WebSocketTransport) : TransportAction → Bool
  | .disconnect caller close => t.disconnecting || t.waits caller close
  | .disconnectJoined => false
  | _ => t.disconnecting

/-- `thread_->joinable()` after an action. -/
def joinableAfter (t : WebSocketTransport) : TransportAction → Bool
  | .disconnectJoined | .destroyJoined => false
  | _ => t.joinable

/-- The stage after an action. -/
def stageAfter (t : WebSocketTransport) : TransportAction → Stage
  | .destroy caller =>
    if t.done then if t.joinable then t.stage else .destroyed
    else if caller = .worker ∨ t.disconnecting = true ∨ t.joinable = false then t.stage
    else .destroying
  | .destroyJoined => .destroyed
  | _ => t.stage

/-- What an action leaves of a transport, apart from its flags, its promise and its calls. -/
structure HasLifetime (t : WebSocketTransport) (handler : Option HandlerId)
    (joinable disconnecting : Bool) (stage : Stage) : Prop where
  handler : t.handler = handler
  joinable : t.joinable = joinable
  disconnecting : t.disconnecting = disconnecting
  stage : t.stage = stage

/-- `Disconnect` leaves a call that waits, or nothing. -/
theorem disconnect_lifetime (caller : Caller) (close : Option Exception) (t : WebSocketTransport) :
    (disconnect caller close t).state =
      { t with disconnecting := t.disconnecting || t.waits caller close } := by
  rw [disconnect_eq]
  unfold waits
  obtain ⟨opened, done, handler, connected, running, joinable, connects, disconnecting, failing,
    stage⟩ := t
  cases opened <;> cases done <;> cases close <;> cases caller <;> cases disconnecting <;>
    cases joinable <;> rfl

/-- The destructor leaves the stage that the equation says. -/
theorem destroy_lifetime (caller : Caller) (t : WebSocketTransport) :
    (destroy caller t).state = { t with stage := t.stageAfter (.destroy caller) } := by
  rw [destroy_eq]
  obtain ⟨opened, done, handler, connected, running, joinable, connects, disconnecting, failing,
    stage⟩ := t
  cases done <;> cases caller <;> cases disconnecting <;> cases joinable <;> rfl

/-- Every enabled action leaves the lifetime that the equations say. -/
theorem act_lifetime {t : WebSocketTransport} {a : TransportAction} {x : TransportM PUnit}
    (hx : t.act a = some x) :
    (x t).state.HasLifetime t.handler (t.joinableAfter a) (t.disconnectingAfter a)
      (t.stageAfter a) := by
  cases a with
  | onClientOpen =>
    obtain ⟨-, rfl⟩ := guard_eq_some hx
    unfold onClientOpen
    cases hc : t.connected.satisfied <;> constructor <;>
      simp [connectedLens, Promise.setResult, hc, joinableAfter, disconnectingAfter, stageAfter]
  | onClientClose | onClientFailed =>
    obtain ⟨-, rfl⟩ := guard_eq_some hx
    exact ⟨rfl, rfl, rfl, rfl⟩
  | onClientFail =>
    obtain ⟨-, rfl⟩ := guard_eq_some hx
    unfold onClientFail
    cases ho : t.opened <;> cases hc : t.connected.satisfied <;> constructor <;>
      simp [ho, hc, connectedLens, Promise.setResult, joinableAfter, disconnectingAfter,
        stageAfter]
  | connect ec =>
    obtain ⟨-, rfl⟩ := guard_eq_some hx
    unfold connect
    cases ho : t.opened <;> cases ec <;> constructor <;>
      simp [ho, joinableAfter, disconnectingAfter, stageAfter]
  | connectFuture i =>
    simp only [act] at hx
    split at hx
    · cases hx
      rw [connectFuture_eq]
      exact ⟨rfl, rfl, rfl, rfl⟩
    · cases hx
  | connectReady i =>
    simp only [act] at hx
    split at hx
    · cases hx
      exact ⟨rfl, rfl, rfl, rfl⟩
    · cases hx
  | disconnect caller close =>
    obtain ⟨-, rfl⟩ := guard_eq_some hx
    rw [disconnect_lifetime]
    exact ⟨rfl, rfl, rfl, rfl⟩
  | disconnectJoined =>
    obtain ⟨-, rfl⟩ := guard_eq_some hx
    exact ⟨rfl, rfl, rfl, rfl⟩
  | workerExit =>
    obtain ⟨-, rfl⟩ := guard_eq_some hx
    exact ⟨rfl, rfl, rfl, rfl⟩
  | destroy caller =>
    obtain ⟨-, rfl⟩ := guard_eq_some hx
    rw [destroy_lifetime]
    exact ⟨rfl, rfl, rfl, rfl⟩
  | destroyJoined =>
    obtain ⟨-, rfl⟩ := guard_eq_some hx
    rw [destroyJoined_eq]
    exact ⟨rfl, rfl, rfl, rfl⟩

/-- A transport after an action. -/
def after (t : WebSocketTransport) (a : TransportAction) : WebSocketTransport where
  opened := t.openedAfter a
  done := t.doneAfter a
  handler := t.handler
  connected := t.connectedAfter a
  running := t.runningAfter a
  joinable := t.joinableAfter a
  connects := t.connectsAfter a
  disconnecting := t.disconnectingAfter a
  failing := t.failingAfter a
  stage := t.stageAfter a

/-- Every enabled action leaves the transport that the equations say. -/
theorem act_after {t : WebSocketTransport} {a : TransportAction} {x : TransportM PUnit}
    (hx : t.act a = some x) : (x t).state = t.after a := by
  obtain ⟨hopened, hdone, -, hrunning, hfailing⟩ := (act_hasFlags hx).2
  obtain ⟨-, hconnected, hconnects⟩ := act_calls hx
  obtain ⟨hhandler, hjoinable, hdisconnecting, hstage⟩ := act_lifetime hx
  generalize (x t).state = t' at *
  obtain ⟨opened, done, handler, connected, running, joinable, connects, disconnecting, failing,
    stage⟩ := t'
  dsimp only at *
  subst hopened hdone hrunning hfailing hconnected hconnects hhandler hjoinable hdisconnecting
    hstage
  rfl

end WebSocketTransport
end Barbarossa
