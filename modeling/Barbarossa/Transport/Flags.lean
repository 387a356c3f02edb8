import Barbarossa.Transport.Worker

/-!
# The flags of a transport

`open_`, `done_`, `connected_` and the worker after each action, as functions of the state
before it. `Connect` and `Disconnect` test `open_` alone and `IsConnected` tests `done_` as
well, so the three views of the connection agree exactly while not both flags are set.
-/

namespace Barbarossa
open Barbarossa.Base

namespace WebSocketTransport

/-! ### What an action does to the flags -/

/-- `open_` after an action. -/
def openedAfter (t : WebSocketTransport) : TransportAction → Bool
  | .onClientOpen => true
  | .disconnectJoined => false
  | _ => t.opened

/-- `done_` after an action. The fail callback sets `connected_` first when the connection is not
open, and the flag only behind it. -/
def doneAfter (t : WebSocketTransport) : TransportAction → Bool
  | .onClientClose | .onClientFailed => true
  | .onClientFail => t.opened || t.done
  | _ => t.done

/-- Whether `connected_` is satisfied after an action. -/
def satisfiedAfter (t : WebSocketTransport) : TransportAction → Bool
  | .onClientOpen => true
  | .onClientFail => t.connected.satisfied || !t.opened
  | _ => t.connected.satisfied

/-- Whether the worker runs after an action. -/
def runningAfter (t : WebSocketTransport) : TransportAction → Bool
  | .workerExit => false
  | _ => t.running

/-- Whether the worker is in the fail callback after an action. A set `connected_` throws, and the
callback is over. -/
def failingAfter (t : WebSocketTransport) : TransportAction → Bool
  | .onClientFail => t.failing || !t.opened && !t.connected.satisfied
  | .onClientFailed => false
  | _ => t.failing

/-- A callback is on the worker, and a join returns when the worker has. -/
def WorkerAgrees (t : WebSocketTransport) : TransportAction → Prop
  | .onClientOpen | .onClientClose | .onClientFail | .workerExit => t.takesCallbacks = true
  | .onClientFailed => t.failing = true
  | .disconnectJoined => t.running = false
  | _ => True

/-- The flags after a program. -/
structure HasFlags (t : WebSocketTransport) (opened done satisfied running failing : Bool) :
    Prop where
  opened : t.opened = opened
  done : t.done = done
  satisfied : t.connected.satisfied = satisfied
  running : t.running = running
  failing : t.failing = failing

/-- The flags a transport has. -/
theorem hasFlags_self (t : WebSocketTransport) :
    t.HasFlags t.opened t.done t.connected.satisfied t.running t.failing :=
  ⟨rfl, rfl, rfl, rfl, rfl⟩

private theorem connect_hasFlags (ec : Option Bytes) (t : WebSocketTransport) :
    (connect ec t).state.HasFlags t.opened t.done t.connected.satisfied t.running t.failing := by
  unfold connect
  cases ho : t.opened with
  | true => simpa [ho] using t.hasFlags_self
  | false => cases ec <;> constructor <;> simp [ho]

/-- `Disconnect` up to its wait touches no flag. -/
theorem disconnect_hasFlags (caller : Caller) (close : Option Exception) (t : WebSocketTransport) :
    (disconnect caller close t).state.HasFlags t.opened t.done t.connected.satisfied t.running
      t.failing := by
  obtain ⟨waits, hstate, -⟩ := disconnect_state caller close t
  rw [hstate]
  exact ⟨rfl, rfl, rfl, rfl, rfl⟩

private theorem destroy_hasFlags (caller : Caller) (t : WebSocketTransport) :
    (destroy caller t).state.HasFlags t.opened t.done t.connected.satisfied t.running
      t.failing := by
  obtain ⟨stage, hstate⟩ := destroy_state caller t
  rw [hstate]
  exact ⟨rfl, rfl, rfl, rfl, rfl⟩

/-- Every enabled action leaves the flags that the equations say. -/
theorem act_hasFlags {t : WebSocketTransport} {a : TransportAction} {x : TransportM PUnit}
    (hx : t.act a = some x) : t.WorkerAgrees a ∧
      (x t).state.HasFlags (t.openedAfter a) (t.doneAfter a) (t.satisfiedAfter a)
        (t.runningAfter a) (t.failingAfter a) := by
  cases a with
  | onClientOpen =>
    obtain ⟨hg, rfl⟩ := guard_eq_some hx
    refine ⟨hg.1, ?_⟩
    unfold onClientOpen
    cases hc : t.connected.satisfied <;> constructor <;>
      simp [connectedLens, Promise.setResult, hc, openedAfter, doneAfter, satisfiedAfter,
        runningAfter, failingAfter]
  | onClientClose =>
    obtain ⟨hg, rfl⟩ := guard_eq_some hx
    exact ⟨hg.1, rfl, rfl, rfl, rfl, rfl⟩
  | onClientFail =>
    obtain ⟨hg, rfl⟩ := guard_eq_some hx
    refine ⟨hg.1, ?_⟩
    unfold onClientFail
    cases ho : t.opened <;> cases hc : t.connected.satisfied <;> constructor <;>
      simp [ho, hc, connectedLens, Promise.setResult, openedAfter, doneAfter, satisfiedAfter,
        runningAfter, failingAfter]
  | onClientFailed =>
    obtain ⟨hg, rfl⟩ := guard_eq_some hx
    exact ⟨hg, rfl, rfl, rfl, rfl, rfl⟩
  | connect ec =>
    obtain ⟨-, rfl⟩ := guard_eq_some hx
    exact ⟨trivial, connect_hasFlags ec t⟩
  | connectFuture i =>
    simp only [act] at hx
    split at hx
    · cases hx
      rw [connectFuture_eq]
      exact ⟨trivial, rfl, rfl, rfl, rfl, rfl⟩
    · cases hx
  | connectReady i =>
    simp only [act] at hx
    split at hx
    · cases hx
      exact ⟨trivial, rfl, rfl, rfl, rfl, rfl⟩
    · cases hx
  | disconnect caller close =>
    obtain ⟨-, rfl⟩ := guard_eq_some hx
    exact ⟨trivial, disconnect_hasFlags caller close t⟩
  | disconnectJoined =>
    obtain ⟨hg, rfl⟩ := guard_eq_some hx
    exact ⟨by simpa [WorkerAgrees] using hg.2, rfl, rfl, rfl, rfl, rfl⟩
  | workerExit =>
    obtain ⟨hg, rfl⟩ := guard_eq_some hx
    exact ⟨hg, rfl, rfl, rfl, rfl, rfl⟩
  | destroy caller =>
    obtain ⟨-, rfl⟩ := guard_eq_some hx
    exact ⟨trivial, destroy_hasFlags caller t⟩
  | destroyJoined =>
    obtain ⟨-, rfl⟩ := guard_eq_some hx
    rw [destroyJoined_eq]
    exact ⟨trivial, rfl, rfl, rfl, rfl, rfl⟩

/-! ### The three views of the connection -/

/-- `Connect` refuses. -/
def alreadyConnected : Outcome Exception Fault PUnit :=
  .thrown (.logicError ErrorMessages.transportAlreadyConnected)

/-- `Disconnect` refuses. -/
def alreadyDisconnected : Outcome Exception Fault PUnit :=
  .thrown (.logicError ErrorMessages.transportAlreadyDisconnected)

/-- `Connect` refuses exactly a connected transport, and `Disconnect` any other. -/
structure ViewsAgree (t : WebSocketTransport) : Prop where
  connect : ∀ ec, t.isConnected = true ↔ (connect ec t).outcome = alreadyConnected
  disconnect : ∀ caller close,
    t.isConnected = true ↔ (disconnect caller close t).outcome ≠ alreadyDisconnected

/-- All three views say that there is no connection. -/
structure Disconnected (t : WebSocketTransport) : Prop where
  isConnected : t.isConnected = false
  connect : ∀ ec, (connect ec t).outcome ≠ alreadyConnected
  disconnect : ∀ caller close, (disconnect caller close t).outcome = alreadyDisconnected

/-- `Connect` refuses exactly when `open_` is set. -/
theorem connect_refuses_iff (ec : Option Bytes) (t : WebSocketTransport) :
    (connect ec t).outcome = alreadyConnected ↔ t.opened = true := by
  unfold connect alreadyConnected
  cases ho : t.opened <;> cases ec <;> simp [ho]

/-- `Disconnect` refuses exactly when `open_` is not set. -/
theorem disconnect_refuses_iff (caller : Caller) (close : Option Exception)
    (t : WebSocketTransport) :
    (disconnect caller close t).outcome = alreadyDisconnected ↔ t.opened = false := by
  rw [disconnect_eq]
  cases ho : t.opened with
  | false => simp [alreadyDisconnected]
  | true =>
    simp only [Bool.true_eq_false, ite_false, iff_false]
    split
    · intro hf
      cases hf
    · split
      · intro hf
        cases hf
      · split
        · intro hf
          cases hf
        · split <;>
          · intro hf
            cases hf

/-- The views agree exactly when `done_` is not set on an open connection. -/
theorem viewsAgree_iff (t : WebSocketTransport) :
    t.ViewsAgree ↔ (t.opened = true → t.done = false) := by
  have hconnected : (t.isConnected = true ↔ t.opened = true) ↔
      (t.opened = true → t.done = false) := by
    unfold isConnected
    cases t.opened <;> cases t.done <;> simp
  rw [← hconnected]
  constructor
  · intro hv
    rw [hv.connect none, connect_refuses_iff]
  · intro ho
    constructor
    · intro ec
      rw [ho, connect_refuses_iff]
    · intro caller close
      rw [ho, Ne, disconnect_refuses_iff, Bool.not_eq_false]

/-- A transport whose `open_` is not set is disconnected in every view. -/
theorem disconnected_of_not_opened {t : WebSocketTransport} (ho : t.opened = false) :
    t.Disconnected := by
  constructor
  · simp [isConnected, ho]
  · intro ec
    rw [Ne, connect_refuses_iff, ho]
    simp
  · intro caller close
    rw [disconnect_refuses_iff, ho]

/-! ### Over whole runs -/

/-- A step that ends a call of `Disconnect` normally: its wait is over, or it did not wait. -/
def Returns (e : Entry (Process WebSocketTransport Fault) TransportAction
    (Outcome Exception Fault PUnit × List Effect)) : Prop :=
  match e.action with
  | .disconnect _ _ =>
    e.output.1 = .value ⟨⟩ ∧ e.after.state.disconnecting = e.before.state.disconnecting
  | .disconnectJoined => True
  | _ => False

/-- The views agree in every state, and no view takes a transport for connected when a
`Disconnect` has just returned. -/
structure TruthfulFlags (h : TransportHistory) (p : Process WebSocketTransport Fault) : Prop where
  agree : Always (fun p => p.state.ViewsAgree) h p
  returned : ∀ e ∈ h, Returns e → e.after.state.Disconnected

/-- Neither flag is set while the other is. -/
def KeepsViews (t : WebSocketTransport) : TransportAction → Prop
  | .onClientOpen => t.done = false
  | .onClientClose | .onClientFail | .onClientFailed => t.opened = false
  | _ => True

instance (t : WebSocketTransport) : (a : TransportAction) → Decidable (t.KeepsViews a)
  | .onClientOpen | .onClientClose | .onClientFail | .onClientFailed =>
    inferInstanceAs (Decidable (_ = _))
  | .connect _ | .connectFuture _ | .connectReady _ | .disconnect _ _ | .disconnectJoined
  | .workerExit | .destroy _ | .destroyJoined => isTrue trivial

variable {h : TransportHistory} {p p' : Process WebSocketTransport Fault} {a : TransportAction}
  {o : Outcome Exception Fault PUnit × List Effect}

/-- A step leaves the flags that the equations say. -/
theorem step_hasFlags (hs : step p a = some (o, p')) :
    p.state.WorkerAgrees a ∧
      p'.state.HasFlags (p.state.openedAfter a) (p.state.doneAfter a) (p.state.satisfiedAfter a)
        (p.state.runningAfter a) (p.state.failingAfter a) := by
  obtain ⟨-, x, hx, -, hstate, -⟩ := Process.step_eq_some hs
  rw [hstate]
  exact act_hasFlags hx

/-- One step keeps the views in agreement exactly when it sets no flag beside the other. -/
theorem viewsAgree_step (hs : step p a = some (o, p')) (hv : p.state.ViewsAgree) :
    p'.state.ViewsAgree ↔ p.state.KeepsViews a := by
  have hf := (step_hasFlags hs).2
  rw [viewsAgree_iff] at hv ⊢
  rw [hf.opened, hf.done]
  cases a with
  | onClientOpen => simp [openedAfter, doneAfter, KeepsViews]
  | onClientClose | onClientFailed => simp [openedAfter, doneAfter, KeepsViews]
  | onClientFail =>
    cases ho : p.state.opened <;> simp [openedAfter, doneAfter, KeepsViews, ho]
  | disconnectJoined => simp [openedAfter, KeepsViews]
  | _ => exact iff_of_true hv trivial

private theorem disconnected_of_returns {e : Entry (Process WebSocketTransport Fault)
      TransportAction (Outcome Exception Fault PUnit × List Effect)}
    (hs : step e.before e.action = some (e.output, e.after)) (hv : e.before.state.ViewsAgree)
    (hret : Returns e) : e.after.state.Disconnected := by
  apply disconnected_of_not_opened
  have hf := (step_hasFlags hs).2
  obtain ⟨p, a, o, p'⟩ := e
  dsimp only at hs hv hf ⊢
  cases a with
  | disconnectJoined => exact hf.opened
  | disconnect caller close =>
    obtain ⟨hvalue, hwait⟩ := hret
    obtain ⟨-, x, hx, rfl, hstate, -⟩ := Process.step_eq_some hs
    obtain ⟨-, rfl⟩ := guard_eq_some hx
    dsimp only at hvalue hwait
    rw [hstate] at hwait
    rw [disconnect_eq] at hvalue hwait
    -- `Disconnect` ends normally only on an open connection, and then it waits.
    cases ho : p.state.opened with
    | false => simp [ho] at hvalue
    | true =>
      have hd : p.state.done = false := (viewsAgree_iff _).mp hv ho
      cases close with
      | some e => simp [ho, hd] at hvalue
      | none =>
        cases caller with
        | worker => simp [ho, hd] at hvalue
        | other =>
          by_cases hj : p.state.disconnecting = true ∨ p.state.joinable = false
          · simp [ho, hd, hj] at hvalue
          · simp only [ho, hd, hj, Bool.true_eq_false, Bool.false_eq_true, reduceCtorEq,
              ite_false] at hwait
            exact absurd (.inl hwait.symm) hj
  | _ => cases hret

/-- In a run, the views tell the truth exactly when the connection is not closed while it is open
and not opened when it was closed. -/
theorem truthful_iff (hr : TransportRun h p) :
    TruthfulFlags h p ↔ ∀ e ∈ h, e.before.state.KeepsViews e.action := by
  have halways := hr.always_iff (fun p => p.state.ViewsAgree) (fun p a => p.state.KeepsViews a)
    ((viewsAgree_iff _).mpr fun _ => rfl) fun _ _ _ _ hs hv => viewsAgree_step hs hv
  constructor
  · intro ht
    exact halways.mp ht.agree
  · intro hc
    have hv := halways.mpr hc
    constructor
    · exact hv
    · intro e he hret
      obtain ⟨-, -, hs⟩ := hr.of_mem he
      exact disconnected_of_returns hs (hv.1 e he) hret

/-- A connection that is opened, a second `Connect`, which refuses, and a `Disconnect` that
waits. -/
theorem truthful_open : ∃ h p, TransportRun h p ∧ TruthfulFlags h p ∧
    p.state.isConnected = true := by
  obtain ⟨h, p, hr, hc⟩ := exists_run_of_replay step { state := {} }
    [.connect none, .connectFuture 0, .onClientOpen, .connectReady 0, .connect none,
      .disconnect .other none]
    (fun h p => decide (∀ e ∈ h, e.before.state.KeepsViews e.action) && p.state.isConnected)
    (by decide)
  rw [Bool.and_eq_true, decide_eq_true_eq] at hc
  exact ⟨h, p, hr, (truthful_iff hr).mpr hc.1, hc.2⟩

/-- When the server closes the connection, `IsConnected` is false and `Disconnect` returns without
refusing, time and again. -/
theorem not_truthful : ¬ ∀ h p, TransportRun h p → TruthfulFlags h p := by
  intro hall
  obtain ⟨h, p, hr, hc⟩ := exists_run_of_replay step { state := {} }
    [.connect none, .connectFuture 0, .onClientOpen, .connectReady 0, .onClientClose]
    (fun _ p => p.state.opened && p.state.done) (by decide)
  rw [Bool.and_eq_true] at hc
  have hdone := (viewsAgree_iff _).mp (hall h p hr).agree.2 hc.1
  rw [hc.2] at hdone
  cases hdone

/-! ### While no `Disconnect` waits -/

/-- Where no `Disconnect` waits, the views agree. -/
def SettledViews (t : WebSocketTransport) : Prop := t.disconnecting = false → t.ViewsAgree

/-- One flag is set beside the other only while a `Disconnect` waits. -/
def KeepsSettled (t : WebSocketTransport) : TransportAction → Prop
  | .onClientOpen => t.done = true → t.disconnecting = true
  | .onClientClose | .onClientFail | .onClientFailed => t.opened = true → t.disconnecting = true
  | _ => True

/-- Both flags are set at most while a `Disconnect` waits. -/
theorem settledViews_iff (t : WebSocketTransport) :
    t.SettledViews ↔ (t.opened = true → t.done = true → t.disconnecting = true) := by
  unfold SettledViews
  rw [viewsAgree_iff]
  cases t.opened <;> cases t.done <;> cases t.disconnecting <;> simp

private theorem disconnecting_step (hs : step p a = some (o, p')) (ha : a ≠ .disconnectJoined)
    (hw : p.state.disconnecting = true) : p'.state.disconnecting = true := by
  obtain ⟨-, x, hx, -, hstate, -⟩ := Process.step_eq_some hs
  rw [hstate]
  by_cases hb : bystander a = true
  · rw [(act_bystander hx hb).1.disconnecting]
    exact hw
  · cases a with
    | disconnectJoined => exact absurd rfl ha
    | disconnect caller close =>
      obtain ⟨-, rfl⟩ := guard_eq_some hx
      obtain ⟨waits, hdisconnect, hwaits⟩ := disconnect_state caller close p.state
      rw [hdisconnect]
      exact hwaits hw
    | workerExit =>
      obtain ⟨-, rfl⟩ := guard_eq_some hx
      exact hw
    | destroy caller =>
      obtain ⟨hg, -⟩ := guard_eq_some hx
      exact absurd hw hg.2.2.1
    | destroyJoined =>
      obtain ⟨-, rfl⟩ := guard_eq_some hx
      rw [destroyJoined_eq]
      exact hw
    | _ => exact absurd rfl hb

/-- One step keeps the views settled exactly when it sets no flag beside the other, or does so while
a `Disconnect` waits. -/
theorem settledViews_step (hs : step p a = some (o, p')) (hv : p.state.SettledViews) :
    p'.state.SettledViews ↔ p.state.KeepsSettled a := by
  have hf := (step_hasFlags hs).2
  rw [settledViews_iff] at hv ⊢
  rw [hf.opened, hf.done]
  have hcallback : bystander a = true → p'.state.disconnecting = p.state.disconnecting := by
    intro hb
    obtain ⟨-, x, hx, -, hstate, -⟩ := Process.step_eq_some hs
    rw [hstate]
    exact (act_bystander hx hb).1.disconnecting
  cases a with
  | onClientOpen | onClientClose | onClientFailed =>
    rw [hcallback rfl]
    simp [openedAfter, doneAfter, KeepsSettled]
  | onClientFail =>
    rw [hcallback rfl]
    cases ho : p.state.opened <;> simp [openedAfter, doneAfter, KeepsSettled, ho]
  | disconnectJoined => simp [openedAfter, KeepsSettled]
  | _ =>
    refine iff_of_true ?_ trivial
    intro ho hd
    apply disconnecting_step hs
    · intro hf
      cases hf
    · exact hv ho hd

/-- In a run, the views agree wherever no `Disconnect` waits exactly when a connection is closed
only while one does. -/
theorem settled_iff (hr : TransportRun h p) : Always (fun p => p.state.SettledViews) h p ↔
    ∀ e ∈ h, e.before.state.KeepsSettled e.action :=
  hr.always_iff (fun p => p.state.SettledViews) (fun p a => p.state.KeepsSettled a)
    ((settledViews_iff _).mpr fun _ hd => hd) fun _ _ _ _ hs hv => settledViews_step hs hv

end WebSocketTransport
end Barbarossa
