import Barbarossa.Transport.WebSocketTransport

/-!
# The worker thread of a transport

`StartClient` starts the worker, and two places may join it: `StopClient`, which
`Disconnect` calls, and the destructor. Both decide by `done_`, which the close and fail
callbacks set and no join does. A thread object counts its joins by itself, so what can
go wrong is a join or a destruction that ends the process.
-/

namespace Barbarossa
open Barbarossa.Base

/-- The process ended because a thread was joined by itself or twice, or never. -/
def Fault.ofJoin : Fault → Bool
  | .selfJoin | .doubleJoin | .joinableDestroyed => true
  | .uncaught _ | .threadReassigned | .nullTransport => false

/-- The recorded steps of a transport. -/
abbrev TransportHistory :=
  History (Process WebSocketTransport Fault) TransportAction
    (Outcome Exception Fault PUnit × List Effect)

/-- A run of a transport from its construction. -/
abbrev TransportRun (h : TransportHistory) (p : Process WebSocketTransport Fault) : Prop :=
  Run WebSocketTransport.step { state := {} } h p

namespace WebSocketTransport

/-- A join returns: the one of `StopClient` or the one of the destructor. -/
def joins : TransportAction → Bool
  | .disconnectJoined | .destroyJoined => true
  | _ => false

/-- The number of joins that returned. -/
def joinCount (h : TransportHistory) : Nat := h.countP fun e => joins e.action

/-- The worker was joined at most once, exactly once when the object is gone, and nothing about
joining it ended the process. -/
structure JoinedOnce (h : TransportHistory) (p : Process WebSocketTransport Fault) : Prop where
  once : joinCount h ≤ 1
  destroyed : p.state.stage = .destroyed → joinCount h = 1
  safe : ∀ f ∈ p.fault, f.ofJoin = false

/-- `Disconnect` joins off the worker and not while another call does, and the destructor finds
`done_` set exactly when the worker was joined; it joins off the worker. -/
def KeepsThread (t : WebSocketTransport) : TransportAction → Prop
  | .disconnect caller close => t.opened = true ∧ t.done = false ∧ close = none →
      caller = .other ∧ t.disconnecting = false
  | .destroy caller => t.done = !t.joinable ∧ (t.done = false → caller = .other)
  | _ => True

instance (t : WebSocketTransport) : (a : TransportAction) → Decidable (t.KeepsThread a)
  | .disconnect _ _ => inferInstanceAs (Decidable (_ ∧ _ ∧ _ → _ ∧ _))
  | .destroy _ => inferInstanceAs (Decidable (_ ∧ (_ → _)))
  | .onClientOpen | .onClientClose | .onClientFail | .onClientFailed | .connect _
  | .connectFuture _ | .connectReady _ | .disconnectJoined | .workerExit | .destroyJoined =>
    isTrue trivial

/-- What holds of the thread in every state, whatever the callers do. -/
structure ThreadInv (h : TransportHistory) (t : WebSocketTransport) : Prop where
  count : joinCount h = if t.joinable then 0 else 1
  stopped : t.joinable = false → t.running = false ∧ (t.stage = .destroyed ∨ t.opened = false)
  waiting : t.disconnecting = true → t.joinable = true ∧ t.stage = .alive
  destroying : t.stage = .destroying → t.joinable = true
  destroyed : t.stage = .destroyed → t.joinable = false

variable {h : TransportHistory} {p p' : Process WebSocketTransport Fault} {a : TransportAction}
  {o : Outcome Exception Fault PUnit × List Effect}

/-- Only a worker that has not returned takes callbacks. -/
theorem running_of_takesCallbacks {t : WebSocketTransport} (h : t.takesCallbacks = true) :
    t.running = true :=
  (Bool.and_eq_true _ _ ▸ h).1

private theorem joinCount_cons (e : Entry (Process WebSocketTransport Fault) TransportAction
    (Outcome Exception Fault PUnit × List Effect)) :
    joinCount (e :: h) = joinCount h + if joins e.action then 1 else 0 :=
  List.countP_cons

private theorem ThreadInv.of_same (hi : ThreadInv h p.state) (hj : joins a = false)
    (hjoinable : p'.state.joinable = p.state.joinable)
    (hstopped : p.state.joinable = false →
      p'.state.running = false ∧ (p'.state.stage = .destroyed ∨ p'.state.opened = false))
    (hwaiting : p'.state.disconnecting = true →
      p.state.joinable = true ∧ p'.state.stage = .alive)
    (hdestroying : p'.state.stage = .destroying → p.state.joinable = true)
    (hdestroyed : p'.state.stage = .destroyed → p.state.joinable = false) :
    ThreadInv (⟨p, a, o, p'⟩ :: h) p'.state := by
  constructor
  · rw [joinCount_cons, hi.count, hjoinable]
    simp [hj]
  · rw [hjoinable]
    exact hstopped
  · rw [hjoinable]
    exact hwaiting
  · rw [hjoinable]
    exact hdestroying
  · rw [hjoinable]
    exact hdestroyed

private theorem ThreadInv.of_join (hi : ThreadInv h p.state) (hj : joins a = true)
    (hold : p.state.joinable = true) (hjoinable : p'.state.joinable = false)
    (hstopped : p'.state.running = false ∧
      (p'.state.stage = .destroyed ∨ p'.state.opened = false))
    (hwaiting : p'.state.disconnecting = false) (hstage : p'.state.stage ≠ .destroying) :
    ThreadInv (⟨p, a, o, p'⟩ :: h) p'.state := by
  constructor
  · rw [joinCount_cons, hi.count, hold, hjoinable]
    simp [hj]
  · exact fun _ => hstopped
  · rw [hwaiting]
    intro hf
    cases hf
  · exact fun hd => absurd hd hstage
  · exact fun _ => hjoinable

/-- Nothing about the thread changed; `open_` is set only by the worker. -/
structure KeepsFlags (t t' : WebSocketTransport) : Prop where
  joinable : t'.joinable = t.joinable
  running : t'.running = t.running
  disconnecting : t'.disconnecting = t.disconnecting
  stage : t'.stage = t.stage
  opened : t'.opened = t.opened ∨ t.running = true

private theorem KeepsFlags.of_eq {t t' : WebSocketTransport} (h : t' = t) : KeepsFlags t t' := by
  subst h
  exact ⟨rfl, rfl, rfl, rfl, .inl rfl⟩

private theorem ThreadInv.of_keeps (hi : ThreadInv h p.state) (hj : joins a = false)
    (hk : KeepsFlags p.state p'.state) : ThreadInv (⟨p, a, o, p'⟩ :: h) p'.state := by
  refine hi.of_same hj hk.joinable ?_ ?_ ?_ ?_
  · intro hjoined
    obtain ⟨hstopped, hclosed⟩ := hi.stopped hjoined
    rw [hk.running, hk.stage]
    refine ⟨hstopped, ?_⟩
    rcases hk.opened with hsame | hrun
    · rwa [hsame]
    · rw [hstopped] at hrun
      cases hrun
  · rw [hk.disconnecting, hk.stage]
    exact hi.waiting
  · rw [hk.stage]
    exact hi.destroying
  · rw [hk.stage]
    exact hi.destroyed

private theorem ThreadInv.of_unchanged (hi : ThreadInv h p.state) (hj : joins a = false)
    (hsame : p'.state = p.state) : ThreadInv (⟨p, a, o, p'⟩ :: h) p'.state :=
  hi.of_keeps hj (.of_eq hsame)

/-! ### What joining does -/

/-- `join` by itself, a second time, or up to the wait. -/
theorem joinThread_eq (caller : Caller) (t : WebSocketTransport) :
    joinThread caller t =
      ⟨if caller = .worker then .crashed .selfJoin
        else if t.disconnecting = true ∨ t.joinable = false then .crashed .doubleJoin
        else .value ⟨⟩, t, []⟩ := by
  unfold joinThread
  cases caller with
  | worker => simp
  | other => cases hw : t.disconnecting <;> cases hj : t.joinable <;> simp [hw, hj]

/-- `Disconnect` joins when the connection is open, `done_` is not set and closing succeeds. -/
theorem disconnect_eq (caller : Caller) (close : Option Exception) (t : WebSocketTransport) :
    disconnect caller close t =
      if t.opened = false then
        ⟨.thrown (.logicError ErrorMessages.transportAlreadyDisconnected), t, []⟩
      else if t.done = true then ⟨.value ⟨⟩, t, []⟩
      else match close with
      | some e => ⟨.crashed (.uncaught e), t, []⟩
      | none =>
        if caller = .worker then ⟨.crashed .selfJoin, t, []⟩
        else if t.disconnecting = true ∨ t.joinable = false then ⟨.crashed .doubleJoin, t, []⟩
        else ⟨.value ⟨⟩, { t with disconnecting := true }, []⟩ := by
  unfold disconnect stopClient
  by_cases ho : t.opened
  · by_cases hd : t.done
    · simp [ho, hd, Exec.noexcept_apply]
    · cases close with
      | some e => simp [ho, hd, Exec.noexcept_apply]
      | none =>
        cases caller with
        | worker => simp [ho, hd, Exec.noexcept_apply, joinThread_eq, Ran.andThen]
        | other =>
          cases hw : t.disconnecting <;> cases hj : t.joinable <;>
            simp [ho, hd, hw, hj, Exec.noexcept_apply, joinThread_eq, Ran.andThen]
  · simp [ho]

/-- `Disconnect` up to its wait changes at most whether one waits, and it ends no other wait. -/
theorem disconnect_state (caller : Caller) (close : Option Exception) (t : WebSocketTransport) :
    ∃ waits, (disconnect caller close t).state = { t with disconnecting := waits } ∧
      (t.disconnecting = true → waits = true) := by
  rw [disconnect_eq]
  split
  · exact ⟨_, rfl, id⟩
  · split
    · exact ⟨_, rfl, id⟩
    · split
      · exact ⟨_, rfl, id⟩
      · split
        · exact ⟨_, rfl, id⟩
        · split
          · exact ⟨_, rfl, id⟩
          · exact ⟨true, rfl, fun _ => rfl⟩

/-- The destructor joins when `done_` is not set, and destroys the thread object otherwise. -/
theorem destroy_eq (caller : Caller) (t : WebSocketTransport) :
    destroy caller t =
      if t.done = true then
        if t.joinable then ⟨.crashed .joinableDestroyed, t, []⟩
        else ⟨.value ⟨⟩, { t with stage := .destroyed }, []⟩
      else if caller = .worker then ⟨.crashed .selfJoin, t, []⟩
      else if t.disconnecting = true ∨ t.joinable = false then ⟨.crashed .doubleJoin, t, []⟩
      else ⟨.value ⟨⟩, { t with stage := .destroying }, []⟩ := by
  unfold destroy releaseThread
  by_cases hd : t.done
  · by_cases hj : t.joinable <;> simp [hd, hj]
  · cases caller with
    | worker => simp [hd, joinThread_eq, Ran.andThen]
    | other =>
      cases hw : t.disconnecting <;> cases hj : t.joinable <;>
        simp [hd, hw, hj, joinThread_eq, Ran.andThen]

/-- The destructor up to its wait changes at most the stage. -/
theorem destroy_state (caller : Caller) (t : WebSocketTransport) :
    ∃ stage, (destroy caller t).state = { t with stage := stage } := by
  rw [destroy_eq]
  split
  · split <;> exact ⟨_, rfl⟩
  · split
    · exact ⟨_, rfl⟩
    · split <;> exact ⟨_, rfl⟩

/-- After its join, the destructor destroys the thread object. -/
theorem destroyJoined_eq (t : WebSocketTransport) :
    destroyJoined t = ⟨.value ⟨⟩, { t with joinable := false, stage := .destroyed }, []⟩ := by
  simp [destroyJoined, releaseThread]

/-- Taking the future of `connected_` touches no flag, and what it throws is caught. -/
theorem connectFuture_eq (i : Nat) (t : WebSocketTransport) :
    connectFuture i t = ⟨.value ⟨⟩, { t with
      connected := { t.connected with retrieved := true }
      connects := t.connects.set i (if t.connected.retrieved then
        .finished (.error (.futureError .futureAlreadyRetrieved)) else .waiting) }, []⟩ := by
  unfold connectFuture
  by_cases hr : t.connected.retrieved
  · have hx : (Exec.zoom connectedLens
          (Promise.getFuture (.futureError .futureAlreadyRetrieved)) >>=
        fun _ => setConnect i .waiting) t =
        ⟨.thrown (.futureError .futureAlreadyRetrieved),
          { t with connected := { t.connected with retrieved := true } }, []⟩ := by
      simp [connectedLens, Promise.getFuture, hr]
    rw [Exec.catching_thrown hx, if_pos hr]
    rfl
  · have hx : (Exec.zoom connectedLens
          (Promise.getFuture (.futureError .futureAlreadyRetrieved)) >>=
        fun _ => setConnect i .waiting) t =
        ⟨.value ⟨⟩, { t with
          connected := { t.connected with retrieved := true }
          connects := t.connects.set i .waiting }, []⟩ := by
      simp [connectedLens, Promise.getFuture, hr, setConnect]
    rw [Exec.catching_value hx, if_neg hr]

/-- The callbacks and `Connect`, which neither join the worker nor end it. -/
def bystander : TransportAction → Bool
  | .disconnect _ _ | .disconnectJoined | .workerExit | .destroy _ | .destroyJoined => false
  | _ => true

private theorem joins_of_bystander (ha : bystander a = true) : joins a = false := by
  cases a with
  | disconnectJoined => cases ha
  | destroyJoined => cases ha
  | _ => rfl

/-- A callback or a part of `Connect` keeps the flags of the thread and ends no process. -/
theorem act_bystander {t : WebSocketTransport} {x : TransportM PUnit}
    (hx : t.act a = some x) (ha : bystander a = true) :
    KeepsFlags t (x t).state ∧ (x t).outcome.fault? = none := by
  cases a with
  | onClientOpen =>
    obtain ⟨hg, rfl⟩ := guard_eq_some hx
    unfold onClientOpen
    cases hc : t.connected.satisfied <;> refine ⟨⟨?_, ?_, ?_, ?_, ?_⟩, ?_⟩ <;>
      simp [connectedLens, Promise.setResult, hc, running_of_takesCallbacks hg.1]
  | onClientClose =>
    obtain ⟨-, rfl⟩ := guard_eq_some hx
    exact ⟨⟨rfl, rfl, rfl, rfl, .inl rfl⟩, rfl⟩
  | onClientFail =>
    obtain ⟨-, rfl⟩ := guard_eq_some hx
    unfold onClientFail
    cases ho : t.opened <;> cases hc : t.connected.satisfied <;>
      refine ⟨⟨?_, ?_, ?_, ?_, ?_⟩, ?_⟩ <;>
      simp [ho, hc, connectedLens, Promise.setResult]
  | onClientFailed =>
    obtain ⟨-, rfl⟩ := guard_eq_some hx
    exact ⟨⟨rfl, rfl, rfl, rfl, .inl rfl⟩, rfl⟩
  | connect ec =>
    obtain ⟨-, rfl⟩ := guard_eq_some hx
    unfold connect
    cases ho : t.opened <;> cases ec <;> refine ⟨⟨?_, ?_, ?_, ?_, ?_⟩, ?_⟩ <;> simp [ho]
  | connectFuture i =>
    simp only [act] at hx
    split at hx
    · cases hx
      rw [connectFuture_eq]
      exact ⟨⟨rfl, rfl, rfl, rfl, .inl rfl⟩, rfl⟩
    · cases hx
  | connectReady i =>
    simp only [act] at hx
    split at hx
    · cases hx
      exact ⟨⟨rfl, rfl, rfl, rfl, .inl rfl⟩, rfl⟩
    · cases hx
  | _ => cases ha

/-! ### One step -/

private theorem ThreadInv.disconnect {caller : Caller} {close : Option Exception}
    (hi : ThreadInv h p.state) (halive : p.state.stage = .alive)
    (hstate : p'.state = (disconnect caller close p.state).state) :
    ThreadInv (⟨p, .disconnect caller close, o, p'⟩ :: h) p'.state := by
  rw [disconnect_eq] at hstate
  split at hstate
  · exact hi.of_unchanged rfl hstate
  · split at hstate
    · exact hi.of_unchanged rfl hstate
    · split at hstate
      · exact hi.of_unchanged rfl hstate
      · split at hstate
        · exact hi.of_unchanged rfl hstate
        · split at hstate
          · exact hi.of_unchanged rfl hstate
          · next hj =>
            have hjoinable : p.state.joinable = true := by
              by_contra hne
              exact hj (.inr (by simpa using hne))
            refine hi.of_same rfl (by rw [hstate]) ?_ ?_ ?_ ?_
            · intro hjoined
              rw [hjoinable] at hjoined
              cases hjoined
            · rw [hstate]
              exact fun _ => ⟨hjoinable, halive⟩
            · exact fun _ => hjoinable
            · rw [hstate]
              exact hi.destroyed

private theorem ThreadInv.destroy {caller : Caller} (hi : ThreadInv h p.state)
    (hwait : p.state.disconnecting = false)
    (hstate : p'.state = (destroy caller p.state).state) :
    ThreadInv (⟨p, .destroy caller, o, p'⟩ :: h) p'.state := by
  rw [destroy_eq] at hstate
  split at hstate
  · split at hstate
    · exact hi.of_unchanged rfl hstate
    · next hj =>
      have hjoined : p.state.joinable = false := by simpa using hj
      refine hi.of_same rfl (by rw [hstate]) ?_ ?_ ?_ ?_
      · intro _
        rw [hstate]
        exact ⟨(hi.stopped hjoined).1, .inl rfl⟩
      · rw [hstate]
        intro hd
        rw [hwait] at hd
        cases hd
      · rw [hstate]
        intro hf
        cases hf
      · exact fun _ => hjoined
  · split at hstate
    · exact hi.of_unchanged rfl hstate
    · split at hstate
      · exact hi.of_unchanged rfl hstate
      · next hj =>
        have hjoinable : p.state.joinable = true := by
          by_contra hne
          exact hj (.inr (by simpa using hne))
        refine hi.of_same rfl (by rw [hstate]) ?_ ?_ ?_ ?_
        · intro hjoined
          rw [hjoinable] at hjoined
          cases hjoined
        · rw [hstate]
          intro hd
          rw [hwait] at hd
          cases hd
        · exact fun _ => hjoinable
        · rw [hstate]
          intro hf
          cases hf

/-- Every step keeps what holds of the thread. -/
theorem ThreadInv.step (hi : ThreadInv h p.state) (hs : step p a = some (o, p')) :
    ThreadInv (⟨p, a, o, p'⟩ :: h) p'.state := by
  obtain ⟨-, x, hx, -, hstate, -⟩ := Process.step_eq_some hs
  by_cases ha : bystander a = true
  · apply hi.of_keeps (joins_of_bystander ha)
    rw [hstate]
    exact (act_bystander hx ha).1
  cases a with
  | disconnect caller close =>
    obtain ⟨hg, rfl⟩ := guard_eq_some hx
    exact hi.disconnect hg.1 hstate
  | disconnectJoined =>
    obtain ⟨hg, rfl⟩ := guard_eq_some hx
    simp only [stopClientJoined, Exec.modify_apply] at hstate
    obtain ⟨hjoinable, halive⟩ := hi.waiting hg.1
    apply hi.of_join rfl hjoinable
    · rw [hstate]
    · rw [hstate]
      exact ⟨by simpa using hg.2, .inr rfl⟩
    · rw [hstate]
    · rw [hstate]
      dsimp only
      rw [halive]
      intro hf
      cases hf
  | workerExit =>
    obtain ⟨hg, rfl⟩ := guard_eq_some hx
    simp only [Exec.modify_apply] at hstate
    refine hi.of_same rfl (by rw [hstate]) ?_ ?_ ?_ ?_
    · intro hjoined
      have hrun := running_of_takesCallbacks hg
      rw [(hi.stopped hjoined).1] at hrun
      cases hrun
    · rw [hstate]
      exact hi.waiting
    · rw [hstate]
      exact hi.destroying
    · rw [hstate]
      exact hi.destroyed
  | destroy caller =>
    obtain ⟨hg, rfl⟩ := guard_eq_some hx
    exact hi.destroy (by simpa using hg.2.2.1) hstate
  | destroyJoined =>
    obtain ⟨hg, rfl⟩ := guard_eq_some hx
    rw [destroyJoined_eq] at hstate
    apply hi.of_join rfl (hi.destroying hg.1)
    · rw [hstate]
    · rw [hstate]
      exact ⟨by simpa using hg.2, .inl rfl⟩
    · rw [hstate]
      dsimp only
      by_contra hne
      have halive := (hi.waiting (by simpa using hne)).2
      rw [hg.1] at halive
      cases halive
    · rw [hstate]
      intro hf
      cases hf
  | _ => exact absurd rfl ha

private theorem safe_disconnect {caller : Caller} {close : Option Exception}
    (hi : ThreadInv h p.state) (halive : p.state.stage = .alive)
    (hfault : p'.fault = (disconnect caller close p.state).outcome.fault?) :
    (∀ f ∈ p'.fault, f.ofJoin = false) ↔ p.state.KeepsThread (.disconnect caller close) := by
  rw [hfault, disconnect_eq]
  unfold KeepsThread
  by_cases ho : p.state.opened
  · have hjoinable : p.state.joinable = true := by
      by_contra hne
      rcases (hi.stopped (by simpa using hne)).2 with hd | hclosed
      · rw [halive] at hd
        cases hd
      · rw [ho] at hclosed
        cases hclosed
    by_cases hd : p.state.done
    · simp [ho, hd]
    · cases close with
      | some e => simp [ho, hd, Fault.ofJoin]
      | none =>
        cases caller with
        | worker => simp [ho, hd, Fault.ofJoin]
        | other => cases hw : p.state.disconnecting <;> simp [ho, hd, hjoinable, Fault.ofJoin]
  · simp [ho]

private theorem safe_destroy {caller : Caller} (hwait : p.state.disconnecting = false)
    (hfault : p'.fault = (destroy caller p.state).outcome.fault?) :
    (∀ f ∈ p'.fault, f.ofJoin = false) ↔ p.state.KeepsThread (.destroy caller) := by
  rw [hfault, destroy_eq]
  unfold KeepsThread
  cases hd : p.state.done <;> cases hj : p.state.joinable <;> cases caller <;>
    simp [hwait, Fault.ofJoin]

/-- One step ends the process over a join exactly when it breaks the condition. -/
theorem safe_step (hi : ThreadInv h p.state) (hs : step p a = some (o, p')) :
    (∀ f ∈ p'.fault, f.ofJoin = false) ↔ p.state.KeepsThread a := by
  obtain ⟨-, x, hx, -, -, hfault⟩ := Process.step_eq_some hs
  by_cases ha : bystander a = true
  · have hkeeps : p.state.KeepsThread a := by
      cases a with
      | disconnect caller close => cases ha
      | destroy caller => cases ha
      | _ => trivial
    rw [hfault, (act_bystander hx ha).2]
    simp [hkeeps]
  cases a with
  | disconnect caller close =>
    obtain ⟨hg, rfl⟩ := guard_eq_some hx
    exact safe_disconnect hi hg.1 hfault
  | destroy caller =>
    obtain ⟨hg, rfl⟩ := guard_eq_some hx
    exact safe_destroy (by simpa using hg.2.2.1) hfault
  | destroyJoined =>
    obtain ⟨-, rfl⟩ := guard_eq_some hx
    rw [hfault, destroyJoined_eq]
    simp [KeepsThread]
  | disconnectJoined =>
    obtain ⟨-, rfl⟩ := guard_eq_some hx
    rw [hfault]
    simp [stopClientJoined, KeepsThread]
  | workerExit =>
    obtain ⟨-, rfl⟩ := guard_eq_some hx
    rw [hfault]
    simp [KeepsThread]
  | _ => exact absurd rfl ha

/-- What holds of the thread holds at the end of every run. -/
theorem threadInv (hr : TransportRun h p) : ThreadInv h p.state := by
  refine hr.invariant (fun h p => ThreadInv h p.state) ?_ ?_
  · constructor
    · rfl
    all_goals
      intro hf
      cases hf
  · intro h p a o p' hi hs
    exact hi.step hs

/-- No join ends the process exactly when every step meets the condition. -/
theorem safe_iff (hr : TransportRun h p) :
    (∀ f ∈ p.fault, f.ofJoin = false) ↔ ∀ e ∈ h, e.before.state.KeepsThread e.action := by
  induction hr with
  | nil => simp
  | @cons h p p' a o hr hs ih =>
    -- A step was taken from `p`, so nothing had ended the process there.
    have hrunning : p.fault = none := (Process.step_eq_some hs).1
    have hkept : ∀ e ∈ h, e.before.state.KeepsThread e.action := by
      apply ih.mp
      rw [hrunning]
      intro f hf
      cases hf
    rw [safe_step (threadInv hr) hs, List.forall_mem_cons]
    exact ⟨fun hk => ⟨hk, hkept⟩, fun hall => hall.1⟩

/-- In a run, the worker is joined exactly once, and no join ends the process, exactly when every
step meets the condition. -/
theorem joined_once_iff (hr : TransportRun h p) :
    JoinedOnce h p ↔ ∀ e ∈ h, e.before.state.KeepsThread e.action := by
  have hi := threadInv hr
  rw [← safe_iff hr]
  constructor
  · exact fun hj => hj.safe
  · intro hsafe
    constructor
    · rw [hi.count]
      split <;> omega
    · intro hd
      rw [hi.count, hi.destroyed hd]
      rfl
    · exact hsafe

/-- `Disconnect` from another thread, answered by the close callback, and then the destructor. -/
theorem joined_once_disconnect : ∃ h p, TransportRun h p ∧ JoinedOnce h p ∧
    p.state.stage = .destroyed := by
  obtain ⟨h, p, hr, hc⟩ := exists_run_of_replay step { state := {} }
    [.connect none, .connectFuture 0, .onClientOpen, .connectReady 0, .disconnect .other none,
      .onClientClose, .workerExit, .disconnectJoined, .destroy .other]
    (fun h p => decide (∀ e ∈ h, e.before.state.KeepsThread e.action) &&
      decide (p.state.stage = .destroyed)) (by decide)
  simp only [Bool.and_eq_true, decide_eq_true_eq] at hc
  exact ⟨h, p, hr, (joined_once_iff hr).mpr hc.1, hc.2⟩

/-- When the server closes the connection, the destructor destroys a thread nobody joined. -/
theorem not_joined_once : ¬ ∀ h p, TransportRun h p → JoinedOnce h p := by
  intro hall
  obtain ⟨h, p, hr, hc⟩ := exists_run_of_replay step { state := {} }
    [.connect none, .connectFuture 0, .onClientOpen, .connectReady 0, .onClientClose,
      .destroy .other]
    (fun _ p => decide (p.fault = some .joinableDestroyed)) (by decide)
  rw [decide_eq_true_eq] at hc
  have hsafe := (hall h p hr).safe _ hc
  cases hsafe

end WebSocketTransport
end Barbarossa
