import Barbarossa.Client.Offers
import Barbarossa.Client.Stopping
import Barbarossa.Transport.Flags

/-!
# Leaving

`Leave` satisfies `leaved_` before it looks at the transport, which may be missing, not connected,
or unable to close; and with `leaved_` it wakes the caller of `Listen`, who may detach the transport
before `Leave` comes to it. What it needs to be done or refused as a whole is stated here for every
run of a client.
-/

namespace Barbarossa
open Barbarossa.Base

/-- An exception that `include/barbarossa/errors.hpp` knows: one of its classes, or a
`std::logic_error` with one of its texts. -/
def Exception.documented : Exception → Bool
  | .networkError _ | .noTransportError | .timeoutError | .protocolError _ | .noSessionError
  | .abortError _ => true
  | .logicError what => decide (what ∈ [ErrorMessages.transportConnectionFailed,
      ErrorMessages.transportAlreadyConnected, ErrorMessages.transportAlreadyDisconnected,
      ErrorMessages.transportHandlerAlreadyAttached, ErrorMessages.transportHandlerAlreadyDetached,
      ErrorMessages.sessionAlreadyJoined, ErrorMessages.sessionNotJoined,
      ErrorMessages.sessionNotAttached, ErrorMessages.sessionTransportAlreadyDetached,
      ErrorMessages.sessionTransportAlreadyAttached, ErrorMessages.invalidMessageStructure])
  | _ => false

namespace TransportAction

/-- A connection is open. -/
def opens : TransportAction → Bool
  | .onClientOpen => true
  | _ => false

/-- A connection is closed. -/
def closes : TransportAction → Bool
  | .onClientClose => true
  | _ => false

end TransportAction

namespace WebSocketTransport

/-- `Disconnect` gets through: the connection is open, and it is closed already or being closed, or
it can be closed by a caller that may join the worker. `live` is whether the server still holds
a connection open. -/
def disconnects (t : WebSocketTransport) (live : Bool) (caller : Caller)
    (close : Option Exception) : Bool :=
  t.opened && if t.done then t.disconnecting || !live
    else close.isNone && decide (caller = .other) && !t.disconnecting && t.joinable

/-- No connection is left to itself: a `Disconnect` waits for the worker, or none is live. -/
def Closes (t : WebSocketTransport) (live : Bool) : Prop :=
  t.disconnecting = true ∨ live = false

/-- `Disconnect` gets through, or it throws, ends the process, or leaves a connection to itself. -/
theorem disconnect_cases (live : Bool) (caller : Caller) (close : Option Exception)
    (t : WebSocketTransport) :
    (disconnect caller close t).outcome = .value ⟨⟩ ∧
        ((disconnect caller close t).state.Closes live ↔
          t.disconnects live caller close = true) ∨
      t.disconnects live caller close = false ∧
        ((disconnect caller close t).outcome = alreadyDisconnected ∨
          ∃ f, (disconnect caller close t).outcome = .crashed f) := by
  rw [disconnect_eq]
  unfold disconnects Closes
  cases ho : t.opened with
  | false => simp [alreadyDisconnected]
  | true =>
    cases hd : t.done with
    | true => simp
    | false =>
      cases close with
      | some e => simp
      | none =>
        cases caller with
        | worker => simp
        | other => cases hw : t.disconnecting <;> cases hj : t.joinable <;> simp

end WebSocketTransport

namespace Client

variable {h : ClientHistory} {p p' : Process Client Fault} {a : Action}
  {o : Outcome Exception Fault PUnit × List Effect}

/-- A callback of transport `t` that `c` picks. -/
def isCallback (t : TransportId) (c : TransportAction → Bool) : Action → Bool
  | .transport t' a => decide (t' = t) && c a
  | _ => false

/-- More connections of transport `t` were opened than closed. -/
def live (h : ClientHistory) (t : TransportId) : Bool :=
  decide ((h.countP fun e => isCallback t TransportAction.closes e.action) <
    h.countP fun e => isCallback t TransportAction.opens e.action)

/-- A call of `Listen` finds `leaved_` satisfied by `Leave`, and returns. -/
def ListenReturns (c : Client) : Prop := c.session.leaved.result = some (.ok true)

/-- `Leave` satisfies `leaved_`, or it throws a documented error and leaves `leaved_` and every
transport as they were; and it does not end the process. -/
structure LeaveBegins (e : ClientEntry) : Prop where
  survived : ∀ f, e.output.1 ≠ .crashed f
  begun : e.output.1 = .value ⟨⟩ → e.after.state.ListenReturns
  refused : ∀ x, e.output.1 = .thrown x → x.documented = true ∧
    e.after.state.session.leaved.result = e.before.state.session.leaved.result ∧
    e.after.state.session.transport = e.before.state.session.transport ∧
    e.after.state.transports = e.before.state.transports

/-- `Leave` has satisfied `leaved_` and does not throw any more. It has a transport and leaves no
connection of it to itself; it waits for the worker, or it is over and the transport is not
connected. -/
structure LeaveDisconnects (h : ClientHistory) (e : ClientEntry) : Prop where
  value : e.output.1 = .value ⟨⟩
  listen : e.after.state.ListenReturns
  transport : ∃ t, e.before.state.session.transport = some t ∧
    (e.after.state.transports t).Closes (live h t) ∧
    (e.after.state.leaves = some (.disconnecting t) ∧
        (e.after.state.transports t).disconnecting = true ∨
      e.after.state.leaves = some .finished ∧ (e.after.state.transports t).isConnected = false)

/-- `Leave` returns behind the wait of `Disconnect`, when the worker is over and `open_` is
cleared. -/
structure LeaveReturns (e : ClientEntry) : Prop where
  value : e.output.1 = .value ⟨⟩
  listen : e.after.state.ListenReturns
  finished : e.after.state.leaves = some .finished
  transport : ∃ t, e.before.state.leaves = some (.disconnecting t) ∧
    (e.after.state.transports t).running = false ∧ (e.after.state.transports t).opened = false

/-- The wait of `Disconnect` in `Leave` can come to its end: at most four steps of the worker and of
the call bring it to its return, with `open_` cleared. -/
def WaitEnds (p : Process Client Fault) : Prop :=
  ∀ t, p.fault = none → p.state.leaves = some (.disconnecting t) →
    ∃ h q, Run step p h q ∧ h.length ≤ 4 ∧ q.fault = none ∧
      q.state.leaves = some .finished ∧ (q.state.transports t).opened = false

/-- A step of a call of `Leave` is part of one that is atomic, and the call never waits for what
cannot come. -/
structure LeaveAtomic (h : ClientHistory) (e : ClientEntry) : Prop where
  begins : ∀ worker, e.action = .leave worker → LeaveBegins e
  disconnects : ∀ close, e.action = .leaveDisconnect close → LeaveDisconnects h e
  returns : e.action = .leaveJoined → LeaveReturns e
  waitEnds : WaitEnds e.after

/-- Every call of `Leave` is atomic. -/
def LeavesAtomically : ClientHistory → Prop
  | [] => True
  | e :: h => LeaveAtomic h e ∧ LeavesAtomically h

/-- `leaved_` is unsatisfied when `Leave` is called, and the `Disconnect` of the transport that is
attached behind `leaved_` gets through. -/
def leavesWhole (h : ClientHistory) (c : Client) : Action → Bool
  | .leave _ => !c.session.leaved.satisfied
  | .leaveDisconnect close =>
    match c.leaves with
    | some (.leaving worker) => c.session.transport.any fun t =>
        (c.transports t).disconnects (live h t) (callerOn worker t) close
    | _ => true
  | _ => true

/-- A `Leave` can do all it does. -/
def KeepsLeave (h : ClientHistory) (p : Process Client Fault) (a : Action) : Prop :=
  p.state.leavesWhole h a = true

instance (h : ClientHistory) (p : Process Client Fault) (a : Action) :
    Decidable (KeepsLeave h p a) :=
  inferInstanceAs (Decidable (_ = _))

/-! ### The wait of the call -/

/-- What is known of the call of `Leave` in every run. -/
structure Underway (c : Client) : Prop where
  listen : c.leaves.isSome = true → c.ListenReturns
  waits : ∀ t, c.leaves = some (.disconnecting t) → (c.transports t).disconnecting = true ∨
    (c.transports t).running = false ∧ (c.transports t).opened = false

private theorem listenReturns_step (hs : step p a = some (o, p'))
    (hl : p.state.ListenReturns) : p'.state.ListenReturns := by
  unfold ListenReturns at hl ⊢
  rw [(step_facts hs).session]
  exact Promise.result_of_offers_append hl (leaved_offers_after p.state a)

private theorem waits_after {t : WebSocketTransport} {b : TransportAction}
    (hw : t.WorkerAgrees b)
    (hold : t.disconnecting = true ∨ t.running = false ∧ t.opened = false) :
    (t.after b).disconnecting = true ∨
      (t.after b).running = false ∧ (t.after b).opened = false := by
  cases b with
  | disconnectJoined => exact .inr ⟨hw, rfl⟩
  | onClientOpen =>
    refine hold.imp id fun hover => ?_
    rw [WebSocketTransport.running_of_takesCallbacks hw] at hover
    cases hover.1
  | workerExit => exact hold.imp id fun hover => ⟨rfl, hover.2⟩
  | disconnect caller close =>
    refine hold.imp (fun hwait => ?_) id
    show (t.disconnecting || t.waits caller close) = true
    rw [hwait, Bool.true_or]
  | _ => exact hold

private theorem listen_after (hu : Underway p.state) (hs : step p a = some (o, p'))
    (hl : p'.state.leaves.isSome = true) : p'.state.ListenReturns := by
  have hf := step_facts hs
  rw [hf.leaves] at hl
  cases a with
  | leave worker =>
    cases hsat : p.state.session.leaved.satisfied with
    | true =>
      simp only [leavesAfter, hsat, ite_true] at hl
      exact listenReturns_step hs (hu.listen hl)
    | false =>
      unfold ListenReturns
      rw [hf.session]
      exact Promise.result_offer_of_unsatisfied hsat
  | leaveDisconnect close =>
    obtain ⟨worker, hleaving⟩ := hf.enabled
    exact listenReturns_step hs (hu.listen (by simp [hleaving]))
  | leaveJoined =>
    obtain ⟨t, hwaiting, -⟩ := hf.enabled
    exact listenReturns_step hs (hu.listen (by simp [hwaiting]))
  | _ => exact listenReturns_step hs (hu.listen hl)

private theorem waits_step (hu : Underway p.state) (hs : step p a = some (o, p'))
    {t : TransportId} (hl : p'.state.leaves = some (.disconnecting t)) :
    (p'.state.transports t).disconnecting = true ∨
      (p'.state.transports t).running = false ∧ (p'.state.transports t).opened = false := by
  have hf := step_facts hs
  rw [hf.leaves] at hl
  rw [transports_step hs]
  cases a with
  | leave worker =>
    simp only [leavesAfter] at hl
    split at hl
    · exact hu.waits t hl
    · cases hl
  | leaveDisconnect close =>
    obtain ⟨worker, hleaving⟩ := hf.enabled
    simp only [leavesAfter, hleaving] at hl
    split at hl
    · next w u hw ht =>
      cases hw
      split at hl
      · next hwaits =>
        cases hl
        left
        simp [transportAfter, hleaving, ht, WebSocketTransport.after,
          WebSocketTransport.disconnectingAfter, hwaits]
      · cases hl
    · cases hl
  | leaveJoined => cases hl
  | attach u | detach u =>
    simp only [transportAfter]
    split <;> exact hu.waits t hl
  | transport u b =>
    simp only [transportAfter]
    split
    · next htu =>
      subst htu
      obtain ⟨-, x, hx, -, -, -⟩ := Process.step_eq_some hs
      obtain ⟨-, -, y, hy, -⟩ := act_transport hx
      exact waits_after (WebSocketTransport.act_hasFlags hy).1 (hu.waits t hl)
    · exact hu.waits t hl
  | _ => exact hu.waits t hl

/-- In every run, a call of `Leave` is as the invariant says. -/
theorem underway (hr : ClientRun h p) : Underway p.state := by
  refine hr.invariant (fun _ p => Underway p.state) ⟨by simp [init], by simp [init]⟩ ?_
  intro h p a o p' hu hs
  exact ⟨listen_after hu hs, fun t hl => waits_step hu hs hl⟩

private theorem exists_step_transport {t : TransportId} {b : TransportAction}
    {y : TransportM PUnit} (hf : p.fault = none) (hl : p.state.leaves = some (.disconnecting t))
    (hrelease : p.state.canRelease t b = true) (hy : (p.state.transports t).act b = some y)
    (hv : (y (p.state.transports t)).outcome = .value ⟨⟩) :
    ∃ o p', step p (.transport t b) = some (o, p') ∧ p'.fault = none ∧
      p'.state.leaves = some (.disconnecting t) ∧
      p'.state.transports t = (p.state.transports t).after b := by
  have hfree : p.state.workerFree t b = true := by simp [workerFree, leavesOn, hl]
  have hx : act p.state (.transport t b) = some (onTransport t y) := by
    simp only [act, hrelease, hfree, and_self, ite_true, hy, Option.map_some]
  have hs : step p (.transport t b) = some _ := Process.step_of_act hf hx
  refine ⟨_, _, hs, ?_, ?_, ?_⟩
  · simp [onTransport, transportLens, hv]
  · rw [(step_facts hs).leaves]
    exact hl
  · rw [transports_step hs]
    simp [transportAfter]

private theorem waitEnds_of_exited {t : TransportId} (hf : p.fault = none)
    (hl : p.state.leaves = some (.disconnecting t)) (hu : Underway p.state)
    (hrun : (p.state.transports t).running = false) :
    ∃ h q, Run step p h q ∧ h.length ≤ 2 ∧ q.fault = none ∧
      q.state.leaves = some .finished ∧ (q.state.transports t).opened = false := by
  have hreturn : ∀ {p : Process Client Fault}, p.fault = none →
      p.state.leaves = some (.disconnecting t) → (p.state.transports t).disconnecting = false →
      (p.state.transports t).opened = false → ∃ o q, step p .leaveJoined = some (o, q) ∧
        q.fault = none ∧ q.state.leaves = some .finished ∧
        (q.state.transports t).opened = false := by
    intro p hf hl hwait hopened
    have hx : act p.state .leaveJoined = some (setLeave .finished) := by simp [act, hl, hwait]
    have hs : step p .leaveJoined = some _ := Process.step_of_act hf hx
    refine ⟨_, _, hs, rfl, ?_, ?_⟩
    · exact (step_facts hs).leaves
    · rw [transports_step hs]
      exact hopened
  cases hwait : (p.state.transports t).disconnecting with
  | true =>
    have hy : (p.state.transports t).act .disconnectJoined =
        some WebSocketTransport.stopClientJoined := by
      simp [WebSocketTransport.act, hwait, hrun]
    obtain ⟨o, p', hs, hf', hl', ht'⟩ := exists_step_transport hf hl rfl hy rfl
    obtain ⟨o', q, hs', hq⟩ := hreturn hf' hl' (by rw [ht']; rfl) (by rw [ht']; rfl)
    exact ⟨_, q, .cons (.cons .nil hs) hs', Nat.le_refl _, hq⟩
  | false =>
    have hopened := ((hu.waits t hl).resolve_left (by simp [hwait])).2
    obtain ⟨o, q, hs, hq⟩ := hreturn hf hl hwait hopened
    exact ⟨_, q, .cons .nil hs, by simp, hq⟩

private theorem waitEnds_of_takesCallbacks {t : TransportId} (hf : p.fault = none)
    (hl : p.state.leaves = some (.disconnecting t)) (hu : Underway p.state)
    (ht : (p.state.transports t).takesCallbacks = true) :
    ∃ h q, Run step p h q ∧ h.length ≤ 3 ∧ q.fault = none ∧
      q.state.leaves = some .finished ∧ (q.state.transports t).opened = false := by
  have hy : (p.state.transports t).act .workerExit = some _ := if_pos ht
  obtain ⟨o, p', hs, hf', hl', ht'⟩ := exists_step_transport hf hl rfl hy rfl
  obtain ⟨h, q, hr, hlength, hq⟩ := waitEnds_of_exited hf' hl'
    ⟨listen_after hu hs, fun t hl => waits_step hu hs hl⟩ (by rw [ht']; rfl)
  refine ⟨_, q, (Run.cons .nil hs).trans hr, ?_, hq⟩
  rw [List.length_append, List.length_singleton]
  exact Nat.add_le_add_right hlength 1

/-- The wait of `Disconnect` can end from every state of a run: the worker leaves the fail callback
if it is in it, then it exits, and the join and the call return. -/
theorem waitEnds (hr : ClientRun h p) : WaitEnds p := by
  intro t hf hl
  have hu := underway hr
  have hends : ∀ {p : Process Client Fault}, p.fault = none →
      p.state.leaves = some (.disconnecting t) → Underway p.state →
      (p.state.transports t).failing = false → ∃ h q, Run step p h q ∧ h.length ≤ 3 ∧
        q.fault = none ∧ q.state.leaves = some .finished ∧
        (q.state.transports t).opened = false := by
    intro p hf hl hu hfailing
    cases hrun : (p.state.transports t).running with
    | true =>
      exact waitEnds_of_takesCallbacks hf hl hu
        (by simp [WebSocketTransport.takesCallbacks, hrun, hfailing])
    | false =>
      obtain ⟨h, q, hr, hlength, hq⟩ := waitEnds_of_exited hf hl hu hrun
      exact ⟨h, q, hr, Nat.le_succ_of_le hlength, hq⟩
  cases hfailing : (p.state.transports t).failing with
  | false =>
    obtain ⟨h, q, hr, hlength, hq⟩ := hends hf hl hu hfailing
    exact ⟨h, q, hr, Nat.le_succ_of_le hlength, hq⟩
  | true =>
    have hy : (p.state.transports t).act .onClientFailed =
        some WebSocketTransport.onClientFailed := if_pos hfailing
    obtain ⟨o, p', hs, hf', hl', ht'⟩ := exists_step_transport hf hl rfl hy rfl
    obtain ⟨h, q, hr, hlength, hq⟩ := hends hf' hl'
      ⟨listen_after hu hs, fun t hl => waits_step hu hs hl⟩ (by rw [ht']; rfl)
    refine ⟨_, q, (Run.cons .nil hs).trans hr, ?_, hq⟩
    rw [List.length_append, List.length_singleton]
    exact Nat.add_le_add_right hlength 1

/-! ### What a step of the call needs -/

private theorem leaveBegins_iff {worker : Option TransportId}
    (hs : step p (.leave worker) = some (o, p')) :
    LeaveBegins ⟨p, .leave worker, o, p'⟩ ↔ p.state.session.leaved.satisfied = false := by
  have houtcome := step_leave hs
  unfold Session.leavedOutcome at houtcome
  cases hl : p.state.session.leaved.satisfied with
  | true =>
    rw [hl] at houtcome
    refine iff_of_false ?_ (by simp)
    intro hbegins
    cases (hbegins.refused _ houtcome).1
  | false =>
    rw [hl] at houtcome
    refine iff_of_true ⟨?_, fun _ => ?_, ?_⟩ rfl
    · exact fun f hf => by cases houtcome.symm.trans hf
    · unfold ListenReturns
      rw [(step_facts hs).session]
      exact Promise.result_offer_of_unsatisfied hl
    · exact fun x hx => by cases houtcome.symm.trans hx

private theorem leaveDisconnect_after {worker : Option TransportId} {close : Option Exception}
    {t : TransportId} (hs : step p (.leaveDisconnect close) = some (o, p'))
    (hleaving : p.state.leaves = some (.leaving worker))
    (ht : p.state.session.transport = some t) :
    o.1 = (WebSocketTransport.disconnect (callerOn worker t) close
        (p.state.transports t)).outcome ∧
      p'.state.transports t = (WebSocketTransport.disconnect (callerOn worker t) close
        (p.state.transports t)).state ∧
      p'.state.leaves = some (if (p.state.transports t).waits (callerOn worker t) close then
        .disconnecting t else .finished) := by
  refine ⟨?_, ?_, ?_⟩
  · obtain ⟨worker', hleaving', ho⟩ := step_leaveDisconnect hs
    rw [hleaving] at hleaving'
    cases hleaving'
    rw [ho, leaveOutcome, ht]
  · rw [transports_step hs, WebSocketTransport.disconnect_lifetime]
    simp only [transportAfter, hleaving, ht, ite_true]
    rfl
  · rw [(step_facts hs).leaves]
    simp only [leavesAfter, hleaving, ht]

private theorem leaveDisconnects_iff {close : Option Exception} (hu : Underway p.state)
    (hs : step p (.leaveDisconnect close) = some (o, p')) :
    LeaveDisconnects h ⟨p, .leaveDisconnect close, o, p'⟩ ↔
      KeepsLeave h p (.leaveDisconnect close) := by
  obtain ⟨worker, hleaving, ho⟩ := step_leaveDisconnect hs
  have hlisten : p'.state.ListenReturns := listenReturns_step hs (hu.listen (by simp [hleaving]))
  simp only [KeepsLeave, leavesWhole, hleaving]
  cases ht : p.state.session.transport with
  | none =>
    refine iff_of_false (fun hd => ?_) (by simp)
    rw [leaveOutcome, ht] at ho
    cases ho.symm.trans hd.value
  | some t =>
    obtain ⟨houtcome, htransport, hleaves⟩ := leaveDisconnect_after hs hleaving ht
    rw [Option.any_some]
    rcases (p.state.transports t).disconnect_cases (live h t) (callerOn worker t) close with
      ⟨hvalue, hcloses⟩ | ⟨hnot, hends⟩
    · rw [← hcloses, ← htransport]
      constructor
      · intro hd
        obtain ⟨u, hu, hc, -⟩ := hd.transport
        rw [ht] at hu
        cases hu
        exact hc
      · intro hc
        refine ⟨houtcome.trans hvalue, hlisten, t, ht, hc, ?_⟩
        have hisValue := isValue_disconnect (callerOn worker t) close (p.state.transports t)
        rw [hvalue] at hisValue
        cases hw : (p.state.transports t).waits (callerOn worker t) close with
        | true =>
          rw [hw, if_pos rfl] at hleaves
          refine .inl ⟨hleaves, ?_⟩
          rw [htransport, WebSocketTransport.disconnect_lifetime, hw, Bool.or_true]
        | false =>
          rw [hw, if_neg Bool.false_ne_true] at hleaves
          refine .inr ⟨hleaves, ?_⟩
          rw [hw, Bool.false_or] at hisValue
          have hdone : (p.state.transports t).done = true :=
            (Bool.and_eq_true_iff.mp hisValue.symm).2
          rw [htransport, WebSocketTransport.disconnect_lifetime]
          simp [WebSocketTransport.isConnected, hdone]
    · rw [hnot]
      refine iff_of_false (fun hd => ?_) Bool.false_ne_true
      rcases hends with hthrown | ⟨f, hcrashed⟩
      · cases (houtcome.trans hthrown).symm.trans hd.value
      · cases (houtcome.trans hcrashed).symm.trans hd.value

private theorem leaveReturns (hu : Underway p.state) (hs : step p .leaveJoined = some (o, p')) :
    LeaveReturns ⟨p, .leaveJoined, o, p'⟩ := by
  obtain ⟨t, hwaiting, hjoined⟩ := (step_facts hs).enabled
  obtain ⟨hrun, hopened⟩ := (hu.waits t hwaiting).resolve_left (by simp [hjoined])
  refine ⟨?_, listenReturns_step hs (hu.listen (by simp [hwaiting])), (step_facts hs).leaves,
    t, hwaiting, ?_⟩
  · obtain ⟨-, x, hx, rfl, -, -⟩ := Process.step_eq_some hs
    simp only [act, hwaiting, hjoined] at hx
    cases hx
    rfl
  · have htransport : p'.state.transports t = p.state.transports t := transports_step hs t
    exact htransport ▸ ⟨hrun, hopened⟩

/-- A step of a call of `Leave` is part of one that is atomic exactly when the call can do all it
does. -/
theorem leaveAtomic_iff (hr : ClientRun h p) (hs : step p a = some (o, p')) :
    LeaveAtomic h ⟨p, a, o, p'⟩ ↔ KeepsLeave h p a := by
  have hu := underway hr
  have hends : WaitEnds p' := waitEnds (hr.cons hs)
  cases a with
  | leave worker =>
    rw [KeepsLeave, leavesWhole, Bool.not_eq_true', ← leaveBegins_iff hs]
    constructor
    · exact fun hl => hl.begins worker rfl
    · intro hb
      refine ⟨fun _ _ => hb, fun _ hf => ?_, fun hf => ?_, hends⟩ <;> cases hf
  | leaveDisconnect close =>
    rw [← leaveDisconnects_iff hu hs]
    constructor
    · exact fun hl => hl.disconnects close rfl
    · intro hd
      refine ⟨fun _ hf => ?_, fun _ _ => hd, fun hf => ?_, hends⟩ <;> cases hf
  | leaveJoined =>
    refine iff_of_true ⟨fun _ hf => ?_, fun _ hf => ?_, fun _ => leaveReturns hu hs, hends⟩ rfl <;>
      cases hf
  | _ =>
    refine iff_of_true ⟨fun _ hf => ?_, fun _ hf => ?_, fun hf => ?_, hends⟩ rfl <;> cases hf

/-- What closing the connection throws in the `Disconnect` of a `Leave`, if the action is one. -/
def closing? : Action → Option (Option Exception)
  | .leaveDisconnect close => some close
  | _ => none

private theorem eq_of_closing {close : Option Exception} (h : closing? a = some close) :
    a = .leaveDisconnect close := by
  cases a with
  | leaveDisconnect close' => exact congrArg Action.leaveDisconnect (Option.some.inj h)
  | _ => cases h

end Client
end Barbarossa
