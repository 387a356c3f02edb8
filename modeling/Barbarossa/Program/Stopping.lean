import Barbarossa.Client.Termination
import Barbarossa.Program.Settled

/-!
# Stopping the context

Only the handlers of the errors that `main` catches and the signal handler stop the context, and the
main thread gets behind `io_context.run()` in no other way. A signal handler that gets so far runs
on the worker and has found the connection closed.
-/

namespace Barbarossa
open Barbarossa.Base

namespace Program

variable {text : JsonText} {realm : Bytes} {h : ProgramHistory}
  {p p' : Process Program ProgramFault} {a : ProgramAction}
  {o : Outcome Exception ProgramFault PUnit × List Effect}

/-! ### What stays -/

/-- A signal that was handled stays handled. -/
theorem signal_ne_awaited_step (hr : ProgramRun text realm h p)
    (hs : step text p a = some (o, p')) (hf : p'.fault = none)
    (hsignal : p.state.signal ≠ .awaited) : p'.state.signal ≠ .awaited := by
  rw [(step_facts_of_run hr hs).signal hf]
  cases a with
  | signal caller | signalStop => simp [signalAfter]
  | _ => exact hsignal

/-- A context that is stopped stays stopped. -/
theorem stopped_step (hr : ProgramRun text realm h p) (hs : step text p a = some (o, p'))
    (hf : p'.fault = none) (hstopped : p.state.stopped = true) : p'.state.stopped = true := by
  rw [(step_facts_of_run hr hs).stopped hf]
  cases a with
  | main ec =>
    simp only [stoppedAfter]
    split
    · rfl
    · exact hstopped
  | signalStop => rfl
  | _ => exact hstopped

private theorem transportAfter_flags (c : Client) (t : TransportId) (b : Action) :
    ((c.transports t).done = true → (c.transportAfter t b).done = true) ∧
      ((c.transports t).running = false → (c.transportAfter t b).running = false) := by
  cases b with
  | leaveDisconnect close =>
    simp only [Client.transportAfter]
    split
    · split <;> exact ⟨id, id⟩
    · exact ⟨id, id⟩
  | attach u | detach u =>
    simp only [Client.transportAfter]
    split <;> exact ⟨id, id⟩
  | transport u b =>
    simp only [Client.transportAfter]
    split
    · cases b with
      | onClientClose | onClientFailed => exact ⟨fun _ => rfl, id⟩
      | onClientFail =>
        refine ⟨fun hd => ?_, id⟩
        simp [WebSocketTransport.after, WebSocketTransport.doneAfter, hd]
      | workerExit => exact ⟨id, fun _ => rfl⟩
      | _ => exact ⟨id, id⟩
    · exact ⟨id, id⟩
  | _ => exact ⟨id, id⟩

/-- A closed or failed connection stays so, and a worker that returned does, too. -/
theorem flags_step (hr : ProgramRun text realm h p) (hs : step text p a = some (o, p'))
    (hf : p'.fault = none) :
    ((p.state.client.transports transport).done = true →
      (p'.state.client.transports transport).done = true) ∧
    ((p.state.client.transports transport).running = false →
      (p'.state.client.transports transport).running = false) := by
  cases hb : p.state.clientAction text a with
  | none =>
    rw [((step_facts_of_run hr hs).idle hb).1]
    exact ⟨id, id⟩
  | some b =>
    rw [(survives hr hs hf hb).transport]
    exact transportAfter_flags _ _ b

/-! ### Signals -/

/-- `Listen` returns only when a signal was handled. -/
structure Heard (p : Program) : Prop where
  left : ∀ b, .ok b ∈ p.client.session.leaved.offers → p.signal ≠ .awaited
  listened : ∀ r, p.client.listens[mainCall]? = some (.finished (.ok r)) → p.signal ≠ .awaited

private theorem eq_leave_of_ok {c : Client} {b : Action} {left : Bool}
    (h : .ok left ∈ (c.sessionAfter b).leaved.offers) :
    .ok left ∈ c.session.leaved.offers ∨ ∃ worker, b = .leave worker := by
  rw [Client.leaved_sessionAfter] at h
  split at h
  · exact .inl h
  · rcases List.mem_append.mp h with hold | hnew
    · exact .inl hold
    · have hoffer := Option.mem_toList.mp hnew
      cases b with
      | leave worker => exact .inr ⟨worker, rfl⟩
      | message t m ec =>
        simp only [Client.leaveOffer] at hoffer
        split at hoffer <;> cases hoffer
      | runDispatched ec =>
        simp only [Client.leaveOffer, Client.failure] at hoffer
        split at hoffer <;> cases hoffer
      | hearbeat =>
        simp only [Client.leaveOffer, Session.verdict] at hoffer
        split at hoffer
        · cases hoffer
        · split at hoffer <;> cases hoffer
        · cases hoffer
      | _ => cases hoffer

private theorem mem_leaved_of_listened {c : Client} {b : Action} {i : Nat} {r : PUnit}
    (h : (c.listensAfter b)[i]? = some (.finished (.ok r))) :
    c.listens[i]? = some (.finished (.ok r)) ∨ ∃ left, .ok left ∈ c.session.leaved.offers := by
  cases b with
  | listen =>
    simp only [Client.listensAfter] at h
    rcases List.mem_append.mp (List.mem_of_getElem? h) with hmem | hmem
    · left
      have hlt : i < c.listens.length := by
        by_contra hge
        rw [List.getElem?_append_right (by omega)] at h
        have hlast := List.mem_singleton.mp (List.mem_of_getElem? h)
        split at hlast <;> cases hlast
      rwa [List.getElem?_append_left hlt] at h
    · have hlast := List.mem_singleton.mp hmem
      split at hlast <;> cases hlast
  | listenReady j =>
    simp only [Client.listensAfter] at h
    cases hr : c.session.leaved.result with
    | none =>
      rw [hr] at h
      exact .inl h
    | some result =>
      rw [hr] at h
      by_cases hij : j = i
      · subst hij
        have hmem := List.mem_of_getElem? h
        cases result with
        | ok left => exact .inr ⟨left, List.mem_of_mem_head? hr⟩
        | error e =>
          rw [List.getElem?_set] at h
          simp only [if_true] at h
          split at h <;> cases h
      · rw [List.getElem?_set_ne hij] at h
        exact .inl h
  | _ => exact .inl h

private theorem Heard.step (hr : ProgramRun text realm h p) (hs : step text p a = some (o, p'))
    (hf : p'.fault = none) (hi : Heard p.state) : Heard p'.state := by
  have hkeep := signal_ne_awaited_step hr hs hf
  cases hb : p.state.clientAction text a with
  | none =>
    have hclient := ((step_facts_of_run hr hs).idle hb).1
    constructor
    · rw [hclient]
      exact fun left hmem => hkeep (hi.left left hmem)
    · rw [hclient]
      exact fun r hr => hkeep (hi.listened r hr)
  | some b =>
    have hv := survives hr hs hf hb
    constructor
    · rw [hv.session]
      intro left hmem
      rcases eq_leave_of_ok hmem with hold | ⟨worker, rfl⟩
      · exact hkeep (hi.left left hold)
      · cases a with
        | signal caller =>
          rw [(step_facts_of_run hr hs).signal hf]
          simp [signalAfter]
        | _ =>
          have hleave := isLeave_of_other (fun _ he => by cases he) hb
          cases hleave
    · rw [hv.listens]
      intro r hr
      rcases mem_leaved_of_listened hr with hold | ⟨left, hmem⟩
      · exact hkeep (hi.listened r hold)
      · exact hkeep (hi.left left hmem)

/-- While the program runs, `Listen` has returned only when a signal was handled. -/
theorem heard (hr : ProgramRun text realm h p) (hf : p.fault = none) : Heard p.state := by
  refine invariant_of_running (fun _ p => Heard p) ?_ ?_ hr hf
  · constructor
    · intro left hmem
      cases hmem
    · intro r hr
      cases hr
  · exact fun _ _ _ _ _ hr _ hi hs hf => hi.step hr hs hf

/-! ### The signal handler -/

/-- The signal handler. -/
def isSignal : ProgramAction → Bool
  | .signal _ | .signalDisconnect _ | .signalJoined | .signalStop => true
  | _ => false

/-- Where `Leave` is while the signal handler is at its point. -/
def Signalled (p : Program) : Prop :=
  match p.signal with
  | .awaited => p.client.leaves = none
  | .leaving caller => caller = .worker ∧
      (p.client.leaves = some (.leaving (some transport)) ∨ p.client.leaves = some .finished)
  | .handled => p.client.leaves = some .finished ∧ p.stopped = true

/-- What holds of the signal handler and of the way to the end of `io_context.run()`. -/
structure Stopping (p : Program) : Prop where
  ended : p.point = .detaching ∨ p.point = .running → p.stopped = true ∨ p.signal ≠ .awaited
  behind : p.point.behindRun = true → p.stopped = true
  signalled : p.Signalled
  free : (p.client.transports transport).disconnecting = false
  finished : p.client.leaves = some .finished → (p.client.transports transport).done = true

private theorem leave_of_other (hr : ProgramRun text realm h p) (hs : step text p a = some (o, p'))
    (hf : p'.fault = none) (ha : isSignal a = false) :
    p'.state.client.leaves = p.state.client.leaves ∧
      (p'.state.client.transports transport).disconnecting =
        (p.state.client.transports transport).disconnecting := by
  cases hb : p.state.clientAction text a with
  | none =>
    rw [((step_facts_of_run hr hs).idle hb).1]
    exact ⟨rfl, rfl⟩
  | some b =>
    have hv := survives hr hs hf hb
    rw [hv.leaves, hv.transport]
    cases performs_of_clientAction hb with
    | leave caller | leaveDisconnect close | leaveJoined => cases ha
    | call ec b next hc =>
      cases hc with
      | attach hp | detach hp =>
        refine ⟨rfl, ?_⟩
        simp only [Client.transportAfter]
        split <;> rfl
      | _ => exact ⟨rfl, rfl⟩
    | _ => exact ⟨rfl, rfl⟩

private theorem Signalled.other (hr : ProgramRun text realm h p)
    (hs : step text p a = some (o, p')) (hf : p'.fault = none) (ha : isSignal a = false)
    (hi : Signalled p.state) : Signalled p'.state := by
  have hsignal : p'.state.signal = p.state.signal := by
    rw [(step_facts_of_run hr hs).signal hf]
    cases a with
    | signal caller | signalStop => cases ha
    | _ => rfl
  unfold Signalled at hi ⊢
  rw [hsignal, (leave_of_other hr hs hf ha).1]
  split at hi
  · exact hi
  · exact hi
  · exact ⟨hi.1, stopped_step hr hs hf hi.2⟩

private theorem Stopping.worker (hi : Stopping p.state) {caller : Caller}
    (hruns : p.state.runsHandlers caller = true) (hawaited : p.state.signal = .awaited) :
    caller = .worker := by
  cases caller with
  | worker => rfl
  | other =>
    simp only [runsHandlers, Bool.and_eq_true, Bool.not_eq_true', decide_eq_true_eq] at hruns
    rcases hi.ended (.inr hruns.2) with hstopped | hsignal
    · rw [hstopped] at hruns
      cases hruns.1.1
    · exact absurd hawaited hsignal

private theorem done_of_leaveDisconnect {c c' : Client} {close : Option Exception}
    (hv : Survives c (.leaveDisconnect close) c')
    (hleaving : c.leaves = some (.leaving (some transport)) ∨ c.leaves = some .finished)
    (ht : ∀ t, c.session.transport = some t → t = transport) :
    c'.leaves = some .finished ∧ c'.transports transport = c.transports transport ∧
      (c.transports transport).done = true := by
  obtain ⟨x, hx, hvalue, hstate⟩ := hv.ran
  have hl : c.leaves = some (.leaving (some transport)) := by
    rcases hleaving with hl | hl
    · exact hl
    · simp [Client.act, hl] at hx
  simp only [Client.act, hl, Option.some.injEq] at hx
  subst hx
  rw [Client.leaveDisconnect_outcome] at hvalue
  unfold Client.leaveOutcome at hvalue
  cases hattached : c.session.transport with
  | none =>
    rw [hattached] at hvalue
    cases hvalue
  | some t =>
    obtain rfl := ht t hattached
    rw [hattached] at hvalue
    have hends := Client.isValue_disconnect (Client.callerOn (some transport) transport) close
      (c.transports transport)
    have hw : (c.transports transport).waits (Client.callerOn (some transport) transport) close =
        false := by
      simp [WebSocketTransport.waits, Client.callerOn]
    dsimp only at hvalue
    rw [hvalue, hw] at hends
    refine ⟨?_, ?_, ?_⟩
    · rw [hv.leaves]
      simp [Client.leavesAfter, hl, hattached, hw]
    · rw [hv.transport]
      simp only [Client.transportAfter, hl, hattached, if_true]
      simp [WebSocketTransport.after, WebSocketTransport.disconnectingAfter, hw,
        WebSocketTransport.openedAfter, WebSocketTransport.doneAfter,
        WebSocketTransport.runningAfter, WebSocketTransport.failingAfter,
        WebSocketTransport.joinableAfter, WebSocketTransport.stageAfter,
        WebSocketTransport.connectsAfter, WebSocketTransport.connectedAfter]
    · simp only [Outcome.isValue, Bool.false_or] at hends
      exact (Bool.and_eq_true_iff.mp hends.symm).2

private theorem Stopping.signal (hr : ProgramRun text realm h p)
    (hs : step text p a = some (o, p')) (hf : p'.fault = none) (hi : Stopping p.state)
    (ha : isSignal a = true) : p'.state.Signalled ∧
      (p'.state.client.transports transport).disconnecting = false ∧
      (p'.state.client.leaves = some .finished →
        (p'.state.client.transports transport).done = true) := by
  have hfacts := step_facts_of_run hr hs
  have hsignalled := hi.signalled
  unfold Signalled at hsignalled ⊢
  cases a with
  | signal caller =>
    have hv := survives hr hs hf (b := .leave (workerOf caller)) rfl
    obtain rfl := hi.worker hfacts.enabled.1 hfacts.enabled.2.2
    have haccepts := accepts_of_survived hr hs hf (b := .leave (workerOf .worker)) rfl
    have hopen : p.state.client.session.leaved.offers = [] := by
      apply haccepts.leaved.unsatisfied
      simp [Client.leaveOffers, Client.leaveOffer]
    have hleaves : p'.state.client.leaves = some (.leaving (some transport)) := by
      rw [hv.leaves]
      simp [Client.leavesAfter, Promise.satisfied, hopen, workerOf]
    rw [hfacts.signal hf, hv.transport, hleaves]
    exact ⟨⟨rfl, .inl rfl⟩, hi.free, by simp⟩
  | signalDisconnect close =>
    obtain ⟨caller, hleaving⟩ := hfacts.enabled
    have hsame : p'.state.signal = .leaving caller := (hfacts.signal hf).trans hleaving
    rw [hleaving] at hsignalled
    have hattached := (placed hr hfacts.running).attached
    obtain ⟨hleaves, htransport, hdone⟩ :=
      done_of_leaveDisconnect (survives hr hs hf (b := .leaveDisconnect close) rfl) hsignalled.2
        fun t ht => by
          rw [ht] at hattached
          split at hattached
          · exact Option.some.inj hattached
          · cases hattached
    rw [hsame, hleaves, htransport]
    exact ⟨⟨hsignalled.1, .inr rfl⟩, hi.free, fun _ => hdone⟩
  | signalJoined =>
    obtain ⟨caller, hleaving⟩ := hfacts.enabled
    rw [hleaving] at hsignalled
    obtain ⟨x, hx, -⟩ := (survives hr hs hf (b := .leaveJoined) rfl).ran
    rcases hsignalled.2 with hl | hl <;> simp [Client.act, hl] at hx
  | signalStop =>
    rw [(hfacts.idle rfl).1, hfacts.signal hf]
    exact ⟨⟨hfacts.enabled.2, hfacts.stopped hf⟩, hi.free, hi.finished⟩
  | _ => cases ha

private theorem Stopping.over_step (hr : ProgramRun text realm h p)
    (hs : step text p a = some (o, p')) (hf : p'.fault = none) (hi : Stopping p.state)
    (hp' : p'.state.point = .detaching ∨ p'.state.point = .running) :
    p'.state.stopped = true ∨ p'.state.signal ≠ .awaited := by
  have hkeep : p.state.stopped = true ∨ p.state.signal ≠ .awaited →
      p'.state.stopped = true ∨ p'.state.signal ≠ .awaited := by
    rintro (hstopped | hsignal)
    · exact .inl (stopped_step hr hs hf hstopped)
    · exact .inr (signal_ne_awaited_step hr hs hf hsignal)
  cases ha : isOther a with
  | true =>
    rw [point_of_other hr hs hf ha] at hp'
    exact hkeep (hi.ended hp')
  | false =>
    cases a with
    | main ec =>
      cases mainStep_of_step hr hs hf with
      | call b next hc hb hpoint hstopped =>
        rw [hpoint] at hp'
        cases hc with
        | detach hp => exact hkeep (hi.ended (.inl hp))
        | _ => simp at hp'
      | caught e next hc hhandled hclient hpoint hstopped => exact .inl hstopped
      | returned next hc hclient hpoint hstopped =>
        rw [hpoint] at hp'
        generalize hfailure : (none : Option Exception) = failure at hc
        cases hc with
        | connect r hp hr | join r hp hr => simp at hp'
        | listen r hp hcall =>
          cases r with
          | error e => cases hfailure
          | ok r =>
            exact hkeep (.inr ((heard hr (step_facts_of_run hr hs).running).listened r hcall))
      | move next hc hclient hpoint hstopped =>
        rw [hpoint] at hp'
        cases hc <;> simp at hp'
    | _ => cases ha

private theorem Stopping.behind_step (hr : ProgramRun text realm h p)
    (hs : step text p a = some (o, p')) (hf : p'.fault = none) (hi : Stopping p.state)
    (hp' : p'.state.point.behindRun = true) : p'.state.stopped = true := by
  apply stopped_step hr hs hf
  cases ha : isOther a with
  | true =>
    rw [point_of_other hr hs hf ha] at hp'
    exact hi.behind hp'
  | false =>
    cases a with
    | main ec =>
      cases mainStep_of_step hr hs hf with
      | call b next hc hb hpoint hstopped =>
        rw [hpoint] at hp'
        cases hc with
        | destroy hp | destroyJoined hp => exact hi.behind (by rw [hp]; rfl)
        | _ => cases hp'
      | caught e next hc hhandled hclient hpoint hstopped =>
        rw [hpoint] at hp'
        cases hp'
      | returned next hc hclient hpoint hstopped =>
        rw [hpoint] at hp'
        generalize (none : Option Exception) = failure at hc
        cases hc <;> cases hp'
      | move next hc hclient hpoint hstopped =>
        rw [hpoint] at hp'
        cases hc with
        | wiring hp => cases hp'
        | running hp hstopped hfree => exact hstopped
        | releasingSession hp hover | joiningWorker hp hdestroyed =>
          exact hi.behind (by rw [hp]; rfl)
    | _ => cases ha

private theorem Stopping.step (hr : ProgramRun text realm h p)
    (hs : step text p a = some (o, p')) (hf : p'.fault = none) (hi : Stopping p.state) :
    Stopping p'.state := by
  cases ha : isSignal a with
  | true =>
    obtain ⟨hsignalled, hfree, hfinished⟩ := hi.signal hr hs hf ha
    exact ⟨hi.over_step hr hs hf, hi.behind_step hr hs hf, hsignalled, hfree, hfinished⟩
  | false =>
    obtain ⟨hleaves, hfree⟩ := leave_of_other hr hs hf ha
    refine ⟨hi.over_step hr hs hf, hi.behind_step hr hs hf, hi.signalled.other hr hs hf ha,
      hfree.trans hi.free, ?_⟩
    intro hl
    rw [hleaves] at hl
    exact (flags_step hr hs hf).1 (hi.finished hl)

/-- While the program runs, a signal that was handled has found the connection closed, and the main
thread has not got behind `io_context.run()` but with a stopped context. -/
theorem stopping (hr : ProgramRun text realm h p) (hf : p.fault = none) : Stopping p.state := by
  refine invariant_of_running (fun _ p => Stopping p) ?_ ?_ hr hf
  · constructor
    · intro hp
      simp at hp
    · intro hp
      cases hp
    · rfl
    · rfl
    · intro hl
      cases hl
  · exact fun _ _ _ _ _ hr _ hi hs hf => hi.step hr hs hf

end Program
end Barbarossa
