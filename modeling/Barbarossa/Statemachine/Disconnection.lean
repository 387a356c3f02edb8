import Barbarossa.Statemachine.Steps

/-!
# Disconnection

The close callback and the fail callback write the last state there is, and the handler thread
leaves when it reads it. Between its read of a connected state and its write of the next one, the
handler thread overwrites whatever the callbacks wrote.
-/

namespace Barbarossa
open Barbarossa.Base

/-- The handler thread has read that the endpoint is connected and will write that it greeted. -/
def HandlerPoint.greets : HandlerPoint → Bool
  | .greeting | .recording => true
  | _ => false

namespace WebsocketEndpoint

variable {text : JsonText} {h : EndpointHistory} {p p' : Process WebsocketEndpoint EndpointFault}
  {a : EndpointAction} {o : Outcome Exception EndpointFault PUnit × List EndpointEffect}

/-- A read of the state by the handler thread. -/
def readsState (s : WebsocketEndpoint) : EndpointAction → Bool
  | .handler _ => decide (s.handler = .reading)
  | _ => false

/-- If the endpoint is disconnected, it stays so, and every later read of the handler thread takes
the branch that leaves the loop. -/
def StaysDisconnected (text : JsonText) (p : Process WebsocketEndpoint EndpointFault) : Prop :=
  p.state.state = .disconnected → ∀ h p', Run (step text) p h p' →
    p'.state.state = .disconnected ∧
      ∀ e ∈ h, e.before.state.readsState e.action = true → e.after.state.done = true

/-- Disconnection is final in every state of a run. -/
def DisconnectionFinal (text : JsonText) (h : EndpointHistory) : Prop :=
  ∀ e ∈ h, StaysDisconnected text e.after

/-- The connection is not closed and does not fail while the handler thread greets. -/
def spares (s : WebsocketEndpoint) : EndpointAction → Bool
  | .onClose | .onFail => !s.handler.greets
  | _ => true

/-! ### A final state -/

/-- Nothing is left that could write another state. -/
structure Ended (s : WebsocketEndpoint) : Prop where
  state : s.state = .disconnected
  connection : s.connection = .ended
  message : s.message = .idle
  handler : s.handler.greets = false

/-- Where the handler thread goes without the connected state. -/
theorem greets_handlerAfter {s : WebsocketEndpoint} (hs : s.state ≠ .connected)
    (hh : s.handler.greets = false) (ec : Option Bytes) :
    (s.handlerAfter (.handler ec)).greets = false := by
  unfold handlerAfter
  cases hpoint : s.handler with
  | reading =>
    dsimp only [handlerFrom]
    cases hstate : s.state with
    | connected => exact absurd hstate hs
    | registered =>
      dsimp only
      split <;> rfl
    | _ => rfl
  | greeting | recording =>
    rw [hpoint] at hh
    cases hh
  | checking =>
    dsimp only
    split <;> rfl
  | _ => rfl

/-- The handler thread writes nothing unless it greets. -/
theorem stateAfter_handler {s : WebsocketEndpoint} (hh : s.handler.greets = false)
    (ec : Option Bytes) : s.stateAfter (.handler ec) = s.state := by
  rw [stateAfter, if_neg]
  intro hr
  rw [hr] at hh
  cases hh

/-- An ended endpoint stays ended. -/
theorem Ended.step (hi : p.state.Ended) (hs : WebsocketEndpoint.step text p a = some (o, p')) :
    p'.state.Ended := by
  have hf := step_facts hs
  have henabled := hf.enabled
  cases a with
  | handler ec =>
    constructor
    · rw [hf.state, stateAfter_handler hi.handler]
      exact hi.state
    · exact hf.connection.trans hi.connection
    · exact hf.message.trans hi.message
    · rw [hf.handler]
      exact greets_handlerAfter (by simp [hi.state]) hi.handler ec
  | goOn => exact absurd hi.message henabled
  | _ => simp [Enabled, hi.connection] at henabled

/-- An ended endpoint stays disconnected, and its handler thread finds it so. -/
theorem Ended.staysDisconnected (hi : p.state.Ended) : StaysDisconnected text p := by
  intro _ h p' hr
  have hrun : p'.state.Ended ∧
      ∀ e ∈ h, e.before.state.readsState e.action = true → e.after.state.done = true := by
    refine hr.invariant (fun h p => p.state.Ended ∧ ∀ e ∈ h,
      e.before.state.readsState e.action = true → e.after.state.done = true) ⟨hi, by simp⟩ ?_
    rintro h s a o s' ⟨hs, hreads⟩ hstep
    refine ⟨hs.step hstep, List.forall_mem_cons.mpr ⟨?_, hreads⟩⟩
    intro hread
    cases a with
    | handler ec =>
      have hpoint : s.state.handler = .reading := by simpa [readsState] using hread
      rw [(step_facts hstep).done]
      simp [doneAfter, hpoint, hs.state]
    | _ => cases hread
  exact ⟨hrun.1.state, hrun.2⟩

/-- Who can write while the endpoint is disconnected: nobody. -/
structure Settled (s : WebsocketEndpoint) : Prop where
  ended : s.state = .disconnected → s.connection = .ended ∧ s.handler.greets = false
  attended : s.Attended

/-- A settled endpoint that is disconnected has ended. -/
theorem Settled.toEnded {s : WebsocketEndpoint} (hi : s.Settled) (hs : s.state = .disconnected) :
    s.Ended := by
  obtain ⟨hc, hh⟩ := hi.ended hs
  refine ⟨hs, hc, ?_, hh⟩
  by_contra hm
  rw [hi.attended hm] at hc
  cases hc

/-- A step that spares the handler thread keeps an endpoint settled. -/
theorem Settled.step (hi : p.state.Settled) (ha : p.state.spares a = true)
    (hs : WebsocketEndpoint.step text p a = some (o, p')) : p'.state.Settled := by
  have hf := step_facts hs
  by_cases hd : p.state.state = .disconnected
  · have he := (hi.toEnded hd).step hs
    exact ⟨fun _ => ⟨he.connection, he.handler⟩, fun hm => absurd he.message hm⟩
  · refine ⟨?_, hi.attended.step hs⟩
    intro hd'
    rw [hf.state] at hd'
    rw [hf.connection, hf.handler]
    cases a with
    | onClose | onFail => exact ⟨rfl, by simpa [spares, handlerAfter] using ha⟩
    | handler ec =>
      simp only [stateAfter] at hd'
      split at hd'
      · cases hd'
      · exact absurd hd' hd
    | goOn =>
      simp only [stateAfter] at hd'
      split at hd'
      · cases hd'
      · exact absurd hd' hd
    | onOpen => cases hd'
    | onMessage payload => exact absurd hd' hd

/-- A run that spares the handler thread leaves the endpoint settled, and disconnection final. -/
theorem final_of_spared (hr : EndpointRun text h p)
    (hc : ∀ e ∈ h, e.before.state.spares e.action = true) :
    p.state.Settled ∧ DisconnectionFinal text h := by
  induction hr with
  | nil =>
    refine ⟨⟨?_, fun hm => absurd rfl hm⟩, by simp [DisconnectionFinal]⟩
    intro hd
    cases hd
  | cons _ hs ih =>
    obtain ⟨ha, hc⟩ := List.forall_mem_cons.mp hc
    obtain ⟨hi, hfinal⟩ := ih hc
    have hi' := hi.step ha hs
    refine ⟨hi', List.forall_mem_cons.mpr ⟨?_, hfinal⟩⟩
    intro hd
    exact (hi'.toEnded hd).staysDisconnected hd

/-! ### A close while the handler thread greets -/

/-- The handler thread writes the greeted state over the disconnected one. -/
theorem not_staysDisconnected (hf : p.fault = none) (hd : p.state.state = .disconnected)
    (hh : p.state.handler.greets = true) : ¬ StaysDisconnected text p := by
  intro hstays
  have hrecord : ∀ q : Process WebsocketEndpoint EndpointFault, q.fault = none →
      q.state.handler = .recording → ∃ o q', step text q (.handler none) = some (o, q') ∧
        q'.state.state = .greeted := by
    intro q hq hpoint
    obtain ⟨o, q', hs⟩ := @exists_step_handler text _ hq (by simp [hpoint]) none
    refine ⟨o, q', hs, ?_⟩
    rw [(step_facts hs).state]
    exact if_pos hpoint
  cases hpoint : p.state.handler with
  | recording =>
    obtain ⟨o, p', hs, hgreeted⟩ := hrecord p hf hpoint
    have hstate := (hstays hd _ _ (.cons .nil hs)).1
    rw [hgreeted] at hstate
    cases hstate
  | greeting =>
    obtain ⟨o, p₁, hs₁⟩ := @exists_step_handler text _ hf (by simp [hpoint]) none
    have hf₁ := step_facts hs₁
    obtain ⟨o₂, p₂, hs₂, hgreeted⟩ := hrecord p₁ hf₁.fault
      (by rw [hf₁.handler, handlerAfter, hpoint])
    have hstate := (hstays hd _ _ (.cons (.cons .nil hs₁) hs₂)).1
    rw [hgreeted] at hstate
    cases hstate
  | _ =>
    rw [hpoint] at hh
    cases hh

/-- Disconnection is final in a run exactly when the connection is never closed and never fails
while the handler thread greets. -/
theorem disconnection_final_iff (hr : EndpointRun text h p) :
    DisconnectionFinal text h ↔ ∀ e ∈ h, e.before.state.spares e.action = true := by
  constructor
  · rintro hfinal ⟨p, a, o, p'⟩ he
    obtain ⟨older, -, hs⟩ := hr.of_mem he
    have hf := step_facts hs
    have hstays := hfinal _ he
    cases a with
    | onClose | onFail =>
      have hpoint : p'.state.handler = p.state.handler := hf.handler
      by_contra hh
      exact not_staysDisconnected hf.fault hf.state (by simpa [spares, hpoint] using hh) hstays
    | _ => rfl
  · exact fun hc => (final_of_spared hr hc).2

/-- A connection that is closed while the handler thread sleeps. -/
theorem disconnection_final_sleeping : ∃ h p, EndpointRun (.single .null []) h p ∧
    DisconnectionFinal (.single .null []) h ∧ p.state.handler = .left := by
  obtain ⟨h, p, hr, hc⟩ := exists_run_of_replay (step (.single .null [])) { state := {} }
    [.onOpen, .handler none, .handler none, .handler none, .handler none, .onClose,
      .handler none, .handler none]
    (fun h p => decide (∀ e ∈ h, e.before.state.spares e.action = true) &&
      decide (p.state.handler = .left)) (by decide)
  simp only [Bool.and_eq_true, decide_eq_true_eq] at hc
  exact ⟨h, p, hr, (disconnection_final_iff hr).mpr hc.1, hc.2⟩

/-- A connection that is closed between the read of the connected state and the HELLO. -/
theorem not_disconnection_final : ¬ ∀ text h p, EndpointRun text h p →
    DisconnectionFinal text h := by
  intro hall
  obtain ⟨h, p, hr, hc⟩ := exists_run_of_replay (step (.single .null [])) { state := {} }
    [.onOpen, .handler none, .onClose]
    (fun h _ => h.any fun e => decide (e.after.fault = none ∧
      e.after.state.state = ControlChannelStates.disconnected ∧
      e.after.state.handler.greets = true)) (by decide)
  simp only [List.any_eq_true, decide_eq_true_eq] at hc
  obtain ⟨e, he, hf, hd, hh⟩ := hc
  exact not_staysDisconnected hf hd hh (hall _ h p hr e he)

end WebsocketEndpoint
end Barbarossa
