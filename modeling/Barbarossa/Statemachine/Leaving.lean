import Barbarossa.Base.Refinement
import Barbarossa.Statemachine.Cadence

/-!
# How the handler thread leaves

It leaves behind a send that failed or a read of the disconnected state. When the connection has
ended and the state does not say so, it sleeps and reads for ever.
-/

namespace Barbarossa
open Barbarossa.Base Barbarossa.Protocol

namespace WebsocketEndpoint

variable {text : JsonText} {h : EndpointHistory} {p p' : Process WebsocketEndpoint EndpointFault}
  {a : EndpointAction} {o : Outcome Exception EndpointFault PUnit × List EndpointEffect}

/-! ### The points of the handler thread -/

/-- What the state, the connection and the local variables say at the points of the handler
thread. -/
structure Consistent (s : WebsocketEndpoint) : Prop where
  attended : s.Attended
  ended : s.connection = .ended → s.state = .disconnected ∨ s.state = .greeted
  disconnected : s.state = .disconnected → s.connection = .ended
  pinging : s.handler = .pinging → s.state = .registered ∨ s.state = .disconnected
  done : s.done = true → s.Ended
  failed : s.ec.isSome = true → s.handler = .recording ∨ s.handler = .checking ∨ s.handler = .left
  left : s.handler = .left → s.ec.isSome = true ∨ s.done = true

/-- A disconnected endpoint has ended unless its handler thread greets. -/
theorem Consistent.toEnded {s : WebsocketEndpoint} (hi : s.Consistent)
    (hs : s.state = .disconnected) (hg : s.handler.greets = false) : s.Ended := by
  have hc := hi.disconnected hs
  refine ⟨hs, hc, ?_, hg⟩
  by_contra hm
  rw [hi.attended hm] at hc
  cases hc

private theorem Consistent.connection_step (hi : p.state.Consistent)
    (hs : step text p a = some (o, p')) :
    (p'.state.connection = .ended → p'.state.state = .disconnected ∨ p'.state.state = .greeted) ∧
      (p'.state.state = .disconnected → p'.state.connection = .ended) := by
  have hf := step_facts hs
  have henabled := hf.enabled
  rw [hf.connection, hf.state]
  cases a with
  | handler ec =>
    simp only [connectionAfter, stateAfter]
    split
    · simp
    · exact ⟨hi.ended, hi.disconnected⟩
  | goOn =>
    have hlive := hi.attended henabled
    simp only [connectionAfter, stateAfter, hlive]
    refine ⟨by simp, ?_⟩
    split
    · simp
    · intro hd
      rw [hi.disconnected hd] at hlive
      cases hlive
  | onMessage payload => exact ⟨hi.ended, hi.disconnected⟩
  | _ => simp [connectionAfter, stateAfter]

private theorem Consistent.pinging_step (hi : p.state.Consistent) (ho : Ordered h p.state)
    (hs : step text p a = some (o, p')) (hp : p'.state.handler = .pinging) :
    p'.state.state = .registered ∨ p'.state.state = .disconnected := by
  have hf := step_facts hs
  rw [hf.handler] at hp
  rw [hf.state]
  cases a with
  | handler ec =>
    cases hg : p.state.handler.greets with
    | true =>
      cases hh : p.state.handler with
      | greeting | recording => simp [handlerAfter, hh] at hp
      | _ =>
        rw [hh] at hg
        cases hg
    | false =>
      rw [stateAfter_handler hg]
      exact .inl ((handlerAfter_of_not_greets hg ec).2.2 hp)
  | onOpen =>
    have hopened := (ho.connecting hf.enabled.1).1
    rcases hi.pinging hp with hs' | hs' <;> simp [hs'] at hopened
  | onClose | onFail => exact .inr rfl
  | onMessage payload => exact hi.pinging hp
  | goOn =>
    simp only [stateAfter]
    split
    · exact .inl rfl
    · exact hi.pinging hp

private theorem Consistent.done_step (hi : p.state.Consistent)
    (hs : step text p a = some (o, p')) (hd : p'.state.done = true) : p'.state.Ended := by
  have hf := step_facts hs
  rw [hf.done] at hd
  have hended : p.state.Ended := by
    cases a with
    | handler ec =>
      simp only [doneAfter, Bool.or_eq_true, decide_eq_true_eq] at hd
      rcases hd with ⟨hreading, hdisconnected⟩ | hdone
      · exact hi.toEnded hdisconnected (by rw [hreading]; rfl)
      · exact hi.done hdone
    | _ => exact hi.done hd
  exact hended.step hs

private theorem Consistent.left_step (hi : p.state.Consistent)
    (hs : step text p a = some (o, p')) :
    (p'.state.ec.isSome = true →
      p'.state.handler = .recording ∨ p'.state.handler = .checking ∨ p'.state.handler = .left) ∧
      (p'.state.handler = .left → p'.state.ec.isSome = true ∨ p'.state.done = true) := by
  have hf := step_facts hs
  rw [(locals_step hs).2, hf.handler, hf.done]
  cases a with
  | handler ec =>
    simp only [handlerAfter, doneAfter, ecAfter]
    cases hh : p.state.handler with
    | left => exact absurd hh hf.enabled
    | reading =>
      have hnone : p.state.ec.isSome ≠ true := by
        intro he
        rcases hi.failed he with hp | hp | hp <;> simp [hh] at hp
      refine ⟨fun he => absurd he hnone, ?_⟩
      dsimp only [handlerFrom]
      cases p.state.state with
      | registered =>
        dsimp only
        split <;> simp
      | _ => simp
    | checking =>
      dsimp only
      split
      · next hc => exact ⟨fun _ => by simp, fun _ => hc.imp id (by simp)⟩
      · next hc => exact ⟨fun he => absurd (.inl he) hc, by simp⟩
    | _ => simp
  | _ => exact ⟨hi.failed, hi.left⟩

private theorem Consistent.step (hi : p.state.Consistent) (ho : Ordered h p.state)
    (hs : WebsocketEndpoint.step text p a = some (o, p')) : p'.state.Consistent where
  attended := hi.attended.step hs
  ended := (hi.connection_step hs).1
  disconnected := (hi.connection_step hs).2
  pinging := hi.pinging_step ho hs
  done := hi.done_step hs
  failed := (hi.left_step hs).1
  left := (hi.left_step hs).2

/-- The state of a run is consistent. -/
theorem consistent (hr : EndpointRun text h p) : p.state.Consistent := by
  induction hr with
  | nil => constructor <;> simp [Attended]
  | cons hr hs ih => exact ih.step (ordered hr) hs

/-! ### Behind the end of the connection -/

/-- The connection has ended, and the websocket thread is at rest. -/
structure Closed (s : WebsocketEndpoint) : Prop where
  connection : s.connection = .ended
  message : s.message = .idle

private theorem Closed.step (hi : p.state.Closed) (hs : step text p a = some (o, p')) :
    (∃ ec, a = .handler ec) ∧ p'.fault = none ∧ p'.state.Closed := by
  have hf := step_facts hs
  have henabled := hf.enabled
  cases a with
  | handler ec =>
    exact ⟨⟨ec, rfl⟩, hf.fault, hf.connection.trans hi.connection, hf.message.trans hi.message⟩
  | goOn => exact absurd hi.message henabled
  | _ => simp [Enabled, hi.connection] at henabled

/-- The handler thread leaves, behind a disconnection or behind a failed send. -/
structure Leaving (p : Process WebsocketEndpoint EndpointFault) : Prop where
  fault : p.fault = none
  closed : p.state.Closed
  cause : p.state.Ended ∨
    p.state.ec.isSome = true ∧ (p.state.handler = .checking ∨ p.state.handler = .left)

/-- The steps that are left for a handler thread that leaves. -/
def remaining (s : WebsocketEndpoint) : Nat :=
  match s.handler with
  | .pinging => 4
  | .checking => if s.ec.isSome ∨ s.done then 1 else 3
  | .reading => 2
  | .greeting | .recording | .left => 0

private theorem remaining_step {ec : Option Bytes} (hi : p.state.Ended)
    (hs : step text p (.handler ec) = some (o, p')) :
    remaining p'.state < remaining p.state := by
  have hf := step_facts hs
  have hhandler := hf.handler
  have hdone := hf.done
  have hec := (locals_step hs).2
  have hgreets := hi.handler
  simp only [handlerAfter, doneAfter, ecAfter] at hhandler hdone hec
  unfold remaining
  cases hh : p.state.handler with
  | left => exact absurd hh hf.enabled
  | greeting | recording =>
    rw [hh] at hgreets
    cases hgreets
  | reading =>
    simp [hh, handlerFrom, hi.state] at hhandler hdone
    simp [hhandler, hdone]
  | pinging =>
    simp only [hh] at hhandler
    simp only [hhandler]
    split <;> simp
  | checking =>
    simp only [hh] at hhandler
    by_cases hc : p.state.ec.isSome = true ∨ p.state.done = true
    · rw [if_pos hc] at hhandler
      simp [hhandler, hc]
    · rw [if_neg hc] at hhandler
      simp [hhandler, hc]

private theorem leaving_decreases (text : JsonText) :
    Decreases (step text) Leaving fun p => remaining p.state := by
  intro p a o p' hi hs
  obtain ⟨⟨ec, rfl⟩, hfault, hclosed⟩ := hi.closed.step hs
  rcases hi.cause with hended | ⟨hfailed, hchecking | hleft⟩
  · exact ⟨⟨hfault, hclosed, .inl (hended.step hs)⟩, remaining_step hended hs⟩
  · have hhandler : p'.state.handler = .left := by
      rw [(step_facts hs).handler]
      simp [handlerAfter, hchecking, hfailed]
    have hec : p'.state.ec = p.state.ec := by
      rw [(locals_step hs).2]
      simp [ecAfter, hchecking]
    refine ⟨⟨hfault, hclosed, .inr ⟨by rw [hec]; exact hfailed, .inr hhandler⟩⟩, ?_⟩
    simp [remaining, hhandler, hchecking, hfailed]
  · exact absurd hleft (step_facts hs).enabled

/-- The handler thread reads a state that never says that the connection has ended. -/
structure Stranded (p : Process WebsocketEndpoint EndpointFault) : Prop where
  fault : p.fault = none
  closed : p.state.Closed
  state : p.state.state = .greeted
  ec : p.state.ec = none
  done : p.state.done = false
  handler : p.state.handler = .reading ∨ p.state.handler = .checking

private theorem Stranded.step (hi : Stranded p) (hs : step text p a = some (o, p')) :
    Stranded p' ∧ o.2 = [] := by
  obtain ⟨⟨ec, rfl⟩, hfault, hclosed⟩ := hi.closed.step hs
  have hf := step_facts hs
  have hstate := hf.state
  have hhandler := hf.handler
  have hdone := hf.done
  have houtput := hf.output
  have hec := (locals_step hs).2
  simp only [stateAfter, handlerAfter, doneAfter, ecAfter, outputAfter] at *
  rcases hi.handler with hh | hh
  · simp [hh, hi.state, hi.ec, hi.done, handlerFrom] at hstate hhandler hdone hec houtput
    exact ⟨⟨hfault, hclosed, hstate, hec, hdone, .inr hhandler⟩, houtput⟩
  · simp [hh, hi.state, hi.ec, hi.done] at hstate hhandler hdone hec houtput
    exact ⟨⟨hfault, hclosed, hstate, hec, hdone, .inl hhandler⟩, houtput⟩

private theorem leaving_or_stranded (hr : EndpointRun text h p) (hf : p.fault = none)
    (hc : p.state.connection = .ended) (hg : p.state.handler.greets = false) :
    (p.state.state = .disconnected ∨ p.state.ec.isSome = true → Leaving p) ∧
      (¬ (p.state.state = .disconnected ∨ p.state.ec.isSome = true) → Stranded p) := by
  have hi := consistent hr
  have hclosed : p.state.Closed := by
    refine ⟨hc, ?_⟩
    by_contra hm
    rw [hi.attended hm] at hc
    cases hc
  constructor
  · rintro (hs | hec)
    · exact ⟨hf, hclosed, .inl (hi.toEnded hs hg)⟩
    · refine ⟨hf, hclosed, .inr ⟨hec, (hi.failed hec).resolve_left ?_⟩⟩
      intro hh
      rw [hh] at hg
      cases hg
  · intro hn
    obtain ⟨hnotstate, hnone⟩ := not_or.mp hn
    have hstate := (hi.ended hc).resolve_left hnotstate
    have hdone : p.state.done = false := by
      by_contra hd
      exact hnotstate (hi.done (by simpa using hd)).state
    refine ⟨hf, hclosed, hstate, by simpa using hnone, hdone, ?_⟩
    cases hh : p.state.handler with
    | reading => exact .inl rfl
    | checking => exact .inr rfl
    | greeting | recording =>
      rw [hh] at hg
      cases hg
    | pinging => rcases hi.pinging hh with hp | hp <;> simp [hstate] at hp
    | left => rcases hi.left hh with hp | hp <;> simp_all

private theorem Stranded.run {h' : EndpointHistory} (hi : Stranded p)
    (hr : Run (WebsocketEndpoint.step text) p h' p') : Stranded p' ∧ frames h' = [] := by
  refine hr.invariant (fun h p => Stranded p ∧ frames h = []) ⟨hi, rfl⟩ ?_
  rintro h s a o s' ⟨hs, hframes⟩ hstep
  obtain ⟨hs', houtput⟩ := hs.step hstep
  refine ⟨hs', ?_⟩
  unfold frames at hframes ⊢
  rw [emitted_cons, List.filterMap_append, hframes, houtput]
  rfl

/-- The end of the handler thread behind the end of the connection, unless it greets. When the
state says that the endpoint is disconnected, or the last send has failed, it takes four steps at
most, can take each of them, and leaves. Otherwise it never leaves and never sends: it sleeps and
reads for ever. -/
theorem leaves_or_strands (hr : EndpointRun text h p) (hf : p.fault = none)
    (hc : p.state.connection = .ended) (hg : p.state.handler.greets = false) :
    (p.state.state = .disconnected ∨ p.state.ec.isSome = true →
      (∀ h' p', Run (step text) p h' p' → h'.length ≤ 4 ∧
        (p'.state.handler = .left ∨ ∃ a o p'', step text p' a = some (o, p''))) ∧
      ∃ h' p', Run (step text) p h' p' ∧ p'.state.handler = .left) ∧
    (¬ (p.state.state = .disconnected ∨ p.state.ec.isSome = true) →
      (∀ h' p', Run (step text) p h' p' → p'.state.handler ≠ .left ∧ frames h' = []) ∧
      ∀ n, ∃ h' p', Run (step text) p h' p' ∧ h'.length = n) := by
  obtain ⟨hleaving, hstranded⟩ := leaving_or_stranded hr hf hc hg
  have hdecreases := leaving_decreases text
  have hprogress : ∀ p, Leaving p → p.state.handler ≠ .left →
      ∃ a o p', step text p a = some (o, p') := fun p hi hn =>
    ⟨.handler none, exists_step_handler hi.fault hn none⟩
  constructor
  · intro hcause
    refine ⟨fun h' p' hr' => ?_, hdecreases.exists_final hprogress (hleaving hcause)⟩
    obtain ⟨hi', hlength⟩ := hdecreases.length_le hr' (hleaving hcause)
    have hbound : remaining p.state ≤ 4 := by
      unfold remaining
      split <;> (try split) <;> omega
    refine ⟨by omega, ?_⟩
    by_cases hleft : p'.state.handler = .left
    · exact .inl hleft
    · exact .inr (hprogress p' hi' hleft)
  · intro hcause
    have hi := hstranded hcause
    refine ⟨fun h' p' hr' => ?_, exists_run_of_length (fun p a o p' hi hs => (hi.step hs).1) ?_ hi⟩
    · obtain ⟨hi', hframes⟩ := hi.run hr'
      refine ⟨?_, hframes⟩
      rcases hi'.handler with hh | hh <;> simp [hh]
    · intro p hi
      refine ⟨.handler none, exists_step_handler hi.fault ?_ none⟩
      rcases hi.handler with hh | hh <;> simp [hh]

/-- An endpoint whose connection was closed while it greeted reads for ever. -/
theorem leaves_or_strands_greeting : ∃ h p, EndpointRun (.single .null []) h p ∧
    p.state.connection = .ended ∧
    ∀ n, ∃ h' p', Run (step (.single .null [])) p h' p' ∧ h'.length = n := by
  obtain ⟨h, p, hr, hc⟩ := exists_run_of_replay (step (.single .null [])) { state := {} }
    [.onOpen, .handler none, .onClose, .handler none, .handler none]
    (fun _ p => p.fault.isNone && decide (p.state.connection = .ended) &&
      !p.state.handler.greets && decide (p.state.state = .greeted) && p.state.ec.isNone) (by decide)
  simp only [Bool.and_eq_true, decide_eq_true_eq, Option.isNone_iff_eq_none,
    Bool.not_eq_true'] at hc
  obtain ⟨⟨⟨⟨hf, hended⟩, hg⟩, hs⟩, hec⟩ := hc
  exact ⟨h, p, hr, hended, ((leaves_or_strands hr hf hended hg).2 (by simp [hs, hec])).2⟩

end WebsocketEndpoint
end Barbarossa
