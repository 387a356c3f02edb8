import Barbarossa.Session.Received

/-!
# Rejected messages

A message whose handler throws should have changed nothing. The handlers of an ABORT and of a CALL
read their fields before they do anything; the handler of a WELCOME has changed the state and
started the heartbeat by the time it reads its field and sets the promise.
-/

namespace Barbarossa.Session
open Barbarossa.Base

/-- The two sessions have the same state, id and heartbeat, and the same results in their
promises. -/
structure SameControl (s s' : Session) : Prop where
  state : s'.state = s.state
  sessionId : s'.sessionId = s.sessionId
  hearbeatThread : s'.hearbeatThread = s.hearbeatThread
  joined : s'.joined.result = s.joined.result
  leaved : s'.leaved.result = s.leaved.result
  pongReceived : s'.pongReceived.result = s.pongReceived.result

/-- If the handler throws, nothing was changed. -/
def AllOrNothing (net : Net) (m : Message) (s : Session) : Prop :=
  ∀ e, (onMessage net m s).outcome = .thrown e → SameControl s (onMessage net m s).state

/-- A WELCOME that starts the session can be read, and `joined_` is unsatisfied. -/
def appliesWhole (s : Session) (m : Message) : Bool :=
  match m.received with
  | .welcome sessionId =>
    decide (s.state ≠ .establishing) || s.hearbeatThread.isSome ||
      sessionId.isOk && !s.joined.satisfied
  | _ => true

private theorem sameControl_refl (s : Session) : SameControl s s := ⟨rfl, rfl, rfl, rfl, rfl, rfl⟩

private theorem result_offer {α : Type} {p : Promise Exception α} (h : p.satisfied = true)
    (r : Except Exception α) : (p.offer r).result = p.result := by
  cases hp : p.result with
  | none => simp [Promise.satisfied, Promise.result_eq_none.mp hp] at h
  | some x => exact Promise.result_offer_of_satisfied hp

private theorem satisfied_of_thrown {α : Type} {p : Promise Exception α} {e : Exception}
    (h : (if p.satisfied then .thrown (.futureError .promiseAlreadySatisfied) else .value ⟨⟩ :
      Outcome Exception Fault PUnit) = .thrown e) : p.satisfied = true := by
  by_contra hp
  simp [hp] at h

private theorem state_welcomed (r : Except Exception UInt32) (s : Session) :
    (s.welcomed r).state = .established := by
  unfold welcomed
  split <;> rfl

private theorem allOrNothing_welcome {net : Net} {r : Except Exception UInt32} {s : Session}
    (hs : s.state = .establishing) :
    (∀ e, s.onMessageOutcome net (.welcome r) = .thrown e → SameControl s (s.after (.welcome r))) ↔
      ∀ e, s.onMessageOutcome net (.welcome r) ≠ .thrown e := by
  constructor
  · intro h e he
    have hstate := (h e he).state
    simp only [after, hs, ite_true, state_welcomed] at hstate
    cases hstate
  · exact fun h e he => absurd he (h e)

/-- A message is all or nothing exactly when it is no WELCOME that starts the session and cannot be
read or finds `joined_` satisfied. -/
theorem all_or_nothing_iff (net : Net) (m : Message) (s : Session) :
    AllOrNothing net m s ↔ s.appliesWhole m = true := by
  unfold AllOrNothing appliesWhole
  simp only [onMessage_eq]
  cases hr : m.received with
  | welcome sessionId =>
    by_cases hs : s.state = .establishing
    · rw [allOrNothing_welcome hs]
      cases ht : s.hearbeatThread with
      | some point => simp [onMessageOutcome, hs, ht]
      | none =>
        cases sessionId with
        | error e => simp [onMessageOutcome, hs, ht, Except.isOk, Except.toBool]
        | ok sessionId =>
          by_cases hj : s.joined.satisfied <;>
            simp [onMessageOutcome, hs, ht, hj, Except.isOk, Except.toBool]
    · simp [after, hs, sameControl_refl]
  | empty =>
    simp only [iff_true]
    intro e he
    exact { sameControl_refl s with leaved := result_offer (satisfied_of_thrown he) _ }
  | abort reason =>
    simp only [iff_true]
    intro e he
    cases reason with
    | error e => exact sameControl_refl s
    | ok reason =>
      exact { sameControl_refl s with joined := result_offer (satisfied_of_thrown he) _ }
  | pong =>
    simp only [iff_true]
    intro e he
    exact { sameControl_refl s with pongReceived := result_offer (satisfied_of_thrown he) _ }
  | refused e | call request | ignored => simp [after, sameControl_refl]

/-- The WELCOME `[2]` throws, and the session is established without an id. -/
theorem not_all_or_nothing : ¬ ∀ net m s, AllOrNothing net m s := by
  intro hall
  have h := hall ⟨fun _ => true, none⟩ ⟨[.integer 2]⟩ { state := .establishing }
    Message.invalidIndex rfl
  have hstate := h.state
  cases hstate

end Barbarossa.Session
