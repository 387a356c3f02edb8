import Barbarossa.Client.PongPromise
import Barbarossa.Client.Termination

/-!
# The heartbeat loop at each of its points

What holds of `pong_received_` and `leaved_` wherever the loop stands, whatever the other
threads do: the future of a cycle is taken once, only booleans are offered, and the only
error that leaves the loop is the one of a satisfied promise.
-/

namespace Barbarossa
open Barbarossa.Base

namespace Session

/-- The heartbeat thread is in its loop. -/
def looping (s : Session) : Bool :=
  match s.hearbeatThread with
  | none | some .ended => false
  | some _ => true

/-- The loop is about to satisfy a promise that is satisfied. -/
def stumbles (s : Session) : Bool :=
  s.hearbeatThread = some .expired && s.pongReceived.satisfied ||
    s.verdict.isSome && s.leaved.satisfied

/-- What holds of the loop's promise at each point of the loop: its future is taken only behind the
idle wait, only booleans are offered to it, and one was when it is judged. -/
structure Healthy (s : Session) : Prop where
  untaken : s.hearbeatThread = none ∨ s.hearbeatThread = some .idle ∨
    s.hearbeatThread = some .dispatched → s.pongReceived.retrieved = false
  judged : s.hearbeatThread = some .judging → s.pongReceived.offers ≠ []
  alive : ∀ r ∈ s.pongReceived.offers, ∃ alive, r = .ok alive

/-- Another thread offers booleans to the promise, and at most starts the loop. -/
theorem Healthy.of_offers {s s' : Session} (hs : s.Healthy) (rs : List Bool)
    (hoffers : s'.pongReceived = s.pongReceived.offerAll (rs.map .ok))
    (hthread : s'.hearbeatThread = s.hearbeatThread ∨
      s.hearbeatThread = none ∧ s'.hearbeatThread = some .idle) : s'.Healthy := by
  constructor
  · rw [hoffers]
    intro hpoint
    apply hs.untaken
    rcases hthread with hsame | ⟨hnone, -⟩
    · rwa [hsame] at hpoint
    · exact .inl hnone
  · rw [hoffers]
    intro hpoint
    rcases hthread with hsame | ⟨-, hidle⟩
    · rw [hsame] at hpoint
      simp only [Promise.offerAll, ne_eq, List.append_eq_nil_iff, not_and]
      exact fun hnil => absurd hnil (hs.judged hpoint)
    · rw [hidle] at hpoint
      cases hpoint
  · rw [hoffers]
    intro r hr
    rcases List.mem_append.mp hr with hold | hnew
    · exact hs.alive r hold
    · obtain ⟨alive, -, rfl⟩ := List.mem_map.mp hnew
      exact ⟨alive, rfl⟩

/-- The loop keeps its promise healthy. -/
theorem Healthy.hearbeat {s : Session} (hs : s.Healthy) : s.afterHearbeat.Healthy := by
  unfold afterHearbeat
  cases ht : s.hearbeatThread with
  | none => exact hs
  | some point =>
    cases point with
    | idle =>
      refine ⟨fun _ => hs.untaken (by simp [ht]), ?_, hs.alive⟩
      intro hf
      cases hf
    | dispatched =>
      have hr := hs.untaken (by simp [ht])
      refine ⟨?_, ?_, hs.alive⟩
      · simp [hr]
      · simp [hr]
    | waiting =>
      refine ⟨?_, ?_, hs.alive⟩
      · cases s.pongReceived.satisfied <;> simp
      · cases hsat : s.pongReceived.satisfied with
        | false => simp
        | true =>
          intro _ hnil
          rw [Promise.satisfied_eq_false.mpr hnil] at hsat
          cases hsat
    | expired =>
      refine ⟨?_, ?_, ?_⟩
      · cases s.pongReceived.satisfied <;> simp
      · simp
      · intro r hr
        rcases List.mem_append.mp hr with hold | hnew
        · exact hs.alive r hold
        · exact ⟨false, List.mem_singleton.mp hnew⟩
    | judging =>
      have hne := hs.judged ht
      dsimp only
      split
      · exact hs
      · exact ⟨by simp, by simp, hs.alive⟩
      · refine ⟨?_, fun _ => hne, hs.alive⟩
        split <;> simp
      · next e hres =>
        obtain ⟨alive, halive⟩ := hs.alive _ (List.mem_of_mem_head? hres)
        cases halive
    | resetting => exact ⟨fun _ => rfl, by simp, List.forall_mem_nil _⟩
    | ended => exact hs

/-- A step of a healthy loop throws only when it stumbles. -/
theorem Healthy.outcome {s : Session} (hs : s.Healthy) : s.hearbeatOutcome =
    if s.stumbles then .crashed (.uncaught alreadySatisfied) else .value ⟨⟩ := by
  unfold hearbeatOutcome stumbles verdict
  cases ht : s.hearbeatThread with
  | none => simp
  | some point =>
    cases point with
    | dispatched => simp [hs.untaken (by simp [ht])]
    | judging =>
      cases hres : s.pongReceived.result with
      | none => simp
      | some r =>
        obtain ⟨alive, rfl⟩ := hs.alive _ (List.mem_of_mem_head? hres)
        cases alive <;> simp
    | _ => simp

/-- A healthy loop ends by itself only with a verdict that finds `leaved_` open. -/
theorem Healthy.verdict_of_ended {s : Session} (hs : s.Healthy) (hl : s.looping = true)
    (hended : s.afterHearbeat.looping = false) :
    s.verdict = some (.error .timeoutError) ∧ s.leaved.offers = [] := by
  unfold afterHearbeat at hended
  cases ht : s.hearbeatThread with
  | none => simp [looping, ht] at hl
  | some point =>
    rw [ht] at hended
    cases point with
    | judging =>
      cases hres : s.pongReceived.result with
      | none => simp [looping, ht, hres] at hended
      | some r =>
        obtain ⟨alive, rfl⟩ := hs.alive _ (List.mem_of_mem_head? hres)
        cases alive with
        | true => simp [looping, hres] at hended
        | false =>
          cases hsat : s.leaved.satisfied with
          | true => simp [looping, hres, hsat] at hended
          | false => exact ⟨by simp [verdict, ht, hres], Promise.satisfied_eq_false.mp hsat⟩
    | dispatched => cases hr : s.pongReceived.retrieved <;> simp [looping, hr] at hended
    | waiting => cases hsat : s.pongReceived.satisfied <;> simp [looping, hsat] at hended
    | expired => cases hsat : s.pongReceived.satisfied <;> simp [looping, hsat] at hended
    | ended => simp [looping, ht] at hl
    | _ => simp [looping] at hended

end Session

namespace Client

variable {h : ClientHistory} {p p' : Process Client Fault} {a : Action}
  {o : Outcome Exception Fault PUnit × List Effect}

/-! ### The invariants of the loop -/

/-- A step keeps the loop's promise healthy. -/
theorem healthy_step (hi : p.state.session.Healthy) (hs : step p a = some (o, p')) :
    p'.state.session.Healthy := by
  have hf := step_facts hs
  have hsession := hf.session
  cases a with
  | hearbeat =>
    rw [hsession]
    exact hi.hearbeat
  | hearbeatWoken =>
    rw [hsession]
    exact ⟨by simp [sessionAfter], by simp [sessionAfter], hi.alive⟩
  | message t m ec =>
    replace hsession : p'.state.session = p.state.session.after m.received := hsession
    by_cases hr : m.received = .pong
    · rw [hr] at hsession
      apply hi.of_offers [true]
      · rw [hsession]
        rfl
      · rw [hsession]
        exact .inl rfl
    · obtain ⟨hpong, hthread⟩ := Session.after_of_not_pong (s := p.state.session) hr
      apply hi.of_offers []
      · rw [hsession, hpong]
        simp
      · rw [hsession]
        exact hthread
  | runDispatched ec =>
    cases hq : p.state.session.ioContext with
    | nil => exact absurd hq hf.enabled
    | cons d rest =>
      simp only [sessionAfter, hq] at hsession
      cases d with
      | hello m =>
        apply hi.of_offers []
        · rw [hsession]
          simp
        · rw [hsession]
          simp
      | pingFailed e =>
        apply hi.of_offers []
        · rw [hsession]
          simp
        · rw [hsession]
          exact .inl rfl
      | ping m =>
        have hpong := Session.pongReceived_afterPing (p.state.net ec) m
          { p.state.session with ioContext := rest }
        apply hi.of_offers
          ((Session.pingError (p.state.net ec) m
            { p.state.session with ioContext := rest }).map fun _ => false).toList
        · rw [hsession, hpong]
          cases Session.pingError (p.state.net ec) m
            { p.state.session with ioContext := rest } <;> rfl
        · rw [hsession]
          simp
  | attach t | detach t =>
    simp only [sessionAfter] at hsession
    apply hi.of_offers []
    · rw [hsession]
      split <;> simp
    · rw [hsession]
      split <;> simp
  | _ =>
    apply hi.of_offers []
    · rw [hsession]
      simp [sessionAfter]
    · rw [hsession]
      exact .inl rfl

/-- The loop's promise is healthy in every state of every run. -/
theorem healthy (hr : ClientRun h p) : p.state.session.Healthy := by
  refine hr.invariant (fun _ p => p.state.session.Healthy) ?_ fun _ _ _ _ _ hi hs =>
    healthy_step hi hs
  exact ⟨fun _ => rfl, by simp [init], List.forall_mem_nil _⟩

/-- What is offered when a session ends: a call of `Leave`, or the error of an empty message
or of the network. -/
def EndsSession : Except Exception Bool → Prop
  | .ok leaved => leaved = true
  | .error e => e = .protocolError ErrorMessages.invalidMessageStructure ∨ e.isNetworkError = true

/-- Nothing else is offered to `leaved_`. -/
theorem endsSession_of_leaveOffer {c : Client} {r : Except Exception Bool}
    (hc : c.leaveOffer a = some r) : EndsSession r := by
  cases a with
  | leave worker =>
    cases hc
    rfl
  | message t m ec =>
    simp only [leaveOffer] at hc
    split at hc
    · cases hc
      exact .inl rfl
    · cases hc
  | runDispatched ec =>
    simp only [leaveOffer, failure] at hc
    split at hc
    · cases hc
      exact .inr rfl
    · cases hc
  | hearbeat =>
    simp only [leaveOffer, Session.verdict] at hc
    split at hc
    · cases hc
      exact .inr rfl
    · split at hc
      · cases hc
        exact .inr rfl
      · cases hc
    · cases hc
  | _ => cases hc

/-- `leaved_` holds nothing but the results of causes of termination. -/
theorem endsSession_of_mem_leaved (hr : ClientRun h p) :
    ∀ r ∈ p.state.session.leaved.offers, EndsSession r := by
  refine hr.invariant (fun _ p => ∀ r ∈ p.state.session.leaved.offers, EndsSession r)
    (List.forall_mem_nil _) ?_
  intro h p a o p' ih hs r hr
  rw [(step_facts hs).session, leaved_sessionAfter] at hr
  split at hr
  · exact ih r hr
  · rcases List.mem_append.mp hr with hold | hnew
    · exact ih r hold
    · exact endsSession_of_leaveOffer (Option.mem_toList.mp hnew)

/-- `leaved_` never holds the error of a satisfied promise. -/
theorem leaved_ne (hr : ClientRun h p) :
    ∀ r ∈ p.state.session.leaved.offers, r ≠ .error alreadySatisfied := by
  rintro r hmem rfl
  rcases endsSession_of_mem_leaved hr _ hmem with he | he <;> cases he

end Client
end Barbarossa
