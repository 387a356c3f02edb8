import Barbarossa.Client.Steps

/-!
# The three views of being joined

`state_`, `session_id_` and `hearbeat_thread_` are written by different functions in
different orders. They agree in every state of a run exactly when no `Join` is made on an
established session and every WELCOME that a joining session accepts carries a readable,
non-zero session id.
-/

namespace Barbarossa
open Barbarossa.Base

namespace Session

/-- `kEstablished`, a non-zero id and a started heartbeat thread go together. -/
def Consistent (s : Session) : Prop :=
  (s.state = .established ↔ s.sessionId ≠ 0) ∧ (s.sessionId ≠ 0 ↔ s.hearbeatThread ≠ none)

instance (s : Session) : Decidable s.Consistent := inferInstanceAs (Decidable (_ ∧ _))

/-- The id a WELCOME carries can be read and is not zero. -/
def Identified (sessionId : Except Exception UInt32) : Prop := ∃ id, sessionId = .ok id ∧ id ≠ 0

/-- A joining session is consistent after a WELCOME exactly when the WELCOME carries an id. -/
theorem consistent_welcomed {s : Session} {sessionId : Except Exception UInt32}
    (hc : s.Consistent) (hs : s.state = .establishing) :
    (s.welcomed sessionId).Consistent ↔ Identified sessionId := by
  have hid : s.sessionId = 0 := by
    by_contra hne
    have := hc.1.mpr hne
    rw [hs] at this
    cases this
  have ht : s.hearbeatThread = none := by
    by_contra hne
    exact hc.2.mpr hne hid
  unfold Identified welcomed
  cases sessionId with
  | error e => simp [ht, Consistent, hid]
  | ok id => simp [ht, Consistent]

/-- Only a WELCOME to a joining session can touch the three views. -/
theorem consistent_after {s : Session} (r : Received) (hc : s.Consistent) :
    (s.after r).Consistent ↔
      ∀ sessionId, r = .welcome sessionId → s.state = .establishing → Identified sessionId := by
  cases r with
  | welcome sessionId =>
    simp only [Session.after, Received.welcome.injEq, forall_eq']
    by_cases hs : s.state = .establishing
    · rw [if_pos hs, consistent_welcomed hc hs]
      simp [hs]
    · rw [if_neg hs]
      simp [hs, hc]
  | abort reason => cases reason <;> simpa [Session.after, Consistent] using hc
  | _ => simpa [Session.after, Consistent] using hc

end Session

namespace Client

/-- `Join` is not made on an established session, and a WELCOME that a joining session accepts
carries an id. -/
def KeepsConsistent (c : Client) : Action → Prop
  | .join _ => c.session.state ≠ .established
  | .message _ m _ => ∀ sessionId, m.received = .welcome sessionId →
      c.session.state = .establishing → Session.Identified sessionId
  | _ => True

/-- One step keeps the three views together exactly under the condition. -/
theorem consistent_step {p p' : Process Client Fault} {a : Action}
    {o : Outcome Exception Fault PUnit × List Effect} (h : step p a = some (o, p'))
    (hc : p.state.session.Consistent) :
    p'.state.session.Consistent ↔ p.state.KeepsConsistent a := by
  have hf := step_facts h
  rw [hf.session]
  cases a with
  | join realm =>
    simp only [sessionAfter, KeepsConsistent, Session.Consistent] at hc ⊢
    have hid : p.state.session.state ≠ .established ↔ p.state.session.sessionId = 0 := by
      rw [ne_eq, hc.1, ne_eq, not_not]
    have hthread : p.state.session.hearbeatThread = none ↔ p.state.session.sessionId = 0 := by
      rw [← not_iff_not]
      exact hc.2.symm
    rw [hid]
    simp [hthread]
  | message t m ec => exact Session.consistent_after m.received hc
  | runDispatched ec =>
    simp only [sessionAfter, KeepsConsistent, iff_true]
    split
    · exact hc
    · simpa [Session.Consistent] using hc
    · simpa [Session.Consistent] using hc
    · exact hc
  | attach t | detach t =>
    simp only [sessionAfter, KeepsConsistent, iff_true]
    split
    · exact hc
    · exact hc
  | hearbeat => simpa [sessionAfter, KeepsConsistent, Session.Consistent] using hc
  | hearbeatWoken =>
    have ht : p.state.session.hearbeatThread = some .idle := hf.enabled
    simpa [sessionAfter, KeepsConsistent, Session.Consistent, ht] using hc
  | _ => simpa [sessionAfter, KeepsConsistent, Session.Consistent] using hc

/-- The three views agree in every state of a run exactly when all its steps meet the
condition. -/
theorem consistent_iff {h : ClientHistory} {p : Process Client Fault} (hr : ClientRun h p) :
    Always (fun p => p.state.session.Consistent) h p ↔
      ∀ e ∈ h, e.before.state.KeepsConsistent e.action := by
  apply hr.always_iff (fun p => p.state.session.Consistent) (fun p a => p.state.KeepsConsistent a)
  · decide
  · intro p a o p' hs hc
    exact consistent_step hs hc

/-- A WELCOME with session id 0 on an attached, connected transport after the HELLO. -/
def welcomeZero : List Action :=
  [.attach 0, .transport 0 .onClientOpen, .join (utf8 "realm"), .runDispatched none,
    .message 0 ⟨[.integer 2, .integer 0]⟩ none]

/-- A run whose steps all meet the condition: the WELCOME carries id 7. -/
theorem consistent_iff_welcome : ∃ h p, ClientRun h p ∧
    (Always (fun p => p.state.session.Consistent) h p ↔
      ∀ e ∈ h, e.before.state.KeepsConsistent e.action) ∧ p.state.session.sessionId = 7 := by
  obtain ⟨h, p, hr, hc⟩ := exists_run_of_replay step init
    [.attach 0, .transport 0 .onClientOpen, .join (utf8 "realm"), .runDispatched none,
      .message 0 ⟨[.integer 2, .integer 7]⟩ none]
    (fun _ p => p.state.session.sessionId == 7) (by decide)
  exact ⟨h, p, hr, consistent_iff hr, by simpa using hc⟩

/-- A session that accepted a WELCOME with id 0 is established with no id. -/
theorem not_always_consistent :
    ¬ ∀ h p, ClientRun h p → Always (fun p => p.state.session.Consistent) h p := by
  intro hall
  obtain ⟨h, p, hr, hc⟩ := exists_run_of_replay step init welcomeZero
    (fun _ p => !decide p.state.session.Consistent) (by decide)
  have := (hall h p hr).2
  simp [this] at hc

end Client
end Barbarossa
