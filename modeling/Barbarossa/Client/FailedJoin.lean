import Barbarossa.Client.Handshake

/-!
# After a failed Join

A `Join` that throws leaves `kEstablishing` behind: nothing but a WELCOME ever moves the
session on from there. So a session that nobody joins again stays as the failed `Join`
left it exactly when no WELCOME arrives any more, or none is accepted.
-/

namespace Barbarossa
open Barbarossa.Base

namespace Client

/-- A WELCOME, readable or not. -/
def isWelcome : Action → Bool
  | .message _ m _ =>
    match m.received with
    | .welcome _ => true
    | _ => false
  | _ => false

/-- A call of `Join` has thrown. -/
def JoinFailed (c : Client) : Prop := ∃ e, JoinCall.finished (.error e) ∈ c.joins

/-- A step that does not move the session to `kEstablished`, set its id or start the heartbeat. -/
structure EstablishesNothing (before after : Session) : Prop where
  state : after.state = .established → before.state = .established
  sessionId : after.sessionId = before.sessionId
  hearbeat : before.hearbeatThread = none → after.hearbeatThread = none

/-- A session on which `Join` was called never goes back behind `kEstablishing`. -/
def Joining (s : Session) : Prop := s.state = .establishing ∨ s.state = .established

private theorem after_of_not_welcome {s : Session} {r : Received}
    (h : ∀ sessionId, r ≠ .welcome sessionId) :
    (s.after r).state = s.state ∧ (s.after r).sessionId = s.sessionId ∧
      (s.after r).hearbeatThread = s.hearbeatThread := by
  cases r with
  | welcome sessionId => exact absurd rfl (h sessionId)
  | abort reason => cases reason <;> exact ⟨rfl, rfl, rfl⟩
  | _ => exact ⟨rfl, rfl, rfl⟩

/-- Apart from `Join` and a WELCOME, no step touches what being joined is about. -/
theorem sessionAfter_of_quiet {c : Client} {a : Action} (henabled : c.Enabled a)
    (hjoin : isJoin a = false) (hwelcome : isWelcome a = false) :
    (c.sessionAfter a).state = c.session.state ∧
      EstablishesNothing c.session (c.sessionAfter a) := by
  have key : (c.sessionAfter a).state = c.session.state ∧
      (c.sessionAfter a).sessionId = c.session.sessionId ∧
      (c.session.hearbeatThread = none → (c.sessionAfter a).hearbeatThread = none) := by
    cases a with
    | join realm => cases hjoin
    | message t m ec =>
      have hm : ∀ sessionId, m.received ≠ .welcome sessionId := by
        intro sessionId hr
        simp only [isWelcome, hr] at hwelcome
        cases hwelcome
      obtain ⟨hs, hid, ht⟩ := after_of_not_welcome (s := c.session) hm
      exact ⟨hs, hid, fun h => by rw [← h]; exact ht⟩
    | runDispatched ec =>
      simp only [sessionAfter]
      split <;> simp
    | attach t | detach t =>
      simp only [sessionAfter]
      split <;> simp
    | hearbeat => simp [sessionAfter]
    | hearbeatWoken =>
      have ht : c.session.hearbeatThread = some .idle := henabled
      simp [sessionAfter, ht]
    | _ => simp [sessionAfter]
  obtain ⟨hs, hid, ht⟩ := key
  refine ⟨hs, ?_, hid, ht⟩
  rw [hs]
  exact id

/-- A WELCOME that finds the session not establishing is refused and changes nothing. -/
theorem sessionAfter_of_refused {c : Client} {a : Action} (hw : isWelcome a = true)
    (hs : c.session.state ≠ .establishing) : c.sessionAfter a = c.session := by
  cases a with
  | message t m ec =>
    simp only [isWelcome] at hw
    split at hw
    · next sessionId hr => simp [sessionAfter, hr, Session.after, hs]
    · cases hw
  | _ => cases hw

/-- A WELCOME changes nothing about an established session. -/
theorem sessionAfter_of_established {c : Client} {a : Action} (henabled : c.Enabled a)
    (hjoin : isJoin a = false) (hs : c.session.state = .established) :
    (c.sessionAfter a).state = .established ∧
      EstablishesNothing c.session (c.sessionAfter a) := by
  by_cases hw : isWelcome a = true
  · rw [sessionAfter_of_refused hw (by simp [hs])]
    exact ⟨hs, id, rfl, id⟩
  · rw [← hs]
    exact sessionAfter_of_quiet henabled hjoin (by simpa using hw)

/-- A WELCOME establishes a session that waits for one, readable or not. -/
theorem sessionAfter_of_welcome {c : Client} {a : Action} (hw : isWelcome a = true)
    (hs : c.session.state = .establishing) : (c.sessionAfter a).state = .established := by
  cases a with
  | message t m ec =>
    simp only [isWelcome] at hw
    split at hw
    · next sessionId hr =>
      simp only [sessionAfter, hr, Session.after, hs, ite_true, Session.welcomed]
      split <;> rfl
    · cases hw
  | _ => cases hw

/-- Calls of `Join` are only ever added. -/
theorem joinsAfter_ne_nil {c : Client} {a : Action} (h : c.joinsAfter a ≠ []) :
    isJoin a = true ∨ c.joins ≠ [] := by
  cases a with
  | join realm => exact .inl rfl
  | joinReady i =>
    simp only [joinsAfter] at h
    split at h
    · exact .inr fun hn => h (by rw [hn]; rfl)
    · exact .inr h
  | joinFuture i | joinTimeout i => exact .inr fun hn => h (by simp [joinsAfter, hn])
  | _ => exact .inr h

/-- Once `Join` was called, the session is establishing or established. -/
theorem joining_of_joins {h : ClientHistory} {p : Process Client Fault} (hr : ClientRun h p)
    (hj : p.state.joins ≠ []) : Joining p.state.session := by
  have hinv : p.state.joins ≠ [] → Joining p.state.session := by
    refine hr.invariant (fun _ p => p.state.joins ≠ [] → Joining p.state.session) ?_ ?_
    · intro hne
      exact absurd rfl hne
    · intro h p a o p' ih hs hne
      have hf := step_facts hs
      rw [hf.joins] at hne
      rw [hf.session]
      by_cases hjoin : isJoin a = true
      · cases a with
        | join realm => exact .inl rfl
        | _ => cases hjoin
      · have hjoin : isJoin a = false := by simpa using hjoin
        rcases joinsAfter_ne_nil hne with hj | hne
        · rw [hjoin] at hj
          cases hj
        · rcases ih hne with hes | hed
          · by_cases hw : isWelcome a = true
            · exact .inr (sessionAfter_of_welcome hw hes)
            · left
              rw [(sessionAfter_of_quiet hf.enabled hjoin (by simpa using hw)).1]
              exact hes
          · exact .inr (sessionAfter_of_established hf.enabled hjoin hed).1
  exact hinv hj

section Continuation

variable {p₀ p : Process Client Fault} {h : ClientHistory}

private theorem nothing_of_established (hr : Run step p₀ h p)
    (hjoin : ∀ e ∈ h, isJoin e.action = false) (hs : p₀.state.session.state = .established) :
    p.state.session.state = .established ∧
      ∀ e ∈ h, EstablishesNothing e.before.state.session e.after.state.session := by
  induction hr with
  | nil => exact ⟨hs, List.forall_mem_nil _⟩
  | cons _ hstep ih =>
    rw [List.forall_mem_cons] at hjoin
    obtain ⟨hstate, hall⟩ := ih hjoin.2
    have hf := step_facts hstep
    have hnext := sessionAfter_of_established hf.enabled hjoin.1 hstate
    rw [← hf.session] at hnext
    exact ⟨hnext.1, List.forall_mem_cons.mpr ⟨hnext.2, hall⟩⟩

private theorem nothing_of_no_welcome (hr : Run step p₀ h p)
    (hjoin : ∀ e ∈ h, isJoin e.action = false) (hw : ∀ e ∈ h, isWelcome e.action = false) :
    ∀ e ∈ h, EstablishesNothing e.before.state.session e.after.state.session := by
  induction hr with
  | nil => exact List.forall_mem_nil _
  | cons _ hstep ih =>
    rw [List.forall_mem_cons] at hjoin hw ⊢
    have hf := step_facts hstep
    refine ⟨?_, ih hjoin.2 hw.2⟩
    dsimp only
    rw [hf.session]
    exact (sessionAfter_of_quiet hf.enabled hjoin.1 hw.1).2

private theorem no_welcome_of_nothing (hr : Run step p₀ h p)
    (hjoin : ∀ e ∈ h, isJoin e.action = false) (hs : p₀.state.session.state = .establishing)
    (hall : ∀ e ∈ h, EstablishesNothing e.before.state.session e.after.state.session) :
    p.state.session.state = .establishing ∧ ∀ e ∈ h, isWelcome e.action = false := by
  induction hr with
  | nil => exact ⟨hs, List.forall_mem_nil _⟩
  | @cons h p p' a o _ hstep ih =>
    rw [List.forall_mem_cons] at hjoin hall ⊢
    obtain ⟨hstate, hquiet⟩ := ih hjoin.2 hall.2
    have hf := step_facts hstep
    have hw : isWelcome a = false := by
      by_contra hne
      have hest := sessionAfter_of_welcome (by simpa using hne) hstate
      rw [← hf.session] at hest
      have := hall.1.state hest
      dsimp only at this
      rw [hstate] at this
      cases this
    refine ⟨?_, hw, hquiet⟩
    rw [hf.session, (sessionAfter_of_quiet hf.enabled hjoin.1 hw).1, hstate]

/-- After a failed `Join`, and as long as nobody calls `Join` again, no step establishes anything
exactly when the session is established already or no WELCOME arrives. -/
theorem nothing_established_iff {h₀ : ClientHistory} (hr₀ : ClientRun h₀ p₀)
    (hfailed : p₀.state.JoinFailed) (hr : Run step p₀ h p)
    (hjoin : ∀ e ∈ h, isJoin e.action = false) :
    (∀ e ∈ h, EstablishesNothing e.before.state.session e.after.state.session) ↔
      p₀.state.session.state = .established ∨ ∀ e ∈ h, isWelcome e.action = false := by
  have hne : p₀.state.joins ≠ [] := by
    obtain ⟨e, he⟩ := hfailed
    exact List.ne_nil_of_mem he
  constructor
  · intro hall
    rcases joining_of_joins hr₀ hne with hes | hed
    · exact .inr (no_welcome_of_nothing hr hjoin hes hall).2
    · exact .inl hed
  · rintro (hed | hw)
    · exact (nothing_of_established hr hjoin hed).2
    · exact nothing_of_no_welcome hr hjoin hw

end Continuation

/-- A `Join` on a fresh session whose wait runs out. -/
def timedOut : List Action :=
  [.attach 0, .transport 0 .onClientOpen, .join (utf8 "realm"), .joinFuture 0,
    .runDispatched none, .joinTimeout 0]

/-- A WELCOME that comes too late. -/
def lateWelcome : List Action := [.message 0 ⟨[.integer 2, .integer 7]⟩ none]

/-- After the timeout an ABORT may come, and nothing is established. -/
theorem nothing_established_abort : ∃ h₀ p₀ h p, ClientRun h₀ p₀ ∧ Run step p₀ h p ∧
    h.length = 1 ∧ ((∀ e ∈ h, EstablishesNothing e.before.state.session e.after.state.session) ↔
      p₀.state.session.state = .established ∨ ∀ e ∈ h, isWelcome e.action = false) := by
  obtain ⟨h₀, p₀, h, p, hr₀, hr, hc⟩ := exists_continuation_of_replay step init timedOut
    [.message 0 ⟨[.integer 3, .string (utf8 "no")]⟩ none]
    (fun _ p₀ h _ => decide (JoinCall.finished (.error .timeoutError) ∈ p₀.state.joins) &&
      decide (h.length = 1) && h.all fun e => !isJoin e.action) (by decide)
  simp only [Bool.and_eq_true, decide_eq_true_eq] at hc
  refine ⟨h₀, p₀, h, p, hr₀, hr, hc.1.2, nothing_established_iff hr₀ ⟨_, hc.1.1⟩ hr ?_⟩
  intro e he
  simpa using List.all_eq_true.mp hc.2 e he

/-- A WELCOME after the timeout establishes a session whose `Join` has thrown. -/
theorem not_nothing_established : ¬ ∀ h₀ p₀ h p, ClientRun h₀ p₀ →
    (∀ e ∈ h₀, isJoin e.action = true → e.before.state.session.sessionId = 0) →
    p₀.state.JoinFailed → Run step p₀ h p → (∀ e ∈ h, isJoin e.action = false) →
    ∀ e ∈ h, EstablishesNothing e.before.state.session e.after.state.session := by
  intro hall
  obtain ⟨h₀, p₀, h, p, hr₀, hr, hc⟩ := exists_continuation_of_replay step init timedOut lateWelcome
    (fun h₀ p₀ h _ => (h₀.all fun e => decide (e.before.state.session.sessionId = 0)) &&
      decide (JoinCall.finished (.error .timeoutError) ∈ p₀.state.joins) &&
      (h.all fun e => !isJoin e.action) &&
      h.any fun e => decide (e.after.state.session.sessionId ≠ e.before.state.session.sessionId))
    (by decide)
  simp only [Bool.and_eq_true, decide_eq_true_eq] at hc
  obtain ⟨⟨⟨hzero, hfailed⟩, hquiet⟩, hchanged⟩ := hc
  obtain ⟨e, he, hid⟩ := List.any_eq_true.mp hchanged
  have hone : ∀ e ∈ h₀, isJoin e.action = true → e.before.state.session.sessionId = 0 := by
    intro e he _
    simpa using List.all_eq_true.mp hzero e he
  have hjoin : ∀ e ∈ h, isJoin e.action = false := by
    intro e he
    simpa using List.all_eq_true.mp hquiet e he
  have hsame := (hall h₀ p₀ h p hr₀ hone ⟨_, hfailed⟩ hr hjoin e he).sessionId
  simp [hsame] at hid

end Client
end Barbarossa
