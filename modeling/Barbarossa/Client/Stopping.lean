import Barbarossa.Client.Loop

/-!
# Where the heartbeat loop ends

The loop leaves through its idle wait when that ends without a timeout, through a verdict
that no PONG came, and through the errors of satisfied promises. `Leave` notifies nobody,
so the loop goes on after it; and the idle wait has no predicate, so it may end without a
`Leave`. The idle wait itself is sound: when it times out, a PING is dispatched.
-/

namespace Barbarossa
open Barbarossa.Base

namespace Client

variable {h : ClientHistory} {p p' : Process Client Fault} {a : Action}
  {o : Outcome Exception Fault PUnit × List Effect}

/-! ### After a `Leave` -/

/-- A call of `Leave`. -/
def isLeave : Action → Bool
  | .leave _ => true
  | _ => false

/-- `Leave` was called on an established session. -/
def leftEstablished (h : ClientHistory) : Bool :=
  h.any fun e => isLeave e.action && decide (e.before.state.session.state = .established)

/-- The heartbeat starts nothing: its loop dispatches no PING and does not throw, and neither the
loop nor a lambda it dispatched tries to satisfy `leaved_`. -/
structure Rests (e : ClientEntry) : Prop where
  ping : e.action = .hearbeat →
    e.after.state.session.ioContext = e.before.state.session.ioContext
  leaved : (e.action = .hearbeat ∨ ∃ ec, e.action = .runDispatched ec) →
    e.after.state.session.leaved.offers = e.before.state.session.leaved.offers
  uncaught : e.action = .hearbeat → ∀ f, e.output.1 ≠ .crashed f

/-- Every step after a `Leave` on an established session leaves the heartbeat at rest. -/
def StopsWithLeave : ClientHistory → Prop
  | [] => True
  | e :: h => (leftEstablished h = true → Rests e) ∧ StopsWithLeave h

/-- No idle wait times out, no wait for a PONG ends without one, and no lambda of a failed PING goes
on behind `pong_received_`. -/
def calm (c : Client) : Action → Bool
  | .hearbeat => decide (c.session.hearbeatThread ≠ some .idle) && c.session.verdict.isNone &&
      !c.session.stumbles
  | .runDispatched _ => c.failure.isNone
  | _ => true

/-- After a `Leave` on an established session, the heartbeat is calm. -/
def KeepsRest (h : ClientHistory) (p : Process Client Fault) (a : Action) : Prop :=
  leftEstablished h = true → p.state.calm a = true

instance (h : ClientHistory) (p : Process Client Fault) (a : Action) :
    Decidable (KeepsRest h p a) :=
  inferInstanceAs (Decidable (_ → _))

private theorem rests_hearbeat_iff (hi : p.state.session.Healthy)
    (hs : step p .hearbeat = some (o, p')) :
    Rests ⟨p, .hearbeat, o, p'⟩ ↔ p.state.calm .hearbeat = true := by
  have hsession : p'.state.session = p.state.session.afterHearbeat := (step_facts hs).session
  have hping : p'.state.session.ioContext = p.state.session.ioContext ↔
      p.state.session.hearbeatThread ≠ some .idle := by
    rw [hsession, Session.afterHearbeat_ioContext]
    split
    · next hidle => simp [hidle]
    · next hne => simp [hne]
  have hleaved : p'.state.session.leaved.offers = p.state.session.leaved.offers ↔
      p.state.session.verdict = none := by
    rw [hsession, Session.leaved_afterHearbeat]
    cases p.state.session.verdict <;> simp [Promise.offerAll]
  have houtcome : (∀ f, o.1 ≠ .crashed f) ↔ p.state.session.stumbles = false := by
    rw [step_hearbeat hs, hi.outcome]
    cases p.state.session.stumbles <;> simp
  simp only [calm, Bool.and_eq_true, decide_eq_true_eq, Option.isNone_iff_eq_none,
    Bool.not_eq_true', ← hping, ← hleaved, ← houtcome]
  constructor
  · intro hrest
    exact ⟨⟨hrest.ping rfl, hrest.leaved (.inl rfl)⟩, hrest.uncaught rfl⟩
  · rintro ⟨⟨hp, hl⟩, hu⟩
    exact ⟨fun _ => hp, fun _ => hl, fun _ => hu⟩

private theorem rests_runDispatched_iff {ec : Option Bytes}
    (hs : step p (.runDispatched ec) = some (o, p')) :
    Rests ⟨p, .runDispatched ec, o, p'⟩ ↔ p.state.calm (.runDispatched ec) = true := by
  have hleaved : p'.state.session.leaved.offers = p.state.session.leaved.offers ↔
      p.state.failure = none := by
    rw [(step_facts hs).session, leaved_sessionAfter]
    dsimp only [leaveOffer]
    cases p.state.failure <;> simp [Promise.offerAll]
  simp only [calm, Option.isNone_iff_eq_none, ← hleaved]
  constructor
  · exact fun hrest => hrest.leaved (.inr ⟨ec, rfl⟩)
  · intro hl
    refine ⟨?_, fun _ => hl, ?_⟩
    · intro hf
      cases hf
    · intro hf
      cases hf

/-- A step after a `Leave` rests exactly under the condition. -/
theorem rests_iff (hi : p.state.session.Healthy) (hs : step p a = some (o, p')) :
    (leftEstablished h = true → Rests ⟨p, a, o, p'⟩) ↔ KeepsRest h p a := by
  apply imp_congr_right
  intro _
  cases a with
  | hearbeat => exact rests_hearbeat_iff hi hs
  | runDispatched ec => exact rests_runDispatched_iff hs
  | _ =>
    refine iff_of_true ⟨?_, ?_, ?_⟩ rfl
    · intro hf
      cases hf
    · rintro (hf | ⟨ec, hf⟩) <;> cases hf
    · intro hf
      cases hf

/-- In a run, the heartbeat rests after a `Leave` on an established session exactly when no wait of
its loop ends badly after it. -/
theorem stops_with_leave_iff (hr : ClientRun h p) : StopsWithLeave h ↔ Meets KeepsRest h := by
  induction hr with
  | nil => exact Iff.rfl
  | @cons h p p' a o hr hs ih => exact and_congr (rests_iff (healthy hr) hs) ih

/-- A `Leave` during the wait for a PONG that arrives, and an idle wait that ends without a
timeout. -/
theorem stops_with_leave_woken : ∃ h p, ClientRun h p ∧ StopsWithLeave h ∧
    leftEstablished h = true ∧ p.state.session.hearbeatThread = some .ended := by
  obtain ⟨h, p, hr, hc⟩ := exists_run_of_replay step init
    (joinSteps ++ [.hearbeat, .runDispatched none, .hearbeat, .leave none,
      .message 0 pong none, .hearbeat, .hearbeat, .hearbeat, .hearbeatWoken])
    (fun h p => decide (Meets KeepsRest h) && leftEstablished h &&
      decide (p.state.session.hearbeatThread = some .ended)) (by decide)
  simp only [Bool.and_eq_true, decide_eq_true_eq] at hc
  exact ⟨h, p, hr, (stops_with_leave_iff hr).mpr hc.1.1, hc.1.2, hc.2⟩

/-- The last step is one of the heartbeat loop after a `Leave`, and changes the queue. -/
private def pingsAfterLeave : ClientHistory → Bool
  | ⟨p, .hearbeat, _, p'⟩ :: h => leftEstablished h &&
    decide (p'.state.session.ioContext ≠ p.state.session.ioContext)
  | _ => false

/-- After a `Leave` in the idle wait, the wait times out and a PING is dispatched. -/
theorem not_stops_with_leave : ¬ ∀ h p, ClientRun h p → StopsWithLeave h := by
  intro hall
  obtain ⟨h, p, hr, hc⟩ := exists_run_of_replay step init
    (joinSteps ++ [.leave none, .hearbeat]) (fun h _ => pingsAfterLeave h) (by decide)
  unfold pingsAfterLeave at hc
  split at hc
  · simp only [Bool.and_eq_true, decide_eq_true_eq] at hc
    exact hc.2 (((hall _ p hr).1 hc.1).ping rfl)
  · cases hc

/-! ### How the loop ends -/

/-- `Leave` was called. -/
def leaveCalled (h : ClientHistory) : Bool := h.any fun e => isLeave e.action

/-- The step ends the loop, through its exits or through an exception. -/
def LoopEnds (e : ClientEntry) : Prop :=
  e.before.state.session.looping = true ∧ (e.after.state.session.looping = false ∨
    e.action = .hearbeat ∧ ∃ f, e.output.1 = .crashed f)

/-- `leaved_` was satisfied with the error that ended the loop: the exception that left it, or a
`TimeoutError` when it ended by itself. -/
def Recorded (e : ClientEntry) : Prop :=
  ∃ x, e.after.state.session.leaved.result = some (.error x) ∧ e.action = .hearbeat ∧
    (e.output.1 = .crashed (.uncaught x) ∨ e.output.1 = .value ⟨⟩ ∧ x = .timeoutError)

/-- The loop ends only after a call of `Leave` or with its error recorded. -/
def EndsRecorded : ClientHistory → Prop
  | [] => True
  | e :: h => (LoopEnds e → leaveCalled h = true ∨ Recorded e) ∧ EndsRecorded h

/-- Every end of the loop has a recorded cause, an idle wait that times out dispatches a PING, and
the loop can always go on. -/
structure NeverDiesSilently (h : ClientHistory) (p : Process Client Fault) : Prop where
  ends : EndsRecorded h
  pings : ∀ e ∈ h, e.action = .hearbeat →
    e.before.state.session.hearbeatThread = some .idle → e.output.1 = .value ⟨⟩ ∧
      e.after.state.session.ioContext =
        e.before.state.session.ioContext ++ [.ping ⟨[.integer 4, .object []]⟩]
  proceeds : p.fault = none → p.state.session.looping = true → (step p .hearbeat).isSome = true

/-- The idle wait does not end without a timeout, and the loop does not satisfy a promise that is
satisfied. -/
def steady (c : Client) : Action → Bool
  | .hearbeatWoken => false
  | .hearbeat => !c.session.stumbles
  | _ => true

/-- Before a call of `Leave`, the loop is steady. -/
def KeepsSteady (h : ClientHistory) (p : Process Client Fault) (a : Action) : Prop :=
  leaveCalled h = false → p.state.steady a = true

instance (h : ClientHistory) (p : Process Client Fault) (a : Action) :
    Decidable (KeepsSteady h p a) :=
  inferInstanceAs (Decidable (_ → _))

/-- Only the heartbeat thread ends its loop. -/
theorem looping_sessionAfter {c : Client} (ha : a ≠ .hearbeat) (hw : a ≠ .hearbeatWoken)
    (hl : c.session.looping = true) : (c.sessionAfter a).looping = true := by
  have hkeep : ∀ s : Session, s.hearbeatThread = c.session.hearbeatThread →
      s.looping = true := by
    intro s hs
    unfold Session.looping at hl ⊢
    rwa [hs]
  cases a with
  | hearbeat => exact absurd rfl ha
  | hearbeatWoken => exact absurd rfl hw
  | message t m ec =>
    by_cases hr : m.received = .pong
    · apply hkeep
      simp [sessionAfter, hr, Session.after]
    · rcases (Session.after_of_not_pong (s := c.session) hr).2 with hsame | ⟨hnone, -⟩
      · exact hkeep _ hsame
      · rw [Session.looping, hnone] at hl
        cases hl
  | runDispatched ec =>
    apply hkeep
    simp only [sessionAfter]
    split <;> simp
  | attach t | detach t =>
    apply hkeep
    simp only [sessionAfter]
    split <;> rfl
  | _ => exact hkeep _ rfl

private theorem recorded_of_ends (hi : p.state.session.Healthy)
    (hs : step p .hearbeat = some (o, p')) (hsteady : p.state.session.stumbles = false)
    (hends : LoopEnds ⟨p, .hearbeat, o, p'⟩) : Recorded ⟨p, .hearbeat, o, p'⟩ := by
  have hsession : p'.state.session = p.state.session.afterHearbeat := (step_facts hs).session
  have hvalue : o.1 = .value ⟨⟩ := by
    rw [step_hearbeat hs, hi.outcome, hsteady]
    rfl
  obtain ⟨hlooping, hends⟩ := hends
  have hended : p'.state.session.looping = false := by
    rcases hends with hended | ⟨-, f, hf⟩
    · exact hended
    · dsimp only at hf
      rw [hvalue] at hf
      cases hf
  rw [hsession] at hended
  obtain ⟨hverdict, hopen⟩ := hi.verdict_of_ended hlooping hended
  refine ⟨.timeoutError, ?_, rfl, .inr ⟨hvalue, rfl⟩⟩
  dsimp only
  rw [hsession, Session.leaved_afterHearbeat, hverdict]
  simp [Promise.result, Promise.offerAll, hopen]

private theorem not_recorded_of_stumbles (hr : ClientRun h p) (hs : step p .hearbeat = some (o, p'))
    (hstumbles : p.state.session.stumbles = true) :
    LoopEnds ⟨p, .hearbeat, o, p'⟩ ∧ ¬ Recorded ⟨p, .hearbeat, o, p'⟩ := by
  have hcrash : o.1 = .crashed (.uncaught alreadySatisfied) := by
    rw [step_hearbeat hs, (healthy hr).outcome, hstumbles]
    rfl
  constructor
  · refine ⟨?_, .inr ⟨rfl, _, hcrash⟩⟩
    dsimp only
    unfold Session.stumbles Session.verdict at hstumbles
    unfold Session.looping
    cases ht : p.state.session.hearbeatThread with
    | none => simp [ht] at hstumbles
    | some point =>
      cases point with
      | ended => simp [ht] at hstumbles
      | _ => rfl
  · rintro ⟨x, hres, -, hx | ⟨hx, -⟩⟩
    · dsimp only at hx hres
      rw [hcrash] at hx
      cases hx
      exact leaved_ne (hr.cons hs) _ (List.mem_of_mem_head? hres) rfl
    · dsimp only at hx
      rw [hcrash] at hx
      cases hx

/-- A step ends the loop with a recorded cause exactly under the condition. -/
theorem ends_recorded_step (hr : ClientRun h p) (hs : step p a = some (o, p')) :
    (LoopEnds ⟨p, a, o, p'⟩ → leaveCalled h = true ∨ Recorded ⟨p, a, o, p'⟩) ↔
      KeepsSteady h p a := by
  unfold KeepsSteady
  cases hleave : leaveCalled h with
  | true => simp
  | false =>
    simp only [Bool.false_eq_true, false_or, forall_const]
    by_cases ha : a = .hearbeat
    · subst ha
      simp only [steady, Bool.not_eq_true']
      cases hstumbles : p.state.session.stumbles with
      | true =>
        obtain ⟨hends, hnot⟩ := not_recorded_of_stumbles hr hs hstumbles
        exact iff_of_false (fun hrec => hnot (hrec hends)) (by simp)
      | false => exact iff_of_true (recorded_of_ends (healthy hr) hs hstumbles) rfl
    · by_cases hw : a = .hearbeatWoken
      · subst hw
        have hf := step_facts hs
        have hidle : p.state.session.hearbeatThread = some .idle := hf.enabled
        have hended : p'.state.session.looping = false := by
          rw [hf.session]
          rfl
        refine iff_of_false (fun hrec => ?_) (by simp [steady])
        obtain ⟨x, -, hact, -⟩ := hrec ⟨by simp [Session.looping, hidle], .inl hended⟩
        cases hact
      · refine iff_of_true (fun hends => ?_) ?_
        · rcases hends with ⟨hlooping, hended | ⟨hf, -⟩⟩
          · dsimp only at hended hlooping
            rw [(step_facts hs).session, looping_sessionAfter ha hw hlooping] at hended
            cases hended
          · exact absurd hf ha
        · cases a with
          | hearbeat => exact absurd rfl ha
          | hearbeatWoken => exact absurd rfl hw
          | _ => rfl

/-- When the idle wait times out, a PING is dispatched. -/
theorem ping_of_idle (hs : step p .hearbeat = some (o, p'))
    (hidle : p.state.session.hearbeatThread = some .idle) : o.1 = .value ⟨⟩ ∧
      p'.state.session.ioContext =
        p.state.session.ioContext ++ [.ping ⟨[.integer 4, .object []]⟩] := by
  constructor
  · rw [step_hearbeat hs, Session.hearbeatOutcome, hidle]
  · rw [(step_facts hs).session, sessionAfter, Session.afterHearbeat_ioContext, if_pos hidle]

/-- A healthy loop is never stuck: each of its waits can end. -/
theorem enabled_of_looping (hi : p.state.session.Healthy) (hrun : p.fault = none)
    (hl : p.state.session.looping = true) : (step p .hearbeat).isSome = true := by
  obtain ⟨c, fault⟩ := p
  dsimp only at hi hrun hl
  subst hrun
  simp only [step, Process.step, act, Option.isSome_map]
  unfold Session.looping at hl
  unfold Session.hearbeatController
  cases ht : c.session.hearbeatThread with
  | none => simp [ht] at hl
  | some point =>
    cases point with
    | judging =>
      cases hres : c.session.pongReceived.result with
      | none => exact absurd (Promise.result_eq_none.mp hres) (hi.judged ht)
      | some r => rfl
    | ended => simp [ht] at hl
    | _ => rfl

/-- In a run, the heartbeat never dies silently exactly when, before a call of `Leave`, no idle wait
ends without a timeout and the loop satisfies no promise that is satisfied. -/
theorem never_dies_silently_iff (hr : ClientRun h p) :
    NeverDiesSilently h p ↔ Meets KeepsSteady h := by
  have hends : EndsRecorded h ↔ Meets KeepsSteady h := by
    induction hr with
    | nil => exact Iff.rfl
    | @cons h p p' a o hr hs ih => exact and_congr (ends_recorded_step hr hs) ih
  rw [← hends]
  constructor
  · exact fun hn => hn.ends
  · intro he
    refine ⟨he, ?_, enabled_of_looping (healthy hr)⟩
    intro e he ha hidle
    obtain ⟨-, -, hs⟩ := hr.of_mem he
    rw [ha] at hs
    exact ping_of_idle hs hidle

/-- Two cycles, the second without a PONG: the loop ends with a `TimeoutError` in `leaved_`. -/
theorem never_dies_silently_timeout : ∃ h p, ClientRun h p ∧ NeverDiesSilently h p ∧
    p.state.session.leaved.result = some (.error .timeoutError) := by
  obtain ⟨h, p, hr, hc⟩ := exists_run_of_replay step init
    (joinSteps ++ [.hearbeat, .runDispatched none, .hearbeat, .message 0 pong none, .hearbeat,
      .hearbeat, .hearbeat, .hearbeat, .runDispatched none, .hearbeat, .hearbeat, .hearbeat,
      .hearbeat])
    (fun h p => decide (Meets KeepsSteady h) &&
      decide (p.state.session.leaved.offers = [.error .timeoutError])) (by decide)
  simp only [Bool.and_eq_true, decide_eq_true_eq] at hc
  exact ⟨h, p, hr, (never_dies_silently_iff hr).mpr hc.1, by simp [Promise.result, hc.2]⟩

/-- The last step is a wakeup that ends the loop without a `Leave`. -/
private def endsWithoutLeave : ClientHistory → Bool
  | ⟨p, .hearbeatWoken, _, p'⟩ :: h => !leaveCalled h && p.state.session.looping &&
    !p'.state.session.looping
  | _ => false

/-- A spurious wakeup ends the loop without a word. -/
theorem not_never_dies_silently : ¬ ∀ h p, ClientRun h p → NeverDiesSilently h p := by
  intro hall
  obtain ⟨h, p, hr, hc⟩ := exists_run_of_replay step init (joinSteps ++ [.hearbeatWoken])
    (fun h _ => endsWithoutLeave h) (by decide)
  unfold endsWithoutLeave at hc
  split at hc
  · simp only [Bool.and_eq_true, Bool.not_eq_true'] at hc
    rcases (hall _ p hr).ends.1 ⟨hc.1.2, .inl hc.2⟩ with hleave | ⟨x, -, hf, -⟩
    · rw [hc.1.1] at hleave
      cases hleave
    · cases hf
  · cases hc

end Client
end Barbarossa
