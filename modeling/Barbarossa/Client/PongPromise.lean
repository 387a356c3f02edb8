import Barbarossa.Client.Heartbeat

/-!
# The promise of a heartbeat cycle

Three threads of events set `pong_received_` without a look at whether it is set: a PONG,
a PING that cannot be sent, and the loop itself once its wait has expired. The promise is
set once only as long as one of these events happens in a cycle.
-/

namespace Barbarossa
open Barbarossa.Base

namespace Session

/-- The loop sets the promise only after its wait expired, and replaces it only when it resets. -/
theorem offers_afterHearbeat {s : Session} (hexpired : s.hearbeatThread ≠ some .expired)
    (hreset : s.hearbeatThread ≠ some .resetting) :
    s.afterHearbeat.pongReceived.offers = s.pongReceived.offers := by
  unfold afterHearbeat
  cases ht : s.hearbeatThread with
  | none => rfl
  | some point =>
    cases point with
    | expired => exact absurd ht hexpired
    | resetting => exact absurd ht hreset
    | judging =>
      dsimp only
      split
      · rfl
      · rfl
      · rfl
      · split <;> rfl
    | _ => rfl

/-- A wait expires only if nothing was set while the loop waited. -/
theorem expired_of_afterHearbeat {s : Session}
    (h : s.afterHearbeat.hearbeatThread = some .expired) :
    s.hearbeatThread = some .expired ∨
      s.hearbeatThread = some .waiting ∧ s.pongReceived.satisfied = false := by
  unfold afterHearbeat at h
  cases ht : s.hearbeatThread with
  | none =>
    rw [ht] at h
    rw [ht] at h
    cases h
  | some point =>
    rw [ht] at h
    cases point with
    | expired => exact .inl rfl
    | waiting =>
      refine .inr ⟨rfl, ?_⟩
      cases hsat : s.pongReceived.satisfied with
      | false => rfl
      | true => simp [hsat] at h
    | dispatched =>
      dsimp only at h
      split at h <;> cases h
    | judging =>
      dsimp only at h
      split at h
      · rw [ht] at h
        cases h
      · cases h
      · dsimp only at h
        split at h <;> cases h
      · split at h
        · dsimp only at h
          split at h <;> cases h
        · rw [ht] at h
          cases h
    | ended =>
      rw [ht] at h
      cases h
    | _ => cases h

end Session

namespace Client

/-- An event that uses up the promise of its cycle: a PONG, a PING that cannot be sent, or the
expiry of the wait. -/
def settles (c : Client) : Action → Bool
  | .message t m ec => isPong (.message t m ec)
  | .runDispatched ec => (c.pingError (.runDispatched ec)).isSome
  | .hearbeat =>
    c.session.hearbeatThread = some .waiting && !c.session.pongReceived.satisfied
  | _ => false

/-- The loop replaces the promise. -/
def resets (c : Client) : Action → Bool
  | .hearbeat => c.session.hearbeatThread = some .resetting
  | _ => false

/-- The promise of the current cycle was used up. -/
def settled : ClientHistory → Bool
  | [] => false
  | e :: h =>
    if e.before.state.resets e.action then false
    else e.before.state.settles e.action || settled h

/-- Only one event of a cycle uses up its promise. -/
def SettlesOnce (h : ClientHistory) (p : Process Client Fault) (a : Action) : Prop :=
  p.state.settles a = true → settled h = false

instance (h : ClientHistory) (p : Process Client Fault) (a : Action) :
    Decidable (SettlesOnce h p a) :=
  inferInstanceAs (Decidable (_ → _))

/-- A step satisfies `pong_received_`: a PONG, a PING that cannot be sent, or the loop after the
wait expired. -/
def satisfiesPong (c : Client) : Action → Bool
  | .message t m ec => isPong (.message t m ec)
  | .runDispatched ec => (c.pingError (.runDispatched ec)).isSome
  | .hearbeat => c.session.hearbeatThread = some .expired
  | _ => false

/-- The step is not refused by `pong_received_`. -/
def PongAccepted (e : ClientEntry) : Prop := e.output.1 = .value ⟨⟩

/-- The current promise was offered at most one result, and no step was refused by one. -/
structure PongOnce (h : ClientHistory) (p : Process Client Fault) : Prop where
  once : p.state.session.pongReceived.offers.length ≤ 1
  accepted : ∀ e ∈ h, e.before.state.satisfiesPong e.action = true → PongAccepted e

variable {h : ClientHistory} {p p' : Process Client Fault} {a : Action}
  {o : Outcome Exception Fault PUnit × List Effect}

/-- An open promise refuses nothing. -/
theorem pongAccepted_of_open (hs : step p a = some (o, p'))
    (hopen : p.state.session.pongReceived.offers = []) (ha : p.state.satisfiesPong a = true) :
    PongAccepted ⟨p, a, o, p'⟩ := by
  have hsat : p.state.session.pongReceived.satisfied = false :=
    Promise.satisfied_eq_false.mpr hopen
  unfold PongAccepted
  cases a with
  | message t m ec =>
    have ha : isPong (.message t m ec) = true := ha
    dsimp only
    rw [step_message hs, received_of_isPong ha]
    simp [Session.onMessageOutcome, hsat]
  | runDispatched ec =>
    have ha : (p.state.pingError (.runDispatched ec)).isSome = true := ha
    cases hq : p.state.session.ioContext with
    | nil => simp [pingError, hq] at ha
    | cons d rest =>
      cases d with
      | hello m | pingFailed e => simp [pingError, hq] at ha
      | ping m =>
        simp only [pingError, hq] at ha
        dsimp only
        rw [step_ping hs hq, Session.pingOutcome_of_pingError ha]
        simp [hsat]
  | hearbeat =>
    have ht : p.state.session.hearbeatThread = some .expired := by
      simpa [satisfiesPong] using ha
    dsimp only
    rw [step_hearbeat hs]
    simp [Session.hearbeatOutcome, ht, hsat]
  | _ => cases ha

/-- The invariant of a run in which one event of each cycle uses up the promise. -/
private structure Settling (h : ClientHistory) (p : Process Client Fault) : Prop where
  opened : settled h = false → p.state.session.pongReceived.offers = []
  once : p.state.session.pongReceived.offers.length ≤ 1
  expired : p.state.session.hearbeatThread = some .expired →
    settled h = true ∧ p.state.session.pongReceived.offers = []
  accepted : ∀ e ∈ h, e.before.state.satisfiesPong e.action = true → PongAccepted e

private theorem Settling.open_of_satisfies (hi : Settling h p) (hc : SettlesOnce h p a)
    (ha : p.state.satisfiesPong a = true) : p.state.session.pongReceived.offers = [] := by
  cases a with
  | message t m ec => exact hi.opened (hc ha)
  | runDispatched ec => exact hi.opened (hc ha)
  | hearbeat => exact (hi.expired (by simpa [satisfiesPong] using ha)).2
  | _ => cases ha

private theorem Settling.accepted_step (hi : Settling h p) (hc : SettlesOnce h p a)
    (hs : step p a = some (o, p')) : ∀ e ∈ (⟨p, a, o, p'⟩ :: h : ClientHistory),
      e.before.state.satisfiesPong e.action = true → PongAccepted e := by
  rw [List.forall_mem_cons]
  refine ⟨fun ha => ?_, hi.accepted⟩
  exact pongAccepted_of_open hs (hi.open_of_satisfies hc ha) ha

private theorem Settling.of_same (hi : Settling h p) (hc : SettlesOnce h p a)
    (hs : step p a = some (o, p')) (hreset : p.state.resets a = false)
    (hsettles : p.state.settles a = false)
    (hoffers : p'.state.session.pongReceived.offers = p.state.session.pongReceived.offers)
    (hthread : p'.state.session.hearbeatThread = some .expired →
      p.state.session.hearbeatThread = some .expired) : Settling (⟨p, a, o, p'⟩ :: h) p' := by
  have hsettled : settled (⟨p, a, o, p'⟩ :: h) = settled h := by
    simp [settled, hreset, hsettles]
  constructor
  · rw [hsettled, hoffers]
    exact hi.opened
  · rw [hoffers]
    exact hi.once
  · intro ht
    rw [hsettled, hoffers]
    exact hi.expired (hthread ht)
  · exact hi.accepted_step hc hs

private theorem Settling.of_settles {r : Except Exception Bool} (hi : Settling h p)
    (hc : SettlesOnce h p a) (hs : step p a = some (o, p')) (hreset : p.state.resets a = false)
    (hsettles : p.state.settles a = true)
    (hoffers : p'.state.session.pongReceived.offers =
      p.state.session.pongReceived.offers ++ [r])
    (hthread : p'.state.session.hearbeatThread = p.state.session.hearbeatThread) :
    Settling (⟨p, a, o, p'⟩ :: h) p' := by
  have hopen := hi.opened (hc hsettles)
  have hsettled : settled (⟨p, a, o, p'⟩ :: h) = true := by
    simp [settled, hreset, hsettles]
  constructor
  · rw [hsettled]
    intro hf
    cases hf
  · rw [hoffers, hopen]
    simp
  · intro ht
    rw [hthread] at ht
    have := (hi.expired ht).1
    rw [hc hsettles] at this
    cases this
  · exact hi.accepted_step hc hs

private theorem Settling.hearbeat (hi : Settling h p) (hc : SettlesOnce h p .hearbeat)
    (hs : step p .hearbeat = some (o, p')) : Settling (⟨p, .hearbeat, o, p'⟩ :: h) p' := by
  have hsession : p'.state.session = p.state.session.afterHearbeat := (step_facts hs).session
  by_cases hexpired : p.state.session.hearbeatThread = some .expired
  · -- The loop sets the promise its expired wait had used up.
    obtain ⟨hsettled, hopen⟩ := hi.expired hexpired
    have hsame : settled (⟨p, .hearbeat, o, p'⟩ :: h) = true := by
      simp [settled, resets, settles, hexpired, hsettled]
    have hsat : p.state.session.pongReceived.satisfied = false :=
      Promise.satisfied_eq_false.mpr hopen
    constructor
    · rw [hsame]
      intro hf
      cases hf
    · rw [hsession]
      simp [Session.afterHearbeat, hexpired, hopen]
    · rw [hsession]
      simp [Session.afterHearbeat, hexpired, hsat]
    · exact hi.accepted_step hc hs
  · by_cases hreset : p.state.session.hearbeatThread = some .resetting
    · constructor
      · rw [hsession]
        simp [Session.afterHearbeat, hreset]
      · rw [hsession]
        simp [Session.afterHearbeat, hreset]
      · rw [hsession]
        simp [Session.afterHearbeat, hreset]
      · exact hi.accepted_step hc hs
    · have hoffers : p'.state.session.pongReceived.offers =
          p.state.session.pongReceived.offers := by
        rw [hsession]
        exact Session.offers_afterHearbeat hexpired hreset
      have hresets : p.state.resets .hearbeat = false := by simpa [resets] using hreset
      by_cases hsettles : p.state.settles .hearbeat = true
      · -- The wait expires: the loop is about to use up the promise.
        have hopen := hi.opened (hc hsettles)
        have hsettled : settled (⟨p, .hearbeat, o, p'⟩ :: h) = true := by
          simp [settled, hresets, hsettles]
        constructor
        · rw [hsettled]
          intro hf
          cases hf
        · rw [hoffers]
          exact hi.once
        · intro _
          rw [hoffers]
          exact ⟨hsettled, hopen⟩
        · exact hi.accepted_step hc hs
      · apply hi.of_same hc hs hresets (by simpa using hsettles) hoffers
        intro ht
        rw [hsession] at ht
        rcases Session.expired_of_afterHearbeat ht with he | ⟨hwaiting, hsat⟩
        · exact he
        · exact absurd (by simp [settles, hwaiting, hsat]) hsettles

private theorem Settling.message {t : TransportId} {m : Message} {ec : Option Bytes}
    (hi : Settling h p) (hc : SettlesOnce h p (.message t m ec))
    (hs : step p (.message t m ec) = some (o, p')) :
    Settling (⟨p, .message t m ec, o, p'⟩ :: h) p' := by
  have hsession : p'.state.session = p.state.session.after m.received := (step_facts hs).session
  by_cases hp : isPong (.message t m ec) = true
  · rw [received_of_isPong hp] at hsession
    exact hi.of_settles hc hs rfl hp (by rw [hsession]; rfl) (by rw [hsession]; rfl)
  · have hr : m.received ≠ .pong := fun hr => hp (by simp only [isPong, hr])
    obtain ⟨hpong, hthread⟩ := Session.after_of_not_pong (s := p.state.session) hr
    refine hi.of_same hc hs rfl (by simpa [settles] using hp) ?_ ?_
    · rw [hsession, hpong]
    · rw [hsession]
      intro ht
      rcases hthread with hsame | ⟨-, hidle⟩
      · rwa [hsame] at ht
      · rw [hidle] at ht
        cases ht

private theorem Settling.runDispatched {ec : Option Bytes} (hi : Settling h p)
    (hc : SettlesOnce h p (.runDispatched ec)) (hs : step p (.runDispatched ec) = some (o, p')) :
    Settling (⟨p, .runDispatched ec, o, p'⟩ :: h) p' := by
  have hf := step_facts hs
  have hsession := hf.session
  cases hq : p.state.session.ioContext with
  | nil => exact absurd hq hf.enabled
  | cons d rest =>
    simp only [sessionAfter, hq] at hsession
    cases d with
    | hello m =>
      refine hi.of_same hc hs rfl (by simp [settles, pingError, hq]) ?_ ?_
      · rw [hsession]; simp
      · rw [hsession]; simp
    | pingFailed e =>
      refine hi.of_same hc hs rfl (by simp [settles, pingError, hq]) ?_ ?_
      · rw [hsession]
      · rw [hsession]; exact id
    | ping m =>
      obtain ⟨-, -, -, -, -, hthread, -⟩ :=
        { p.state.session with ioContext := rest }.afterPing_frame (p.state.net ec) m
      have hpong := Session.pongReceived_afterPing (p.state.net ec) m
        { p.state.session with ioContext := rest }
      dsimp only at hsession
      -- Only a PING that cannot be sent sets the promise.
      cases he : { p.state.session with ioContext := rest }.pingError (p.state.net ec) m with
      | none =>
        rw [he] at hpong
        refine hi.of_same hc hs rfl (by simp [settles, pingError, hq, he]) ?_ ?_
        · rw [hsession, hpong]; simp
        · rw [hsession, hthread]; exact id
      | some e =>
        rw [he] at hpong
        refine hi.of_settles (r := .ok false) hc hs rfl ?_ ?_ ?_
        · simp [settles, pingError, hq, he]
        · rw [hsession, hpong]; rfl
        · rw [hsession, hthread]

private theorem Settling.step (hi : Settling h p) (hc : SettlesOnce h p a)
    (hs : step p a = some (o, p')) : Settling (⟨p, a, o, p'⟩ :: h) p' := by
  have hsession := (step_facts hs).session
  cases a with
  | hearbeat => exact hi.hearbeat hc hs
  | message t m ec => exact hi.message hc hs
  | runDispatched ec => exact hi.runDispatched hc hs
  | attach t | detach t =>
    simp only [sessionAfter] at hsession
    refine hi.of_same hc hs rfl rfl ?_ ?_ <;>
    · rw [hsession]
      split <;> simp
  | hearbeatWoken =>
    refine hi.of_same hc hs rfl rfl ?_ ?_
    · rw [hsession]; rfl
    · rw [hsession]
      intro ht
      cases ht
  | _ =>
    refine hi.of_same hc hs rfl rfl ?_ ?_
    · rw [hsession]; rfl
    · rw [hsession]; exact id

/-- In every run in which one event of each cycle uses up the promise, no step satisfies it a
second time, and none is refused by it. -/
theorem pong_once (hr : ClientRun h p) (hm : Meets SettlesOnce h) : PongOnce h p := by
  have hi : Settling h p := by
    apply hr.invariant_of_meets SettlesOnce Settling
    · constructor
      · exact fun _ => rfl
      · exact Nat.zero_le 1
      · intro ht
        cases ht
      · exact List.forall_mem_nil _
    · intro h p a o p' hi hc hs
      exact hi.step hc hs
    · exact hm
  exact ⟨hi.once, hi.accepted⟩

/-- Two cycles, the first answered by a PONG and the second ended by the loop. -/
theorem pong_once_cycles : ∃ h p, ClientRun h p ∧ PongOnce h p ∧
    p.state.session.hearbeatThread = some .ended := by
  obtain ⟨h, p, hr, hc⟩ := exists_run_of_replay step init
    (joinSteps ++ [.hearbeat, .runDispatched none, .hearbeat, .message 0 pong none, .hearbeat,
      .hearbeat, .hearbeat, .hearbeat, .runDispatched none, .hearbeat, .hearbeat, .hearbeat,
      .hearbeat])
    (fun h p => decide (Meets SettlesOnce h) &&
      decide (p.state.session.hearbeatThread = some .ended)) (by decide)
  simp only [Bool.and_eq_true, decide_eq_true_eq] at hc
  exact ⟨h, p, hr, pong_once hr hc.1, hc.2⟩

/-- The second of two PONGs in one cycle is refused by the promise. -/
theorem not_pong_once : ¬ ∀ h p, ClientRun h p → PongOnce h p := by
  intro hall
  obtain ⟨h, p, hr, hc⟩ := exists_run_of_replay step init
    (joinSteps ++ [.hearbeat, .runDispatched none, .message 0 pong none, .message 0 pong none])
    (fun _ p => decide (p.state.session.pongReceived.offers.length = 2)) (by decide)
  have hlength := (hall h p hr).once
  rw [decide_eq_true_eq] at hc
  omega

end Client
end Barbarossa
