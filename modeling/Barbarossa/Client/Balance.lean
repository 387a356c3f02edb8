import Barbarossa.Client.Conversation
import Barbarossa.Client.Heartbeat
import Barbarossa.Client.Offers

/-!
# The balance of PINGs and PONGs

A cycle of the heartbeat loop sends one PING and is over when its promise holds a PONG. As long as
every offer is accepted, the two sides are never more than one apart.
-/

namespace Barbarossa
open Barbarossa.Base

namespace Client

/-- The loop begins a cycle. -/
def beginsCycle (e : ClientEntry) : Bool :=
  match e.action with
  | .hearbeat => e.before.state.session.hearbeatThread = some .idle
  | _ => false

/-- The loop has finished a cycle. -/
def finishesCycle (e : ClientEntry) : Bool := e.before.state.resets e.action

/-- A PONG is delivered. -/
def hearsPong (e : ClientEntry) : Bool := isPong e.action

/-- A PING is handed over. -/
def sendsPing (e : ClientEntry) : Bool := (framesOf e).contains pingFrame

/-- The result that a PONG offers. -/
def isAlive : Except Exception Bool → Bool
  | .ok alive => alive
  | .error _ => false

end Client

namespace Session

/-- The loop is between its idle wait and the end of a cycle. -/
def inCycle (s : Session) : Bool :=
  match s.hearbeatThread with
  | none | some .idle | some .ended => false
  | some _ => true

end Session

namespace Client

variable {h : ClientHistory} {p p' : Process Client Fault} {a : Action}
  {o : Outcome Exception Fault PUnit × List Effect}

/-- The accounts of the loop: every PONG was spent on a finished cycle or is held by the promise,
and every cycle that was begun is finished, in progress or was the last. -/
structure Balanced (h : ClientHistory) (p : Process Client Fault) : Prop where
  heard : h.countP hearsPong =
    h.countP finishesCycle + p.state.session.pongReceived.offers.countP isAlive
  finished_le : h.countP finishesCycle ≤ h.countP beginsCycle
  begun_le : h.countP beginsCycle ≤ h.countP finishesCycle + 1
  idle : p.state.session.hearbeatThread = none ∨ p.state.session.hearbeatThread = some .idle →
    h.countP beginsCycle = h.countP finishesCycle
  cycle : p.state.session.inCycle = true → h.countP beginsCycle = h.countP finishesCycle + 1
  held : p.state.session.hearbeatThread = some .resetting →
    p.state.session.pongReceived.offers.countP isAlive = 1
  sent : h.countP sendsPing + pings p.state.session.ioContext ≤ h.countP beginsCycle

private theorem thread_of_other (hs : step p a = some (o, p')) (ha : a ≠ .hearbeat)
    (hw : a ≠ .hearbeatWoken) :
    p'.state.session.hearbeatThread = p.state.session.hearbeatThread ∨
      p.state.session.hearbeatThread = none ∧
        p'.state.session.hearbeatThread = some .idle := by
  rw [(step_facts hs).session]
  cases a with
  | hearbeat => exact absurd rfl ha
  | hearbeatWoken => exact absurd rfl hw
  | message t m ec =>
    by_cases hr : m.received = .pong
    · simp only [sessionAfter, hr]
      exact .inl rfl
    · exact (Session.after_of_not_pong hr).2
  | runDispatched ec =>
    left
    simp only [sessionAfter]
    split <;> simp
  | attach t | detach t =>
    left
    simp only [sessionAfter]
    split <;> rfl
  | _ => exact .inl rfl

private theorem pings_afterPing (net : Net) (m : Message) (s : Session) :
    pings (s.afterPing net m).ioContext = pings s.ioContext := by
  rcases Session.afterPing_ioContext net m s with hsame | ⟨e, -, hrest⟩
  · rw [hsame]
  · rw [hrest]
    rfl

private theorem ping_step (hs : step p a = some (o, p'))
    (hbuilt : ∀ d ∈ p.state.session.ioContext, Built d) :
    pings p'.state.session.ioContext + (sendsPing ⟨p, a, o, p'⟩).toNat ≤
      pings p.state.session.ioContext + (beginsCycle ⟨p, a, o, p'⟩).toNat := by
  by_cases hsent : sendsPing ⟨p, a, o, p'⟩ = true
  · have hframe : pingFrame ∈ framesOf ⟨p, a, o, p'⟩ := by simpa [sendsPing] using hsent
    rw [hsent, (step_facts hs).session]
    generalize hping : pingFrame = frame at hframe
    cases utters_of_step hs hbuilt hframe with
    | hello ec realm rest hq hid => cases hping
    | ping ec rest hq hid =>
      simp only [sessionAfter, hq]
      rw [pings_afterPing]
      simp [pings]
    | reply t m ec _ hreply hid => exact absurd hping.symm (tag_of_isReply hreply).2
  · rw [Bool.not_eq_true] at hsent
    rw [hsent, (step_facts hs).session]
    cases a with
    | join realm => simp [sessionAfter, pings, List.countP_append]
    | runDispatched ec =>
      simp only [sessionAfter]
      split
      · exact Nat.le_add_right _ _
      · next hq =>
        rw [hq]
        simp only [pings, Session.afterHello_frame, List.countP_cons, Bool.toNat_false]
        omega
      · next hq =>
        rw [hq]
        rw [pings_afterPing]
        simp only [pings, List.countP_cons, Bool.toNat_false]
        omega
      · next hq =>
        rw [hq]
        simp only [pings, List.countP_cons, Bool.toNat_false]
        omega
    | message t m ec => simp [sessionAfter]
    | hearbeat =>
      simp only [sessionAfter, Session.afterHearbeat_ioContext, beginsCycle]
      split
      · next hidle => simp [hidle, pings, List.countP_append]
      · exact Nat.le_add_right _ _
    | attach t | detach t =>
      simp only [sessionAfter]
      split <;> exact Nat.le_add_right _ _
    | _ => exact Nat.le_add_right _ _

/-- What a step is for the cycles of the loop. -/
private inductive Turn (e : ClientEntry) : Prop
  | begun (hb : beginsCycle e = true) (hf : finishesCycle e = false)
      (before : e.before.state.session.hearbeatThread = some .idle)
      (after : e.after.state.session.hearbeatThread = some .dispatched)
  | finished (hb : beginsCycle e = false) (hf : finishesCycle e = true) (hh : hearsPong e = false)
      (before : e.before.state.session.hearbeatThread = some .resetting)
      (after : e.after.state.session.hearbeatThread = some .idle)
  | within (hb : beginsCycle e = false) (hf : finishesCycle e = false)
      (resting : e.after.state.session.hearbeatThread = none ∨
          e.after.state.session.hearbeatThread = some .idle →
        e.before.state.session.hearbeatThread = none ∨
          e.before.state.session.hearbeatThread = some .idle)
      (cycle : e.after.state.session.inCycle = true → e.before.state.session.inCycle = true)
      (held : e.after.state.session.hearbeatThread = some .resetting →
        e.before.state.session.hearbeatThread = some .resetting ∨
          e.before.state.session.pongReceived.result = some (.ok true))

private theorem turn_within {point after : HearbeatPoint}
    (ht : p.state.session.hearbeatThread = some point) (hcycle : p.state.session.inCycle = true)
    (hreset : point ≠ .resetting) (hafter : p'.state.session.hearbeatThread = some after)
    (hnext : after ≠ .idle)
    (hheld : after = .resetting → p.state.session.pongReceived.result = some (.ok true)) :
    Turn ⟨p, .hearbeat, o, p'⟩ := by
  apply Turn.within
  · simp only [beginsCycle, ht, decide_eq_false_iff_not]
    rintro ⟨⟩
    simp [Session.inCycle, ht] at hcycle
  · simp [finishesCycle, resets, ht, hreset]
  · simp [hafter, hnext]
  · exact fun _ => hcycle
  · intro hresetting
    rw [hafter] at hresetting
    exact .inr (hheld (Option.some.inj hresetting))

private theorem turn_of_hearbeat (hs : step p .hearbeat = some (o, p')) (hv : o.1 = .value ⟨⟩)
    (hi : p.state.session.Healthy) : Turn ⟨p, .hearbeat, o, p'⟩ := by
  have hsession := (step_facts hs).session
  have hlive := (step_facts hs).enabled
  have hout := step_hearbeat hs
  rw [hv] at hout
  unfold Session.hearbeatOutcome at hout
  simp only [sessionAfter, Session.afterHearbeat] at hsession
  simp only [Enabled] at hlive
  cases ht : p.state.session.hearbeatThread with
  | none => simp [ht] at hlive
  | some point =>
    have hcycle : p.state.session.inCycle = decide (point ≠ .idle ∧ point ≠ .ended) := by
      cases point <;> simp [Session.inCycle, ht]
    rw [ht] at hout hsession hlive
    cases point with
    | ended => exact absurd hlive id
    | idle =>
      apply Turn.begun
      · simp [beginsCycle, ht]
      · simp [finishesCycle, resets, ht]
      · exact ht
      · rw [hsession]
    | resetting =>
      apply Turn.finished
      · simp [beginsCycle, ht]
      · simp [finishesCycle, resets, ht]
      · rfl
      · exact ht
      · rw [hsession]
    | dispatched | waiting | expired =>
      dsimp only at hsession
      apply turn_within ht (hcycle.trans rfl) (by simp) (by rw [hsession])
      · split <;> simp
      · split <;> simp
    | judging =>
      cases hr : p.state.session.pongReceived.result with
      | none => exact absurd (Promise.result_eq_none.mp hr) hlive
      | some r =>
        obtain ⟨alive, rfl⟩ := hi.alive r (List.mem_of_mem_head? hr)
        rw [hr] at hout hsession
        cases alive with
        | true =>
          dsimp only at hsession
          apply turn_within ht (hcycle.trans rfl) (by simp) (by rw [hsession])
          · simp
          · exact fun _ => hr
        | false =>
          cases hl : p.state.session.leaved.satisfied with
          | true => simp [hl] at hout
          | false =>
            simp only [hl, Bool.false_eq_true, if_false] at hsession
            apply turn_within ht (hcycle.trans rfl) (by simp) (by rw [hsession]) <;> simp

private theorem turn_of_step (hs : step p a = some (o, p')) (hv : o.1 = .value ⟨⟩)
    (hi : p.state.session.Healthy) : Turn ⟨p, a, o, p'⟩ := by
  by_cases hbeat : a = .hearbeat
  · subst hbeat
    exact turn_of_hearbeat hs hv hi
  have hb : beginsCycle ⟨p, a, o, p'⟩ = false := by
    cases a with
    | hearbeat => exact absurd rfl hbeat
    | _ => rfl
  have hf : finishesCycle ⟨p, a, o, p'⟩ = false := by
    cases a with
    | hearbeat => exact absurd rfl hbeat
    | _ => rfl
  by_cases hwoken : a = .hearbeatWoken
  · subst hwoken
    have hended : p'.state.session.hearbeatThread = some .ended := by
      rw [(step_facts hs).session]
      rfl
    apply Turn.within hb hf <;> simp [hended, Session.inCycle]
  · rcases thread_of_other hs hbeat hwoken with hsame | ⟨hnone, hidle⟩
    · apply Turn.within hb hf
      · simp only [hsame, imp_self]
      · simp only [Session.inCycle, hsame, imp_self]
      · intro hreset
        exact .inl (hsame ▸ hreset)
    · apply Turn.within hb hf
      · simp [hnone]
      · simp [hidle, Session.inCycle]
      · simp [hidle]

private theorem countP_pongOffers (c : Client) (a : Action) :
    (c.pongOffers a).countP isAlive = (isPong a).toNat := by
  cases a with
  | message t m ec =>
    simp only [pongOffers, isPong]
    cases m.received <;> rfl
  | runDispatched ec =>
    simp only [pongOffers]
    cases c.pingError (.runDispatched ec) <;> rfl
  | hearbeat =>
    simp only [pongOffers]
    split <;> rfl
  | _ => rfl

private theorem alive_step (hs : step p a = some (o, p')) :
    p'.state.session.pongReceived.offers.countP isAlive =
      if p.state.resets a then 0
      else p.state.session.pongReceived.offers.countP isAlive + (isPong a).toNat := by
  rw [(step_facts hs).session, pong_offers_after]
  split
  · rfl
  · rw [List.countP_append, countP_pongOffers]

private theorem countP_cons (f : ClientEntry → Bool) (e : ClientEntry) :
    (e :: h).countP f = h.countP f + (f e).toNat := by
  rw [List.countP_cons]
  cases f e <;> rfl

/-- A step whose offers are accepted keeps the accounts. -/
theorem Balanced.step (hi : Balanced h p) (hs : Client.step p a = some (o, p'))
    (hv : o.1 = .value ⟨⟩) (honce : p.state.Once) (hhealthy : p.state.session.Healthy)
    (hbuilt : ∀ d ∈ p.state.session.ioContext, Built d) :
    Balanced (⟨p, a, o, p'⟩ :: h) p' := by
  have halive := alive_step hs
  have hping := ping_step hs hbuilt
  have hheard := hi.heard
  have hfinished := hi.finished_le
  have hbegun := hi.begun_le
  have hsent := hi.sent
  have hhears : hearsPong ⟨p, a, o, p'⟩ = isPong a := rfl
  have hresets : finishesCycle ⟨p, a, o, p'⟩ = p.state.resets a := rfl
  cases turn_of_step hs hv hhealthy with
  | begun hb hf before after =>
    have hequal := hi.idle (.inr before)
    rw [if_neg (by rw [← hresets, hf]; simp)] at halive
    rw [hb] at hping
    dsimp only at after
    constructor <;>
      simp only [countP_cons, hf, hb, hhears, halive, after, Bool.toNat_false, Bool.toNat_true]
        at hping ⊢
    · omega
    · omega
    · omega
    · simp
    · intro _
      omega
    · simp
    · omega
  | finished hb hf hh before after =>
    dsimp only at before after
    have hequal := hi.cycle (by simp [Session.inCycle, before])
    have hheld := hi.held before
    rw [if_pos (by rw [← hresets, hf])] at halive
    rw [hb] at hping
    constructor <;>
      simp only [countP_cons, hf, hb, hh, halive, after, Bool.toNat_false, Bool.toNat_true]
        at hping ⊢
    · omega
    · omega
    · omega
    · intro _
      omega
    · simp only [Session.inCycle, after, Bool.false_eq_true, false_implies]
    · simp
    · omega
  | within hb hf resting cycle held =>
    rw [if_neg (by rw [← hresets, hf]; simp)] at halive
    rw [hb] at hping
    dsimp only at resting cycle held
    constructor <;>
      simp only [countP_cons, hf, hb, hhears, Bool.toNat_false, Nat.add_zero] at hping ⊢
    · omega
    · omega
    · omega
    · exact fun hrest => hi.idle (resting hrest)
    · exact fun hcycle => hi.cycle (cycle hcycle)
    · intro hreset
      have hold : p.state.session.pongReceived.offers.countP isAlive = 1 := by
        rcases held hreset with hbefore | hresult
        · exact hi.held hbefore
        · rw [Promise.offers_of_result honce.pong hresult]
          rfl
      have hnone := (accepts_step hs hv).pong.eq_nil fun hnil => by simp [hnil] at hold
      rw [halive, hold, ← countP_pongOffers, hnone]
      rfl
    · omega

end Client
end Barbarossa
