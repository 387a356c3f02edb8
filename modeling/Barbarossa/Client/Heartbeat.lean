import Barbarossa.Client.Outcomes

/-!
# The heartbeat

A cycle of the heartbeat loop starts where the previous one replaced `pong_received_`. It
queues a PING, waits for the promise, and judges the peer by what the promise holds. The
promise is open from the start of the cycle, before the PING is out, and a PONG carries
no identifier; so the verdict is about the cycle's own PING only while no PONG comes too
early.
-/

namespace Barbarossa
open Barbarossa.Base

/-- Where the PING of a cycle is. -/
inductive PingFate where
  /-- The idle wait is not over. -/
  | unqueued
  | queued
  /-- Handed to the transport. -/
  | handed
  /-- The send failed. -/
  | failed
  deriving DecidableEq, Repr

/-- What has happened in a cycle. -/
structure Cycle where
  ping : PingFate := .unqueued
  /-- A PONG came after the PING was handed over and before the wait for it expired. -/
  ponged : Bool := false
  /-- The wait for the PONG has expired. -/
  expired : Bool := false
  deriving DecidableEq

/-- The number of PINGs that wait in the io_context. -/
def pings (q : List Dispatched) : Nat :=
  q.countP fun
    | .ping _ => true
    | .hello _ | .pingFailed _ => false

/-- The next lambda is the last PING of the queue. -/
def lastPing : List Dispatched → Bool
  | .ping _ :: rest => pings rest = 0
  | _ => false

namespace Client

/-- A PONG. -/
def isPong : Action → Bool
  | .message _ m _ =>
    match m.received with
    | .pong => true
    | _ => false
  | _ => false

/-- A frame was handed to a transport, and the send succeeded. -/
def sent (e : ClientEntry) : Bool :=
  e.output.2.any fun
    | .send _ _ none => true
    | _ => false

/-- The cycle after a step of the heartbeat loop. -/
def loopCycle (k : Cycle) (s : Session) : Cycle :=
  match s.hearbeatThread with
  | some .idle => { k with ping := .queued }
  | some .waiting => if s.pongReceived.satisfied then k else { k with expired := true }
  | some .resetting => {}
  | _ => k

/-- The cycle after a step. -/
def nextCycle (k : Cycle) (e : ClientEntry) : Cycle :=
  match e.action with
  | .hearbeat => loopCycle k e.before.state.session
  | .runDispatched _ =>
    if k.ping = .queued ∧ lastPing e.before.state.session.ioContext = true then
      { k with ping := if sent e then .handed else .failed }
    else k
  | .message t m ec =>
    if isPong (.message t m ec) = true ∧ k.ping = .handed ∧ k.expired = false then
      { k with ponged := true }
    else k
  | _ => k

/-- The current cycle. -/
def cycle : ClientHistory → Cycle
  | [] => {}
  | e :: h => nextCycle (cycle h) e

/-- The loop judges the peer. -/
def judges (c : Client) : Action → Bool
  | .hearbeat => c.session.hearbeatThread = some .judging
  | _ => false

/-- Every verdict about a PING that was handed over is that the peer is alive, so that the loop
goes on, exactly when a PONG came after the PING and before the wait expired. -/
def JudgesSoundly : ClientHistory → Prop
  | [] => True
  | e :: h => (e.before.state.judges e.action = true → (cycle h).ping = .handed →
      (e.after.state.session.hearbeatThread = some .resetting ↔ (cycle h).ponged = true)) ∧
    JudgesSoundly h

instance : (h : ClientHistory) → Decidable (JudgesSoundly h)
  | [] => isTrue trivial
  | e :: h =>
    have : Decidable (JudgesSoundly h) := instDecidableJudgesSoundly h
    inferInstanceAs (Decidable ((e.before.state.judges e.action = true →
      (cycle h).ping = .handed → (_ ↔ (cycle h).ponged = true)) ∧ JudgesSoundly h))

/-- No PONG comes before the PING of its cycle was handed over or failed, unless the wait for it
has expired or the loop is over. -/
def NoEarlyPong (h : ClientHistory) (p : Process Client Fault) (a : Action) : Prop :=
  isPong a = true → (cycle h).ping = .handed ∨ (cycle h).ping = .failed ∨
    (cycle h).expired = true ∨ p.state.session.hearbeatThread = some .ended

instance (h : ClientHistory) (p : Process Client Fault) (a : Action) :
    Decidable (NoEarlyPong h p a) :=
  inferInstanceAs (Decidable (_ → _ ∨ _ ∨ _ ∨ _))

/-! ### The promise follows the cycle -/

/-- Between the PING and the expiry of the wait: the offers and the number of waiting PINGs. -/
private def InWindow (k : Cycle) (offers : List (Except Exception Bool)) (q : Nat) : Prop :=
  k.expired = false ∧
    match k.ping with
    | .unqueued => False
    | .queued => k.ponged = false ∧ offers = [] ∧ q = 1
    | .handed => (if k.ponged then offers.head? = some (.ok true) else offers = []) ∧ q = 0
    | .failed => k.ponged = false ∧ q = 0

/-- What the cycle, the offers and the number of waiting PINGs are at each point of the loop. -/
private def Tracked (k : Cycle) (offers : List (Except Exception Bool)) (q : Nat) :
    Option HearbeatPoint → Prop
  | none | some .idle => k = {} ∧ offers = [] ∧ q = 0
  | some .dispatched | some .waiting => InWindow k offers q
  | some .expired => k.expired = true ∧ k.ponged = false
  | some .judging => InWindow k offers q ∨
      k.expired = true ∧ k.ponged = false ∧ offers.head? = some (.ok false)
  | some .resetting => q = 0
  | some .ended => True

variable {h : ClientHistory} {p p' : Process Client Fault} {a : Action}
  {o : Outcome Exception Fault PUnit × List Effect} {k : Cycle}
  {offers : List (Except Exception Bool)} {q : Nat} {thread : Option HearbeatPoint}

private theorem InWindow.pong (hi : InWindow k offers q)
    (hping : k.ping = .handed ∨ k.ping = .failed) :
    InWindow (if k.ping = .handed ∧ k.expired = false then { k with ponged := true } else k)
      (offers ++ [.ok true]) q := by
  obtain ⟨hexpired, hi⟩ := hi
  rcases hping with hp | hp
  · rw [if_pos ⟨hp, hexpired⟩]
    simp only [hp] at hi
    refine ⟨hexpired, ?_⟩
    simp only [hp, ite_true]
    refine ⟨?_, hi.2⟩
    by_cases hk : k.ponged
    · rw [if_pos hk] at hi
      simp [List.head?_append, hi.1]
    · rw [if_neg hk] at hi
      simp [hi.1]
  · rw [if_neg (by simp [hp])]
    refine ⟨hexpired, ?_⟩
    simpa only [hp] using hi

private theorem Tracked.pong (hi : Tracked k offers q thread)
    (hc : k.ping = .handed ∨ k.ping = .failed ∨ k.expired = true ∨ thread = some .ended) :
    Tracked (if k.ping = .handed ∧ k.expired = false then { k with ponged := true } else k)
      (offers ++ [.ok true]) q thread := by
  have hwindow : InWindow k offers q → thread ≠ some .ended →
      InWindow (if k.ping = .handed ∧ k.expired = false then { k with ponged := true } else k)
        (offers ++ [.ok true]) q := by
    intro hw hne
    apply hw.pong
    rcases hc with hp | hp | he | he
    · exact .inl hp
    · exact .inr hp
    · rw [hw.1] at he
      cases he
    · exact absurd he hne
  have hlate : k.expired = true →
      (if k.ping = .handed ∧ k.expired = false then { k with ponged := true } else k) = k := by
    intro he
    simp [he]
  cases thread with
  | none =>
    obtain ⟨rfl, -, -⟩ := hi
    simp at hc
  | some point =>
    cases point with
    | idle =>
      obtain ⟨rfl, -, -⟩ := hi
      simp at hc
    | dispatched => exact hwindow hi (by simp)
    | waiting => exact hwindow hi (by simp)
    | expired =>
      rw [hlate hi.1]
      exact hi
    | judging =>
      rcases hi with hw | ⟨he, hp, hhead⟩
      · exact .inl (hwindow hw (by simp))
      · rw [hlate he]
        exact .inr ⟨he, hp, by simp [List.head?_append, hhead]⟩
    | resetting => exact hi
    | ended => trivial

private theorem Tracked.ping {q' : Nat} {sent : Bool} {more : List (Except Exception Bool)}
    (hi : Tracked k offers q thread) (hq : q = q' + 1) (hmore : sent = true → more = []) :
    Tracked (if k.ping = .queued ∧ q' = 0 then
        { k with ping := if sent then .handed else .failed } else k)
      (offers ++ more) q' thread := by
  have hwindow : InWindow k offers q → InWindow (if k.ping = .queued ∧ q' = 0 then
        { k with ping := if sent then .handed else .failed } else k) (offers ++ more) q' := by
    rintro ⟨hexpired, hw⟩
    cases hp : k.ping with
    | unqueued => simp [hp] at hw
    | handed | failed =>
      simp only [hp] at hw
      omega
    | queued =>
      simp only [hp] at hw
      obtain ⟨hk, hoffers, hone⟩ := hw
      have hzero : q' = 0 := by omega
      simp only [hzero, and_self, ite_true]
      refine ⟨hexpired, ?_⟩
      cases sent with
      | true => simp [hk, hoffers, hmore rfl]
      | false => simp [hk]
  have hkeep : ∀ fate, (if k.ping = .queued ∧ q' = 0 then { k with ping := fate } else k).expired =
      k.expired ∧ (if k.ping = .queued ∧ q' = 0 then { k with ping := fate } else k).ponged =
      k.ponged := by
    intro fate
    split <;> exact ⟨rfl, rfl⟩
  cases thread with
  | none => have := hi.2.2; omega
  | some point =>
    cases point with
    | idle => have := hi.2.2; omega
    | dispatched => exact hwindow hi
    | waiting => exact hwindow hi
    | expired =>
      refine ⟨?_, ?_⟩
      · rw [(hkeep _).1]; exact hi.1
      · rw [(hkeep _).2]; exact hi.2
    | judging =>
      rcases hi with hw | ⟨he, hp, hhead⟩
      · exact .inl (hwindow hw)
      · refine .inr ⟨?_, ?_, ?_⟩
        · rw [(hkeep _).1]; exact he
        · rw [(hkeep _).2]; exact hp
        · simp [List.head?_append, hhead]
    | resetting =>
      have hi : q = 0 := hi
      omega
    | ended => trivial

private theorem InWindow.offers_eq_nil (hi : InWindow k offers q) (hnil : offers = []) :
    k.ponged = false := by
  obtain ⟨-, hi⟩ := hi
  cases hp : k.ping with
  | unqueued => simp [hp] at hi
  | queued | failed =>
    simp only [hp] at hi
    exact hi.1
  | handed =>
    simp only [hp] at hi
    by_contra hne
    rw [Bool.not_eq_false] at hne
    rw [if_pos hne, hnil] at hi
    cases hi.1

private theorem InWindow.no_ping (hi : InWindow k offers q) (hne : offers ≠ []) : q = 0 := by
  obtain ⟨-, hi⟩ := hi
  cases hp : k.ping with
  | unqueued => simp [hp] at hi
  | queued =>
    simp only [hp] at hi
    exact absurd hi.2.1 hne
  | failed | handed =>
    simp only [hp] at hi
    exact hi.2

private theorem Tracked.hearbeat {s : Session}
    (hi : Tracked k s.pongReceived.offers (pings s.ioContext) s.hearbeatThread)
    (hen : s.hearbeatThread = some .judging → s.pongReceived.offers ≠ []) :
    Tracked (loopCycle k s) s.afterHearbeat.pongReceived.offers (pings s.afterHearbeat.ioContext)
      s.afterHearbeat.hearbeatThread := by
  unfold Session.afterHearbeat loopCycle
  cases ht : s.hearbeatThread with
  | none =>
    rw [ht] at hi
    simpa only [ht] using hi
  | some point =>
    rw [ht] at hi
    cases point with
    | idle =>
      obtain ⟨rfl, hoffers, hq⟩ := hi
      refine ⟨rfl, rfl, hoffers, ?_⟩
      unfold pings at hq ⊢
      rw [List.countP_append, hq]
      rfl
    | dispatched =>
      dsimp only
      split
      · exact hi
      · exact hi
    | waiting =>
      dsimp only
      by_cases hsat : s.pongReceived.satisfied
      · rw [if_pos hsat, if_pos hsat]
        exact .inl hi
      · rw [if_neg hsat, if_neg hsat]
        exact ⟨rfl, hi.offers_eq_nil (Promise.satisfied_eq_false.mp (by simpa using hsat))⟩
    | expired =>
      dsimp only
      by_cases hsat : s.pongReceived.satisfied
      · rw [if_pos hsat]
        exact hi
      · rw [if_neg hsat]
        have hnil := Promise.satisfied_eq_false.mp (by simpa using hsat)
        exact .inr ⟨hi.1, hi.2, by simp [hnil]⟩
    | judging =>
      dsimp only
      -- A promise that was not set by the expired wait was set in the window.
      have hquiet : s.pongReceived.result ≠ some (.ok false) → pings s.ioContext = 0 := by
        intro hr
        rcases hi with hw | ⟨-, -, hhead⟩
        · exact hw.no_ping (hen ht)
        · exact absurd hhead hr
      split
      · rw [ht]
        exact hi
      · next hr => exact hquiet (by simp [hr])
      · dsimp only
        split
        · exact hi
        · trivial
      · next e hr =>
        split
        · dsimp only
          split
          · exact hi
          · exact hquiet (by simp [hr])
        · rw [ht]
          exact hi
    | resetting => exact ⟨rfl, rfl, hi⟩
    | ended =>
      rw [ht]
      trivial

/-- A PONG is received as one. -/
theorem received_of_isPong {t : TransportId} {m : Message} {ec : Option Bytes}
    (h : isPong (.message t m ec) = true) : m.received = .pong := by
  simp only [isPong] at h
  split at h
  · next hr => exact hr
  · cases h

private theorem sent_of_ping {ec : Option Bytes} {m : Message} {rest : List Dispatched}
    (hs : step p (.runDispatched ec) = some (o, p'))
    (hq : p.state.session.ioContext = .ping m :: rest)
    (hsent : sent ⟨p, .runDispatched ec, o, p'⟩ = true) :
    { p.state.session with ioContext := rest }.pingError (p.state.net ec) m = none := by
  have hout := (step_facts hs).output
  simp only [outputAfter, hq] at hout
  obtain ⟨x, hx, hnone⟩ := List.any_eq_true.mp hsent
  dsimp only at hx
  rw [hout] at hx
  obtain ⟨t, hroute, hdump, rfl⟩ := Session.mem_sendOutput.mp hx
  unfold Session.pingError Session.sendOutcome
  rw [hroute]
  dsimp only
  rw [if_pos hdump]
  cases hec : (p.state.net ec).ec with
  | none => rfl
  | some text => simp [hec] at hnone

/-- The promise, the queue and the loop are where the current cycle has them. -/
private def OnTrack (h : ClientHistory) (p : Process Client Fault) : Prop :=
  Tracked (cycle h) p.state.session.pongReceived.offers (pings p.state.session.ioContext)
    p.state.session.hearbeatThread

private theorem onTrack_message {t : TransportId} {m : Message} {ec : Option Bytes}
    (hi : OnTrack h p) (hc : NoEarlyPong h p (.message t m ec))
    (hs : step p (.message t m ec) = some (o, p')) :
    OnTrack (⟨p, .message t m ec, o, p'⟩ :: h) p' := by
  unfold OnTrack at hi
  simp only [OnTrack, cycle, nextCycle]
  rw [(step_facts hs).session]
  simp only [sessionAfter]
  rw [(p.state.session.after_frame m.received).1]
  by_cases hp : isPong (.message t m ec) = true
  · have hr := received_of_isPong hp
    simp only [hp, true_and, hr]
    exact hi.pong (hc hp)
  · have hr : m.received ≠ .pong := fun hr => hp (by simp only [isPong, hr])
    rw [if_neg (fun hand => hp hand.1)]
    obtain ⟨hpong, hthread | ⟨hnone, hthread⟩⟩ :=
      Session.after_of_not_pong (s := p.state.session) hr
    · rw [hpong, hthread]
      exact hi
    · rw [hpong, hthread]
      rw [hnone] at hi
      exact hi

private theorem onTrack_runDispatched {ec : Option Bytes} (hi : OnTrack h p)
    (hs : step p (.runDispatched ec) = some (o, p')) :
    OnTrack (⟨p, .runDispatched ec, o, p'⟩ :: h) p' := by
  have hf := step_facts hs
  unfold OnTrack at hi ⊢
  simp only [cycle]
  rw [hf.session]
  cases hq : p.state.session.ioContext with
  | nil => exact absurd hq hf.enabled
  | cons d rest =>
    rw [hq] at hi
    cases d with
    | hello m =>
      have hsame : pings (.hello m :: rest) = pings rest := by simp [pings]
      rw [hsame] at hi
      simpa [sessionAfter, hq, nextCycle, lastPing] using hi
    | pingFailed e =>
      have hsame : pings (.pingFailed e :: rest) = pings rest := by simp [pings]
      rw [hsame] at hi
      simpa [sessionAfter, hq, nextCycle, lastPing] using hi
    | ping m =>
      have hone : pings (.ping m :: rest) = pings rest + 1 := by simp [pings]
      have hsession : p.state.sessionAfter (.runDispatched ec) =
          { p.state.session with ioContext := rest }.afterPing (p.state.net ec) m := by
        simp only [sessionAfter, hq]
      obtain ⟨-, -, -, -, -, hthread, -⟩ :=
        { p.state.session with ioContext := rest }.afterPing_frame (p.state.net ec) m
      have hio : pings ({ p.state.session with ioContext := rest }.afterPing
          (p.state.net ec) m).ioContext = pings rest := by
        rcases Session.afterPing_ioContext (p.state.net ec) m
          { p.state.session with ioContext := rest } with hsame | ⟨e, -, hfront⟩
        · rw [hsame]
        · rw [hfront]
          simp [pings]
      have hnext : nextCycle (cycle h) ⟨p, .runDispatched ec, o, p'⟩ =
          if (cycle h).ping = .queued ∧ pings rest = 0 then
            { cycle h with
              ping := if sent ⟨p, .runDispatched ec, o, p'⟩ then .handed else .failed }
          else cycle h := by
        simp [nextCycle, hq, lastPing]
      rw [hnext, hsession, Session.pongReceived_afterPing, hio, hthread]
      -- A PING that fails to be sent offers false; one that is sent offers nothing.
      refine hi.ping hone fun hsent => ?_
      rw [sent_of_ping hs hq hsent]
      rfl

private theorem onTrack_step (hi : OnTrack h p) (hc : NoEarlyPong h p a)
    (hs : step p a = some (o, p')) : OnTrack (⟨p, a, o, p'⟩ :: h) p' := by
  have hf := step_facts hs
  cases a with
  | message t m ec => exact onTrack_message hi hc hs
  | runDispatched ec => exact onTrack_runDispatched hi hs
  | hearbeat =>
    unfold OnTrack
    rw [hf.session]
    apply Tracked.hearbeat hi
    intro (ht : p.state.session.hearbeatThread = some .judging)
    have hen := hf.enabled
    simp only [Enabled, ht] at hen
    exact hen
  | hearbeatWoken =>
    unfold OnTrack
    rw [hf.session]
    trivial
  | join realm =>
    have hsame : pings (p.state.session.ioContext ++ [.hello ⟨[.integer 1, .string realm]⟩]) =
        pings p.state.session.ioContext := by
      simp [pings]
    unfold OnTrack
    rw [hf.session]
    simp only [sessionAfter, hsame]
    exact hi
  | attach t | detach t =>
    unfold OnTrack
    rw [hf.session]
    simp only [sessionAfter]
    split
    · exact hi
    · exact hi
  | _ =>
    unfold OnTrack
    rw [hf.session]
    exact hi

private theorem judges_step (hi : OnTrack h p) (hs : step p a = some (o, p'))
    (hj : p.state.judges a = true) (hping : (cycle h).ping = .handed) :
    p'.state.session.hearbeatThread = some .resetting ↔ (cycle h).ponged = true := by
  have hf := step_facts hs
  unfold OnTrack at hi
  cases a with
  | hearbeat =>
    have ht : p.state.session.hearbeatThread = some .judging := by
      simpa [judges] using hj
    have hne : p.state.session.pongReceived.offers ≠ [] := by
      have hen := hf.enabled
      simp only [Enabled, ht] at hen
      exact hen
    rw [hf.session]
    simp only [sessionAfter, Session.afterHearbeat, ht, Promise.result]
    rw [ht] at hi
    rcases hi with ⟨-, hw⟩ | ⟨-, hponged, hhead⟩
    · simp only [hping] at hw
      by_cases hponged : (cycle h).ponged
      · rw [if_pos hponged] at hw
        rw [hw.1]
        simp [hponged]
      · rw [if_neg hponged] at hw
        exact absurd hw.1 hne
    · rw [hhead, hponged]
      dsimp only
      split <;> simp
  | _ => cases hj

/-- In every run without an early PONG, a PING that was handed over is judged by the PONGs that
came in its window, and by no others. -/
theorem judges_soundly (hr : ClientRun h p) (hm : Meets NoEarlyPong h) : JudgesSoundly h := by
  have hinv : OnTrack h p ∧ JudgesSoundly h := by
    apply hr.invariant_of_meets NoEarlyPong fun h p => OnTrack h p ∧ JudgesSoundly h
    · exact ⟨⟨rfl, rfl, rfl⟩, trivial⟩
    · intro h p a o p' hi hc hs
      exact ⟨onTrack_step hi.1 hc hs, judges_step hi.1 hs, hi.2⟩
    · exact hm
  exact hinv.2

/-- The steps that lead to an established session on transport 0. -/
def joinSteps : List Action :=
  [.attach 0, .transport 0 .onClientOpen, .join (utf8 "realm"), .runDispatched none,
    .message 0 ⟨[.integer 2, .integer 7]⟩ none]

/-- A PONG frame. -/
def pong : Message := ⟨[.integer 5, .object []]⟩

/-- A cycle whose PING is answered, and judged alive. -/
theorem judges_soundly_pong : ∃ h p, ClientRun h p ∧ JudgesSoundly h ∧
    p.state.session.hearbeatThread = some .resetting := by
  obtain ⟨h, p, hr, hc⟩ := exists_run_of_replay step init
    (joinSteps ++ [.hearbeat, .runDispatched none, .hearbeat, .message 0 pong none, .hearbeat,
      .hearbeat])
    (fun h p => decide (Meets NoEarlyPong h) &&
      decide (p.state.session.hearbeatThread = some .resetting)) (by decide)
  simp only [Bool.and_eq_true, decide_eq_true_eq] at hc
  exact ⟨h, p, hr, judges_soundly hr hc.1, hc.2⟩

/-- A PONG in the idle wait keeps a peer alive that never answers the PING. -/
theorem not_judges_soundly : ¬ ∀ h p, ClientRun h p → JudgesSoundly h := by
  intro hall
  obtain ⟨h, p, hr, hc⟩ := exists_run_of_replay step init
    (joinSteps ++ [.message 0 pong none, .hearbeat, .runDispatched none, .hearbeat, .hearbeat,
      .hearbeat])
    (fun h _ => !decide (JudgesSoundly h)) (by decide)
  simp [hall h p hr] at hc

end Client
end Barbarossa
