import Barbarossa.Client.FailedJoin

/-!
# One join, one identity

With a single call of `Join`, `state_` goes forward only, so one WELCOME at most gets past
the check of `ProcessWelcomeMessage`. It starts the one heartbeat thread and sets the one
session id, and no other message offers an id to `joined_`.
-/

namespace Barbarossa
open Barbarossa.Base

namespace Session

/-- A message ends the process only as a WELCOME to a joining session that has a heartbeat
thread. -/
theorem onMessageOutcome_ne_crashed {s : Session} (net : Net) (r : Received) (f : Fault)
    (h : s.state = .establishing → s.hearbeatThread = none) :
    s.onMessageOutcome net r ≠ .crashed f := by
  have hsend : ∀ m, s.sendOutcome net m true ≠ .crashed f := by
    intro m hf
    rcases s.sendOutcome_cases net m true with hv | ⟨e, he, -⟩
    · rw [hv] at hf
      cases hf
    · rw [he] at hf
      cases hf
  unfold onMessageOutcome
  cases r with
  | empty =>
    dsimp only
    split <;> simp
  | refused e => simp
  | welcome sessionId =>
    by_cases hs : s.state = .establishing
    · simp only [hs, ite_true, h hs]
      cases sessionId with
      | error e => simp
      | ok id =>
        dsimp only
        split <;> simp
    · simp [hs]
  | abort reason =>
    cases reason with
    | error e => simp
    | ok reason =>
      dsimp only
      split <;> simp
  | pong =>
    dsimp only
    split <;> simp
  | call request =>
    cases request with
    | error e => simp
    | ok r =>
      dsimp only
      unfold callOutcome
      split
      · exact hsend _
      · split
        · simp
        · split
          · exact hsend _
          · simp
  | ignored => simp

end Session

namespace Client

/-- A WELCOME gets past the state check. -/
def welcomePasses (e : ClientEntry) : Bool :=
  isWelcome e.action && decide (e.before.state.session.state = .establishing)

/-- A heartbeat thread is started. -/
def startsHearbeat (e : ClientEntry) : Bool :=
  e.before.state.session.hearbeatThread.isNone && e.after.state.session.hearbeatThread.isSome

/-- `session_id_` changes. -/
def changesId (e : ClientEntry) : Bool :=
  decide (e.after.state.session.sessionId ≠ e.before.state.session.sessionId)

/-- `state_` stays or moves one step along `kClosed`, `kEstablishing`, `kEstablished`. -/
def Forward (s s' : SessionState) : Prop :=
  s' = s ∨ s = .closed ∧ s' = .establishing ∨ s = .establishing ∧ s' = .established

/-- A call of `Join` returns the id. -/
def JoinReturns (e : ClientEntry) (sessionId : UInt32) : Prop :=
  ∃ i, e.action = .joinReady i ∧ e.after.state.joins[i]? = some (.finished (.ok sessionId))

/-- `JoinReturns`, computed. -/
private def joinReturned (e : ClientEntry) (sessionId : UInt32) : Bool :=
  match e.action with
  | .joinReady i => decide (e.after.state.joins[i]? = some (.finished (.ok sessionId)))
  | _ => false

private theorem joinReturned_iff {e : ClientEntry} {sessionId : UInt32} :
    joinReturned e sessionId = true ↔ JoinReturns e sessionId := by
  unfold joinReturned JoinReturns
  cases e.action with
  | joinReady i => simp
  | _ => simp

instance (e : ClientEntry) (sessionId : UInt32) : Decidable (JoinReturns e sessionId) :=
  decidable_of_iff _ joinReturned_iff

/-- One WELCOME is accepted, one heartbeat thread started and one id set, at most; no message ends
the process; and an id that `Join` returned is the session's at the end of the run. -/
structure OneIdentity (h : ClientHistory) (p : Process Client Fault) : Prop where
  welcome : h.countP welcomePasses ≤ 1
  hearbeat : h.countP startsHearbeat ≤ 1
  sessionId : h.countP changesId ≤ 1
  unset : ∀ e ∈ h, changesId e = true → e.before.state.session.sessionId = 0
  forward : ∀ e ∈ h, Forward e.before.state.session.state e.after.state.session.state
  uncrashed : ∀ e ∈ h, ∀ t m ec f, e.action = .message t m ec → e.output.1 ≠ .crashed f
  returned : ∀ e ∈ h, ∀ sessionId, JoinReturns e sessionId →
    p.state.session.sessionId = sessionId

/-- The number of times the session was established. -/
private def establishments (s : Session) : Nat := if s.state = .established then 1 else 0

/-- What one step of a session with one identity does. -/
private structure Identifies (e : ClientEntry) : Prop where
  unset : changesId e = true → e.before.state.session.sessionId = 0
  forward : Forward e.before.state.session.state e.after.state.session.state
  uncrashed : ∀ t m ec f, e.action = .message t m ec → e.output.1 ≠ .crashed f

/-- The invariant of a run with one `Join`. -/
private structure Identity (h : ClientHistory) (p : Process Client Fault) : Prop where
  fresh : joinCount h = 0 → p.state.session.state = .closed
  unidentified : p.state.session.state ≠ .established →
    p.state.session.sessionId = 0 ∧ p.state.session.hearbeatThread = none
  welcome : h.countP welcomePasses = establishments p.state.session
  hearbeat : h.countP startsHearbeat ≤ establishments p.state.session
  sessionId : h.countP changesId ≤ establishments p.state.session
  steps : ∀ e ∈ h, Identifies e
  offered : ∀ sessionId, .ok sessionId ∈ p.state.session.joined.offers →
    p.state.session.state = .established ∧ p.state.session.sessionId = sessionId
  returned : ∀ e ∈ h, ∀ sessionId, JoinReturns e sessionId →
    .ok sessionId ∈ p.state.session.joined.offers

variable {h : ClientHistory} {p p' : Process Client Fault} {a : Action}
  {o : Outcome Exception Fault PUnit × List Effect}

/-- What a call of `Join` returned was offered to `joined_`. -/
theorem offered_of_returns (hs : step p a = some (o, p')) {sessionId : UInt32}
    (hret : JoinReturns ⟨p, a, o, p'⟩ sessionId) :
    .ok sessionId ∈ p'.state.session.joined.offers := by
  obtain ⟨i, ha, hi⟩ := hret
  dsimp only at ha hi
  subst ha
  have hf := step_facts hs
  have hen : p.state.joins[i]? = some .waiting ∧ p.state.session.joined.offers ≠ [] := hf.enabled
  rw [hf.session]
  rw [hf.joins] at hi
  simp only [joinsAfter] at hi
  cases hres : p.state.session.joined.result with
  | none => exact absurd (Promise.result_eq_none.mp hres) hen.2
  | some r =>
    have hlt : i < p.state.joins.length := (List.getElem?_eq_some_iff.mp hen.1).1
    rw [hres] at hi
    simp only [List.getElem?_set_self hlt, Option.some.injEq, JoinCall.finished.injEq] at hi
    subst hi
    exact List.mem_of_mem_head? hres

/-! ### One step -/

private theorem Identity.uncrashed (hi : Identity h p) (hs : step p a = some (o, p'))
    {t : TransportId} {m : Message} {ec : Option Bytes} (f : Fault) (ha : a = .message t m ec) :
    o.1 ≠ .crashed f := by
  subst ha
  rw [step_message hs]
  apply Session.onMessageOutcome_ne_crashed
  intro hes
  exact (hi.unidentified (by simp [hes])).2

private theorem Identity.returned_step (hi : Identity h p) (hs : step p a = some (o, p')) :
    ∀ e ∈ ⟨p, a, o, p'⟩ :: h, ∀ sessionId, JoinReturns e sessionId →
      .ok sessionId ∈ p'.state.session.joined.offers := by
  intro e he sessionId hret
  rcases List.mem_cons.mp he with rfl | he
  · exact offered_of_returns hs hret
  · rw [(step_facts hs).session, offers_sessionAfter]
    exact List.mem_append_left _ (hi.returned e he sessionId hret)

private theorem Identity.of_same (hi : Identity h p) (hs : step p a = some (o, p'))
    (hpasses : welcomePasses ⟨p, a, o, p'⟩ = false)
    (hfresh : joinCount (⟨p, a, o, p'⟩ :: h) = 0 → p'.state.session.state = .closed)
    (hforward : Forward p.state.session.state p'.state.session.state)
    (hestablished : p'.state.session.state = .established ↔
      p.state.session.state = .established)
    (hid : p'.state.session.sessionId = p.state.session.sessionId)
    (hthread : p.state.session.hearbeatThread = none → p'.state.session.hearbeatThread = none) :
    Identity (⟨p, a, o, p'⟩ :: h) p' := by
  have hstarts : startsHearbeat ⟨p, a, o, p'⟩ = false := by
    unfold startsHearbeat
    cases ht : p.state.session.hearbeatThread with
    | some point => rfl
    | none => simp [hthread ht]
  have hchanges : changesId ⟨p, a, o, p'⟩ = false := by
    simp [changesId, hid]
  have hn : establishments p'.state.session = establishments p.state.session := by
    unfold establishments
    simp only [hestablished]
  constructor
  · exact hfresh
  · rw [ne_eq, hestablished, hid]
    intro hne
    exact ⟨(hi.unidentified hne).1, hthread (hi.unidentified hne).2⟩
  · rw [List.countP_cons, hpasses, hn]
    simpa using hi.welcome
  · rw [List.countP_cons, hstarts, hn]
    simpa using hi.hearbeat
  · rw [List.countP_cons, hchanges, hn]
    simpa using hi.sessionId
  · rw [List.forall_mem_cons]
    refine ⟨⟨?_, hforward, fun t m ec f ha => hi.uncrashed hs f ha⟩, hi.steps⟩
    intro hc
    rw [hchanges] at hc
    cases hc
  · intro sessionId hv
    rw [(step_facts hs).session, offers_sessionAfter, List.mem_append] at hv
    rw [hestablished, hid]
    rcases hv with hv | hv
    · exact hi.offered sessionId hv
    · obtain ⟨t, m, ec, rfl, hr, hes, -⟩ := ok_mem_joinOffers hv
      simp [welcomePasses, isWelcome, hr, hes] at hpasses
  · exact hi.returned_step hs

private theorem Identity.of_quiet (hi : Identity h p) (hs : step p a = some (o, p'))
    (hjoin : isJoin a = false)
    (hw : isWelcome a = true → p.state.session.state ≠ .establishing) :
    Identity (⟨p, a, o, p'⟩ :: h) p' := by
  have hf := step_facts hs
  obtain ⟨hstate, hid, hthread⟩ : p'.state.session.state = p.state.session.state ∧
      p'.state.session.sessionId = p.state.session.sessionId ∧
      (p.state.session.hearbeatThread = none → p'.state.session.hearbeatThread = none) := by
    rw [hf.session]
    by_cases hwelcome : isWelcome a = true
    · rw [sessionAfter_of_refused hwelcome (hw hwelcome)]
      exact ⟨rfl, rfl, id⟩
    · obtain ⟨hstate, hnothing⟩ := sessionAfter_of_quiet hf.enabled hjoin (by simpa using hwelcome)
      exact ⟨hstate, hnothing.sessionId, hnothing.hearbeat⟩
  apply hi.of_same hs
  · unfold welcomePasses
    cases hwelcome : isWelcome a with
    | false => rfl
    | true => simp [hw hwelcome]
  · rw [joinCount_cons, hstate]
    simpa [hjoin] using hi.fresh
  · exact .inl hstate
  · rw [hstate]
  · exact hid
  · exact hthread

private theorem Identity.of_join {realm : Bytes} (hi : Identity h p)
    (hs : step p (.join realm) = some (o, p')) (hone : joinCount h = 0) :
    Identity (⟨p, .join realm, o, p'⟩ :: h) p' := by
  have hsession := (step_facts hs).session
  have hclosed := hi.fresh hone
  apply hi.of_same hs
  · rfl
  · intro hz
    simp [joinCount_cons, isJoin] at hz
  · rw [hsession]
    exact .inr (.inl ⟨hclosed, rfl⟩)
  · rw [hsession, hclosed]
    simp [sessionAfter]
  · rw [hsession]
    rfl
  · rw [hsession]
    exact id

private theorem Identity.of_welcome (hi : Identity h p) (hs : step p a = some (o, p'))
    (hw : isWelcome a = true) (hes : p.state.session.state = .establishing) :
    Identity (⟨p, a, o, p'⟩ :: h) p' := by
  have hf := step_facts hs
  have hestablished : p'.state.session.state = .established := by
    rw [hf.session]
    exact sessionAfter_of_welcome hw hes
  have hjoin : isJoin a = false := by
    cases a with
    | join realm => cases hw
    | _ => rfl
  have hn : establishments p.state.session = 0 := by
    rw [establishments, hes]
    rfl
  have hn' : establishments p'.state.session = 1 := by
    rw [establishments, hestablished]
    rfl
  obtain ⟨hid, hthread⟩ := hi.unidentified (by simp [hes])
  constructor
  · rw [joinCount_cons, hjoin]
    intro hz
    have hclosed := hi.fresh (by simpa using hz)
    rw [hes] at hclosed
    cases hclosed
  · exact fun hne => absurd hestablished hne
  · rw [List.countP_cons, hi.welcome, hn, hn']
    simp [welcomePasses, hw, hes]
  · rw [List.countP_cons, hn']
    have hstarts := hi.hearbeat
    rw [hn] at hstarts
    split <;> omega
  · rw [List.countP_cons, hn']
    have hchanges := hi.sessionId
    rw [hn] at hchanges
    split <;> omega
  · rw [List.forall_mem_cons]
    exact ⟨⟨fun _ => hid, .inr (.inr ⟨hes, hestablished⟩),
      fun t m ec f ha => hi.uncrashed hs f ha⟩, hi.steps⟩
  · intro sessionId hv
    refine ⟨hestablished, ?_⟩
    rw [hf.session, offers_sessionAfter, List.mem_append] at hv
    rcases hv with hv | hv
    · have hstate := (hi.offered sessionId hv).1
      rw [hes] at hstate
      cases hstate
    · obtain ⟨t, m, ec, -, -, -, -, hset⟩ := ok_mem_joinOffers hv
      rw [hf.session]
      exact hset
  · exact hi.returned_step hs

private theorem Identity.step (hi : Identity h p) (hone : isJoin a = true → joinCount h = 0)
    (hs : step p a = some (o, p')) : Identity (⟨p, a, o, p'⟩ :: h) p' := by
  by_cases hjoin : isJoin a = true
  · cases a with
    | join realm => exact hi.of_join hs (hone rfl)
    | _ => cases hjoin
  · by_cases hw : isWelcome a = true ∧ p.state.session.state = .establishing
    · exact hi.of_welcome hs hw.1 hw.2
    · exact hi.of_quiet hs (by simpa using hjoin) fun hwelcome hes => hw ⟨hwelcome, hes⟩

/-- In every run with at most one call of `Join`, the session takes one identity at most, and an id
that `Join` returned stays. -/
theorem one_identity (hr : ClientRun h p) (hone : joinCount h ≤ 1) : OneIdentity h p := by
  have hi : Identity h p := by
    apply hr.invariant_of_meets (fun h _ a => isJoin a = true → joinCount h = 0) Identity
    · constructor
      · exact fun _ => rfl
      · exact fun _ => ⟨rfl, rfl⟩
      · rfl
      · exact Nat.zero_le _
      · exact Nat.zero_le _
      · exact List.forall_mem_nil _
      · intro sessionId hv
        cases hv
      · exact List.forall_mem_nil _
    · intro h p a o p' hi hc hs
      exact hi.step hc hs
    · exact meets_first_join hone
  have hle : establishments p.state.session ≤ 1 := by
    unfold establishments
    split <;> omega
  have hwelcome := hi.welcome
  have hhearbeat := hi.hearbeat
  have hchanges := hi.sessionId
  constructor
  · omega
  · omega
  · omega
  · exact fun e he => (hi.steps e he).unset
  · exact fun e he => (hi.steps e he).forward
  · exact fun e he => (hi.steps e he).uncrashed
  · exact fun e he sessionId hret => (hi.offered sessionId (hi.returned e he sessionId hret)).2

/-- A join that returns its id, with a WELCOME before it and two after it, all refused. -/
theorem one_identity_join : ∃ h p, ClientRun h p ∧ OneIdentity h p ∧
    h.countP welcomePasses = 1 ∧ p.state.session.sessionId = 7 := by
  obtain ⟨h, p, hr, hc⟩ := exists_run_of_replay step init
    [.attach 0, .transport 0 .onClientOpen, .message 0 ⟨[.integer 2, .integer 5]⟩ none,
      .join (utf8 "realm"), .joinFuture 0, .runDispatched none,
      .message 0 ⟨[.integer 2, .integer 7]⟩ none, .joinReady 0,
      .message 0 ⟨[.integer 2, .integer 9]⟩ none, .hearbeat,
      .message 0 ⟨[.integer 2]⟩ none]
    (fun h p => decide (joinCount h ≤ 1) && decide (h.countP welcomePasses = 1) &&
      decide (p.state.session.sessionId = 7)) (by decide)
  simp only [Bool.and_eq_true, decide_eq_true_eq] at hc
  exact ⟨h, p, hr, one_identity hr hc.1.1, hc.1.2, hc.2⟩

end Client
end Barbarossa
