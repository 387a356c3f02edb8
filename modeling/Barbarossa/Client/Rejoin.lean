import Barbarossa.Client.Heartbeat
import Barbarossa.Session.Rejected

/-!
# Joining again

The lambda of a further `Join` looks at the session id and reports a joined session through the
promise of the first `Join`. That promise is satisfied and its future is gone, so the report
reaches nobody: the lambda throws, the caller is told something else, and `state_`, which the call
changed before it dispatched the lambda, lets the next WELCOME in.
-/

namespace Barbarossa
open Barbarossa.Base

/-- What a further `Join` is meant to throw. -/
def alreadyJoined : Exception := .logicError ErrorMessages.sessionAlreadyJoined

/-- What a WELCOME outside of a handshake is answered with. -/
def welcomeRefused : Exception :=
  .protocolError (utf8 "client received WELCOME message but session already established")

namespace Client

variable {h : ClientHistory} {p p' : Process Client Fault} {a : Action}
  {o : Outcome Exception Fault PUnit × List Effect}

/-- The io thread runs a lambda, or the rest of one. -/
def isRunDispatched : Action → Bool
  | .runDispatched _ => true
  | _ => false

/-- The number of lambdas that a run has run to their end. -/
def lambdasRun (h : ClientHistory) : Nat :=
  h.countP fun e => isRunDispatched e.action && e.after.state.failure.isNone

/-- The caller of the `Join` that leads from `p` to `p₁` is told that the session is joined. -/
def TellsCaller (p p₁ : Process Client Fault) : Prop :=
  ∀ h p₂, Run step p₁ h p₂ → ∀ r,
    p₂.state.joins[p.state.joins.length]? = some (.finished r) → r = .error alreadyJoined

/-- The lambda of the `Join` that leads from `p` to `p₁` is run behind the ones that wait in `p`;
it throws nothing and changes nothing. -/
def LambdaIsQuiet (p p₁ : Process Client Fault) : Prop :=
  ∀ h p₂ ec o p₃, Run step p₁ h p₂ → lambdasRun h = p.state.session.ioContext.length →
    step p₂ (.runDispatched ec) = some (o, p₃) →
      o.1 = .value ⟨⟩ ∧ Session.SameControl p₂.state.session p₃.state.session

/-- Every later WELCOME is refused. -/
def RefusesWelcome (p₁ : Process Client Fault) : Prop :=
  ∀ h p₂ t m ec sessionId o p₃, Run step p₁ h p₂ → m.received = .welcome sessionId →
    step p₂ (.message t m ec) = some (o, p₃) → o.1 = .thrown welcomeRefused

/-- A further `Join` that leads from `p` to `p₁` is refused cleanly. -/
structure RejoinRefused (p p₁ : Process Client Fault) : Prop where
  told : TellsCaller p p₁
  quiet : LambdaIsQuiet p p₁
  unchanged : Session.SameControl p.state.session p₁.state.session
  welcome : RefusesWelcome p₁

/-! ### A joined session -/

/-- A session with an id has an outcome of `Join` and a heartbeat thread, and a further `Join` is
never the first to offer an outcome. -/
structure Settled (s : Session) : Prop where
  joined : s.sessionId ≠ 0 → s.joined.offers ≠ [] ∧ s.hearbeatThread ≠ none
  first : s.joined.result ≠ some (.error alreadyJoined)

/-- While there is a heartbeat thread, no message touches it or the id. -/
theorem after_of_hearbeat {s : Session} {point : HearbeatPoint}
    (ht : s.hearbeatThread = some point) (r : Received) :
    (s.after r).hearbeatThread = some point ∧ (s.after r).sessionId = s.sessionId := by
  cases r with
  | welcome sessionId =>
    by_cases hs : s.state = .establishing <;> simp [Session.after, Session.welcomed, hs, ht]
  | abort reason => cases reason <;> exact ⟨ht, rfl⟩
  | _ => exact ⟨ht, rfl⟩

/-- While there is a heartbeat thread, there will be one, and the id stays. -/
theorem sessionAfter_of_hearbeat (c : Client) (a : Action) (ht : c.session.hearbeatThread ≠ none) :
    (c.sessionAfter a).hearbeatThread ≠ none ∧
      (c.sessionAfter a).sessionId = c.session.sessionId := by
  cases a with
  | message t m ec =>
    obtain ⟨point, hpoint⟩ := Option.ne_none_iff_exists'.mp ht
    obtain ⟨hthread, hid⟩ := after_of_hearbeat hpoint m.received
    simp [sessionAfter, hthread, hid]
  | runDispatched ec =>
    simp only [sessionAfter]
    split <;> simp [ht]
  | attach t | detach t =>
    simp only [sessionAfter]
    split <;> simp [ht]
  | hearbeat => simp [sessionAfter, ht]
  | _ => simp [sessionAfter, ht]

/-- A session gets its id from a WELCOME, whose id is offered to `joined_` and which starts the
heartbeat. -/
theorem sessionAfter_of_identified {c : Client} {a : Action} (hid : c.session.sessionId = 0)
    (hid' : (c.sessionAfter a).sessionId ≠ 0) :
    (c.sessionAfter a).joined.offers ≠ [] ∧ (c.sessionAfter a).hearbeatThread ≠ none := by
  cases a with
  | message t m ec =>
    cases hr : m.received with
    | welcome sessionId =>
      simp only [sessionAfter, hr, Session.after] at hid' ⊢
      split at hid'
      · next hs =>
        simp only [hs, ite_true]
        unfold Session.welcomed at hid' ⊢
        cases ht : c.session.hearbeatThread <;> cases sessionId <;> simp_all
      · exact absurd hid hid'
    | abort reason =>
      cases reason <;> exact absurd hid (by simpa [sessionAfter, hr, Session.after] using hid')
    | _ => exact absurd hid (by simpa [sessionAfter, hr, Session.after] using hid')
  | runDispatched ec =>
    simp only [sessionAfter] at hid'
    split at hid' <;> simp [hid] at hid'
  | attach t | detach t =>
    simp only [sessionAfter] at hid'
    split at hid' <;> exact absurd hid hid'
  | hearbeat => simp [sessionAfter, hid] at hid'
  | _ => exact absurd hid hid'

/-- Without an id nothing reports a joined session. -/
theorem alreadyJoined_not_mem_joinOffers {c : Client} (hid : c.session.sessionId = 0) (a : Action) :
    .error alreadyJoined ∉ c.joinOffers a := by
  intro hx
  cases a with
  | message t m ec =>
    simp only [joinOffers, Option.mem_toList] at hx
    cases hr : m.received with
    | welcome sessionId =>
      cases sessionId <;> simp [hr, Session.joinOffer] at hx
    | abort reason => cases reason <;> simp [hr, Session.joinOffer, alreadyJoined] at hx
    | _ => simp [hr, Session.joinOffer] at hx
  | runDispatched ec =>
    simp only [joinOffers, hid, ne_eq, not_true_eq_false, ite_false] at hx
    split at hx
    · split at hx
      · simp [Exception.copyException, alreadyJoined] at hx
      · cases hx
    · cases hx
  | _ => cases hx

/-- The session of a reachable client is settled. -/
theorem settled_of_run (hr : ClientRun h p) : Settled p.state.session := by
  refine hr.invariant (fun _ p => Settled p.state.session) ?_ ?_
  · exact ⟨fun h => absurd rfl h, by simp [init, Promise.result]⟩
  · intro h p a o p' ih hs
    rw [(step_facts hs).session]
    have hoffers := offers_sessionAfter p.state a
    by_cases hid : p.state.session.sessionId = 0
    · constructor
      · exact sessionAfter_of_identified hid
      · rw [Promise.result, hoffers, List.head?_append]
        intro hfirst
        rcases Option.or_eq_some_iff.mp hfirst with hold | ⟨-, hnew⟩
        · exact ih.first hold
        · exact alreadyJoined_not_mem_joinOffers hid a (List.mem_of_head? hnew)
    · obtain ⟨hne, ht⟩ := ih.joined hid
      constructor
      · intro _
        rw [hoffers]
        exact ⟨by simp [hne], (sessionAfter_of_hearbeat _ a ht).1⟩
      · rw [Promise.result, hoffers, List.head?_append_of_ne_nil _ hne]
        exact ih.first

/-! ### What follows the call -/

private theorem exists_runFront {d : Dispatched} {rest : List Dispatched} (hf : p.fault = none)
    (hq : p.state.session.ioContext = d :: rest) (hfront : RestsInFront p.state.session)
    (hne : p.state.session.joined.offers ≠ []) :
    ∃ h p', Run step p h p' ∧ p'.fault = none ∧ p'.state.session.ioContext = rest ∧
      lambdasRun h = 1 ∧ p'.state.session.sessionId = p.state.session.sessionId ∧
      p'.state.session.joined.offers ≠ [] := by
  have hnot : ∀ e, .pingFailed e ∉ rest := by
    intro e
    simpa [hq] using hfront e
  have hnone : ∀ q : Process Client Fault, q.state.session.ioContext = rest →
      q.state.failure = none := by
    intro q hq'
    unfold failure
    split
    · next e _ hq'' => exact absurd (hq' ▸ hq'' ▸ List.mem_cons_self) (hnot e)
    · rfl
  obtain ⟨o, p₁, hs, hf₁⟩ := exists_step_runDispatched hf hq none
  have hsession := (step_facts hs).session
  have hid₁ : p₁.state.session.sessionId = p.state.session.sessionId := by
    rw [hsession]
    simp only [sessionAfter, hq]
    cases d <;> simp
  have hne₁ : p₁.state.session.joined.offers ≠ [] := by
    rw [hsession, offers_sessionAfter]
    simp [hne]
  have hdone : p₁.state.session.ioContext = rest → ∃ h p', Run step p h p' ∧ p'.fault = none ∧
      p'.state.session.ioContext = rest ∧ lambdasRun h = 1 ∧
      p'.state.session.sessionId = p.state.session.sessionId ∧
      p'.state.session.joined.offers ≠ [] := by
    intro hq₁
    refine ⟨_, p₁, .cons .nil hs, hf₁, hq₁, ?_, hid₁, hne₁⟩
    simp [lambdasRun, isRunDispatched, hnone p₁ hq₁]
  simp only [sessionAfter, hq] at hsession
  cases d with
  | hello m => exact hdone (by rw [hsession]; simp)
  | pingFailed e => exact hdone (by rw [hsession])
  | ping m =>
    rcases Session.afterPing_ioContext (p.state.net none) m
      { p.state.session with ioContext := rest } with hsame | ⟨e, -, hrest⟩
    · exact hdone (by rw [hsession, hsame])
    · -- The PING failed, and the rest of its lambda is run, too.
      have hq₁ : p₁.state.session.ioContext = .pingFailed e :: rest := by rw [hsession, hrest]
      obtain ⟨o₂, p₂, hs₂, hf₂⟩ := exists_step_runDispatched hf₁ hq₁ none
      have hsession₂ := (step_facts hs₂).session
      simp only [sessionAfter, hq₁] at hsession₂
      have hq₂ : p₂.state.session.ioContext = rest := by rw [hsession₂]
      have hsome : p₁.state.failure = some (.error e.copyNetworkError) := by
        simp only [failure, hq₁]
      refine ⟨_, p₂, .cons (.cons .nil hs) hs₂, hf₂, hq₂, ?_, ?_, ?_⟩
      · simp [lambdasRun, isRunDispatched, hnone p₂ hq₂, hsome]
      · rw [hsession₂]
        exact hid₁
      · rw [hsession₂]
        exact hne₁

private theorem exists_drain {d : Dispatched} (front : List Dispatched) (hf : p.fault = none)
    (hq : p.state.session.ioContext = front ++ [d]) (hfront : RestsInFront p.state.session)
    (hne : p.state.session.joined.offers ≠ []) :
    ∃ h p', Run step p h p' ∧ p'.fault = none ∧ p'.state.session.ioContext = [d] ∧
      lambdasRun h = front.length ∧
      p'.state.session.sessionId = p.state.session.sessionId ∧
      p'.state.session.joined.offers ≠ [] := by
  induction front generalizing p with
  | nil => exact ⟨[], p, .nil, hf, hq, rfl, rfl, hne⟩
  | cons first front ih =>
    obtain ⟨h₁, p₁, hr₁, hf₁, hq₁, hcount₁, hid₁, hne₁⟩ := exists_runFront hf hq hfront hne
    have hfront₁ : RestsInFront p₁.state.session := by
      intro e hmem
      rw [hq₁] at hmem
      have hrest := hfront e
      rw [hq, List.cons_append, List.tail_cons] at hrest
      exact hrest (List.mem_of_mem_tail hmem)
    obtain ⟨h, p₂, hr, hf₂, hq₂, hcount, hid₂, hne₂⟩ := ih hf₁ hq₁ hfront₁ hne₁
    refine ⟨_, p₂, hr₁.trans hr, hf₂, hq₂, ?_, hid₂.trans hid₁, hne₂⟩
    unfold lambdasRun at hcount hcount₁ ⊢
    rw [List.countP_append, hcount, hcount₁, List.length_cons]

/-- The caller of a further `Join` gets the error of a future that was taken before, or the outcome
of an earlier `Join`. -/
theorem not_tellsCaller (hp : Settled p.state.session) (hid : p.state.session.sessionId ≠ 0)
    {realm : Bytes} (hs : step p (.join realm) = some (o, p')) (hf : p'.fault = none) :
    ¬ TellsCaller p p' := by
  intro htold
  have hsession := (step_facts hs).session
  have hjoins := (step_facts hs).joins
  have hj : p'.state.joins[p.state.joins.length]? = some .dispatched := by
    simp [hjoins, joinsAfter]
  have hlength : p.state.joins.length < p'.state.joins.length := by
    simp [hjoins, joinsAfter]
  obtain ⟨o₁, p₁, hs₁, hf₁⟩ := exists_step_joinFuture hf hj
  have hjoins₁ := (step_facts hs₁).joins
  have hsession₁ := (step_facts hs₁).session
  by_cases hret : p'.state.session.joined.retrieved
  · -- The future was taken before.
    have hj₁ : p₁.state.joins[p.state.joins.length]? =
        some (.finished (.error (.futureError .futureAlreadyRetrieved))) := by
      simp [hjoins₁, joinsAfter, hret, hlength]
    have htell := htold _ _ (.cons .nil hs₁) _ hj₁
    cases htell
  · -- The future holds the outcome of an earlier call.
    have hj₁ : p₁.state.joins[p.state.joins.length]? = some .waiting := by
      simp [hjoins₁, joinsAfter, hret, hlength]
    have hoffers : p₁.state.session.joined.offers = p.state.session.joined.offers := by
      rw [hsession₁, offers_sessionAfter, hsession, offers_sessionAfter]
      simp [joinOffers]
    obtain ⟨o₂, p₂, hs₂, -⟩ :=
      exists_step_joinReady hf₁ hj₁ (by rw [hoffers]; exact (hp.joined hid).1)
    have hjoins₂ := (step_facts hs₂).joins
    cases hr : p₁.state.session.joined.result with
    | none =>
      rw [Promise.result_eq_none, hoffers] at hr
      exact (hp.joined hid).1 hr
    | some r =>
      have hlength₁ : p.state.joins.length < p₁.state.joins.length := by
        rwa [hjoins₁, joinsAfter, List.length_set]
      have hj₂ : p₂.state.joins[p.state.joins.length]? = some (.finished r) := by
        simp [hjoins₂, joinsAfter, hr, hlength₁]
      have htell := htold _ _ (.cons (.cons .nil hs₁) hs₂) _ hj₂
      rw [Promise.result, hoffers, ← Promise.result] at hr
      exact hp.first (by rw [hr, htell])

/-- The lambda of a further `Join` throws. -/
theorem not_lambdaIsQuiet (hp : Settled p.state.session) (hfront : RestsInFront p.state.session)
    (hid : p.state.session.sessionId ≠ 0) {realm : Bytes}
    (hs : step p (.join realm) = some (o, p')) (hf : p'.fault = none) : ¬ LambdaIsQuiet p p' := by
  intro hquiet
  have hsession := (step_facts hs).session
  have hq : p'.state.session.ioContext =
      p.state.session.ioContext ++ [.hello ⟨[.integer 1, .string realm]⟩] := by
    rw [hsession]
    rfl
  have hid' : p'.state.session.sessionId ≠ 0 := by
    rw [hsession]
    exact hid
  have hne : p'.state.session.joined.offers ≠ [] := by
    rw [hsession]
    exact (hp.joined hid).1
  have hfront' : RestsInFront p'.state.session := by
    rw [hsession]
    exact restsInFront_sessionAfter hfront _
  obtain ⟨h, p₂, hr, hf₂, hq₂, hcount, hid₂, hne₂⟩ := exists_drain _ hf hq hfront' hne
  obtain ⟨o₃, p₃, hs₃, -⟩ := exists_step_runDispatched hf₂ hq₂ none
  have houtcome := (hquiet h p₂ none o₃ p₃ hr hcount hs₃).1
  rw [step_hello hs₃ hq₂, Session.helloOutcome, if_pos (by rw [hid₂]; exact hid')] at houtcome
  rw [if_pos (Promise.satisfied_eq_true.mpr hne₂)] at houtcome
  cases houtcome

/-- The next WELCOME gets past the check of `state_` and ends the process. -/
theorem welcome_after_rejoin (hp : Settled p.state.session) (hid : p.state.session.sessionId ≠ 0)
    {realm : Bytes} (hs : step p (.join realm) = some (o, p')) {t : TransportId} {m : Message}
    {ec : Option Bytes} {sessionId : Except Exception UInt32}
    {o₂ : Outcome Exception Fault PUnit × List Effect} {p₂ : Process Client Fault}
    (hm : m.received = .welcome sessionId) (hs₂ : step p' (.message t m ec) = some (o₂, p₂)) :
    o₂.1 = .crashed .threadReassigned := by
  have hsession := (step_facts hs).session
  have hstate : p'.state.session.state = .establishing := by
    rw [hsession]
    rfl
  have ht : p'.state.session.hearbeatThread ≠ none := by
    rw [hsession]
    exact (hp.joined hid).2
  obtain ⟨point, hpoint⟩ := Option.ne_none_iff_exists'.mp ht
  rw [step_message hs₂, hm]
  simp [Session.onMessageOutcome, hstate, hpoint]

/-- A further `Join` of a joined session, for some realm, is refused cleanly. -/
def RejoinsCleanly (p : Process Client Fault) (realm : Bytes) : Prop :=
  ∀ o p₁, step p (.join realm) = some (o, p₁) → RejoinRefused p p₁

/-- No joined session refuses a further `Join` cleanly: the caller is told something else, the
lambda throws, and the next WELCOME ends the process. -/
theorem rejoin_never_refused (hr : ClientRun h p) (hf : p.fault = none)
    (hid : p.state.session.sessionId ≠ 0) (realm : Bytes) :
    ¬ RejoinsCleanly p realm ∧
    ∀ o p₁, step p (.join realm) = some (o, p₁) → ¬ TellsCaller p p₁ ∧ ¬ LambdaIsQuiet p p₁ ∧
      ∀ t m ec sessionId o₂ p₂, m.received = .welcome sessionId →
        step p₁ (.message t m ec) = some (o₂, p₂) → o₂.1 = .crashed .threadReassigned := by
  have hp := settled_of_run hr
  obtain ⟨o, p', hs, hf'⟩ := exists_step_join hf realm
  constructor
  · intro hclean
    exact not_tellsCaller hp hid hs hf' (hclean o p' hs).told
  · intro o₁ p₁ hs₁
    rw [hs] at hs₁
    cases hs₁
    exact ⟨not_tellsCaller hp hid hs hf',
      not_lambdaIsQuiet hp (restsInFront_of_run hr) hid hs hf',
      fun t m ec sessionId o₂ p₂ hm hs₂ => welcome_after_rejoin hp hid hs hm hs₂⟩

/-- A session that joined with the id 7 does not refuse a further `Join`. -/
theorem rejoin_never_refused_joined : ∃ h p, ClientRun h p ∧ p.state.session.sessionId = 7 ∧
    ¬ RejoinsCleanly p (utf8 "realm") := by
  obtain ⟨h, p, hr, hc⟩ := exists_run_of_replay step init joinSteps
    (fun _ p => decide (p.fault = none) && decide (p.state.session.sessionId = 7)) (by decide)
  simp only [Bool.and_eq_true, decide_eq_true_eq] at hc
  have hid : p.state.session.sessionId ≠ 0 := by
    rw [hc.2]
    decide
  exact ⟨h, p, hr, hc.2, (rejoin_never_refused hr hc.1 hid _).1⟩

/-- The lambda of a second `Join` throws the error of a satisfied promise. -/
theorem not_rejoins_cleanly : ¬ ∀ h p, ClientRun h p → p.fault = none →
    p.state.session.sessionId ≠ 0 → ∀ realm, RejoinsCleanly p realm := by
  intro hall
  obtain ⟨h, p, hr, hc⟩ := exists_run_of_replay step init joinSteps
    (fun _ p => decide (p.fault = none) && decide (p.state.session.sessionId ≠ 0)) (by decide)
  simp only [Bool.and_eq_true, decide_eq_true_eq] at hc
  obtain ⟨o, p', hs, hf⟩ := exists_step_join hc.1 (utf8 "realm")
  exact not_lambdaIsQuiet (settled_of_run hr) (restsInFront_of_run hr) hc.2 hs hf
    (hall h p hr hc.1 hc.2 _ o p' hs).quiet

end Client
end Barbarossa
