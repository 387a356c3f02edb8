import Barbarossa.Client.Outcomes

/-!
# The end of a session

Four events end a session: a call of `Leave`, an empty message, a PING that cannot be
sent, and a verdict of the heartbeat loop that no PONG came. Each of them satisfies
`leaved_` without a look at whether it is satisfied, so the first of them wins only as
long as it stays the only one. A failed PING always leads to a verdict as well, and it wakes
the loop before it satisfies `leaved_` itself.
-/

namespace Barbarossa
open Barbarossa.Base

namespace Session

/-- What the heartbeat loop is about to offer to `leaved_`. -/
def verdict (s : Session) : Option (Except Exception Bool) :=
  match s.hearbeatThread, s.pongReceived.result with
  | some .judging, some (.ok false) => some (.error .timeoutError)
  | some .judging, some (.error e) =>
    if e.isNetworkError then some (.error e.copyNetworkError) else none
  | _, _ => none

/-- The heartbeat loop offers its verdict to `leaved_`, and nothing else. -/
theorem leaved_afterHearbeat (s : Session) :
    s.afterHearbeat.leaved = s.leaved.offerAll s.verdict.toList := by
  unfold afterHearbeat verdict
  cases ht : s.hearbeatThread with
  | none => simp
  | some point =>
    cases point with
    | judging =>
      dsimp only
      split
      · next hr => simp [hr]
      · next hr => simp [hr]
      · next hr => simp [hr]
      · next e hr => split <;> simp [*]
    | _ => simp

/-- A verdict that finds `leaved_` satisfied ends the process. -/
theorem hearbeatOutcome_of_verdict {s : Session} (h : s.verdict.isSome = true) :
    s.hearbeatOutcome = .crashed (.uncaught alreadySatisfied) ↔ s.leaved.satisfied = true := by
  unfold verdict at h
  unfold hearbeatOutcome
  split at h
  · next ht hr =>
    simp [ht, hr]
  · next e ht hr =>
    split at h
    · next hn => simp [ht, hr, hn]
    · cases h
  · cases h

end Session

namespace Client

/-- What an action offers to `leaved_`. -/
def leaveOffer (c : Client) : Action → Option (Except Exception Bool)
  | .leave _ => some (.ok true)
  | .message _ m _ =>
    match m.received with
    | .empty => some (.error (.protocolError ErrorMessages.invalidMessageStructure))
    | _ => none
  | .runDispatched _ => c.failure
  | .hearbeat => c.session.verdict
  | _ => none

/-- The cause of termination that an action detects. A failed PING is one when it fails; its lambda
offers it later. -/
def cause (c : Client) : Action → Option (Except Exception Bool)
  | .runDispatched ec =>
    (c.pingError (.runDispatched ec)).map fun e => .error e.copyNetworkError
  | a => c.leaveOffer a

/-- The causes that were detected, oldest first. -/
def causes : ClientHistory → List (Except Exception Bool)
  | [] => []
  | e :: h => causes h ++ (e.before.state.cause e.action).toList

/-- The thread that detects or offers a cause is hit by the error of a satisfied promise; in the
heartbeat thread it ends the process. -/
def Refused (e : ClientEntry) : Prop :=
  e.output.1 = match e.action with
    | .hearbeat => .crashed (.uncaught alreadySatisfied)
    | _ => .thrown alreadySatisfied

/-- `leaved_` holds the first cause and was offered no other, or the lambda of a failed PING is on
its way to it; the first call of `Listen` reports the first cause, and no thread is hit by a cause
it detects or offers. -/
structure FirstCauseWins (h : ClientHistory) (p : Process Client Fault) : Prop where
  offers : p.state.session.leaved.offers ++ p.state.failure.toList = (causes h).take 1
  listen : ∀ r, p.state.listens[0]? = some (.finished r) →
    ∃ first, (causes h).head? = some first ∧ r = first.map fun _ => ⟨⟩
  detected : ∀ e ∈ h, (e.before.state.cause e.action).isSome = true ∨
    (e.before.state.leaveOffer e.action).isSome = true → ¬ Refused e

/-- An action detects a cause only if there was none before, and a PING fails only while
`pong_received_` is open. -/
def SingleCause (h : ClientHistory) (p : Process Client Fault) (a : Action) : Prop :=
  (p.state.cause a).isSome = true → causes h = [] ∧
    ((p.state.pingError a).isSome = true → p.state.session.pongReceived.satisfied = false)

instance (h : ClientHistory) (p : Process Client Fault) (a : Action) :
    Decidable (SingleCause h p a) :=
  inferInstanceAs (Decidable (_ → _ ∧ (_ → _)))

variable {h : ClientHistory} {p p' : Process Client Fault} {a : Action}
  {o : Outcome Exception Fault PUnit × List Effect}

/-- What a step does to `leaved_`: `Listen` takes the future, and others offer a result. -/
theorem leaved_sessionAfter (c : Client) (a : Action) :
    (c.sessionAfter a).leaved =
      match a with
      | .listen => { c.session.leaved with retrieved := true }
      | _ => c.session.leaved.offerAll (c.leaveOffer a).toList := by
  cases a with
  | leave worker => simp [sessionAfter, leaveOffer]
  | message t m ec =>
    simp only [sessionAfter, leaveOffer]
    cases m.received with
    | welcome sessionId =>
      simp only [Session.after, Session.welcomed]
      split
      · split <;> simp
      · simp
    | abort reason => cases reason <;> simp [Session.after]
    | _ => simp [Session.after]
  | runDispatched ec =>
    cases hq : c.session.ioContext with
    | nil => simp [sessionAfter, leaveOffer, failure, hq]
    | cons d rest => cases d <;> simp [sessionAfter, leaveOffer, failure, hq]
  | hearbeat => simp [sessionAfter, leaveOffer, Session.leaved_afterHearbeat]
  | attach t | detach t =>
    simp only [sessionAfter, leaveOffer]
    split <;> simp
  | _ => simp [sessionAfter, leaveOffer]

/-- A lambda that fails to send its PING is not yet at `leaved_`. -/
theorem leaveOffer_of_pingError {c : Client} (h : (c.pingError a).isSome = true) :
    c.leaveOffer a = none := by
  cases a with
  | runDispatched ec =>
    simp only [pingError] at h
    split at h
    · next hq => simp [leaveOffer, failure, hq]
    · cases h
  | _ => cases h

private theorem failure_of_rest {c : Client} (h : ∀ e, .pingFailed e ∉ c.session.ioContext) :
    c.failure = none := by
  unfold failure
  split
  · next e _ hq => exact absurd (hq ▸ List.mem_cons_self) (h e)
  · rfl

/-- The lambda of a failed PING is on its way to `leaved_` from its failure to its next step. -/
theorem failure_sessionAfter {c c' : Client} (hsession : c'.session = c.sessionAfter a)
    (hfront : RestsInFront c.session) : c'.failure =
      match a with
      | .runDispatched _ => if c.session.pongReceived.satisfied then none else c.cause a
      | _ => c.failure := by
  have hsame : c'.session.ioContext = c.session.ioContext → c'.failure = c.failure := by
    intro hq
    simp only [failure, hq]
  have happend : ∀ d, (∀ e, d ≠ .pingFailed e) →
      c'.session.ioContext = c.session.ioContext ++ [d] → c'.failure = c.failure := by
    intro d hd hq
    unfold failure
    cases hold : c.session.ioContext with
    | nil => cases d <;> simp_all
    | cons d' rest =>
      rw [hq, hold]
      cases d' <;> rfl
  have hrest : ∀ d rest, c.session.ioContext = d :: rest → c'.session.ioContext = rest →
      c'.failure = none := by
    intro d rest hq hq'
    apply failure_of_rest
    intro e
    simpa [hq', hq] using hfront e
  cases a with
  | runDispatched ec =>
    simp only [sessionAfter] at hsession
    cases hq : c.session.ioContext with
    | nil =>
      rw [hq] at hsession
      simp [failure, hsession, hq, cause, pingError]
    | cons d rest =>
      rw [hq] at hsession
      cases d with
      | hello m =>
        rw [hrest _ rest hq (by simp [hsession])]
        simp [cause, pingError, hq]
      | pingFailed e =>
        rw [hrest _ rest hq (by simp [hsession])]
        simp [cause, pingError, hq]
      | ping m =>
        have hqueue := Session.ioContext_afterPing (c.net ec) m { c.session with ioContext := rest }
        simp only [← hsession] at hqueue
        simp only [cause, pingError, hq]
        cases hp : c.session.pongReceived.satisfied with
        | true => exact hrest _ rest hq (by simpa [hp] using hqueue)
        | false =>
          cases he : { c.session with ioContext := rest }.pingError (c.net ec) m with
          | none => exact hrest _ rest hq (by simpa [hp, he] using hqueue)
          | some e => simp [failure, hqueue, hp, he]
  | join realm =>
    exact happend (.hello ⟨[.integer 1, .string realm]⟩) (by simp) (by rw [hsession]; rfl)
  | hearbeat =>
    have hqueue : c'.session.ioContext = c.session.afterHearbeat.ioContext := by
      rw [hsession]
      rfl
    rw [Session.afterHearbeat_ioContext] at hqueue
    split at hqueue
    · exact happend _ (by simp) hqueue
    · exact hsame hqueue
  | message t m ec => exact hsame (by simp [hsession, sessionAfter])
  | attach t | detach t =>
    apply hsame
    simp only [hsession, sessionAfter]
    split <;> rfl
  | _ => exact hsame (by rw [hsession]; rfl)

/-- The thread that detects or offers a cause is hit exactly when the promise that it satisfies is
satisfied. -/
theorem refused_iff (hs : step p a = some (o, p')) (hc : (p.state.cause a).isSome = true ∨
      (p.state.leaveOffer a).isSome = true) :
    Refused ⟨p, a, o, p'⟩ ↔
      (p.state.leaveOffer a).isSome = true ∧ p.state.session.leaved.satisfied = true ∨
      (p.state.pingError a).isSome = true ∧ p.state.session.pongReceived.satisfied = true := by
  unfold Refused
  cases a with
  | leave worker =>
    dsimp only
    rw [step_leave hs, Session.leavedOutcome]
    cases p.state.session.leaved.satisfied <;> simp [leaveOffer, pingError]
  | message t m ec =>
    dsimp only
    rw [step_message hs]
    have hoffer : (p.state.leaveOffer (.message t m ec)).isSome = true := hc.elim id id
    simp only [leaveOffer] at hoffer
    split at hoffer
    · next hr => simp [hr, Session.onMessageOutcome, alreadySatisfied, pingError, leaveOffer]
    · cases hoffer
  | runDispatched ec =>
    cases hq : p.state.session.ioContext with
    | nil => simp [cause, leaveOffer, failure, pingError, hq] at hc
    | cons d rest =>
      cases d with
      | hello m => simp [cause, leaveOffer, failure, pingError, hq] at hc
      | ping m =>
        have he : (p.state.pingError (.runDispatched ec)).isSome = true := by
          simpa [cause, leaveOffer, failure, hq] using hc
        dsimp only
        rw [step_ping hs hq, leaveOffer_of_pingError he]
        simp only [pingError, hq] at he ⊢
        rw [Session.pingOutcome_of_pingError he, he]
        cases p.state.session.pongReceived.satisfied <;> simp
      | pingFailed e =>
        dsimp only
        rw [step_pingFailed hs hq, Session.leavedOutcome]
        cases p.state.session.leaved.satisfied <;> simp [leaveOffer, failure, pingError, hq]
  | hearbeat =>
    have hoffer : (p.state.leaveOffer .hearbeat).isSome = true := hc.elim id id
    dsimp only
    rw [step_hearbeat hs, Session.hearbeatOutcome_of_verdict hoffer, hoffer]
    simp [pingError]
  | _ => exact absurd hc (by simp [cause, leaveOffer])

/-- The invariant of a run with a single cause. -/
private structure Ending (h : ClientHistory) (p : Process Client Fault) : Prop where
  offers : p.state.session.leaved.offers ++ p.state.failure.toList = causes h
  single : (causes h).length ≤ 1
  retrieved : p.state.session.leaved.retrieved = true → p.state.listens ≠ []
  listen : ∀ r, p.state.listens[0]? = some (.finished r) →
    ∃ first, (causes h).head? = some first ∧ r = first.map fun _ => ⟨⟩
  detected : ∀ e ∈ h, (e.before.state.cause e.action).isSome = true ∨
    (e.before.state.leaveOffer e.action).isSome = true → ¬ Refused e

private theorem causes_cons (e : ClientEntry) (h : ClientHistory) :
    causes (e :: h) = causes h ++ (e.before.state.cause e.action).toList := rfl

private theorem Ending.offers_step (hi : Ending h p) (hfront : RestsInFront p.state.session)
    (hc : SingleCause h p a) (hs : step p a = some (o, p')) :
    p'.state.session.leaved.offers ++ p'.state.failure.toList =
      causes h ++ (p.state.cause a).toList := by
  have hsession := (step_facts hs).session
  have hoffers : p'.state.session.leaved.offers =
      p.state.session.leaved.offers ++ (p.state.leaveOffer a).toList := by
    rw [hsession, leaved_sessionAfter]
    cases a with
    | listen => simp [leaveOffer]
    | _ => rfl
  rw [hoffers, failure_sessionAfter hsession hfront]
  cases a with
  | runDispatched ec =>
    have hfailure : (if p.state.session.pongReceived.satisfied then none
        else p.state.cause (.runDispatched ec)) = p.state.cause (.runDispatched ec) := by
      split
      · next hsat =>
        by_contra hne
        have hcause : (p.state.cause (.runDispatched ec)).isSome = true :=
          Option.isSome_iff_ne_none.mpr fun hn => hne hn.symm
        rw [(hc hcause).2 (by simpa [cause] using hcause)] at hsat
        cases hsat
      · rfl
    rw [← hi.offers]
    exact congrArg (_ ++ Option.toList ·) hfailure
  | _ =>
    -- A cause that is offered is the first one, so no lambda is on its way.
    simp only [cause]
    cases hx : p.state.leaveOffer _ with
    | none => simpa using hi.offers
    | some r =>
      have hnone := (hc (by simp only [cause, hx]; rfl)).1
      have hempty := hi.offers
      rw [hnone, List.append_eq_nil_iff] at hempty
      simp [hnone, hempty]

private theorem Ending.listen_step (hi : Ending h p) (hs : step p a = some (o, p'))
    {r : Except Exception PUnit} (hr : p'.state.listens[0]? = some (.finished r)) :
    ∃ first, (causes h).head? = some first ∧ r = first.map fun _ => ⟨⟩ := by
  rw [(step_facts hs).listens] at hr
  cases a with
  | listen =>
    simp only [listensAfter] at hr
    cases hl : p.state.listens with
    | nil =>
      have hret : p.state.session.leaved.retrieved = false := by
        by_contra hne
        exact hi.retrieved (by simpa using hne) hl
      rw [hl, hret] at hr
      simp at hr
    | cons l rest =>
      rw [hl] at hr
      exact hi.listen r (by rw [hl]; exact hr)
  | listenReady i =>
    simp only [listensAfter] at hr
    split at hr
    · next first hfirst =>
      rw [List.getElem?_set] at hr
      split at hr
      · split at hr
        · simp only [Option.some.injEq, ListenCall.finished.injEq] at hr
          refine ⟨first, ?_, hr.symm⟩
          have hhead : p.state.session.leaved.offers.head? = some first := hfirst
          rw [← hi.offers, List.head?_append, hhead]
          rfl
        · cases hr
      · exact hi.listen r hr
    · exact hi.listen r hr
  | _ => exact hi.listen r hr

private theorem Ending.retrieved_step (hi : Ending h p) (hs : step p a = some (o, p'))
    (hr : p'.state.session.leaved.retrieved = true) : p'.state.listens ≠ [] := by
  have hf := step_facts hs
  rw [hf.session, leaved_sessionAfter] at hr
  rw [hf.listens]
  cases a with
  | listen => simp [listensAfter]
  | listenReady i =>
    have hne := hi.retrieved (by simpa [leaveOffer] using hr)
    simp only [listensAfter]
    split
    · simpa using hne
    · exact hne
  | _ => exact hi.retrieved hr

private theorem Ending.of_satisfied (hi : Ending h p)
    (hsat : p.state.session.leaved.satisfied = true) :
    p.state.failure = none ∧ causes h ≠ [] := by
  rw [Promise.satisfied_eq_true] at hsat
  have hsingle := hi.single
  rw [← hi.offers, List.length_append] at hsingle
  have hpos := List.length_pos_of_ne_nil hsat
  refine ⟨?_, by simp [← hi.offers, hsat]⟩
  cases hf : p.state.failure with
  | none => rfl
  | some r =>
    rw [hf, Option.toList_some, List.length_singleton] at hsingle
    omega

private theorem cause_of_leaveOffer {c : Client} (hoffer : (c.leaveOffer a).isSome = true)
    (hfailure : c.failure = none) : (c.cause a).isSome = true := by
  cases a with
  | runDispatched ec =>
    have hnone : c.leaveOffer (.runDispatched ec) = none := hfailure
    rw [hnone] at hoffer
    cases hoffer
  | _ => exact hoffer

private theorem Ending.step (hi : Ending h p) (hfront : RestsInFront p.state.session)
    (hc : SingleCause h p a) (hs : step p a = some (o, p')) :
    Ending (⟨p, a, o, p'⟩ :: h) p' := by
  have hlength : (causes (⟨p, a, o, p'⟩ :: h)).length ≤ 1 := by
    rw [causes_cons]
    cases hcause : p.state.cause a with
    | none => simpa [hcause] using hi.single
    | some r =>
      rw [(hc (by rw [hcause]; rfl)).1]
      simp
  constructor
  · exact hi.offers_step hfront hc hs
  · exact hlength
  · exact hi.retrieved_step hs
  · intro r hr
    obtain ⟨first, hfirst, hr⟩ := hi.listen_step hs hr
    refine ⟨first, ?_, hr⟩
    rw [causes_cons, List.head?_append, hfirst]
    rfl
  · rw [List.forall_mem_cons]
    refine ⟨fun hoffered hrefused => ?_, hi.detected⟩
    rcases (refused_iff hs hoffered).mp hrefused with ⟨hoffer, hsat⟩ | ⟨he, hsat⟩
    · obtain ⟨hfailure, hcauses⟩ := hi.of_satisfied hsat
      exact hcauses (hc (cause_of_leaveOffer hoffer hfailure)).1
    · have hcause : (p.state.cause a).isSome = true := by
        cases a with
        | runDispatched ec => simpa [cause] using he
        | _ => cases he
      rw [(hc hcause).2 he] at hsat
      cases hsat

private theorem ending_of_meets (hr : ClientRun h p) (hm : Meets SingleCause h) : Ending h p := by
  have hi : RestsInFront p.state.session ∧ Ending h p := by
    apply hr.invariant_of_meets SingleCause fun h p => RestsInFront p.state.session ∧ Ending h p
    · refine ⟨fun _ => List.not_mem_nil, ?_⟩
      constructor
      · rfl
      · exact Nat.zero_le 1
      · intro hr
        cases hr
      · intro r hr
        cases hr
      · exact List.forall_mem_nil _
    · intro h p a o p' hi hc hs
      refine ⟨?_, hi.2.step hi.1 hc hs⟩
      rw [(step_facts hs).session]
      exact restsInFront_sessionAfter hi.1 a
    · exact hm
  exact hi.2

private theorem open_before (hfront : RestsInFront p.state.session) (hs : step p a = some (o, p'))
    (hd : (p.state.leaveOffer a).isSome = true → ¬ Refused ⟨p, a, o, p'⟩)
    (hopen : p'.state.session.leaved.satisfied = true → p'.state.failure = none)
    (hsat : p.state.session.leaved.satisfied = true) : p.state.failure = none := by
  have hsession := (step_facts hs).session
  by_contra hne
  have hsome := Option.isSome_iff_ne_none.mpr hne
  have hsat' : p'.state.session.leaved.satisfied = true := by
    rw [hsession, leaved_sessionAfter]
    rw [Promise.satisfied_eq_true] at hsat ⊢
    cases a <;> simp [Promise.offerAll, hsat]
  have hfailure := failure_sessionAfter hsession hfront
  rw [hopen hsat'] at hfailure
  cases a with
  | runDispatched ec => exact hd hsome ((refused_iff hs (.inr hsome)).mpr (.inl ⟨hsome, hsat⟩))
  | _ => exact hne hfailure.symm

private theorem untouched_of_cause (hfront : RestsInFront p.state.session)
    (hs : step p a = some (o, p')) (hcause : (p.state.cause a).isSome = true)
    (hpong : (p.state.pingError a).isSome = true → p.state.session.pongReceived.satisfied = false)
    (hnot : ¬ ((p.state.leaveOffer a).isSome = true ∧ p.state.session.leaved.satisfied = true))
    (hopen : p'.state.session.leaved.satisfied = true → p'.state.failure = none) :
    p.state.session.leaved.offers = [] ∧ p.state.failure = none := by
  have hsession := (step_facts hs).session
  have hfailure := failure_sessionAfter hsession hfront
  have hleaved := leaved_sessionAfter p.state a
  rw [← hsession] at hleaved
  cases a with
  | runDispatched ec =>
    -- A failed PING is on its way to `leaved_` after the step.
    have he : (p.state.pingError (.runDispatched ec)).isSome = true := by
      simpa [cause] using hcause
    have hnone : p.state.failure = none := leaveOffer_of_pingError he
    simp only [hpong he, Bool.false_eq_true, ite_false] at hfailure
    refine ⟨?_, hnone⟩
    rw [← Promise.satisfied_eq_false]
    by_contra hsat
    have hoffered : p'.state.session.leaved = p.state.session.leaved := by
      simpa [leaveOffer, hnone] using hleaved
    rw [hopen (by rw [hoffered]; simpa using hsat)] at hfailure
    rw [← hfailure] at hcause
    cases hcause
  | listen => cases hcause
  | _ =>
    dsimp only at hfailure hleaved
    simp only [cause] at hcause
    obtain ⟨r, hr⟩ := Option.isSome_iff_exists.mp hcause
    refine ⟨?_, ?_⟩
    · rw [← Promise.satisfied_eq_false]
      by_contra hsat
      exact hnot ⟨hcause, by simpa using hsat⟩
    · rw [← hfailure]
      exact hopen (by rw [hleaved, hr]; simp)

private theorem meets_of_detected (hr : ClientRun h p)
    (hd : ∀ e ∈ h, (e.before.state.cause e.action).isSome = true ∨
      (e.before.state.leaveOffer e.action).isSome = true → ¬ Refused e)
    (hopen : p.state.session.leaved.satisfied = true → p.state.failure = none) :
    Meets SingleCause h := by
  induction hr with
  | nil => trivial
  | @cons h p p' a o hr hs ih =>
    rw [List.forall_mem_cons] at hd
    have hfront := restsInFront_of_run hr
    have hm := ih hd.2 (open_before hfront hs (fun hx => hd.1 (.inr hx)) hopen)
    refine ⟨fun hcause => ?_, hm⟩
    have hnot := hd.1 (.inl hcause)
    rw [refused_iff hs (.inl hcause), not_or] at hnot
    have hi := ending_of_meets hr hm
    have hpong : (p.state.pingError a).isSome = true →
        p.state.session.pongReceived.satisfied = false := by
      intro he
      by_contra hne
      exact hnot.2 ⟨he, by simpa using hne⟩
    refine ⟨?_, hpong⟩
    rw [← hi.offers, List.append_eq_nil_iff, Option.toList_eq_nil_iff]
    exact untouched_of_cause hfront hs hcause hpong hnot.1 hopen

/-- In a run, the first cause wins exactly when it is the only one, and no PING fails after a PONG
has come. -/
theorem first_cause_wins_iff (hr : ClientRun h p) : FirstCauseWins h p ↔ Meets SingleCause h := by
  constructor
  · intro hw
    refine meets_of_detected hr hw.detected fun hsat => ?_
    have hlength := congrArg List.length hw.offers
    have hpos := List.length_pos_of_ne_nil (Promise.satisfied_eq_true.mp hsat)
    rw [List.length_append, List.length_take] at hlength
    cases hf : p.state.failure with
    | none => rfl
    | some r =>
      rw [hf, Option.toList_some, List.length_singleton] at hlength
      omega
  · intro hm
    have hi := ending_of_meets hr hm
    constructor
    · rw [List.take_of_length_le hi.single]
      exact hi.offers
    · exact hi.listen
    · exact hi.detected

/-- `Listen` waits, `Leave` is called, and `Listen` returns. -/
theorem first_cause_wins_leave : ∃ h p, ClientRun h p ∧ FirstCauseWins h p ∧
    p.state.listens[0]? = some (.finished (.ok ⟨⟩)) := by
  obtain ⟨h, p, hr, hc⟩ := exists_run_of_replay step init
    [.attach 0, .transport 0 .onClientOpen, .listen, .leave none, .listenReady 0]
    (fun h p => decide (Meets SingleCause h) &&
      decide (p.state.listens[0]? = some (ListenCall.finished (.ok ⟨⟩)))) (by decide)
  simp only [Bool.and_eq_true, decide_eq_true_eq] at hc
  exact ⟨h, p, hr, (first_cause_wins_iff hr).mpr hc.1, hc.2⟩

/-- A PING that cannot be sent satisfies `leaved_`, and the verdict of the loop does so again. -/
theorem not_first_cause_wins : ¬ ∀ h p, ClientRun h p → FirstCauseWins h p := by
  intro hall
  obtain ⟨h, p, hr, hc⟩ := exists_run_of_replay step init
    [.attach 0, .transport 0 .onClientOpen, .join (utf8 "realm"), .runDispatched none,
      .message 0 ⟨[.integer 2, .integer 7]⟩ none, .hearbeat,
      .runDispatched (some (utf8 "broken pipe")), .runDispatched none, .hearbeat, .hearbeat,
      .hearbeat]
    (fun _ p => decide (p.state.session.leaved.offers.length = 2) &&
      decide (p.fault = some (.uncaught alreadySatisfied))) (by decide)
  rw [Bool.and_eq_true, decide_eq_true_eq] at hc
  have hlength := congrArg List.length (hall h p hr).offers
  rw [List.length_append, List.length_take] at hlength
  omega

end Client
end Barbarossa
