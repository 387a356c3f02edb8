import Barbarossa.Client.Offers

/-!
# Whom an ABORT reaches

The handler of an ABORT sets `joined_`, whatever the state. A `Join` that waits for its first
outcome gets the reason; the `Listen` of an established session never does, and an ABORT that finds
`joined_` satisfied throws.
-/

namespace Barbarossa
open Barbarossa.Base

/-- The reason of an ABORT that can be read. -/
def Received.abortReason? : Received → Option Bytes
  | .abort (.ok reason) => some reason
  | _ => none

/-- The reason of an ABORT that is delivered. -/
def Action.abortReason? : Action → Option Bytes
  | .message _ m _ => m.received.abortReason?
  | _ => none

namespace JoinCall

/-- The call has not returned. -/
def pending : JoinCall → Bool
  | .finished _ => false
  | _ => true

end JoinCall

namespace Client

variable {h : ClientHistory} {p p' : Process Client Fault} {a : Action}
  {o : Outcome Exception Fault PUnit × List Effect}

/-- The outcome of call `i` of `Join` is there, and if the call has ended, it has ended with it. -/
structure JoinSettled (c : Client) (i : Nat) (r : Except Exception UInt32) : Prop where
  promise : c.session.joined.result = some r
  ended : ∀ r', c.joins[i]? = some (.finished r') → r' = r

/-- What an ABORT has come to in `c`: it is the outcome of every `Join` that it found pending, and
of `Listen` if it found the session established, and then its handler did not throw. -/
structure AbortReaches (e : ClientEntry) (reason : Bytes) (c : Client) : Prop where
  join : ∀ i j, e.before.state.joins[i]? = some j → j.pending = true →
    e.output.1 = .value ⟨⟩ ∧ JoinSettled c i (.error (.abortError reason))
  listen : e.before.state.session.state = .established →
    e.output.1 = .value ⟨⟩ ∧ c.session.leaved.result = some (.error (.abortError reason))

/-- In every state behind an ABORT, it has reached whom it concerns. -/
def AbortsReach : ClientHistory → Prop
  | [] => True
  | e :: h =>
    (∀ f ∈ e :: h, ∀ reason, f.action.abortReason? = some reason →
      AbortReaches f reason e.after.state) ∧ AbortsReach h

/-- The session is not established, and `joined_` has no outcome while a `Join` is pending. -/
def awaitsAbort (c : Client) : Bool :=
  decide (c.session.state ≠ .established) &&
    c.joins.all fun j => !j.pending || !c.session.joined.satisfied

/-- An ABORT found call `i` of `Join` pending. -/
def abortFound (h : ClientHistory) (i : Nat) : Bool :=
  h.any fun e => e.action.abortReason?.isSome && e.before.state.joins[i]?.any JoinCall.pending

/-- An ABORT finds the session awaiting it, and a `Join` that one found pending still finds its
future when it comes to it. -/
def receivesAbort (h : ClientHistory) (c : Client) : Action → Bool
  | .message _ m _ => m.received.abortReason?.isNone || c.awaitsAbort
  | .joinFuture i => !(abortFound h i && c.session.joined.retrieved)
  | _ => true

/-- An ABORT can reach whom it concerns. -/
def KeepsAbort (h : ClientHistory) (p : Process Client Fault) (a : Action) : Prop :=
  p.state.receivesAbort h a = true

instance (h : ClientHistory) (p : Process Client Fault) (a : Action) :
    Decidable (KeepsAbort h p a) :=
  inferInstanceAs (Decidable (_ = _))

/-! ### What an ABORT has come to stays -/

private theorem finished_of_step {i : Nat} {r : Except Exception UInt32}
    (hs : step p a = some (o, p')) (hend : p'.state.joins[i]? = some (.finished r)) :
    p.state.joins[i]? = some (.finished r) ∨
      (a = .joinFuture i ∧ p.state.session.joined.retrieved = true) ∨
      p.state.session.joined.result = some r ∨ p.state.session.joined.result = none := by
  have hf := step_facts hs
  rw [hf.joins] at hend
  cases a with
  | join realm =>
    rw [joinsAfter, List.getElem?_append] at hend
    split at hend
    · exact .inl hend
    · cases List.mem_singleton.mp (List.mem_of_getElem? hend)
  | joinFuture j =>
    rw [joinsAfter, List.getElem?_set] at hend
    by_cases hji : j = i
    · subst hji
      cases hret : p.state.session.joined.retrieved with
      | true => exact .inr (.inl ⟨rfl, rfl⟩)
      | false => simp [hret] at hend
    · rw [if_neg hji] at hend
      exact .inl hend
  | joinReady j =>
    cases hres : p.state.session.joined.result with
    | none => exact .inr (.inr (.inr rfl))
    | some r' =>
      rw [joinsAfter, hres] at hend
      dsimp only at hend
      rw [List.getElem?_set] at hend
      by_cases hji : j = i
      · subst hji
        rw [if_pos rfl] at hend
        split at hend
        · cases hend
          exact .inr (.inr (.inl rfl))
        · cases hend
      · rw [if_neg hji] at hend
        exact .inl hend
  | joinTimeout j => exact .inr (.inr (.inr (Promise.result_eq_none.mpr hf.enabled.2)))
  | _ => exact .inl hend

/-- A `Join` that is settled stays so, if it does not come to its future too late. -/
theorem JoinSettled.step {i : Nat} {r : Except Exception UInt32} (hj : JoinSettled p.state i r)
    (hs : Client.step p a = some (o, p'))
    (hfuture : a = .joinFuture i → p.state.session.joined.retrieved = false) :
    JoinSettled p'.state i r := by
  constructor
  · rw [(step_facts hs).session]
    exact Promise.result_of_offers_append hj.promise (offers_sessionAfter p.state a)
  · intro r' hend
    rcases finished_of_step hs hend with hold | ⟨ha, hret⟩ | hres | hnone
    · exact hj.ended r' hold
    · rw [hfuture ha] at hret
      cases hret
    · exact Option.some.inj (hres.symm.trans hj.promise)
    · rw [hj.promise] at hnone
      cases hnone

private theorem joins_of_retrieved {i : Nat} (hs : step p (.joinFuture i) = some (o, p'))
    (hret : p.state.session.joined.retrieved = true) : p'.state.joins[i]? =
      some (.finished (.error (.futureError .futureAlreadyRetrieved))) := by
  have hf := step_facts hs
  have hlength : i < p.state.joins.length := (List.getElem?_eq_some_iff.mp hf.enabled).1
  simp [hf.joins, joinsAfter, hret, hlength]

private theorem abortFound_iff {i : Nat} : abortFound h i = true ↔
    ∃ e ∈ h, (∃ reason, e.action.abortReason? = some reason) ∧
      ∃ j, e.before.state.joins[i]? = some j ∧ j.pending = true := by
  simp only [abortFound, List.any_eq_true, Bool.and_eq_true, Option.isSome_iff_exists,
    Option.any_eq_true]

/-- What an ABORT has come to stays, if no `Join` that it found pending comes to its future too
late. -/
theorem AbortReaches.step {e : ClientEntry} {reason : Bytes} (he : e ∈ h)
    (hreason : e.action.abortReason? = some reason) (hreach : AbortReaches e reason p.state)
    (hc : KeepsAbort h p a) (hs : Client.step p a = some (o, p')) :
    AbortReaches e reason p'.state := by
  constructor
  · intro i j hi hpending
    obtain ⟨ho, hsettled⟩ := hreach.join i j hi hpending
    refine ⟨ho, hsettled.step hs ?_⟩
    rintro rfl
    have hfound := abortFound_iff.mpr ⟨e, he, ⟨reason, hreason⟩, j, hi, hpending⟩
    simpa [KeepsAbort, receivesAbort, hfound] using hc
  · intro hstate
    obtain ⟨ho, hleaved⟩ := hreach.listen hstate
    refine ⟨ho, ?_⟩
    rw [(step_facts hs).session]
    exact Promise.result_of_offers_append hleaved (leaved_offers_after p.state a)

private theorem not_reaches_of_retrieved {i : Nat} (hs : step p (.joinFuture i) = some (o, p'))
    (hfound : abortFound h i = true) (hret : p.state.session.joined.retrieved = true) :
    ∃ e ∈ h, ∃ reason, e.action.abortReason? = some reason ∧ ¬ AbortReaches e reason p'.state := by
  obtain ⟨e, he, ⟨reason, hreason⟩, j, hi, hpending⟩ := abortFound_iff.mp hfound
  refine ⟨e, he, reason, hreason, fun hreach => ?_⟩
  cases (hreach.join i j hi hpending).2.ended _ (joins_of_retrieved hs hret)

/-! ### What an ABORT comes to -/

private theorem step_abort {t : TransportId} {m : Message} {ec : Option Bytes} {reason : Bytes}
    (hm : m.received.abortReason? = some reason) (hs : step p (.message t m ec) = some (o, p')) :
    p'.state.joins = p.state.joins ∧ p'.state.session.leaved = p.state.session.leaved ∧
      p'.state.session.joined = p.state.session.joined.offer (.error (.abortError reason)) ∧
      o.1 = if p.state.session.joined.satisfied then .thrown alreadySatisfied else .value ⟨⟩ := by
  have hreceived : m.received = .abort (.ok reason) := by
    unfold Received.abortReason? at hm
    split at hm
    · cases hm
      assumption
    · cases hm
  have hf := step_facts hs
  refine ⟨hf.joins, ?_, ?_, ?_⟩
  · rw [hf.session, sessionAfter, hreceived]
    rfl
  · rw [hf.session, sessionAfter, hreceived]
    rfl
  · rw [step_message hs, hreceived]
    rfl

/-- An ABORT reaches whom it concerns exactly when the session awaits one. -/
theorem abortReaches_iff (hr : ClientRun h p) {t : TransportId} {m : Message} {ec : Option Bytes}
    {reason : Bytes} (hm : m.received.abortReason? = some reason)
    (hs : step p (.message t m ec) = some (o, p')) :
    AbortReaches ⟨p, .message t m ec, o, p'⟩ reason p'.state ↔ p.state.awaitsAbort = true := by
  obtain ⟨hjoins, hleaved, hjoined, hthrows⟩ := step_abort hm hs
  simp only [awaitsAbort, Bool.and_eq_true, decide_eq_true_eq, List.all_eq_true]
  constructor
  · intro hreach
    constructor
    · intro hstate
      have hlisten := (hreach.listen hstate).2
      rw [hleaved] at hlisten
      have hends := endsSession_of_mem_leaved hr _ (List.mem_of_mem_head? hlisten)
      rcases hends with he | he <;> cases he
    · intro j hj
      obtain ⟨i, hi⟩ := List.mem_iff_getElem?.mp hj
      cases hpending : j.pending with
      | false => rfl
      | true =>
        have ho : o.1 = .value ⟨⟩ := (hreach.join i j hi hpending).1
        cases hsat : p.state.session.joined.satisfied with
        | false => rfl
        | true =>
          rw [ho, hsat] at hthrows
          cases hthrows
  · rintro ⟨hstate, hall⟩
    constructor
    · intro i j hi hpending
      have hunsatisfied : p.state.session.joined.satisfied = false := by
        simpa [hpending] using hall j (List.mem_of_getElem? hi)
      refine ⟨?_, ?_, ?_⟩
      · show o.1 = _
        rw [hthrows, hunsatisfied]
        rfl
      · rw [hjoined]
        exact Promise.result_offer_of_unsatisfied hunsatisfied
      · rw [hjoins, hi]
        rintro r' hr'
        cases hr'
        cases hpending
    · intro hestablished
      exact absurd hestablished hstate

private theorem AbortsReach.reaches (hall : AbortsReach h) (hr : ClientRun h p) {e : ClientEntry}
    (he : e ∈ h) {reason : Bytes} (hreason : e.action.abortReason? = some reason) :
    AbortReaches e reason p.state := by
  cases hr with
  | nil => cases he
  | cons hr hs => exact hall.1 e he reason hreason

/-- In every state of a run its ABORTs have reached whom they concern, exactly when each one found
the session awaiting it and no `Join` that one found pending came to its future too late. -/
theorem aborts_reach_iff (hr : ClientRun h p) : AbortsReach h ↔ Meets KeepsAbort h := by
  induction hr with
  | nil => exact Iff.rfl
  | @cons h p p' a o hr hs ih =>
    rw [AbortsReach, Meets, ih]
    refine and_congr_left fun hm => ?_
    constructor
    · intro hall
      cases a with
      | message t m ec =>
        cases hreason : m.received.abortReason? with
        | none => simp [KeepsAbort, receivesAbort, hreason]
        | some reason =>
          have hawaits := (abortReaches_iff hr hreason hs).mp
            (hall _ List.mem_cons_self reason hreason)
          simp [KeepsAbort, receivesAbort, hawaits]
      | joinFuture i =>
        cases hfound : abortFound h i with
        | false => simp [KeepsAbort, receivesAbort, hfound]
        | true =>
          cases hret : p.state.session.joined.retrieved with
          | false => simp [KeepsAbort, receivesAbort, hret]
          | true =>
            obtain ⟨e, he, reason, hreason, hnot⟩ := not_reaches_of_retrieved hs hfound hret
            exact absurd (hall e (List.mem_cons_of_mem _ he) reason hreason) hnot
      | _ => rfl
    · intro hc e he reason hreason
      rcases List.mem_cons.mp he with rfl | he
      · cases a with
        | message t m ec =>
          refine (abortReaches_iff hr hreason hs).mpr ?_
          have hsome : m.received.abortReason? = some reason := hreason
          simpa [KeepsAbort, receivesAbort, hsome] using hc
        | _ => cases hreason
      · exact ((ih.mpr hm).reaches hr he hreason).step he hreason hc hs

/-- The ABORT `[3, "no"]`. -/
def refusal : Message := ⟨[.integer 3, .string (utf8 "no")]⟩

/-- The ABORT after a HELLO is the outcome of `Join`. -/
theorem aborts_reach_join : ∃ h p, ClientRun h p ∧
    p.state.joins = [.finished (.error (.abortError (utf8 "no")))] ∧ AbortsReach h := by
  obtain ⟨h, p, hr, hc⟩ := exists_run_of_replay step init
    [.attach 0, .transport 0 .onClientOpen, .join (utf8 "realm"), .joinFuture 0,
      .runDispatched none, .message 0 refusal none, .joinReady 0]
    (fun h p => decide (p.state.joins = [.finished (.error (.abortError (utf8 "no")))]) &&
      decide (Meets KeepsAbort h)) (by decide)
  simp only [Bool.and_eq_true, decide_eq_true_eq] at hc
  exact ⟨h, p, hr, hc.1, (aborts_reach_iff hr).mpr hc.2⟩

/-- The ABORT of an established session throws, and `Listen` goes on waiting. -/
theorem not_aborts_reach : ¬ ∀ h p, ClientRun h p → AbortsReach h := by
  intro hall
  obtain ⟨h, p, hr, hc⟩ := exists_run_of_replay step init
    (joinSteps ++ [.listen, .message 0 refusal none])
    (fun h p => decide (p.state.session.leaved.offers = []) &&
      h.any fun e => decide (e.action.abortReason? = some (utf8 "no") ∧
        e.before.state.session.state = .established ∧ e.output.1 = .thrown alreadySatisfied))
    (by decide)
  simp only [Bool.and_eq_true, List.any_eq_true, decide_eq_true_eq] at hc
  obtain ⟨-, e, he, hreason, hstate, ho⟩ := hc
  have hvalue := (((hall h p hr).reaches hr he hreason).listen hstate).1
  rw [ho] at hvalue
  cases hvalue

end Client
end Barbarossa
