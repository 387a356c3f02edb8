import Barbarossa.Client.Heartbeat
import Barbarossa.Client.Termination

/-!
# The class of a failure across threads

What `SendMessage` raises in a dispatched lambda reaches the waiting caller through a promise. The
lambda of `Join` catches `std::exception`, the lambda of the heartbeat loop catches `NetworkError`,
and the copy they put into the promise has the class they caught, not the one that was thrown. The
lambda of the heartbeat loop wakes the loop before it comes to the promise of `Listen`, so that
another thread can be there first.
-/

namespace Barbarossa
open Barbarossa.Base

namespace Exception

/-- The two exceptions are of one class. -/
def SameClass (e e' : Exception) : Prop := e.ctorIdx = e'.ctorIdx

/-- A result that is an exception of the class of `x`. -/
def IsClassOf {α : Type} (x : Exception) (r : Except Exception α) : Prop :=
  ∃ e, r = .error e ∧ e.SameClass x

/-- What is not an exception of the class is none after the value is dropped either. -/
theorem IsClassOf.map {α β : Type} {x : Exception} {r : Except Exception α} (f : α → β)
    (h : x.IsClassOf r) : x.IsClassOf (r.map f) := by
  obtain ⟨e, rfl, hclass⟩ := h
  exact ⟨e, rfl, hclass⟩

end Exception

namespace Session

/-- What `SendMessage` raises when a lambda is run, if it raises anything. -/
def sendFailure (net : Net) (s : Session) : Dispatched → Option Exception
  | .hello m =>
    if s.sessionId ≠ 0 then none
    else match s.sendOutcome net m false with
    | .thrown e => some e
    | _ => none
  | .ping m =>
    match s.sendOutcome net m true with
    | .thrown e => some e
    | _ => none
  | .pingFailed _ => none

/-- The promise that the caller concerned waits for has no result: `joined_` for `Join`, `leaved_`
for `Listen`. -/
def callerWaits (s : Session) : Dispatched → Bool
  | .hello _ => !s.joined.satisfied
  | .ping _ | .pingFailed _ => !s.leaved.satisfied

/-- What a send raises: the error of a guard, or behind the guards the client's error or the one of
a frame that cannot be dumped. -/
theorem sendOutcome_eq_thrown {net : Net} {s : Session} {m : Message} {b : Bool} {x : Exception}
    (h : s.sendOutcome net m b = .thrown x) :
    s.route net b = .error x ∧ (x = .noTransportError ∨ x = .noSessionError) ∨
      (∃ t, s.route net b = .ok t) ∧
        ((∃ text, x = .networkError text) ∨
          Json.dumpable (.array m.fields) = false ∧ x = .typeError 316) := by
  unfold sendOutcome at h
  cases hr : s.route net b with
  | error e =>
    rw [hr] at h
    cases h
    exact .inl ⟨rfl, route_eq_error hr⟩
  | ok t =>
    rw [hr] at h
    refine .inr ⟨⟨t, rfl⟩, ?_⟩
    dsimp only at h
    split at h
    · split at h
      · cases h
        exact .inl ⟨_, rfl⟩
      · cases h
    · next hd =>
      cases h
      exact .inr ⟨by simpa using hd, rfl⟩

private theorem isClassOf_ping_iff {net : Net} {s : Session} {x : Exception}
    (h : s.sendOutcome net ⟨[.integer 4, .object []]⟩ true = .thrown x) :
    (x.isNetworkError = true ∧ x.copyNetworkError.SameClass x) ↔
      s.transport.any net.isConnected = true ∧ s.sessionId ≠ 0 := by
  rw [← exists_route_iff]
  rcases sendOutcome_eq_thrown h with ⟨hr, rfl | rfl⟩ | ⟨hr, ⟨text, rfl⟩ | ⟨hd, -⟩⟩
  · -- No transport is ready: the copy is a plain `NetworkError`.
    have hclass : ¬ Exception.noTransportError.copyNetworkError.SameClass .noTransportError := by
      unfold Exception.SameClass
      decide
    simp [hr, hclass]
  · -- No session: the lambda does not catch the error.
    simp [hr, Exception.isNetworkError]
  · have hcopy : (Exception.networkError text).copyNetworkError = .networkError text := rfl
    simp [hr, Exception.isNetworkError, hcopy, Exception.SameClass]
  · cases hd

end Session

namespace Client

/-- The send of a lambda that an action runs and that fails while the caller concerned waits. -/
def failedSend (c : Client) : Action → Option (Dispatched × Exception)
  | .runDispatched ec =>
    match c.session.ioContext with
    | [] => none
    | d :: _ =>
      if c.session.callerWaits d then (c.session.sendFailure (c.net ec) d).map (d, ·) else none
  | _ => none

/-- What a caller of `Join` that waited in `c` sees of `x` in `c'`. -/
structure JoinSees (x : Exception) (c c' : Client) : Prop where
  promise : ∃ r, c'.session.joined.result = some r ∧ x.IsClassOf r
  calls : ∀ i : Nat, c.joins[i]? = some .waiting → c'.joins[i]? = some .waiting ∨
    ∃ r, c'.joins[i]? = some (.finished r) ∧ x.IsClassOf r

/-- What a caller of `Listen` that waited in `c` sees of `x` in `c'`; until there is a result the
lambda is on its way to it. -/
structure ListenSees (x : Exception) (c c' : Client) : Prop where
  promise : ∀ r, c'.session.leaved.result = some r → x.IsClassOf r
  underway : c'.session.leaved.result = none → ∃ r, c'.failure = some r ∧ x.IsClassOf r
  calls : ∀ i : Nat, c.listens[i]? = some .waiting → c'.listens[i]? = some .waiting ∨
    ∃ r, c'.listens[i]? = some (.finished r) ∧ x.IsClassOf r

/-- What the caller concerned by a lambda sees. -/
def Sees (c c' : Client) : Dispatched × Exception → Prop
  | (.hello _, x) => JoinSees x c c'
  | (.ping _, x) | (.pingFailed _, x) => ListenSees x c c'

/-- In every state behind a failed send, the caller that waited for it sees an exception of the
class that `SendMessage` raised. -/
def KeepsClass : ClientHistory → Prop
  | [] => True
  | e :: h =>
    (∀ f ∈ e :: h, ∀ s, f.before.state.failedSend f.action = some s →
      f.before.state.Sees e.after.state s) ∧ KeepsClass h

/-- A PING fails in the websocket client, behind the guards of `SendMessage`, and `pong_received_`
is not satisfied yet. -/
def failsInClient (c : Client) : Dispatched → Bool
  | .ping _ =>
    c.session.transport.any (fun t => (c.transports t).isConnected) &&
      decide (c.session.sessionId ≠ 0) && !c.session.pongReceived.satisfied
  | .hello _ | .pingFailed _ => false

/-- An action that offers something else than a `NetworkError` to `leaved_`. -/
def offersOther (c : Client) (a : Action) : Bool :=
  match c.leaveOffer a with
  | none | some (.error (.networkError _)) => false
  | some _ => true

/-- What fails is a PING in the websocket client, and nobody comes to `leaved_` between the two
promises of its lambda. -/
def passesOn (c : Client) (a : Action) : Bool :=
  (c.failedSend a).all (fun s => c.failsInClient s.1) &&
    !(c.failure.isSome && !c.session.leaved.satisfied && c.offersOther a)

/-- A failure is passed on as it is. -/
def KeepsFailure (_ : ClientHistory) (p : Process Client Fault) (a : Action) : Prop :=
  p.state.passesOn a = true

instance (h : ClientHistory) (p : Process Client Fault) (a : Action) :
    Decidable (KeepsFailure h p a) :=
  inferInstanceAs (Decidable (_ = _))

/-- The queue holds only lambdas that were not begun. -/
def Unbegun (c : Client) : Prop :=
  ∀ d ∈ c.session.ioContext, Built d ∧ ∀ e, d ≠ .pingFailed e

variable {c : Client} {h : ClientHistory} {p p' : Process Client Fault} {a : Action}
  {o : Outcome Exception Fault PUnit × List Effect}

private theorem failedSend_cases {s : Dispatched × Exception} (h : c.failedSend a = some s) :
    ∃ ec d rest, a = .runDispatched ec ∧ c.session.ioContext = d :: rest ∧ s.1 = d ∧
      c.session.callerWaits d = true ∧ c.session.sendFailure (c.net ec) d = some s.2 := by
  cases a with
  | runDispatched ec =>
    simp only [failedSend] at h
    split at h
    · cases h
    · next d rest hq =>
      obtain ⟨hw, h⟩ := Option.ite_none_right_eq_some.mp h
      obtain ⟨x, hx, rfl⟩ := Option.map_eq_some_iff.mp h
      exact ⟨ec, d, rest, rfl, hq, rfl, hw, hx⟩
  | _ => cases h

private theorem not_joinSees {m : Message} {rest : List Dispatched} {ec : Option Bytes}
    {x : Exception} {c' c₀ : Client} (hq : c.session.ioContext = .hello m :: rest)
    (hsession : c'.session = c.sessionAfter (.runDispatched ec))
    (hw : c.session.callerWaits (.hello m) = true)
    (hx : c.session.sendFailure (c.net ec) (.hello m) = some x) : ¬ JoinSees x c₀ c' := by
  intro hsees
  obtain ⟨r, hr, e, rfl, hclass⟩ := hsees.promise
  simp only [Session.sendFailure] at hx
  split at hx
  · cases hx
  · next hid =>
    split at hx
    · next y hy =>
      cases hx
      have hunsatisfied : c.session.joined.satisfied = false := by
        simpa [Session.callerWaits] using hw
      have hid : { c.session with ioContext := rest }.sessionId = 0 := by simpa using hid
      have hthrown : { c.session with ioContext := rest }.sendOutcome (c.net ec) m false =
          .thrown x := hy
      simp only [hsession, sessionAfter, hq, Session.afterHello_of_thrown hid hthrown,
        Promise.result_offer_of_unsatisfied hunsatisfied, Option.some.injEq,
        Except.error.injEq] at hr
      subst hr
      rcases Session.sendOutcome_eq_thrown hy with
        ⟨-, rfl | rfl⟩ | ⟨-, ⟨text, rfl⟩ | ⟨-, rfl⟩⟩ <;> cases hclass
    · cases hx

private theorem failure_of_ping {m : Message} {rest : List Dispatched} {ec : Option Bytes}
    {x : Exception} {c' : Client} (hq : c.session.ioContext = .ping m :: rest)
    (hfront : RestsInFront c.session)
    (hsession : c'.session = c.sessionAfter (.runDispatched ec))
    (hx : c.session.sendFailure (c.net ec) (.ping m) = some x) :
    c'.session.leaved = c.session.leaved ∧ c'.failure =
      if c.session.pongReceived.satisfied = false ∧ x.isNetworkError = true then
        some (.error x.copyNetworkError) else none := by
  have hthrown : { c.session with ioContext := rest }.sendOutcome (c.net ec) m true =
      .thrown x := by
    simp only [Session.sendFailure] at hx
    split at hx
    · next y hy =>
      cases hx
      exact hy
    · cases hx
  constructor
  · rw [hsession, leaved_sessionAfter]
    simp [leaveOffer, failure, hq]
  · rw [failure_sessionAfter hsession hfront]
    simp only [cause, pingError, hq, Session.pingError, hthrown]
    cases c.session.pongReceived.satisfied <;> cases x.isNetworkError <;> rfl

private theorem listenSees_ping_iff {rest : List Dispatched} {ec : Option Bytes}
    {x : Exception} (hs : step p (.runDispatched ec) = some (o, p'))
    (hq : p.state.session.ioContext = .ping ⟨[.integer 4, .object []]⟩ :: rest)
    (hfront : RestsInFront p.state.session)
    (hw : p.state.session.callerWaits (.ping ⟨[.integer 4, .object []]⟩) = true)
    (hx : p.state.session.sendFailure (p.state.net ec) (.ping ⟨[.integer 4, .object []]⟩) =
      some x) : ListenSees x p.state p'.state ↔
      p.state.failsInClient (.ping ⟨[.integer 4, .object []]⟩) = true := by
  obtain ⟨hleaved, hfailure⟩ := failure_of_ping hq hfront (step_facts hs).session hx
  have hresult : p'.state.session.leaved.result = none := by
    rw [hleaved, Promise.result_eq_none, ← Promise.satisfied_eq_false]
    simpa [Session.callerWaits] using hw
  have hthrown : p.state.session.sendOutcome (p.state.net ec) ⟨[.integer 4, .object []]⟩ true =
      .thrown x := by
    simp only [Session.sendFailure] at hx
    split at hx
    · next y hy =>
      cases hx
      exact hy
    · cases hx
  have hclass := Session.isClassOf_ping_iff hthrown
  have hfails : p.state.failsInClient (.ping ⟨[.integer 4, .object []]⟩) = true ↔
      (x.isNetworkError = true ∧ x.copyNetworkError.SameClass x) ∧
        p.state.session.pongReceived.satisfied = false := by
    rw [hclass]
    simp [failsInClient, net]
  rw [hfails]
  constructor
  · intro hsees
    obtain ⟨r, hr, e, rfl, hsame⟩ := hsees.underway hresult
    rw [hfailure] at hr
    obtain ⟨⟨hpong, hnet⟩, hr⟩ := Option.ite_none_right_eq_some.mp hr
    cases hr
    exact ⟨⟨hnet, hsame⟩, hpong⟩
  · rintro ⟨⟨hnet, hsame⟩, hpong⟩
    constructor
    · simp [hresult]
    · intro _
      exact ⟨_, by rw [hfailure, if_pos ⟨hpong, hnet⟩], _, rfl, hsame⟩
    · intro i hi
      left
      rw [(step_facts hs).listens]
      exact hi

private theorem sees_iff {s : Dispatched × Exception} (hs : step p a = some (o, p'))
    (hbuilt : ∀ d ∈ p.state.session.ioContext, Built d) (hfront : RestsInFront p.state.session)
    (hsend : p.state.failedSend a = some s) :
    p.state.Sees p'.state s ↔ p.state.failsInClient s.1 = true := by
  obtain ⟨d, x⟩ := s
  obtain ⟨ec, d', rest, rfl, hq, hd, hw, hx⟩ := failedSend_cases hsend
  cases hd
  cases d with
  | hello m =>
    have hnot : ¬ JoinSees x p.state p'.state := not_joinSees hq (step_facts hs).session hw hx
    exact iff_of_false hnot (by simp [failsInClient])
  | ping m =>
    have hbuilt : m = ⟨[.integer 4, .object []]⟩ := hbuilt (.ping m) (hq ▸ List.mem_cons_self)
    subst hbuilt
    exact listenSees_ping_iff hs hq hfront hw hx
  | pingFailed e => cases hx

private theorem ListenSees.calls_step {x : Exception} (hsees : ListenSees x c p.state)
    (hs : Client.step p a = some (o, p')) {i : Nat} (hi : c.listens[i]? = some .waiting) :
    p'.state.listens[i]? = some .waiting ∨
      ∃ r, p'.state.listens[i]? = some (.finished r) ∧ x.IsClassOf r := by
  have hold := hsees.calls i hi
  rw [(step_facts hs).listens]
  cases a with
  | listen =>
    have hlt : i < p.state.listens.length := by
      rcases hold with hw | ⟨r, hr, -⟩
      · exact (List.getElem?_eq_some_iff.mp hw).1
      · exact (List.getElem?_eq_some_iff.mp hr).1
    rw [listensAfter, List.getElem?_append_left hlt]
    exact hold
  | listenReady j =>
    simp only [listensAfter]
    split
    · next r hr =>
      by_cases hj : j = i
      · subst hj
        right
        have hlt := (List.getElem?_eq_some_iff.mp (step_facts hs).enabled.1).1
        exact ⟨_, List.getElem?_set_self hlt, (hsees.promise r hr).map _⟩
      · rw [List.getElem?_set_ne hj]
        exact hold
    · exact hold
  | _ => exact hold

private theorem failure_eq_some {r : Except Exception Bool} (h : c.failure = some r) :
    ∃ text, r = .error (.networkError text) := by
  unfold failure at h
  split at h
  · cases h
    exact ⟨_, rfl⟩
  · cases h

private theorem isClassOf_leaveOffer {x : Exception} {r : Except Exception Bool}
    (hsees : ListenSees x c p.state) (hresult : p.state.session.leaved.result = none)
    (hc : KeepsFailure h p a) (hoffer : p.state.leaveOffer a = some r) : x.IsClassOf r := by
  obtain ⟨r₀, hfailure, hr₀⟩ := hsees.underway hresult
  have hl : p.state.session.leaved.satisfied = false :=
    Promise.satisfied_eq_false.mpr (Promise.result_eq_none.mp hresult)
  have hother : p.state.offersOther a = false := by
    simp only [KeepsFailure, passesOn, hfailure, hl, Option.isSome_some, Bool.not_false,
      Bool.true_and, Bool.and_eq_true, Bool.not_eq_true'] at hc
    exact hc.2
  obtain ⟨text, rfl⟩ := failure_eq_some hfailure
  obtain ⟨e, he, hclass⟩ := hr₀
  cases he
  unfold offersOther at hother
  rw [hoffer] at hother
  split at hother
  · next h => cases h
  · next text' h =>
    cases h
    exact ⟨_, rfl, hclass⟩
  · cases hother

private theorem result_leaved (hs : step p a = some (o, p')) : p'.state.session.leaved.result =
    p.state.session.leaved.result.or (p.state.leaveOffer a) := by
  rw [(step_facts hs).session, leaved_sessionAfter]
  have hhead : (p.state.leaveOffer a).toList.head? = p.state.leaveOffer a := by
    cases p.state.leaveOffer a <;> rfl
  cases a with
  | listen => simp [Promise.result, leaveOffer]
  | _ => simp only [Promise.result, Promise.offerAll, List.head?_append, hhead]

private theorem ListenSees.step {x : Exception} (hsees : ListenSees x c p.state)
    (hc : KeepsFailure h p a) (hfront : RestsInFront p.state.session)
    (hs : Client.step p a = some (o, p')) : ListenSees x c p'.state := by
  have hresult := result_leaved hs
  have hcalls := fun i hi => hsees.calls_step hs (i := i) hi
  cases hold : p.state.session.leaved.result with
  | some r =>
    rw [hold, Option.some_or] at hresult
    refine ⟨?_, by simp [hresult], hcalls⟩
    rw [hresult, ← hold]
    exact hsees.promise
  | none =>
    rw [hold, Option.none_or] at hresult
    cases hoffer : p.state.leaveOffer a with
    | some r =>
      rw [hoffer] at hresult
      refine ⟨?_, by simp [hresult], hcalls⟩
      intro r' hr'
      rw [hresult] at hr'
      cases hr'
      exact isClassOf_leaveOffer hsees hold hc hoffer
    | none =>
      rw [hoffer] at hresult
      refine ⟨by simp [hresult], fun _ => ?_, hcalls⟩
      -- Only the lambda itself is no longer on its way, and it comes to `leaved_`.
      have hunderway := hsees.underway hold
      have hsame : p'.state.failure = p.state.failure := by
        rw [failure_sessionAfter (step_facts hs).session hfront]
        cases a with
        | runDispatched ec =>
          have hnone : p.state.failure = none := hoffer
          rw [hnone] at hunderway
          obtain ⟨r, hr, -⟩ := hunderway
          cases hr
        | _ => rfl
      rw [hsame]
      exact hunderway

private theorem queue_of_run {c₀ : Client} (hstart : c₀.Unbegun) (hr : Run step ⟨c₀, none⟩ h p) :
    (∀ d ∈ p.state.session.ioContext, Built d) ∧ RestsInFront p.state.session := by
  refine hr.invariant (fun _ p => (∀ d ∈ p.state.session.ioContext, Built d) ∧
    RestsInFront p.state.session) ⟨fun d hd => (hstart d hd).1, ?_⟩ ?_
  · exact fun e he => (hstart _ (List.mem_of_mem_tail he)).2 e rfl
  · rintro h p a o p' ⟨hbuilt, hfront⟩ hs
    rw [(step_facts hs).session]
    exact ⟨fun d hd => (mem_ioContext_sessionAfter hd).elim (hbuilt d) id,
      restsInFront_sessionAfter hfront a⟩

private theorem exists_failedSend {c₀ : Client} (hstart : c₀.Unbegun)
    (hr : Run step ⟨c₀, none⟩ h p) : p.state.session.leaved.result = none →
      p.state.failure.isSome = true →
      ∃ f ∈ h, ∃ m x, f.before.state.failedSend f.action = some (.ping m, x) := by
  induction hr with
  | nil =>
    intro _ hfailure
    simp only [failure] at hfailure
    split at hfailure
    · next e _ hq => exact absurd rfl ((hstart _ (hq ▸ List.mem_cons_self)).2 e)
    · cases hfailure
  | @cons h p p' a o hr hs ih =>
    intro hresult hfailure
    rw [result_leaved hs, Option.or_eq_none_iff] at hresult
    have hold : p.state.failure.isSome = true →
        ∃ f ∈ ⟨p, a, o, p'⟩ :: h, ∃ m x,
          f.before.state.failedSend f.action = some (.ping m, x) := by
      intro hfailure
      obtain ⟨f, hf, hsend⟩ := ih hresult.1 hfailure
      exact ⟨f, List.mem_cons_of_mem _ hf, hsend⟩
    rw [failure_sessionAfter (step_facts hs).session (queue_of_run hstart hr).2] at hfailure
    cases a with
    | runDispatched ec =>
      dsimp only at hfailure
      split at hfailure
      · cases hfailure
      · refine ⟨_, List.mem_cons_self, ?_⟩
        have hw : p.state.session.leaved.satisfied = false :=
          Promise.satisfied_eq_false.mpr (Promise.result_eq_none.mp hresult.1)
        simp only [cause, pingError] at hfailure
        split at hfailure
        · next m rest hq =>
          simp only [Option.isSome_map, Session.pingError] at hfailure
          split at hfailure
          · next x hx =>
            have hx : p.state.session.sendOutcome (p.state.net ec) m true = .thrown x := hx
            exact ⟨m, x, by simp [failedSend, hq, Session.callerWaits, hw, Session.sendFailure, hx]⟩
          · cases hfailure
        · cases hfailure
    | _ => exact hold hfailure

private theorem KeepsClass.sees {c₀ : Client} (hk : KeepsClass h)
    (hr : Run step ⟨c₀, none⟩ h p) {f : ClientEntry} (hf : f ∈ h) {s : Dispatched × Exception}
    (hsend : f.before.state.failedSend f.action = some s) :
    f.before.state.Sees p.state s := by
  cases hr with
  | nil => cases hf
  | cons hr hs => exact hk.1 f hf s hsend

private theorem not_listenSees {x : Exception} (hs : step p a = some (o, p'))
    (hsees : ListenSees x c p.state) (hl : p.state.session.leaved.satisfied = false)
    (hother : p.state.offersOther a = true) : ¬ ListenSees x c p'.state := by
  intro hsees'
  have hresult := Promise.result_eq_none.mpr (Promise.satisfied_eq_false.mp hl)
  obtain ⟨r₀, hfailure, hr₀⟩ := hsees.underway hresult
  obtain ⟨text₀, rfl⟩ := failure_eq_some hfailure
  obtain ⟨e₀, he₀, hclass₀⟩ := hr₀
  cases he₀
  unfold offersOther at hother
  split at hother
  · cases hother
  · cases hother
  · next r hnot hoffer =>
    obtain ⟨e, rfl, hclass⟩ := hsees'.promise r (by rw [result_leaved hs, hresult, hoffer]; rfl)
    have hsame : e.SameClass (.networkError text₀) := hclass.trans hclass₀.symm
    cases e with
    | networkError text => exact hnot text rfl
    | _ => cases hsame

end Client
end Barbarossa
