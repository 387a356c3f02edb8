import Barbarossa.Client.Steps

/-!
# The handshake

`Join` waits for the answer to its HELLO. `Phase` says what a handshake is: the HELLO is
handed to the transport, and the first well-formed WELCOME or ABORT after that decides
it. The session follows it only while every answer it accepts arrives in that window,
and what a failed `Join` leaves behind still accepts a WELCOME.
-/

namespace Barbarossa
open Barbarossa.Base

/-- A well-formed WELCOME or ABORT. -/
inductive Answer where
  | welcome (sessionId : UInt32)
  | abort (reason : Bytes)
  deriving DecidableEq

/-- What `Join` yields for an answer. -/
def Answer.result : Answer → Except Exception UInt32
  | .welcome sessionId => .ok sessionId
  | .abort reason => .error (.abortError reason)

/-- The answer a message carries. -/
def Received.answer? : Received → Option Answer
  | .welcome (.ok sessionId) => some (.welcome sessionId)
  | .abort (.ok reason) => some (.abort reason)
  | _ => none

/-- Where a handshake stands. -/
inductive Phase where
  /-- The HELLO was not handed to the transport yet. -/
  | notSent
  /-- The HELLO is out and no well-formed answer has arrived since. -/
  | sent
  /-- The HELLO could not be sent. -/
  | failed (e : Exception)
  /-- The first well-formed answer after the HELLO. -/
  | answered (answer : Answer)
  deriving DecidableEq

namespace Client

/-- The answer an action delivers. -/
def answer? : Action → Option Answer
  | .message _ m _ => m.received.answer?
  | _ => none

/-- How sending a HELLO ended, if the action sends one. -/
def helloOutcome (c : Client) : Action → Option (Outcome Exception Fault PUnit)
  | .runDispatched ec =>
    match c.session.ioContext with
    | .hello m :: rest =>
      if c.session.sessionId = 0 then
        some ({ c.session with ioContext := rest }.sendOutcome (c.net ec) m false)
      else none
    | _ => none
  | _ => none

/-- The handshake after an action. -/
def nextPhase (c : Client) (a : Action) : Phase → Phase
  | .notSent =>
    match c.helloOutcome a with
    | some (.value _) => .sent
    | some (.thrown e) => .failed e
    | _ => .notSent
  | .sent =>
    match answer? a with
    | some answer => .answered answer
    | none => .sent
  | .failed e => .failed e
  | .answered answer => .answered answer

/-- The handshake after a history. -/
def phase : ClientHistory → Phase
  | [] => .notSent
  | e :: h => nextPhase e.before.state e.action (phase h)

/-- A call of `Join` is made. -/
def isJoin : Action → Bool
  | .join _ => true
  | _ => false

/-- The number of calls of `Join`. -/
def joinCount (h : ClientHistory) : Nat := h.countP fun e => isJoin e.action

/-- An answer that the session accepts arrives when the HELLO is out and nothing has answered
it yet. -/
def InTime (h : ClientHistory) (s : Session) : Received → Prop
  | .welcome (.ok _) => s.state = .establishing → phase h = .sent
  | .abort (.ok _) => phase h = .sent
  | _ => True

instance (h : ClientHistory) (s : Session) : (r : Received) → Decidable (InTime h s r)
  | .welcome (.ok _) => inferInstanceAs (Decidable (_ → _))
  | .abort (.ok _) => inferInstanceAs (Decidable (_ = _))
  | .welcome (.error _) | .abort (.error _) | .empty | .refused _ | .pong | .call _ | .ignored =>
    isTrue trivial

/-- Every answer that the session accepts is in time. -/
def AnswersInTime (h : ClientHistory) (p : Process Client Fault) : Action → Prop
  | .message _ m _ => InTime h p.state.session m.received
  | _ => True

instance (h : ClientHistory) (p : Process Client Fault) :
    (a : Action) → Decidable (AnswersInTime h p a)
  | .message _ m _ => inferInstanceAs (Decidable (InTime h p.state.session m.received))
  | .join _ | .joinFuture _ | .joinReady _ | .joinTimeout _ | .leave _ | .leaveDisconnect _
  | .leaveJoined | .listen | .listenReady _ | .registerOperation _ _ | .runDispatched _ | .attach _
  | .detach _ | .transport _ _ | .hearbeat | .hearbeatWoken => isTrue trivial

/-- No step offers a second result to `joined_`, and what `Join` yields, unless it times out, is
the first answer after its HELLO, or the failure to send the HELLO. -/
structure HandshakeOutcome (h : ClientHistory) (p : Process Client Fault) : Prop where
  once : p.state.session.joined.offers.length ≤ 1
  decided : ∀ r, .finished r ∈ p.state.joins → r ≠ .error .timeoutError →
    (∃ answer, phase h = .answered answer ∧ r = answer.result) ∨
      ∃ e, phase h = .failed e ∧ r = .error e.copyException

/-- The number of HELLOs that wait in the io_context. -/
private def hellos (q : List Dispatched) : Nat :=
  q.countP fun
    | .hello _ => true
    | .ping _ | .pingFailed _ => false

/-- The results offered to `joined_` in each phase of a handshake that goes as documented. -/
private def Offered (offers : List (Except Exception UInt32)) : Phase → Prop
  | .notSent | .sent => offers = []
  | .failed e => offers = [.error e.copyException]
  | .answered answer => offers = [] ∨ offers = [answer.result]

/-- The invariant of a run with one `Join` whose answers are in time. -/
private structure Handshaking (h : ClientHistory) (p : Process Client Fault) : Prop where
  one : joinCount h ≤ 1
  calls : p.state.joins.length = joinCount h
  queued : hellos p.state.session.ioContext + (if phase h = .notSent then 0 else 1) ≤ joinCount h
  unjoined : phase h = .notSent → p.state.session.sessionId = 0
  offered : Offered p.state.session.joined.offers (phase h)
  finished : ∀ r, .finished r ∈ p.state.joins →
    r = .error .timeoutError ∨ p.state.session.joined.result = some r
  retrieved : p.state.session.joined.retrieved = true →
    p.state.joins ≠ [] ∧ JoinCall.dispatched ∉ p.state.joins

variable {h : ClientHistory} {p p' : Process Client Fault} {a : Action}
  {o : Outcome Exception Fault PUnit × List Effect}

private theorem nextPhase_of_quiet {c : Client} {a : Action} (q : Phase)
    (hh : c.helloOutcome a = none) (ha : answer? a = none) : c.nextPhase a q = q := by
  cases q with
  | notSent => simp [nextPhase, hh]
  | sent => simp [nextPhase, ha]
  | _ => rfl

/-- A call of `Join` is counted. -/
theorem joinCount_cons (e : ClientEntry) (h : ClientHistory) :
    joinCount (e :: h) = joinCount h + if isJoin e.action then 1 else 0 :=
  List.countP_cons

private theorem Handshaking.of_quiet (hi : Handshaking h p) (hjoin : isJoin a = false)
    (hphase : p.state.nextPhase a (phase h) = phase h ∨
      phase h = .sent ∧ ∃ answer, p.state.nextPhase a (phase h) = .answered answer)
    (hjoins : p'.state.joins = p.state.joins)
    (hq : hellos p'.state.session.ioContext = hellos p.state.session.ioContext)
    (hid : p'.state.session.sessionId = p.state.session.sessionId)
    (hjoined : p'.state.session.joined = p.state.session.joined) :
    Handshaking (⟨p, a, o, p'⟩ :: h) p' := by
  have hcount : joinCount (⟨p, a, o, p'⟩ :: h) = joinCount h := by simp [joinCount_cons, hjoin]
  have hp : phase (⟨p, a, o, p'⟩ :: h) = p.state.nextPhase a (phase h) := rfl
  have hqueued := hi.queued
  have hoffered := hi.offered
  constructor
  · rw [hcount]; exact hi.one
  · rw [hcount, hjoins]; exact hi.calls
  · rw [hcount, hp, hq]
    rcases hphase with he | ⟨hsent, answer, he⟩
    · rwa [he]
    · rw [hsent] at hqueued
      rwa [he]
  · rw [hp, hid]
    rcases hphase with he | ⟨hsent, answer, he⟩
    · rw [he]; exact hi.unjoined
    · rw [he]
      intro hn
      cases hn
  · rw [hp, hjoined]
    rcases hphase with he | ⟨hsent, answer, he⟩
    · rwa [he]
    · rw [hsent] at hoffered
      rw [he]
      exact .inl hoffered
  · rw [hjoins, hjoined]; exact hi.finished
  · rw [hjoins, hjoined]; exact hi.retrieved

private theorem Handshaking.of_offer {r : Except Exception UInt32} (hi : Handshaking h p)
    (hopen : p.state.session.joined.offers = [])
    (hjoin : isJoin a = false) (hphase : p.state.nextPhase a (phase h) ≠ .notSent)
    (hoffered : Offered [r] (p.state.nextPhase a (phase h)))
    (hjoins : p'.state.joins = p.state.joins)
    (hq : hellos p'.state.session.ioContext + 1 ≤ joinCount h)
    (hjoined : p'.state.session.joined = p.state.session.joined.offer r) :
    Handshaking (⟨p, a, o, p'⟩ :: h) p' := by
  have hcount : joinCount (⟨p, a, o, p'⟩ :: h) = joinCount h := by simp [joinCount_cons, hjoin]
  have hp : phase (⟨p, a, o, p'⟩ :: h) = p.state.nextPhase a (phase h) := rfl
  constructor
  · rw [hcount]; exact hi.one
  · rw [hcount, hjoins]; exact hi.calls
  · rw [hcount, hp, if_neg hphase]; exact hq
  · rw [hp]; exact fun hn => absurd hn hphase
  · rw [hp, hjoined, Promise.offers_offer, hopen]; exact hoffered
  · intro r' hr'
    rw [hjoins] at hr'
    refine (hi.finished r' hr').imp_right fun hres => ?_
    rw [hjoined]
    exact Promise.result_offer_of_satisfied hres
  · rw [hjoins, hjoined, Promise.retrieved_offer]; exact hi.retrieved

private theorem handshaking_join {realm : Bytes} (hi : Handshaking h p)
    (hs : step p (.join realm) = some (o, p')) (hone : joinCount h = 0) :
    Handshaking (⟨p, .join realm, o, p'⟩ :: h) p' := by
  have hf := step_facts hs
  have hcalls := hi.calls
  have hqueued := hi.queued
  rw [hone] at hcalls hqueued
  have hjoins : p.state.joins = [] := List.length_eq_zero_iff.mp hcalls
  have hp : phase h = .notSent := by
    by_contra hne
    rw [if_neg hne] at hqueued
    omega
  have hcount : joinCount (⟨p, .join realm, o, p'⟩ :: h) = 1 := by
    simp [joinCount_cons, hone, isJoin]
  have hphase : phase (⟨p, .join realm, o, p'⟩ :: h) = .notSent := by
    change p.state.nextPhase (.join realm) (phase h) = _
    rw [nextPhase_of_quiet _ rfl rfl, hp]
  have hoffers := hi.offered
  rw [hp] at hoffers
  have hretrieved : p.state.session.joined.retrieved = false := by
    by_contra hne
    exact (hi.retrieved (by simpa using hne)).1 hjoins
  have hq : hellos p.state.session.ioContext = 0 := by omega
  constructor
  · rw [hcount]
  · rw [hcount, hf.joins]; simp [joinsAfter, hjoins]
  · rw [hcount, hphase, hf.session]
    have : hellos (p.state.session.ioContext ++ [.hello ⟨[.integer 1, .string realm]⟩]) = 1 := by
      unfold hellos at hq ⊢
      rw [List.countP_append, hq]
      rfl
    simp [sessionAfter, this]
  · rw [hf.session]; exact fun _ => hi.unjoined hp
  · rw [hphase, hf.session]; exact hoffers
  · rw [hf.joins]; simp [joinsAfter, hjoins]
  · rw [hf.session]
    intro hr
    simp only [sessionAfter, hretrieved] at hr
    cases hr

private theorem handshaking_joinFuture {i : Nat} (hi : Handshaking h p)
    (hs : step p (.joinFuture i) = some (o, p')) :
    Handshaking (⟨p, .joinFuture i, o, p'⟩ :: h) p' := by
  have hf := step_facts hs
  have hen : p.state.joins[i]? = some .dispatched := hf.enabled
  have hmem := List.mem_of_getElem? hen
  have hretrieved : p.state.session.joined.retrieved = false := by
    by_contra hne
    exact (hi.retrieved (by simpa using hne)).2 hmem
  have hcount : joinCount (⟨p, .joinFuture i, o, p'⟩ :: h) = joinCount h := by
    simp [joinCount_cons, isJoin]
  have hphase : phase (⟨p, .joinFuture i, o, p'⟩ :: h) = phase h := nextPhase_of_quiet _ rfl rfl
  have hjoins : p'.state.joins = p.state.joins.set i .waiting := by
    rw [hf.joins]; simp [joinsAfter, hretrieved]
  have hres : p'.state.session.joined.result = p.state.session.joined.result := by
    rw [hf.session]; rfl
  -- There is one call of `Join`, and it is the one that took the future.
  have hsingle : p.state.joins = [.dispatched] := by
    have hlen := hi.calls
    have hone := hi.one
    have hpos := List.length_pos_of_mem hmem
    obtain ⟨c, hc⟩ := List.length_eq_one_iff.mp (show p.state.joins.length = 1 by omega)
    rw [hc] at hmem ⊢
    rw [List.mem_singleton.mp hmem]
  have hzero : i = 0 := by
    rw [hsingle] at hen
    cases i with
    | zero => rfl
    | succ i => simp at hen
  constructor
  · rw [hcount]; exact hi.one
  · rw [hcount, hjoins, List.length_set]; exact hi.calls
  · rw [hcount, hphase, hf.session]; exact hi.queued
  · rw [hphase, hf.session]; exact hi.unjoined
  · rw [hphase, hf.session]; exact hi.offered
  · intro r hr
    rw [hjoins, hsingle, hzero] at hr
    simp at hr
  · rw [hjoins, hsingle, hzero]
    exact fun _ => by simp

private theorem Handshaking.of_finish {i : Nat} {r : Except Exception UInt32}
    (hi : Handshaking h p) (hjoin : isJoin a = false)
    (hphase : p.state.nextPhase a (phase h) = phase h)
    (hjoins : p'.state.joins = p.state.joins.set i (.finished r))
    (hr : r = .error .timeoutError ∨ p.state.session.joined.result = some r)
    (hsession : p'.state.session = p.state.session) :
    Handshaking (⟨p, a, o, p'⟩ :: h) p' := by
  have hcount : joinCount (⟨p, a, o, p'⟩ :: h) = joinCount h := by simp [joinCount_cons, hjoin]
  have hp : phase (⟨p, a, o, p'⟩ :: h) = phase h := hphase
  constructor
  · rw [hcount]; exact hi.one
  · rw [hcount, hjoins, List.length_set]; exact hi.calls
  · rw [hcount, hp, hsession]; exact hi.queued
  · rw [hp, hsession]; exact hi.unjoined
  · rw [hp, hsession]; exact hi.offered
  · intro r' hr'
    rw [hjoins] at hr'
    rw [hsession]
    rcases List.mem_or_eq_of_mem_set hr' with hold | hnew
    · exact hi.finished r' hold
    · cases hnew
      exact hr
  · rw [hsession, hjoins]
    intro hret
    obtain ⟨hne, hnot⟩ := hi.retrieved hret
    refine ⟨by simpa using hne, fun hmem => ?_⟩
    rcases List.mem_or_eq_of_mem_set hmem with hold | hnew
    · exact hnot hold
    · cases hnew

private theorem Handshaking.open_of_sent (hi : Handshaking h p) (hp : phase h = .sent) :
    p.state.session.joined.offers = [] := by
  have := hi.offered
  rwa [hp] at this

private theorem Handshaking.queued_of_sent (hi : Handshaking h p) (hp : phase h = .sent) :
    hellos p.state.session.ioContext + 1 ≤ joinCount h := by
  have := hi.queued
  rwa [hp] at this

private theorem nextPhase_message (c : Client) (t : TransportId) (m : Message) (ec : Option Bytes)
    (q : Phase) : c.nextPhase (.message t m ec) q = q ∨
      q = .sent ∧ ∃ answer, c.nextPhase (.message t m ec) q = .answered answer := by
  cases q with
  | sent =>
    simp only [nextPhase]
    cases answer? (.message t m ec) with
    | none => exact .inl rfl
    | some answer => exact .inr ⟨trivial, answer, rfl⟩
  | _ => exact .inl rfl

private theorem nextPhase_of_offer {t : TransportId} {m : Message} {ec : Option Bytes}
    {x : Except Exception UInt32}
    (hc : AnswersInTime h p (.message t m ec))
    (hx : p.state.session.joinOffer m.received = some x) :
    phase h = .sent ∧
      ∃ answer, p.state.nextPhase (.message t m ec) .sent = .answered answer ∧
        x = answer.result := by
  replace hc : InTime h p.state.session m.received := hc
  simp only [nextPhase, answer?]
  cases hr : m.received with
  | welcome sessionId =>
    rw [hr] at hc hx
    cases sessionId with
    | error e => simp [Session.joinOffer] at hx
    | ok id =>
      simp only [Session.joinOffer, Option.ite_none_right_eq_some, Option.some.injEq] at hx
      obtain ⟨⟨hs, -⟩, rfl⟩ := hx
      exact ⟨hc hs, .welcome id, rfl, rfl⟩
  | abort reason =>
    rw [hr] at hc hx
    cases reason with
    | error e => simp [Session.joinOffer] at hx
    | ok reason =>
      simp only [Session.joinOffer, Option.some.injEq] at hx
      exact ⟨hc, .abort reason, rfl, hx.symm⟩
  | _ => rw [hr] at hx; simp [Session.joinOffer] at hx

private theorem handshaking_message {t : TransportId} {m : Message} {ec : Option Bytes}
    (hi : Handshaking h p)
    (hs : step p (.message t m ec) = some (o, p'))
    (hc : AnswersInTime h p (.message t m ec)) :
    Handshaking (⟨p, .message t m ec, o, p'⟩ :: h) p' := by
  have hf := step_facts hs
  have hsession : p'.state.session = p.state.session.after m.received := hf.session
  have hjoins : p'.state.joins = p.state.joins := hf.joins
  cases hx : p.state.session.joinOffer m.received with
  | none =>
    obtain ⟨hjoined, hid⟩ := Session.after_of_no_offer hx
    refine hi.of_quiet rfl (nextPhase_message _ _ _ _ _) hjoins ?_ ?_ ?_
    · rw [hsession]; simp
    · rw [hsession, hid]
    · rw [hsession, hjoined]
  | some x =>
    obtain ⟨hp, answer, hnext, rfl⟩ := nextPhase_of_offer hc hx
    refine hi.of_offer (r := answer.result) (hi.open_of_sent hp) rfl ?_ ?_ hjoins ?_ ?_
    · rw [hp, hnext]; simp
    · rw [hp, hnext]; exact .inr rfl
    · rw [hsession]; simpa using hi.queued_of_sent hp
    · rw [hsession, Session.after_of_offer hx]

private theorem Handshaking.notSent_of_queued {m : Message} {rest : List Dispatched}
    (hi : Handshaking h p) (hq : p.state.session.ioContext = .hello m :: rest) :
    phase h = .notSent ∧ hellos rest + 1 ≤ joinCount h := by
  have hqueued := hi.queued
  have hone := hi.one
  have hcons : hellos (.hello m :: rest) = hellos rest + 1 := by simp [hellos]
  rw [hq, hcons] at hqueued
  constructor
  · by_contra hne
    rw [if_neg hne] at hqueued
    omega
  · omega

private theorem Handshaking.of_sent (hi : Handshaking h p) (hjoin : isJoin a = false)
    (hp : phase h = .notSent) (hnext : p.state.nextPhase a (phase h) = .sent)
    (hjoins : p'.state.joins = p.state.joins)
    (hq : hellos p'.state.session.ioContext + 1 ≤ joinCount h)
    (hjoined : p'.state.session.joined = p.state.session.joined) :
    Handshaking (⟨p, a, o, p'⟩ :: h) p' := by
  have hcount : joinCount (⟨p, a, o, p'⟩ :: h) = joinCount h := by simp [joinCount_cons, hjoin]
  have hphase : phase (⟨p, a, o, p'⟩ :: h) = .sent := hnext
  have hoffered := hi.offered
  rw [hp] at hoffered
  constructor
  · rw [hcount]; exact hi.one
  · rw [hcount, hjoins]; exact hi.calls
  · rw [hcount, hphase, if_neg (by decide)]; exact hq
  · rw [hphase]
    intro hn
    cases hn
  · rw [hphase, hjoined]; exact hoffered
  · rw [hjoins, hjoined]; exact hi.finished
  · rw [hjoins, hjoined]; exact hi.retrieved

private theorem handshaking_runDispatched {ec : Option Bytes} (hi : Handshaking h p)
    (hs : step p (.runDispatched ec) = some (o, p')) :
    Handshaking (⟨p, .runDispatched ec, o, p'⟩ :: h) p' := by
  have hf := step_facts hs
  have hjoins : p'.state.joins = p.state.joins := hf.joins
  have hsession := hf.session
  simp only [sessionAfter] at hsession
  cases hq : p.state.session.ioContext with
  | nil => exact absurd hq hf.enabled
  | cons d rest =>
    rw [hq] at hsession
    cases d with
    | ping m =>
      have hphase : p.state.nextPhase (.runDispatched ec) (phase h) = phase h :=
        nextPhase_of_quiet _ (by simp [helloOutcome, hq]) rfl
      refine hi.of_quiet rfl (.inl hphase) hjoins ?_ ?_ ?_
      · rcases Session.afterPing_ioContext (p.state.net ec) m
            { p.state.session with ioContext := rest } with hsame | ⟨e, -, hrest⟩
        · rw [hsession, hsame, hq]; simp [hellos]
        · rw [hsession, hrest, hq]; simp [hellos]
      · rw [hsession]; simp
      · rw [hsession]; simp
    | pingFailed e =>
      have hphase : p.state.nextPhase (.runDispatched ec) (phase h) = phase h :=
        nextPhase_of_quiet _ (by simp [helloOutcome, hq]) rfl
      refine hi.of_quiet rfl (.inl hphase) hjoins ?_ ?_ ?_
      · rw [hsession, hq]; simp [hellos]
      · rw [hsession]
      · rw [hsession]
    | hello m =>
      obtain ⟨hp, hqueued⟩ := hi.notSent_of_queued hq
      have hid := hi.unjoined hp
      dsimp only at hsession
      have hout : p.state.helloOutcome (.runDispatched ec) =
          some ({ p.state.session with ioContext := rest }.sendOutcome
            (p.state.net ec) m false) := by
        simp only [helloOutcome, hq, hid, ite_true]
      rcases { p.state.session with ioContext := rest }.sendOutcome_cases (p.state.net ec) m false
        with hv | ⟨e, he, -⟩
      · rw [Session.afterHello_of_value (s := { p.state.session with ioContext := rest }) hid hv]
          at hsession
        rw [hv] at hout
        apply hi.of_sent rfl hp _ hjoins
        · rw [hsession]; exact hqueued
        · rw [hsession]
        · rw [hp]
          simp only [nextPhase, hout]
      · rw [Session.afterHello_of_thrown (s := { p.state.session with ioContext := rest }) hid he]
          at hsession
        rw [he] at hout
        have hnext : p.state.nextPhase (.runDispatched ec) (phase h) = .failed e := by
          rw [hp]
          simp only [nextPhase, hout]
        have hoffers := hi.offered
        rw [hp] at hoffers
        refine hi.of_offer (r := .error e.copyException) hoffers rfl ?_ ?_ hjoins ?_ ?_
        · rw [hnext]; simp
        · rw [hnext]; rfl
        · rw [hsession]; exact hqueued
        · rw [hsession]

private theorem handshaking_step (hi : Handshaking h p)
    (hs : step p a = some (o, p')) (hone : isJoin a = true → joinCount h = 0)
    (hc : AnswersInTime h p a) : Handshaking (⟨p, a, o, p'⟩ :: h) p' := by
  have hf := step_facts hs
  have hsession := hf.session
  have hjoins := hf.joins
  cases a with
  | join realm => exact handshaking_join hi hs (hone rfl)
  | joinFuture i => exact handshaking_joinFuture hi hs
  | joinReady i =>
    have hen : p.state.joins[i]? = some .waiting ∧ p.state.session.joined.offers ≠ [] := hf.enabled
    cases hres : p.state.session.joined.result with
    | none => exact absurd (Promise.result_eq_none.mp hres) hen.2
    | some r =>
      simp only [joinsAfter, hres] at hjoins
      exact hi.of_finish rfl (nextPhase_of_quiet _ rfl rfl) hjoins (.inr hres) hsession
  | joinTimeout i =>
    exact hi.of_finish rfl (nextPhase_of_quiet _ rfl rfl) hjoins (.inl rfl) hsession
  | message t m ec => exact handshaking_message hi hs hc
  | runDispatched ec => exact handshaking_runDispatched hi hs
  | hearbeat =>
    refine hi.of_quiet rfl (.inl (nextPhase_of_quiet _ rfl rfl)) hjoins ?_ ?_ ?_
    · rw [hsession]
      simp only [sessionAfter, Session.afterHearbeat_ioContext]
      split <;> simp [hellos]
    · rw [hsession]; simp [sessionAfter]
    · rw [hsession]; simp [sessionAfter]
  | attach t | detach t =>
    refine hi.of_quiet rfl (.inl (nextPhase_of_quiet _ rfl rfl)) hjoins ?_ ?_ ?_ <;>
    · rw [hsession]
      simp only [sessionAfter]
      split <;> rfl
  | _ =>
    refine hi.of_quiet rfl (.inl (nextPhase_of_quiet _ rfl rfl)) hjoins ?_ ?_ ?_ <;>
    · rw [hsession]
      rfl

private theorem Handshaking.outcome (hi : Handshaking h p) : HandshakeOutcome h p := by
  have hoffered := hi.offered
  constructor
  · cases hp : phase h with
    | notSent | sent =>
      rw [hp] at hoffered
      rw [show p.state.session.joined.offers = [] from hoffered]
      simp
    | failed e =>
      rw [hp] at hoffered
      rw [show p.state.session.joined.offers = [_] from hoffered]
      simp
    | answered answer =>
      rw [hp] at hoffered
      rcases hoffered with he | he <;> rw [he] <;> simp
  · intro r hr htimeout
    have hres : p.state.session.joined.result = some r := by
      rcases hi.finished r hr with he | he
      · exact absurd he htimeout
      · exact he
    unfold Promise.result at hres
    cases hp : phase h with
    | notSent | sent =>
      rw [hp] at hoffered
      rw [show p.state.session.joined.offers = [] from hoffered] at hres
      cases hres
    | failed e =>
      rw [hp] at hoffered
      rw [show p.state.session.joined.offers = [_] from hoffered] at hres
      cases hres
      exact .inr ⟨e, rfl, rfl⟩
    | answered answer =>
      rw [hp] at hoffered
      rcases hoffered with he | he
      · rw [he] at hres
        cases hres
      · rw [he] at hres
        cases hres
        exact .inl ⟨answer, rfl, rfl⟩

private theorem handshaking_init : Handshaking [] init := by
  constructor
  · exact Nat.zero_le 1
  · rfl
  · exact Nat.le_refl 0
  · exact fun _ => rfl
  · rfl
  · intro r hr
    cases hr
  · intro hr
    cases hr

/-- With at most one call of `Join`, every call is the first. -/
theorem meets_first_join {h : ClientHistory} (hone : joinCount h ≤ 1) :
    Meets (fun h _ a => isJoin a = true → joinCount h = 0) h := by
  induction h with
  | nil => trivial
  | cons e h ih =>
    rw [joinCount_cons] at hone
    refine ⟨fun hj => ?_, ih (by omega)⟩
    rw [if_pos hj] at hone
    omega

/-- In every run with one `Join` whose answers are in time, the first answer after the HELLO
decides the result of `Join`, and `joined_` is never offered a second one. -/
theorem handshake_outcome {h : ClientHistory} {p : Process Client Fault} (hr : ClientRun h p)
    (hone : joinCount h ≤ 1) (hm : Meets AnswersInTime h) : HandshakeOutcome h p := by
  apply Handshaking.outcome
  apply hr.invariant_of_meets
    (fun h p a => (isJoin a = true → joinCount h = 0) ∧ AnswersInTime h p a) Handshaking
  · exact handshaking_init
  · intro h p a o p' hi hc hs
    exact handshaking_step hi hs hc.1 hc.2
  · exact (meets_first_join hone).and hm

/-- A run in which a WELCOME answers the HELLO and `Join` returns its id. -/
theorem handshake_outcome_welcome : ∃ h p, ClientRun h p ∧ HandshakeOutcome h p ∧
    JoinCall.finished (.ok 7) ∈ p.state.joins := by
  obtain ⟨h, p, hr, hc⟩ := exists_run_of_replay step init
    [.attach 0, .transport 0 .onClientOpen, .join (utf8 "realm"), .joinFuture 0,
      .runDispatched none, .message 0 ⟨[.integer 2, .integer 7]⟩ none, .joinReady 0]
    (fun h p => decide (joinCount h ≤ 1) && decide (Meets AnswersInTime h) &&
      decide (JoinCall.finished (.ok 7) ∈ p.state.joins)) (by decide)
  simp only [Bool.and_eq_true, decide_eq_true_eq] at hc
  exact ⟨h, p, hr, handshake_outcome hr hc.1.1 hc.1.2, hc.2⟩

/-- An ABORT that arrives before `Join` is called decides the result of `Join`. -/
theorem not_handshake_outcome :
    ¬ ∀ h p, ClientRun h p → joinCount h ≤ 1 → HandshakeOutcome h p := by
  intro hall
  obtain ⟨h, p, hr, hc⟩ := exists_run_of_replay step init
    [.attach 0, .transport 0 .onClientOpen, .message 0 ⟨[.integer 3, .string (utf8 "no")]⟩ none,
      .join (utf8 "realm"), .joinFuture 0, .runDispatched none, .joinReady 0]
    (fun h p => decide (joinCount h ≤ 1) && decide (phase h = .sent) &&
      decide (JoinCall.finished (.error (.abortError (utf8 "no"))) ∈ p.state.joins)) (by decide)
  simp only [Bool.and_eq_true, decide_eq_true_eq] at hc
  obtain ⟨⟨hone, hp⟩, hj⟩ := hc
  rcases (hall h p hr hone).decided _ hj (by simp) with ⟨answer, ha, -⟩ | ⟨e, he, -⟩
  · rw [hp] at ha
    cases ha
  · rw [hp] at he
    cases he

end Client
end Barbarossa
