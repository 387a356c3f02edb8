import Barbarossa.Client.Identity
import Barbarossa.Client.Heartbeat

/-!
# Integers in messages

`get<T>` casts without a check, so a number outside the target type, a fraction or a boolean
becomes another integer: as a tag it picks another handler, in a WELCOME it becomes another
session id, and in a CALL the reply echoes another request id. What a message has to hold so
that none of this happens is stated here: for a message and the session it meets, for a message in
any session, and for whole runs.
-/

namespace Barbarossa
open Barbarossa.Base

/-- The type of the messages whose handler reads an id. -/
def Received.typeOf? : Received → Option MessageType
  | .welcome _ => some .welcome
  | .call _ => some .call
  | _ => none

namespace Message

/-- Field `i` denotes the integer `n`. -/
def holds (m : Message) (i : Nat) (n : Int) : Prop :=
  ∃ j, m.fields[i]? = some j ∧ j.number? = some (n : Rat)

/-- The id that the handler of a message type uses is an integer of the type it is read as. The one
of a WELCOME is used by a session that `joins`, the one of a CALL by a session that `serves` its
operation. -/
def idIntegral (joins : Bool) (serves : Bytes → Bool) : Option MessageType → List Json → Bool
  | some .welcome, sessionId :: _ => !joins || sessionId.integralIn 0 4294967295
  | some .call, requestId :: .string operation :: _ :: _ =>
    !serves operation || requestId.integralIn (-2147483648) 2147483647
  | _, _ => true

/-- Every integer that is used of the message is one of the type it is read as. -/
def usesIntegers (m : Message) (joins : Bool) (serves : Bytes → Bool) : Bool :=
  match m.fields with
  | [] => true
  | tag :: fields => tag.integralIn (-2147483648) 2147483647 &&
    idIntegral joins serves (tag.toInt32?.bind MessageType.ofInt32?) fields

/-- Every integer that is read of the message is one of the type it is read as. -/
def readsIntegers (m : Message) : Bool := m.usesIntegers true fun _ => true

variable {m : Message} {i : Nat} {joins : Bool} {serves : Bytes → Bool}

private theorem fieldAs_exact_iff {α : Type} {get : Json → Option α} {value : α → Int} :
    (∀ n, m.fieldAs get i = .ok n → m.holds i (value n)) ↔
      ∀ j, m.fields[i]? = some j → ∀ n, get j = some n → j.number? = some (value n : Rat) := by
  constructor
  · intro hexact j hj n hn
    obtain ⟨k, hk, hnumber⟩ := hexact n (fieldAs_eq_ok.mpr ⟨j, hj, hn⟩)
    rw [hj] at hk
    cases hk
    exact hnumber
  · intro hexact n hn
    obtain ⟨j, hj, hjn⟩ := fieldAs_eq_ok.mp hn
    exact ⟨j, hj, hexact j hj n hjn⟩

/-- When `Field<int32_t>` reads exactly. -/
theorem fieldInt32_exact_iff : (∀ n, m.fieldInt32 i = .ok n → m.holds i n.toInt) ↔
    ∀ j, m.fields[i]? = some j → j.integralIn (-2147483648) 2147483647 = true := by
  rw [fieldInt32, fieldAs_exact_iff]
  simp only [Json.reads_int32_iff]

/-- When `Field<uint32_t>` reads exactly. -/
theorem fieldUInt32_exact_iff : (∀ n, m.fieldUInt32 i = .ok n → m.holds i n.toNat) ↔
    ∀ j, m.fields[i]? = some j → j.integralIn 0 4294967295 = true := by
  rw [fieldUInt32, fieldAs_exact_iff]
  simp only [Json.reads_uint32_iff]

private theorem sessionId_exact_iff :
    (∀ sessionId, m.fieldUInt32 1 = .ok sessionId → joins = true → m.holds 1 sessionId.toNat) ↔
      ∀ sessionId, m.fields[1]? = some sessionId → joins = true →
        sessionId.integralIn 0 4294967295 = true := by
  cases joins with
  | false => simp
  | true =>
    simp only [forall_const]
    exact fieldUInt32_exact_iff

/-- When the request id of a CALL that can be read is read exactly where it is used. -/
theorem callRequest_exact_iff :
    (∀ r, m.callRequest = .ok r → serves r.operation = true → m.holds 1 r.requestId.toInt) ↔
      ∀ requestId operation arguments, m.fields[1]? = some requestId →
        m.fields[2]? = some (.string operation) → m.fields[3]? = some arguments →
        serves operation = true → requestId.integralIn (-2147483648) 2147483647 = true := by
  constructor
  · intro hexact requestId operation arguments hid hop hargs hserves
    apply fieldInt32_exact_iff.mp _ requestId hid
    intro n hn
    apply hexact ⟨n, operation, arguments⟩ _ hserves
    exact callRequest_eq_ok.mpr ⟨fieldAs_eq_ok.mp hn, hop, hargs⟩
  · intro hin r hr hserves
    obtain ⟨hid, hop, hargs⟩ := callRequest_eq_ok.mp hr
    apply fieldInt32_exact_iff.mpr _ r.requestId (fieldAs_eq_ok.mpr hid)
    intro j hj
    exact hin j _ _ hj hop hargs hserves

/-- The integers that are used of a message are the ones it holds. -/
structure ReadsExactly (joins : Bool) (serves : Bytes → Bool) (m : Message) : Prop where
  tag : ∀ tag, m.fieldInt32 0 = .ok tag → m.holds 0 tag.toInt
  sessionId : ∀ sessionId, m.received = .welcome (.ok sessionId) → joins = true →
    m.holds 1 sessionId.toNat
  requestId : ∀ r, m.received = .call (.ok r) → serves r.operation = true →
    m.holds 1 r.requestId.toInt

private theorem idIntegral_iff (tag : Json) (fields : List Json) :
    (∀ sessionId, received ⟨tag :: fields⟩ = .welcome (.ok sessionId) → joins = true →
        holds ⟨tag :: fields⟩ 1 sessionId.toNat) ∧
      (∀ r, received ⟨tag :: fields⟩ = .call (.ok r) → serves r.operation = true →
        holds ⟨tag :: fields⟩ 1 r.requestId.toInt) ↔
      idIntegral joins serves (tag.toInt32?.bind MessageType.ofInt32?) fields = true := by
  rw [received_cons]
  cases tag.toInt32? with
  | none => simp [idIntegral]
  | some n =>
    simp only [Option.bind_some]
    cases MessageType.ofInt32? n with
    | none => simp [idIntegral]
    | some t =>
      cases t with
      | welcome =>
        simp only [Received.welcome.injEq, reduceCtorEq, false_implies, implies_true, and_true]
        rw [sessionId_exact_iff]
        cases fields <;> cases joins <;> simp [idIntegral]
      | call =>
        simp only [Received.call.injEq, reduceCtorEq, false_implies, implies_true, true_and]
        rw [callRequest_exact_iff]
        rcases fields with - | ⟨requestId, - | ⟨operation, - | ⟨arguments, rest⟩⟩⟩
        · simp [idIntegral]
        · simp [idIntegral]
        · cases operation <;> simp [idIntegral]
        · cases operation with
          | string operation => cases hserves : serves operation <;> simp [idIntegral, hserves]
          | _ => simp [idIntegral]
      | _ => simp [idIntegral]

/-- A message is read exactly where it is used when every integer that is used of it is one of the
type. -/
theorem readsExactly_iff (m : Message) :
    ReadsExactly joins serves m ↔ m.usesIntegers joins serves = true := by
  obtain ⟨fields⟩ := m
  cases fields with
  | nil =>
    simp only [usesIntegers, iff_true]
    constructor
    · intro tag htag
      cases htag
    · intro sessionId hr
      cases hr
    · intro r hr
      cases hr
  | cons tag fields =>
    have htag : (∀ n, fieldInt32 ⟨tag :: fields⟩ 0 = .ok n → holds ⟨tag :: fields⟩ 0 n.toInt) ↔
        tag.integralIn (-2147483648) 2147483647 = true := by
      rw [fieldInt32_exact_iff]
      simp
    unfold usesIntegers
    rw [Bool.and_eq_true, ← htag, ← idIntegral_iff]
    constructor
    · exact fun h => ⟨h.tag, h.sessionId, h.requestId⟩
    · exact fun h => ⟨h.1, h.2.1, h.2.2⟩

private theorem type_of_holds {t : MessageType} (h : m.holds 0 t.toInt) : ∃ tag fields n,
    m = ⟨tag :: fields⟩ ∧ tag.toInt32? = some n ∧ MessageType.ofInt32? n = some t := by
  obtain ⟨tag, htag, hnumber⟩ := h
  obtain ⟨_ | ⟨tag', fields⟩⟩ := m
  · cases htag
  · cases htag
    refine ⟨tag, fields, Int32.ofInt t.toInt, rfl, ?_, t.ofInt32?_toInt⟩
    rw [Json.toInt32?, Json.toNumber?_of_number? hnumber]
    rfl

private theorem received_of_welcome (h : m.holds 0 2) :
    m.received = .welcome (m.fieldUInt32 1) := by
  obtain ⟨tag, fields, n, rfl, hn, ht⟩ := type_of_holds (t := .welcome) h
  rw [received_cons]
  simp only [hn, ht]

private theorem received_of_call (h : m.holds 0 10) : m.received = .call m.callRequest := by
  obtain ⟨tag, fields, n, rfl, hn, ht⟩ := type_of_holds (t := .call) h
  rw [received_cons]
  simp only [hn, ht]

private theorem tag_of_received {t : MessageType} (h : m.received.typeOf? = some t) :
    ∃ tag, m.fieldInt32 0 = .ok tag ∧ MessageType.ofInt32? tag = some t := by
  unfold received at h
  split at h
  · cases h
  · split at h
    · cases h
    · next tag htag =>
      split at h
      case h_2 ht =>
        cases h
        exact ⟨tag, htag, ht⟩
      case h_6 ht =>
        cases h
        exact ⟨tag, htag, ht⟩
      all_goals cases h

/-- A message whose tag is read exactly and whose handler reads an id is of the handler's type. -/
theorem holds_of_tag {t : MessageType} (h : ∀ tag, m.fieldInt32 0 = .ok tag → m.holds 0 tag.toInt)
    (ht : m.received.typeOf? = some t) : m.holds 0 t.toInt := by
  obtain ⟨tag, htag, htype⟩ := tag_of_received ht
  rw [← MessageType.toInt_of_ofInt32? htype]
  exact h tag htag

/-- A WELCOME that is read exactly has type 2. -/
theorem ReadsExactly.welcome {sessionId : Except Exception UInt32}
    (h : ReadsExactly joins serves m) (hr : m.received = .welcome sessionId) : m.holds 0 2 :=
  holds_of_tag (t := .welcome) h.tag (by rw [hr]; rfl)

end Message

namespace Session

/-- The request id that a RESULT or an ERROR for a CALL echoes. -/
def replyId? : List Json → Option Int
  | [.integer 11, .integer requestId, _] => some requestId
  | [.integer 9, .integer 10, .integer requestId, _, _] => some requestId
  | _ => none

/-- The session comes to the id of a WELCOME. -/
def joins (s : Session) : Bool := decide (s.state = .establishing) && s.hearbeatThread.isNone

/-- The session invokes the operation of a CALL, or can reply that there is none. -/
def serves (net : Net) (s : Session) (operation : Bytes) : Bool :=
  (s.operations operation).isSome || s.transport.any net.isConnected && decide (s.sessionId ≠ 0)

/-- In the session that a message meets, the integers that are used of it are the ones it holds, and
a message that holds no such integer is refused. -/
structure IntegersExact (net : Net) (s : Session) (m : Message) : Prop where
  tag : ∀ tag, m.fieldInt32 0 = .ok tag → m.holds 0 tag.toInt
  stored : (onMessage net m s).state.sessionId = s.sessionId ∨
    m.holds 1 (onMessage net m s).state.sessionId.toNat
  offered : ∀ sessionId, (onMessage net m s).state.joined.offers =
    s.joined.offers ++ [.ok sessionId] → m.holds 1 sessionId.toNat
  echoed : ∀ t frame ec, .send t frame ec ∈ (onMessage net m s).output →
    ∃ requestId, replyId? frame = some requestId ∧ m.holds 1 requestId
  refusedTag : m.fields ≠ [] → (∀ n : Int32, ¬ m.holds 0 n.toInt) →
    ∃ e, onMessage net m s = ⟨.thrown e, s, []⟩
  refusedSessionId : m.holds 0 2 → (∀ n : UInt32, ¬ m.holds 1 n.toNat) →
    (onMessage net m s).outcome ≠ .value ⟨⟩ ∧
      (onMessage net m s).state.sessionId = s.sessionId ∧
      (onMessage net m s).state.joined = s.joined
  refusedRequestId : m.holds 0 10 → (∀ n : Int32, ¬ m.holds 1 n.toInt) →
    ∃ e, onMessage net m s = ⟨.thrown e, s, []⟩

variable {net : Net} {s : Session} {m : Message} {joins : Bool} {serves : Bytes → Bool}

private theorem refused_of_tag (h : m.ReadsExactly joins serves) (hne : m.fields ≠ [])
    (hno : ∀ n : Int32, ¬ m.holds 0 n.toInt) (net : Net) (s : Session) :
    onMessage net m s = ⟨.thrown (.typeError 302), s, []⟩ := by
  obtain ⟨_ | ⟨tag, fields⟩⟩ := m
  · exact absurd rfl hne
  · cases ht : tag.toInt32? with
    | none =>
      rw [onMessage_eq, Message.received_cons, ht]
      rfl
    | some n =>
      have htag := h.tag n
      rw [Message.fieldInt32_cons, ht] at htag
      exact absurd (htag rfl) (hno n)

private theorem refused_of_sessionId (h : m.ReadsExactly s.joins serves) (hw : m.holds 0 2)
    (hno : ∀ n : UInt32, ¬ m.holds 1 n.toNat) :
    (onMessage net m s).outcome ≠ .value ⟨⟩ ∧
      (onMessage net m s).state.sessionId = s.sessionId ∧
      (onMessage net m s).state.joined = s.joined := by
  have hr := Message.received_of_welcome hw
  rw [onMessage_eq, hr]
  unfold onMessageOutcome after welcomed
  by_cases hs : s.state = .establishing
  · cases ht : s.hearbeatThread with
    | some point => simp [hs]
    | none =>
      cases hid : m.fieldUInt32 1 with
      | ok sessionId =>
        rw [hid] at hr
        exact absurd (h.sessionId _ hr (by simp [Session.joins, hs, ht])) (hno sessionId)
      | error e => simp [hs]
  · simp [hs]

private theorem refused_of_requestId (h : m.ReadsExactly joins (s.serves net)) (hc : m.holds 0 10)
    (hno : ∀ n : Int32, ¬ m.holds 1 n.toInt) :
    ∃ e, onMessage net m s = ⟨.thrown e, s, []⟩ := by
  have hr := Message.received_of_call hc
  rw [onMessage_eq]
  cases hcall : m.callRequest with
  | error e =>
    rw [hr, hcall]
    exact ⟨e, rfl⟩
  | ok r =>
    rw [hcall] at hr
    -- Nothing is invoked, and the guard of the ERROR throws.
    have hserves : s.serves net r.operation = false := by
      cases hserves : s.serves net r.operation with
      | false => rfl
      | true => exact absurd (h.requestId _ hr hserves) (hno r.requestId)
    simp only [Session.serves, Bool.or_eq_false_iff, Option.isSome_eq_false_iff,
      Option.isNone_iff_eq_none] at hserves
    have hroute : ∀ t, s.route net true ≠ .ok t := by
      intro t ht
      have hopen := (exists_route_iff net s).mp ⟨t, ht⟩
      simp [hopen.1, hopen.2] at hserves
    cases hguard : s.route net true with
    | ok t => exact absurd hguard (hroute t)
    | error e =>
      refine ⟨e, ?_⟩
      rw [hr]
      simp only [onMessageOutcome, callOutcome, onMessageOutput, callOutput, hserves.1,
        sendOutcome, sendOutput, hguard]
      rfl

private theorem integersExact_of_reads (h : m.ReadsExactly s.joins (s.serves net)) :
    IntegersExact net s m := by
  have hjoins : ∀ {sessionId}, s.joinOffer m.received = some (.ok sessionId) →
      m.holds 1 sessionId.toNat := by
    intro sessionId hx
    obtain ⟨hr, hs, ht⟩ := joinOffer_eq_ok hx
    exact h.sessionId _ hr (by simp [Session.joins, hs, ht])
  constructor
  · exact h.tag
  · simp only [onMessage_eq, sessionId_after]
    split
    · next sessionId hx => exact .inr (hjoins hx)
    · exact .inl rfl
  · intro sessionId hv
    rw [onMessage_eq] at hv
    dsimp only at hv
    cases hx : s.joinOffer m.received with
    | none =>
      rw [(after_of_no_offer hx).1, List.self_eq_append_right] at hv
      cases hv
    | some x =>
      rw [after_of_offer hx] at hv
      obtain rfl := List.singleton_inj.mp (List.append_cancel_left hv)
      exact hjoins hx
  · intro t frame ec hm
    rw [onMessage_eq] at hm
    dsimp only [onMessageOutput] at hm
    split at hm
    · next r hr =>
      obtain ⟨hguard, hframe⟩ := send_mem_callOutput hm
      have hopen := (exists_route_iff net s).mp ⟨t, hguard⟩
      refine ⟨r.requestId.toInt, ?_, h.requestId r hr (by simp [Session.serves, hopen])⟩
      rcases hframe with rfl | ⟨result, rfl⟩ <;> rfl
    · cases hm
  · exact fun hne hno => ⟨_, refused_of_tag h hne hno net s⟩
  · exact fun hw hno => refused_of_sessionId h hw hno
  · exact fun hc hno => refused_of_requestId h hc hno

private theorem requestId_of_holds {r : CallRequest} (hc : m.holds 0 10)
    (hr : m.received = .call (.ok r)) {n : Int32} (hn : m.holds 1 n.toInt) : r.requestId = n := by
  rw [Message.received_of_call hc, Received.call.injEq, Message.callRequest_eq_ok] at hr
  obtain ⟨⟨j, hj, hid⟩, -, -⟩ := hr
  obtain ⟨k, hk, hnumber⟩ := hn
  rw [hj] at hk
  cases hk
  rw [Json.toInt32?, Json.toNumber?_of_number? hnumber] at hid
  simpa using hid.symm

private theorem reads_of_integersExact (h : IntegersExact net s m) :
    m.ReadsExactly s.joins (s.serves net) := by
  constructor
  · exact h.tag
  · intro sessionId hr hjoins
    obtain ⟨hs, ht⟩ : s.state = .establishing ∧ s.hearbeatThread = none := by
      simpa [Session.joins] using hjoins
    apply h.offered
    rw [onMessage_eq, hr]
    simp [after, hs, welcomed, ht]
  · intro r hr hserves
    cases ho : s.operations r.operation with
    | none =>
      obtain ⟨t, hguard⟩ : ∃ t, s.route net true = .ok t := by
        rw [exists_route_iff]
        simpa [Session.serves, ho] using hserves
      obtain ⟨requestId, hid, hholds⟩ := h.echoed t (errorFrame r.requestId) net.ec (by
        rw [onMessage_eq, hr]
        simp only [onMessageOutput, callOutput, ho]
        exact mem_sendOutput.mpr ⟨t, hguard, dumpable_errorFrame _, rfl⟩)
      cases hid
      exact hholds
    | some fn =>
      -- The operation was invoked, so the CALL was not refused.
      by_contra hnot
      have hc : m.holds 0 10 := Message.holds_of_tag (t := .call) h.tag (by rw [hr]; rfl)
      obtain ⟨e, he⟩ := h.refusedRequestId hc fun n hn =>
        hnot ((requestId_of_holds hc hr hn).symm ▸ hn)
      rw [onMessage_eq, hr] at he
      have houtput := congrArg Ran.output he
      simp [onMessageOutput, callOutput, ho] at houtput

/-- A message is used exactly in the session that it meets exactly when every integer that is used
of it is one of the type it is read as. -/
theorem integersExact_iff (net : Net) (s : Session) (m : Message) :
    IntegersExact net s m ↔ m.usesIntegers s.joins (s.serves net) = true := by
  rw [← m.readsExactly_iff]
  exact ⟨reads_of_integersExact, integersExact_of_reads⟩

/-- A message is used exactly in every session exactly when every integer that is read of it is one
of the type it is read as. -/
theorem forall_integersExact_iff (m : Message) :
    (∀ net s, IntegersExact net s m) ↔ m.readsIntegers = true := by
  constructor
  · intro hall
    -- A session that comes to every id.
    exact (integersExact_iff ⟨fun _ => true, none⟩
      { state := .establishing, operations := fun _ => some .ok } m).mp (hall _ _)
  · intro hreads net s
    obtain ⟨htag, hid, hrequest⟩ := m.readsExactly_iff.mpr hreads
    refine integersExact_of_reads ⟨htag, fun sessionId hr _ => hid sessionId hr rfl, ?_⟩
    exact fun r hr _ => hrequest r hr rfl

end Session

namespace Client

/-- Every message of a run is used with the integers it holds in the session it meets, and every id
that `Join` returned is the one a WELCOME held. -/
structure IntegersExact (h : ClientHistory) : Prop where
  messages : ∀ e ∈ h, ∀ t m ec, e.action = .message t m ec →
    Session.IntegersExact (e.before.state.net ec) e.before.state.session m
  returned : ∀ e ∈ h, ∀ sessionId, JoinReturns e sessionId → ∃ e' ∈ h, ∃ t m ec,
    e'.action = .message t m ec ∧ m.holds 0 2 ∧ m.holds 1 sessionId.toNat

/-- Every integer that the session uses of the message of an action is one of the type it is read
as. -/
def usesIntegers (c : Client) : Action → Bool
  | .message _ m ec => m.usesIntegers c.session.joins (c.session.serves (c.net ec))
  | _ => true

variable {h : ClientHistory} {p : Process Client Fault}

private theorem welcome_of_offer (hr : ClientRun h p) : ∀ sessionId,
    .ok sessionId ∈ p.state.session.joined.offers → ∃ e ∈ h, ∃ t m ec,
      e.action = .message t m ec ∧ m.received = .welcome (.ok sessionId) ∧
        e.before.state.session.joins = true := by
  refine hr.invariant (fun h p => ∀ sessionId, .ok sessionId ∈ p.state.session.joined.offers →
    ∃ e ∈ h, ∃ t m ec, e.action = .message t m ec ∧ m.received = .welcome (.ok sessionId) ∧
      e.before.state.session.joins = true) ?_ ?_
  · intro sessionId hv
    cases hv
  · intro h p a o p' ih hs sessionId hv
    rw [(step_facts hs).session, offers_sessionAfter] at hv
    rcases List.mem_append.mp hv with hv | hv
    · obtain ⟨e, he, hwelcome⟩ := ih sessionId hv
      exact ⟨e, List.mem_cons_of_mem _ he, hwelcome⟩
    · obtain ⟨t, m, ec, ha, hreceived, hstate, hthread, -⟩ := ok_mem_joinOffers hv
      refine ⟨_, List.mem_cons_self, t, m, ec, ha, hreceived, ?_⟩
      simp [Session.joins, hstate, hthread]

private theorem welcome_of_returns (hr : ClientRun h p) {e : ClientEntry} (he : e ∈ h)
    {sessionId : UInt32} (hret : JoinReturns e sessionId) : ∃ e ∈ h, ∃ t m ec,
      e.action = .message t m ec ∧ m.received = .welcome (.ok sessionId) ∧
        e.before.state.session.joins = true := by
  obtain ⟨newer, older, rfl⟩ := List.append_of_mem he
  obtain ⟨hr', hs⟩ := hr.of_append
  obtain ⟨e', he', hwelcome⟩ :=
    welcome_of_offer (.cons hr' hs) sessionId (offered_of_returns hs hret)
  exact ⟨e', List.mem_append_right _ he', hwelcome⟩

/-- In a run, the integers of all messages are used exactly exactly when every integer that the
session uses of them is one of the type it is read as; and a message is used exactly in every
session exactly when every integer that is read of it is one. -/
theorem integers_exact_iff (hr : ClientRun h p) :
    (IntegersExact h ↔ ∀ e ∈ h, e.before.state.usesIntegers e.action = true) ∧
      ∀ m : Message, (∀ net s, Session.IntegersExact net s m) ↔ m.readsIntegers = true := by
  refine ⟨⟨?_, ?_⟩, Session.forall_integersExact_iff⟩
  · intro hexact e he
    cases ha : e.action with
    | message t m ec =>
      exact (Session.integersExact_iff _ _ m).mp (hexact.messages e he t m ec ha)
    | _ => rfl
  · intro huses
    have hmessage : ∀ e ∈ h, ∀ t m ec, e.action = .message t m ec →
        m.usesIntegers e.before.state.session.joins
          (e.before.state.session.serves (e.before.state.net ec)) = true := by
      intro e he t m ec ha
      have hused := huses e he
      rw [ha] at hused
      exact hused
    constructor
    · intro e he t m ec ha
      exact (Session.integersExact_iff _ _ m).mpr (hmessage e he t m ec ha)
    · intro e he sessionId hret
      obtain ⟨e', he', t, m, ec, ha, hreceived, hjoins⟩ := welcome_of_returns hr he hret
      have hexact := m.readsExactly_iff.mpr (hmessage e' he' t m ec ha)
      refine ⟨e', he', t, m, ec, ha, hexact.welcome hreceived, ?_⟩
      exact hexact.sessionId sessionId hreceived hjoins

/-- A join with the id 7. -/
theorem integers_exact_join : ∃ h p, ClientRun h p ∧ IntegersExact h ∧
    ∃ e ∈ h, JoinReturns e 7 := by
  obtain ⟨h, p, hr, hc⟩ := exists_run_of_replay step init
    (joinSteps ++ [.joinFuture 0, .joinReady 0])
    (fun h _ => decide (∀ e ∈ h, e.before.state.usesIntegers e.action = true) &&
      decide (∃ e ∈ h, JoinReturns e 7)) (by decide)
  simp only [Bool.and_eq_true, decide_eq_true_eq] at hc
  exact ⟨h, p, hr, (integers_exact_iff hr).1.mpr hc.1, hc.2⟩

/-- A WELCOME with the id 2^32. -/
def wideWelcome : Message := ⟨[.integer 2, .integer 4294967296]⟩

/-- `Join` returns the id 0, and 2^32 is what the only message held. -/
theorem not_integers_exact : ¬ ∀ h p, ClientRun h p → IntegersExact h := by
  intro hall
  obtain ⟨h, p, hr, hc⟩ := exists_run_of_replay step init
    [.attach 0, .transport 0 .onClientOpen, .join (utf8 "realm"), .runDispatched none,
      .message 0 wideWelcome none, .joinFuture 0, .joinReady 0]
    (fun h _ => decide (∃ e ∈ h, JoinReturns e 0) && h.all fun e =>
      match e.action with
      | .message _ m _ => decide (m = wideWelcome)
      | _ => true) (by decide)
  simp only [Bool.and_eq_true, decide_eq_true_eq, List.all_eq_true] at hc
  obtain ⟨⟨e, he, hret⟩, honly⟩ := hc
  obtain ⟨e', he', t, m, ec, ha, -, j, hj, hnumber⟩ := (hall h p hr).returned e he 0 hret
  have hm := honly e' he'
  rw [ha] at hm
  rw [of_decide_eq_true hm] at hj
  cases hj
  simp [Json.number?] at hnumber

end Client
end Barbarossa
