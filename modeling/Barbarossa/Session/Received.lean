import Barbarossa.Session.Session

/-!
# What the session does with a message

A message matters to the session only through what its handler reads of it. `received`
is that reading, and the equations below say once what `OnMessage` and `SendMessage` do:
which members they change, how they end and what they give out. Later modules cite
these equations and do not unfold the handlers.
-/

namespace Barbarossa
open Barbarossa.Base

/-- The three fields a CALL is read for. -/
structure CallRequest where
  requestId : Int32
  operation : Bytes
  arguments : Json
  deriving DecidableEq

/-- A message as the session reads it. -/
inductive Received where
  /-- No field at all. -/
  | empty
  /-- Refused before any handler: an unreadable type, HELLO, PING or RESULT. -/
  | refused (e : Exception)
  | welcome (sessionId : Except Exception UInt32)
  | abort (reason : Except Exception Bytes)
  | pong
  | call (request : Except Exception CallRequest)
  /-- ERROR, PUBLISH, PUBLISHED and every unknown type. -/
  | ignored

namespace Message

/-- The three fields of a CALL, read in the order of `session.ipp:244`. -/
def callRequest (m : Message) : Except Exception CallRequest := do
  let requestId ← m.fieldInt32 1
  let operation ← m.fieldString 2
  let arguments ← m.fieldJson 3
  return ⟨requestId, operation, arguments⟩

/-- The reading of a message by `OnMessage`. -/
def received (m : Message) : Received :=
  if m.size < 1 then .empty
  else match m.fieldInt32 0 with
  | .error e => .refused e
  | .ok tag =>
    match MessageType.ofInt32? tag with
    | some .hello => .refused (.protocolError (utf8 "client received HELLO message"))
    | some .welcome => .welcome (m.fieldUInt32 1)
    | some .abort => .abort (m.fieldString 1)
    | some .ping => .refused (.protocolError (utf8 "client received PING message"))
    | some .pong => .pong
    | some .call => .call m.callRequest
    | some .result =>
      .refused (.protocolError (utf8 "client received unsupported RESULT message"))
    | some .error | some .publish | some .published | none => .ignored

/-- A field of a message, as the encoder reads it. -/
theorem fieldJson_eq (m : Message) (i : Nat) (h : i < m.fields.length) :
    m.fieldJson i = .ok m.fields[i] := by
  simp [fieldJson, fieldAs, h]

/-- A field is read exactly when a value stands at its index that converts. -/
theorem fieldAs_eq_ok {α : Type} {get : Json → Option α} {m : Message} {i : Nat} {a : α} :
    m.fieldAs get i = .ok a ↔ ∃ x, m.fields[i]? = some x ∧ get x = some a := by
  unfold fieldAs
  by_cases hi : i < m.fields.length
  · cases hg : get m.fields[i] <;> simp [hi, hg]
  · simp [hi]

/-- The type of a message that has one. -/
theorem fieldInt32_cons (tag : Json) (fields : List Json) : fieldInt32 ⟨tag :: fields⟩ 0 =
    match tag.toInt32? with
    | none => .error (.typeError 302)
    | some n => .ok n := by
  simp only [fieldInt32, fieldAs, List.length_cons, Nat.zero_lt_succ, dite_true,
    List.getElem_cons_zero]
  cases tag.toInt32? <;> rfl

/-- The reading of a message that has a type. -/
theorem received_cons (tag : Json) (fields : List Json) : received ⟨tag :: fields⟩ =
    match tag.toInt32? with
    | none => .refused (.typeError 302)
    | some n =>
      match MessageType.ofInt32? n with
      | some .hello => .refused (.protocolError (utf8 "client received HELLO message"))
      | some .welcome => .welcome (fieldUInt32 ⟨tag :: fields⟩ 1)
      | some .abort => .abort (fieldString ⟨tag :: fields⟩ 1)
      | some .ping => .refused (.protocolError (utf8 "client received PING message"))
      | some .pong => .pong
      | some .call => .call (callRequest ⟨tag :: fields⟩)
      | some .result =>
        .refused (.protocolError (utf8 "client received unsupported RESULT message"))
      | some .error | some .publish | some .published | none => .ignored := by
  unfold received
  rw [if_neg (by simp [size]), fieldInt32_cons]
  cases tag.toInt32? <;> rfl

/-- A string field is read as the string it holds. -/
theorem fieldString_eq_ok {m : Message} {i : Nat} {s : Bytes} :
    m.fieldString i = .ok s ↔ m.fields[i]? = some (.string s) := by
  rw [fieldString, fieldAs_eq_ok]
  constructor
  · rintro ⟨x, hx, hs⟩
    cases x with
    | string t =>
      cases hs
      exact hx
    | _ => cases hs
  · exact fun hx => ⟨_, hx, rfl⟩

/-- The fields of a CALL that can be read. -/
theorem callRequest_eq_ok {m : Message} {r : CallRequest} : m.callRequest = .ok r ↔
    (∃ x, m.fields[1]? = some x ∧ x.toInt32? = some r.requestId) ∧
      m.fields[2]? = some (.string r.operation) ∧ m.fields[3]? = some r.arguments := by
  have harguments : m.fieldJson 3 = .ok r.arguments ↔ m.fields[3]? = some r.arguments := by
    rw [fieldJson, fieldAs_eq_ok]
    simp
  rw [← fieldAs_eq_ok, ← fieldString_eq_ok, ← harguments]
  unfold callRequest fieldInt32
  obtain ⟨requestId, operation, arguments⟩ := r
  cases m.fieldAs Json.toInt32? 1 with
  | error e => simp [bind, Except.bind]
  | ok requestId' =>
    cases m.fieldString 2 with
    | error e => simp [bind, Except.bind]
    | ok operation' =>
      cases m.fieldJson 3 with
      | error e => simp [bind, Except.bind]
      | ok arguments' => simp [bind, Except.bind, pure, Except.pure]

end Message

namespace WebSocketTransport

private theorem encodeFields_prefix (m : Message) (n : Nat) (hn : n ≤ m.fields.length) :
    (List.range n).foldlM (m := Except Exception)
      (fun j i => return j ++ [← m.fieldJson i]) [] = .ok (m.fields.take n) := by
  induction n with
  | zero => rfl
  | succ n ih =>
    have hlt : n < m.fields.length := by omega
    rw [List.range_succ, List.foldlM_append, ih (by omega)]
    simp only [List.foldlM_cons, List.foldlM_nil, bind, Except.bind, pure, Except.pure,
      m.fieldJson_eq n hlt]
    rw [List.take_succ_eq_append_getElem hlt]

/-- The encoder appends exactly the fields, in order. -/
theorem encodeFields_eq (m : Message) : encodeFields m = .ok m.fields := by
  unfold encodeFields
  rw [Message.size, encodeFields_prefix m _ (Nat.le_refl _), List.take_length]

/-- A send gives out the frame and throws the client's error, or the dump refuses the frame. -/
theorem sendMessage_eq {σ : Type} (self : TransportId) (ec : Option Bytes) (m : Message) (s : σ) :
    sendMessage self ec m s =
      if Json.dumpable (.array m.fields) then
        ⟨match ec with
          | some text => .thrown (.networkError text)
          | none => .value ⟨⟩, s, [.send self m.fields ec]⟩
      else ⟨.thrown (.typeError 316), s, []⟩ := by
  unfold sendMessage
  rw [encodeFields_eq]
  by_cases hd : Json.dumpable (.array m.fields)
  · cases ec <;> simp [hd]
  · simp [hd]

end WebSocketTransport

namespace Session

/-- The guards of `SendMessage`: the transport a frame would go to, or the error. -/
def route (net : Net) (s : Session) (sessionEstablished : Bool) : Except Exception TransportId :=
  match s.transport with
  | none => .error .noTransportError
  | some t =>
    if ¬ net.isConnected t then .error .noTransportError
    else if sessionEstablished ∧ s.sessionId = 0 then .error .noSessionError
    else .ok t

/-- How a send ends behind its guards. -/
def sendOutcome (net : Net) (s : Session) (m : Message) (sessionEstablished : Bool) :
    Outcome Exception Fault PUnit :=
  match s.route net sessionEstablished with
  | .error e => .thrown e
  | .ok _ =>
    if Json.dumpable (.array m.fields) then
      match net.ec with
      | some text => .thrown (.networkError text)
      | none => .value ⟨⟩
    else .thrown (.typeError 316)

/-- What a send hands to the websocket client. -/
def sendOutput (net : Net) (s : Session) (m : Message) (sessionEstablished : Bool) : List Effect :=
  match s.route net sessionEstablished with
  | .error _ => []
  | .ok t => if Json.dumpable (.array m.fields) then [.send t m.fields net.ec] else []

/-- `SendMessage` changes no member. -/
theorem sendMessage_eq (net : Net) (m : Message) (b : Bool) (s : Session) :
    sendMessage net m b s = ⟨s.sendOutcome net m b, s, s.sendOutput net m b⟩ := by
  unfold sendMessage sendOutcome sendOutput route
  cases ht : s.transport with
  | none => simp [ht]
  | some t =>
    by_cases hc : net.isConnected t
    · by_cases hs : b = true ∧ s.sessionId = 0
      · simp [ht, hc, hs]
      · by_cases hd : Json.dumpable (.array m.fields) <;>
          cases net.ec <;> simp [ht, hc, hs, hd, WebSocketTransport.sendMessage_eq]
    · simp [ht, hc]

/-- A send behind an open guard goes to the attached, connected transport. -/
theorem route_eq_ok {net : Net} {s : Session} {b : Bool} {t : TransportId} :
    s.route net b = .ok t ↔
      s.transport = some t ∧ net.isConnected t = true ∧ (b = true → s.sessionId ≠ 0) := by
  unfold route
  cases ht : s.transport with
  | none => simp
  | some u =>
    by_cases hc : net.isConnected u
    · by_cases hs : b = true ∧ s.sessionId = 0
      · dsimp only
        rw [if_neg (by simp [hc]), if_pos hs]
        simp only [reduceCtorEq, false_iff]
        rintro ⟨-, -, h⟩
        exact h hs.1 hs.2
      · simp only [hc, not_true_eq_false, ite_false, hs, Except.ok.injEq, Option.some.injEq]
        constructor
        · rintro rfl
          exact ⟨rfl, hc, fun hb hz => hs ⟨hb, hz⟩⟩
        · exact fun h => h.1
    · simp only [hc, Bool.false_eq_true, not_false_eq_true, ite_true, reduceCtorEq,
        Option.some.injEq, false_iff]
      rintro ⟨rfl, hu, -⟩
      exact hc hu

/-- A send that needs a session is let through exactly to an attached, connected transport and with
an id. -/
theorem exists_route_iff (net : Net) (s : Session) :
    (∃ t, s.route net true = .ok t) ↔
      s.transport.any net.isConnected = true ∧ s.sessionId ≠ 0 := by
  simp only [Option.any_eq_true, route_eq_ok, forall_const]
  constructor
  · rintro ⟨t, ht, hc, hid⟩
    exact ⟨⟨t, ht, hc⟩, hid⟩
  · rintro ⟨⟨t, ht, hc⟩, hid⟩
    exact ⟨t, ht, hc, hid⟩

/-- The errors of the guard. -/
theorem route_eq_error {net : Net} {s : Session} {b : Bool} {x : Exception}
    (h : s.route net b = .error x) : x = .noTransportError ∨ x = .noSessionError := by
  unfold route at h
  cases ht : s.transport with
  | none =>
    rw [ht] at h
    cases h
    exact .inl rfl
  | some t =>
    rw [ht] at h
    dsimp only at h
    split at h
    · cases h
      exact .inl rfl
    · split at h
      · cases h
        exact .inr rfl
      · cases h

/-- Every frame a send hands over goes to the attached, connected transport, and with a session
only when one is required. -/
theorem mem_sendOutput {net : Net} {s : Session} {m : Message} {b : Bool} {x : Effect} :
    x ∈ s.sendOutput net m b ↔ ∃ t, s.route net b = .ok t ∧
      Json.dumpable (.array m.fields) = true ∧ x = .send t m.fields net.ec := by
  unfold sendOutput
  cases s.route net b with
  | error e => simp
  | ok t => by_cases hd : Json.dumpable (.array m.fields) <;> simp [hd]

/-! ### The messages the session builds -/

/-- The fields of the RESULT for a request. -/
def resultFrame (requestId : Int32) (result : Json) : List Json :=
  [.integer 11, .integer requestId.toInt, result]

/-- The fields of the ERROR for a request that names no registered operation. -/
def errorFrame (requestId : Int32) : List Json :=
  [.integer 9, .integer 10, .integer requestId.toInt, .string (utf8 "ERR_NO_SUCH_OPERATION"),
    .object []]

/-- The HELLO carries its type and the realm. -/
theorem helloMessage_eq (realm : Bytes) : helloMessage realm = .ok ⟨[.integer 1, .string realm]⟩ :=
  rfl

/-- The PING carries its type and an empty object. -/
theorem pingMessage_eq : pingMessage = .ok ⟨[.integer 4, .object []]⟩ := rfl

/-- The RESULT carries its type, the request id and the value. -/
theorem resultMessage_eq (requestId : Int32) (result : Json) :
    resultMessage requestId result = .ok ⟨resultFrame requestId result⟩ := rfl

/-- The ERROR names the CALL, its request id and the reason, with empty details. -/
theorem errorMessage_eq (requestId : Int32) :
    errorMessage requestId = .ok ⟨errorFrame requestId⟩ := rfl

/-- A RESULT can be dumped exactly when the value in it can. -/
theorem dumpable_resultFrame (requestId : Int32) (result : Json) :
    Json.dumpable (.array (resultFrame requestId result)) = result.dumpable := by
  simp [resultFrame, Json.dumpable, Json.dumpableElements]

/-- An ERROR can be dumped. -/
theorem dumpable_errorFrame (requestId : Int32) :
    Json.dumpable (.array (errorFrame requestId)) = true := by
  simp only [errorFrame, Json.dumpable, Json.dumpableElements, Json.dumpableMembers,
    Bool.true_and, Bool.and_true]
  decide

/-! ### Setting a promise -/

/-- Setting a promise member offers the result and throws when the member was satisfied. -/
theorem setPromise_apply {α : Type} (l : Lens Session (Promise Exception α))
    (r : Except Exception α) (s : Session) : setPromise l r s =
      ⟨if (l.get s).satisfied then .thrown (.futureError .promiseAlreadySatisfied) else .value ⟨⟩,
        l.set ((l.get s).offer r) s, []⟩ := by
  simp only [setPromise, Exec.zoom_apply, Promise.setResult]

/-! ### Incoming messages -/

/-- The session after a WELCOME that found it establishing. -/
def welcomed (sessionId : Except Exception UInt32) (s : Session) : Session :=
  match s.hearbeatThread, sessionId with
  | some _, _ => { s with state := .established }
  | none, .error _ => { s with state := .established, hearbeatThread := some .idle }
  | none, .ok sessionId =>
    { s with
      state := .established
      hearbeatThread := some .idle
      sessionId := sessionId
      joined := s.joined.offer (.ok sessionId) }

/-- The session after a message. -/
def after (s : Session) : Received → Session
  | .empty =>
    let invalid := .protocolError ErrorMessages.invalidMessageStructure
    { s with leaved := s.leaved.offer (.error invalid) }
  | .welcome sessionId => if s.state = .establishing then s.welcomed sessionId else s
  | .abort (.ok reason) => { s with joined := s.joined.offer (.error (.abortError reason)) }
  | .pong => { s with pongReceived := s.pongReceived.offer (.ok true) }
  | .refused _ | .abort (.error _) | .call _ | .ignored => s

/-- How a CALL ends. -/
def callOutcome (net : Net) (s : Session) (r : CallRequest) : Outcome Exception Fault PUnit :=
  match s.operations r.operation with
  | none => s.sendOutcome net ⟨errorFrame r.requestId⟩ true
  | some fn =>
    match fn r.arguments with
    | .error e => .thrown e
    | .ok result =>
      if result.dumpable then
        s.sendOutcome net ⟨resultFrame r.requestId result⟩ true
      else .thrown (.typeError 316)

/-- What a CALL gives out. -/
def callOutput (net : Net) (s : Session) (r : CallRequest) : List Effect :=
  match s.operations r.operation with
  | none => s.sendOutput net ⟨errorFrame r.requestId⟩ true
  | some fn =>
    .invoked r.operation r.arguments ::
      match fn r.arguments with
      | .error _ => []
      | .ok result =>
        if result.dumpable then
          s.sendOutput net ⟨resultFrame r.requestId result⟩ true
        else []

/-- How a message ends. -/
def onMessageOutcome (net : Net) (s : Session) : Received → Outcome Exception Fault PUnit
  | .empty =>
    if s.leaved.satisfied then .thrown (.futureError .promiseAlreadySatisfied) else .value ⟨⟩
  | .refused e | .abort (.error e) | .call (.error e) => .thrown e
  | .welcome sessionId =>
    if s.state = .establishing then
      match s.hearbeatThread, sessionId with
      | some _, _ => .crashed .threadReassigned
      | none, .error e => .thrown e
      | none, .ok _ =>
        if s.joined.satisfied then .thrown (.futureError .promiseAlreadySatisfied) else .value ⟨⟩
    else .thrown (.protocolError
      (utf8 "client received WELCOME message but session already established"))
  | .abort (.ok _) =>
    if s.joined.satisfied then .thrown (.futureError .promiseAlreadySatisfied) else .value ⟨⟩
  | .pong =>
    if s.pongReceived.satisfied then .thrown (.futureError .promiseAlreadySatisfied)
    else .value ⟨⟩
  | .call (.ok r) => s.callOutcome net r
  | .ignored => .value ⟨⟩

/-- What a message gives out. -/
def onMessageOutput (net : Net) (s : Session) : Received → List Effect
  | .call (.ok r) => s.callOutput net r
  | _ => []

private theorem processWelcomeMessage_eq (net : Net) (m : Message) (s : Session) :
    processWelcomeMessage m s =
      ⟨s.onMessageOutcome net (.welcome (m.fieldUInt32 1)), s.after (.welcome (m.fieldUInt32 1)),
        []⟩ := by
  unfold processWelcomeMessage currentState ensureState startHearbeat
  by_cases hs : s.state = .establishing
  · cases ht : s.hearbeatThread with
    | some p => simp [hs, ht, after, welcomed, onMessageOutcome]
    | none =>
      cases hf : m.fieldUInt32 1 with
      | error e => simp [hs, ht, after, welcomed, onMessageOutcome]
      | ok sessionId =>
        simp [hs, ht, after, welcomed, onMessageOutcome, setPromise_apply, joinedLens]
  · simp [hs, after, onMessageOutcome]

private theorem processCallMessage_eq (net : Net) (m : Message) (s : Session) :
    processCallMessage net m s =
      ⟨s.onMessageOutcome net (.call m.callRequest), s,
        s.onMessageOutput net (.call m.callRequest)⟩ := by
  unfold processCallMessage Message.callRequest
  cases m.fieldInt32 1 with
  | error e => rfl
  | ok requestId =>
    cases m.fieldString 2 with
    | error e => rfl
    | ok operation =>
      cases m.fieldJson 3 with
      | error e => rfl
      | ok arguments =>
        change _ = (⟨s.callOutcome net ⟨requestId, operation, arguments⟩, s,
          s.callOutput net ⟨requestId, operation, arguments⟩⟩ : Ran _ _ _ _ _)
        unfold callOutcome callOutput
        cases ho : s.operations operation with
        | none => simp [ho, errorMessage_eq, sendMessage_eq]
        | some fn =>
          cases hr : fn arguments with
          | error e => simp [ho, hr]
          | ok result =>
            by_cases hd : result.dumpable <;>
              simp [ho, hr, hd, resultMessage_eq, sendMessage_eq]

/-- `OnMessage` is determined by the reading of the message. -/
theorem onMessage_eq (net : Net) (m : Message) (s : Session) :
    onMessage net m s =
      ⟨s.onMessageOutcome net m.received, s.after m.received,
        s.onMessageOutput net m.received⟩ := by
  unfold onMessage Message.received
  by_cases hz : m.size < 1
  · simp [hz, setPromise_apply, leavedLens, onMessageOutcome, after, onMessageOutput]
  · cases ht : m.fieldInt32 0 with
    | error e => simp [hz, onMessageOutcome, after, onMessageOutput]
    | ok tag =>
      simp only [hz, ite_false, Exec.bind_apply, Exec.ofExcept_ok, Ran.andThen_value,
        Ran.after_nil, Exec.ite_apply]
      cases MessageType.ofInt32? tag with
      | none => rfl
      | some t =>
        cases t with
        | hello => rfl
        | welcome => exact processWelcomeMessage_eq net m s
        | abort =>
          unfold processAbortMessage
          cases m.fieldString 1 with
          | error e => rfl
          | ok reason =>
            simp [setPromise_apply, joinedLens, onMessageOutcome, after, onMessageOutput]
        | ping => rfl
        | pong =>
          simp [processPongMessage, setPromise_apply, pongReceivedLens, onMessageOutcome, after,
            onMessageOutput]
        | error => rfl
        | call => exact processCallMessage_eq net m s
        | result => rfl
        | publish => rfl
        | published => rfl

end Session
end Barbarossa
