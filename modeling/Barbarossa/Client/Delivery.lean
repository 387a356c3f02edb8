import Barbarossa.Client.Steps
import Barbarossa.Transport.Wire

/-!
# Received bytes

Nothing between `OnClientMessage` and the websocket client catches an exception. What the
parser, the fields of a message, the handlers, the promises, a registered operation and
the reply throw therefore ends the client's loop, and what is left is stated here in terms
of the payload and of the state it finds.
-/

namespace Barbarossa
open Barbarossa.Base

namespace Session

/-- A reply can be sent. -/
def replies (net : Net) (s : Session) : Bool :=
  match s.transport with
  | some t => net.isConnected t && decide (s.sessionId ≠ 0) && net.ec.isNone
  | none => false

/-- An operation that is called is not registered, or returns a value that can be dumped. -/
def returns (s : Session) (operation : Bytes) (arguments : Json) : Bool :=
  match s.operations operation with
  | none => true
  | some fn =>
    match fn arguments with
    | .ok result => result.dumpable
    | .error _ => false

/-- The fields are those of a message that the session takes without an exception. -/
def accepts (net : Net) (s : Session) : List Json → Bool
  | [] => !s.leaved.satisfied
  | tag :: fields =>
    match tag.toInt32? with
    | none => false
    | some tag =>
      match MessageType.ofInt32? tag, fields with
      | some .welcome, sessionId :: _ => decide (s.state = .establishing) &&
          s.hearbeatThread.isNone && sessionId.toNumber?.isSome && !s.joined.satisfied
      | some .abort, .string _ :: _ => !s.joined.satisfied
      | some .pong, _ => !s.pongReceived.satisfied
      | some .call, requestId :: .string operation :: arguments :: _ =>
        requestId.toNumber?.isSome && s.returns operation arguments && s.replies net
      | some .error, _ | some .publish, _ | some .published, _ | none, _ => true
      | _, _ => false

private theorem sendOutcome_value_iff (net : Net) (s : Session) (m : Message) :
    s.sendOutcome net m true = .value ⟨⟩ ↔
      s.replies net = true ∧ Json.dumpable (.array m.fields) = true := by
  unfold sendOutcome route replies
  cases s.transport with
  | none => simp
  | some t =>
    cases hc : net.isConnected t with
    | false => simp [hc]
    | true =>
      by_cases hid : s.sessionId = 0
      · simp [hc, hid]
      · cases hd : Json.dumpable (.array m.fields) <;> cases net.ec <;> simp [hc, hid]

private theorem callOutcome_value_iff (net : Net) (s : Session) (r : CallRequest) :
    s.callOutcome net r = .value ⟨⟩ ↔
      s.returns r.operation r.arguments = true ∧ s.replies net = true := by
  unfold callOutcome returns
  cases s.operations r.operation with
  | none => simp [sendOutcome_value_iff, dumpable_errorFrame]
  | some fn =>
    cases hf : fn r.arguments with
    | error e => simp [hf]
    | ok result =>
      cases hd : result.dumpable <;>
        simp [hf, hd, sendOutcome_value_iff, dumpable_resultFrame]

private theorem welcome_value_iff (net : Net) (s : Session) (tag : Json) (fields : List Json) :
    s.onMessageOutcome net (.welcome (Message.fieldUInt32 ⟨tag :: fields⟩ 1)) = .value ⟨⟩ ↔
      s.state = .establishing ∧ s.hearbeatThread = none ∧ s.joined.satisfied = false ∧
        ∃ sessionId rest, fields = sessionId :: rest ∧ sessionId.toNumber?.isSome = true := by
  unfold onMessageOutcome Message.fieldUInt32 Message.fieldAs
  by_cases hs : s.state = .establishing
  · cases ht : s.hearbeatThread with
    | some point => simp [hs]
    | none =>
      cases fields with
      | nil => simp [hs]
      | cons sessionId rest =>
        cases hn : sessionId.toNumber? with
        | none => simp [hs, hn, Json.toUInt32?]
        | some n => cases hj : s.joined.satisfied <;> simp [hs, hn, Json.toUInt32?]
  · simp [hs]

private theorem abort_value_iff (net : Net) (s : Session) (tag : Json) (fields : List Json) :
    s.onMessageOutcome net (.abort (Message.fieldString ⟨tag :: fields⟩ 1)) = .value ⟨⟩ ↔
      s.joined.satisfied = false ∧ ∃ reason rest, fields = .string reason :: rest := by
  unfold onMessageOutcome Message.fieldString Message.fieldAs
  cases fields with
  | nil => simp
  | cons reason rest =>
    cases reason with
    | string reason => cases hj : s.joined.satisfied <;> simp [Json.toString?]
    | _ => simp [Json.toString?]

private theorem call_value_iff (net : Net) (s : Session) (tag : Json) (fields : List Json) :
    s.onMessageOutcome net (.call (Message.callRequest ⟨tag :: fields⟩)) = .value ⟨⟩ ↔
      ∃ requestId operation arguments rest,
        fields = requestId :: .string operation :: arguments :: rest ∧
        requestId.toNumber?.isSome = true ∧ s.returns operation arguments = true ∧
        s.replies net = true := by
  constructor
  · intro h
    cases hr : Message.callRequest ⟨tag :: fields⟩ with
    | error e =>
      rw [hr] at h
      cases h
    | ok r =>
      rw [hr] at h
      obtain ⟨hreturns, hreplies⟩ := (callOutcome_value_iff net s r).mp h
      obtain ⟨⟨x, hx, hid⟩, hop, hargs⟩ := Message.callRequest_eq_ok.mp hr
      obtain ⟨n, hn, -⟩ := Option.map_eq_some_iff.mp hid
      refine ⟨x, r.operation, r.arguments, fields.drop 3, ?_, by simp [hn], hreturns, hreplies⟩
      rcases fields with - | ⟨a, - | ⟨b, - | ⟨c, rest⟩⟩⟩
      · cases hx
      · cases hop
      · cases hargs
      · cases hx
        cases hop
        cases hargs
        rfl
  · rintro ⟨requestId, operation, arguments, rest, rfl, hn, hreturns, hreplies⟩
    obtain ⟨n, hn⟩ := Option.isSome_iff_exists.mp hn
    have hr : Message.callRequest
        ⟨tag :: requestId :: .string operation :: arguments :: rest⟩ =
          .ok ⟨Int32.ofInt n, operation, arguments⟩ :=
      Message.callRequest_eq_ok.mpr ⟨⟨requestId, rfl, by simp [Json.toInt32?, hn]⟩, rfl, rfl⟩
    rw [hr]
    exact (callOutcome_value_iff net s _).mpr ⟨hreturns, hreplies⟩

/-- A message ends normally exactly when the session takes its fields. -/
theorem onMessage_value_iff (net : Net) (s : Session) (elements : List Json) :
    s.onMessageOutcome net (Message.received ⟨elements⟩) = .value ⟨⟩ ↔
      s.accepts net elements = true := by
  cases elements with
  | nil => cases hl : s.leaved.satisfied <;> simp [Message.received, Message.size,
      onMessageOutcome, accepts, hl]
  | cons tag fields =>
    rw [Message.received_cons]
    unfold accepts
    cases ht : tag.toInt32? with
    | none => simp [ht, onMessageOutcome]
    | some n =>
      simp only [ht]
      cases MessageType.ofInt32? n with
      | none => simp [onMessageOutcome]
      | some t =>
        cases t with
        | welcome =>
          dsimp only
          rw [welcome_value_iff]
          cases fields <;> simp [and_assoc, and_comm]
        | abort =>
          dsimp only
          rw [abort_value_iff]
          cases fields with
          | nil => simp
          | cons reason rest => cases reason <;> simp
        | pong => cases hp : s.pongReceived.satisfied <;> simp [onMessageOutcome, hp]
        | call =>
          dsimp only
          rw [call_value_iff]
          rcases fields with - | ⟨requestId, - | ⟨operation, - | ⟨arguments, rest⟩⟩⟩
          · simp
          · simp
          · cases operation <;> simp
          · cases operation <;> simp [and_assoc]
        | _ => simp [onMessageOutcome]

end Session

namespace Client

/-- `OnClientMessage` of a transport whose handler is the session; `ec` is the websocket client's
answer to a reply. -/
def onClientMessage (text : JsonText) (t : TransportId) (opcode : Opcode) (payload : Bytes)
    (ec : Option Bytes) : ClientM PUnit := do
  let c ← Exec.get
  WebSocketTransport.onClientMessage text (transportLens t)
    (fun _ message => onSession (Session.onMessage (c.net ec) message)) opcode payload

/-- A payload that a transport takes without an exception: data that is not text, anything without a
handler, a text of no array, and the text of an array that the session accepts. -/
def tolerates (c : Client) (text : JsonText) (t : TransportId) (opcode : Opcode) (payload : Bytes)
    (ec : Option Bytes) : Bool :=
  match opcode, (c.transports t).handler with
  | .binary, _ | .text, none => true
  | .text, some _ =>
    match text.parse payload with
    | .error _ => false
    | .ok (.array elements) => c.session.accepts (c.net ec) elements
    | .ok _ => true

/-- A text that denotes an array does what the message of its elements does. -/
theorem onClientMessage_act {c : Client} {text : JsonText} {t : TransportId} {payload : Bytes}
    {elements : List Json} (ec : Option Bytes) (hh : (c.transports t).handler = some self)
    (hp : text.parse payload = .ok (.array elements)) :
    ∃ x, c.act (.message t ⟨elements⟩ ec) = some x ∧
      x c = onClientMessage text t .text payload ec c := by
  refine ⟨onSession (Session.onMessage (c.net ec) ⟨elements⟩), ?_, ?_⟩
  · simp only [act, hh, ite_true]
  · simp only [onClientMessage, Exec.bind_apply, Exec.get_apply, Ran.andThen_value, Ran.after_nil,
      WebSocketTransport.onClientMessage_eq, WebSocketTransport.recvMessage_eq, transportLens, hh,
      hp]

/-- In every state, `OnClientMessage` returns to the loop of the websocket client exactly when the
transport tolerates the payload. -/
theorem onClientMessage_value_iff (c : Client) (text : JsonText) (t : TransportId)
    (opcode : Opcode) (payload : Bytes) (ec : Option Bytes) :
    (onClientMessage text t opcode payload ec c).outcome = .value ⟨⟩ ↔
      c.tolerates text t opcode payload ec = true := by
  simp only [onClientMessage, Exec.bind_apply, Exec.get_apply, Ran.andThen_value, Ran.after_nil,
    WebSocketTransport.onClientMessage_eq, WebSocketTransport.recvMessage_eq]
  unfold tolerates
  cases opcode with
  | binary => simp
  | text =>
    dsimp only [transportLens]
    cases (c.transports t).handler with
    | none => simp
    | some handler =>
      cases text.parse payload with
      | error e => simp
      | ok v =>
        cases v with
        | array elements =>
          simp only [onSession, sessionLens, Exec.zoom_apply, Session.onMessage_eq]
          exact Session.onMessage_value_iff (c.net ec) c.session elements
        | _ => simp

/-- Every message of a run was taken without an exception. -/
def MessagesTaken (h : ClientHistory) : Prop :=
  ∀ e ∈ h, ∀ t m ec, e.action = .message t m ec → e.output.1 = .value ⟨⟩

/-- The session accepts the message of a step. -/
def takesMessage (c : Client) : Action → Bool
  | .message _ m ec => c.session.accepts (c.net ec) m.fields
  | _ => true

/-- In every run, every message is taken without an exception exactly when the session accepts
it. -/
theorem messagesTaken_iff {h : ClientHistory} {p : Process Client Fault} (hr : ClientRun h p) :
    MessagesTaken h ↔ ∀ e ∈ h, e.before.state.takesMessage e.action = true := by
  constructor
  · intro htaken e he
    obtain ⟨-, -, hs⟩ := hr.of_mem he
    cases ha : e.action with
    | message t m ec =>
      have hvalue := htaken e he t m ec ha
      rw [ha] at hs
      rw [step_message hs] at hvalue
      exact (Session.onMessage_value_iff _ _ m.fields).mp hvalue
    | _ => rfl
  · intro haccepts e he t m ec ha
    obtain ⟨-, -, hs⟩ := hr.of_mem he
    have haccept := haccepts e he
    rw [ha] at hs haccept
    rw [step_message hs]
    exact (Session.onMessage_value_iff _ _ m.fields).mpr haccept

/-- In every state of every run, `OnClientMessage` returns exactly when the transport tolerates the
payload, and no message of the run threw exactly when the session accepted them all. -/
theorem received_bytes_iff (text : JsonText) {h : ClientHistory} {p : Process Client Fault}
    (hr : ClientRun h p) :
    Always (fun q => ∀ t opcode payload ec,
      (onClientMessage text t opcode payload ec q.state).outcome = .value ⟨⟩ ↔
        q.state.tolerates text t opcode payload ec = true) h p ∧
    (MessagesTaken h ↔ ∀ e ∈ h, e.before.state.takesMessage e.action = true) := by
  refine ⟨⟨?_, ?_⟩, messagesTaken_iff hr⟩
  · intro e _ t opcode payload ec
    exact onClientMessage_value_iff e.before.state text t opcode payload ec
  · intro t opcode payload ec
    exact onClientMessage_value_iff p.state text t opcode payload ec

/-- An ERROR is dropped, and an empty array after it is reported through `leaved_`. -/
theorem received_bytes_empty : ∃ h p, ClientRun h p ∧ MessagesTaken h ∧ h ≠ [] ∧
    (onClientMessage (.single (.array []) (utf8 "[]")) 0 .text (utf8 "[]") none p.state).outcome =
      .value ⟨⟩ := by
  obtain ⟨h, p, hr, hc⟩ := exists_run_of_replay step init
    [.attach 0, .message 0 ⟨[.integer 9]⟩ none]
    (fun h p => decide (∀ e ∈ h, e.before.state.takesMessage e.action = true) &&
      decide (h ≠ []) && p.state.tolerates (.single (.array []) (utf8 "[]")) 0 .text (utf8 "[]")
        none) (by decide)
  simp only [Bool.and_eq_true, decide_eq_true_eq] at hc
  have hiff := received_bytes_iff (.single (.array []) (utf8 "[]")) hr
  exact ⟨h, p, hr, hiff.2.mpr hc.1.1, hc.1.2, (hiff.1.2 0 .text (utf8 "[]") none).mpr hc.2⟩

/-- A text that breaks off throws the parser's exception into the loop of the websocket client. -/
theorem not_received_bytes : ¬ ∀ h p, ClientRun h p → ∀ text t payload ec,
    (onClientMessage text t .text payload ec p.state).outcome = .value ⟨⟩ := by
  intro hall
  obtain ⟨h, p, hr, hc⟩ := exists_run_of_replay step init [.attach 0]
    (fun _ p => decide ((p.state.transports 0).handler = some self)) (by decide)
  rw [decide_eq_true_eq] at hc
  have hparse : (JsonText.single (.array []) (utf8 "[]")).parse (utf8 "[") =
      .error (.parseError 101) := by
    simp [JsonText.single]
    decide
  have hvalue := hall h p hr (.single (.array []) (utf8 "[]")) 0 (utf8 "[") none
  simp [onClientMessage, WebSocketTransport.onClientMessage_eq, WebSocketTransport.recvMessage_eq,
    transportLens, hc, hparse] at hvalue

end Client
end Barbarossa
