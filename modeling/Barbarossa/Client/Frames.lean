import Barbarossa.Client.Steps
import Barbarossa.Protocol.RoundTrip

/-!
# The session's frames and the typed classes

The session builds its frames field by field, the typed classes encode theirs as a whole, and
both speak one protocol. A PING and an ERROR of the session are the encodings of the typed
classes. A HELLO is not: it has no details, which the typed decoder reads.
-/

namespace Barbarossa
open Barbarossa.Base Barbarossa.Protocol

namespace Session

/-- The frames that the session builds of its own, with the field values they are built from. -/
inductive BuiltFrame where
  | hello (realm : Bytes)
  | ping
  /-- The answer to a CALL of an operation that is not registered. -/
  | error (request : CallRequest)
  deriving DecidableEq

namespace BuiltFrame

/-- The message that `Join`, `HearbeatController` or `ProcessCallMessage` builds. -/
def message : BuiltFrame → Except Exception Message
  | .hello realm => helloMessage realm
  | .ping => pingMessage
  | .error request => errorMessage request.requestId

/-- The typed message with the same field values, and empty details. -/
def typed : BuiltFrame → TypedMessage
  | .hello realm => .hello { realm := realm }
  | .ping => .ping {}
  | .error request =>
    .error {
      requestType := .call
      requestId := request.requestId
      error := utf8 "ERR_NO_SUCH_OPERATION" }

/-- The frame is a HELLO. -/
def isHello : BuiltFrame → Bool
  | .hello _ => true
  | _ => false

end BuiltFrame

/-- The fields are the encoding of the typed message, and its class decodes them to it. -/
structure AgreesWith (fields : List Json) (m : TypedMessage) : Prop where
  encoded : .array fields = m.toJson
  decoded : m.decode (.array fields) = some ⟨.value m, .array fields, []⟩

/-- What the session builds is what the typed class encodes, and is decoded to the same fields. -/
def EncodersAgree (f : BuiltFrame) : Prop := ∀ m, f.message = .ok m → AgreesWith m.fields f.typed

private theorem normalized_typed (f : BuiltFrame) : f.typed.normalized = f.typed := by
  cases f <;> rfl

private theorem agreesWith_of_encoded {fields : List Json} {f : BuiltFrame}
    (h : .array fields = f.typed.toJson) : AgreesWith fields f.typed := by
  constructor
  · exact h
  · rw [h, f.typed.decode_toJson, normalized_typed]

/-- The encoders agree on every frame but a HELLO. -/
theorem encodersAgree_iff (f : BuiltFrame) : EncodersAgree f ↔ f.isHello = false := by
  cases f with
  | hello realm =>
    simp only [BuiltFrame.isHello, Bool.true_eq_false, iff_false]
    intro h
    have hencoded := (h _ (helloMessage_eq realm)).encoded
    cases hencoded
  | ping =>
    simp only [BuiltFrame.isHello, iff_true]
    intro m hm
    cases hm
    exact agreesWith_of_encoded rfl
  | error request =>
    simp only [BuiltFrame.isHello, iff_true]
    intro m hm
    cases hm
    exact agreesWith_of_encoded rfl

end Session

namespace Client

variable {h : ClientHistory} {p : Process Client Fault}

/-- A frame that the session built of its own, or a RESULT. -/
def BuiltBySession (frame : List Json) : Prop :=
  (∃ f m, Session.BuiltFrame.message f = .ok m ∧ frame = m.fields) ∨
    ∃ requestId result, frame = Session.resultFrame requestId result

private theorem builtBySession_of_send_mem {c : Client} {a : Action}
    (hbuilt : ∀ d ∈ c.session.ioContext, Built d) {t : TransportId} {frame : List Json}
    {ec : Option Bytes} (hx : .send t frame ec ∈ c.outputAfter a) : BuiltBySession frame := by
  cases a with
  | runDispatched ec' =>
    simp only [outputAfter] at hx
    cases hq : c.session.ioContext with
    | nil =>
      rw [hq] at hx
      cases hx
    | cons d rest =>
      rw [hq] at hx hbuilt
      have hd := hbuilt d List.mem_cons_self
      cases d with
      | hello m =>
        obtain ⟨realm, rfl⟩ := hd
        dsimp only [Session.helloOutput] at hx
        split at hx
        · cases hx
        · obtain ⟨u, -, -, he⟩ := Session.mem_sendOutput.mp hx
          cases he
          exact .inl ⟨.hello realm, _, Session.helloMessage_eq realm, rfl⟩
      | ping m =>
        cases hd
        obtain ⟨u, -, -, he⟩ := Session.mem_sendOutput.mp hx
        cases he
        exact .inl ⟨.ping, _, Session.pingMessage_eq, rfl⟩
      | pingFailed e => cases hx
  | message u m ec' =>
    have hx : .send t frame ec ∈ c.session.onMessageOutput (c.net ec') m.received := hx
    unfold Session.onMessageOutput at hx
    split at hx
    · next request _ =>
      rcases (Session.send_mem_callOutput hx).2 with he | ⟨result, he⟩
      · exact .inl ⟨.error request, _, Session.errorMessage_eq _, he⟩
      · exact .inr ⟨_, result, he⟩
    · cases hx
  | _ => cases hx

/-- The encoders agree on a built frame exactly when it is no HELLO, and every frame that a run
hands to a transport is a built one or a RESULT. -/
theorem encoders_agree_iff (f : Session.BuiltFrame) :
    (Session.EncodersAgree f ↔ f.isHello = false) ∧
    ∀ h p, ClientRun h p → ∀ e ∈ h, ∀ t frame ec, .send t frame ec ∈ e.output.2 →
      BuiltBySession frame := by
  constructor
  · exact Session.encodersAgree_iff f
  · intro h p hr e he t frame ec hx
    obtain ⟨older, hrun, hs⟩ := hr.of_mem he
    rw [(step_facts hs).output] at hx
    exact builtBySession_of_send_mem (built_of_mem_ioContext hrun) hx

/-- The session's HELLO has two elements, and decoding it reads a third. -/
theorem not_encoders_agree :
    Session.BuiltFrame.message (.hello (utf8 "realm")) =
      .ok ⟨[.integer 1, .string (utf8 "realm")]⟩ ∧
    (HelloMessage.fromJson (.array [.integer 1, .string (utf8 "realm")])).outcome =
      .crashed (.pastEnd 2) ∧
    ¬ ∀ f, Session.EncodersAgree f := by
  refine ⟨rfl, rfl, ?_⟩
  intro hall
  have hencoded := (hall (.hello (utf8 "realm")) _ rfl).encoded
  cases hencoded

end Client
end Barbarossa
