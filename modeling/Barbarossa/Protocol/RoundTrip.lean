import Barbarossa.Protocol.Details

/-!
# Round trips of the typed protocol

The encoder and the decoder of every class agree: a message is read back from its encoding with
every field it had, except that null details come back as an empty object. The decoders do not
look at the type, so this holds of a PONG, too, whose encoding carries the type of a PING.
-/

namespace Barbarossa.Protocol
open Barbarossa.Base

namespace TypedMessage

/-- The details of a message. -/
def details : TypedMessage → Json
  | .hello msg => msg.details
  | .welcome msg => msg.details
  | .abort msg => msg.details
  | .ping msg => msg.details
  | .pong msg => msg.details
  | .error msg => msg.details

/-- The message with null details replaced by an empty object. -/
def normalized : TypedMessage → TypedMessage
  | .hello msg => .hello { msg with details := orEmpty msg.details }
  | .welcome msg => .welcome { msg with details := orEmpty msg.details }
  | .abort msg => .abort { msg with details := orEmpty msg.details }
  | .ping msg => .ping { msg with details := orEmpty msg.details }
  | .pong msg => .pong { msg with details := orEmpty msg.details }
  | .error msg => .error { msg with details := orEmpty msg.details }

/-- What the decoder of a message's class makes of a value. -/
def decode (m : TypedMessage) (j : Json) :
    Option (Ran Exception Undefined Empty Json TypedMessage) :=
  (decoder? m.messageType).map fun fromJson => fromJson j

end TypedMessage

/-- A WELCOME built from details; `protocol.hpp:157`. -/
def WelcomeMessage.ofDetails (sessionId : Int32) (d : WelcomeDetails) : WelcomeMessage where
  sessionId := sessionId
  details := d.toJson

/-- Details that are no null are kept. -/
theorem orEmpty_of_ne_null {details : Json} (h : details ≠ .null) : orEmpty details = details := by
  cases details with
  | null => exact absurd rfl h
  | _ => rfl

/-- Nothing is replaced by null. -/
theorem orEmpty_ne_null (details : Json) : orEmpty details ≠ .null := by
  cases details <;> simp [orEmpty]

/-- Details are never read as null. -/
theorem readDetails_ne_null (details : Json) : readDetails details ≠ .null := by
  rw [readDetails_eq]
  exact orEmpty_ne_null details

private theorem stringAndDetails_eq {α : Type} (build : Bytes → Json → α) (tag details : Json)
    (s : Bytes) : stringAndDetails build (.array [tag, .string s, details]) =
      ⟨.value (build s (orEmpty details)), .array [tag, .string s, details], []⟩ := by
  rw [← readDetails_eq]
  rfl

private theorem detailsOnly_eq {α : Type} (build : Json → α) (tag details : Json) :
    detailsOnly build (.array [tag, details]) =
      ⟨.value (build (orEmpty details)), .array [tag, details], []⟩ := by
  rw [← readDetails_eq]
  rfl

private theorem welcome_eq (msg : WelcomeMessage) : WelcomeMessage.fromJson msg.toJson =
    ⟨.value { msg with details := orEmpty msg.details }, msg.toJson, []⟩ := by
  simp [WelcomeMessage.fromJson, WelcomeMessage.toJson, element, convert, readDetails_eq]

private theorem error_eq (msg : ErrorMessage) : ErrorMessage.fromJson msg.toJson =
    ⟨.value { msg with details := orEmpty msg.details }, msg.toJson, []⟩ := by
  simp [ErrorMessage.fromJson, ErrorMessage.toJson, element, convert, Json.toString?,
    readDetails_eq]

namespace TypedMessage

/-- A message is decoded from its encoding, up to null details. -/
theorem decode_toJson (m : TypedMessage) :
    m.decode m.toJson = some ⟨.value m.normalized, m.toJson, []⟩ := by
  cases m with
  | hello msg =>
    change some ((HelloMessage.fromJson msg.toJson).andThen _) = _
    rw [HelloMessage.fromJson, HelloMessage.toJson, stringAndDetails_eq]
    rfl
  | welcome msg =>
    change some ((WelcomeMessage.fromJson msg.toJson).andThen _) = _
    rw [welcome_eq]
    rfl
  | abort msg =>
    change some ((AbortMessage.fromJson msg.toJson).andThen _) = _
    rw [AbortMessage.fromJson, AbortMessage.toJson, stringAndDetails_eq]
    rfl
  | ping msg =>
    change some ((PingMessage.fromJson msg.toJson).andThen _) = _
    rw [PingMessage.fromJson, PingMessage.toJson, detailsOnly_eq]
    rfl
  | pong msg =>
    change some ((PongMessage.fromJson msg.toJson).andThen _) = _
    rw [PongMessage.fromJson, PongMessage.toJson, detailsOnly_eq]
    rfl
  | error msg =>
    change some ((ErrorMessage.fromJson msg.toJson).andThen _) = _
    rw [error_eq]
    rfl

/-- Normalising keeps the class. -/
@[simp] theorem messageType_normalized (m : TypedMessage) :
    m.normalized.messageType = m.messageType := by
  cases m <;> rfl

/-- A message whose details are no null is normal. -/
theorem normalized_of_ne_null {m : TypedMessage} (h : m.details ≠ .null) : m.normalized = m := by
  have hkept : orEmpty m.details = m.details := orEmpty_of_ne_null h
  cases m <;> simp only [details] at hkept <;> simp only [normalized, hkept]

/-- The details of a normal message are no null. -/
theorem details_normalized_ne_null (m : TypedMessage) : m.normalized.details ≠ .null := by
  cases m <;> exact orEmpty_ne_null _

/-- Normalising twice is normalising once. -/
@[simp] theorem normalized_normalized (m : TypedMessage) :
    m.normalized.normalized = m.normalized :=
  normalized_of_ne_null m.details_normalized_ne_null

end TypedMessage

/-- A message survives its encoding up to null details, its encoding survives the decoding unless
the details are null, and the message that is decoded survives without a change. -/
structure RoundTrips (m : TypedMessage) : Prop where
  decoded : m.decode m.toJson = some ⟨.value m.normalized, m.toJson, []⟩
  encoded : m.details ≠ .null → ∀ m' j o, m.decode m.toJson = some ⟨.value m', j, o⟩ →
    m'.toJson = m.toJson
  normal : m.normalized.normalized = m.normalized
  again : m.normalized.decode m.normalized.toJson =
    some ⟨.value m.normalized, m.normalized.toJson, []⟩

/-- Every message makes the round trip, and a WELCOME that is built from details is decoded to one
whose details are read back as those. -/
theorem typed_round_trip :
    (∀ m, RoundTrips m) ∧
    ∀ sessionId d, ∃ msg, WelcomeMessage.fromJson (WelcomeMessage.ofDetails sessionId d).toJson =
        ⟨.value msg, (WelcomeMessage.ofDetails sessionId d).toJson, []⟩ ∧
      msg.sessionId = sessionId ∧ (WelcomeDetails.fromJson msg.details).outcome = .value d := by
  constructor
  · intro m
    constructor
    · exact m.decode_toJson
    · intro hd m' j o hm
      rw [m.decode_toJson, TypedMessage.normalized_of_ne_null hd] at hm
      cases hm
      rfl
    · exact m.normalized_normalized
    · have h := m.normalized.decode_toJson
      rwa [m.normalized_normalized] at h
  · intro sessionId d
    have hd : orEmpty d.toJson = d.toJson := orEmpty_of_ne_null d.toJson_ne_null
    refine ⟨WelcomeMessage.ofDetails sessionId d, ?_, rfl, ?_⟩
    · rw [welcome_eq, WelcomeMessage.ofDetails, hd]
    · rw [WelcomeMessage.ofDetails, WelcomeDetails.fromJson_toJson]

/-- Null details come back as an empty object. -/
example : (PongMessage.fromJson (PongMessage.toJson ⟨.null⟩)).outcome = .value ⟨.object []⟩ := rfl

end Barbarossa.Protocol
