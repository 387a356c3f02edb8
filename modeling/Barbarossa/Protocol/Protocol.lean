import Barbarossa.Base.Exec
import Barbarossa.Message.JsonText

/-!
# The typed protocol

`include/barbarossa/protocol.hpp`: one class for each message with its own encoder, and a
`BasicMessage` that reads the type of a parsed text. The encoder of every class but one
writes the type of its own class; the PONG's writes the type of a PING.
-/

namespace Barbarossa.Protocol
open Barbarossa.Base

/-! ### Message types -/

/-- `protocol.hpp:20`. An unscoped enumeration holds any number of its underlying type. -/
structure MessageTypes where
  underlying : UInt32
  deriving DecidableEq, Repr

namespace MessageTypes

def hello : MessageTypes := ⟨1⟩
def welcome : MessageTypes := ⟨2⟩
def abort : MessageTypes := ⟨3⟩
def ping : MessageTypes := ⟨4⟩
def pong : MessageTypes := ⟨5⟩
def error : MessageTypes := ⟨9⟩
def call : MessageTypes := ⟨10⟩
def result : MessageTypes := ⟨11⟩
def publish : MessageTypes := ⟨20⟩
def published : MessageTypes := ⟨21⟩

/-- A type as a JSON value. -/
def toJson (t : MessageTypes) : Json := .integer t.underlying.toNat

/-- `get<MessageTypes>()`: any number, cast to the underlying type; a boolean is none. -/
def ofJson? : Json → Option MessageTypes
  | .integer n => some ⟨UInt32.ofInt n⟩
  | .float v => some ⟨UInt32.ofInt (v.num.tdiv v.den)⟩
  | _ => none

/-- A type is read back. -/
@[simp] theorem ofJson?_toJson (t : MessageTypes) : ofJson? t.toJson = some t := by
  have hlt := t.underlying.toNat_lt
  have hwrap : ((t.underlying.toNat : Int) % 2 ^ 32).toNat = t.underlying.toNat := by omega
  simp only [toJson, ofJson?, UInt32.ofInt, hwrap, UInt32.ofNat_toNat]

/-- Two types of one JSON value are the same. -/
theorem toJson_inj {t t' : MessageTypes} (h : t.toJson = t'.toJson) : t = t' := by
  have hread := congrArg ofJson? h
  rw [ofJson?_toJson, ofJson?_toJson] at hread
  exact Option.some.inj hread

end MessageTypes

/-! ### The message classes -/

/-- `protocol.hpp:63`. -/
structure HelloMessage where
  realm : Bytes := []
  details : Json := .object []
  deriving DecidableEq

/-- `protocol.hpp:139`. -/
structure WelcomeMessage where
  sessionId : Int32
  details : Json := .object []
  deriving DecidableEq

/-- `protocol.hpp:215`. -/
structure AbortMessage where
  reason : Bytes := []
  details : Json := .object []
  deriving DecidableEq

/-- `protocol.hpp:291`. -/
structure PingMessage where
  details : Json := .object []
  deriving DecidableEq

/-- `protocol.hpp:357`. -/
structure PongMessage where
  details : Json := .object []
  deriving DecidableEq

/-- `protocol.hpp:423`. -/
structure ErrorMessage where
  requestType : MessageTypes
  requestId : Int32
  error : Bytes
  details : Json := .object []
  deriving DecidableEq

/-- `protocol.hpp:103`. -/
def HelloMessage.toJson (msg : HelloMessage) : Json :=
  .array [MessageTypes.hello.toJson, .string msg.realm, msg.details]

/-- `protocol.hpp:179`. -/
def WelcomeMessage.toJson (msg : WelcomeMessage) : Json :=
  .array [MessageTypes.welcome.toJson, .integer msg.sessionId.toInt, msg.details]

/-- `protocol.hpp:255`. -/
def AbortMessage.toJson (msg : AbortMessage) : Json :=
  .array [MessageTypes.abort.toJson, .string msg.reason, msg.details]

/-- `protocol.hpp:324`. -/
def PingMessage.toJson (msg : PingMessage) : Json :=
  .array [MessageTypes.ping.toJson, msg.details]

/-- `protocol.hpp:390`. -/
def PongMessage.toJson (msg : PongMessage) : Json :=
  .array [MessageTypes.ping.toJson, msg.details]

/-- `protocol.hpp:485`. -/
def ErrorMessage.toJson (msg : ErrorMessage) : Json :=
  .array [MessageTypes.error.toJson, msg.requestType.toJson, .integer msg.requestId.toInt,
    .string msg.error, msg.details]

/-- A message of one of the classes. -/
inductive TypedMessage where
  | hello (msg : HelloMessage)
  | welcome (msg : WelcomeMessage)
  | abort (msg : AbortMessage)
  | ping (msg : PingMessage)
  | pong (msg : PongMessage)
  | error (msg : ErrorMessage)
  deriving DecidableEq

namespace TypedMessage

/-- The type that `MessageTypes` assigns to the class of a message. -/
def messageType : TypedMessage → MessageTypes
  | .hello _ => .hello
  | .welcome _ => .welcome
  | .abort _ => .abort
  | .ping _ => .ping
  | .pong _ => .pong
  | .error _ => .error

/-- The encoding of a message by its class. -/
def toJson : TypedMessage → Json
  | .hello msg => msg.toJson
  | .welcome msg => msg.toJson
  | .abort msg => msg.toJson
  | .ping msg => msg.toJson
  | .pong msg => msg.toJson
  | .error msg => msg.toJson

/-- A `PongMessage`. -/
def isPong : TypedMessage → Bool
  | .pong _ => true
  | _ => false

end TypedMessage

/-! ### Parsing -/

/-- `operator[](std::size_t)` of a value that can change: null becomes an array, and an array is
filled with nulls up to the index. -/
def subscript (idx : Nat) : Exec Exception Empty Empty Json Json
  | .null => ⟨.value .null, .array (List.replicate (idx + 1) .null), []⟩
  | .array elements =>
    let filled := elements ++ List.replicate (idx + 1 - elements.length) .null
    ⟨.value (filled.getD idx .null), .array filled, []⟩
  | j => ⟨.thrown (.typeError 305), j, []⟩

/-- `protocol.hpp:33`. -/
structure BasicMessage where
  j : Json
  deriving DecidableEq

/-- The value of a `BasicMessage`. -/
def BasicMessage.jLens : Lens BasicMessage Json where
  get m := m.j
  set j _ := ⟨j⟩
  get_set _ _ := rfl
  set_get _ := rfl
  set_set _ _ _ := rfl

/-- `protocol.hpp:42`. -/
def BasicMessage.getMessageType : Exec Exception Empty Empty BasicMessage MessageTypes := do
  let j ← Exec.zoom jLens (subscript 0)
  match MessageTypes.ofJson? j with
  | some t => pure t
  | none => Exec.throw (.typeError 302)

/-- `Parse`; `protocol.hpp:53`. -/
def parse (text : JsonText) (s : Bytes) : Except Exception BasicMessage :=
  (text.parse s).map BasicMessage.mk

/-! ### Type tags -/

/-- Element 0 of an array. -/
def element0? : Json → Option Json
  | .array (x :: _) => some x
  | _ => none

variable {text : JsonText} {kept : Json → Prop}

/-- An encoding carries the type of its message's own class, and `GetMessageType` finds it in the
text of the encoding. -/
structure Tagged (text : JsonText) (kept : Json → Prop) (m : TypedMessage) : Prop where
  element : element0? m.toJson = some m.messageType.toJson
  parsed : kept m.toJson → ∃ basic, parse text (text.dump m.toJson) = .ok basic ∧
    (BasicMessage.getMessageType basic).outcome = .value m.messageType

/-- Both messages carry their types, and messages of two classes have different encodings and
different texts. -/
structure TagsIdentify (text : JsonText) (kept : Json → Prop) (a b : TypedMessage) : Prop where
  first : Tagged text kept a
  second : Tagged text kept b
  encodings : a.messageType ≠ b.messageType → a.toJson ≠ b.toJson
  texts : a.messageType ≠ b.messageType → kept a.toJson → kept b.toJson →
    text.dump a.toJson ≠ text.dump b.toJson

/-- The type of a value whose element 0 is one. -/
theorem getMessageType_of_element {j : Json} {t : MessageTypes} (h : element0? j = some t.toJson) :
    BasicMessage.getMessageType ⟨j⟩ = ⟨.value t, ⟨j⟩, []⟩ := by
  cases j with
  | array elements =>
    cases elements with
    | nil => cases h
    | cons tag rest =>
      cases Option.some.inj h
      simp [BasicMessage.getMessageType, BasicMessage.jLens, subscript]
  | _ => cases h

/-- Element 0 of an encoding is the type of the message's class, or a PING for a `PongMessage`. -/
theorem element0?_toJson (m : TypedMessage) : element0? m.toJson =
    some (if m.isPong then MessageTypes.ping.toJson else m.messageType.toJson) := by
  cases m <;> rfl

/-- A message is tagged with the type of its own class exactly when it is no `PongMessage`. -/
theorem tagged_iff (hl : text.Lossless kept) (m : TypedMessage) :
    Tagged text kept m ↔ m.isPong = false := by
  constructor
  · intro ht
    have helement := ht.element
    rw [element0?_toJson] at helement
    cases m with
    | pong msg =>
      have htag := MessageTypes.toJson_inj (Option.some.inj helement)
      cases htag
    | _ => rfl
  · intro hm
    have helement : element0? m.toJson = some m.messageType.toJson := by
      rw [element0?_toJson, hm]
      rfl
    constructor
    · exact helement
    · intro hk
      refine ⟨⟨m.toJson⟩, ?_, ?_⟩
      · rw [parse, hl.round _ hk]
        rfl
      · rw [getMessageType_of_element helement]

private theorem ping_of_pong {msg : PongMessage} {b : TypedMessage} (hb : b.isPong = false)
    (he : (TypedMessage.pong msg).toJson = b.toJson) : b = .ping ⟨msg.details⟩ := by
  have helement := congrArg element0? he
  rw [element0?_toJson, element0?_toJson, hb] at helement
  have htag : MessageTypes.ping = b.messageType :=
    MessageTypes.toJson_inj (Option.some.inj helement)
  cases b with
  | ping msg' =>
    simp only [TypedMessage.toJson, PongMessage.toJson, PingMessage.toJson, Json.array.injEq,
      List.cons.injEq, and_true, true_and] at he
    rw [he]
  | _ => cases htag

/-- Messages of two classes have one encoding exactly when they are a PING and a PONG with the same
details. -/
theorem toJson_eq_iff {a b : TypedMessage} (hne : a.messageType ≠ b.messageType) :
    a.toJson = b.toJson ↔ ∃ details, a = .ping ⟨details⟩ ∧ b = .pong ⟨details⟩ ∨
      a = .pong ⟨details⟩ ∧ b = .ping ⟨details⟩ := by
  constructor
  · intro he
    cases ha : a.isPong with
    | true =>
      cases a with
      | pong msg =>
        have hb : b.isPong = false := by
          cases b with
          | pong msg' => exact absurd rfl hne
          | _ => rfl
        exact ⟨msg.details, .inr ⟨rfl, ping_of_pong hb he⟩⟩
      | _ => cases ha
    | false =>
      cases b with
      | pong msg => exact ⟨msg.details, .inl ⟨ping_of_pong ha he.symm, rfl⟩⟩
      | _ =>
        have helement := congrArg element0? he
        rw [element0?_toJson, element0?_toJson, ha] at helement
        exact absurd (MessageTypes.toJson_inj (Option.some.inj helement)) hne
  · rintro ⟨details, ⟨rfl, rfl⟩ | ⟨rfl, rfl⟩⟩ <;> rfl

/-- Two messages are identified by their types exactly when neither is a `PongMessage`; and messages
of two classes have one encoding exactly when they are a PING and a PONG with the same details. -/
theorem tags_identify_iff (hl : text.Lossless kept) (a b : TypedMessage) :
    (TagsIdentify text kept a b ↔ a.isPong = false ∧ b.isPong = false) ∧
    (a.messageType ≠ b.messageType → (a.toJson = b.toJson ↔ ∃ details,
      a = .ping ⟨details⟩ ∧ b = .pong ⟨details⟩ ∨ a = .pong ⟨details⟩ ∧ b = .ping ⟨details⟩)) := by
  refine ⟨⟨?_, ?_⟩, toJson_eq_iff⟩
  · intro ht
    exact ⟨(tagged_iff hl a).mp ht.first, (tagged_iff hl b).mp ht.second⟩
  · rintro ⟨ha, hb⟩
    have hencodings : a.messageType ≠ b.messageType → a.toJson ≠ b.toJson := by
      intro hne he
      obtain ⟨details, ⟨-, rfl⟩ | ⟨rfl, -⟩⟩ := (toJson_eq_iff hne).mp he
      · cases hb
      · cases ha
    constructor
    · exact (tagged_iff hl a).mpr ha
    · exact (tagged_iff hl b).mpr hb
    · exact hencodings
    · intro hne hka hkb he
      have hparse := congrArg text.parse he
      rw [hl.round _ hka, hl.round _ hkb] at hparse
      exact hencodings hne (Except.ok.inj hparse)

/-- A HELLO and the text of its encoding. -/
def helloText : JsonText :=
  .single (TypedMessage.hello { realm := utf8 "a" }).toJson (utf8 "[1,\"a\",\x7b\x7d]")

/-- A HELLO and an ABORT with the same fields are told apart. -/
theorem tags_identify_abort : TagsIdentify helloText
    (· = (TypedMessage.hello { realm := utf8 "a" }).toJson)
    (.hello { realm := utf8 "a" }) (.abort { reason := utf8 "a" }) :=
  (tags_identify_iff (JsonText.lossless_single _ (by decide)) _ _).1.mpr ⟨rfl, rfl⟩

/-- A PONG and a PING without details are both `[4,{}]`. -/
theorem not_tags_identify : ¬ ∀ text kept, JsonText.Lossless text kept →
    ∀ a b, TagsIdentify text kept a b := by
  intro hall
  have hl := JsonText.lossless_single (utf8 "[]") (v := .array []) (by decide)
  have hi := hall _ _ hl (.pong {}) (.ping {})
  exact hi.encodings (by decide) rfl

end Barbarossa.Protocol
