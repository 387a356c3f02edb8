import Mathlib.Algebra.Ring.Rat
import Barbarossa.Protocol.Protocol

/-!
# The decoders of the typed protocol

`from_json` of each class in `include/barbarossa/protocol.hpp`. The decoders index a constant
JSON value with `operator[]`, which checks that the value is an array but not that the array
is long enough, and convert the elements one after the other, so an element that does not
convert keeps the elements behind it from being read.
-/

namespace Barbarossa.Protocol
open Barbarossa.Base

/-- Undefined behaviour of a decoder. -/
inductive Undefined where
  /-- The element at the index was read, and the array has none. -/
  | pastEnd (idx : Nat)
  deriving DecidableEq, Repr

/-- Code that reads a constant JSON value. -/
abbrev Decoder (α : Type) := Exec Exception Undefined Empty Json α

/-- `operator[](std::size_t) const`. -/
def element (idx : Nat) : Decoder Json := do
  match ← Exec.get with
  | .array elements =>
    match elements[idx]? with
    | some x => pure x
    | none => Exec.crash (.pastEnd idx)
  | _ => Exec.throw (.typeError 305)

/-- The implicit conversion of an element. -/
def convert {α : Type} (get : Json → Option α) (x : Json) : Decoder α :=
  match get x with
  | some a => pure a
  | none => Exec.throw (.typeError 302)

/-- Null details are read as an empty object. -/
def readDetails (details : Json) : Json := if details = .null then .object [] else details

/-- The decoder of a class with a string and details. -/
def stringAndDetails {α : Type} (build : Bytes → Json → α) : Decoder α := do
  let s ← convert Json.toString? (← element 1)
  let details ← element 2
  return build s (readDetails details)

/-- The decoder of a class with details only. -/
def detailsOnly {α : Type} (build : Json → α) : Decoder α := do
  let details ← element 1
  return build (readDetails details)

/-- `protocol.hpp:109`. -/
def HelloMessage.fromJson : Decoder HelloMessage := stringAndDetails HelloMessage.mk

/-- `protocol.hpp:185`. -/
def WelcomeMessage.fromJson : Decoder WelcomeMessage := do
  let sessionId ← convert Json.toInt32? (← element 1)
  let details ← element 2
  return ⟨sessionId, readDetails details⟩

/-- `protocol.hpp:261`. -/
def AbortMessage.fromJson : Decoder AbortMessage := stringAndDetails AbortMessage.mk

/-- `protocol.hpp:329`. -/
def PingMessage.fromJson : Decoder PingMessage := detailsOnly PingMessage.mk

/-- `protocol.hpp:395`. -/
def PongMessage.fromJson : Decoder PongMessage := detailsOnly PongMessage.mk

/-- `protocol.hpp:493`. -/
def ErrorMessage.fromJson : Decoder ErrorMessage := do
  let requestType ← convert MessageTypes.ofJson? (← element 1)
  let requestId ← convert Json.toInt32? (← element 2)
  let error ← convert Json.toString? (← element 3)
  let details ← element 4
  return ⟨requestType, requestId, error, readDetails details⟩

/-- `Get<T>()`; `protocol.hpp:47`. -/
def BasicMessage.get {α : Type} (fromJson : Decoder α) :
    Exec Exception Undefined Empty BasicMessage α :=
  Exec.zoom jLens fromJson

/-- The enumerators; `protocol.hpp:20`. -/
def MessageTypes.all : List MessageTypes :=
  [.hello, .welcome, .abort, .ping, .pong, .error, .call, .result, .publish, .published]

/-- The decoder of the class that `MessageTypes` assigns a type to, if there is one. -/
def TypedMessage.decoder? (t : MessageTypes) : Option (Decoder TypedMessage) :=
  if t = .hello then some do return .hello (← HelloMessage.fromJson)
  else if t = .welcome then some do return .welcome (← WelcomeMessage.fromJson)
  else if t = .abort then some do return .abort (← AbortMessage.fromJson)
  else if t = .ping then some do return .ping (← PingMessage.fromJson)
  else if t = .pong then some do return .pong (← PongMessage.fromJson)
  else if t = .error then some do return .error (← ErrorMessage.fromJson)
  else none

/-! ### Safe decoding -/

/-- The code reads no element that the value lacks, and what it returns is good. -/
structure Safe {σ α : Type} (x : Exec Exception Undefined Empty σ α) (s : σ) (good : α → Prop) :
    Prop where
  bounded : ∀ u, (x s).outcome ≠ .crashed u
  exact : ∀ a, (x s).outcome = .value a → good a

section
variable {α β : Type} {elements : List Json} {j : Json} {good : β → Prop}

private theorem safe_congr {x y : Decoder β} (h : x j = y j) : Safe x j good ↔ Safe y j good := by
  constructor
  · intro hx
    exact ⟨fun u => h ▸ hx.bounded u, fun b => h ▸ hx.exact b⟩
  · intro hy
    exact ⟨fun u => h ▸ hy.bounded u, fun b => h ▸ hy.exact b⟩

/-- A decoder that is done. -/
theorem safe_pure {b : β} : Safe (pure b) j good ↔ good b := by
  constructor
  · exact fun h => h.exact b rfl
  · intro hb
    constructor
    · intro u hu
      cases hu
    · intro b' hb'
      cases hb'
      exact hb

private theorem safe_throw {e : Exception} : Safe (Exec.throw e : Decoder β) j good := by
  constructor
  · intro u hu
    cases hu
  · intro b hb
    cases hb

private theorem safe_map {x : Decoder α} {f : α → β} :
    Safe (x >>= fun a => pure (f a)) j good ↔ Safe x j (fun a => good (f a)) := by
  have hcrashed : ∀ u, ((x >>= fun a => pure (f a)) j).outcome = .crashed u ↔
      (x j).outcome = .crashed u := by
    intro u
    rw [Exec.bind_apply]
    obtain ⟨y, t, o⟩ := x j
    cases y <;> simp
  have hvalue : ∀ b, ((x >>= fun a => pure (f a)) j).outcome = .value b ↔
      ∃ a, (x j).outcome = .value a ∧ f a = b := by
    intro b
    rw [Exec.bind_apply]
    obtain ⟨y, t, o⟩ := x j
    cases y <;> simp
  constructor
  · intro h
    exact ⟨fun u hu => h.bounded u ((hcrashed u).mpr hu),
      fun a ha => h.exact (f a) ((hvalue _).mpr ⟨a, ha, rfl⟩)⟩
  · intro h
    refine ⟨fun u hu => h.bounded u ((hcrashed u).mp hu), fun b hb => ?_⟩
    obtain ⟨a, ha, rfl⟩ := (hvalue b).mp hb
    exact h.exact a ha

/-- The next element has to be there. -/
theorem safe_element {idx : Nat} {k : Json → Decoder β} :
    Safe (element idx >>= k) (.array elements) good ↔
      ∃ x, elements[idx]? = some x ∧ Safe (k x) (.array elements) good := by
  cases hx : elements[idx]? with
  | none =>
    have hrun : (element idx >>= k) (.array elements) =
        ⟨.crashed (.pastEnd idx), .array elements, []⟩ := by
      simp [element, hx]
    simp only [reduceCtorEq, false_and, exists_false, iff_false]
    intro h
    exact h.bounded (.pastEnd idx) (by rw [hrun])
  | some x =>
    have hrun : (element idx >>= k) (.array elements) = k x (.array elements) := by
      simp [element, hx]
    simp only [Option.some.injEq, exists_eq_left']
    exact safe_congr hrun

/-- An element that is not converted ends the decoder. -/
theorem safe_convert {get : Json → Option α} {x : Json} {k : α → Decoder β} :
    Safe (convert get x >>= k) j good ↔ ∀ a, get x = some a → Safe (k a) j good := by
  cases hx : get x with
  | none =>
    have hrun : (convert get x >>= k) j = (Exec.throw (.typeError 302) : Decoder β) j := by
      simp [convert, hx]
    simp only [reduceCtorEq, false_implies, implies_true, iff_true]
    exact (safe_congr hrun).mpr safe_throw
  | some a =>
    have hrun : (convert get x >>= k) j = k a j := by
      simp [convert, hx]
    simp only [Option.some.injEq, forall_eq']
    exact safe_congr hrun

end

/-! ### The fields of a frame -/

/-- The elements of an array. -/
def elements : Json → List Json
  | .array elements => elements
  | _ => []

/-- The element at a position denotes a number. -/
def numberAt (j : Json) (idx : Nat) (n : Int) : Prop :=
  ∃ x, (elements j)[idx]? = some x ∧ x.number? = some (n : Rat)

/-- A null is replaced by an empty object. -/
def orEmpty : Json → Json
  | .null => .object []
  | details => details

/-- The element at a position holds the details, which are empty for a null. -/
def detailsAt (j : Json) (idx : Nat) (details : Json) : Prop :=
  ∃ x, (elements j)[idx]? = some x ∧ details = orEmpty x

/-- The fields of a message are the elements behind the type. -/
def TypedMessage.heldBy (j : Json) : TypedMessage → Prop
  | .hello msg => (elements j)[1]? = some (.string msg.realm) ∧ detailsAt j 2 msg.details
  | .welcome msg => numberAt j 1 msg.sessionId.toInt ∧ detailsAt j 2 msg.details
  | .abort msg => (elements j)[1]? = some (.string msg.reason) ∧ detailsAt j 2 msg.details
  | .ping msg => detailsAt j 1 msg.details
  | .pong msg => detailsAt j 1 msg.details
  | .error msg => numberAt j 1 msg.requestType.underlying.toNat ∧
      numberAt j 2 msg.requestId.toInt ∧ (elements j)[3]? = some (.string msg.error) ∧
      detailsAt j 4 msg.details

/-- Decoding a parsed text is safe: its type is one of the ten, and the decoder of the type's class
stays inside the array and returns exactly the fields that stand there. -/
structure DecodesSafely (basic : BasicMessage) : Prop where
  known : ∀ t, (BasicMessage.getMessageType basic).outcome = .value t → t ∈ MessageTypes.all
  decoded : ∀ t fromJson, (BasicMessage.getMessageType basic).outcome = .value t →
    TypedMessage.decoder? t = some fromJson →
      Safe (BasicMessage.get fromJson) (BasicMessage.getMessageType basic).state
        (TypedMessage.heldBy basic.j)

/-! ### When decoding is safe -/

/-- The number modulo 2^32 that a tag is cast to; a boolean is none. -/
def tagNumber? : Json → Option Nat
  | .integer n => some (n % 4294967296).toNat
  | .float v => some (v.num.tdiv v.den % 4294967296).toNat
  | _ => none

/-- The next element is there, and unless it is refused the rest is fine, too. -/
def nextIs (refused : Json → Bool) (rest : Json → List Json → Bool) : List Json → Bool
  | [] => false
  | x :: fields => refused x || rest x fields

/-- The elements behind a tag are safe to decode. -/
def decodableAs (n : Nat) (fields : List Json) : Bool :=
  if n = 1 ∨ n = 3 then
    nextIs (·.toString?.isNone) (fun _ fields => !fields.isEmpty) fields
  else if n = 2 then
    nextIs (·.toNumber?.isNone)
      (fun id fields => !fields.isEmpty && id.integralIn (-2147483648) 2147483647) fields
  else if n = 4 ∨ n = 5 then !fields.isEmpty
  else if n = 9 then
    nextIs (·.number?.isNone)
      (fun type => nextIs (·.toNumber?.isNone)
        (fun id => nextIs (·.toString?.isNone)
          (fun _ fields => !fields.isEmpty && type.integralIn 0 4294967295 &&
            id.integralIn (-2147483648) 2147483647))) fields
  else n = 10 ∨ n = 11 ∨ n = 20 ∨ n = 21

/-- A value is safe to decode. -/
def decodable : Json → Bool
  | .array (tag :: fields) => (tagNumber? tag).all fun n => decodableAs n fields
  | _ => true

variable {α : Type} {tag : Json} {fields : List Json}

/-- The decoders replace null details by an empty object, and no others. -/
theorem readDetails_eq (details : Json) : readDetails details = orEmpty details := by
  cases details <;> simp [readDetails, orEmpty]

private theorem toString?_eq_some {x : Json} {s : Bytes} :
    x.toString? = some s ↔ x = .string s := by
  cases x <;> simp [Json.toString?]

private theorem safe_stringAndDetails {build : Bytes → Json → α}
    {good : α → Prop} (hgood : ∀ s details, good (build s details) ↔
      fields[0]? = some (.string s) ∧ detailsAt (.array (tag :: fields)) 2 details) :
    Safe (stringAndDetails build) (.array (tag :: fields)) good ↔
      nextIs (·.toString?.isNone) (fun _ fields => !fields.isEmpty) fields = true := by
  unfold stringAndDetails
  simp only [safe_element, safe_convert, safe_pure, hgood, toString?_eq_some, detailsAt, elements,
    readDetails_eq]
  rcases fields with - | ⟨x, - | ⟨details, rest⟩⟩
  · simp [nextIs]
  · cases x <;> simp [nextIs, Json.toString?]
  · simp [nextIs]

private theorem safe_detailsOnly {build : Json → α} {good : α → Prop}
    (hgood : ∀ details, good (build details) ↔ detailsAt (.array (tag :: fields)) 1 details) :
    Safe (detailsOnly build) (.array (tag :: fields)) good ↔ (!fields.isEmpty) = true := by
  unfold detailsOnly
  simp only [safe_element, safe_pure, hgood, detailsAt, elements, readDetails_eq]
  cases fields <;> simp

private theorem ofJson?_isNone (x : Json) : (MessageTypes.ofJson? x).isNone = x.number?.isNone := by
  cases x <;> rfl

private theorem toInt32?_isNone (x : Json) : x.toInt32?.isNone = x.toNumber?.isNone := by
  simp [Json.toInt32?]

private theorem forall_ne_some {α : Type} {o : Option α} :
    (∀ a, o ≠ some a) ↔ o.isNone = true := by
  cases o <;> simp

private theorem reads_type_iff {x : Json} {t : MessageTypes}
    (ht : MessageTypes.ofJson? x = some t) :
    x.number? = some (t.underlying.toNat : Rat) ↔ x.integralIn 0 4294967295 = true := by
  rw [← Json.reads_uint32_iff]
  cases x with
  | integer m =>
    cases ht
    simp [Json.toUInt32?, Json.toNumber?]
  | float v =>
    cases ht
    simp [Json.toUInt32?, Json.toNumber?]
  | _ => cases ht

private theorem safe_welcome : Safe WelcomeMessage.fromJson (.array (tag :: fields))
      (fun msg => TypedMessage.heldBy (.array (tag :: fields)) (.welcome msg)) ↔
    nextIs (·.toNumber?.isNone)
      (fun id fields => !fields.isEmpty && id.integralIn (-2147483648) 2147483647) fields =
        true := by
  unfold WelcomeMessage.fromJson
  simp only [safe_element, safe_convert, safe_pure, TypedMessage.heldBy, numberAt, detailsAt,
    elements, readDetails_eq]
  rcases fields with - | ⟨x, - | ⟨details, rest⟩⟩
  · simp [nextIs]
  · simp [nextIs, forall_ne_some, toInt32?_isNone]
  · simp only [List.getElem?_cons_succ, List.getElem?_cons_zero, Option.some.injEq,
      exists_eq_left', and_true, nextIs, List.isEmpty_cons, Bool.not_false, Bool.true_and,
      Json.reads_int32_iff, Bool.or_eq_true, Option.isNone_iff_eq_none]
    exact ⟨.inr, fun h => h.elim Json.integralIn_of_toNumber? id⟩

private theorem safe_error : Safe ErrorMessage.fromJson (.array (tag :: fields))
      (fun msg => TypedMessage.heldBy (.array (tag :: fields)) (.error msg)) ↔
    nextIs (·.number?.isNone)
      (fun type => nextIs (·.toNumber?.isNone)
        (fun id => nextIs (·.toString?.isNone)
          (fun _ fields => !fields.isEmpty && type.integralIn 0 4294967295 &&
            id.integralIn (-2147483648) 2147483647))) fields = true := by
  unfold ErrorMessage.fromJson
  simp only [safe_element, safe_convert, safe_pure, TypedMessage.heldBy, numberAt, detailsAt,
    elements, readDetails_eq]
  rcases fields with - | ⟨x, fields⟩
  · simp [nextIs]
  simp only [nextIs, ← ofJson?_isNone, ← toInt32?_isNone]
  cases hx : MessageTypes.ofJson? x with
  | none => simp [hx]
  | some t =>
    rcases fields with - | ⟨y, fields⟩
    · simp [hx]
    cases hy : y.toInt32? with
    | none => simp [hy]
    | some id =>
      rcases fields with - | ⟨z, fields⟩
      · simp [hx, hy]
      cases z with
      | string s =>
        rcases fields with - | ⟨details, rest⟩
        · simp [hx, hy, Json.toString?]
        · simp [hx, hy, Json.toString?, reads_type_iff hx, Json.integralIn_int32 hy]
      | _ => simp [hy, Json.toString?]

private theorem safe_get {fromJson : Decoder α} {basic : BasicMessage} {good : α → Prop} :
    Safe (BasicMessage.get fromJson) basic good ↔ Safe fromJson basic.j good :=
  ⟨fun h => ⟨h.bounded, h.exact⟩, fun h => ⟨h.bounded, h.exact⟩⟩

private theorem getMessageType_cons : BasicMessage.getMessageType ⟨.array (tag :: fields)⟩ =
    ⟨match MessageTypes.ofJson? tag with
      | some t => .value t
      | none => .thrown (.typeError 302), ⟨.array (tag :: fields)⟩, []⟩ := by
  cases ht : MessageTypes.ofJson? tag <;>
    simp [BasicMessage.getMessageType, BasicMessage.jLens, subscript, ht]

private theorem getMessageType_ne_value {j : Json} (hj : ∀ tag fields, j ≠ .array (tag :: fields))
    (t : MessageTypes) : (BasicMessage.getMessageType ⟨j⟩).outcome ≠ .value t := by
  cases j with
  | array elements =>
    cases elements with
    | nil => simp [BasicMessage.getMessageType, BasicMessage.jLens, subscript, MessageTypes.ofJson?]
    | cons tag fields => exact absurd rfl (hj tag fields)
  | null => simp [BasicMessage.getMessageType, BasicMessage.jLens, subscript, MessageTypes.ofJson?]
  | _ => simp [BasicMessage.getMessageType, BasicMessage.jLens, subscript]

private theorem ofJson?_eq (tag : Json) :
    MessageTypes.ofJson? tag = (tagNumber? tag).map fun n => ⟨UInt32.ofNat n⟩ := by
  cases tag <;> rfl

private theorem tagNumber?_lt {n : Nat} (h : tagNumber? tag = some n) : n < 4294967296 := by
  cases tag with
  | integer m =>
    simp only [tagNumber?, Option.some.injEq] at h
    omega
  | float v =>
    simp only [tagNumber?, Option.some.injEq] at h
    omega
  | _ => cases h

private theorem mem_all_iff (t : MessageTypes) :
    t ∈ MessageTypes.all ↔ t.underlying.toNat ∈ [1, 2, 3, 4, 5, 9, 10, 11, 20, 21] := by
  constructor
  · intro ht
    simp only [MessageTypes.all, List.mem_cons, List.not_mem_nil, or_false] at ht
    rcases ht with rfl | rfl | rfl | rfl | rfl | rfl | rfl | rfl | rfl | rfl <;> decide
  · intro ht
    obtain ⟨u⟩ := t
    have hu : u = UInt32.ofNat u.toNat := UInt32.ofNat_toNat.symm
    simp only [List.mem_cons, List.not_mem_nil, or_false] at ht
    rcases ht with h | h | h | h | h | h | h | h | h | h <;> rw [hu, h] <;> decide

private theorem decoder_safe_iff {t : MessageTypes} {fromJson : Decoder α} {f : α → TypedMessage}
    {p : Prop} (hall : t ∈ MessageTypes.all)
    (ht : TypedMessage.decoder? t = some do return f (← fromJson))
    (hp : Safe fromJson (.array (tag :: fields))
      (fun a => TypedMessage.heldBy (.array (tag :: fields)) (f a)) ↔ p) :
    (t ∈ MessageTypes.all ∧ ∀ fromJson, TypedMessage.decoder? t = some fromJson →
        Safe fromJson (.array (tag :: fields)) (TypedMessage.heldBy (.array (tag :: fields)))) ↔
      p := by
  rw [← hp, ht]
  simp only [hall, Option.some.injEq, forall_eq', true_and]
  exact safe_map

private theorem no_decoder_safe_iff {t : MessageTypes} (hall : t ∈ MessageTypes.all)
    (ht : TypedMessage.decoder? t = none) :
    (t ∈ MessageTypes.all ∧ ∀ fromJson, TypedMessage.decoder? t = some fromJson →
        Safe fromJson (.array (tag :: fields)) (TypedMessage.heldBy (.array (tag :: fields)))) ↔
      true = true := by
  simp [hall, ht]

private theorem safe_iff (t : MessageTypes) :
    (t ∈ MessageTypes.all ∧ ∀ fromJson, TypedMessage.decoder? t = some fromJson →
        Safe fromJson (.array (tag :: fields)) (TypedMessage.heldBy (.array (tag :: fields)))) ↔
      decodableAs t.underlying.toNat fields = true := by
  by_cases hall : t ∈ MessageTypes.all
  · have hcases := hall
    simp only [MessageTypes.all, List.mem_cons, List.not_mem_nil, or_false] at hcases
    rcases hcases with rfl | rfl | rfl | rfl | rfl | rfl | rfl | rfl | rfl | rfl
    · exact decoder_safe_iff hall rfl (safe_stringAndDetails fun s details => Iff.rfl)
    · exact decoder_safe_iff hall rfl safe_welcome
    · exact decoder_safe_iff hall rfl (safe_stringAndDetails fun s details => Iff.rfl)
    · exact decoder_safe_iff hall rfl (safe_detailsOnly fun details => Iff.rfl)
    · exact decoder_safe_iff hall rfl (safe_detailsOnly fun details => Iff.rfl)
    · exact decoder_safe_iff hall rfl safe_error
    all_goals exact no_decoder_safe_iff hall rfl
  · have hnumber := hall
    simp only [mem_all_iff, List.mem_cons, List.not_mem_nil, or_false, not_or] at hnumber
    simp [hall, decodableAs, hnumber]

private theorem decodesSafely_of_untyped {basic : BasicMessage}
    (hne : ∀ t, (BasicMessage.getMessageType basic).outcome ≠ .value t) : DecodesSafely basic := by
  constructor
  · intro t ht
    exact absurd ht (hne t)
  · intro t fromJson ht
    exact absurd ht (hne t)

/-- A value is decoded safely exactly when it is decodable. -/
theorem decodesSafely_iff (basic : BasicMessage) :
    DecodesSafely basic ↔ decodable basic.j = true := by
  obtain ⟨j⟩ := basic
  by_cases hj : ∃ tag fields, j = .array (tag :: fields)
  · obtain ⟨tag, fields, rfl⟩ := hj
    cases ht : tagNumber? tag with
    | none =>
      have hsafe : DecodesSafely ⟨.array (tag :: fields)⟩ := by
        apply decodesSafely_of_untyped
        intro t
        simp [getMessageType_cons, ofJson?_eq, ht]
      simp [hsafe, decodable, ht]
    | some n =>
      have hlt := tagNumber?_lt ht
      have htype : (BasicMessage.getMessageType ⟨.array (tag :: fields)⟩) =
          ⟨.value ⟨UInt32.ofNat n⟩, ⟨.array (tag :: fields)⟩, []⟩ := by
        simp [getMessageType_cons, ofJson?_eq, ht]
      have hsafe := @safe_iff tag fields ⟨UInt32.ofNat n⟩
      rw [UInt32.toNat_ofNat_of_lt' hlt] at hsafe
      rw [decodable, ht, Option.all_some, ← hsafe]
      constructor
      · intro h
        refine ⟨h.known _ (by rw [htype]), fun fromJson hf => ?_⟩
        have hget := h.decoded _ fromJson (by rw [htype]) hf
        rw [htype] at hget
        exact safe_get.mp hget
      · rintro ⟨hknown, hdecoded⟩
        constructor
        · intro t hvalue
          rw [htype] at hvalue
          cases hvalue
          exact hknown
        · intro t fromJson hvalue hf
          rw [htype] at hvalue ⊢
          cases hvalue
          exact safe_get.mpr (hdecoded fromJson hf)
  · have hne : ∀ tag fields, j ≠ .array (tag :: fields) :=
      fun tag fields he => hj ⟨tag, fields, he⟩
    have hdecodable : decodable j = true := by
      unfold decodable
      split
      · exact absurd rfl (hne _ _)
      · rfl
    simp [hdecodable, decodesSafely_of_untyped (getMessageType_ne_value hne)]

/-- A text that is parsed is decoded safely exactly when its value is decodable. -/
theorem texts_decode_safely_iff (text : JsonText) (s : Bytes) :
    (∀ basic, parse text s = .ok basic → DecodesSafely basic) ↔
      ∀ v, text.parse s = .ok v → decodable v = true := by
  simp only [decodesSafely_iff, parse]
  cases text.parse s <;> simp [Except.map]

/-- The text `[2]`. -/
def shortText : JsonText := .single (.array [.integer 2]) (utf8 "[2]")

/-- Decoding the WELCOME `[2]` reads the element behind the array's last one. -/
theorem not_decodes_safely :
    parse shortText (utf8 "[2]") = .ok ⟨.array [.integer 2]⟩ ∧
    (BasicMessage.getMessageType ⟨.array [.integer 2]⟩).outcome = .value .welcome ∧
    (BasicMessage.get WelcomeMessage.fromJson ⟨.array [.integer 2]⟩).outcome =
      .crashed (.pastEnd 1) ∧
    ¬ DecodesSafely ⟨.array [.integer 2]⟩ := by
  have hcrash : (BasicMessage.get WelcomeMessage.fromJson ⟨.array [.integer 2]⟩).outcome =
      .crashed (.pastEnd 1) := rfl
  refine ⟨by decide, by decide, hcrash, ?_⟩
  intro h
  have hbounded := (h.decoded .welcome _ (by decide) rfl).bounded (.pastEnd 1)
  exact hbounded rfl

end Barbarossa.Protocol
