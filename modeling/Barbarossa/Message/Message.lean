import Barbarossa.Message.Errors

/-!
# Untyped messages

`include/barbarossa/message.hpp`, `message.ipp` and `message_type.hpp`. A message is a
vector of JSON fields; reading a field may fail on its index or on its type, and nothing
else about a field is checked.
-/

namespace Barbarossa
open Barbarossa.Base

/-- `include/barbarossa/message_type.hpp:19`. -/
inductive MessageType where
  | hello
  | welcome
  | abort
  | ping
  | pong
  | error
  | call
  | result
  | publish
  | published
  deriving DecidableEq, Repr

namespace MessageType

/-- The enumerator's value. -/
def toInt : MessageType → Int
  | .hello => 1
  | .welcome => 2
  | .abort => 3
  | .ping => 4
  | .pong => 5
  | .error => 9
  | .call => 10
  | .result => 11
  | .publish => 20
  | .published => 21

/-- The enumerator a `static_cast<MessageType>` from `int` yields, if the value has one. -/
def ofInt32? (tag : Int32) : Option MessageType :=
  if tag = 1 then some .hello
  else if tag = 2 then some .welcome
  else if tag = 3 then some .abort
  else if tag = 4 then some .ping
  else if tag = 5 then some .pong
  else if tag = 9 then some .error
  else if tag = 10 then some .call
  else if tag = 11 then some .result
  else if tag = 20 then some .publish
  else if tag = 21 then some .published
  else none

/-- The cast inverts the enumerator's value. -/
theorem ofInt32?_toInt (t : MessageType) : ofInt32? (Int32.ofInt t.toInt) = some t := by
  cases t <;> decide

private theorem toInt_of_ite {x : Option MessageType} {tag n : Int32} {t u : MessageType}
    (hn : n.toInt = u.toInt) (hx : x = some t → tag.toInt = t.toInt)
    (h : (if tag = n then some u else x) = some t) : tag.toInt = t.toInt := by
  split at h
  · next htag =>
    cases h
    rw [htag, hn]
  · exact hx h

/-- The cast yields an enumerator only for its own value. -/
theorem toInt_of_ofInt32? {tag : Int32} {t : MessageType} (h : ofInt32? tag = some t) :
    tag.toInt = t.toInt := by
  unfold ofInt32? at h
  revert h
  repeat
    apply toInt_of_ite
    · decide
  intro h
  cases h

end MessageType

/-- `include/barbarossa/message.hpp:22`. -/
structure Message where
  fields : List Json
  deriving DecidableEq, Inhabited

namespace Message

/-- `Message(std::size_t num_fields)`: that many null fields; `message.ipp:14`. -/
def ofSize (numFields : Nat) : Message := ⟨List.replicate numFields .null⟩

/-- `message.ipp:56`. -/
def size (m : Message) : Nat := m.fields.length

/-- The text of the index error; `message.ipp:32`. -/
def invalidIndex : Exception := .outOfRange (utf8 "invalid message field index")

/-- `Field<Type>`, with the `get<Type>()` of the field's JSON value; `message.ipp:39`. -/
def fieldAs {α : Type} (get : Json → Option α) (m : Message) (index : Nat) :
    Except Exception α :=
  if h : index < m.fields.length then
    match get m.fields[index] with
    | some a => .ok a
    | none => .error (.typeError 302)
  else .error invalidIndex

/-- `Field<int32_t>`, also `Field<int>`. -/
def fieldInt32 (m : Message) (index : Nat) : Except Exception Int32 := m.fieldAs Json.toInt32? index

/-- `Field<uint32_t>`. -/
def fieldUInt32 (m : Message) (index : Nat) : Except Exception UInt32 :=
  m.fieldAs Json.toUInt32? index

/-- `Field<std::string>`. -/
def fieldString (m : Message) (index : Nat) : Except Exception Bytes :=
  m.fieldAs Json.toString? index

/-- `Field<json>`. -/
def fieldJson (m : Message) (index : Nat) : Except Exception Json := m.fieldAs some index

/-- `SetField`; `message.ipp:48`. -/
def setField (m : Message) (index : Nat) (value : Json) : Except Exception Message :=
  if index < m.fields.length then .ok ⟨m.fields.set index value⟩
  else .error invalidIndex

end Message
end Barbarossa
