import Barbarossa.Protocol.Decoder

/-!
# The details of a WELCOME

`include/barbarossa/protocol_details.hpp`. The encoder writes four members of an object by
their keys, the decoder reads them back by the same keys and checks each one.
-/

namespace Barbarossa.Protocol
open Barbarossa.Base

/-! ### Members of an object -/

/-- The member under a key. -/
def member? (key : Bytes) : List (Bytes × Json) → Option Json
  | [] => none
  | (k, j) :: rest => if key = k then some j else member? key rest

/-- Write the member under a key, in the order of the keys. -/
def writeMember (key : Bytes) (value : Json) : List (Bytes × Json) → List (Bytes × Json)
  | [] => [(key, value)]
  | (k, j) :: rest =>
    if key = k then (key, value) :: rest
    else if key < k then (key, value) :: (k, j) :: rest
    else (k, j) :: writeMember key value rest

/-- A written member is found. -/
theorem member?_writeMember (key : Bytes) (value : Json) (members : List (Bytes × Json)) :
    member? key (writeMember key value members) = some value := by
  induction members with
  | nil => simp [writeMember, member?]
  | cons m rest ih =>
    obtain ⟨k, j⟩ := m
    by_cases hk : key = k
    · simp [writeMember, member?, hk]
    · by_cases hlt : key < k <;> simp [writeMember, member?, hk, hlt, ih]

/-- The other members stay. -/
theorem member?_writeMember_of_ne {key key' : Bytes} (hne : key' ≠ key) (value : Json)
    (members : List (Bytes × Json)) :
    member? key' (writeMember key value members) = member? key' members := by
  induction members with
  | nil => simp [writeMember, member?, hne]
  | cons m rest ih =>
    obtain ⟨k, j⟩ := m
    by_cases hk : key = k
    · subst hk
      simp [writeMember, member?, hne]
    · by_cases hlt : key < k <;> simp [writeMember, member?, hk, hlt, hne, ih]

/-- `operator[](key)` of a value that can change, assigned to: null becomes an object. -/
def assign (key : Bytes) (value : Json) : Exec Exception Empty Empty Json PUnit
  | .null => ⟨.value ⟨⟩, .object [(key, value)], []⟩
  | .object members => ⟨.value ⟨⟩, .object (writeMember key value members), []⟩
  | j => ⟨.thrown (.typeError 305), j, []⟩

/-- `at(key)`. -/
def memberAt (key : Bytes) : Decoder Json := do
  match ← Exec.get with
  | .object members =>
    match member? key members with
    | some x => pure x
    | none => Exec.throw (.jsonOutOfRange 403)
  | _ => Exec.throw (.typeError 304)

/-- A member that is there is found. -/
theorem memberAt_eq {key : Bytes} {members : List (Bytes × Json)} {x : Json}
    (h : member? key members = some x) :
    memberAt key (.object members) = ⟨.value x, .object members, []⟩ := by
  simp [memberAt, h]

/-! ### The details -/

/-- `protocol_details.hpp:18`. -/
structure WelcomeDetails where
  sessionTimeout : Int32 := 120
  pingInterval : Int32 := 104
  pongTimeout : Int32 := 16
  eventsTopic : Bytes := []
  deriving DecidableEq

namespace WelcomeDetails

/-- `to_json`; `protocol_details.hpp:63`. -/
def write (d : WelcomeDetails) : Exec Exception Empty Empty Json PUnit := do
  assign (utf8 "session_timeout") (.integer d.sessionTimeout.toInt)
  assign (utf8 "ping_interval") (.integer d.pingInterval.toInt)
  assign (utf8 "pong_max_wait_time") (.integer d.pongTimeout.toInt)
  assign (utf8 "events_topic") (.string d.eventsTopic)

/-- The value that is built from details. -/
def toJson (d : WelcomeDetails) : Json := (d.write .null).state

/-- `from_json`; `protocol_details.hpp:70`. -/
def fromJson : Decoder WelcomeDetails := do
  let sessionTimeout ← convert Json.toInt32? (← memberAt (utf8 "session_timeout"))
  let pingInterval ← convert Json.toInt32? (← memberAt (utf8 "ping_interval"))
  let pongTimeout ← convert Json.toInt32? (← memberAt (utf8 "pong_max_wait_time"))
  let eventsTopic ← convert Json.toString? (← memberAt (utf8 "events_topic"))
  return ⟨sessionTimeout, pingInterval, pongTimeout, eventsTopic⟩

/-- The members that are written. -/
def members (d : WelcomeDetails) : List (Bytes × Json) :=
  writeMember (utf8 "events_topic") (.string d.eventsTopic)
    (writeMember (utf8 "pong_max_wait_time") (.integer d.pongTimeout.toInt)
      (writeMember (utf8 "ping_interval") (.integer d.pingInterval.toInt)
        [(utf8 "session_timeout", .integer d.sessionTimeout.toInt)]))

/-- The details are the object of their members. -/
theorem toJson_eq (d : WelcomeDetails) : d.toJson = .object d.members := rfl

/-- The details are no null. -/
theorem toJson_ne_null (d : WelcomeDetails) : d.toJson ≠ .null := by
  rw [toJson_eq]
  intro h
  cases h

/-- Details are read back from their value, all four of them. -/
theorem fromJson_toJson (d : WelcomeDetails) :
    fromJson d.toJson = ⟨.value d, d.toJson, []⟩ := by
  have hsession : member? (utf8 "session_timeout") d.members =
      some (.integer d.sessionTimeout.toInt) := by
    unfold members
    rw [member?_writeMember_of_ne (by decide), member?_writeMember_of_ne (by decide),
      member?_writeMember_of_ne (by decide), member?, if_pos rfl]
  have hping : member? (utf8 "ping_interval") d.members =
      some (.integer d.pingInterval.toInt) := by
    unfold members
    rw [member?_writeMember_of_ne (by decide), member?_writeMember_of_ne (by decide),
      member?_writeMember]
  have hpong : member? (utf8 "pong_max_wait_time") d.members =
      some (.integer d.pongTimeout.toInt) := by
    unfold members
    rw [member?_writeMember_of_ne (by decide), member?_writeMember]
  have hevents : member? (utf8 "events_topic") d.members = some (.string d.eventsTopic) :=
    member?_writeMember _ _ _
  rw [toJson_eq]
  simp [fromJson, convert, memberAt_eq hsession, memberAt_eq hping, memberAt_eq hpong,
    memberAt_eq hevents, Json.toString?]

end WelcomeDetails

end Barbarossa.Protocol
