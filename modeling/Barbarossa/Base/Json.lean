import Mathlib.Data.Rat.Defs

/-!
# JSON values and their C++ conversions

The values of `nlohmann::json` and the conversions of its `get<T>()`: an arithmetic
target accepts every number and boolean and is an unchecked `static_cast`, a string
target accepts strings only. Signed and unsigned integers that denote one number are
one value here, as they compare equal and print the same text. Strings are bytes:
`dump` refuses those that are not UTF-8.
-/

namespace Barbarossa.Base

/-- The bytes of a `std::string`. -/
abbrev Bytes := List UInt8

/-- The bytes of a string literal. -/
def utf8 (s : String) : Bytes := s.toByteArray.data.toList

/-- A JSON value. A finite floating-point number is its exact rational value; an object lists
its members by key. -/
inductive Json where
  | null
  | boolean (b : Bool)
  | integer (n : Int)
  | float (v : Rat)
  | string (s : Bytes)
  | array (elements : List Json)
  | object (members : List (Bytes × Json))
  deriving Inhabited

namespace Json

/-! ### Decidable equality -/

mutual

private def decEqValue : (a b : Json) → Decidable (a = b)
  | .null, .null => isTrue rfl
  | .boolean a, .boolean b => decidable_of_iff (a = b) (by simp)
  | .integer a, .integer b => decidable_of_iff (a = b) (by simp)
  | .float a, .float b => decidable_of_iff (a = b) (by simp)
  | .string a, .string b => decidable_of_iff (a = b) (by simp)
  | .array a, .array b =>
    match decEqElements a b with
    | isTrue h => isTrue (congrArg _ h)
    | isFalse h => isFalse fun he => h (Json.array.inj he)
  | .object a, .object b =>
    match decEqMembers a b with
    | isTrue h => isTrue (congrArg _ h)
    | isFalse h => isFalse fun he => h (Json.object.inj he)
  | .null, .boolean _ | .null, .integer _ | .null, .float _ | .null, .string _
  | .null, .array _ | .null, .object _ => isFalse nofun
  | .boolean _, .null | .boolean _, .integer _ | .boolean _, .float _ | .boolean _, .string _
  | .boolean _, .array _ | .boolean _, .object _ => isFalse nofun
  | .integer _, .null | .integer _, .boolean _ | .integer _, .float _ | .integer _, .string _
  | .integer _, .array _ | .integer _, .object _ => isFalse nofun
  | .float _, .null | .float _, .boolean _ | .float _, .integer _ | .float _, .string _
  | .float _, .array _ | .float _, .object _ => isFalse nofun
  | .string _, .null | .string _, .boolean _ | .string _, .integer _ | .string _, .float _
  | .string _, .array _ | .string _, .object _ => isFalse nofun
  | .array _, .null | .array _, .boolean _ | .array _, .integer _ | .array _, .float _
  | .array _, .string _ | .array _, .object _ => isFalse nofun
  | .object _, .null | .object _, .boolean _ | .object _, .integer _ | .object _, .float _
  | .object _, .string _ | .object _, .array _ => isFalse nofun

private def decEqElements : (a b : List Json) → Decidable (a = b)
  | [], [] => isTrue rfl
  | x :: a, y :: b =>
    match decEqValue x y, decEqElements a b with
    | isTrue h, isTrue h' => isTrue (by rw [h, h'])
    | isFalse h, _ => isFalse fun he => h (List.cons.inj he).1
    | _, isFalse h => isFalse fun he => h (List.cons.inj he).2
  | [], _ :: _ | _ :: _, [] => isFalse nofun

private def decEqMembers : (a b : List (Bytes × Json)) → Decidable (a = b)
  | [], [] => isTrue rfl
  | (k, x) :: a, (l, y) :: b =>
    match decEq k l, decEqValue x y, decEqMembers a b with
    | isTrue h, isTrue h', isTrue h'' => isTrue (by rw [h, h', h''])
    | isFalse h, _, _ => isFalse fun he => h (Prod.mk.inj (List.cons.inj he).1).1
    | _, isFalse h, _ => isFalse fun he => h (Prod.mk.inj (List.cons.inj he).1).2
    | _, _, isFalse h => isFalse fun he => h (List.cons.inj he).2
  | [], _ :: _ | _ :: _, [] => isFalse nofun

end

instance : DecidableEq Json := decEqValue

/-! ### Conversions -/

/-- The number an arithmetic `get<T>()` casts: any number, or a boolean. A float is truncated
toward zero. -/
def toNumber? : Json → Option Int
  | .integer n => some n
  | .float v => some (v.num.tdiv v.den)
  | .boolean b => some (if b then 1 else 0)
  | _ => none

/-- `get<int32_t>()`: the low 32 bits as a signed number. A float outside the range, whose cast
C++ leaves undefined, wraps as well. -/
def toInt32? (j : Json) : Option Int32 := j.toNumber?.map Int32.ofInt

/-- `get<uint32_t>()`: the low 32 bits as an unsigned number. -/
def toUInt32? (j : Json) : Option UInt32 := j.toNumber?.map UInt32.ofInt

/-- A number of the type is read back. -/
@[simp] theorem toInt32?_toInt (n : Int32) : (Json.integer n.toInt).toInt32? = some n := by
  simp [toInt32?, toNumber?]

/-- `get<std::string>()`. -/
def toString? : Json → Option Bytes
  | .string s => some s
  | _ => none

/-! ### Exact integers -/

/-- The number a value denotes. -/
def number? : Json → Option Rat
  | .integer n => some n
  | .float v => some v
  | _ => none

/-- The value is no number and no boolean, or it denotes an integer from `lo` to `hi`. -/
def integralIn (lo hi : Int) : Json → Bool
  | .integer n => decide (lo ≤ n ∧ n ≤ hi)
  | .float v => decide (v.den = 1 ∧ lo ≤ v.num ∧ v.num ≤ hi)
  | .boolean _ => false
  | _ => true

/-- A value that does not convert is no number and no boolean. -/
theorem integralIn_of_toNumber? {lo hi : Int} {j : Json} (hn : j.toNumber? = none) :
    j.integralIn lo hi = true := by
  cases j with
  | integer m => cases hn
  | float v => cases hn
  | boolean b => cases hn
  | _ => rfl

/-- Where a cast from the numbers from `lo` to `hi` keeps its argument, it yields the number a value
denotes exactly when the value is such an integer. -/
theorem integralIn_iff {lo hi : Int} {c : Int → Int} (hcast : ∀ n, lo ≤ n → n ≤ hi → c n = n)
    (hlo : ∀ n, lo ≤ c n) (hhi : ∀ n, c n ≤ hi) {j : Json} {n : Int}
    (hn : j.toNumber? = some n) : j.integralIn lo hi = true ↔ j.number? = some (c n : Rat) := by
  have hbounds : lo ≤ c n ∧ c n ≤ hi := ⟨hlo n, hhi n⟩
  cases j with
  | integer m =>
    cases hn
    simp only [integralIn, number?, decide_eq_true_eq, Option.some.injEq, Rat.intCast_inj]
    constructor
    · exact fun h => (hcast n h.1 h.2).symm
    · intro h
      rwa [← h] at hbounds
  | float v =>
    have hv : v.num.tdiv v.den = n := Option.some.inj hn
    simp only [integralIn, number?, decide_eq_true_eq, Option.some.injEq]
    constructor
    · rintro ⟨hden, h⟩
      rw [hden, Int.ofNat_one, Int.tdiv_one] at hv
      rw [← hv, hcast _ h.1 h.2]
      exact ((Rat.den_eq_one_iff v).mp hden).symm
    · intro h
      rw [h]
      exact ⟨rfl, hbounds⟩
  | boolean b => simp [integralIn, number?]
  | _ => cases hn

/-- `get<int32_t>()` yields the number a value denotes exactly when that is an integer of the
type. -/
theorem integralIn_int32 {j : Json} {n : Int32} (hn : j.toInt32? = some n) :
    j.integralIn (-2147483648) 2147483647 = true ↔ j.number? = some (n.toInt : Rat) := by
  obtain ⟨m, hm, rfl⟩ := Option.map_eq_some_iff.mp hn
  apply integralIn_iff (c := fun m => (Int32.ofInt m).toInt) _ _ _ hm
  · intro n hlo hhi
    apply Int32.toInt_ofInt_of_le <;> omega
  · intro n
    have h := (Int32.ofInt n).le_toInt
    omega
  · intro n
    have h := (Int32.ofInt n).toInt_lt
    omega

/-- `get<uint32_t>()` yields the number a value denotes exactly when that is an integer of the
type. -/
theorem integralIn_uint32 {j : Json} {n : UInt32} (hn : j.toUInt32? = some n) :
    j.integralIn 0 4294967295 = true ↔ j.number? = some ((n.toNat : Int) : Rat) := by
  obtain ⟨m, hm, rfl⟩ := Option.map_eq_some_iff.mp hn
  apply integralIn_iff (c := fun m => ((UInt32.ofInt m).toNat : Int)) _ _ _ hm
  · intro n hlo hhi
    simp [UInt32.ofInt]
    omega
  · intro n
    omega
  · intro n
    have h := (UInt32.ofInt n).toNat_lt
    omega

/-- Where `inRange` leaves out exactly the values that are read as another integer, a value is read
as the integer it denotes or not at all exactly when it is in the range. -/
theorem reads_exactly_iff {α : Type} {get : Json → Option α} {value : α → Int}
    {inRange : Json → Bool} {j : Json} (hnone : get j = none → inRange j = true)
    (hsome : ∀ n, get j = some n → (inRange j = true ↔ j.number? = some (value n : Rat))) :
    (∀ n, get j = some n → j.number? = some (value n : Rat)) ↔ inRange j = true := by
  constructor
  · intro hexact
    cases hn : get j with
    | none => exact hnone hn
    | some n => exact (hsome n hn).mpr (hexact n hn)
  · intro hin n hn
    exact (hsome n hn).mp hin

/-- When `get<int32_t>()` reads exactly. -/
theorem reads_int32_iff {j : Json} :
    (∀ n, j.toInt32? = some n → j.number? = some (n.toInt : Rat)) ↔
      j.integralIn (-2147483648) 2147483647 = true :=
  reads_exactly_iff (fun hn => integralIn_of_toNumber? (Option.map_eq_none_iff.mp hn))
    fun _ hn => integralIn_int32 hn

/-- When `get<uint32_t>()` reads exactly. -/
theorem reads_uint32_iff {j : Json} :
    (∀ n, j.toUInt32? = some n → j.number? = some ((n.toNat : Int) : Rat)) ↔
      j.integralIn 0 4294967295 = true :=
  reads_exactly_iff (fun hn => integralIn_of_toNumber? (Option.map_eq_none_iff.mp hn))
    fun _ hn => integralIn_uint32 hn

/-- A value that denotes an integer converts to it. -/
theorem toNumber?_of_number? {j : Json} {n : Int} (h : j.number? = some (n : Rat)) :
    j.toNumber? = some n := by
  cases j with
  | integer m =>
    simp only [number?, Option.some.injEq, Rat.intCast_inj] at h
    rw [h]
    rfl
  | float v =>
    simp only [number?, Option.some.injEq] at h
    rw [h]
    simp [toNumber?]
  | _ => cases h

/-! ### Dumping -/

/-- A UTF-8 continuation byte in the given range. -/
private def continues (lo hi c : UInt8) : Bool := lo ≤ c && c ≤ hi

/-- Well-formed UTF-8: no overlong form, no surrogate, nothing past U+10FFFF. -/
def validUtf8 : Bytes → Bool
  | [] => true
  | b :: rest =>
    if b < 0x80 then validUtf8 rest
    else match rest with
    | [] => false
    | c :: rest =>
      if 0xC2 ≤ b && b ≤ 0xDF then continues 0x80 0xBF c && validUtf8 rest
      else match rest with
      | [] => false
      | d :: rest =>
        if 0xE0 ≤ b && b ≤ 0xEF then
          continues (if b = 0xE0 then 0xA0 else 0x80) (if b = 0xED then 0x9F else 0xBF) c &&
            continues 0x80 0xBF d && validUtf8 rest
        else match rest with
        | [] => false
        | e :: rest =>
          0xF0 ≤ b && b ≤ 0xF4 &&
            continues (if b = 0xF0 then 0x90 else 0x80) (if b = 0xF4 then 0x8F else 0xBF) c &&
            continues 0x80 0xBF d && continues 0x80 0xBF e && validUtf8 rest

mutual

/-- `dump()` accepts the value: every string and every key in it is UTF-8. -/
def dumpable : Json → Bool
  | .string s => validUtf8 s
  | .array elements => dumpableElements elements
  | .object members => dumpableMembers members
  | _ => true

/-- `dump()` accepts every element. -/
def dumpableElements : List Json → Bool
  | [] => true
  | j :: rest => dumpable j && dumpableElements rest

/-- `dump()` accepts every key and every member. -/
def dumpableMembers : List (Bytes × Json) → Bool
  | [] => true
  | (k, j) :: rest => validUtf8 k && dumpable j && dumpableMembers rest

end

example : Json.dumpable (.array [.integer (-1), .string (utf8 "é")]) = true := by decide

example : (Json.integer 4294967306).toInt32? = some 10 := by decide

end Json

end Barbarossa.Base
