import Mathlib.Algebra.Group.Nat.Defs
import Mathlib.Data.Rat.Defs
import TwitchChatWorker.Lib.Utf8

/-!
JSON values as the handlers of the agents take them apart.  A text stands for
the bytes of a `std::string`, one character for each byte.
-/

namespace TwitchChatWorker.JsonValues

open TwitchChatWorker.Lib.Utf8

/-- The bytes of a text are UTF-8. -/
def utf8 (text : String) : Bool := wellFormed (text.toList.map Char.toNat)

/-- Integers and the other numbers. -/
inductive Number where
  | integer (value : Int)
  | real (value : Rat)

/-- A member of an object that occurs twice is the first one. -/
inductive Json where
  | null
  | boolean (value : Bool)
  | number (value : Number)
  | string (text : String)
  | array (elements : List Json)
  | object (members : List (String × Json))

/-- The exception of a value of the wrong type. -/
structure TypeError where
  id : Nat
  text : String

/-- What `dump()` throws for a text that is not UTF-8. -/
def TypeError.notUtf8 : TypeError := ⟨316, "invalid UTF-8 byte"⟩

/-- `get<int>()`: fractions are cut off and large values wrap. -/
def Number.getInt : Number → Int
  | .integer value => value.bmod (2 ^ 32)
  | .real value => (value.num.tdiv value.den).bmod (2 ^ 32)

namespace Json

mutual

/-- All texts of the value are UTF-8, so that `dump()` can write it. -/
def encodable : Json → Bool
  | .string text => utf8 text
  | .array elements => encodableElements elements
  | .object members => encodableMembers members
  | _ => true

def encodableElements : List Json → Bool
  | [] => true
  | element :: elements => element.encodable && encodableElements elements

def encodableMembers : List (String × Json) → Bool
  | [] => true
  | (key, value) :: members => utf8 key && value.encodable && encodableMembers members

end

/-- `type_name`. -/
def typeName : Json → String
  | .null => "null"
  | .boolean _ => "boolean"
  | .number _ => "number"
  | .string _ => "string"
  | .array _ => "array"
  | .object _ => "object"

/-- `operator[]` of a value that is not constant.  A member that is missing
reads as null; that it is also stored is of no consequence to the handlers. -/
def member (j : Json) (key : String) : Except TypeError Json :=
  match j with
  | .null => .ok .null
  | .object members => .ok ((members.lookup key).getD .null)
  | j => .error ⟨305, "cannot use operator[] with a string argument with " ++ j.typeName⟩

/-- `get<std::string>`. -/
def getString : Json → Except TypeError String
  | .string text => .ok text
  | j => .error ⟨302, "type must be string, but is " ++ j.typeName⟩

/-- The value has members, or is null and reads as if all were null. -/
def navigable : Json → Bool
  | .null | .object _ => true
  | _ => false

/-- The text of a string, and nothing otherwise. -/
def stringOrEmpty : Json → String
  | .string text => text
  | _ => ""

def isTrue : Json → Bool
  | .boolean value => value
  | _ => false

def isString : Json → Bool
  | .string _ => true
  | _ => false

theorem navigable_iff {j : Json} :
    j.navigable = true ↔ ∀ key, ∃ value, j.member key = .ok value := by
  cases j <;> simp [navigable, member]

theorem navigable_of_member {j value : Json} {key : String} (h : j.member key = .ok value) :
    j.navigable = true := by
  cases j <;> simp [member, navigable] at h ⊢

/-- There is a member with the property exactly when the value is an object or
null and the member, which is then unique, has the property. -/
theorem exists_member_iff {j : Json} {key : String} {p : Json → Prop} :
    (∃ value, j.member key = .ok value ∧ p value) ↔
      j.navigable = true ∧ ∀ value, j.member key = .ok value → p value := by
  constructor
  · rintro ⟨value, hvalue, hp⟩
    refine ⟨navigable_of_member hvalue, fun value' hvalue' => ?_⟩
    rw [hvalue] at hvalue'
    exact Except.ok.inj hvalue' ▸ hp
  · rintro ⟨hnavigable, hp⟩
    obtain ⟨value, hvalue⟩ := navigable_iff.mp hnavigable key
    exact ⟨value, hvalue, hp value hvalue⟩

theorem isString_iff {j : Json} : j.isString = true ↔ ∃ text, j.getString = .ok text := by
  cases j <;> simp [isString, getString]

@[simp] theorem encodable_number (value : Number) : (Json.number value).encodable = true := rfl

@[simp] theorem encodable_string (text : String) : (Json.string text).encodable = utf8 text := rfl

theorem encodable_array {elements : List Json} :
    (Json.array elements).encodable = true ↔ ∀ element ∈ elements, element.encodable = true := by
  rw [encodable]
  induction elements with
  | nil => simp [encodableElements]
  | cons element elements ih => simp [encodableElements, ih]

theorem encodable_object {members : List (String × Json)} :
    (Json.object members).encodable = true ↔
      ∀ entry ∈ members, utf8 entry.1 = true ∧ entry.2.encodable = true := by
  rw [encodable]
  induction members with
  | nil => simp [encodableMembers]
  | cons entry members ih => simp [encodableMembers, ih]

theorem encodable_member {j value : Json} {key : String} (hj : j.encodable = true)
    (h : j.member key = .ok value) : value.encodable = true := by
  cases j with
  | null => exact Except.ok.inj h ▸ rfl
  | object members =>
      obtain rfl := Except.ok.inj h
      cases hfind : members.lookup key with
      | none => rfl
      | some value =>
          obtain ⟨before, after, rfl, -⟩ := List.lookup_eq_some_iff.mp hfind
          exact (encodable_object.mp hj (key, value) (by simp)).2
  | _ => cases h

end Json

theorem utf8_of_ascii {text : String} (hascii : ∀ c ∈ text.toList, c.toNat < 0x80) :
    utf8 text = true := by
  apply wellFormed_of_ascii
  simpa using hascii

theorem utf8_toString (n : Int) : utf8 (toString n) = true := by
  have hdigits (n : Nat) : ∀ c ∈ Nat.toDigits 10 n, c.toNat < 0x80 := by
    intro c hc
    have hdigit := Nat.isDigit_of_mem_toDigits (by decide) (Nat.le_refl 10) hc
    simp only [Char.isDigit, Bool.and_eq_true, decide_eq_true_eq] at hdigit
    exact Nat.lt_of_le_of_lt hdigit.2 (by decide)
  apply utf8_of_ascii
  rw [Int.toString_eq_repr, Int.repr_eq_if]
  split_ifs
  · rw [Nat.toList_repr]
    exact hdigits _
  · rw [String.toList_append, Nat.toList_repr]
    intro c hc
    rcases List.mem_append.mp hc with hc | hc
    · obtain rfl := List.mem_singleton.mp hc
      decide
    · exact hdigits _ c hc

end TwitchChatWorker.JsonValues
