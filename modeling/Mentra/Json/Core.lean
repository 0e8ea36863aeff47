import Mathlib

/-!
# JSON values

Values as `serde_json` keeps them.  A number is a non-negative or a negative integer of 64
bits, or a finite double; numbers of different kinds are never equal there, although they may
have the same value.  The first field of a name counts.

`Same` is equality as JSON Schema has it: by the value of numbers.
-/

namespace Mentra

/-- A finite double: a mantissa of 53 bits and a sign, and an exponent. -/
structure Float64 where
  mantissa : Int
  exponent : Int
  fits : mantissa.natAbs < 2 ^ 53
  inRange : -1074 ≤ exponent ∧ exponent ≤ 971

def Float64.value (float : Float64) : ℚ :=
  float.mantissa * 2 ^ float.exponent

inductive Number
  | posInt (value : Fin (2 ^ 64))
  | negInt (value : Int) (negative : -2 ^ 63 ≤ value ∧ value < 0)
  | float (value : Float64)

inductive Json
  | null
  | bool (value : Bool)
  | number (number : Number)
  | string (text : String)
  | array (items : List Json)
  | object (fields : List (String × Json))

namespace Number

def value : Number → ℚ
  | posInt value => value.val
  | negInt value _ => value
  | float value => value.value

/-- `PartialEq`: the kinds are compared too. -/
def eq : Number → Number → Bool
  | posInt first, posInt second => first = second
  | negInt first _, negInt second _ => first = second
  | float first, float second => first.value = second.value
  | _, _ => false

/-- `as_i64`. -/
def asI64 : Number → Option Int
  | posInt value => if value.val < 2 ^ 63 then some value.val else none
  | negInt value _ => some value
  | float _ => none

/-- The double nearest to an integer; of two, the one with the even mantissa. -/
def roundToDouble (value : Nat) : Nat :=
  let unit := 2 ^ (value.log2 - 52)
  let rest := value % unit
  if 2 * rest < unit || (2 * rest = unit && value / unit % 2 = 0) then value - rest
  else value - rest + unit

/-- `as_f64`. -/
def asF64 : Number → ℚ
  | posInt value => roundToDouble value.val
  | negInt value _ => -roundToDouble value.natAbs
  | float value => value.value

/-- The value is a whole number. -/
def IsWhole (number : Number) : Prop :=
  ∃ whole : Int, number.value = whole

end Number

namespace Json

/-- `get` of an object: the first field of the name. -/
def field (fields : List (String × Json)) (name : String) : Option Json :=
  (fields.find? fun field => field.1 = name).map Prod.snd

def asObject : Json → Option (List (String × Json))
  | object fields => some fields
  | _ => none

def asStr : Json → Option String
  | string text => some text
  | _ => none

mutual

/-- `PartialEq`. -/
def eq : Json → Json → Bool
  | null, null => true
  | bool first, bool second => first = second
  | number first, number second => first.eq second
  | string first, string second => first = second
  | array first, array second => eqItems first second
  | object first, object second => eqFields first second
  | _, _ => false
termination_by structural first => first

def eqItems : List Json → List Json → Bool
  | [], [] => true
  | first :: firsts, second :: seconds => eq first second && eqItems firsts seconds
  | _, _ => false
termination_by structural first => first

def eqFields : List (String × Json) → List (String × Json) → Bool
  | [], [] => true
  | (firstName, first) :: firsts, (secondName, second) :: seconds =>
    firstName = secondName && eq first second && eqFields firsts seconds
  | _, _ => false
termination_by structural first => first

end

/-- Equality of JSON Schema. -/
inductive Same : Json → Json → Prop
  | null : Same null null
  | bool (value : Bool) : Same (bool value) (bool value)
  | number {first second : Number} (equal : first.value = second.value) :
      Same (number first) (number second)
  | string (text : String) : Same (string text) (string text)
  | array {first second : List Json} (equal : List.Forall₂ Same first second) :
      Same (array first) (array second)
  | object {first second : List (String × Json)}
      (sameNames : ∀ name, (field first name).isSome = (field second name).isSome)
      (sameValues : ∀ name value other, field first name = some value →
        field second name = some other → Same value other) :
      Same (object first) (object second)

end Json

end Mentra
