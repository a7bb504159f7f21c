import ConnectionBroker.Number.Binary64

/-! # JSON values

Integers and floating-point numbers are different values. An object is the list of its entries;
the entries of an object that was read stand in the order of their names.
-/

namespace ConnectionBroker

inductive Json where
  | null
  | bool (value : Bool)
  | integer (value : Int)
  | float (value : Binary64)
  | string (value : String)
  | array (items : List Json)
  | object (entries : List (String × Json))
  deriving Inhabited

namespace Json

/-! ## Equality -/

mutual

/-- Whether two values are the same. -/
def decEq : (first second : Json) → Decidable (first = second)
  | null => fun
    | null => isTrue rfl
    | bool _ | integer _ | float _ | string _ | array _ | object _ => isFalse nofun
  | bool value => fun
    | bool other => decidable_of_decidable_of_iff (bool.injEq value other).to_iff.symm
    | null | integer _ | float _ | string _ | array _ | object _ => isFalse nofun
  | integer value => fun
    | integer other => decidable_of_decidable_of_iff (integer.injEq value other).to_iff.symm
    | null | bool _ | float _ | string _ | array _ | object _ => isFalse nofun
  | float value => fun
    | float other => decidable_of_decidable_of_iff (float.injEq value other).to_iff.symm
    | null | bool _ | integer _ | string _ | array _ | object _ => isFalse nofun
  | string value => fun
    | string other => decidable_of_decidable_of_iff (string.injEq value other).to_iff.symm
    | null | bool _ | integer _ | float _ | array _ | object _ => isFalse nofun
  | array items => fun
    | array others =>
        have := decEqItems items others
        decidable_of_decidable_of_iff (array.injEq items others).to_iff.symm
    | null | bool _ | integer _ | float _ | string _ | object _ => isFalse nofun
  | object entries => fun
    | object others =>
        have := decEqEntries entries others
        decidable_of_decidable_of_iff (object.injEq entries others).to_iff.symm
    | null | bool _ | integer _ | float _ | string _ | array _ => isFalse nofun

def decEqItems : (first second : List Json) → Decidable (first = second)
  | [] => fun
    | [] => isTrue rfl
    | _ :: _ => isFalse nofun
  | item :: items => fun
    | [] => isFalse nofun
    | other :: others =>
        have := decEq item other
        have := decEqItems items others
        decidable_of_decidable_of_iff (List.cons.injEq item items other others).to_iff.symm

def decEqEntries : (first second : List (String × Json)) → Decidable (first = second)
  | [] => fun
    | [] => isTrue rfl
    | _ :: _ => isFalse nofun
  | (name, value) :: entries => fun
    | [] => isFalse nofun
    | (other, content) :: others =>
        have := decEq value content
        have := decEqEntries entries others
        have : Decidable ((name, value) = (other, content)) :=
          decidable_of_decidable_of_iff (Prod.mk.injEq name value other content).to_iff.symm
        decidable_of_decidable_of_iff
          (List.cons.injEq (name, value) entries (other, content) others).to_iff.symm

end

instance : DecidableEq Json :=
  decEq

/-! ## Views -/

/-- One more than the largest integer that is read as one. -/
def integerLimit : Nat :=
  0x10000000000000000

def isNull : Json → Bool
  | null => true
  | _ => false

theorem isNull_iff {value : Json} : value.isNull = true ↔ value = null := by
  cases value <;> simp [isNull]

def asString? : Json → Option String
  | string value => some value
  | _ => none

def asBool? : Json → Option Bool
  | bool value => some value
  | _ => none

/-- A number of things: an integer that is not negative and within the limit. -/
def asCount? : Json → Option Nat
  | integer (.ofNat n) => if n < integerLimit then some n else none
  | _ => none

/-- The value of an object under a name. -/
def field? : Json → String → Option Json
  | object entries, name => entries.lookup name
  | _, _ => none

/-- What kind of value it is, in words. -/
def kind : Json → String
  | null => "null"
  | bool _ => "a boolean"
  | integer _ => "a number"
  | float _ => "a number"
  | string _ => "a string"
  | array _ => "an array"
  | object _ => "an object"

/-! ## Canonical order -/

/-- The entries in the order of their names. Names compare by code point, which is also the order
of their UTF-8 bytes. -/
def sortEntries (entries : List (String × Json)) : List (String × Json) :=
  entries.mergeSort fun a b => decide (a.1 ≤ b.1)

mutual

/-- The value with the entries of every object, however deep, in the order of their names. -/
def canonical : Json → Json
  | null => null
  | bool value => bool value
  | integer value => integer value
  | float value => float value
  | string value => string value
  | array items => array (canonicalItems items)
  | object entries => object (sortEntries (canonicalEntries entries))

def canonicalItems : List Json → List Json
  | [] => []
  | item :: items => item.canonical :: canonicalItems items

def canonicalEntries : List (String × Json) → List (String × Json)
  | [] => []
  | (name, value) :: entries => (name, value.canonical) :: canonicalEntries entries

end

end Json

end ConnectionBroker
