import ConnectionBroker.Json.Value
import ConnectionBroker.Text.Digits

/-! # Reading JSON text

A number without fraction and exponent that fits 64 bits, signed or unsigned, is an integer; any
other number is a floating-point number. Of two entries of an object with one name the last
counts, and the entries are put in the order of their names.
-/

namespace ConnectionBroker.Json.Reader

open Text (decimalDigitValue decimalValue hexDigitValue?)

/-! ## Blanks -/

def skipBlanks (text : List Char) : List Char :=
  text.dropWhile fun c => c == ' ' || c == '\t' || c == '\n' || c == '\r'

/-! ## Numbers -/

/-- Takes digits into an integer as long as it stays within the limit. The second part counts the
digits taken, the third holds the digits left. -/
def accumulate : (value taken : Nat) → List Char → Nat × Nat × List Char
  | value, taken, [] => (value, taken, [])
  | value, taken, c :: digits =>
      let next := value * 10 + decimalDigitValue c
      if next < integerLimit then
        accumulate next (taken + 1) digits
      else
        (value, taken, c :: digits)

/-- Divides by powers of ten down to the scale `exponent`, in steps of at most 308 places. -/
def scaleDown : (fuel : Nat) → Float → (exponent : Nat) → Float
  | 0, x, _ => x
  | fuel + 1, x, exponent =>
      if exponent ≤ 308 then
        x / Float.ofScientific 1 false exponent
      else if x == 0.0 then
        x
      else
        scaleDown fuel (x / Float.ofScientific 1 false 308) (exponent - 308)

/-- The magnitude `significand * 10 ^ exponent`, by one multiplication or by divisions; `none` if
it is too large. -/
def magnitude? (significand : Nat) (exponent : Int) : Option Float :=
  let x := (UInt64.ofNat significand).toFloat
  match exponent with
  | .ofNat places =>
      if places ≤ 308 then
        let scaled := x * Float.ofScientific 1 false places
        if scaled.isInf then none else some scaled
      else if significand = 0 then
        some x
      else
        none
  | .negSucc n => some (scaleDown (n / 308 + 2) x (n + 1))

/-- A floating-point number from its sign, its digits before and after the point and its
exponent. Digits past those that fit 64 bits only move the point. -/
def float? (negative : Bool) (whole fraction : List Char) (exponent : Int) : Option Json :=
  let (value, _, dropped) := accumulate 0 0 whole
  let (significand, places, _) := accumulate value 0 fraction
  (magnitude? significand (exponent + dropped.length - places)).map fun x =>
    .float (.ofFloat (if negative then -x else x))

/-- An optional exponent: its value, and the text after it. -/
def exponent? : List Char → Option (Option Int × List Char)
  | c :: rest =>
      if c = 'e' || c = 'E' then
        let (negative, digits) :=
          match rest with
          | '+' :: digits => (false, digits)
          | '-' :: digits => (true, digits)
          | digits => (false, digits)
        let taken := digits.takeWhile Char.isDigit
        if taken.isEmpty then
          none
        else
          let value : Int := decimalValue taken
          some (some (if negative then -value else value), digits.dropWhile Char.isDigit)
      else
        some (none, c :: rest)
  | [] => some (none, [])

/-- An optional fraction: its digits, and the text after it. -/
def fraction? : List Char → Option (List Char × List Char)
  | '.' :: rest =>
      let digits := rest.takeWhile Char.isDigit
      if digits.isEmpty then none else some (digits, rest.dropWhile Char.isDigit)
  | rest => some ([], rest)

/-- An integer if it fits 64 bits; minus zero does not. -/
def integer? (negative : Bool) (n : Nat) : Option Json :=
  if negative then
    if 0 < n ∧ 2 * n ≤ integerLimit then some (.integer (-n)) else none
  else if n < integerLimit then
    some (.integer n)
  else
    none

def unsigned? (negative : Bool) (text : List Char) : Option (Json × List Char) := do
  let whole := text.takeWhile Char.isDigit
  guard (!whole.isEmpty && (whole.length == 1 || whole.head? != some '0'))
  let (fraction, rest) ← fraction? (text.dropWhile Char.isDigit)
  let (exponent, rest) ← exponent? rest
  match fraction, exponent, integer? negative (decimalValue whole) with
  | [], none, some value => return (value, rest)
  | _, _, _ => return (← float? negative whole fraction (exponent.getD 0), rest)

def number? : List Char → Option (Json × List Char)
  | '-' :: rest => unsigned? true rest
  | text => unsigned? false text

/-! ## Strings -/

def codeUnit? : List Char → Option (Nat × List Char)
  | a :: b :: c :: d :: rest => do
      let high := (← hexDigitValue? a) * 16 + (← hexDigitValue? b)
      let low := (← hexDigitValue? c) * 16 + (← hexDigitValue? d)
      return (high * 0x100 + low, rest)
  | _ => none

/-- The character behind an escape; two code units spell a character past U+FFFF. -/
def escape? : List Char → Option (Char × List Char)
  | '"' :: rest => some ('"', rest)
  | '\\' :: rest => some ('\\', rest)
  | '/' :: rest => some ('/', rest)
  | 'b' :: rest => some ('\x08', rest)
  | 'f' :: rest => some ('\x0c', rest)
  | 'n' :: rest => some ('\n', rest)
  | 'r' :: rest => some ('\r', rest)
  | 't' :: rest => some ('\t', rest)
  | 'u' :: rest => do
      let (unit, rest) ← codeUnit? rest
      if 0xD800 ≤ unit ∧ unit ≤ 0xDBFF then
        match rest with
        | '\\' :: 'u' :: rest =>
            let (low, rest) ← codeUnit? rest
            guard (0xDC00 ≤ low && low ≤ 0xDFFF)
            return (Char.ofNat (0x10000 + (unit - 0xD800) * 0x400 + (low - 0xDC00)), rest)
        | _ => none
      else if 0xDC00 ≤ unit ∧ unit ≤ 0xDFFF then
        none
      else
        return (Char.ofNat unit, rest)
  | _ => none

/-- The rest of a string up to its closing mark; `fuel` bounds the characters read. -/
def characters? : (fuel : Nat) → List Char → Option (List Char × List Char)
  | 0, _ => none
  | _ + 1, [] => none
  | _ + 1, '"' :: rest => some ([], rest)
  | fuel + 1, '\\' :: rest => do
      let (c, rest) ← escape? rest
      let (more, rest) ← characters? fuel rest
      return (c :: more, rest)
  | fuel + 1, c :: rest => do
      guard (0x20 ≤ c.toNat)
      let (more, rest) ← characters? fuel rest
      return (c :: more, rest)

/-- A string, its opening mark included. -/
def string? : List Char → Option (String × List Char)
  | '"' :: rest => do
      let (characters, rest) ← characters? (rest.length + 1) rest
      return (String.ofList characters, rest)
  | _ => none

/-! ## Values -/

/-- The entries with the last value of each name, in the order of the names. -/
def collect (entries : List (String × Json)) : List (String × Json) :=
  sortEntries (entries.foldl
    (fun kept entry => kept.filter (fun other => other.1 != entry.1) ++ [entry]) [])

def word? (word : String) (value : Json) (text : List Char) : Option (Json × List Char) :=
  if word.toList.isPrefixOf text then some (value, text.drop word.length) else none

mutual

/-- A value and the text after it; `fuel` bounds the depth and the number of items. -/
def value? : (fuel : Nat) → List Char → Option (Json × List Char)
  | 0, _ => none
  | fuel + 1, text =>
      match skipBlanks text with
      | '"' :: rest => do
          let (value, rest) ← string? ('"' :: rest)
          return (.string value, rest)
      | '[' :: rest =>
          match skipBlanks rest with
          | ']' :: rest => some (.array [], rest)
          | rest => do
              let (items, rest) ← items? fuel rest
              return (.array items, rest)
      | '\x7b' :: rest =>
          match skipBlanks rest with
          | '\x7d' :: rest => some (.object [], rest)
          | rest => do
              let (entries, rest) ← entries? fuel rest
              return (.object (collect entries), rest)
      | 't' :: rest => word? "true" (.bool true) ('t' :: rest)
      | 'f' :: rest => word? "false" (.bool false) ('f' :: rest)
      | 'n' :: rest => word? "null" .null ('n' :: rest)
      | rest => number? rest

/-- The items of an array up to its closing bracket. -/
def items? : (fuel : Nat) → List Char → Option (List Json × List Char)
  | 0, _ => none
  | fuel + 1, text => do
      let (item, rest) ← value? fuel text
      match skipBlanks rest with
      | ',' :: rest =>
          let (items, rest) ← items? fuel rest
          return (item :: items, rest)
      | ']' :: rest => return ([item], rest)
      | _ => none

/-- The entries of an object up to its closing brace. -/
def entries? : (fuel : Nat) → List Char → Option (List (String × Json) × List Char)
  | 0, _ => none
  | fuel + 1, text => do
      let (name, rest) ← string? (skipBlanks text)
      match skipBlanks rest with
      | ':' :: rest =>
          let (value, rest) ← value? fuel rest
          match skipBlanks rest with
          | ',' :: rest =>
              let (entries, rest) ← entries? fuel rest
              return ((name, value) :: entries, rest)
          | '\x7d' :: rest => return ([(name, value)], rest)
          | _ => none
      | _ => none

end

end Reader

/-- The value that a text spells, if it spells one. -/
def parse? (text : String) : Option Json := do
  let characters := text.toList
  let (value, rest) ← Reader.value? (characters.length + 1) characters
  guard (Reader.skipBlanks rest).isEmpty
  return value

end ConnectionBroker.Json
