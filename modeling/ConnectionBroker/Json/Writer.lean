import ConnectionBroker.Json.Value
import ConnectionBroker.Number.Shortest

/-! # JSON text

Values are written without blanks. In a string the quotation mark, the backslash and the controls
below U+0020 are escaped; every other character stands for itself.
-/

namespace ConnectionBroker.Json

/-! ## Strings -/

/-- A character as it stands inside a string. -/
def escapeChar (c : Char) : List Char :=
  if c = '"' then ['\\', '"']
  else if c = '\\' then ['\\', '\\']
  else if c = '\x08' then ['\\', 'b']
  else if c = '\x0c' then ['\\', 'f']
  else if c = '\n' then ['\\', 'n']
  else if c = '\r' then ['\\', 'r']
  else if c = '\t' then ['\\', 't']
  else if c.toNat < 0x20 then
    ['\\', 'u', '0', '0', Text.lowerHexDigit (c.toNat / 16), Text.lowerHexDigit (c.toNat % 16)]
  else [c]

def writeString (value : String) : List Char :=
  '"' :: value.toList.flatMap escapeChar ++ ['"']

/-! ## Values -/

mutual

def write : Json → List Char
  | null => ['n', 'u', 'l', 'l']
  | bool true => ['t', 'r', 'u', 'e']
  | bool false => ['f', 'a', 'l', 's', 'e']
  | integer value => Text.integerText value
  | float value => value.text
  | string value => writeString value
  | array items => '[' :: writeItems items ++ [']']
  | object entries => '\x7b' :: writeEntries entries ++ ['\x7d']

/-- The items of an array, with commas between them. -/
def writeItems : List Json → List Char
  | [] => []
  | item :: items => write item ++ writeMoreItems items

/-- The items that follow another one, each after a comma. -/
def writeMoreItems : List Json → List Char
  | [] => []
  | item :: items => ',' :: write item ++ writeMoreItems items

/-- The entries of an object, with commas between them. -/
def writeEntries : List (String × Json) → List Char
  | [] => []
  | (name, value) :: entries =>
      writeString name ++ ':' :: write value ++ writeMoreEntries entries

/-- The entries that follow another one, each after a comma. -/
def writeMoreEntries : List (String × Json) → List Char
  | [] => []
  | (name, value) :: entries =>
      ',' :: writeString name ++ ':' :: write value ++ writeMoreEntries entries

end

def text (value : Json) : String :=
  String.ofList value.write

/-- The text of a value with the entries of every object in the order of their names. -/
def canonicalText (value : Json) : String :=
  value.canonical.text

end ConnectionBroker.Json
