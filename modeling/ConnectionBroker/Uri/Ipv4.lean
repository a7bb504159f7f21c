import ConnectionBroker.Text.Digits
import ConnectionBroker.Uri.Basic

/-! # Addresses of four bytes

A part may be written in decimal, in octal after a `0` or in hexadecimal after `0x`. The last part
fills all the bytes that the parts before it leave.
-/

namespace ConnectionBroker.Uri.Ipv4

/-! ## Parts -/

/-- The value of digits to a base, if each is a digit to that base. -/
def digitsValue? (base : Nat) (digits : List Char) : Option Nat :=
  digits.foldlM (fun n c => do
    let value ← Text.hexDigitValue? c
    guard (value < base)
    return n * base + value) 0

def part? : List Char → Option Nat
  | [] => none
  | '0' :: 'x' :: digits => digitsValue? 16 digits
  | '0' :: 'X' :: digits => digitsValue? 16 digits
  | '0' :: digit :: digits => digitsValue? 8 (digit :: digits)
  | digits => digitsValue? 10 digits

/-- Whether the last part of a name is a number, so that the name must be an address. -/
def endsInNumber (name : List Char) : Bool :=
  let parts := (Text.splitOn '.' name).reverse
  let last :=
    match parts with
    | [] :: before :: _ => before
    | last :: _ => last
    | [] => []
  !last.isEmpty && (last.all Char.isDigit || (part? last).isSome)

/-! ## Addresses -/

/-- The address that the numbers of the parts form: each but the last is one byte. -/
def ofParts? : List Nat → Option Nat
  | [] => none
  | parts =>
      let leading := parts.dropLast
      let last := parts.getLastD 0
      let room := Nat.pow 256 (4 - leading.length)
      if leading.all (· ≤ 255) && last < room then
        some (leading.foldl (fun n part => n * 256 + part) 0 * room + last)
      else
        none

/-- The address that a name spells. One trailing dot does not count. -/
def parse (name : List Char) : Except Fault Nat :=
  let parts := Text.splitOn '.' name
  let parts := if 1 < parts.length && parts.getLast? == some [] then parts.dropLast else parts
  if 4 < parts.length then
    .error .invalidIpv4
  else
    match (parts.mapM part?).bind ofParts? with
    | some address => .ok address
    | none => .error .invalidIpv4

/-- Four decimal numbers with dots between them. -/
def text (address : Nat) : List Char :=
  let byte (place : Nat) := Text.decimalText (address / Nat.pow 256 place % 256)
  Text.joinWith '.' [byte 3, byte 2, byte 1, byte 0]

end ConnectionBroker.Uri.Ipv4
