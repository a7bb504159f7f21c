import ConnectionBroker.Text.Digits
import ConnectionBroker.Uri.Basic

/-! # Addresses of eight groups

Groups of up to four hexadecimal digits stand between colons. One run of zero groups may be left
out, which two adjacent colons show, and the last two groups may be written as four bytes.
-/

namespace ConnectionBroker.Uri.Ipv6

/-! ## Reading -/

/-- The number of at most `limit` hexadecimal digits, the number of digits and what follows. -/
def takeHex : (limit : Nat) → (value count : Nat) → List Char → Nat × Nat × List Char
  | 0, value, count, text => (value, count, text)
  | _ + 1, value, count, [] => (value, count, [])
  | limit + 1, value, count, c :: text =>
      match Text.hexDigitValue? c with
      | some digit => takeHex limit (value * 16 + digit) (count + 1) text
      | none => (value, count, c :: text)

/-- A decimal byte without leading zeros. -/
def byte? (digits : List Char) : Option Nat :=
  if digits.isEmpty || !digits.all Char.isDigit then none
  else if 1 < digits.length && digits.head? == some '0' then none
  else
    let value := Text.decimalValue digits
    if value ≤ 255 then some value else none

/-- The two groups that four decimal bytes form. -/
def embedded? (text : List Char) : Option (List Nat) :=
  match (Text.splitOn '.' text).mapM byte? with
  | some [a, b, c, d] => some [a * 256 + b, c * 256 + d]
  | _ => none

/-- The groups read so far, and how many of them stand before the run left out. -/
structure Groups where
  values : List Nat := []
  gap : Option Nat := none

/-- How many groups are taken; a run left out takes one at least. -/
def Groups.count (groups : Groups) : Nat :=
  groups.values.length + if groups.gap.isSome then 1 else 0

def Groups.push (groups : Groups) (value : Nat) : Groups :=
  { groups with values := groups.values ++ [value] }

/-- Reads groups to the end of the text; `fuel` bounds the number of groups and colons. -/
def read? : (fuel : Nat) → Groups → List Char → Option Groups
  | _, groups, [] => some groups
  | 0, _, _ :: _ => none
  | fuel + 1, groups, c :: text =>
      if groups.count = 8 then
        none
      else if c = ':' then
        if groups.gap.isSome then none
        else read? fuel { groups with gap := some groups.values.length } text
      else
        match takeHex 4 0 0 (c :: text) with
        | (value, _, []) => some (groups.push value)
        | (value, count, next :: rest) =>
            if next = '.' then
              if count = 0 || 6 < groups.count then none
              else (embedded? (c :: text)).map fun pair =>
                { groups with values := groups.values ++ pair }
            else if next = ':' then
              if rest.isEmpty then none else read? fuel (groups.push value) rest
            else
              none

/-- The eight groups, with zeros for the run left out. -/
def Groups.complete? (groups : Groups) : Option (List Nat) :=
  match groups.gap with
  | some before =>
      some (groups.values.take before ++ List.replicate (8 - groups.values.length) 0
        ++ groups.values.drop before)
  | none => if groups.values.length = 8 then some groups.values else none

/-- The groups that the text between the brackets spells. -/
def parse (text : List Char) : Except Fault (List Nat) :=
  let groups :=
    match text with
    | ':' :: ':' :: rest => read? (rest.length + 1) { gap := some 0 } rest
    | ':' :: _ => none
    | [_] => none
    | [] => none
    | text => read? (text.length + 1) {} text
  match groups.bind Groups.complete? with
  | some groups => .ok groups
  | none => .error .invalidIpv6

/-! ## Writing -/

/-- The lengths of the runs of zeros that start at each group. -/
def zeroRuns (groups : List Nat) : List Nat :=
  groups.foldr (fun group runs => (if group = 0 then runs.headD 0 + 1 else 0) :: runs) []

/-- The first longest run of at least two zero groups: where it starts, and its length. -/
def longestRun? (groups : List Nat) : Option (Nat × Nat) :=
  let runs := zeroRuns groups
  let longest := runs.foldl max 0
  if longest < 2 then none else (runs.findIdx? (· == longest)).map (·, longest)

/-- Groups in lower-case hexadecimal with colons between them. -/
def groupsText (groups : List Nat) : List Char :=
  Text.joinWith ':' (groups.map Text.hexText)

/-- The address in brackets, without the first longest run of at least two zero groups. -/
def text (groups : List Nat) : List Char :=
  let inner :=
    match longestRun? groups with
    | some (start, length) =>
        groupsText (groups.take start) ++ [':', ':'] ++ groupsText (groups.drop (start + length))
    | none => groupsText groups
  '[' :: inner ++ [']']

end ConnectionBroker.Uri.Ipv6
