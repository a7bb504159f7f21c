import ConnectionBroker.Text.Percent
import ConnectionBroker.Text.Split

/-! # Query pairs

A query is a list of pairs `name=value` with `&` between them. A plus sign stands for a space, and
bytes that are not UTF-8 for the replacement character.
-/

namespace ConnectionBroker.Uri.Query

def decode (raw : List Char) : String :=
  Text.Percent.decodeTextLenient (raw.map fun c => if c = '+' then ' ' else c)

/-- A name and its value, which is empty if none is written. -/
def readPair (raw : List Char) : String × String :=
  let (name, value) := Text.cutAt '=' raw
  (decode name, decode (value.getD []))

/-- The pairs of a query, in order; nothing between two separators is no pair. -/
def pairs (query : List Char) : List (String × String) :=
  ((Text.splitOn '&' query).filter (!·.isEmpty)).map readPair

/-- The pairs with one more: a repeated name keeps its place and takes the new value. -/
def insert : List (String × String) → String × String → List (String × String)
  | [], pair => [pair]
  | first :: rest, pair =>
      if first.1 = pair.1 then pair :: rest else first :: insert rest pair

/-- The pairs with each name once, in the order of first occurrence and with the last value. -/
def merge (pairs : List (String × String)) : List (String × String) :=
  pairs.foldl insert []

end ConnectionBroker.Uri.Query
