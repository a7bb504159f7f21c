import ConnectionBroker.Fault
import ConnectionBroker.Uri.Parse
import ConnectionBroker.Uri.Query

/-! # Connection addresses

An address is a URI with its parts decoded. Empty hosts, users and passwords read as absent, and
empty path segments are left out.
-/

namespace ConnectionBroker

/-- The decoded parts of a connection URI. -/
structure Address where
  /-- The scheme's names, between plus signs. -/
  schemes : List String
  host : Option String := none
  port : Option Nat := none
  user : Option String := none
  password : Option String := none
  /-- The whole path with its leading slash, if it has one. -/
  path : String := ""
  /-- The segments of the path that are not empty. -/
  paths : List String := []
  /-- The query, each name once. -/
  query : List (String × String) := []
  deriving DecidableEq, Inhabited, Repr

namespace Address

/-! ## Decoding -/

def decode (component : Component) (raw : List Char) : Except Fault String :=
  match Text.Percent.decodeText? raw with
  | some text => .ok text
  | none => .error (.invalidEncoding component)

def nonempty (text : String) : Option String :=
  if text.isEmpty then none else some text

/-- The text behind a part that may be absent; an empty one is absent too. -/
def decodePresent (component : Component) : Option (List Char) → Except Fault (Option String)
  | none => .ok none
  | some raw => (decode component raw).map nonempty

/-- The raw segments of a rooted path, and nothing for any other. -/
def rawSegments? : List Char → Option (List (List Char))
  | '/' :: rest => some (Text.splitOn '/' rest)
  | _ => none

/-- The segments of a path: those of a rooted one, and a rootless one as a whole. -/
def decodeSegments (raw : List Char) (path : String) : Except Fault (List String) :=
  match rawSegments? raw with
  | some segments => (segments.filter (!·.isEmpty)).mapM (decode .path)
  | none => .ok (if path.isEmpty then [] else [path])

/-- The query's pairs, a repeated name with its last value. -/
def decodeQuery (raw : Option (List Char)) : List (String × String) :=
  Uri.Query.merge (Uri.Query.pairs (raw.getD []))

/-- The address that a URI holds. -/
def ofUri (uri : Uri) : Except Fault Address := do
  let host ← decodePresent .host (uri.host.map Uri.Host.text)
  let user ← decodePresent .user (some uri.user)
  let password ← decodePresent .password uri.password
  let path ← decode .path uri.path
  let paths ← decodeSegments uri.path path
  return {
    schemes := (Text.splitOn '+' uri.scheme).map String.ofList
    host
    port := uri.port
    user
    password
    path
    paths
    query := decodeQuery uri.query }

/-- The address that a text spells. -/
def parse (text : String) : Except Fault Address := do
  ofUri (← (Uri.parse text).mapError .invalidUri)

/-! ## Location -/

/-- Host and path as one text, as file databases read them. -/
def location (address : Address) : Option String :=
  nonempty (address.host.getD "" ++ address.path)

end Address

end ConnectionBroker
