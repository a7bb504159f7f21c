import ConnectionBroker.Uri.Authority
import ConnectionBroker.Uri.Path

/-! # Reading a URI

Blanks and controls around the text do not count, nor do tabs and line ends within it. A URI starts
with a scheme. What follows is an authority and a path, a path alone, or a rootless text.
-/

namespace ConnectionBroker

/-- A URI. Its path is rooted, rootless or empty; a fragment is not kept. -/
structure Uri where
  scheme : List Char
  user : List Char := []
  password : Option (List Char) := none
  host : Option Uri.Host := none
  port : Option Nat := none
  path : List Char := []
  query : Option (List Char) := none
  deriving DecidableEq, Inhabited, Repr

namespace Uri

/-! ## Scheme -/

/-- The text without the blanks and controls around it. -/
def trim (text : List Char) : List Char :=
  let isBlank (c : Char) : Bool := c.toNat ≤ 0x20
  ((text.dropWhile isBlank).reverse.dropWhile isBlank).reverse

/-- Whether a character may stand in a scheme. -/
def isSchemeCharacter (c : Char) : Bool :=
  c.isAlphanum || c == '+' || c == '-' || c == '.'

/-- Whether a text is a scheme: it starts with a letter. -/
def isScheme (text : List Char) : Bool :=
  (text.head?.map Char.isAlpha).getD false && text.all isSchemeCharacter

/-- The scheme in lower case, and the text after its colon. -/
def cutScheme? (text : List Char) : Option (List Char × List Char) :=
  match Text.cutAt ':' text with
  | (before, some rest) =>
      let scheme := clean before
      if isScheme scheme then some (scheme.map Char.toLower, rest) else none
  | (_, none) => none

/-! ## Path and query -/

/-- The text before the query and the fragment. -/
def beforeQuery (text : List Char) : List Char :=
  text.takeWhile (!endsPath ·)

/-- The query, if a question mark starts one before any fragment. -/
def queryOf (text : List Char) : Option (List Char) :=
  match text.dropWhile (!endsPath ·) with
  | '?' :: rest => some (rest.takeWhile (· != '#'))
  | _ => none

def withAuthority (family : Family) (scheme text : List Char) : Except Fault Uri := do
  let (authority, rest) ← Authority.read family text
  return {
    scheme
    user := authority.user
    password := authority.password
    host := authority.host
    port := authority.port
    path := Path.afterAuthority family (beforeQuery rest)
    query := queryOf rest }

/-! ## File URIs -/

/-- The host that may stand before the path of a file URI, and the text of the path. No host, a
drive and the machine itself leave none. -/
def fileHost (text : List Char) : Except Fault (Option Host × List Char) :=
  let host := clean (text.takeWhile (!Family.file.endsAuthority ·))
  let rest := text.dropWhile (!Family.file.endsAuthority ·)
  if isDrive host then
    .ok (none, text)
  else if host.isEmpty then
    .ok (none, rest)
  else do
    let host ← Host.parseDomain host
    return (if host = .name "localhost".toList then none else some host, rest)

/-- The path of a file URI after two slashes, and its host; a drive takes the place of a host. -/
def filePath (host : Option Host) (text : List Char) : Option Host × List Char :=
  let text := if host.isSome then (Path.fileSlash? text).getD text else text
  let hasDrive := Path.readsDrive [] (Path.fileSegments text)
  (if hasDrive then none else host, Path.readFile text)

/-- A URI of the scheme `file`. Its path is read with the tabs and line ends in it. -/
def ofFile (scheme text : List Char) : Except Fault Uri :=
  let query := queryOf (clean text)
  match Path.fileSlash? text with
  | none => .ok { scheme, path := Path.readFile (beforeQuery text), query }
  | some afterOne =>
      match Path.fileSlash? afterOne with
      | none => .ok { scheme, path := Path.readFile (beforeQuery afterOne), query }
      | some afterTwo => do
          let (host, rest) ← fileHost afterTwo
          let (host, path) := filePath host (beforeQuery rest)
          return { scheme, host, path, query }

/-! ## Whole URIs -/

/-- A URI with a web scheme, or one without rules of its own, from the text after the colon. -/
def ofParts (family : Family) (scheme text : List Char) : Except Fault Uri :=
  if family.isSpecial then
    withAuthority family scheme (text.dropWhile family.isSlash)
  else
    match text with
    | '/' :: '/' :: rest => withAuthority family scheme rest
    | '/' :: rest =>
        .ok { scheme, path := Path.read family (beforeQuery rest), query := queryOf rest }
    | text => .ok { scheme, path := beforeQuery text, query := queryOf text }

def parse (text : String) : Except Fault Uri :=
  match cutScheme? (trim text.toList) with
  | none => .error .noScheme
  | some (scheme, rest) =>
      match Family.ofScheme scheme with
      | .file => ofFile scheme rest
      | family => ofParts family scheme (clean rest)

end Uri

end ConnectionBroker
