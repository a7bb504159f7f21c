import ConnectionBroker.Uri.Host

/-! # Reading an authority

An authority is `user:password@host:port`. The last `@` ends the user information and the first
`:` in it ends the user.
-/

namespace ConnectionBroker.Uri

structure Authority where
  user : List Char := []
  password : Option (List Char) := none
  host : Option Host := none
  port : Option Nat := none
  deriving DecidableEq, Inhabited, Repr

namespace Authority

/-! ## User information -/

/-- The user, and the password if one is written; an empty password does not count. -/
def splitUserinfo (userinfo : List Char) : List Char × Option (List Char) :=
  match Text.cutAt ':' userinfo with
  | (user, some (c :: password)) => (user, some (c :: password))
  | (user, _) => (user, none)

/-! ## Ports -/

/-- A port, if one is written that is not the default, and the text after it. -/
def readPort (family : Family) (text : List Char) : Except Fault (Option Nat × List Char) :=
  let digits := text.takeWhile Char.isDigit
  let rest := text.dropWhile Char.isDigit
  let atEnd :=
    match rest with
    | [] => true
    | c :: _ => c == '/' || c == '\\' || c == '?' || c == '#'
  let port := Text.decimalValue digits
  if !atEnd || 65535 < port then .error .invalidPort
  else if digits.isEmpty || family.defaultPort? = some port then .ok (none, rest)
  else .ok (some port, rest)

/-! ## Hosts -/

/-- Cuts the text before the first colon that is not in brackets. -/
def cutHost : (inBrackets : Bool) → List Char → List Char × List Char
  | _, [] => ([], [])
  | inBrackets, c :: rest =>
      if c = ':' && !inBrackets then
        ([], c :: rest)
      else
        let inBrackets := c == '[' || (inBrackets && c != ']')
        let (host, after) := cutHost inBrackets rest
        (c :: host, after)

/-- The host of a scheme of the family; an empty name is no host. -/
def readHost (family : Family) (text : List Char) : Except Fault (Option Host) :=
  if family.isSpecial then
    if text.isEmpty then .error .emptyHost else (Host.parseDomain text).map some
  else
    (Host.parseGeneric text).map fun host => if host = .name [] then none else some host

/-- A host with its port, and the text after them. -/
def readHostPort (family : Family) (text rest : List Char) :
    Except Fault (Option Host × Option Nat × List Char) := do
  let (hostText, after) := cutHost false text
  let host ← readHost family hostText
  match after with
  | [] => return (host, none, rest)
  | _ :: after =>
      if host.isNone then
        .error .emptyHost
      else
        let (port, rest) ← readPort family (after ++ rest)
        return (host, port, rest)

/-! ## Whole authorities -/

/-- Reads the authority at the start of a text, and gives the text after it. -/
def read (family : Family) (text : List Char) : Except Fault (Authority × List Char) := do
  let authority := text.takeWhile (!family.endsAuthority ·)
  let rest := text.dropWhile (!family.endsAuthority ·)
  match Text.cutAtLast '@' authority with
  | (none, address) =>
      let (host, port, rest) ← readHostPort family address rest
      return ({ host, port }, rest)
  | (some userinfo, address) =>
      if userinfo.isEmpty && address.isEmpty && !rest.isEmpty then
        .error .emptyHost
      else
        let (user, password) := splitUserinfo userinfo
        let (host, port, rest) ← readHostPort family address rest
        if host.isNone && (!user.isEmpty || password.isSome) then
          .error .emptyHost
        else
          return ({ user, password, host, port }, rest)

end Authority

end ConnectionBroker.Uri
