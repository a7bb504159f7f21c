import ConnectionBroker.Text.Split

/-! # URIs and their parts

The parts of a URI are kept as they are written, percent-encoding included; only the scheme, domain
names and addresses have a canonical spelling.
-/

namespace ConnectionBroker.Uri

/-! ## Faults -/

/-- Why a text is not a URI. -/
inductive Fault where
  | noScheme
  | emptyHost
  | invalidPort
  | invalidIpv4
  | invalidIpv6
  | invalidHostCharacter
  | invalidDomainName
  deriving DecidableEq, Inhabited, Repr

def Fault.message : Fault → String
  | noScheme => "relative URL without a base"
  | emptyHost => "empty host"
  | invalidPort => "invalid port number"
  | invalidIpv4 => "invalid IPv4 address"
  | invalidIpv6 => "invalid IPv6 address"
  | invalidHostCharacter => "invalid domain character"
  | invalidDomainName => "invalid international domain name"

/-! ## Scheme families -/

/-- Schemes with rules of their own. In a web scheme and in `file` a backslash counts as a slash
and the path is never empty. -/
inductive Family where
  /-- Every scheme without special rules. -/
  | generic
  /-- A web scheme with its default port. -/
  | web (defaultPort : Nat)
  | file
  deriving DecidableEq, Inhabited, Repr

/-- The family of a lower-case scheme. -/
def Family.ofScheme (scheme : List Char) : Family :=
  if scheme = "http".toList || scheme = "ws".toList then .web 80
  else if scheme = "https".toList || scheme = "wss".toList then .web 443
  else if scheme = "ftp".toList then .web 21
  else if scheme = "file".toList then .file
  else .generic

def Family.isSpecial : Family → Bool
  | generic => false
  | web _ => true
  | file => true

def Family.defaultPort? : Family → Option Nat
  | web port => some port
  | _ => none

def Family.isSlash (family : Family) (c : Char) : Bool :=
  c == '/' || (family.isSpecial && c == '\\')

def Family.endsAuthority (family : Family) (c : Char) : Bool :=
  family.isSlash c || c == '?' || c == '#'

def endsPath (c : Char) : Bool :=
  c == '?' || c == '#'

/-! ## What does not count -/

/-- Whether a character is a tab or ends a line. -/
def isIgnored (c : Char) : Bool :=
  c == '\t' || c == '\n' || c == '\r'

/-- The text without tabs and line ends. -/
def clean (text : List Char) : List Char :=
  text.filter (!isIgnored ·)

/-! ## Hosts -/

inductive Host where
  /-- A registered name, as written in a generic scheme and in lower case in a special one. -/
  | name (text : List Char)
  | ipv4 (address : Nat)
  /-- An address of eight groups of sixteen bits. -/
  | ipv6 (groups : List Nat)
  deriving DecidableEq, Inhabited, Repr

/-! ## Letters of drives -/

/-- Whether a segment is a letter and a colon or bar. -/
def isDrive : List Char → Bool
  | [letter, mark] => letter.isAlpha && (mark == ':' || mark == '|')
  | _ => false

/-- Whether a segment starts like a drive: a letter, a colon or bar, and then nothing or something
that could end a segment. -/
def startsWithDrive : List Char → Bool
  | [letter, mark] => letter.isAlpha && (mark == ':' || mark == '|')
  | letter :: mark :: next :: _ =>
      letter.isAlpha && (mark == ':' || mark == '|') && (next == '/' || next == '\\')
  | _ => false

end ConnectionBroker.Uri
