import ConnectionBroker.Text.Percent
import ConnectionBroker.Uri.Ipv4
import ConnectionBroker.Uri.Ipv6

/-! # Reading a host

In a generic scheme a host is any text without delimiters. In a special scheme it is
percent-decoded first and is then a domain name in ASCII or an address.
-/

namespace ConnectionBroker.Uri.Host

/-- Characters that no host may hold. -/
def isForbidden (c : Char) : Bool :=
  c.toNat == 0 || c == '\t' || c == '\n' || c == '\r' || c == ' ' || c == '#' || c == '/'
    || c == ':' || c == '<' || c == '>' || c == '?' || c == '@' || c == '[' || c == '\\'
    || c == ']' || c == '^' || c == '|'

/-- Characters that no domain name may hold: controls and `%` too, and all but ASCII. -/
def isForbiddenInDomain (c : Char) : Bool :=
  isForbidden c || c.toNat < 0x20 || c == '%' || 0x7F ≤ c.toNat

/-- An address in brackets, or a text of which `read` makes a host. -/
def bracketedOr (read : List Char → Except Fault Host) : List Char → Except Fault Host
  | '[' :: rest =>
      if rest.getLast? = some ']' then
        (Ipv6.parse rest.dropLast).map ipv6
      else
        .error .invalidIpv6
  | text => read text

def parseGeneric : List Char → Except Fault Host :=
  bracketedOr fun text =>
    if text.any isForbidden then .error .invalidHostCharacter else .ok (name text)

/-- A domain name or an address. Only names in ASCII are read. A name with other characters is
refused, where the standard maps it to ASCII (IDNA), and a label that starts with `xn--` is taken as
it stands. -/
def parseDomain : List Char → Except Fault Host :=
  bracketedOr fun text =>
    match Text.Utf8.decode? (Text.Percent.decode text) with
    | none => .error .invalidDomainName
    | some decoded =>
        let domain := decoded.map Char.toLower
        if domain.any isForbiddenInDomain then .error .invalidDomainName
        else if domain.isEmpty then .error .emptyHost
        else if Ipv4.endsInNumber domain then (Ipv4.parse domain).map ipv4
        else .ok (name domain)

def text : Host → List Char
  | name text => text
  | ipv4 address => Ipv4.text address
  | ipv6 groups => Ipv6.text groups

end ConnectionBroker.Uri.Host
