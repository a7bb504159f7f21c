import ConnectionBroker.Sqlite.Files
import ConnectionBroker.Text.Percent

/-! # Names of databases

A database is named by a path, or by a text that starts with `file:`. Such a text holds a path,
after a question mark parameters, and after a number sign nothing that counts. Path and parameters
may be percent-encoded. Some parameters say how the database is to be opened.
-/

namespace ConnectionBroker.Sqlite

/-! ## Faults -/

/-- Why a database is not opened. -/
inductive OpenFault where
  /-- The system does not open the file. -/
  | cannotOpen
  /-- The file is a directory, opened for reading. -/
  | cannotRead
  /-- The file whose mode is to be taken over is missing. -/
  | noModel
  | invalidAuthority (authority : String)
  | noSuchCacheMode (mode : String)
  | noSuchAccessMode (mode : String)
  /-- The mode gives more rights than the options do. -/
  | accessNotAllowed (mode : String)
  | noSuchSystem (name : String)
  deriving DecidableEq, Inhabited, Repr

namespace OpenFault

def code : OpenFault → Nat
  | cannotOpen => 14
  | cannotRead => 266
  | noModel => 1802
  | accessNotAllowed _ => 3
  | _ => 1

def message : OpenFault → String
  | cannotOpen => "unable to open database file"
  | cannotRead => "disk I/O error"
  | noModel => "disk I/O error"
  | invalidAuthority authority => "invalid uri authority: " ++ authority
  | noSuchCacheMode mode => "no such cache mode: " ++ mode
  | noSuchAccessMode mode => "no such access mode: " ++ mode
  | accessNotAllowed mode => "access mode not allowed: " ++ mode
  | noSuchSystem name => "no such vfs: " ++ name

end OpenFault

/-! ## Names -/

/-- A path with parameters. -/
structure Filename where
  path : Bytes
  parameters : List (Bytes × Bytes) := []
  deriving DecidableEq, Inhabited, Repr

namespace Filename

/-- The bytes behind a part of a name; they end where a zero is encoded. -/
def decode (raw : List Char) : Bytes :=
  (Text.Percent.decode raw).takeWhile (· != 0)

/-- A parameter with its value, which is empty if none is written. -/
def readParameter (raw : List Char) : Bytes × Bytes :=
  let (name, value) := Text.cutAt '=' raw
  (decode name, decode (value.getD []))

/-- The parameters in a text; those without a name do not count. -/
def readParameters (raw : List Char) : List (Bytes × Bytes) :=
  ((Text.splitOn '&' raw).map readParameter).filter (!·.1.isEmpty)

/-- The name that a text spells after its authority. -/
def ofParts (text : List Char) : Filename :=
  let (path, parameters) := Text.cutAt '?' (text.takeWhile (· != '#'))
  { path := decode path, parameters := ((parameters.map readParameters).getD []) }

/-- The text after an authority, which must be empty or the machine itself. -/
def afterAuthority : List Char → Except OpenFault (List Char)
  | '/' :: '/' :: rest =>
      let authority := String.ofList (rest.takeWhile (· != '/'))
      if authority = "" || authority = "localhost" then .ok (rest.dropWhile (· != '/'))
      else .error (.invalidAuthority authority)
  | text => .ok text

/-- The name that a text spells. -/
def ofText (text : String) : Except OpenFault Filename :=
  match text.toList with
  | 'f' :: 'i' :: 'l' :: 'e' :: ':' :: rest => (afterAuthority rest).map ofParts
  | _ => .ok { path := bytes text }

/-- The value of a parameter; of several with one name the first counts. -/
def parameter? (filename : Filename) (name : String) : Option Bytes :=
  filename.parameters.lookup (bytes name)

end Filename

/-! ## Truth values -/

/-- The number that the digits at the start of a text spell, of at most ten digits after zeros and
below the limit, and zero for every other. -/
def smallNumber (digits : List Nat) (base most limit : Nat) : Nat :=
  let value := digits.foldl (fun n digit => n * base + digit) 0
  if most < (digits.dropWhile (· == 0)).length || limit < value then 0 else value

/-- The number at the start of a text, in decimal or after `0x` in hexadecimal. -/
def leadingNumber (text : List Char) : Nat :=
  let digitsOf (read : Char → Option Nat) (text : List Char) : List Nat :=
    (text.takeWhile fun c => (read c).isSome).filterMap read
  let decimal (c : Char) : Option Nat :=
    if c.isDigit then some (Text.decimalDigitValue c) else none
  match text with
  | '0' :: mark :: next :: rest =>
      if (mark = 'x' || mark = 'X') && (Text.hexDigitValue? next).isSome then
        smallNumber (digitsOf Text.hexDigitValue? (next :: rest)) 16 8 0x7FFFFFFF
      else
        smallNumber (digitsOf decimal text) 10 10 0x7FFFFFFF
  | _ => smallNumber (digitsOf decimal text) 10 10 0x7FFFFFFF

/-- Whether a parameter's text says yes: a number by its last byte, and else a word. -/
def saysYes (value : Bytes) : Bool :=
  let text := value.map fun byte => (Char.ofNat byte.toNat).toLower
  match text with
  | [] => false
  | first :: _ =>
      if first.isDigit then leadingNumber text % 256 != 0
      else ["on", "yes", "true"].contains (String.ofList text)

def Filename.isSet (filename : Filename) (name : String) : Bool :=
  ((filename.parameter? name).map saysYes).getD false

/-! ## Modes -/

/-- The system through which databases are reached, by how it keeps others away from a file. -/
inductive System where
  /-- By locks on the file, for as long as they are needed. -/
  | plain
  /-- By locks on the file that the program keeps. -/
  | exclusive
  /-- By a directory beside the file. -/
  | marked
  | unlocked
  /-- There are no files: everything is in memory. -/
  | memory
  deriving DecidableEq, Inhabited, Repr

def System.ofName? (name : String) : Option System :=
  if name = "unix" then some plain
  else if name = "unix-excl" then some exclusive
  else if name = "unix-dotfile" then some marked
  else if name = "unix-none" then some unlocked
  else if name = "memdb" then some memory
  else none

structure Mode where
  /-- What its file is opened for; nothing for a database in memory. -/
  access : Option Access
  /-- Whether databases with one path share one cache. -/
  shared : Bool := false
  /-- The name of the system to open it through. -/
  system : String := "unix"
  deriving DecidableEq, Inhabited, Repr

namespace Mode

/-- Whether a right to access includes another one. -/
def permits : Option Access → Option Access → Bool
  | none, _ => true
  | _, none => true
  | some .create, _ => true
  | some .write, some access => access != .create
  | some .read, some access => access == .read

/-- The access that a word stands for. -/
def accessOf? (word : String) : Option (Option Access) :=
  if word = "ro" then some (some .read)
  else if word = "rw" then some (some .write)
  else if word = "rwc" then some (some .create)
  else if word = "memory" then some none
  else none

/-- The text of a value, as diagnostics show it. -/
def shown (value : Bytes) : String :=
  String.ofList (Text.Utf8.decodeLenient value)

def add (mode : Mode) (name value : Bytes) : Except OpenFault Mode :=
  let word := shown value
  if name = bytes "vfs" then
    .ok { mode with system := word }
  else if name = bytes "cache" then
    if word = "shared" then .ok { mode with shared := true }
    else if word = "private" then .ok { mode with shared := false }
    else .error (.noSuchCacheMode word)
  else if name = bytes "mode" then
    match accessOf? word with
    | none => .error (.noSuchAccessMode word)
    | some access =>
        if permits mode.access access then .ok { mode with access }
        else .error (.accessNotAllowed word)
  else
    .ok mode

/-- The mode that parameters ask for, where `access` is what may be asked for at most. -/
def ofParameters (access : Access) (parameters : List (Bytes × Bytes)) : Except OpenFault Mode :=
  parameters.foldlM (fun mode parameter => mode.add parameter.1 parameter.2)
    { access := some access }

end Mode

end ConnectionBroker.Sqlite
