import ConnectionBroker.Driver.Basic
import ConnectionBroker.Json.Writer
import ConnectionBroker.Sqlite.Filename

/-! # Options of SQLite databases

A database is named by its file, or is in memory. It may be opened for reading only, and a file that
is missing is created unless that is ruled out or the database is only read.
-/

namespace ConnectionBroker.Sqlite

/-- Why a database is not opened. -/
inductive Refusal where
  | missingFilepath
  | invalidValue (name : String) (value : Json)
  | unknownParameter (name : String)
  | notOpened (cause : OpenFault)
  /-- The path holds a character that no path may hold. -/
  | invalidPath
  deriving Inhabited

def Refusal.message : Refusal → String
  | missingFilepath => "sqlite connections require a 'filepath' parameter"
  | invalidValue name value => s!"invalid value for '{name}': " ++ value.text
  | unknownParameter name => s!"unknown sqlite parameter '{name}'"
  | notOpened cause =>
      "Sqlx error: error returned from database: (code: " ++ toString cause.code ++ ") "
        ++ cause.message
  | invalidPath =>
      "Sqlx error: error communicating with database: "
        ++ "filename passed to SQLite must not contain nul bytes"

/-- What the arguments of a connection ask for. -/
structure Options where
  filepath : String
  readOnly : Bool
  createIfMissing : Bool
  /-- The bound on the number of connections, if there is one. -/
  maxConnections : Option Nat
  deriving DecidableEq, Inhabited, Repr

/-- What the file of a database is opened for. -/
def Options.access (options : Options) : Access :=
  if options.readOnly then .read
  else if options.createIfMissing then .create
  else .write

/-- What has been asked for so far. -/
structure Wishes where
  filepath : Option String := none
  readOnly : Bool := false
  createIfMissing : Bool := true
  deriving DecidableEq, Inhabited, Repr

/-- A truth value, as such or in words. -/
def flag? : Json → Option Bool
  | .bool value => some value
  | .string "true" => some true
  | .string "1" => some true
  | .string "false" => some false
  | .string "0" => some false
  | _ => none

def path? : Json → Option String
  | .string "" => none
  | .string path => some path
  | _ => none

/-- The value that `read` makes of a parameter. -/
def readValue {α : Type} (read : Json → Option α) (name : String) (value : Json) :
    Except Refusal α :=
  match read value with
  | some result => .ok result
  | none => .error (.invalidValue name value)

def Wishes.add (wishes : Wishes) (name : String) (value : Json) : Except Refusal Wishes :=
  if name = "filepath" then
    (readValue path? name value).map fun path => { wishes with filepath := some path }
  else if name = "read_only" then
    (readValue flag? name value).map fun readOnly => { wishes with readOnly }
  else if name = "create_if_missing" then
    (readValue flag? name value).map fun createIfMissing => { wishes with createIfMissing }
  else
    .error (.unknownParameter name)

/-- The largest number of connections that a pool can be bounded by. -/
def poolLimit : Nat :=
  0xFFFFFFFF

/-- The bound on the number of connections that a thread pool sets. -/
def poolBound : Option ThreadPool → Option Nat
  | some (.bounded limit) => some (min limit poolLimit)
  | _ => none

def Wishes.addAll (wishes : Wishes) (params : List (String × Json)) : Except Refusal Wishes :=
  params.foldlM (fun wishes param => wishes.add param.1 param.2) wishes

def Options.ofArguments (arguments : Arguments) : Except Refusal Options := do
  let wishes ← Wishes.addAll {} arguments.params
  match wishes.filepath with
  | none => .error .missingFilepath
  | some filepath =>
      return {
        filepath
        readOnly := wishes.readOnly
        createIfMissing := wishes.createIfMissing && !wishes.readOnly
        maxConnections := poolBound arguments.threadPool }

end ConnectionBroker.Sqlite
