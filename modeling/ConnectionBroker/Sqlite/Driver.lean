import ConnectionBroker.Holdings
import ConnectionBroker.Scheme
import ConnectionBroker.Sqlite.Options
import ConnectionBroker.Sqlite.Pager

/-! # The SQLite driver

The driver checks all options before it touches a file. A database that asks for it shares the store
of those that were opened under the same name before, and with it their right to write.
-/

namespace ConnectionBroker.Sqlite

structure Database where
  /-- How many databases were opened up to this one. -/
  number : Nat
  options : Options
  store : Nat
  deriving DecidableEq, Inhabited, Repr

instance : Numbered Database where
  number := Database.number

/-- What databases that share a store have in common. -/
structure StoreName where
  system : System
  path : Bytes
  deriving DecidableEq, Inhabited, Repr

/-- Where the tables of databases are. -/
inductive Place where
  /-- Apart from all files. -/
  | apart (writable : Bool)
  | file (pager : Pager)
  deriving DecidableEq, Inhabited, Repr

def Place.pager? : Place → Option Pager
  | apart _ => none
  | file pager => some pager

/-- Where the tables of one database are, or of several that share them. -/
structure Store where
  number : Nat
  /-- The name under which databases can join, if they can. -/
  name : Option StoreName := none
  place : Place
  deriving DecidableEq, Inhabited, Repr

structure World where
  files : Files
  opened : Nat := 0
  stores : List Store := []
  /-- The files on which the program keeps its lock. -/
  claimed : List Nat := []
  deriving DecidableEq, Inhabited, Repr

/-- The driver for SQLite databases. -/
structure Driver where
  deriving DecidableEq, Inhabited, Repr

/-- The path of a database that no file holds. -/
def memory : String :=
  ":memory:"

/-- How many connections a pool without a bound holds at most. -/
def defaultMaxConnections : Nat :=
  10

/-- How many connections a database holds at most. -/
def Database.maxConnections (database : Database) : Nat :=
  database.options.maxConnections.getD defaultMaxConnections

/-! ## Opening -/

/-- Where a database that is opened finds its tables. -/
structure Opening where
  files : Files
  name : Option StoreName := none
  place : Place
  deriving DecidableEq, Inhabited, Repr

namespace World

/-- The store that goes by a name. -/
def named? (world : World) (name : StoreName) : Option Store :=
  world.stores.find? (·.name == some name)

/-- A place apart from all files. -/
def openApart (world : World) (writable : Bool) : Opening :=
  { files := world.files, place := .apart writable }

/-- A place in the system that keeps everything in memory. -/
def openKept (world : World) (filename : Filename) (access : Access) :
    Except OpenFault Opening :=
  if Files.keptLimit < filename.path.length then .error .cannotOpen
  else .ok (world.openApart (access != .read && !filename.isSet "immutable"))

def pagerOf (filename : Filename) (system : System) (path : Path) (access : Access)
    (file : Nat) : Pager :=
  { path, file, system
    readOnly := access = .read
    fixed := filename.isSet "immutable"
    lockless := filename.isSet "nolock" }

def openFile (world : World) (filename : Filename) (system : System) (path : Path)
    (access : Access) : Except OpenFault Opening := do
  if Files.databaseLimit < Files.size path then
    .error .cannotOpen
  match filename.parameter? "modeof" with
  | some model =>
      if !world.files.existsAt model then
        .error .noModel
  | none => pure ()
  match world.files.openAt path access with
  | .refused => .error .cannotOpen
  | .directory => .error .cannotRead
  | .file file files => return { files, place := .file (pagerOf filename system path access file) }

/-- Takes the place of the store that goes by a name, or opens one under that name. -/
def openShared (world : World) (name : Option StoreName) (first : Except OpenFault Opening) :
    Except OpenFault Opening :=
  match name.bind world.named? with
  | some store => .ok { files := world.files, name, place := store.place }
  | none => first.map ({ · with name })

/-- The place of the database that a name and a mode ask for. -/
def openNamed (world : World) (filename : Filename) (mode : Mode) (system : System) :
    Except OpenFault Opening :=
  let nameAt (path : Bytes) : Option StoreName :=
    if mode.shared then some { system, path } else none
  let apart := world.openApart (mode.access != some .read)
  if filename.path.isEmpty then
    .ok apart
  else if filename.path = bytes memory then
    world.openShared (nameAt filename.path) (.ok apart)
  else
    match mode.access, system with
    | none, _ => world.openShared (nameAt filename.path) (.ok apart)
    | some access, .memory =>
        world.openShared (nameAt filename.path) (world.openKept filename access)
    | some access, system =>
        match world.files.resolve? filename.path with
        | none => .error .cannotOpen
        | some path =>
            world.openShared (nameAt (Files.text path))
              (world.openFile filename system path access)

/-- The place of the database that a text names. -/
def openText (world : World) (text : String) (access : Access) : Except OpenFault Opening := do
  let filename ← Filename.ofText text
  let mode ← Mode.ofParameters access filename.parameters
  match System.ofName? mode.system with
  | some system => world.openNamed filename mode system
  | none => .error (.noSuchSystem mode.system)

/-- The place of the database that options ask for. -/
def openWith (world : World) (options : Options) : Except Refusal Opening :=
  if options.filepath = memory then
    .ok (world.openApart (options.access != .read))
  else if options.filepath.toList.any (·.toNat == 0) then
    .error .invalidPath
  else
    (world.openText options.filepath options.access).mapError .notOpened

/-- Takes note of an open database. A store that it joins is not added again. -/
def add (world : World) (options : Options) (opening : Opening) : Database × World :=
  let number := world.opened + 1
  match opening.name.bind world.named? with
  | some store =>
      ({ number, options, store := store.number },
        { world with files := opening.files, opened := number })
  | none =>
      ({ number, options, store := number },
        { world with
          files := opening.files
          opened := number
          stores := world.stores ++ [{ number, name := opening.name, place := opening.place }] })

/-! ## Writing and closing -/

/-- The pagers of a file in stores with other numbers. -/
def peers (world : World) (number file : Nat) : List Pager :=
  (world.stores.filter (·.number != number)).filterMap (·.place.pager?)
    |>.filter (·.file == file)

def desk (world : World) (number : Nat) (pager : Pager) : Desk :=
  { files := world.files
    pager
    peers := world.peers number pager.file
    claimed := world.claimed.contains pager.file }

/-- Takes over what a pager has done. -/
def putBack (world : World) (number : Nat) (desk : Desk) : World :=
  let place := Place.file desk.pager
  { world with
    files := desk.files
    stores := world.stores.map fun store =>
      if store.number = number then { store with place } else store
    claimed := if desk.claimed then desk.pager.file :: world.claimed else world.claimed }

/-- Tries to make a new table in the store with a number, and tells whether it is made. -/
def write (world : World) (number : Nat) : Bool × World :=
  match world.stores.find? (·.number == number) with
  | none => (false, world)
  | some store =>
      match store.place with
      | .apart writable => (writable, world)
      | .file pager =>
          let (done, desk) := (world.desk number pager).write
          (done, world.putBack number desk)

def closeStore (world : World) (store : Store) : World :=
  let stores := world.stores.filter (·.number != store.number)
  match store.place with
  | .apart _ => { world with stores }
  | .file pager =>
      let desk := world.desk store.number pager
      { world with
        files := desk.close
        stores
        claimed :=
          if desk.peers.isEmpty then world.claimed.filter (· != pager.file) else world.claimed }

/-- Closes the stores that are not in use. -/
def sweep (isUsed : Nat → Bool) (world : World) : World :=
  (world.stores.filter fun store => !isUsed store.number).foldl closeStore world

end World

/-- Opens the database that arguments ask for. -/
def openDatabase (arguments : Arguments) (world : World) : Except Refusal (Database × World) := do
  let options ← Options.ofArguments arguments
  return world.add options (← world.openWith options)

namespace Driver

/-- Connects at once or not at all. Time is left out: a database whose pool may hold no connections
is opened like any other, where a real pool would wait for its first connection until the time is
up. No broker asks for such a pool. -/
def connect (arguments : Arguments) (world : World) : Progress Empty Database String × World :=
  match openDatabase arguments world with
  | .ok (database, world) => (.done database, world)
  | .error refusal => (.failed refusal.message, world)

def backend : Backend Driver World Empty Database :=
  { declared := fun _ => Scheme.sqlite.schema
    connect := fun _ => connect
    resume := fun rest => nomatch rest }

end Driver

end ConnectionBroker.Sqlite
