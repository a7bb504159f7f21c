import ConnectionBroker.Sqlite.Filename

/-! # Pagers

A pager reads and writes the pages of one file, for all databases that share it. Before it writes it
copies what it is about to change to a journal beside the file, which it removes afterwards. If it
finds a log beside the file instead, it writes all changes to the log, with an index of the log in a
third file; the last pager to close takes the log into the file and removes log and index.

What is left at the path of a journal or a log belongs to the database, whatever it is.
-/

namespace ConnectionBroker.Sqlite

/-- Where the index of a log is. -/
inductive Index where
  | file
  | memory
  /-- There is no place for it. -/
  | nowhere
  deriving DecidableEq, Inhabited, Repr

structure Log where
  file : Nat
  index : Index
  deriving DecidableEq, Inhabited, Repr

/-- What reads and writes the pages of one file. -/
structure Pager where
  path : Path
  file : Nat
  system : System := .plain
  readOnly : Bool := false
  /-- Whether it takes the file for one that never changes. -/
  fixed : Bool := false
  /-- Whether it leaves out all locks. -/
  lockless : Bool := false
  /-- Whether it has read what tables there are. -/
  hasRead : Bool := false
  log : Option Log := none
  deriving DecidableEq, Inhabited, Repr

namespace Pager

def journalPath (pager : Pager) : Path :=
  Files.beside pager.path "-journal"

def logPath (pager : Pager) : Path :=
  Files.beside pager.path "-wal"

def indexPath (pager : Pager) : Path :=
  Files.beside pager.path "-shm"

/-- The path of the directory that keeps others away. -/
def markPath (pager : Pager) : Path :=
  Files.beside pager.path ".lock"

/-- Whether the system locks the file itself. -/
def locksFile (pager : Pager) : Bool :=
  pager.system = .plain || pager.system = .exclusive

def canLog (pager : Pager) : Bool :=
  pager.locksFile && !pager.lockless

end Pager

/-- A pager at work, with what is around it. -/
structure Desk where
  files : Files
  pager : Pager
  /-- The other pagers of the file. -/
  peers : List Pager := []
  /-- Whether the program keeps the lock on the file. -/
  claimed : Bool := false
  deriving DecidableEq, Inhabited, Repr

namespace Desk

def content (desk : Desk) : Content :=
  desk.files.content desk.pager.file

/-- Whether another pager keeps the file for its log. -/
def isShared (desk : Desk) : Bool :=
  desk.peers.any (·.log.isSome)

/-- Whether there is something at the file's path; without it nothing is opened beside it. -/
def isThere (desk : Desk) : Bool :=
  desk.files.isPresent desk.pager.path

/-- Whether the file is still at its path, as far as the pager can tell. -/
def isInPlace (desk : Desk) : Bool :=
  !desk.pager.locksFile || desk.files.find? desk.pager.path = some desk.pager.file

/-! ## Steps of writing -/

/-- Keeps others away while the file is read. -/
def lock (desk : Desk) : Bool × Desk :=
  let pager := desk.pager
  if pager.lockless || pager.log.isSome then
    (true, desk)
  else if pager.system = .marked then
    (Files.isNamed pager.markPath && !desk.files.isPresent pager.markPath, desk)
  else
    (true, { desk with claimed := desk.claimed || (pager.system = .exclusive && !pager.readOnly) })

/-- Whether someone seems to be writing to the file. The mark of a pager's own counts. -/
def isReserved (desk : Desk) : Bool :=
  desk.pager.system = .marked
    && (!desk.pager.lockless || desk.files.isPresent desk.pager.markPath)

/-- Deals with what is at the path of the journal. -/
def settleJournal (desk : Desk) : Bool × Desk :=
  let pager := desk.pager
  let path := pager.journalPath
  let without := { desk with files := desk.files.remove path }
  if pager.log.isSome || !desk.files.isOccupied path || desk.isReserved then
    (true, desk)
  else if desk.content = .empty then
    (true, if pager.readOnly && pager.canLog then desk else without)
  else if desk.files.isDirectory path || pager.readOnly || !desk.isThere
      || (pager.canLog && desk.isShared) then
    (false, desk)
  else
    (true, without)

/-- Where the index of a log that is opened is: where the peers have it, or else in a file unless
the program keeps the lock. -/
def openIndex (desk : Desk) : Index × Files :=
  let path := desk.pager.indexPath
  match desk.peers.findSome? (·.log) with
  | some log => (log.index, desk.files)
  | none =>
      if desk.claimed then (.memory, desk.files)
      else if desk.files.isDirectory path then (.nowhere, desk.files)
      else (.file, desk.files.overwrite path .other)

/-- Opens what is at the path of the log, or removes it if the file is empty. -/
def settleLog (desk : Desk) : Bool × Desk :=
  let pager := desk.pager
  let path := pager.logPath
  if pager.log.isSome || !desk.files.isOccupied path then
    (true, desk)
  else if desk.content = .empty then
    (!desk.files.isDirectory path, { desk with files := desk.files.remove path })
  else
    match pager.canLog && desk.isThere, desk.files.find? path with
    | true, some file =>
        let (index, files) := desk.openIndex
        (true, { desk with files, pager := { pager with log := some { file, index } } })
    | _, _ => (false, desk)

/-- Reads what tables there are. -/
def read (desk : Desk) : Bool × Desk :=
  let logged := desk.pager.log.any fun log => desk.files.content log.file = .log
  if logged || desk.content = .pages || desk.content = .empty then
    (true, { desk with pager := { desk.pager with hasRead := true } })
  else
    (false, desk)

/-- Writes a change to the log, or to the file with a journal beside it. -/
def change (desk : Desk) : Bool × Desk :=
  let pager := desk.pager
  match pager.log with
  | some log =>
      if log.index = .nowhere then (false, desk)
      else (true, { desk with files := desk.files.fill log.file .log })
  | none =>
      let path := pager.journalPath
      if !desk.isThere || (desk.content != .empty && !desk.isInPlace)
          || desk.files.isDirectory path || !Files.isNamed path then
        (false, desk)
      else
        (true, { desk with files := (desk.files.useUp path).fill pager.file .pages })

/-- Takes steps one after the other until one fails. -/
def takeSteps : List (Desk → Bool × Desk) → Desk → Bool × Desk
  | [], desk => (true, desk)
  | step :: steps, desk =>
      match step desk with
      | (true, desk) => takeSteps steps desk
      | (false, desk) => (false, desk)

/-- Tries to make a change. A pager that must not write finds that out after it has read. -/
def write (desk : Desk) : Bool × Desk :=
  if desk.pager.fixed then
    (false, desk)
  else if desk.pager.readOnly then
    if desk.pager.hasRead then (false, desk)
    else (false, (takeSteps [lock, settleJournal, settleLog, read] desk).2)
  else
    takeSteps [lock, settleJournal, settleLog, read, change] desk

/-! ## Closing -/

/-- The files once the pager is closed. -/
def close (desk : Desk) : Files :=
  let pager := desk.pager
  match pager.log with
  | none => desk.files
  | some log =>
      if pager.readOnly || desk.isShared || !desk.isInPlace || log.index = .nowhere then
        desk.files
      else
        let files :=
          if desk.files.content log.file = .log then desk.files.fill pager.file .pages
          else desk.files
        let files := files.remove pager.logPath
        if log.index = .file then files.remove pager.indexPath else files

end Desk

end ConnectionBroker.Sqlite
