import ConnectionBroker.Lookup
import ConnectionBroker.Text.Split
import ConnectionBroker.Text.Utf8

/-! # Files and directories

A path is the list of names that lead to it from the root; names are bytes. A text that does not
start with a slash names a path from the working directory on.
-/

namespace ConnectionBroker.Sqlite

/-- A text as the system takes it. -/
abbrev Bytes := List UInt8

/-- The names on the way from the root. -/
abbrev Path := List Bytes

def bytes (text : String) : Bytes :=
  Text.Utf8.encode text.toList

/-- What a file is opened for. -/
inductive Access where
  | read
  | write
  /-- Writing, also to a new file if there is none. -/
  | create
  deriving DecidableEq, Inhabited, Repr

inductive Content where
  | empty
  | pages
  /-- Changes to the pages of a database. -/
  | log
  | other
  deriving DecidableEq, Inhabited, Repr

/-- The files and directories there are. A file has a number, which it keeps when it is removed, so
that those who have it open still reach it. -/
structure Files where
  directories : List Path
  /-- The files in directories. -/
  entries : List (Path × Nat) := []
  /-- What each file holds, by number. -/
  contents : List Content := []
  working : Path := []
  deriving DecidableEq, Inhabited, Repr

namespace Files

/-! ## Names and paths -/

def slash : UInt8 := 0x2F

/-- The name that leads nowhere else. -/
def here : Bytes := [0x2E]

/-- The name that leads back. -/
def parent : Bytes := [0x2E, 0x2E]

/-- How many bytes a name may have. -/
def nameLimit : Nat :=
  255

/-- How many bytes a text that is walked may have. -/
def textLimit : Nat :=
  4095

/-- How many bytes the path of a database may have while it is resolved. -/
def resolvedLimit : Nat :=
  511

/-- How many bytes the path of a database may have when it is opened. -/
def databaseLimit : Nat :=
  504

/-- How many bytes the name of a database may have where names are kept as they are. -/
def keptLimit : Nat :=
  1016

/-- Whether a directory can hold something under a name. -/
def isName (name : Bytes) : Bool :=
  name.length ≤ nameLimit && name.all (· != 0)

/-- A path as a text, each name with a slash before it. -/
def text (path : Path) : Bytes :=
  path.flatMap (slash :: ·)

def size (path : Path) : Nat :=
  (text path).length

/-- The names in a text between slashes. -/
def names (text : Bytes) : List Bytes :=
  Text.splitOn slash text

/-- Where the path of a text starts. -/
def origin (files : Files) (text : Bytes) : Path :=
  if text.head? = some slash then [] else files.working

/-- The path beside another one, with something after its last name. -/
def beside (path : Path) (suffix : String) : Path :=
  path.dropLast ++ [path.getLast?.getD [] ++ bytes suffix]

/-- Whether a directory can hold something under the last name of a path. -/
def isNamed (path : Path) : Bool :=
  isName (path.getLast?.getD [])

/-! ## Looking -/

/-- Whether a path is a directory; the root always is. -/
def isDirectory (files : Files) (path : Path) : Bool :=
  path.isEmpty || files.directories.contains path

def find? (files : Files) (path : Path) : Option Nat :=
  files.entries.lookup path

def isFile (files : Files) (path : Path) : Bool :=
  (files.find? path).isSome

/-- Whether there is something at a path. -/
def isPresent (files : Files) (path : Path) : Bool :=
  files.isDirectory path || files.isFile path

def content (files : Files) (file : Nat) : Content :=
  files.contents[file]?.getD .empty

/-- Whether there is something at a path that is not an empty file. -/
def isOccupied (files : Files) (path : Path) : Bool :=
  files.isDirectory path || (files.find? path).any (files.content · != .empty)

/-! ## Changing -/

def fill (files : Files) (file : Nat) (content : Content) : Files :=
  { files with contents := files.contents.set file content }

def remove (files : Files) (path : Path) : Files :=
  { files with entries := files.entries.filter (·.1 != path) }

/-- The file at a path, which is made if there is none. -/
def reach (files : Files) (path : Path) : Nat × Files :=
  match files.find? path with
  | some file => (file, files)
  | none =>
      let file := files.contents.length
      (file,
        { files with
          entries := files.entries ++ [(path, file)]
          contents := files.contents ++ [.empty] })

/-- Writes over the file at a path, which is made if there is none. -/
def overwrite (files : Files) (path : Path) (content : Content) : Files :=
  let (file, files) := files.reach path
  files.fill file content

/-- Writes over the file at a path and removes it, as if there had been none before. -/
def useUp (files : Files) (path : Path) : Files :=
  match files.find? path with
  | some file => (files.fill file .other).remove path
  | none => files

@[simp] theorem find?_fill (files : Files) (file : Nat) (content : Content) (path : Path) :
    (files.fill file content).find? path = files.find? path := rfl

@[simp] theorem find?_remove (files : Files) (path other : Path) :
    (files.remove path).find? other = if other == path then none else files.find? other :=
  Lookup.lookup_filter_ne files.entries path other

/-! ## Walking

A walk goes from directory to directory. It fails where nothing is found, and where it would have to
go through a file or under a name that cannot be.
-/

/-- Why a walk fails. -/
inductive DeadEnd where
  | missing
  | barred
  deriving DecidableEq, Inhabited, Repr

def walkStep (files : Files) (path : Path) (name : Bytes) : Except DeadEnd Path :=
  if files.isFile path then .error .barred
  else if !files.isDirectory path then .error .missing
  else if !isName name then .error .barred
  else if name.isEmpty || name = here then .ok path
  else if name = parent then .ok path.dropLast
  else .ok (path ++ [name])

/-- The path to which a text leads, if all but the last name are directories. -/
def walk (files : Files) (text : Bytes) : Except DeadEnd Path :=
  if text.isEmpty then .error .missing
  else if textLimit < text.length then .error .barred
  else (names text).foldlM files.walkStep (files.origin text)

/-- Whether there is something where a text leads. -/
def existsAt (files : Files) (text : Bytes) : Bool :=
  match files.walk text with
  | .ok path => files.isPresent path
  | .error _ => false

/-! ## Making directories

A directory is made together with those above it that are missing.
-/

/-- What comes of making a directory in one that exists. -/
inductive Made where
  | made (files : Files)
  | present
  | failed (cause : DeadEnd)
  deriving DecidableEq, Inhabited, Repr

/-- A text without the slashes at its end. -/
def withoutTrailingSlashes (text : Bytes) : Bytes :=
  (text.reverse.dropWhile (· == slash)).reverse

/-- Makes the directory that a text names, in a directory that exists. -/
def makeOne (files : Files) (text : Bytes) : Made :=
  if text.all (· == slash) then .present
  else if text.contains 0 || textLimit < text.length then .failed .barred
  else
    match files.walk (withoutTrailingSlashes text) with
    | .error cause => .failed cause
    | .ok path =>
        if files.isDirectory path then .present
        else if files.isFile path || !isNamed path then .failed .barred
        else .made { files with directories := files.directories ++ [path] }

/-- Makes the directory that the first text names. If what it stands in is missing, that is made
first, with the help of the texts after it. -/
def makeFrom (files : Files) : List Bytes → Bool × Files
  | [] => (true, files)
  | text :: above =>
      match files.makeOne text with
      | .made files => (true, files)
      | .present => (true, files)
      | .failed .barred => (false, files)
      | .failed .missing =>
          let (done, files) := files.makeFrom above
          if !done then
            (false, files)
          else
            match files.makeOne text with
            | .made files => (true, files)
            | .present => (true, files)
            | .failed _ => (false, files)

/-- The texts that name what a text stands in, from the nearest one up to the first name. -/
def above (text : Bytes) : List Bytes :=
  let names := (names text).filter fun name => !name.isEmpty && name != here
  let start := if text.head? = some slash then [slash] else []
  ((List.range names.length).drop 1).reverse.map fun count =>
    start ++ Text.joinWith slash (names.take count)

/-- Makes the directory that a text names, and those above it that are missing. -/
def makeDirectory (files : Files) (text : Bytes) : Bool × Files :=
  files.makeFrom (text :: above text)

/-! ## Resolving

Databases are looked for at a path in which `.` and `..` are resolved by name alone, so that what
stands before `..` need not exist. It must not lead through a file, though, nor become too long, and
what is looked for in a directory must have a name that can stand there.
-/

/-- Whether a path leads through a file. -/
def leadsThroughFile (files : Files) (path : Path) : Bool :=
  files.entries.any fun entry => entry.1.isPrefixOf path && entry.1.length < path.length

def resolveStep (files : Files) (path : Path) (name : Bytes) : Option Path :=
  if name.isEmpty || name = here then some path
  else if name = parent then some path.dropLast
  else
    let next := path ++ [name]
    if files.isDirectory path && !isName name then none
    else if resolvedLimit < size next || files.leadsThroughFile next then none
    else some next

/-- The path of the database that a text names; the root is none. -/
def resolve? (files : Files) (text : Bytes) : Option Path :=
  ((names text).foldlM files.resolveStep (files.origin text)).filter (!·.isEmpty)

/-! ## Opening -/

/-- What comes of opening a file. -/
inductive Opened where
  /-- It is there, with the files that there are then. -/
  | file (file : Nat) (files : Files)
  /-- A directory can be opened for reading, but it cannot be read. -/
  | directory
  | refused
  deriving DecidableEq, Inhabited, Repr

/-- Opens the file at a path: one that exists, or, where that is allowed, a new one in a directory
that exists. -/
def openAt (files : Files) (path : Path) (access : Access) : Opened :=
  if databaseLimit < size path then .refused
  else if files.isDirectory path then
    if access = .read then .directory else .refused
  else if files.isFile path || (access = .create && files.isDirectory path.dropLast) then
    let (file, files) := files.reach path
    .file file files
  else
    .refused

end Files

end ConnectionBroker.Sqlite
