import ConnectionBroker.Json.Value
import ConnectionBroker.Scheme

/-! # Settings

A broker's settings give the options of a call that names none. Settings and options are read from
an object of fields or from an array of the fields in order. Unknown fields do not count.
-/

namespace ConnectionBroker

/-- How many threads a driver may use. -/
inductive ThreadPool where
  /-- As many as the driver likes. -/
  | unbounded
  | bounded (limit : Nat)
  deriving DecidableEq, Inhabited, Repr

structure CallOptions where
  /-- The number of threads for drivers that take one; none means no bound. -/
  threads : Option Nat
  /-- Whether the connection is looked up in the cache and stored there. -/
  shared : Bool
  deriving DecidableEq, Inhabited, Repr

/-- What holds for calls without options of their own. -/
structure Settings where
  defaultThreads : Option Nat := some 1
  shared : Bool := true
  deriving DecidableEq, Inhabited, Repr

/-! ## Options -/

def Settings.options (settings : Settings) : CallOptions :=
  { threads := settings.defaultThreads, shared := settings.shared }

namespace CallOptions

/-- The options that the settings give when nothing is set. -/
def default : CallOptions :=
  Settings.options {}

/-- The options for a connection of the caller's own. -/
def unshared (options : CallOptions) : CallOptions :=
  { options with shared := false }

def withThreads (options : CallOptions) (threads : Option Nat) : CallOptions :=
  { options with threads }

end CallOptions

/-! ## Reading -/

/-- A number of threads, where `null` means no bound. -/
def threadsOfJson? : Json → Option (Option Nat)
  | .null => some none
  | value => value.asCount?.map some

/-- The value that `read` makes of a field, or a default if the field is missing. -/
def fieldOr {α : Type} (read : Json → Option α) (default : α) : Option Json → Option α
  | some value => read value
  | none => some default

/-- The settings that a value spells. Missing fields, and the last elements that an array lacks,
take their defaults. -/
def Settings.ofJson? (value : Json) : Option Settings := do
  let (threads, shared) ←
    match value with
    | .object entries => some (entries.lookup "default_thread_count", entries.lookup "shared")
    | .array [] => some (none, none)
    | .array [threads] => some (some threads, none)
    | .array [threads, shared] => some (some threads, some shared)
    | _ => none
  let defaults : Settings := {}
  return {
    defaultThreads := ← fieldOr threadsOfJson? defaults.defaultThreads threads
    shared := ← fieldOr Json.asBool? defaults.shared shared }

/-- The options that a value spells. A missing number of threads means no bound; whether the
connection is shared must be given. -/
def CallOptions.ofJson? (value : Json) : Option CallOptions := do
  let (threads, shared) ←
    match value with
    | .object entries => (entries.lookup "shared").map (entries.lookup "thread_count", ·)
    | .array [threads, shared] => some (some threads, shared)
    | _ => none
  return {
    threads := ← fieldOr threadsOfJson? none threads
    shared := ← shared.asBool? }

/-- The thread pool that a value spells. -/
def ThreadPool.ofJson? : Json → Option ThreadPool
  | .string "unbounded" => some .unbounded
  | .object [("unbounded", .null)] => some .unbounded
  | .object [("bounded", limit)] => limit.asCount?.map .bounded
  | _ => none

/-- The scheme that a value names, alone or as the one name of an object that holds `null`. -/
def Scheme.ofJson? : Json → Option Scheme
  | .string name => (Scheme.ofName name).toOption
  | .object [(name, .null)] => (Scheme.ofName name).toOption
  | _ => none

/-! ## Writing -/

/-- A number of threads, `null` for no bound. -/
def threadsToJson : Option Nat → Json
  | some threads => .integer threads
  | none => .null

def Settings.toJson (settings : Settings) : Json :=
  .object [("default_thread_count", threadsToJson settings.defaultThreads),
    ("shared", .bool settings.shared)]

def CallOptions.toJson (options : CallOptions) : Json :=
  .object [("shared", .bool options.shared), ("thread_count", threadsToJson options.threads)]

/-- A thread pool as a name, or as an object that holds its limit. -/
def ThreadPool.toJson : ThreadPool → Json
  | unbounded => .string "unbounded"
  | bounded limit => .object [("bounded", .integer limit)]

end ConnectionBroker
