import ConnectionBroker.Driver.Basic
import ConnectionBroker.Mapper
import ConnectionBroker.Params

/-! # The registry of drivers

A registry is built from all registrations at once, or not at all. Every driver must be registered
with the schema that it declares, and under a name of its own. Its mapper is one of the six that
`Mapper` has; mappers that applications write themselves are left out.
-/

namespace ConnectionBroker

structure Entry (δ : Type) where
  name : String
  schema : Schema
  driver : δ
  /-- Whether the driver takes a number of threads. -/
  takesThreads : Bool := false
  /-- How addresses are mapped, in one of the six ways that come with the library. -/
  mapper : Mapper := .network

/-- The drivers by name, in the order of registration. -/
structure Registry (δ : Type) where
  entries : List (Entry δ) := []

namespace Entry

variable {δ : Type}

/-- The registration of a driver for a built-in scheme. -/
def ofScheme (scheme : Scheme) (driver : δ) : Except Fault (Entry δ) := do
  return {
    name := scheme.name
    schema := ← scheme.schema
    driver
    takesThreads := scheme.takesThreads
    mapper := scheme.mapper }

/-- The thread pool for a number of threads. -/
def threadPool : Option Nat → Except Fault ThreadPool
  | some 0 => .error .invalidThreadCount
  | some limit => .ok (.bounded limit)
  | none => .ok .unbounded

/-- The arguments for a driver: the parameters that are there, and a thread pool if the driver
takes one. -/
def arguments (entry : Entry δ) (params : Params) (threads : Option Nat) :
    Except Fault Arguments :=
  if entry.takesThreads then
    (threadPool threads).map fun pool => { params := params.present, threadPool := some pool }
  else
    .ok { params := params.present }

end Entry

namespace Registry

variable {δ : Type}

/-! ## Building -/

/-- Adds a registration to those that stand before it. -/
def register (declared : δ → Except Fault Schema) (registry : Registry δ) (entry : Entry δ) :
    Except Fault (Registry δ) := do
  let schema ← declared entry.driver
  if schema ≠ entry.schema then
    .error (.schemaMismatch entry.name)
  else if registry.entries.any (·.name == entry.name) then
    .error (.duplicateDriver entry.name)
  else
    return { entries := registry.entries ++ [entry] }

/-- The registry of all registrations, or the fault of the first that is at fault. -/
def build (declared : δ → Except Fault Schema) (registrations : List (Entry δ)) :
    Except Fault (Registry δ) :=
  registrations.foldlM (register declared) {}

/-! ## Looking up -/

def find? (registry : Registry δ) (name : String) : Option (Entry δ) :=
  registry.entries.find? (·.name == name)

/-- The entry with a name, or the fault that there is none. -/
def lookup (registry : Registry δ) (name : String) : Except Fault (Entry δ) :=
  match registry.find? name with
  | some entry => .ok entry
  | none => .error (.unsupportedDriver name)

def contains (registry : Registry δ) (name : String) : Bool :=
  registry.entries.any (·.name == name)

def size (registry : Registry δ) : Nat :=
  registry.entries.length

/-- The names with their usages, in the order of registration. -/
def schemes (registry : Registry δ) : List (String × String) :=
  registry.entries.map fun entry => (entry.name, entry.schema.usage)

end Registry

end ConnectionBroker
