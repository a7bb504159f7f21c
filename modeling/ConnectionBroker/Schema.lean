import ConnectionBroker.Fault

/-! # Parameter schemas

A driver declares positional parameters, which path segments fill in order, and keyword parameters,
which the query must give. A question mark after a positional name makes it optional.
-/

namespace ConnectionBroker

/-- A parameter that a path segment may fill. -/
structure Positional where
  name : String
  optional : Bool := false
  deriving DecidableEq, Inhabited, Repr

/-- The declared shape of a driver's parameters. -/
structure Schema where
  positional : List Positional := []
  keyword : List String := []
  /-- A URI template for people. -/
  usage : String
  deriving DecidableEq, Inhabited, Repr

namespace Positional

/-- The parameter that a declaration names. -/
def ofDeclaration (declaration : String) : Positional :=
  let characters := declaration.toList
  if characters.getLast? = some '?' then
    { name := String.ofList characters.dropLast, optional := true }
  else
    { name := declaration }

def declaration (parameter : Positional) : String :=
  if parameter.optional then parameter.name ++ "?" else parameter.name

end Positional

namespace Schema

/-! ## Declaring -/

/-- Whether a name may be declared: it is not empty and ends in no question mark. -/
def isValidName (name : String) : Bool :=
  !name.isEmpty && name.toList.getLast? != some '?'

/-- The first fault in a list of names, of which those in `seen` stand before. -/
def nameFault? (seen : List String) : List String → Option SchemaFault
  | [] => none
  | name :: names =>
      if !isValidName name then some (.invalidName name)
      else if name ∈ seen then some (.repeatedName name)
      else nameFault? (name :: seen) names

/-- The names of all parameters, the positional ones first. -/
def names (schema : Schema) : List String :=
  schema.positional.map Positional.name ++ schema.keyword

/-- Declares a schema. Every name must be valid and different from those before it. -/
def declare (usage : String) (positional keyword : List String) : Except Fault Schema :=
  let schema : Schema := { positional := positional.map .ofDeclaration, keyword, usage }
  match nameFault? [] schema.names with
  | some fault => .error (.invalidSchema fault)
  | none => .ok schema

/-! ## Views -/

/-- The names that every match must supply. -/
def required (schema : Schema) : List String :=
  (schema.positional.filter (!·.optional)).map Positional.name ++ schema.keyword

def declarations (schema : Schema) : List String :=
  schema.positional.map Positional.declaration

end Schema

end ConnectionBroker
