import ConnectionBroker.Uri.Basic

/-! # Faults

Everything that can go wrong between a request and its connection, with a code for programs and a
message for people. A fault of matching carries the usage of the driver, so that its message shows
what a valid URI looks like.
-/

namespace ConnectionBroker

/-- A part of a connection URI. -/
inductive Component where
  | host
  | port
  | user
  | password
  | path
  deriving DecidableEq, Inhabited, Repr

def Component.name : Component → String
  | host => "host"
  | port => "port"
  | user => "user"
  | password => "password"
  | path => "path"

/-- What is wrong with a declared parameter name. -/
inductive SchemaFault where
  | invalidName (name : String)
  | repeatedName (name : String)
  deriving DecidableEq, Inhabited, Repr

def SchemaFault.message : SchemaFault → String
  | invalidName name => s!"parameter name '{name}' is not a valid name"
  | repeatedName name => s!"parameter '{name}' is declared more than once"

/-- Why a request gets no connection, or a registry is not built. -/
inductive Fault where
  | invalidUri (cause : Uri.Fault)
  | invalidEncoding (component : Component)
  | missingParameter (name usage : String)
  | tooManySegments (usage : String)
  | collision (name usage : String)
  | unexpectedComponent (component : Component) (usage : String)
  | invalidSchema (cause : SchemaFault)
  | severalSchemes (schemes : List String)
  | unsupportedDriver (name : String)
  | invalidRequest (kind : String)
  | constructionFailed (driver reason : String)
  | schemaMismatch (driver : String)
  | duplicateDriver (driver : String)
  | invalidThreadCount
  deriving DecidableEq, Inhabited, Repr

namespace Fault

def code : Fault → String
  | invalidUri _ => "INVALID_URI"
  | invalidEncoding _ => "INVALID_ENCODING"
  | missingParameter _ _ => "MISSING_PARAMETER"
  | tooManySegments _ => "TOO_MANY_PATH_SEGMENTS"
  | collision _ _ => "PARAMETER_COLLISION"
  | unexpectedComponent _ _ => "UNEXPECTED_COMPONENT"
  | invalidSchema _ => "INVALID_SCHEMA"
  | severalSchemes _ => "MULTIPLE_SCHEMES"
  | unsupportedDriver _ => "UNSUPPORTED_DRIVER"
  | invalidRequest _ => "INVALID_REQUEST_TYPE"
  | constructionFailed _ _ => "CONSTRUCTION_FAILED"
  | schemaMismatch _ => "SCHEMA_MISMATCH"
  | duplicateDriver _ => "DUPLICATE_DRIVER"
  | invalidThreadCount => "INVALID_THREAD_COUNT"

def message : Fault → String
  | invalidUri cause => "invalid URI: " ++ cause.message
  | invalidEncoding component =>
      "URI " ++ component.name ++ " is not valid percent-encoded UTF-8"
  | missingParameter name usage => s!"URI must specify '{name}'. Expected format: {usage}"
  | tooManySegments usage => s!"too many parts to path. Expected format: {usage}"
  | collision name usage =>
      s!"parameter '{name}' already provided as positional argument. Expected format: {usage}"
  | unexpectedComponent component usage =>
      "URI must not specify a " ++ component.name ++ s!". Expected format: {usage}"
  | invalidSchema cause => "invalid driver schema: " ++ cause.message
  | severalSchemes schemes =>
      "URI has multiple schemes (" ++ "+".intercalate schemes
        ++ "); exactly one driver name is expected"
  | unsupportedDriver name => s!"unsupported driver: {name}"
  | invalidRequest kind =>
      s!"cannot resolve a connection from {kind}; "
        ++ "expected a URI string or a configuration mapping"
  | constructionFailed driver reason => s!"driver '{driver}' failed to connect: {reason}"
  | schemaMismatch driver =>
      s!"driver '{driver}' was registered with a schema that differs from the one it declares"
  | duplicateDriver driver => s!"driver '{driver}' is already registered"
  | invalidThreadCount => "thread count must be at least 1"

end Fault

end ConnectionBroker
