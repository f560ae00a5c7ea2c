import ResourceQuery.Config
import ResourceQuery.Request.Builder
import ResourceQuery.Schema.File
import ResourceQuery.Sql.Text

/-!
# The command line

The program reads a schema file and one request, given as a query string or as a JSON file, and
prints the specification of the request, if asked together with the SQL statement it stands for.
With `--strict` a request with faults is a failure.

Everything that a run does is decided here, from the arguments, the environment and the files that
it may read; the outer layer only provides these and prints the outcome.

## Main definitions

* `Arguments.parse`: the arguments, or how the run ends without any work (`Stop`).
* `Outcome`, `CommandLine.run`: what a run prints, and its exit code.
-/

namespace ResourceQuery

/-- What a run is asked to do. -/
structure Arguments where
  /-- The path of the schema file. -/
  schema : Option String := none
  /-- The query string of the request. -/
  query : Option String := none
  /-- The path of the JSON file of the request. -/
  input : Option String := none
  /-- Whether to print the statement. -/
  sql : Bool := false
  /-- Whether faults are a failure. -/
  strict : Bool := false
deriving DecidableEq

/-- How a run ends without any work. -/
inductive Stop
  | usage
  | version
  | help
deriving DecidableEq

namespace Arguments

/-- Whether an argument can be the value of the option before it: anything that does not start with
a dash, and the dash itself. -/
def isValue (argument : String) : Bool :=
  match argument.toList with
  | '-' :: _ :: _ => false
  | _ => true

/-- Sets an option that takes a value, once. A path is not empty. -/
def setValue (a : Arguments) (name v : String) : Except Stop Arguments :=
  if name = "schema" ∧ a.schema = none ∧ v ≠ "" then .ok { a with schema := some v }
  else if name = "query" ∧ a.query = none then .ok { a with query := some v }
  else if name = "input" ∧ a.input = none ∧ v ≠ "" then .ok { a with input := some v }
  else .error .usage

/-- Sets an option that takes no value, once. -/
def setFlag (a : Arguments) (name : String) : Except Stop Arguments :=
  if name = "sql" ∧ a.sql = false then .ok { a with sql := true }
  else if name = "strict" ∧ a.strict = false then .ok { a with strict := true }
  else if name = "version" then .error .version
  else if name = "help" then .error .help
  else .error .usage

/-- Whether an option takes a value. -/
def takesValue (name : String) : Bool :=
  name ∈ ["schema", "query", "input"]

/-- How a run ends at an argument of short options: only the first letter counts. -/
def shortStop (letters : List Char) : Stop :=
  match letters with
  | 'V' :: _ => .version
  | 'h' :: _ => .help
  | _ => .usage

/-- Reads the arguments one by one. The value of an option stands in the next argument, or behind an
equals sign in the same one. -/
def collect (a : Arguments) : List String → Except Stop Arguments
  | [] => .ok a
  | argument :: rest =>
    match argument.toList with
    | ['-', '-'] => if rest.isEmpty then .ok a else .error .usage
    | '-' :: '-' :: option =>
      match Text.cutFirst '=' option with
      | some (name, v) =>
        if takesValue (String.ofList name) then
          match a.setValue (String.ofList name) (String.ofList v) with
          | .ok a => a.collect rest
          | .error stop => .error stop
        else .error .usage
      | none =>
        let name := String.ofList option
        if takesValue name then
          match rest with
          | v :: rest =>
            if isValue v then
              match a.setValue name v with
              | .ok a => a.collect rest
              | .error stop => .error stop
            else .error .usage
          | [] => .error .usage
        else
          match a.setFlag name with
          | .ok a => a.collect rest
          | .error stop => .error stop
    | '-' :: letter :: letters => .error (shortStop (letter :: letters))
    | _ => .error .usage

/-- The arguments of a run: a schema and exactly one form of request. -/
def parse (arguments : List String) : Except Stop Arguments :=
  match ({} : Arguments).collect arguments with
  | .error stop => .error stop
  | .ok a =>
    if a.schema.isSome && (a.query.isSome != a.input.isSome) then .ok a else .error .usage

end Arguments

/-- What a run leaves behind. -/
structure Outcome where
  code : UInt32
  stdout : String
  /-- What is said on the standard error output. -/
  stderr : String

/-- What a run may read: the texts of the files that exist and are UTF-8. -/
abbrev Files := String → Option String

namespace CommandLine

/-- The name and version of the program. -/
def versionText : String := "sieve-kernel 0.1.0-devel\n"

/-- How the program is called. -/
def usageText : String :=
  "Usage: sieve [--sql] [--strict] --schema <SCHEMA> <--query <QUERY>|--input <INPUT>>\n"

/-- The failure of a run. -/
def failure (message : String) : Outcome :=
  ⟨1, "", "Error: " ++ message ++ "\n"⟩

/-- The outcome of a run that ends without any work. -/
def stopOutcome : Stop → Outcome
  | .usage => ⟨2, "", usageText⟩
  | .version => ⟨0, versionText, ""⟩
  | .help => ⟨0, usageText, ""⟩

/-- The schema of a file. -/
def loadSchema (config : Config) (files : Files) (path : String) : Except String Schema :=
  match Definition.ofFile path (files path) with
  | .error e => .error e.message
  | .ok definition =>
    (Schema.ofDefinition (definition.withFallbackMaxLimit config.maxLimit)).mapError
      SchemaError.message

/-- The request that the arguments give. -/
def loadRequest (files : Files) (a : Arguments) : Except String Request :=
  match a.query, a.input with
  | some query, _ => .ok (Request.ofQuery query)
  | none, some path =>
    match files path with
    | none => .error ("failed to read " ++ path)
    | some body => (Request.ofJson body).mapError BodyError.message
  | none, none => .error "either --query or --input is required"

/-- What is printed about a specification. -/
def outputJson (schema : Schema) (spec : Specification) (sql : Bool) : Json :=
  .object
    (("specification", spec.toJson)
      :: if sql then [("sql", .string (Statement.ofSpecification schema spec).inlined)] else [])

/-- The outcome for a schema and a request. -/
def answer (a : Arguments) (schema : Schema) (request : Request) : Outcome :=
  let spec := Specification.ofRequest schema request
  { code := if a.strict && !spec.isValid then 1 else 0
    stdout := (outputJson schema spec a.sql).indented ++ "\n"
    stderr := "" }

/-- The outcome of a run. The file `.env` adds to the environment. -/
def run (arguments : List String) (env : Environment) (files : Files) : Outcome :=
  match Arguments.parse arguments with
  | .error stop => stopOutcome stop
  | .ok a =>
    match Config.ofEnvironment (env.addFile (files ".env")) with
    | .error e => failure e.message
    | .ok config =>
      match loadSchema config files (a.schema.getD "") with
      | .error message => failure message
      | .ok schema =>
        match loadRequest files a with
        | .error message => failure message
        | .ok request => answer a schema request

end CommandLine

end ResourceQuery
