import ResourceQuery.Document.Json
import ResourceQuery.Document.Toml
import ResourceQuery.Document.Yaml
import ResourceQuery.Schema.Declared
import ResourceQuery.Text.Split

/-!
# Definitions in files

A definition is written in JSON, YAML or TOML. In a file, the notation goes by the extension of the
file's name, in any case: what follows the last dot, unless that dot is the first character.

## Main definitions

* `Format`, `Definition.parse?`: a definition in a notation.
* `Format.ofFileName`: the notation that a file name stands for.
* `Definition.ofFile`: the definition in a file, with the failures `LoadError`.
-/

namespace ResourceQuery

/-- The notations for definitions. -/
inductive Format
  | json
  | yaml
  | toml
deriving DecidableEq

/-- The name of a notation in messages. -/
def Format.name : Format → String
  | .json => "JSON"
  | .yaml => "YAML"
  | .toml => "TOML"

/-- Why a definition cannot be loaded. -/
inductive LoadError
  /-- The file is missing, or its bytes are not UTF-8. -/
  | unreadable
  | unsupportedFormat (extension : String)
  | invalid (format : Format)
deriving DecidableEq

/-- What is wrong, for people. -/
def LoadError.message : LoadError → String
  | .unreadable => "failed to read schema file"
  | .unsupportedFormat extension => s!"unsupported schema file format: {extension}"
  | .invalid format => "invalid " ++ format.name ++ " schema"

/-- The document that a text in a notation is. -/
def Format.document? : Format → String → Option Document
  | .json => Document.ofJson?
  | .yaml => Document.ofYaml?
  | .toml => Document.ofToml?

/-- The definition that a text in a notation is. -/
def Definition.parse? (format : Format) (text : String) : Option Definition :=
  (format.document? text).bind Definition.ofDocument?

/-- The definition of a text in a notation, or the failure. -/
def Definition.parse (format : Format) (text : String) : Except LoadError Definition :=
  match Definition.parse? format text with
  | some definition => .ok definition
  | none => .error (.invalid format)

/-- The extension of the last component of a path, in small letters; empty when it has none. -/
def extensionOf (path : String) : String :=
  let name := (Text.splitOn '/' path.toList).getLastD []
  match Text.cutLast '.' name with
  | some (stem, extension) =>
    if stem = [] ∨ name = ['.', '.'] then "" else Text.lowercase (String.ofList extension)
  | none => ""

/-- The notation that an extension stands for. -/
def Format.ofExtension? (extension : String) : Option Format :=
  if extension = "json" then some .json
  else if extension = "yaml" ∨ extension = "yml" then some .yaml
  else if extension = "toml" then some .toml
  else none

/-- The definition in a file with a path and a content, which is none when the file cannot be read.
That is found before the name is looked at. -/
def Definition.ofFile (path : String) (content : Option String) : Except LoadError Definition :=
  match content with
  | none => .error .unreadable
  | some text =>
    match Format.ofExtension? (extensionOf path) with
    | none => .error (.unsupportedFormat (extensionOf path))
    | some format => Definition.parse format text

end ResourceQuery
