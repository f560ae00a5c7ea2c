import ResourceQuery.Schema.File

/-!
# Sample definitions

Definitions for examples: one that uses every section, as a text in YAML, a small one that is built
step by step, and the small one with a nested field, or with a type.
-/

namespace ResourceQuery.Sample

/-- The definition of a resource with all capabilities, in YAML. -/
def peopleYaml : String :=
  String.intercalate "\n"
    ["", "resource: people", "fields:", "  - id", "  - name", "  - email", "  - age", "  - status",
      "  - name: address", "    children: [city, zip]", "filters:", "  age:", "    type: integer",
      "  status:", "    operators: [eq, ne, in, not_in]", "  name:", "    operators: [eq, contains]",
      "  address.city: \x7b\x7d", "pagination:", "  max_limit: 100", "sort:",
      "  fields: [name, age]", "search:", "  fields: [name, email]", "  targets:",
      "    keyword: [name, email]", "  default_target: keyword", ""]

/-- The definition of `peopleYaml`, if it is one. -/
def people? : Option Definition :=
  Definition.parse? .yaml peopleYaml

/-- A small definition: three fields, one of them to filter by and one to sort by, and pagination
without a largest limit. -/
def minimal : Definition :=
  ({ resource := "people" } : Definition)
    |>.withField "id"
    |>.withField "name"
    |>.withField "age"
    |>.withFilter "age" {}
    |>.withPagination none
    |>.withSort ["name"]

/-- The small definition with a nested field. -/
def nested : Definition :=
  minimal.withNested "address" ["city", "zip"]

/-- The small definition, with integers to filter by. -/
def typed : Definition :=
  minimal.withFilter "age" { type := some .integer }

end ResourceQuery.Sample
