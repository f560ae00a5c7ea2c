import ResourceQuery.Environment
import ResourceQuery.Text.Digits

/-!
# Configuration

The program takes two settings from its environment: what to log, and the largest limit of schemas
that enable pagination without one of their own. A variable that is blank counts as not set.

## Main definitions

* `Config.ofEnvironment`, with its failure `ConfigError`.
-/

namespace ResourceQuery

/-- The settings of the program. -/
structure Config where
  logFilter : String := "info"
  maxLimit : Option UInt64 := none
deriving DecidableEq

/-- Why an environment is no configuration. -/
inductive ConfigError
  | invalidMaxLimit
deriving DecidableEq

/-- What is wrong, for people. -/
def ConfigError.message : ConfigError → String
  | .invalidMaxLimit => "SIEVE_MAX_LIMIT must be a non-negative integer"

namespace Config

/-- The log filter: the first of the two variables that is set decides, if it is not blank. -/
def logFilterOf (env : Environment) : String :=
  (((env "SIEVE_LOG").or (env "RUST_LOG")).filter fun v => !Text.isBlankText v).getD "info"

/-- The largest limit, if the variable is not blank. -/
def maxLimitOf (env : Environment) : Except ConfigError (Option UInt64) :=
  match (env "SIEVE_MAX_LIMIT").filter fun v => !Text.isBlankText v with
  | none => .ok none
  | some v =>
    match Text.count? (Text.trim v.toList) with
    | some n => .ok (some n)
    | none => .error .invalidMaxLimit

/-- The configuration of an environment. -/
def ofEnvironment (env : Environment) : Except ConfigError Config :=
  (maxLimitOf env).map fun maxLimit => ⟨logFilterOf env, maxLimit⟩

end Config

end ResourceQuery
