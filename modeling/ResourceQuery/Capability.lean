/-!
# Capabilities

A resource offers up to five capabilities to its clients. They have a fixed order, in which they
are listed, read and reported.

## Main definitions

* `Capability`, `Capability.all`, `Capability.name`.
* `CapabilitySet`: the capabilities that a resource enables.
-/

namespace ResourceQuery

/-- What a client may ask of a resource. -/
inductive Capability
  /-- Choosing the fields of the answer. -/
  | selection
  /-- Restricting the rows by conditions on fields. -/
  | filtering
  /-- Asking for a window of rows by limit and offset. -/
  | pagination
  /-- Ordering the rows. -/
  | sorting
  /-- Searching for a text in a set of fields. -/
  | search
deriving DecidableEq

namespace Capability

/-- All capabilities in their order. -/
def all : List Capability := [.selection, .filtering, .pagination, .sorting, .search]

/-- The name under which a capability is reported. -/
def name : Capability → String
  | .selection => "field_selector"
  | .filtering => "filter"
  | .pagination => "offset_paginator"
  | .sorting => "sort"
  | .search => "search"

/-- The capability with a name. -/
def ofName? (text : String) : Option Capability :=
  all.find? fun c => c.name = text

/-- The list of capabilities is complete. -/
theorem mem_all (c : Capability) : c ∈ all := by
  cases c <;> decide

/-- A capability is found by its name. -/
theorem ofName?_name (c : Capability) : ofName? c.name = some c := by
  cases c <;> decide

end Capability

/-- The capabilities that are enabled, each once and in order. -/
structure CapabilitySet where
  enabled : List Capability
deriving DecidableEq

namespace CapabilitySet

/-- The set of the listed capabilities. -/
def ofList (capabilities : List Capability) : CapabilitySet :=
  ⟨Capability.all.filter fun c => c ∈ capabilities⟩

/-- The set without a capability. -/
def empty : CapabilitySet := ⟨[]⟩

/-- Whether a capability is in the set. -/
def isEnabled (set : CapabilitySet) (c : Capability) : Bool :=
  c ∈ set.enabled

/-- Whether no capability is in the set. -/
def isEmpty (set : CapabilitySet) : Bool :=
  set.enabled.isEmpty

/-- In the set of some capabilities just these are enabled. -/
@[simp] theorem isEnabled_ofList (capabilities : List Capability) (c : Capability) :
    (ofList capabilities).isEnabled c = decide (c ∈ capabilities) := by
  simp [ofList, isEnabled, Capability.mem_all]

end CapabilitySet

end ResourceQuery
