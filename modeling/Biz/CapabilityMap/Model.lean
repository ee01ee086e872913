import Biz.Library.Checks
import Biz.Text

/-!
# Capability maps

The types of `capabilitymap/types.go` and the checks that the compiler and the comparison
of releases share. A plan lists the operations of the system, a declaration classifies them
and names the capabilities they need, and a document is what is compiled from both.

Classifications, modes and consumer types are strings in the source; each has a constructor
for every value the package names and one for all other texts.
-/

namespace Biz.CapabilityMap

open Checks

/-- The code of a problem, which the source prints after `CE03-`. -/
inductive Rule
  | schema | version | empty | inventory | duplicateOrInvalid | rpcInventory | rpcDrift
  | unknownOperation | duplicateMapping | workerEntry | businessMapping | classification
  | exemptionReason | capability | unknownModule | unknownCapability | capabilityOwner
  | childMode | childCondition | childSource | childCoverage | unclassified | retiredCapability
  | childMapping | childCycle
  deriving DecidableEq

structure Problem where
  code : Rule
  place : String
  detail : String
  deriving DecidableEq

inductive Classification
  | tenantBusiness | platformManagement | recovery | foundationExempt
  | unrecognised (text : String)
  deriving DecidableEq

inductive Mode
  | always | conditional
  | unrecognised (text : String)
  deriving DecidableEq

inductive ConsumerType
  | internalChild | worker | platform | tenant
  | unrecognised (text : String)
  deriving DecidableEq

structure Child where
  operationId : String
  mode : Mode
  condition : String := ""
  source : String
  deriving DecidableEq

structure Mapping where
  workerPermission : String := ""
  operationId : String
  classification : Classification
  moduleCode : String := ""
  capabilityCodes : List String
  exemptionReason : String := ""
  children : List Child
  deriving DecidableEq

structure Declaration where
  schemaVersion : Int
  mappingVersion : String
  retiredCapabilityCodes : List String
  operations : List Mapping

structure HttpBinding where
  method : String
  path : String
  body : String := ""
  deriving DecidableEq

structure Security where
  tenantRequired : Bool
  permissions : List String
  permissionMode : String
  authentication : List String

structure Bindings where
  rpc : String
  http : List HttpBinding

/-- `requires` is the only field of the composition. -/
structure Operation where
  id : String
  domain : String
  application : String
  security : Security
  requires : List String
  bindings : Bindings

structure Plans where
  schemaVersion : Int
  operations : List Operation

structure ManifestOperation where
  id : String
  tenantRequired : Bool
  requires : List String

structure Method where
  name : String
  operation : ManifestOperation
  http : List HttpBinding

structure Application where
  name : String
  operations : List ManifestOperation

structure Service where
  fullName : String
  domain : String
  application : Application
  methods : List Method

structure Manifest where
  schemaVersion : Int
  services : List Service

/-- The code registry; a module that it does not know has no value. -/
abbrev LookupModule := String → Option (List String)

structure Capability where
  code : String
  moduleCode : String
  deriving DecidableEq

structure CompiledOperation extends Mapping where
  consumerType : ConsumerType
  tenantRequired : Bool
  rpc : String := ""
  requiredCapabilityCodes : List String
  alwaysRequiredCapabilityCodes : List String
  deriving DecidableEq

structure Document where
  schemaVersion : Int
  mappingVersion : String
  inputsSha256 : List (String × String)
  retiredCapabilityCodes : List String
  capabilities : List Capability
  operations : List CompiledOperation
  deriving DecidableEq

/-- A positive number in canonical decimal digits. -/
def version (value : String) : Except Problem Nat := do
  let problem : Problem :=
    ⟨.version, "mapping_version", "positive canonical decimal string required"⟩
  let n ← found problem (Text.parseUint value)
  require problem (n ≠ 0 ∧ toString n = value)
  return n

/-- The loop over values that have to be distinct codes, with those seen so far. -/
def uniqueAfter (place : String) : List String → List String → Except Problem Unit
  | _, [] => .ok ()
  | seen, value :: rest => do
    require ⟨.duplicateOrInvalid, place, value⟩ (Text.code value ∧ value ∉ seen)
    uniqueAfter place (value :: seen) rest

def unique (values : List String) (place : String) : Except Problem Unit :=
  uniqueAfter place [] values

def sorted (values : List String) : List String := values.insertionSort (· ≤ ·)

theorem uniqueAfter_ok {place : String} {seen values : List String} :
    uniqueAfter place seen values = .ok () ↔
      values.Nodup ∧ ∀ value ∈ values, Text.code value = true ∧ value ∉ seen := by
  induction values generalizing seen with
  | nil => simp [uniqueAfter]
  | cons value rest ih =>
    rw [List.nodup_cons, List.forall_mem_cons]
    simp only [uniqueAfter, bind_ok, require_ok, ih, List.mem_cons, not_or, forall₂_and,
      List.forall_mem_ne', exists_const]
    tauto

/-- Values are unique when they are distinct codes. -/
theorem unique_ok {place : String} {values : List String} :
    unique values place = .ok () ↔ values.Nodup ∧ ∀ value ∈ values, Text.code value = true := by
  simp [unique, uniqueAfter_ok]

@[simp] theorem mem_sorted {value : String} {values : List String} :
    value ∈ sorted values ↔ value ∈ values := List.mem_insertionSort _

end Biz.CapabilityMap
