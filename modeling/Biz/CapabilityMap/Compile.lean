import Biz.CapabilityMap.Model
import Biz.Library.Keyed

/-!
# The compiler of capability maps

`Compile` of `capabilitymap/compile.go` with the checks of `inventory.go`. The planned
operations are the inventory; the manifest has to list all of them, and the declaration has
to classify all of them. What is emitted are the declared mappings in the order of their
operations, each with the capabilities that it needs on every path.

A Go map is a list of entries with distinct keys here. The two recursions over the graph of
operations, the search for cycles and the closure over the edges that are always taken, are
bounded by fuel; running out of it is an error of its own, which a compilation never meets.
-/

namespace Biz.CapabilityMap

open Checks

/-- The errors of a compilation. -/
inductive CompileErr
  | problem (problem : Problem)
  | exhausted
  deriving DecidableEq

/-- A list of texts as `%v` prints it. -/
def texts (values : List String) : String := "[" ++ " ".intercalate values ++ "]"

variable (ops : List Operation)

/-- The planned operation of an id. -/
def planned (id : String) : Option Operation :=
  ops.find? fun op => op.id = id

/-- The entry of an operation. -/
def entryOf (entries : List CompiledOperation) (id : String) : Option CompiledOperation :=
  entries.find? fun entry => entry.operationId = id

/-- The owner of a capability. -/
def ownerOf (owners : List Capability) (code : String) : Option Capability :=
  owners.find? fun owner => owner.code = code

/-- The body of the loop over the planned operations. -/
def addOperation (op : Operation) : Except Problem (List Operation) := do
  require ⟨.inventory, op.id, "duplicate or invalid Operation ID"⟩
    (planned ops op.id = none ∧ Text.code op.id)
  unique op.requires (op.id ++ ".requiresOperations")
  return ops ++ [op]

section Manifest

variable (ops : List Operation)

/-- `check`: an operation of the manifest against its plan, with the ids seen so far. -/
def checkPlanned (domain application rpc : String) (http : List HttpBinding) (seen : List String)
    (m : ManifestOperation) : Except Problem (List String) := do
  let missing : Problem :=
    ⟨.rpcInventory, m.id, "missing from OperationPlan or duplicated in manifest"⟩
  let op ← found missing (planned ops m.id)
  require missing (m.id ∉ seen)
  require ⟨.rpcDrift, m.id,
      "manifest/OperationPlan identity, security, transport or child graph differs"⟩
    (op.domain = domain ∧ op.application = application ∧
      op.security.tenantRequired = m.tenantRequired ∧ op.bindings.rpc = rpc ∧
      op.bindings.http = http ∧ sorted op.requires = sorted m.requires)
  return seen ++ [m.id]

def checkMethod (service : Service) (seen : List String) (method : Method) :
    Except Problem (List String) := do
  require ⟨.rpcInventory, service.fullName, "method name required"⟩ (method.name ≠ "")
  checkPlanned ops service.domain service.application.name
    ("/" ++ service.fullName ++ "/" ++ method.name) method.http seen method.operation

def checkService (seen : List String) (service : Service) : Except Problem (List String) := do
  require ⟨.rpcInventory, service.fullName, "service identity required"⟩
    (service.fullName ≠ "" ∧ service.domain ≠ "" ∧ service.application.name ≠ "")
  let seen ← service.methods.foldlM (checkMethod ops service) seen
  service.application.operations.foldlM
    (checkPlanned ops service.domain service.application.name "" []) seen

def validateManifest (manifest : Manifest) : Except Problem Unit := do
  let seen ← manifest.services.foldlM (checkService ops) []
  require ⟨.rpcInventory, "operations", "absent from manifest: " ++
      texts (sorted ((ops.map (·.id)).filter (· ∉ seen)))⟩
    (seen.length = ops.length)

end Manifest

section Mappings

variable (lookup : LookupModule) (op : Operation) (m : Mapping)

/-- A worker is a platform operation without a transport binding. -/
def checkWorker : Except Problem Unit :=
  require ⟨.workerEntry, op.id, "explicit process entry requires platform authentication, " ++
      "ALL permission closure and no transport binding"⟩
    (m.workerPermission ≠ "" → Text.code m.workerPermission ∧
      m.classification = .platformManagement ∧ ¬op.security.tenantRequired ∧
      op.bindings.rpc = "" ∧ op.bindings.http = [] ∧ op.security.authentication ≠ [] ∧
      op.security.permissionMode = "all" ∧ m.workerPermission ∈ op.security.permissions)

def checkClassification : Except Problem Unit :=
  match m.classification with
  | .tenantBusiness =>
    require ⟨.businessMapping, op.id,
        "tenant business requires module/capabilities and must not be exempt"⟩
      (op.security.tenantRequired ∧ m.moduleCode ≠ "" ∧ m.capabilityCodes ≠ [] ∧
        m.exemptionReason = "")
  | .platformManagement =>
    require ⟨.classification, op.id,
        "tenant-bound operation cannot be classified as platform management"⟩
      (¬op.security.tenantRequired)
  | .recovery | .foundationExempt => .ok ()
  | .unrecognised _ => .error ⟨.classification, op.id, "unknown or absent classification"⟩

/-- Record the module of a capability; it is recorded already when another operation of the
module has it. -/
def own (moduleCode : String) (available : List String) (owners : List Capability)
    (code : String) : Except Problem (List Capability) := do
  require ⟨.unknownCapability, op.id, moduleCode ++ "/" ++ code⟩ (code ∈ available)
  match ownerOf owners code with
  | some previous => do
    require ⟨.capabilityOwner, op.id, code ++ " has conflicting module owners"⟩
      (previous.moduleCode = moduleCode)
    return owners
  | none => return owners ++ [⟨code, moduleCode⟩]

def ownAll (owners : List Capability) : Except Problem (List Capability) :=
  if m.moduleCode = "" then .ok owners
  else do
    let available ← found ⟨.unknownModule, op.id, m.moduleCode⟩ (lookup m.moduleCode)
    m.capabilityCodes.foldlM (own op m.moduleCode available) owners

def checkChild (child : Child) : Except Problem Unit := do
  let edge := op.id ++ " -> " ++ child.operationId
  require ⟨.childMode, edge, "always or conditional required"⟩
    (child.mode = .always ∨ child.mode = .conditional)
  require ⟨.childCondition, edge, "only conditional edges require a nonblank condition"⟩
    (child.mode = .conditional ↔ Text.trimSpace child.condition ≠ "")
  require ⟨.childSource, edge, "implementation source required"⟩ (Text.trimSpace child.source ≠ "")

def validateMapping (owners : List Capability) : Except Problem (List Capability) := do
  checkWorker op m
  checkClassification op m
  require ⟨.exemptionReason, op.id,
      "non-commercial classification requires a reason; IAM is never exempt"⟩
    (m.classification = .tenantBusiness ∨ Text.trimSpace m.exemptionReason ≠ "")
  unique m.capabilityCodes (op.id ++ ".capability_codes")
  require ⟨.capability, op.id, "module and capability ownership must be specified together"⟩
    (m.moduleCode = "" ↔ m.capabilityCodes = [])
  let owners ← ownAll lookup op m owners
  m.children.forM (checkChild op)
  let children := m.children.map (·.operationId)
  unique children (op.id ++ ".children")
  require ⟨.childCoverage, op.id, "declared=" ++ texts (sorted children) ++ " generated=" ++
      texts (sorted op.requires)⟩
    (sorted children = sorted op.requires)
  return owners

/-- Children in the order of their operations. -/
def sortedChildren (children : List Child) : List Child :=
  children.insertionSort fun a b => a.operationId ≤ b.operationId

def consumerType : ConsumerType :=
  if op.bindings.rpc ≠ "" then
    if op.security.tenantRequired then .tenant else .platform
  else if m.workerPermission ≠ "" then .worker
  else .internalChild

/-- The entry of a mapping, before its closure is known. -/
def compiled : CompiledOperation :=
  { m with
    capabilityCodes := sorted m.capabilityCodes
    children := sortedChildren m.children
    consumerType := consumerType op m
    tenantRequired := op.security.tenantRequired
    rpc := op.bindings.rpc
    requiredCapabilityCodes :=
      if m.classification = .tenantBusiness then sorted (sorted m.capabilityCodes) else []
    alwaysRequiredCapabilityCodes := [] }

end Mappings

/-- The body of the loop over the declared operations. -/
def declareOperation (lookup : LookupModule)
    (state : List CompiledOperation × List Capability) (mapping : Mapping) :
    Except Problem (List CompiledOperation × List Capability) := do
  let op ← found ⟨.unknownOperation, mapping.operationId, "not present in generated OperationPlan"⟩
    (planned ops mapping.operationId)
  require ⟨.duplicateMapping, op.id, "exactly one classification required"⟩
    (entryOf state.1 op.id = none)
  let owners ← validateMapping lookup op mapping state.2
  return (state.1 ++ [compiled op mapping], owners)

section Graph

/-- The entries as a map. -/
abbrev Entries := String → Option CompiledOperation

variable (entries : Entries)

/-- `visit`, with the operations on the current path and those that are finished. -/
def visit : Nat → List String → List String → String → Except CompileErr (List String)
  | 0, _, _, _ => .error .exhausted
  | fuel + 1, path, done, id =>
    match entries id with
    | none => .error (.problem ⟨.childMapping, id, "child mapping/capability is missing"⟩)
    | some entry =>
      if id ∈ path then .error (.problem ⟨.childCycle, id, "cycle in root/child graph"⟩)
      else if id ∈ done then .ok done
      else do
        let done ← (entry.children.map (·.operationId)).foldlM (visit fuel (id :: path)) done
        return done ++ [id]

def validateGraph (ids : List String) : Except CompileErr Unit := do
  let _ ← ids.foldlM (visit entries (ids.length + 1) []) []
  return ()

abbrev Memo := List (String × List String)

/-- The entry of an operation that has none. -/
def CompiledOperation.zero : CompiledOperation :=
  { operationId := "", classification := .unrecognised "", capabilityCodes := [], children := [],
    consumerType := .unrecognised "", tenantRequired := false, requiredCapabilityCodes := [],
    alwaysRequiredCapabilityCodes := [] }

/-- The set of capabilities that the loop over the children collects. -/
def addCodes (set codes : List String) : List String :=
  codes.foldl (fun set code => set.insert code) set

/-- The capabilities that an operation needs on every path, remembered for each operation. -/
def alwaysClosure : Nat → String → Memo → Except CompileErr (List String × Memo)
  | 0, _, _ => .error .exhausted
  | fuel + 1, id, memo =>
    match memo.lookup id with
    | some previous => .ok (previous, memo)
    | none => do
      let entry := (entries id).getD .zero
      let always := (entry.children.filter fun child => child.mode = .always).map (·.operationId)
      let (set, memo) ← always.foldlM (fun (set, memo) child => do
        let (codes, memo) ← alwaysClosure fuel child memo
        return (addCodes set codes, memo)) (addCodes [] entry.requiredCapabilityCodes, memo)
      return (sorted set, (id, sorted set) :: memo)

/-- The body of the loop that emits the operations. -/
def emit (fuel : Nat) (state : List CompiledOperation × Memo) (id : String) :
    Except CompileErr (List CompiledOperation × Memo) := do
  let (codes, memo) ← alwaysClosure entries fuel id state.2
  let entry := (entries id).getD .zero
  return (state.1 ++ [{ entry with alwaysRequiredCapabilityCodes := codes }], memo)

end Graph

/-- The loops over the inventory and the declaration: the entries and the owners. -/
def inventory (plans : Plans) (manifest : Manifest) (declaration : Declaration)
    (lookup : LookupModule) :
    Except Problem (List Operation × List CompiledOperation × List Capability) := do
  let ops ← plans.operations.foldlM addOperation []
  validateManifest ops manifest
  unique declaration.retiredCapabilityCodes "retired_capability_codes"
  let (entries, owners) ← declaration.operations.foldlM (declareOperation ops lookup) ([], [])
  return (ops, entries, owners)

def checkClassified (entries : Entries) (id : String) : Except Problem Unit :=
  require ⟨.unclassified, id, "new root or child requires an explicit mapping"⟩
    (entries id ≠ none)

def checkUnowned (owners : List Capability) (code : String) : Except Problem Unit :=
  require ⟨.retiredCapability, code, "retired capability cannot be reused"⟩
    (ownerOf owners code = none)

/-- A nil `lookup` has no value. -/
def compile (plans : Plans) (manifest : Manifest) (declaration : Declaration)
    (lookup : Option LookupModule) : Except CompileErr Document := do
  require (.problem ⟨.schema, "inputs", "expected OperationPlan v2, manifest v3, declaration v1"⟩)
    (plans.schemaVersion = 2 ∧ manifest.schemaVersion = 3 ∧ declaration.schemaVersion = 1)
  let _ ← (version declaration.mappingVersion).mapError .problem
  let empty : CompileErr :=
    .problem ⟨.empty, "inputs", "nonempty inventory and Registry lookup required"⟩
  let lookup ← found empty lookup
  require empty (plans.operations ≠ [])
  let (ops, entries, owners) ← (inventory plans manifest declaration lookup).mapError .problem
  let ids := sorted (ops.map (·.id))
  (ids.forM (checkClassified (entryOf entries))).mapError .problem
  (declaration.retiredCapabilityCodes.forM (checkUnowned owners)).mapError .problem
  validateGraph (entryOf entries) ids
  let (operations, _) ← ids.foldlM (emit (entryOf entries) (ids.length + 1)) ([], [])
  return { schemaVersion := 1, mappingVersion := declaration.mappingVersion, inputsSha256 := [],
           retiredCapabilityCodes := sorted declaration.retiredCapabilityCodes,
           capabilities := owners.insertionSort fun a b => a.code ≤ b.code, operations }

end Biz.CapabilityMap
