import Biz.CapabilityMap.Compile

/-!
# The inventory and the order of its inputs

Each loop of the compiler is described by what it has checked and collected: the planned
operations are those of the plan, with distinct ids; every declared mapping is valid for its
operation on its own; and the owners are the pairs of a module and a capability that the
mappings name, when these agree. None of this speaks of an order. The inventory of the same
operations, mappings and children in another order therefore is accepted as well, with the
same lookups and the same owners.
-/

namespace Biz.CapabilityMap

open Checks

/-- Sorting forgets the order. -/
theorem sorted_eq_of_perm {values others : List String} (perm : values.Perm others) :
    sorted values = sorted others :=
  List.Perm.eq_of_pairwise (fun _ _ _ _ => le_antisymm) (List.pairwise_insertionSort _ values)
    (List.pairwise_insertionSort _ others) ((List.perm_insertionSort _ values).trans
      (perm.trans (List.perm_insertionSort _ others).symm))

section Plans

variable {ops ops' done after : List Operation}

/-- An operation of the plan that the loop accepts. -/
def Operation.Valid (op : Operation) : Prop :=
  Text.code op.id = true ∧ unique op.requires (op.id ++ ".requiresOperations") = .ok ()

theorem planned_some {id : String} {op : Operation} (known : planned ops id = some op) :
    op ∈ ops ∧ op.id = id :=
  Keyed.find?_some known

theorem addOperations_ok :
    ops.foldlM addOperation done = .ok after ↔
      (∀ op ∈ ops, op.Valid ∧ planned done op.id = none) ∧ (ops.map (·.id)).Nodup ∧
        after = done ++ ops := by
  induction ops generalizing done with
  | nil =>
    rw [List.foldlM_nil, pure_ok]
    simp [eq_comm]
  | cons op rest ih =>
    simp only [List.foldlM_cons, addOperation, bind_ok, require_ok, pure_ok, ih,
      List.forall_mem_cons, List.map_cons, List.nodup_cons]
    constructor
    · rintro ⟨_, ⟨_, ⟨absent, code⟩, _, requires, rfl⟩, each, distinct, rfl⟩
      obtain ⟨valid, new⟩ := forall₂_and.mp each
      obtain ⟨earlier, fresh⟩ := (Keyed.find?_concat_none _).mp new
      exact ⟨⟨⟨⟨code, requires⟩, absent⟩, forall₂_and.mpr ⟨valid, earlier⟩⟩, ⟨fresh, distinct⟩,
        by simp⟩
    · rintro ⟨⟨⟨⟨code, requires⟩, absent⟩, each⟩, ⟨fresh, distinct⟩, rfl⟩
      obtain ⟨valid, earlier⟩ := forall₂_and.mp each
      have new := (Keyed.find?_concat_none _).mpr ⟨earlier, fresh⟩
      exact ⟨done ++ [op], ⟨(), ⟨absent, code⟩, (), requires, rfl⟩, forall₂_and.mpr ⟨valid, new⟩,
        distinct, by simp⟩

/-- The operations of a plan in another order are the same map. -/
theorem planned_eq_of_perm (distinct : (ops.map (·.id)).Nodup) (perm : ops.Perm ops') :
    planned ops = planned ops' :=
  funext fun id => Keyed.find?_eq_of_perm distinct perm id

theorem checkPlanned_congr (same : planned ops = planned ops') :
    checkPlanned ops = checkPlanned ops' := by
  unfold checkPlanned
  rw [same]

theorem validateManifest_eq_of_perm (distinct : (ops.map (·.id)).Nodup) (perm : ops.Perm ops')
    (manifest : Manifest) : validateManifest ops manifest = validateManifest ops' manifest := by
  have services : checkService ops = checkService ops' := by
    unfold checkService checkMethod
    rw [checkPlanned_congr (planned_eq_of_perm distinct perm)]
  have absent : ∀ seen : List String, sorted ((ops.map (·.id)).filter (· ∉ seen)) =
      sorted ((ops'.map (·.id)).filter (· ∉ seen)) :=
    fun seen => sorted_eq_of_perm ((perm.map _).filter _)
  simp only [validateManifest, services, absent, perm.length_eq]

end Plans

section Owners

variable {owners after cs cs' : List Capability}

/-- The capabilities that a mapping claims for its module. -/
def Mapping.claims (m : Mapping) : List Capability :=
  if m.moduleCode = "" then [] else m.capabilityCodes.map (⟨·, m.moduleCode⟩)

/-- Record a claim, unless another module has the capability. -/
def record (owners : List Capability) (c : Capability) : Option (List Capability) :=
  match ownerOf owners c.code with
  | some previous => if previous.moduleCode = c.moduleCode then some owners else none
  | none => some (owners ++ [c])

/-- No capability is claimed by two modules. -/
def Agree (cs : List Capability) : Prop := ∀ c ∈ cs, ∀ c' ∈ cs, c.code = c'.code → c = c'

theorem ownerOf_none {code : String} : ownerOf owners code = none ↔ ∀ c ∈ owners, c.code ≠ code :=
  Keyed.find?_none

theorem ownerOf_some {code : String} {c : Capability} (known : ownerOf owners code = some c) :
    c ∈ owners ∧ c.code = code :=
  Keyed.find?_some known

/-- What a record leaves: the claim among the owners. -/
theorem record_some {c : Capability} (recorded : record owners c = some after)
    (distinct : (owners.map (·.code)).Nodup) :
    (after.map (·.code)).Nodup ∧ ∀ other, other ∈ after ↔ other ∈ owners ∨ other = c := by
  unfold record at recorded
  split at recorded
  · rename_i previous found
    obtain ⟨member, code⟩ := ownerOf_some found
    split at recorded
    · cases recorded
      have equal : previous = c := by
        cases previous
        simp_all
      refine ⟨distinct, fun other => ⟨.inl, ?_⟩⟩
      rintro (earlier | rfl)
      · exact earlier
      · exact equal ▸ member
    · cases recorded
  · rename_i absent
    cases recorded
    refine ⟨?_, by simp⟩
    rw [List.map_append, List.map_singleton]
    refine List.nodup_append'.mpr ⟨distinct, List.nodup_singleton _, ?_⟩
    rw [List.disjoint_singleton]
    intro member
    obtain ⟨other, listed, same⟩ := List.mem_map.mp member
    exact ownerOf_none.mp absent other listed same

theorem records_some (recorded : cs.foldlM record owners = some after)
    (distinct : (owners.map (·.code)).Nodup) :
    (after.map (·.code)).Nodup ∧ ∀ c, c ∈ after ↔ c ∈ owners ∨ c ∈ cs := by
  induction cs generalizing owners with
  | nil =>
    cases recorded
    exact ⟨distinct, by simp⟩
  | cons c rest ih =>
    rw [List.foldlM_cons, Option.bind_eq_bind, Option.bind_eq_some_iff] at recorded
    obtain ⟨_, first, later⟩ := recorded
    obtain ⟨distinct', members⟩ := record_some first distinct
    obtain ⟨last, others⟩ := ih later distinct'
    refine ⟨last, fun other => ?_⟩
    rw [others, members, List.mem_cons, or_assoc]

/-- Claims that agree with each other and with the owners are recorded. -/
theorem exists_records (distinct : (owners.map (·.code)).Nodup) (agree : Agree (owners ++ cs)) :
    ∃ after, cs.foldlM record owners = some after := by
  induction cs generalizing owners with
  | nil => exact ⟨owners, rfl⟩
  | cons c rest ih =>
    obtain ⟨middle, first⟩ : ∃ middle, record owners c = some middle := by
      unfold record
      split
      · rename_i previous found
        obtain ⟨member, code⟩ := ownerOf_some found
        have same := agree previous (List.mem_append_left _ member) c (by simp) code
        exact ⟨owners, if_pos (by rw [same])⟩
      · exact ⟨_, rfl⟩
    obtain ⟨distinct', members⟩ := record_some first distinct
    obtain ⟨after, later⟩ := ih distinct' fun a left b right => by
      simp only [List.mem_append, members] at left right
      exact agree a (by simp; tauto) b (by simp; tauto)
    exact ⟨after, by rw [List.foldlM_cons, first]; exact later⟩

/-- The owners of the same claims, in any order and number, are the same. -/
theorem records_of_same_claims (recorded : cs.foldlM record [] = some after)
    (same : ∀ c, c ∈ cs ↔ c ∈ cs') :
    ∃ after', cs'.foldlM record [] = some after' ∧ after.Perm after' ∧
      (after.map (·.code)).Nodup := by
  obtain ⟨distinct, members⟩ := records_some recorded List.nodup_nil
  have agree : Agree ([] ++ cs') := by
    intro a left b right code
    rw [List.nil_append, ← same] at left right
    refine List.inj_on_of_nodup_map distinct ?_ ?_ code
    · exact (members a).mpr (.inr left)
    · exact (members b).mpr (.inr right)
  have empty : (([] : List Capability).map (·.code)).Nodup := List.nodup_nil
  obtain ⟨after', recorded'⟩ := exists_records empty agree
  obtain ⟨distinct', members'⟩ := records_some recorded' List.nodup_nil
  refine ⟨after', recorded', ?_, distinct⟩
  refine (List.perm_ext_iff_of_nodup (.of_map _ distinct) (.of_map _ distinct')).mpr fun c => ?_
  simp [members, members', same]

end Owners

section Mappings

variable {lookup : LookupModule} {op : Operation} {m m' : Mapping} {owners after : List Capability}

/-- A mapping that is valid for its operation, whatever the other mappings are. -/
structure Mapping.Valid (lookup : LookupModule) (op : Operation) (m : Mapping) : Prop where
  worker : checkWorker op m = .ok ()
  classification : checkClassification op m = .ok ()
  exemption : m.classification = .tenantBusiness ∨ Text.trimSpace m.exemptionReason ≠ ""
  codes : unique m.capabilityCodes (op.id ++ ".capability_codes") = .ok ()
  together : m.moduleCode = "" ↔ m.capabilityCodes = []
  available : m.moduleCode ≠ "" → ∃ available, lookup m.moduleCode = some available ∧
    ∀ code ∈ m.capabilityCodes, code ∈ available
  children : ∀ child ∈ m.children, checkChild op child = .ok ()
  distinct : unique (m.children.map (·.operationId)) (op.id ++ ".children") = .ok ()
  coverage : sorted (m.children.map (·.operationId)) = sorted op.requires

theorem own_ok {moduleCode code : String} {available : List String} :
    own op moduleCode available owners code = .ok after ↔
      code ∈ available ∧ record owners ⟨code, moduleCode⟩ = some after := by
  simp only [own, record, bind_ok, require_ok]
  cases ownerOf owners code with
  | none => simp
  | some previous =>
    simp only [bind_ok, require_ok, pure_ok]
    simp

theorem owns_ok {moduleCode : String} {available codes : List String} :
    codes.foldlM (own op moduleCode available) owners = .ok after ↔
      (∀ code ∈ codes, code ∈ available) ∧
        (codes.map fun code => (⟨code, moduleCode⟩ : Capability)).foldlM record owners =
          some after := by
  induction codes generalizing owners with
  | nil =>
    simp
  | cons code rest ih =>
    simp only [List.foldlM_cons, List.map_cons, bind_ok, own_ok, ih,
      Option.bind_eq_bind, Option.bind_eq_some_iff, List.forall_mem_cons]
    constructor
    · rintro ⟨middle, ⟨member, first⟩, others, later⟩
      exact ⟨⟨member, others⟩, middle, first, later⟩
    · rintro ⟨⟨member, others⟩, middle, first, later⟩
      exact ⟨middle, ⟨member, first⟩, others, later⟩

theorem ownAll_ok :
    ownAll lookup op m owners = .ok after ↔
      (m.moduleCode ≠ "" → ∃ available, lookup m.moduleCode = some available ∧
        ∀ code ∈ m.capabilityCodes, code ∈ available) ∧
      m.claims.foldlM record owners = some after := by
  unfold ownAll Mapping.claims
  by_cases none : m.moduleCode = ""
  · simp [none]
  · simp only [none, if_false, bind_ok, found_ok, owns_ok, ne_eq, not_false_eq_true, true_imp_iff]
    constructor
    · rintro ⟨available, known, each, recorded⟩
      exact ⟨⟨available, known, each⟩, recorded⟩
    · rintro ⟨⟨available, known, each⟩, recorded⟩
      exact ⟨available, known, each, recorded⟩

theorem validateMapping_ok :
    validateMapping lookup op m owners = .ok after ↔
      m.Valid lookup op ∧ m.claims.foldlM record owners = some after := by
  simp only [validateMapping, bind_ok, require_ok, pure_ok, ownAll_ok]
  constructor
  · rintro ⟨_, worker, _, classification, _, exemption, _, codes, _, together, _,
      ⟨available, recorded⟩, _, children, _, distinct, _, coverage, rfl⟩
    exact ⟨⟨worker, classification, exemption, codes, together, available, forM_ok.mp children,
      distinct, coverage⟩, recorded⟩
  · rintro ⟨valid, recorded⟩
    exact ⟨(), valid.worker, (), valid.classification, (), valid.exemption, (), valid.codes, (),
      valid.together, after, ⟨valid.available, recorded⟩, (), forM_ok.mpr valid.children, (),
      valid.distinct, (), valid.coverage, rfl⟩

/-- A mapping with its children in another order. -/
def Rearranged (m m' : Mapping) : Prop :=
  ∃ children, m' = { m with children } ∧ m.children.Perm children

theorem Rearranged.valid (rearranged : Rearranged m m') (valid : m.Valid lookup op) :
    m'.Valid lookup op := by
  obtain ⟨children, rfl, perm⟩ := rearranged
  refine { valid with children := ?_, distinct := ?_, coverage := ?_ }
  · exact fun child member => valid.children child (perm.mem_iff.mpr member)
  · have distinct := unique_ok.mp valid.distinct
    refine unique_ok.mpr ⟨(perm.map _).nodup_iff.mp distinct.1, fun id member => ?_⟩
    exact distinct.2 id ((perm.map _).mem_iff.mpr member)
  · exact (sorted_eq_of_perm (perm.map (·.operationId))).symm.trans valid.coverage

/-- What is compiled of a mapping does not depend on the order of its children. -/
theorem Rearranged.compiled (rearranged : Rearranged m m') (valid : m.Valid lookup op) :
    CapabilityMap.compiled op m = CapabilityMap.compiled op m' := by
  obtain ⟨children, rfl, perm⟩ := rearranged
  have same : sortedChildren m.children = sortedChildren children :=
    Keyed.insertionSort_eq_of_perm (unique_ok.mp valid.distinct).1 perm
  simp only [CapabilityMap.compiled, same]
  rfl

end Mappings

section Declarations

variable {ops : List Operation} {lookup : LookupModule} {ms ms' : List Mapping}
  {entries entries' : List CompiledOperation} {owners owners' : List Capability}

/-- The entry that a mapping gets. -/
def entryFor (ops : List Operation) (m : Mapping) : Option CompiledOperation :=
  (planned ops m.operationId).map fun op => compiled op m

theorem entryOf_some {id : String} {entry : CompiledOperation}
    (known : entryOf entries id = some entry) : entry ∈ entries ∧ entry.operationId = id :=
  Keyed.find?_some known

theorem declare_ok :
    ms.foldlM (declareOperation ops lookup) (entries, owners) = .ok (entries', owners') ↔
      (∀ m ∈ ms, (∃ op, planned ops m.operationId = some op ∧ m.Valid lookup op) ∧
        entryOf entries m.operationId = none) ∧
      (ms.map (·.operationId)).Nodup ∧ entries' = entries ++ ms.filterMap (entryFor ops) ∧
      (ms.flatMap Mapping.claims).foldlM record owners = some owners' := by
  induction ms generalizing entries owners with
  | nil =>
    rw [List.foldlM_nil, pure_ok]
    simp [eq_comm]
  | cons m rest ih =>
    simp only [List.foldlM_cons, declareOperation, bind_ok, found_ok, require_ok, pure_ok,
      validateMapping_ok, List.forall_mem_cons, List.map_cons, List.nodup_cons, List.flatMap_cons,
      List.foldlM_append, Option.bind_eq_bind, Option.bind_eq_some_iff]
    constructor
    · rintro ⟨_, ⟨op, known, _, absent, middle, ⟨valid, recorded⟩, rfl⟩, done⟩
      obtain ⟨each, distinct, rfl, later⟩ := ih.mp done
      have id := (planned_some known).2
      obtain ⟨planned, new⟩ := forall₂_and.mp each
      obtain ⟨earlier, fresh⟩ := (Keyed.find?_concat_none _).mp new
      refine ⟨⟨⟨⟨op, known, valid⟩, id ▸ absent⟩, forall₂_and.mpr ⟨planned, earlier⟩⟩,
        ⟨fresh, distinct⟩, ?_, middle, recorded, later⟩
      simp [entryFor, known]
    · rintro ⟨⟨⟨⟨op, known, valid⟩, absent⟩, each⟩, ⟨fresh, distinct⟩, rfl, middle, recorded, later⟩
      have id := (planned_some known).2
      obtain ⟨planned, earlier⟩ := forall₂_and.mp each
      have new := (Keyed.find?_concat_none (compiled op m)).mpr ⟨earlier, fresh⟩
      refine ⟨_, ⟨op, known, (), id ▸ absent, middle, ⟨valid, recorded⟩, rfl⟩,
        ih.mpr ⟨forall₂_and.mpr ⟨planned, new⟩, distinct, ?_, later⟩⟩
      simp [entryFor, known]

/-- Every mapping is planned and valid. -/
def AllValid (ops : List Operation) (lookup : LookupModule) (ms : List Mapping) : Prop :=
  ∀ m ∈ ms, ∃ op, planned ops m.operationId = some op ∧ m.Valid lookup op

/-- The entries have the ids of their mappings. -/
theorem entries_ids (valid : AllValid ops lookup ms) :
    (ms.filterMap (entryFor ops)).map (·.operationId) = ms.map (·.operationId) := by
  induction ms with
  | nil => rfl
  | cons m rest ih =>
    obtain ⟨⟨op, known, -⟩, others⟩ := List.forall_mem_cons.mp valid
    have entry : entryFor ops m = some (compiled op m) := by simp [entryFor, known]
    rw [List.filterMap_cons_some entry, List.map_cons, List.map_cons, ih others]
    rfl

/-- Mappings with rearranged children have the same ids, claims and entries. -/
theorem rearranged_all (rearranged : List.Forall₂ Rearranged ms ms')
    (valid : AllValid ops lookup ms) :
    AllValid ops lookup ms' ∧ ms'.map (·.operationId) = ms.map (·.operationId) ∧
      ms'.flatMap Mapping.claims = ms.flatMap Mapping.claims ∧
      ms'.filterMap (entryFor ops) = ms.filterMap (entryFor ops) := by
  induction rearranged with
  | nil => exact ⟨valid, rfl, rfl, rfl⟩
  | @cons m m' rest rest' here _ ih =>
    obtain ⟨⟨op, known, first⟩, others⟩ := List.forall_mem_cons.mp valid
    obtain ⟨valid', ids, claims, entries⟩ := ih others
    have same : m'.operationId = m.operationId ∧ m'.claims = m.claims := by
      obtain ⟨_, rfl, -⟩ := here
      exact ⟨rfl, rfl⟩
    have entry : entryFor ops m' = entryFor ops m := by
      simp only [entryFor, same.1, known, Option.map_some, here.compiled first]
    refine ⟨List.forall_mem_cons.mpr ⟨⟨op, same.1 ▸ known, here.valid first⟩, valid'⟩, ?_, ?_, ?_⟩
    · rw [List.map_cons, List.map_cons, ids, same.1]
    · rw [List.flatMap_cons, List.flatMap_cons, claims, same.2]
    · rw [List.filterMap_cons, List.filterMap_cons, entries, entry]

/-- Mappings in another order, with their children in another order. -/
def Reordered (ms ms' : List Mapping) : Prop :=
  ∃ middle, ms.Perm middle ∧ List.Forall₂ Rearranged middle ms'

/-- Reordered declarations are accepted with the same entries and owners. -/
theorem declare_reordered (reordered : Reordered ms ms')
    (done : ms.foldlM (declareOperation ops lookup) ([], []) = .ok (entries, owners)) :
    ∃ entries' owners',
      ms'.foldlM (declareOperation ops lookup) ([], []) = .ok (entries', owners') ∧
        entryOf entries' = entryOf entries ∧ owners.Perm owners' ∧ (owners.map (·.code)).Nodup := by
  obtain ⟨each, distinct, rfl, recorded⟩ := declare_ok.mp done
  obtain ⟨middle, perm, rearranged⟩ := reordered
  have valid : AllValid ops lookup middle := fun m member => (each m (perm.mem_iff.mpr member)).1
  obtain ⟨valid', ids, claims, same⟩ := rearranged_all rearranged valid
  have members : ∀ c, c ∈ ms.flatMap Mapping.claims ↔ c ∈ ms'.flatMap Mapping.claims := by
    intro c
    rw [claims]
    exact (perm.flatMap_right _).mem_iff
  obtain ⟨owners', recorded', permOwners, codes⟩ := records_of_same_claims recorded members
  refine ⟨_, owners', declare_ok.mpr ⟨fun m member => ⟨valid' m member, rfl⟩, ?_, rfl, recorded'⟩,
    ?_,
    permOwners, codes⟩
  · rw [ids]
    exact (perm.map _).nodup_iff.mp distinct
  · funext id
    have first : AllValid ops lookup ms := fun m member => (each m member).1
    rw [List.nil_append, List.nil_append, same]
    refine (Keyed.find?_eq_of_perm ?_ (perm.filterMap _) id).symm
    rw [entries_ids first]
    exact distinct

theorem declareOperation_congr {ops' : List Operation} (same : planned ops = planned ops') :
    declareOperation ops lookup = declareOperation ops' lookup := by
  unfold declareOperation
  rw [same]

end Declarations

section Compilation

variable {plans : Plans} {manifest : Manifest} {declaration : Declaration}
  {lookup : Option LookupModule} {d : Document}

theorem inventory_ok {look : LookupModule} {ops : List Operation} {entries : List CompiledOperation}
    {owners : List Capability} :
    inventory plans manifest declaration look = .ok (ops, entries, owners) ↔
      plans.operations.foldlM addOperation [] = .ok ops ∧ validateManifest ops manifest = .ok () ∧
      unique declaration.retiredCapabilityCodes "retired_capability_codes" = .ok () ∧
      declaration.operations.foldlM (declareOperation ops look)
        ([], []) = .ok (entries, owners) := by
  simp only [inventory, bind_ok, pure_ok]
  constructor
  · rintro ⟨_, plan, _, listed, _, retired, ⟨_, _⟩, declared, same⟩
    cases same
    exact ⟨plan, listed, retired, declared⟩
  · rintro ⟨plan, listed, retired, declared⟩
    exact ⟨ops, plan, (), listed, (), retired, (entries, owners), declared, rfl⟩

/-- What a compilation has checked and emitted. -/
theorem compile_ok :
    compile plans manifest declaration lookup = .ok d ↔
      (plans.schemaVersion = 2 ∧ manifest.schemaVersion = 3 ∧ declaration.schemaVersion = 1) ∧
      (∃ n, version declaration.mappingVersion = .ok n) ∧ plans.operations ≠ [] ∧
      ∃ look ops entries owners operations memo, lookup = some look ∧
        inventory plans manifest declaration look = .ok (ops, entries, owners) ∧
        (∀ id ∈ sorted (ops.map (·.id)), entryOf entries id ≠ none) ∧
        (∀ code ∈ declaration.retiredCapabilityCodes, ownerOf owners code = none) ∧
        validateGraph (entryOf entries) (sorted (ops.map (·.id))) = .ok () ∧
        (sorted (ops.map (·.id))).foldlM
          (emit (entryOf entries) ((sorted (ops.map (·.id))).length + 1)) ([], []) =
          .ok (operations, memo) ∧
        d = { schemaVersion := 1, mappingVersion := declaration.mappingVersion, inputsSha256 := [],
              retiredCapabilityCodes := sorted declaration.retiredCapabilityCodes,
              capabilities := owners.insertionSort fun a b => a.code ≤ b.code, operations } := by
  simp only [compile, bind_ok, require_ok, found_ok, mapError_ok, pure_ok]
  constructor
  · rintro ⟨_, schemas, n, number, look, known, _, nonempty, ⟨ops, entries, owners⟩, listed, _,
      classified, _, retired, _, graph, ⟨operations, memo⟩, emitted, rfl⟩
    refine ⟨schemas, ⟨n, number⟩, nonempty, look, ops, entries, owners, operations, memo, known,
      listed, fun id member => ?_, fun code member => ?_, graph, emitted, rfl⟩
    · exact require_ok.mp (forM_ok.mp classified id member)
    · exact require_ok.mp (forM_ok.mp retired code member)
  · rintro ⟨schemas, ⟨n, number⟩, nonempty, look, ops, entries, owners, operations, memo, known,
      listed, classified, retired, graph, emitted, rfl⟩
    refine ⟨(), schemas, n, number, look, known, (), nonempty, (ops, entries, owners), listed, (),
      forM_ok.mpr fun id member => ?_, (), forM_ok.mpr fun code member => ?_, (), graph,
      (operations, memo), emitted, rfl⟩
    · exact require_ok.mpr (classified id member)
    · exact require_ok.mpr (retired code member)

/-- The same plan, mappings and children in another order compile to the same document. -/
theorem compile_reordered {ops' : List Operation} {ms' : List Mapping}
    (accepted : compile plans manifest declaration lookup = .ok d)
    (perm : plans.operations.Perm ops') (reordered : Reordered declaration.operations ms') :
    compile { plans with operations := ops' } manifest { declaration with operations := ms' }
      lookup =
      .ok d := by
  obtain ⟨schemas, number, nonempty, look, _, _, _, operations, memo, known, listed,
    classified, retired, graph, emitted, rfl⟩ := compile_ok.mp accepted
  obtain ⟨plan, inManifest, tombstones, declared⟩ := inventory_ok.mp listed
  obtain ⟨each, distinct, same⟩ := addOperations_ok.mp plan
  subst same
  obtain ⟨entries', owners', declared', lookups, permOwners, codes⟩ :=
    declare_reordered reordered declared
  have ids : sorted (plans.operations.map (·.id)) = sorted (ops'.map (·.id)) :=
    sorted_eq_of_perm (perm.map _)
  refine compile_ok.mpr ⟨schemas, number, ?_, look, ops', entries', owners', operations, memo,
    known,
    inventory_ok.mpr ⟨addOperations_ok.mpr ⟨?_, ?_, rfl⟩, ?_, tombstones, ?_⟩, ?_, ?_, ?_, ?_, ?_⟩
  · exact fun none => nonempty (List.Perm.eq_nil (none ▸ perm))
  · exact fun op member => each op (perm.mem_iff.mpr member)
  · exact (perm.map _).nodup_iff.mp distinct
  · rw [← validateManifest_eq_of_perm distinct perm]
    exact inManifest
  · rw [← declareOperation_congr (planned_eq_of_perm distinct perm)]
    exact declared'
  · rw [← ids, lookups]
    exact classified
  · intro code member
    refine ownerOf_none.mpr fun c listed => ?_
    exact ownerOf_none.mp (retired code member) c (permOwners.mem_iff.mpr listed)
  · rw [← ids, lookups]
    exact graph
  · rw [← ids, lookups]
    exact emitted
  · have sortedOwners := Keyed.insertionSort_eq_of_perm codes permOwners
    simp only [sortedOwners]

end Compilation

end Biz.CapabilityMap
