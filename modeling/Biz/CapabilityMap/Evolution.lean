import Biz.CapabilityMap.Model
import Biz.Library.Codec

/-!
# Evolution of capability maps

`ValidateEvolution` compares a document with the one released before it. Tombstones stay,
capabilities keep their module or become tombstones, and a change of the content needs a
larger version. `Evolves` says what the comparison has checked as a relation of two
documents; it is transitive, so a chain of releases in which neighbours pass is one in
which every earlier document passes against every later one.

`encoding/json` is a codec: equal bytes are those of equal documents.
-/

namespace Biz.CapabilityMap

open Checks

inductive EvolutionErr
  | problem (problem : Problem)
  | json
  deriving DecidableEq

/-- The loop that records the module of every active capability; a later entry replaces
an earlier one. -/
def owners (capabilities : List Capability) : String → Option String :=
  capabilities.foldl (fun owners c => Function.update owners c.code (some c.moduleCode))
    fun _ => none

/-- The body of the loop over the tombstones of the previous document. -/
def checkRetired (next : Document) (retired : String) : Except Problem Unit :=
  require ⟨.retiredCapability, retired, "published tombstones cannot disappear or reactivate"⟩
    (owners next.capabilities retired = none ∧ retired ∈ next.retiredCapabilityCodes)

/-- The body of the loop over the capabilities of the previous document. -/
def checkCapability (next : Document) (c : Capability) : Except Problem Unit :=
  match owners next.capabilities c.code with
  | some owner =>
    require ⟨.capabilityOwner, c.code,
      "published capability cannot be repurposed under another module"⟩ (owner = c.moduleCode)
  | none =>
    require ⟨.retiredCapability, c.code, "removed capability requires a permanent tombstone"⟩
      (c.code ∈ next.retiredCapabilityCodes)

/-- The document without its version and the hashes of its inputs. -/
def Document.content (d : Document) : Document :=
  { d with inputsSha256 := [], mappingVersion := "" }

def validateEvolution (json : Codec Document) (previous next : Document) :
    Except EvolutionErr Unit := do
  require (.problem ⟨.schema, "baseline", "unsupported compiled catalog"⟩)
    (previous.schemaVersion = 1 ∧ next.schemaVersion = 1)
  let oldVersion ← (version previous.mappingVersion).mapError .problem
  let newVersion ← (version next.mappingVersion).mapError .problem
  require (.problem ⟨.version, "mapping_version", "release version must not decrease"⟩)
    (oldVersion ≤ newVersion)
  (previous.retiredCapabilityCodes.forM (checkRetired next)).mapError .problem
  (previous.capabilities.forM (checkCapability next)).mapError .problem
  let a ← found .json (json.encode previous.content)
  let b ← found .json (json.encode next.content)
  require (.problem
    ⟨.version, "mapping_version", "changed published mapping requires a larger version"⟩)
    (¬(a ≠ b ∧ newVersion ≤ oldVersion))

section Owners

variable {capabilities : List Capability} {code owner : String}

theorem owners_append (c : Capability) :
    owners (capabilities ++ [c]) = Function.update (owners capabilities) c.code
      (some c.moduleCode) := by
  simp [owners]

/-- The owner of a code is the module of one of its entries. -/
theorem mem_of_owners (owned : owners capabilities code = some owner) :
    ⟨code, owner⟩ ∈ capabilities := by
  induction capabilities using List.reverseRecOn with
  | nil => cases owned
  | append_singleton rest c ih =>
    rw [owners_append, Function.update_apply] at owned
    split at owned
    · rename_i same
      cases owned
      exact List.mem_append_right _ (by simp [same])
    · exact List.mem_append_left _ (ih owned)

/-- A code is active exactly when it has an entry. -/
theorem owners_eq_none : owners capabilities code = none ↔ ∀ c ∈ capabilities, c.code ≠ code := by
  induction capabilities using List.reverseRecOn with
  | nil => simp [owners]
  | append_singleton rest c ih =>
    rw [owners_append, Function.update_apply, List.forall_mem_append]
    by_cases same : code = c.code
    · simp [same]
    · simp [same, ih, Ne.symm same]

/-- Where every code has one entry, it names the owner. -/
theorem owners_of_mem (distinct : (capabilities.map (·.code)).Nodup)
    (member : ⟨code, owner⟩ ∈ capabilities) : owners capabilities code = some owner := by
  cases owned : owners capabilities code with
  | none => exact absurd rfl (owners_eq_none.mp owned _ member)
  | some other =>
    have same := List.inj_on_of_nodup_map distinct (mem_of_owners owned) member rfl
    exact congrArg some (congrArg Capability.moduleCode same)

end Owners

/-- What a comparison has checked, with the versions of both documents. -/
structure Evolves (json : Codec Document) (previous next : Document) : Prop where
  schemas : previous.schemaVersion = 1 ∧ next.schemaVersion = 1
  versions : ∃ old new, version previous.mappingVersion = .ok old ∧
    version next.mappingVersion = .ok new ∧ old ≤ new ∧
    (previous.content ≠ next.content → old < new)
  encoded : json.encode previous.content ≠ none ∧ json.encode next.content ≠ none
  tombstones : ∀ code ∈ previous.retiredCapabilityCodes,
    owners next.capabilities code = none ∧ code ∈ next.retiredCapabilityCodes
  capabilities : ∀ c ∈ previous.capabilities,
    owners next.capabilities c.code = some c.moduleCode ∨
      (owners next.capabilities c.code = none ∧ c.code ∈ next.retiredCapabilityCodes)

section Relation

variable {json : Codec Document} {first previous next : Document}

theorem checkCapability_ok {c : Capability} :
    checkCapability next c = .ok () ↔ owners next.capabilities c.code = some c.moduleCode ∨
      (owners next.capabilities c.code = none ∧ c.code ∈ next.retiredCapabilityCodes) := by
  unfold checkCapability
  split
  · rename_i owner owned
    simp [owned]
  · rename_i removed
    simp [removed]

theorem validateEvolution_ok :
    validateEvolution json previous next = .ok () ↔ Evolves json previous next := by
  simp only [validateEvolution, bind_ok, require_ok, mapError_ok, found_ok]
  constructor
  · rintro ⟨-, schemas, old, oldVersion, new, newVersion, -, grows, _, retired, _, kept, a, left, b,
      right, larger⟩
    refine ⟨schemas, ⟨old, new, oldVersion, newVersion, grows, fun changed => ?_⟩, ?_, ?_, ?_⟩
    · refine not_le.mp fun small => larger ⟨?_, small⟩
      rintro rfl
      exact changed (json.encode_inj left right)
    · exact ⟨by simp [left], by simp [right]⟩
    · intro code member
      have checked := forM_ok.mp retired code member
      rwa [checkRetired, require_ok] at checked
    · exact fun c member => checkCapability_ok.mp (forM_ok.mp kept c member)
  · rintro ⟨schemas, ⟨old, new, oldVersion, newVersion, grows, larger⟩, ⟨left, right⟩, retired,
      kept⟩
    obtain ⟨a, left⟩ := Option.ne_none_iff_exists'.mp left
    obtain ⟨b, right⟩ := Option.ne_none_iff_exists'.mp right
    refine ⟨(), schemas, old, oldVersion, new, newVersion, (), grows, (), forM_ok.mpr ?_, (),
      forM_ok.mpr ?_, a, left, b, right, fun both => (larger fun same => ?_).not_ge both.2⟩
    · intro code member
      rw [checkRetired, require_ok]
      exact retired code member
    · exact fun c member => checkCapability_ok.mpr (kept c member)
    · rw [same, right, Option.some.injEq] at left
      exact both.1 left.symm

theorem Evolves.trans (early : Evolves json first previous) (late : Evolves json previous next) :
    Evolves json first next where
  schemas := ⟨early.schemas.1, late.schemas.2⟩
  versions := by
    obtain ⟨oldest, _, start, middle, grows, larger⟩ := early.versions
    obtain ⟨_, new, middle', last, grows', larger'⟩ := late.versions
    rw [middle, Except.ok.injEq] at middle'
    subst middle'
    refine ⟨oldest, new, start, last, grows.trans grows', fun changed => ?_⟩
    by_cases same : first.content = previous.content
    · exact grows.trans_lt (larger' fun equal => changed (same.trans equal))
    · exact (larger same).trans_le grows'
  encoded := ⟨early.encoded.1, late.encoded.2⟩
  tombstones code member := late.tombstones code (early.tombstones code member).2
  capabilities c member := by
    rcases early.capabilities c member with owned | ⟨-, retired⟩
    · exact late.capabilities ⟨c.code, c.moduleCode⟩ (mem_of_owners owned)
    · exact .inr (late.tombstones c.code retired)

end Relation

section Chains

variable {json : Codec Document} {documents : List Document}

/-- In a chain of releases every earlier document evolves into every later one. -/
theorem evolves_of_chain
    (chain : documents.IsChain fun previous next => validateEvolution json previous next = .ok ())
    {i j : Nat} {a b : Document} (before : i < j) (first : documents[i]? = some a)
    (last : documents[j]? = some b) : Evolves json a b := by
  have steps : documents.IsChain (Evolves json) := chain.imp fun _ _ => validateEvolution_ok.mp
  have : IsTrans Document (Evolves json) := ⟨fun _ _ _ => Evolves.trans⟩
  have pairs := List.pairwise_iff_getElem.mp (List.isChain_iff_pairwise.mp steps)
  obtain ⟨inside, rfl⟩ := List.getElem?_eq_some_iff.mp first
  obtain ⟨inside', rfl⟩ := List.getElem?_eq_some_iff.mp last
  exact pairs i j inside inside' before

/-- Releases are safe along chains: if every document passes against the one before it,
then it passes against every earlier one. A code that was a tombstone, or was removed, is
never active again; an active code has the module that it had in every earlier document;
and documents with different content have different versions, the later one the larger. -/
theorem evolution_chain
    (chain : documents.IsChain fun previous next => validateEvolution json previous next = .ok ())
    {i j : Nat} {a b : Document} (before : i < j) (first : documents[i]? = some a)
    (last : documents[j]? = some b) :
    validateEvolution json a b = .ok () ∧
      (∀ code ∈ a.retiredCapabilityCodes, owners b.capabilities code = none) ∧
      (∀ code owner k c, ⟨code, owner⟩ ∈ a.capabilities → owners b.capabilities code = none →
        j < k → documents[k]? = some c → owners c.capabilities code = none) ∧
      (∀ code owner owner', ⟨code, owner⟩ ∈ a.capabilities →
        owners b.capabilities code = some owner' → owner' = owner) ∧
      ((b.capabilities.map (·.code)).Nodup → ∀ code owner owner',
        ⟨code, owner⟩ ∈ a.capabilities → ⟨code, owner'⟩ ∈ b.capabilities → owner' = owner) ∧
      (a.content ≠ b.content → ∃ old new, version a.mappingVersion = .ok old ∧
        version b.mappingVersion = .ok new ∧ old < new) := by
  have evolves := evolves_of_chain chain before first last
  have keeps : ∀ code owner owner', ⟨code, owner⟩ ∈ a.capabilities →
      owners b.capabilities code = some owner' → owner' = owner := by
    intro code owner owner' member owned
    rcases evolves.capabilities ⟨code, owner⟩ member with kept | ⟨removed, -⟩
    · rw [owned, Option.some.injEq] at kept
      exact kept
    · rw [owned] at removed
      cases removed
  refine ⟨validateEvolution_ok.mpr evolves, fun code member => (evolves.tombstones code member).1,
    fun code owner k c member removed later found => ?_, keeps,
    fun distinct code owner owner' member member' =>
      keeps code owner owner' member (owners_of_mem distinct member'), fun changed => ?_⟩
  · have next := evolves_of_chain chain later last found
    rcases evolves.capabilities ⟨code, owner⟩ member with kept | ⟨-, retired⟩
    · rw [removed] at kept
      cases kept
    · exact (next.tombstones code retired).1
  · obtain ⟨old, new, oldVersion, newVersion, -, larger⟩ := evolves.versions
    exact ⟨old, new, oldVersion, newVersion, larger changed⟩

/-- A document without operations. -/
def sampleDocument (mappingVersion : String) (retired : List String) (active : List Capability) :
    Document :=
  { schemaVersion := 1, mappingVersion, inputsSha256 := [], retiredCapabilityCodes := retired,
    capabilities := active, operations := [] }

/-- The second release removes a capability, the third only has new inputs. -/
def sampleReleases : List Document :=
  [sampleDocument "9" [] [⟨"device.read", "device"⟩, ⟨"device.write", "device"⟩],
    sampleDocument "10" ["device.write"] [⟨"device.read", "device"⟩],
    { sampleDocument "10" ["device.write"] [⟨"device.read", "device"⟩] with
      inputsSha256 := [("plans", "aa")] }]

def sampleJson : Codec Document := Codec.ofList (sampleReleases.map (·.content))

theorem sample_chain : sampleReleases.IsChain fun previous next =>
    validateEvolution sampleJson previous next = .ok () := by
  decide +kernel

theorem evolution_chain_sample :
    (sampleReleases.IsChain fun previous next =>
      validateEvolution sampleJson previous next = .ok ()) ∧
      ∃ first last, sampleReleases[0]? = some first ∧ sampleReleases[2]? = some last ∧
        validateEvolution sampleJson first last = .ok () ∧ first.content ≠ last.content ∧
        ∃ old new, version first.mappingVersion = .ok old ∧ version last.mappingVersion = .ok new ∧
          old < new := by
  have changed : (sampleReleases.get ⟨0, by decide⟩).content ≠
      (sampleReleases.get ⟨2, by decide⟩).content := by decide +kernel
  obtain ⟨passes, -, -, -, -, larger⟩ :=
    evolution_chain sample_chain (show 0 < 2 by decide) (a := sampleReleases.get ⟨0, by decide⟩)
      (b := sampleReleases.get ⟨2, by decide⟩) rfl rfl
  exact ⟨sample_chain, _, _, rfl, rfl, passes, changed, larger changed⟩

end Chains

end Biz.CapabilityMap
