import Biz.Plan.Offers

/-!
# Retiring an offer

A retirement is exempt from the check of the terms against the module catalogue, so that an
offer whose modules are no longer sold can be taken off sale. The check of its features, which
`mutate` makes for all operations, has no such exemption: a published version can be retired
exactly while all its features are on sale.
-/

namespace Biz.Plan.Management

open Time Checks Runs

/-- A feature is published and sellable in the feature catalogue, which could be read. -/
def OnSale (around : Surroundings) (code : String) : Prop :=
  ∃ features ∈ around.readPlanFeatureCatalog, ∃ feature ∈ features,
    feature.featureCode = code ∧ feature.published ∧ feature.sellable

theorem validatePlanFeatures_ok {around : Surroundings} {terms : Terms} :
    validatePlanFeatures around terms = .ok () ↔ ∀ code ∈ terms.featureCodes,
      OnSale around code := by
  unfold validatePlanFeatures
  split
  · rename_i none
    simp [none]
  · rename_i some
    obtain ⟨first, _, known⟩ := List.exists_cons_of_ne_nil some
    simp only [bind_ok, found_ok, require_ok, OnSale]
    constructor
    · rintro ⟨features, read, sold⟩ code listed
      exact ⟨features, read, sold code listed⟩
    · intro sold
      obtain ⟨features, read, -⟩ := sold first (by simp [known])
      refine ⟨features, read, fun code listed => ?_⟩
      obtain ⟨_, again, here⟩ := sold code listed
      rw [read] at again
      exact Option.some.inj again ▸ here

/-- The version that a retirement makes of a stored one. -/
def retirement (around : Surroundings) (subject reason : String) (head : PlanRow) (old : Version) :
    Version :=
  { old with
    revision := old.revision + 1, state := .retired, retiredAt := some around.now,
    actorId := subject, reason, planRevision := head.revision + 1 }

section Retirement

variable {E : Encoding} {first store : Store} {past : List Event} {around : Surroundings}
  {requestId planCode reason subject hash : String} {version : Nat} {catalog : Catalog}
  {head : PlanRow} {old : Version}

theorem sealed_retirement (canonical : old.terms.canonical = old.terms)
    (intact : old.integrity E.digest = .ok ())
    (sold : ∀ code ∈ old.terms.featureCodes, OnSale around code) {c : Command}
    (retires : c.operation = .retire) (why : c.reason = reason) {v : Version}
    (changes : v = { old with
      revision := old.revision + 1, state := .retired, retiredAt := some around.now }) :
    sealed E around c subject catalog head v = .ok (retirement around subject reason head old) := by
  have content := content_of_integrity intact
  simp only [Version.integrity, bind_ok, require_ok] at intact
  obtain ⟨-, ⟨-, -, -, -, named, short, -⟩, -⟩ := intact
  simp only [sealed, bind_ok, require_ok, pure_ok, changes, canonical]
  refine ⟨(), ⟨named, short⟩, (), by simp [checkTerms, retires],
    (), validatePlanFeatures_ok.mpr sold, ?_⟩
  simp [retirement, content, why]

theorem integrity_retirement (intact : old.integrity E.digest = .ok ())
    (published : old.state = .published) :
    (retirement around subject reason head old).integrity E.digest = .ok () := by
  simp only [Version.integrity, bind_ok, require_ok, published] at intact
  obtain ⟨-, ⟨code, number, -, -, rest⟩, released, -⟩ := intact
  exact bind_ok.mpr ⟨(), require_pos ⟨code, number, Nat.succ_ne_zero _, Nat.succ_ne_zero _, rest⟩,
    require_pos ⟨released, nofun⟩⟩

/-- A version that is read is intact. -/
theorem intact_of_get (read : get E planCode version store = .ok old) :
    old.integrity E.digest = .ok () := by
  obtain ⟨stored, -, -, -, intact, -, revision, bound, rfl⟩ := get_ok read
  simp only [Version.integrity, bind_ok, require_ok] at intact
  obtain ⟨-, ⟨here, positive, revised, planned, rest⟩, states⟩ := intact
  exact bind_ok.mpr ⟨(), require_pos ⟨here, positive, revised, by dsimp only; omega, rest⟩, states⟩

/-- A published version that is still as it was read can be saved as a retired one. -/
theorem save_retirement (locked : store.plans.find? planCode = some head)
    (room : head.revision ≠ maxUint64) (later : old.revision ≠ maxUint64)
    (read : get E planCode version store = .ok old) (published : old.state = .published)
    {payload : String}
    (encoded : E.versions.encode (retirement around subject reason head old) = some payload) :
    ∃ after, save E head (some old) (retirement around subject reason head old) store = .ok after ∧
      after.receipts = store.receipts := by
  have intact := intact_of_get read
  obtain ⟨-, -, rfl, rfl, -, ⟨row, known, revision, state⟩, -⟩ := get_ok read
  have code : head.planCode = old.planCode := Table.key_of_find? locked
  have checked : checkSave E head (some old)
    (retirement around subject reason head old) = .ok () := by
    simp only [checkSave, bind_ok, require_ok, mapError_ok]
    exact ⟨(), integrity_retirement intact published, (), ⟨code, room, rfl⟩, (), ⟨later, rfl⟩,
      .inr ⟨published, rfl, rfl⟩⟩
  let next : VersionRow :=
    ⟨old.planCode, old.number, old.revision + 1, .retired, old.contentSha256, payload⟩
  have written : saveVersion (some old) next store =
      .ok { store with versions := store.versions.update next.key next.revised next.revised_key
        } := by
    simp only [saveVersion, bind_ok, found_ok, require_ok, pure_ok]
    exact ⟨row, known, (), ⟨revision, state⟩, trivial⟩
  simp only [save, bind_ok, found_ok, require_ok, pure_ok]
  exact ⟨_, ⟨(), checked, payload, encoded, _, written, head, code ▸ locked, (), rfl, rfl⟩, rfl⟩

/-- A published version can be retired, with its content unchanged, if and only if every
feature that its terms name is on sale at that time. -/
theorem retires_iff (blank : first.Blank) (run : Run (Step E) first past store)
    (admits : admitted E around
      (.retirePlanVersion requestId planCode version old.revision reason) =
        .ok (subject, hash, catalog))
    (locked : store.plans.find? planCode = some head) (room : head.revision ≠ maxUint64)
    (numbered : head.latestVersion ≠ maxUint64) (later : old.revision ≠ maxUint64)
    (fresh : store.receipts.find? (planCode, requestId) = none)
    (read : get E planCode version store = .ok old) (published : old.state = .published)
    (encodes : (E.versions.encode (retirement around subject reason head old)).isSome) :
    (∃ v after, mutate E around
        (.retirePlanVersion requestId planCode version old.revision reason) store = .ok (v, after) ∧
      v.state = .retired ∧ v.terms = old.terms ∧ v.contentSha256 = old.contentSha256) ↔
    ∀ code ∈ old.terms.featureCodes, OnSale around code := by
  have intact := intact_of_get read
  obtain ⟨_, known, rfl, -, -, -, revision, -, same⟩ := get_ok read
  have canonical : old.terms.canonical = old.terms := by
    rw [same]
    exact ((recorded_of_run blank run).1.versions _ _ _ known).1
  have taken : lock old.planCode store = .ok (head, store) := by simp [lock, locked]
  have answered : receipt E old.planCode requestId hash store = .ok none := by
    simp [receipt, fresh]
  have prepared : prepare E
      (Request.retirePlanVersion requestId old.planCode version old.revision reason).command head
      around.now store = .ok (some old, { old with
        revision := old.revision + 1, state := .retired, retiredAt := some around.now }) := by
    simp only [Version.integrity, bind_ok, require_ok] at intact
    obtain ⟨-, ⟨-, -, positive, -⟩, -⟩ := intact
    simp [prepare, Request.command, read, changed, published, positive, later, require_pos]
  have opened : mutate E around
      (.retirePlanVersion requestId old.planCode version old.revision reason) store =
        serve E around
          (Request.retirePlanVersion requestId old.planCode version old.revision reason).command
          subject hash catalog head store := by
    simp only [mutate, admits, ok_bind, Request.command, taken, answered]
  rw [opened]
  constructor
  · rintro ⟨v, _, served, -⟩
    simp only [serve, bind_ok, require_ok] at served
    obtain ⟨-, -, ⟨_, _⟩, drafted, _, done, -⟩ := served
    rw [prepared, Except.ok.injEq, Prod.mk.injEq] at drafted
    obtain ⟨-, rfl⟩ := drafted
    simp only [sealed, bind_ok] at done
    obtain ⟨-, -, -, -, ⟨⟩, features, -⟩ := done
    rw [canonical] at features
    exact validatePlanFeatures_ok.mp features
  · intro sold
    obtain ⟨payload, encoded⟩ := Option.isSome_iff_exists.mp encodes
    obtain ⟨middle, saved, receipts⟩ := save_retirement locked room later read published encoded
    obtain ⟨last, completed⟩ : ∃ last, complete E requestId hash
        (retirement around subject reason head old) middle = .ok last := by
      simp only [complete, bind_ok, found_ok, pure_ok]
      cases inserted : middle.receipts.insert? ⟨old.planCode, requestId, hash, payload⟩ with
      | some receipts => exact ⟨_, payload, encoded, receipts, inserted, rfl⟩
      | none =>
        obtain ⟨_, present⟩ := Table.insert?_eq_none inserted
        rw [receipts] at present
        exact absurd (present.symm.trans fresh) (by simp)
    refine ⟨retirement around subject reason head old, last, ?_, rfl, rfl, rfl⟩
    simp only [serve, bind_ok, require_ok, pure_ok]
    exact ⟨(), ⟨room, numbered⟩, _, prepared, _,
      sealed_retirement canonical intact sold rfl rfl rfl, middle, saved, last, completed, rfl⟩

end Retirement

section Sample

def sampleRetire : Request := .retirePlanVersion "five" "basic" 1 2 "withdraw"

def sampleRetired : Version :=
  retirement sampleAround "admin" "withdraw" ⟨"basic", 2, 1⟩ samplePublished

/-- The encoding of the sample, with the text of the retired version. -/
def sampleArchive : Encoding :=
  { sampleEncoding with
    versions := .ofList [sampleDraft 1 1 "new", samplePublished, sampleRetired] }

/-- While the feature of the offer is sold, the offer can be retired. -/
theorem retires_iff_sample : ∃ past store v after, Run (Step sampleArchive) sampleStore past store ∧
    mutate sampleArchive sampleAround sampleRetire store = .ok (v, after) ∧ v.state = .retired := by
  have evaluated : (mutate sampleArchive sampleAround sampleCreate sampleStore).toOption.any
      (fun one => (mutate sampleArchive sampleAround samplePublish one.2).toOption.any fun two =>
        one.2.receipts.find? ("basic", "two") = none ∧
        two.2.plans.find? "basic" = some ⟨"basic", 2, 1⟩ ∧
        two.2.receipts.find? ("basic", "five") = none ∧
        get sampleArchive "basic" 1 two.2 = .ok samplePublished) = true := by
    decide +kernel
  obtain ⟨⟨draft, _⟩, create, published⟩ := ok_of_any evaluated
  obtain ⟨⟨offer, offered⟩, publish, checked⟩ := ok_of_any published
  obtain ⟨absent, locked, fresh, read⟩ := of_decide_eq_true checked
  have run : Run (Step sampleArchive) sampleStore [.effect sampleAround sampleCreate draft,
      .effect sampleAround samplePublish offer] offered :=
    .step (.effect rfl create) (.step (.effect absent publish) (.done _))
  have called : (admitted sampleArchive sampleAround sampleRetire).toOption.any
      (fun answer => answer.1 = "admin") = true := by
    decide +kernel
  obtain ⟨⟨subject, _, _⟩, admits, who⟩ := ok_of_any called
  obtain rfl : subject = "admin" := of_decide_eq_true who
  have sold : ∀ code ∈ samplePublished.terms.featureCodes, OnSale sampleAround code :=
    fun code listed => ⟨_, rfl, ⟨"reports", true, true⟩, List.mem_singleton_self _,
      (List.mem_singleton.mp listed).symm, rfl, rfl⟩
  obtain ⟨v, after, retired, state, -⟩ := (retires_iff ⟨rfl, rfl, rfl⟩ run admits locked (by decide)
    (by decide) (by decide) fresh read rfl (by decide +kernel)).mpr sold
  exact ⟨_, offered, v, after, run, retired, state⟩

/-- Once the feature of the offer is no longer sold, the offer cannot be retired. -/
theorem unsold_not_retired :
    Run (Step sampleEncoding) sampleStore
      [.effect sampleAround sampleCreate (sampleDraft 1 1 "new"),
        .effect sampleAround samplePublish samplePublished] sampleOffered ∧
    get sampleEncoding "basic" 1 sampleOffered = .ok samplePublished ∧
    (mutate sampleEncoding { sampleAround with
        readPlanFeatureCatalog := some [⟨"reports", true, false⟩] } sampleRetire
      sampleOffered).map (·.1) = .error (.plan .catalog) :=
  ⟨sample_offer, by decide +kernel, by decide +kernel⟩

end Sample

end Biz.Plan.Management
