import Biz.Snapshot.Coherence

/-!
# Histories of writes and reads

A history interleaves transactions that write the sources of a tenant, ones that
change the catalogue and snapshot reads, each at a database time of its own: the
times need not increase. A transaction that fails or is rolled back leaves no trace in
the tables and none in the history. A read carries the cache it saw, whatever was in
it, and whether it has stored a new view.
-/

namespace Biz.Snapshot

open Time Checks Entitlement Runs

inductive Event
  | write (tenant : String) (writes : List SourceWrite)
  | catalogue (catalog : Catalog)
  | read (tenant : String) (now : DatabaseTime) (cache : Cache) (result : Result) (rebuilt : Bool)

/-- One committed transaction. -/
inductive Step (E : Encoding) : Store → Event → Store → Prop
  | write {store after : Store} {tenant : String} {writes : List SourceWrite}
      (own : ∀ write ∈ writes, write.tenantId = tenant)
      (written : writeSources E tenant writes store = .ok after) :
      Step E store (.write tenant writes) after
  | catalogue {store after : Store} {catalog : Catalog}
      (written : writeCatalog catalog store = .ok after) : Step E store (.catalogue catalog) after
  | read {store after : Store} {tenant : String} {now : DatabaseTime} {cache : Cache}
      {result : Result} (returned : locked E cache tenant now store = .ok (result, after)) :
      Step E store (.read tenant now cache result
        (decide (after.snapshots.rows ≠ store.snapshots.rows))) after

section Runs

variable {E : Encoding} {store after first : Store} {history : List Event} {event : Event}

section

variable (collisionFree : Function.Injective E.digest)

include collisionFree

theorem Step.intact (taken : Step E store event after) (intact : Intact E store) :
    Intact E after := by
  cases taken with
  | write own written => exact intact.writeSources written own
  | catalogue written => exact intact.writeCatalog written
  | read returned => exact intact.locked ((locked_cache intact collisionFree).symm.trans returned)

theorem intact_of_run (blank : first.heads = Table.empty) (run : Run (Step E) first history store) :
    Intact E store := by
  refine run.invariant (fun before event after kept taken => taken.intact collisionFree kept) ?_
  intro tenant h found
  rw [blank, Table.find?_empty] at found
  cases found

/-- The version of a head does not decrease. -/
theorem Step.head_grows (intact : Intact E store) (taken : Step E store event after)
    {tenant : String} {h : Head} (known : store.heads.find? tenant = some h) :
    ∃ h', after.heads.find? tenant = some h' ∧ h.version ≤ h'.version := by
  cases taken with
  | @write _ writer writes own written =>
    simp only [writeSources, bind_ok] at written
    obtain ⟨⟨version, sources, locked⟩, taken, written, applied, advanced⟩ := written
    obtain ⟨-, -, -, -, lockShape⟩ := lockState_ok (lock_ok taken).1
    obtain ⟨-, rfl⟩ := advance_ok advanced
    have same : written.heads.find? tenant = some h := by
      rw [(applyAll_ok applied own).1, lockShape]
      exact known
    rw [Table.find?_update]
    split
    · rename_i mine
      rw [← mine, same]
      exact ⟨h.invalid, rfl, le_rfl⟩
    · exact ⟨h, same, le_rfl⟩
  | catalogue written =>
    simp only [writeCatalog, advanceCatalog, bind_ok, found_ok, require_ok, pure_ok] at written
    obtain ⟨-, -, -, -, -, -, rfl⟩ := written
    exact ⟨h, known, le_rfl⟩
  | @read _ reader now cache result returned =>
    rw [locked_cache intact collisionFree] at returned
    obtain ⟨⟨h', found, version⟩, grows, others⟩ := locked_version returned
    by_cases mine : tenant = reader
    · subst mine
      exact ⟨h', found, version ▸ (grows h known).1⟩
    · exact ⟨h, (others tenant mine).trans known, le_rfl⟩

/-- Every version handed out so far is at most that of the head. -/
def HandedOut (past : List Event) (store : Store) : Prop :=
  ∀ tenant now cache result rebuilt, .read tenant now cache result rebuilt ∈ past →
    ∃ h, store.heads.find? tenant = some h ∧ result.entitlementVersion ≤ h.version

theorem handedOut_of_run (blank : first.heads = Table.empty)
    (run : Run (Step E) first history store) : HandedOut history store := by
  refine (run.history (fun past store => Intact E store ∧ HandedOut past store) ?_ ?_).2
  · rintro past before event after ⟨intact, handed⟩ taken
    refine ⟨taken.intact collisionFree intact, ?_⟩
    intro tenant now cache result rebuilt member
    rcases List.mem_append.mp member with earlier | last
    · obtain ⟨h, known, bound⟩ := handed tenant now cache result rebuilt earlier
      obtain ⟨h', found, grown⟩ := taken.head_grows collisionFree intact known
      exact ⟨h', found, bound.trans grown⟩
    · rw [List.mem_singleton] at last
      subst last
      cases taken with
      | read returned =>
        rw [locked_cache intact collisionFree] at returned
        obtain ⟨⟨h, found, version⟩, -⟩ := locked_version returned
        exact ⟨h, found, version.ge⟩
  · refine ⟨fun tenant h found => ?_, fun _ _ _ _ _ member => absurd member List.not_mem_nil⟩
    rw [blank, Table.find?_empty] at found
    cases found

end

/-- In every history, whatever the store returns agrees with an evaluation now, the
read-only path returns such a view or reports that it is stale, the cache shows in
nothing, and a rebuilt view has a greater version than every one handed out before. -/
theorem snapshots_coherent (collisionFree : Function.Injective E.digest)
    (blank : first.heads = Table.empty) (run : Run (Step E) first history store) :
    (∀ tenant now cache result after, locked E cache tenant now store = .ok (result, after) →
        Fresh E store tenant now result) ∧
      (∀ tenant now keys, readOnly E tenant keys now store = .error .stale ∨
        ∃ view, readOnly E tenant keys now store = .ok (requested view keys) ∧
          Fresh E store tenant now view) ∧
      (∀ tenant now cache, locked E cache tenant now store = locked E none tenant now store) ∧
      ∀ early middle late tenant now₁ cache₁ result₁ rebuilt now₂ cache₂ result₂,
        history = early ++ .read tenant now₁ cache₁ result₁ rebuilt ::
            (middle ++ .read tenant now₂ cache₂ result₂ true :: late) →
          result₁.entitlementVersion < result₂.entitlementVersion := by
  have intact := intact_of_run collisionFree blank run
  refine ⟨?_, ?_, ?_, ?_⟩
  · intro tenant now cache result after returned
    exact locked_fresh intact ((locked_cache intact collisionFree).symm.trans returned)
  · exact fun tenant now keys => readOnly_fresh intact keys
  · exact fun tenant now cache => locked_cache intact collisionFree
  · rintro early middle late tenant now₁ cache₁ result₁ rebuilt now₂ cache₂ result₂ rfl
    -- The state in which the second view was rebuilt.
    rw [← List.cons_append, ← List.append_assoc] at run
    obtain ⟨_, past, rest⟩ := run.split
    obtain ⟨_, taken, -⟩ := rest.uncons
    have intact := intact_of_run collisionFree blank past
    obtain ⟨h, known, bound⟩ := handedOut_of_run collisionFree blank past tenant now₁ cache₁ result₁
      rebuilt (by simp)
    generalize flag : true = fresh at taken
    cases taken with
    | read returned =>
      rw [locked_cache intact collisionFree] at returned
      obtain ⟨-, grows, -⟩ := locked_version returned
      exact bound.trans_lt ((grows h known).2 (of_decide_eq_true flag.symm))

end Runs

section Sample

def sampleCatalog : Catalog :=
  [{ code := "reports", technicalStatus := .ready, salesStatus := .sellable, version := 1,
     capabilities := [], quotaKeys := ["seats"], fieldKeys := [], dependencies := [] }]

/-- The first of January 2026. -/
def sampleStart : Instant := 739616 * Calendar.day

/-- A grant of the module. -/
def sampleGrant : Source :=
  { id := "aa", tenantId := "tenant", sourceKind := .plan, moduleCode := "reports",
    kind := .module, key := "reports", action := .none, effect := .grant, limit := {},
    effectiveAt := sampleStart, expiresAt := none, revokedAt := none, reason := "sold",
    actorId := "operator", version := 1 }

def sampleEnded : Source :=
  { sampleGrant with revokedAt := some (sampleStart + hour), version := 2 }

/-- The view of a tenant with one source. -/
def sampleView (version : Nat) (source : Source) : Result :=
  { entitlementVersion := version, catalogRevision := 2, tenantId := "tenant",
    sourceVersion := version, evaluatedAt := sampleStart + hour, validUntil := none,
      nextTransitionAt := none,
    catalogVersions := [⟨"reports", 1⟩],
    decisions := decisions sampleCatalog [source.standing (sampleStart + hour)] [] }

def sampleEncoding : Encoding where
  sources := .ofList [sampleGrant, sampleEnded]
  results := .ofList [sampleView 1 sampleGrant, sampleView 2 sampleEnded]
  inputs _ _ := some ""
  digest := id

def sampleStore : Store :=
  { catalogVersion := some 1, catalog := [], states := Table.empty, sources := Table.empty,
    heads := Table.empty, snapshots := Table.empty }

def sampleNow : DatabaseTime := ⟨sampleStart + hour, by decide⟩

/-- The state after a transaction, or the one before it if it fails. -/
def outcome (before : Store) (transaction : Except Err Store) : Store :=
  match transaction with
  | .ok after => after
  | .error _ => before

theorem eq_outcome {before : Store} {transaction : Except Err Store}
    (done : transaction.isOk = true) : transaction = .ok (outcome before transaction) := by
  cases transaction with
  | ok after => rfl
  | error error => cases done

/-- The state after a read. -/
def sampleRead (store : Store) : Store :=
  outcome store ((locked sampleEncoding none "tenant" sampleNow store).map Prod.snd)

theorem sample_read {store : Store} {result : Result} {rebuilt : Bool}
    (returned : (locked sampleEncoding none "tenant" sampleNow store).toOption.map Prod.fst =
      some result)
    (stored : decide ((sampleRead store).snapshots.rows ≠ store.snapshots.rows) = rebuilt) :
    Step sampleEncoding store (.read "tenant" sampleNow none result rebuilt)
      (sampleRead store) := by
  subst stored
  apply Step.read
  unfold sampleRead
  cases done : locked sampleEncoding none "tenant" sampleNow store with
  | ok read =>
    rw [done] at returned
    cases returned
    rfl
  | error error =>
    rw [done] at returned
    cases returned

def sampleGranted : Store :=
  outcome sampleStore (writeSources sampleEncoding "tenant" [.insert sampleGrant] sampleStore)

def sampleListed : Store := outcome sampleGranted (writeCatalog sampleCatalog sampleGranted)

def sampleReused : Store := sampleRead (sampleRead sampleListed)

def sampleRevoked : Store :=
  outcome sampleReused (writeSources sampleEncoding "tenant" [.revoke sampleEnded 1] sampleReused)

/-- The second view is the stored one, the third one is rebuilt after the revocation. -/
def sampleHistory : List Event :=
  [.write "tenant" [.insert sampleGrant], .catalogue sampleCatalog,
    .read "tenant" sampleNow none (sampleView 1 sampleGrant) true,
    .read "tenant" sampleNow none (sampleView 1 sampleGrant) false,
    .write "tenant" [.revoke sampleEnded 1],
    .read "tenant" sampleNow none (sampleView 2 sampleEnded) true]

theorem sample_run :
    Run (Step sampleEncoding) sampleStore sampleHistory (sampleRead sampleRevoked) := by
  refine .step (.write (by simp [SourceWrite.tenantId, sampleGrant]) (eq_outcome ?_)) (.step
    (.catalogue (eq_outcome ?_)) (.step (sample_read ?_ ?_) (.step (sample_read ?_ ?_) (.step
    (.write (by simp [SourceWrite.tenantId, sampleEnded, sampleGrant]) (eq_outcome ?_)) (.step
    (sample_read ?_ ?_) (.done _))))))
  all_goals decide +kernel

theorem snapshots_coherent_sample :
    Run (Step sampleEncoding) sampleStore sampleHistory (sampleRead sampleRevoked) ∧
      (∀ cache, locked sampleEncoding cache "tenant" sampleNow (sampleRead sampleRevoked) =
        locked sampleEncoding none "tenant" sampleNow (sampleRead sampleRevoked)) ∧
      (sampleView 1 sampleGrant).entitlementVersion <
        (sampleView 2 sampleEnded).entitlementVersion := by
  obtain ⟨-, -, cache, versions⟩ :=
    snapshots_coherent Function.injective_id rfl sample_run
  exact ⟨sample_run, cache "tenant" sampleNow, versions [_, _, _] [_] [] "tenant" sampleNow none _
    false sampleNow none _ rfl⟩

end Sample

end Biz.Snapshot
