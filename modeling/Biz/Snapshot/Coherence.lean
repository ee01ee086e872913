import Biz.Library.Runs
import Biz.Entitlement.Stability
import Biz.Snapshot.Store

/-!
# Stored views are fresh

A head stamps its view with the version of the sources and the revision of the
catalogue it was built from. Both stamps only grow, and every write of the sources or
of the catalogue makes them grow, so a head whose stamps are current describes the
current sources and the current catalogue. What it stores is an evaluation at some
instant; within the window of the view it agrees with an evaluation now.

The cache is looked up under the digest of the view and its bytes have to have that
digest, so it returns the stored payload or nothing that passes.
-/

namespace Biz.Snapshot

open Time Checks Entitlement Runs

/-- The version of the sources of a tenant; it is zero before the first lock. -/
def Store.version (store : Store) (tenant : String) : Nat :=
  (store.states.find? tenant).elim 0 (·.version)

/-- A result agrees with an evaluation of the current sources and catalogue now. -/
def Fresh (E : Encoding) (store : Store) (tenant : String) (now : DatabaseTime)
    (result : Result) : Prop :=
  ∃ sources fresh, decodeSources E tenant (store.rowsOf tenant) = .ok sources ∧
    resolve tenant (store.version tenant) now.instant store.catalog sources [] = .ok fresh ∧
    result.decisions = fresh.decisions ∧ result.catalogVersions = fresh.catalogVersions ∧
    result.sourceVersion = fresh.sourceVersion ∧ result.validUntil = fresh.validUntil

/-- What a head stores: the encoding of an evaluation of the sources and the catalogue
that its stamps name, which are the current ones while the stamps are current. -/
structure Viewed (E : Encoding) (store : Store) (h : Head) : Prop where
  positive : h.version ≠ 0
  sources : ∃ state, store.states.find? h.tenantId = some state ∧ h.sourceVersion ≤ state.version
  catalog : ∃ epoch, store.catalogVersion = some epoch ∧ h.catalogRevision ≤ epoch
  built : ∃ row now catalog sources fresh,
    store.snapshots.find? (h.tenantId, h.version) = some row ∧
    row.payloadSha256 = h.payloadSha256 ∧ E.digest row.payload = h.payloadSha256 ∧
    resolve h.tenantId h.sourceVersion now catalog sources [] = .ok fresh ∧
    E.results.decode row.payload = some
      { fresh with entitlementVersion := h.version, catalogRevision := h.catalogRevision } ∧
    (store.version h.tenantId = h.sourceVersion →
      decodeSources E h.tenantId (store.rowsOf h.tenantId) = .ok sources) ∧
    (store.catalogVersion = some h.catalogRevision → store.catalog = catalog)

/-- Every head of a store has its view. -/
def Intact (E : Encoding) (store : Store) : Prop :=
  ∀ tenant h, store.heads.find? tenant = some h → Viewed E store h

section Locking

variable {E : Encoding} {store after : Store} {tenant : String}

theorem lockCatalog_ok {epoch : Nat} (taken : lockCatalog store = .ok epoch) :
    store.catalogVersion = some epoch := by
  simp only [lockCatalog, bind_ok, found_ok, require_ok, pure_ok] at taken
  obtain ⟨_, known, -, -, rfl⟩ := taken
  exact known

/-- What locking the state row of a tenant leaves: its version, and a row for it. -/
theorem lockState_ok {version : Nat} (taken : lockState tenant store = .ok (version, after)) :
    version = store.version tenant ∧
      after.states.find? tenant = some ⟨tenant, version⟩ ∧
      (∀ other, other ≠ tenant → after.states.find? other = store.states.find? other) ∧
      (∀ state, store.states.find? tenant = some state → after = store) ∧
      after = { store with states := after.states } := by
  unfold lockState at taken
  cases present : store.states.find? tenant with
  | some state =>
    simp only [present] at taken
    cases taken
    have named : state = ⟨tenant, state.version⟩ := by
      rw [← Table.key_of_find? present]
    exact ⟨by simp [Store.version, present], present.trans (congrArg some named), fun _ _ => rfl,
      fun _ _ => rfl, rfl⟩
  | none =>
    simp only [present, bind_ok, require_ok, found_ok, pure_ok, Prod.mk.injEq] at taken
    obtain ⟨-, -, -, -, _, inserted, rfl, rfl⟩ := taken
    have lookups := Table.find?_of_insert? inserted
    refine ⟨by simp [Store.version, present], (lookups tenant).trans (if_pos rfl), ?_, ?_, rfl⟩
    · exact fun other different => (lookups other).trans (if_neg different)
    · intro state known
      cases known

theorem lock_ok {version : Nat} {sources : List Source}
    (taken : lock E tenant store = .ok (version, sources, after)) :
    lockState tenant store = .ok (version, after) ∧
      decodeSources E tenant (store.rowsOf tenant) = .ok sources := by
  simp only [lock, bind_ok, pure_ok, Prod.mk.injEq] at taken
  obtain ⟨-, -, ⟨_, _⟩, stateTaken, _, decoded, rfl, rfl, rfl⟩ := taken
  refine ⟨stateTaken, ?_⟩
  obtain ⟨-, -, -, -, shape⟩ := lockState_ok stateTaken
  rw [shape] at decoded
  exact decoded

end Locking

section Writes

variable {E : Encoding} {store after : Store} {tenant : String}

/-- A view stays while the rows that it depends on stay. -/
theorem Viewed.frame {h : Head} (viewed : Viewed E store h)
    (states : after.states.find? h.tenantId = store.states.find? h.tenantId)
    (catalogVersion : after.catalogVersion = store.catalogVersion)
    (catalog : after.catalog = store.catalog)
    (snapshots : ∀ row, store.snapshots.find? (h.tenantId, h.version) = some row →
      after.snapshots.find? (h.tenantId, h.version) = some row)
    (rows : after.rowsOf h.tenantId = store.rowsOf h.tenantId) : Viewed E after h := by
  obtain ⟨row, now, catalog', sources, fresh, stored, columns, digest, resolved, decoded, current,
    sameCatalog⟩ := viewed.built
  refine ⟨viewed.positive, ?_, ?_, row, now, catalog', sources, fresh, snapshots row stored,
    columns,
    digest, resolved, decoded, ?_, ?_⟩
  · rw [states]
    exact viewed.sources
  · rw [catalogVersion]
    exact viewed.catalog
  · rw [rows, Store.version, states]
    exact current
  · rw [catalogVersion, catalog]
    exact sameCatalog

/-- Whether a head is marked as invalid does not matter for its view. -/
theorem Viewed.invalid {h : Head} (viewed : Viewed E store h) : Viewed E store h.invalid :=
  ⟨viewed.positive, viewed.sources, viewed.catalog, viewed.built⟩

theorem Intact.lockState {version : Nat} (intact : Intact E store)
    (taken : lockState tenant store = .ok (version, after)) : Intact E after := by
  obtain ⟨-, -, others, present, shape⟩ := lockState_ok taken
  intro t h found
  rw [shape] at found
  have viewed := intact t h found
  by_cases same : h.tenantId = tenant
  · obtain ⟨state, known, -⟩ := viewed.sources
    rw [present state (same ▸ known)]
    exact viewed
  · rw [shape] at others ⊢
    exact viewed.frame (others _ same) rfl rfl (fun _ stored => stored) rfl

/-- A source write changes rows of its own tenant only. -/
theorem SourceWrite.apply_ok {write : SourceWrite} (applied : write.apply E store = .ok after) :
    after = { store with sources := after.sources } ∧
      ∀ other, other ≠ write.tenantId → after.rowsOf other = store.rowsOf other := by
  cases write with
  | insert source =>
    simp only [SourceWrite.apply, Snapshot.insert, bind_ok, found_ok, pure_ok] at applied
    obtain ⟨payload, -, _, inserted, rfl⟩ := applied
    refine ⟨rfl, fun other different => ?_⟩
    have mine : source.tenantId ≠ other := fun same => different same.symm
    simp [Store.rowsOf, (Table.insert?_eq_some inserted).2, mine]
  | revoke source expected =>
    simp only [SourceWrite.apply, Snapshot.revoke, bind_ok, found_ok, require_ok, pure_ok]
      at applied
    obtain ⟨payload, -, row, -, -, -, rfl⟩ := applied
    refine ⟨rfl, fun other different => ?_⟩
    have fixed : ∀ row : SourceRow, row.tenantId = other → row.key ≠ (source.tenantId, source.id) :=
      fun row mine equal => different (mine.symm.trans (congrArg Prod.fst equal))
    simp only [Store.rowsOf, Table.update, List.filter_map]
    have kept : (fun row : SourceRow => decide (row.tenantId = other)) ∘
        (fun row => if row.key = (source.tenantId, source.id) then row.revised source payload
          else row) = fun row => decide (row.tenantId = other) := by
      funext row
      simp only [Function.comp]
      split <;> rfl
    rw [kept, List.map_congr_left fun row member =>
      if_neg (fixed row (by simpa using (List.mem_filter.mp member).2)), List.map_id']

theorem applyAll_ok {writes : List SourceWrite}
    (applied : writes.foldlM (SourceWrite.apply E) store = .ok after)
    (own : ∀ write ∈ writes, write.tenantId = tenant) :
    after = { store with sources := after.sources } ∧
      ∀ other, other ≠ tenant → after.rowsOf other = store.rowsOf other := by
  induction writes generalizing store with
  | nil =>
    cases applied
    exact ⟨rfl, fun _ _ => rfl⟩
  | cons write rest ih =>
    rw [List.foldlM_cons, bind_ok] at applied
    obtain ⟨_, first, later⟩ := applied
    obtain ⟨shape, rows⟩ := SourceWrite.apply_ok first
    obtain ⟨laterShape, laterRows⟩ := ih later
      fun other member => own other (List.mem_cons_of_mem _ member)
    have mine := own write List.mem_cons_self
    refine ⟨?_, fun other different => ?_⟩
    · rw [laterShape, shape]
    · rw [laterRows other different, rows other (mine.symm ▸ different)]

theorem advance_ok {expected : Nat} (advanced : advance tenant expected store = .ok after) :
    (∃ state, store.states.find? tenant = some state) ∧
      after = { store with
        states := store.states.update tenant StateRow.advanced StateRow.advanced_tenantId
        heads := store.heads.update tenant Head.invalid Head.invalid_tenantId } := by
  simp only [advance, bind_ok, found_ok, require_ok, pure_ok] at advanced
  obtain ⟨-, -, state, known, -, -, rfl⟩ := advanced
  exact ⟨⟨state, known⟩, rfl⟩

/-- Writing the sources of a tenant keeps every view: the stamp of the tenant's own
head is out of date from then on, and other tenants are not touched. -/
theorem Intact.writeSources {writes : List SourceWrite} (intact : Intact E store)
    (written : writeSources E tenant writes store = .ok after)
    (own : ∀ write ∈ writes, write.tenantId = tenant) : Intact E after := by
  simp only [Snapshot.writeSources, bind_ok] at written
  obtain ⟨⟨_, _, first⟩, taken, second, applied, advanced⟩ := written
  have intact := intact.lockState (lock_ok taken).1
  obtain ⟨shape, rows⟩ := applyAll_ok applied own
  obtain ⟨⟨state, known⟩, rfl⟩ := advance_ok advanced
  intro t h found
  rw [Table.find?_update] at found
  -- The view of the head as it was before it was marked.
  have viewed : Viewed E first h := by
    split at found
    · obtain ⟨old, stored, rfl⟩ := Option.map_eq_some_iff.mp found
      rw [shape] at stored
      exact (intact tenant old stored).invalid
    · rw [shape] at found
      exact intact t h found
  by_cases mine : h.tenantId = tenant
  · obtain ⟨row, now, catalog, used, fresh, stored, columns, digest, resolved, decoded, -, same⟩ :=
      viewed.built
    obtain ⟨before, present, bound⟩ := viewed.sources
    have sameState : before = state := by
      rw [shape, ← mine, present, Option.some.injEq] at known
      exact known
    have lookup : (second.states.update tenant StateRow.advanced
        StateRow.advanced_tenantId).find? h.tenantId = some state.advanced := by
      rw [Table.find?_update, if_pos mine, known, Option.map_some]
    refine ⟨viewed.positive, ⟨state.advanced, lookup, ?_⟩, ?_, row, now, catalog, used, fresh, ?_,
      columns, digest, resolved, decoded, ?_, ?_⟩
    · rw [sameState] at bound
      exact Nat.le_succ_of_le bound
    · rw [shape]
      exact viewed.catalog
    · rw [shape]
      exact stored
    · intro current
      rw [Store.version, lookup] at current
      rw [sameState] at bound
      exact absurd current (Nat.ne_of_gt (Nat.lt_succ_of_le bound))
    · rw [shape]
      exact same
  · refine viewed.frame ?_ ?_ ?_ ?_ (rows _ mine)
    · rw [Table.find?_update, if_neg mine, shape]
    · rw [shape]
    · rw [shape]
    · rw [shape]
      exact fun _ stored => stored

/-- Writing the catalogue makes the catalogue stamp of every head out of date. -/
theorem Intact.writeCatalog {catalog : Catalog} (intact : Intact E store)
    (written : writeCatalog catalog store = .ok after) : Intact E after := by
  simp only [Snapshot.writeCatalog, advanceCatalog, bind_ok, found_ok, require_ok,
    pure_ok] at written
  obtain ⟨-, -, epoch, known, -, -, rfl⟩ := written
  intro t h found
  have viewed := intact t h found
  obtain ⟨row, now, used, sources, fresh, stored, columns, digest, resolved, decoded, current, -⟩ :=
    viewed.built
  obtain ⟨before, present, bound⟩ := viewed.catalog
  rw [known, Option.some.injEq] at present
  subst present
  refine ⟨viewed.positive, viewed.sources, ⟨epoch + 1, rfl, Nat.le_succ_of_le bound⟩, row, now,
    used,
    sources, fresh, stored, columns, digest, resolved, decoded, current, fun stamp => ?_⟩
  rw [Option.some.injEq] at stamp
  omega

end Writes

section Views

variable {E : Encoding} {store after : Store} {tenant : String} {now : DatabaseTime} {cache : Cache}
  {result : Result} {h : Head} {row : Row} {version : Nat} {t : Instant}

theorem validAt_iff {r : Result} :
    validAt r t = true ↔ r.evaluatedAt ≤ t ∧ ∀ n ∈ r.validUntil, t < n := by
  cases window : r.validUntil <;> simp [validAt, window]

theorem decodeView_ok {payload digest : String} {source catalog : Nat} {r : Result} :
    decodeView E payload tenant version source catalog digest t = .ok r ↔
      E.digest payload = digest ∧ E.results.decode payload = some r ∧
        (r.tenantId = tenant ∧ r.entitlementVersion = version ∧ version ≠ 0 ∧
          r.sourceVersion = source ∧ r.catalogRevision = catalog ∧ r.resolverVersion = 1 ∧
          r.permissionVersion = "" ∧ r.permissionSubject = "") ∧
        r.evaluatedAt ≤ t ∧ ∀ n ∈ r.validUntil, t < n := by
  simp only [decodeView, bind_ok, require_ok, found_ok, pure_ok, validAt_iff]
  constructor
  · rintro ⟨-, digested, r, decoded, -, stamps, -, window, rfl⟩
    exact ⟨digested, decoded, stamps, window⟩
  · rintro ⟨digested, decoded, stamps, window⟩
    exact ⟨(), digested, r, decoded, (), stamps, (), window, rfl⟩

/-- A view with current stamps, read within its window, is fresh. -/
theorem Viewed.fresh {digest : String} (viewed : Viewed E store h)
    (stored : store.snapshots.find? (h.tenantId, h.version) = some row)
    (source : store.version h.tenantId = h.sourceVersion)
    (catalog : store.catalogVersion = some h.catalogRevision)
    (decoded : decodeView E row.payload h.tenantId h.version h.sourceVersion h.catalogRevision
      digest now.instant = .ok result) : Fresh E store h.tenantId now result := by
  obtain ⟨_, start, _, sources, fresh, stored', -, -, resolved, content, current, same⟩ :=
    viewed.built
  rw [stored, Option.some.injEq] at stored'
  subst stored'
  obtain ⟨-, read, -, begins, ends⟩ := decodeView_ok.mp decoded
  rw [content, Option.some.injEq] at read
  subst read
  obtain ⟨-, -, -, -, shape⟩ := resolve_ok.mp resolved
  have evaluated : fresh.evaluatedAt = start := congrArg Result.evaluatedAt shape
  have stable := resolve_stable resolved (evaluated ▸ begins) ends (ne_of_gt now.positive)
  refine ⟨sources, { fresh with evaluatedAt := now.instant }, current source, ?_, rfl, rfl, rfl,
    rfl⟩
  rw [source, same catalog]
  exact stable

/-- What a decoded view passed: bytes from the cache have the digest of the payload,
so they are the payload. -/
theorem decode_cache (collisionFree : Function.Injective E.digest)
    (digested : row.tenantId = h.tenantId → row.version = h.version →
      E.digest row.payload = h.payloadSha256) : decode E cache h row t = decode E none h row t := by
  refine bind_congr_ok fun _ checked => ?_
  obtain ⟨tenant, version, -⟩ := require_ok.mp checked
  cases found : cache.get (cacheKey h.tenantId h.version h.payloadSha256) with
  | none => rfl
  | some bytes =>
    cases passed : h.view E bytes t with
    | error failure => simp [passed, Cache.get]
    | ok r =>
      have same : bytes = row.payload := by
        refine collisionFree ?_
        rw [(decodeView_ok.mp passed).1, digested tenant version]
      subst same
      simp [passed, Cache.get]

theorem latest_mem (newest : store.latest tenant = some row) :
    row ∈ store.snapshots.rows ∧ row.tenantId = tenant := by
  have member := List.mem_of_head? newest
  simpa using (List.mem_insertionSort _).mp member

/-- The newest row that carries the version of a head is the row of the head. -/
theorem find?_of_latest (known : store.heads.find? tenant = some h)
    (newest : store.latest tenant = some row) (version : row.version = h.version) :
    store.snapshots.find? (h.tenantId, h.version) = some row := by
  obtain ⟨member, mine⟩ := latest_mem newest
  refine Table.find?_eq_some.mpr ⟨member, ?_⟩
  rw [Row.key, mine, version, Table.key_of_find? known]

/-- The cache does not change what is reused. -/
theorem reuse_cache {epoch : Nat} {input : String} (intact : Intact E store)
    (collisionFree : Function.Injective E.digest) :
    reuse E cache (store.heads.find? tenant) (store.latest tenant) version epoch input t =
      reuse E none (store.heads.find? tenant) (store.latest tenant) version epoch input t := by
  cases known : store.heads.find? tenant with
  | none => rfl
  | some h =>
    cases newest : store.latest tenant with
    | none => rfl
    | some row =>
      have digested : row.tenantId = h.tenantId → row.version = h.version →
          E.digest row.payload = h.payloadSha256 := by
        intro _ sameVersion
        obtain ⟨_, -, -, -, -, stored, -, digest, -⟩ := (intact tenant h known).built
        rw [find?_of_latest known newest sameVersion, Option.some.injEq] at stored
        exact stored ▸ digest
      simp only [reuse, decode_cache collisionFree digested]

/-- What the store returns does not depend on the cache. -/
theorem locked_cache (intact : Intact E store) (collisionFree : Function.Injective E.digest) :
    locked E cache tenant now store = locked E none tenant now store := by
  refine bind_congr_ok fun epoch _ => bind_congr_ok fun taken locked_ => ?_
  have intact := intact.lockState (lock_ok locked_).1
  refine bind_congr_ok fun catalog _ => bind_congr_ok fun text _ => bind_congr_ok fun _ _ => ?_
  rw [reuse_cache intact collisionFree]

theorem saveHead_ok {next : Head} (saved : saveHead next store = .ok after) :
    after = { store with heads := after.heads } ∧
      ∀ t, after.heads.find? t =
        if t = next.tenantId then some next else store.heads.find? t := by
  unfold saveHead at saved
  cases known : store.heads.find? next.tenantId with
  | none =>
    simp only [known, bind_ok, found_ok, pure_ok] at saved
    obtain ⟨_, inserted, rfl⟩ := saved
    exact ⟨rfl, Table.find?_of_insert? inserted⟩
  | some head =>
    simp only [known, pure_ok] at saved
    subst saved
    refine ⟨rfl, fun t => ?_⟩
    rw [Table.find?_update, known, Option.map_some, Head.moved, Table.key_of_find? known]

/-- What a rebuild stores: a row under the next version, and the head that names it. -/
theorem rebuild_ok {epoch : Nat} {catalog : Catalog} {sources : List Source} {input : String}
    (rebuilt : rebuild E tenant version epoch catalog sources input t store = .ok (result, after)) :
    ∃ current fresh payload row,
      current = (store.heads.find? tenant).elim 0 (·.version) ∧
      resolve tenant version t catalog sources [] = .ok fresh ∧
      result = { fresh with entitlementVersion := current + 1, catalogRevision := epoch } ∧
      E.results.encode result = some payload ∧ row = ⟨tenant, current + 1, payload,
        E.digest payload, t⟩ ∧
      store.snapshots.insert? row = some after.snapshots ∧
      after = { store with snapshots := after.snapshots, heads := after.heads } ∧
      ∀ other, after.heads.find? other = if other = tenant then
          some ⟨tenant, current + 1, version, epoch, input, E.digest payload, false⟩
        else store.heads.find? other := by
  simp only [rebuild, bind_ok, found_ok, require_ok, mapError_ok, pure_ok, Prod.mk.injEq] at rebuilt
  obtain ⟨-, -, fresh, resolved, payload, encoded, snapshots, inserted, saved, savedHead, rfl,
    rfl⟩ :=
    rebuilt
  obtain ⟨shape, heads⟩ := saveHead_ok savedHead
  have sameSnapshots : saved.snapshots = snapshots := by rw [shape]
  refine ⟨_, fresh, payload, _, rfl, resolved, rfl, encoded, rfl, sameSnapshots ▸ inserted, ?_,
    heads⟩
  rw [shape]

section Reading

variable (intact : Intact E store)
  (returned : locked E none tenant now store = .ok (result, after))

include returned

/-- What a read returns and leaves behind, before it looks at the cache: either the
view of the head, whose stamps are current, or a new view. -/
theorem locked_cases :
    ∃ epoch version sources middle input,
      store.catalogVersion = some epoch ∧ lock E tenant store = .ok (version, sources, middle) ∧
      stamped (middle.heads.find? tenant) (middle.latest tenant) version epoch ∧
      ((∃ h row, middle.heads.find? tenant = some h ∧ middle.latest tenant = some row ∧
          h.sourceVersion = version ∧ h.catalogRevision = epoch ∧
          h.view E row.payload now.instant = .ok result ∧ after = middle) ∨
        rebuild E tenant version epoch middle.catalog sources input now.instant middle =
          .ok (result, after)) := by
  simp only [locked, readSnapshotCatalog, bind_ok, found_ok, require_ok, pure_ok] at returned
  obtain ⟨epoch, epochTaken, ⟨version, sources, middle⟩, taken, _, ⟨-, -, rfl⟩, text, -, -, stamps,
    stored, reused, rest⟩ := returned
  refine ⟨epoch, version, sources, middle, E.digest text, lockCatalog_ok epochTaken, taken, stamps,
    ?_⟩
  cases stored with
  | none => exact .inr rest
  | some view =>
    obtain ⟨rfl, rfl⟩ := rest
    refine .inl ?_
    unfold reuse at reused
    split at reused
    · rename_i h row known newest
      split at reused
      · rename_i current
        split at reused
        · rename_i r decoded
          cases reused
          simp only [decode, bind_ok, require_ok] at decoded
          obtain ⟨⟨⟩, -, passed⟩ := decoded
          exact ⟨h, row, known, newest, current.2.1, current.2.2.1, passed, rfl⟩
        · cases reused
        · cases reused
      · cases reused
    · cases reused

/-- The versions that a read hands out: that of its head, and a greater one than
before when the view is rebuilt. -/
theorem locked_version :
    (∃ h, after.heads.find? tenant = some h ∧ h.version = result.entitlementVersion) ∧
      (∀ h, store.heads.find? tenant = some h → h.version ≤ result.entitlementVersion ∧
        (after.snapshots.rows ≠ store.snapshots.rows → h.version < result.entitlementVersion)) ∧
      ∀ other, other ≠ tenant → after.heads.find? other = store.heads.find? other := by
  obtain ⟨epoch, version, sources, middle, input, -, taken, -, outcome⟩ := locked_cases returned
  obtain ⟨-, -, -, -, shape⟩ := lockState_ok (lock_ok taken).1
  rcases outcome with ⟨h, row, known, newest, -, -, passed, rfl⟩ | rebuilt
  · have version := (decodeView_ok.mp passed).2.2.1.2.1
    refine ⟨⟨h, known, version.symm⟩, fun old before => ?_, fun other _ => by rw [shape]⟩
    rw [shape] at known
    rw [known, Option.some.injEq] at before
    subst before
    refine ⟨version.ge, fun changed => ?_⟩
    rw [shape] at changed
    exact absurd rfl changed
  · obtain ⟨current, fresh, payload, row, currentVersion, -, rfl, -, -, -, -, heads⟩ :=
      rebuild_ok rebuilt
    refine ⟨⟨_, (heads tenant).trans (if_pos rfl), rfl⟩, fun old before => ?_,
      fun other different => ?_⟩
    · have same : current = old.version := by
        rw [currentVersion, shape]
        simp [before]
      dsimp only
      omega
    · rw [heads, if_neg different, shape]

include intact

/-- Whatever a read returns is fresh. -/
theorem locked_fresh : Fresh E store tenant now result := by
  obtain ⟨_, version, sources, middle, _, epochKnown, taken, stamps, outcome⟩ :=
    locked_cases returned
  obtain ⟨stateTaken, decoded⟩ := lock_ok taken
  obtain ⟨sameVersion, present, -, -, shape⟩ := lockState_ok stateTaken
  have versionNow : middle.version tenant = version := by simp [Store.version, present]
  rcases outcome with ⟨h, _, known, newest, source, catalog, passed, -⟩ | rebuilt
  · have mine := Table.key_of_find? known
    rw [known, newest] at stamps
    have viewed := intact.lockState stateTaken tenant h known
    have fresh := viewed.fresh (find?_of_latest known newest stamps.1.symm)
      (by rw [mine, versionNow, source]) (by rw [shape, epochKnown, catalog]) passed
    obtain ⟨used, evaluated, read, resolved, agrees⟩ := fresh
    rw [mine, versionNow, sameVersion, shape] at resolved
    rw [mine, shape] at read
    exact ⟨used, evaluated, read, resolved, agrees⟩
  · obtain ⟨_, fresh, _, _, -, resolved, rfl, -⟩ := rebuild_ok rebuilt
    refine ⟨sources, fresh, decoded, ?_, rfl, rfl, rfl, rfl⟩
    rw [← sameVersion]
    rw [shape] at resolved
    exact resolved

/-- A read keeps every view, and a rebuilt view is that of the new head. -/
theorem Intact.locked : Intact E after := by
  obtain ⟨epoch, version, sources, middle, _, epochKnown, taken, -, outcome⟩ :=
    locked_cases returned
  obtain ⟨stateTaken, decoded⟩ := lock_ok taken
  obtain ⟨-, present, -, -, shape⟩ := lockState_ok stateTaken
  have intact := intact.lockState stateTaken
  rcases outcome with ⟨h, row, _, _, _, _, _, rfl⟩ | rebuilt
  · exact intact
  · obtain ⟨_, fresh, _, row, -, resolved, rfl, encoded, rowShape, inserted, saved,
      heads⟩ := rebuild_ok rebuilt
    have lookups := Table.find?_of_insert? inserted
    intro t h found
    rw [heads] at found
    split at found
    · cases found
      refine ⟨Nat.succ_ne_zero _, ⟨⟨tenant, version⟩, ?_, le_rfl⟩, ⟨epoch, ?_, le_rfl⟩, row,
        now.instant,
        middle.catalog, sources, fresh, ?_, ?_, ?_, resolved, ?_, ?_, ?_⟩
      · rw [saved]
        exact present
      · rw [saved, shape]
        exact epochKnown
      · rw [lookups, if_pos (by rw [rowShape, Row.key])]
      · rw [rowShape]
      · rw [rowShape]
      · rw [rowShape]
        exact E.results.round _ _ encoded
      · rw [saved, shape]
        exact fun _ => decoded
      · rw [saved]
        exact fun _ => rfl
    · refine (intact t h found).frame ?_ ?_ ?_ (fun old stored => ?_) ?_
      · rw [saved]
      · rw [saved]
      · rw [saved]
      · rw [lookups, if_neg ?_]
        · exact stored
        · intro same
          rw [same, (Table.insert?_eq_some inserted).1] at stored
          cases stored
      · rw [saved]
        rfl

end Reading

/-- The stored view of a head passes all checks but that of its window. -/
theorem Viewed.view_cases (viewed : Viewed E store h)
    (stored : store.snapshots.find? (h.tenantId, h.version) = some row) (t : Instant) :
    (∃ r, h.view E row.payload t = .ok r) ∨ h.view E row.payload t = .error .stale := by
  obtain ⟨_, _, _, _, fresh, stored', -, digest, resolved, content, -⟩ := viewed.built
  rw [stored, Option.some.injEq] at stored'
  subst stored'
  obtain ⟨-, -, -, -, shape⟩ := resolve_ok.mp resolved
  have stamps : fresh.tenantId = h.tenantId ∧ h.version = h.version ∧ h.version ≠ 0 ∧
      fresh.sourceVersion = h.sourceVersion ∧ h.catalogRevision = h.catalogRevision ∧
      fresh.resolverVersion = 1 ∧ fresh.permissionVersion = "" ∧ fresh.permissionSubject = "" := by
    rw [shape]
    exact ⟨rfl, rfl, viewed.positive, rfl, rfl, rfl, rfl, rfl⟩
  unfold Head.view decodeView
  rw [require_pos digest, ok_bind, content, found, ok_bind, require_pos stamps, ok_bind]
  by_cases window : validAt
      { fresh with entitlementVersion := h.version, catalogRevision := h.catalogRevision } t = true
  · rw [require_pos window]
    exact .inl ⟨_, rfl⟩
  · rw [require_neg window]
    exact .inr rfl

theorem joined_some {row : Joined} (present : joined tenant store = some row) :
    ∃ snapshot state, store.heads.find? tenant = some row.head ∧
      store.snapshots.find? (row.head.tenantId, row.head.version) = some snapshot ∧
      snapshot.payload = row.payload ∧ store.states.find? row.head.tenantId = some state ∧
      state.version = row.currentSource ∧ store.catalogVersion = some row.currentCatalog := by
  simp only [joined, Option.bind_eq_bind, Option.bind_eq_some_iff] at present
  obtain ⟨_, known, snapshot, stored, state, locked, _, epoch, same⟩ := present
  split at same
  · cases same
    exact ⟨snapshot, state, known, stored, rfl, locked, rfl, epoch⟩
  · cases same

/-- The read-only path returns the view of the head, or reports that it is stale. -/
theorem readOnly_fresh (intact : Intact E store) (keys : List String) :
    readOnly E tenant keys now store = .error .stale ∨
      ∃ view, readOnly E tenant keys now store = .ok (requested view keys) ∧
        Fresh E store tenant now view := by
  unfold readOnly
  cases present : joined tenant store with
  | none => exact .inl rfl
  | some row =>
    obtain ⟨_, _, known, stored, payload, locked, source, epoch⟩ := joined_some present
    have viewed := intact tenant row.head known
    have mine := Table.key_of_find? known
    rw [found, ok_bind]
    by_cases current : ¬row.head.invalidated ∧ row.head.sourceVersion = row.currentSource ∧
        row.head.catalogRevision = row.currentCatalog
    · rw [require_pos current, ok_bind, ← payload, ← mine]
      rcases viewed.view_cases stored now.instant with ⟨view, passed⟩ | stale
      · rw [Head.view] at passed
        rw [passed, ok_bind]
        refine .inr ⟨view, rfl, viewed.fresh stored ?_ ?_ passed⟩
        · rw [Store.version, locked, current.2.1]
          exact source
        · rw [epoch, current.2.2]
      · rw [Head.view] at stale
        rw [stale]
        exact .inl rfl
    · rw [require_neg current]
      exact .inl rfl

end Views

end Biz.Snapshot
