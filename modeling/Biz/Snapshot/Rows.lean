import Biz.Snapshot.Coherence

/-!
# The sources of a tenant as a map

The rows of a tenant are a map from identities to sources. Writes of sources change the
map at one identity, and nothing else changes it. A lock succeeds only if every row can
be read, and returns the values of the map as a list.
-/

namespace Biz.Snapshot

open Time Checks Entitlement

/-- The source of a tenant with an identity, as its row encodes it. -/
def stored (E : Encoding) (tenant : String) (store : Store) (id : String) : Option Source :=
  (store.sources.find? (tenant, id)).bind fun row => E.sources.decode row.payload

/-- Every row of a tenant passes the checks of a lock. -/
def Readable (E : Encoding) (tenant : String) (store : Store) : Prop :=
  ∃ sources, decodeSources E tenant (store.rowsOf tenant) = .ok sources

/-- The values of a map of sources, once each. -/
structure Lists (known : String → Option Source) (sources : List Source) : Prop where
  distinct : (sources.map (·.id)).Nodup
  mem : ∀ s, s ∈ sources ↔ known s.id = some s
  named : ∀ id s, known id = some s → s.id = id

section Reading

variable {E : Encoding} {store after : Store} {tenant : String} {sources : List Source}

theorem mem_rowsOf {row : SourceRow} :
    row ∈ store.rowsOf tenant ↔ store.sources.find? (tenant, row.id) = some row := by
  rw [Store.rowsOf, List.mem_insertionSort, List.mem_filter, Table.find?_eq_some]
  simp [SourceRow.key]

theorem decodeSource_ok {row : SourceRow} {s : Source}
    (decoded : decodeSource E tenant row = .ok s) :
    E.sources.decode row.payload = some s ∧ s.id = row.id ∧ s.tenantId = tenant := by
  simp only [decodeSource, bind_ok, found_ok, require_ok, mapError_ok, pure_ok] at decoded
  obtain ⟨_, read, -, ⟨-, mine, same, -⟩, -, -, rfl⟩ := decoded
  exact ⟨read, same, mine⟩

theorem readable_iff :
    Readable E tenant store ↔
      ∀ row ∈ store.rowsOf tenant, ∃ s, decodeSource E tenant row = .ok s := exists_mapM_ok

/-- The sources that a lock returns are the values of the map. -/
theorem lists_of_decodeSources
    (decoded : decodeSources E tenant (store.rowsOf tenant) = .ok sources) :
    Lists (stored E tenant store) sources where
  distinct := by
    rw [map_eq_of_mapM (fun row s read => (decodeSource_ok read).2.1) decoded]
    have keys : ((store.rowsOf tenant).map SourceRow.key).Nodup := by
      have kept : (store.sources.rows.filter fun row => row.tenantId = tenant).map SourceRow.key
          |>.Nodup := store.sources.unique.sublist (List.filter_sublist.map _)
      exact ((List.perm_insertionSort _ _).map _).nodup_iff.mpr kept
    have paired : (store.rowsOf tenant).map SourceRow.key =
        ((store.rowsOf tenant).map (·.id)).map fun id => (tenant, id) := by
      rw [List.map_map]
      refine List.map_congr_left fun row member => ?_
      exact (Table.find?_eq_some.mp (mem_rowsOf.mp member)).2
    rw [paired] at keys
    exact keys.of_map
  mem s := by
    rw [mem_of_mapM decoded]
    constructor
    · rintro ⟨row, member, read⟩
      obtain ⟨payload, same, -⟩ := decodeSource_ok read
      rw [stored, same, mem_rowsOf.mp member]
      exact payload
    · intro present
      obtain ⟨row, found, payload⟩ := Option.bind_eq_some_iff.mp present
      have same : row.id = s.id := congrArg Prod.snd (Table.key_of_find? found)
      have member : row ∈ store.rowsOf tenant := mem_rowsOf.mpr (same ▸ found)
      obtain ⟨other, read⟩ := readable_iff.mp ⟨_, decoded⟩ row member
      have equal : other = s := by
        have again := (decodeSource_ok read).1
        rw [payload, Option.some.injEq] at again
        exact again.symm
      exact ⟨row, member, equal ▸ read⟩
  named id s present := by
    obtain ⟨row, found, payload⟩ := Option.bind_eq_some_iff.mp present
    have same : row.id = id := congrArg Prod.snd (Table.key_of_find? found)
    obtain ⟨_, read⟩ := readable_iff.mp ⟨_, decoded⟩ row (mem_rowsOf.mpr (same ▸ found))
    obtain ⟨again, identity, -⟩ := decodeSource_ok read
    rw [payload, Option.some.injEq] at again
    rw [again, identity, same]

/-- A lock returns sources of its tenant only. -/
theorem tenant_of_decodeSources
    (decoded : decodeSources E tenant (store.rowsOf tenant) = .ok sources) :
    ∀ s ∈ sources, s.tenantId = tenant := by
  intro s member
  obtain ⟨_, -, read⟩ := (mem_of_mapM decoded s).mp member
  exact (decodeSource_ok read).2.2

theorem stored_congr (same : after.sources = store.sources) :
    stored E tenant after = stored E tenant store := by
  funext id
  rw [stored, same, stored]

theorem stored_of_rowsOf (same : after.rowsOf tenant = store.rowsOf tenant) :
    stored E tenant after = stored E tenant store := by
  funext id
  have row : after.sources.find? (tenant, id) = store.sources.find? (tenant, id) := by
    refine Option.ext fun row => ?_
    have identity : ∀ kept : Store, kept.sources.find? (tenant, id) = some row ↔
        row ∈ kept.rowsOf tenant ∧ row.id = id := by
      intro kept
      rw [mem_rowsOf]
      refine ⟨fun found => ?_, fun ⟨found, equal⟩ => equal ▸ found⟩
      have equal : row.id = id := congrArg Prod.snd (Table.key_of_find? found)
      exact ⟨equal ▸ found, equal⟩
    rw [identity, identity, same]
  rw [stored, row, stored]

theorem readable_congr (same : after.sources = store.sources) :
    Readable E tenant after ↔ Readable E tenant store := by
  rw [Readable, Store.rowsOf, same, Readable, Store.rowsOf]

end Reading

section Writing

variable {E : Encoding} {store after : Store} {s : Source}

/-- What an insertion does: the row of the identity was absent and now holds the
source. -/
theorem insert_ok (inserted : insert E s store = .ok after) :
    after = { store with sources := after.sources } ∧
      stored E s.tenantId after = Function.update (stored E s.tenantId store) s.id (some s) := by
  simp only [insert, bind_ok, found_ok, pure_ok] at inserted
  obtain ⟨payload, encoded, _, fits, rfl⟩ := inserted
  refine ⟨rfl, funext fun id => ?_⟩
  rw [stored, Table.find?_of_insert? fits, Function.update_apply]
  by_cases same : id = s.id
  · subst same
    simp [SourceRow.key, E.sources.round s payload encoded]
  · simp [SourceRow.key, same, stored]

/-- Inserting a source of a known kind and a valid shape keeps the rows readable. -/
theorem readable_insert (inserted : insert E s store = .ok after)
    (valid : s.validateShape = .ok ())
    (kind : s.sourceKind = .override ∨ s.sourceKind = .plan ∨ s.sourceKind = .addon)
    (readable : Readable E s.tenantId store) : Readable E s.tenantId after := by
  simp only [insert, bind_ok, found_ok, pure_ok] at inserted
  obtain ⟨payload, encoded, _, fits, rfl⟩ := inserted
  rw [readable_iff] at readable ⊢
  intro row member
  rw [mem_rowsOf, Table.find?_of_insert? fits] at member
  split at member
  · cases member
    refine ⟨s, ?_⟩
    simp only [decodeSource, bind_ok, found_ok, require_ok, mapError_ok, pure_ok]
    exact ⟨s, E.sources.round s payload encoded, (), ⟨rfl, rfl, rfl, rfl, kind⟩, (), valid, rfl⟩
  · exact readable row (mem_rowsOf.mpr member)

/-- What a revocation does: the row of the identity now holds the source. -/
theorem revoke_ok {expected : Nat} (revoked : revoke E s expected store = .ok after) :
    after = { store with sources := after.sources } ∧
      stored E s.tenantId after = Function.update (stored E s.tenantId store) s.id (some s) := by
  simp only [revoke, bind_ok, found_ok, require_ok, pure_ok] at revoked
  obtain ⟨payload, encoded, _, found, -, -, rfl⟩ := revoked
  refine ⟨rfl, funext fun id => ?_⟩
  rw [stored, Table.find?_update, Function.update_apply]
  by_cases same : id = s.id
  · subst same
    simp [found, SourceRow.revised, E.sources.round s payload encoded]
  · simp [same, stored]

end Writing

section Views

variable {E : Encoding} {store after : Store} {tenant : String} {cache : Cache}
  {now : DatabaseTime} {result : Result}

/-- The version of the view that the head of a tenant names. -/
def Store.viewVersion (store : Store) (tenant : String) : Nat :=
  (store.heads.find? tenant).elim 0 (·.version)

theorem lock_frame {version : Nat} {sources : List Source}
    (taken : lock E tenant store = .ok (version, sources, after)) :
    after = { store with states := after.states } ∧
      decodeSources E tenant (store.rowsOf tenant) = .ok sources ∧
      version = store.version tenant ∧ after.version tenant = version := by
  obtain ⟨stateTaken, decoded⟩ := lock_ok taken
  obtain ⟨sameVersion, present, -, -, shape⟩ := lockState_ok stateTaken
  exact ⟨shape, decoded, sameVersion, by simp [Store.version, present]⟩

/-- A decoded view carries the stamps of its head, wherever its bytes come from. -/
theorem decode_stamps {h : Head} {row : Row} {t : Instant}
    (decoded : decode E cache h row t = .ok result) :
    result.entitlementVersion = h.version ∧ result.sourceVersion = h.sourceVersion := by
  have view : ∃ bytes, h.view E bytes t = .ok result := by
    simp only [decode, bind_ok, require_ok] at decoded
    obtain ⟨-, -, decoded⟩ := decoded
    split at decoded
    · exact ⟨_, decoded⟩
    · split at decoded
      · rename_i passed
        exact ⟨_, passed.trans decoded⟩
      · exact ⟨_, decoded⟩
  obtain ⟨_, passed⟩ := view
  obtain ⟨-, -, ⟨-, version, -, source, -⟩, -⟩ := decodeView_ok.mp passed
  exact ⟨version, source⟩

theorem reuse_ok {head : Option Head} {latest : Option Row} {version epoch : Nat} {input : String}
    {t : Instant} (reused : reuse E cache head latest version epoch input t = .ok (some result)) :
    ∃ h, head = some h ∧ h.invalidated = false ∧ h.sourceVersion = version ∧
      result.entitlementVersion = h.version ∧ result.sourceVersion = h.sourceVersion := by
  unfold reuse at reused
  split at reused
  · rename_i h row
    split at reused
    · rename_i current
      split at reused
      · rename_i r decoded
        cases reused
        obtain ⟨version, source⟩ := decode_stamps decoded
        exact ⟨h, rfl, by simpa using current.1, current.2.1, version, source⟩
      · cases reused
      · cases reused
    · cases reused
  · cases reused

/-- What a read of the view leaves alone, and the stamps of what it returns. A view
that was invalid is built again under the next version. -/
theorem locked_ok (returned : locked E cache tenant now store = .ok (result, after)) :
    after.sources = store.sources ∧ Readable E tenant store ∧
      after.version tenant = store.version tenant ∧
      result.sourceVersion = store.version tenant ∧
      after.viewVersion tenant = result.entitlementVersion ∧
      ((∀ h, store.heads.find? tenant = some h → h.invalidated = true) →
        store.viewVersion tenant < result.entitlementVersion) := by
  simp only [locked, readSnapshotCatalog, bind_ok, found_ok, require_ok, pure_ok] at returned
  obtain ⟨_, -, ⟨version, _, middle⟩, taken, _, ⟨-, -, rfl⟩, _, -, -, -, view, reused,
    rest⟩ := returned
  obtain ⟨shape, decoded, sameVersion, versionNow⟩ := lock_frame taken
  have heads : middle.heads = store.heads := by rw [shape]
  have rows : middle.sources = store.sources := by rw [shape]
  cases view with
  | some reusedView =>
    obtain ⟨rfl, rfl⟩ := rest
    obtain ⟨h, known, valid, current, stamp, source⟩ := reuse_ok reused
    refine ⟨rows, ⟨_, decoded⟩, versionNow.trans sameVersion,
      source.trans (current.trans sameVersion), by simp [Store.viewVersion, known, stamp], ?_⟩
    intro invalid
    rw [heads] at known
    simp [invalid h known] at valid
  | none =>
    obtain ⟨_, fresh, _, _, rfl, resolved, rfl, -, -, -, frame, lookups⟩ :=
      rebuild_ok rest
    obtain ⟨-, -, -, -, built⟩ := resolve_ok.mp resolved
    have source : fresh.sourceVersion = version := congrArg Result.sourceVersion built
    refine ⟨by rw [frame]; exact rows, ⟨_, decoded⟩, ?_, source.trans sameVersion, ?_, fun _ => ?_⟩
    · rw [Store.version, frame]
      exact versionNow.trans sameVersion
    · simp [Store.viewVersion, lookups]
    · rw [Store.viewVersion, ← heads]
      exact Nat.lt_succ_self _

/-- What an advance does: the next version, with the view of the head marked. -/
theorem advance_frame {expected : Nat} (advanced : advance tenant expected store = .ok after) :
    after.sources = store.sources ∧ after.version tenant = expected + 1 ∧
      after.viewVersion tenant = store.viewVersion tenant ∧
      ∀ h, after.heads.find? tenant = some h → h.invalidated = true := by
  simp only [advance, bind_ok, found_ok, require_ok, pure_ok] at advanced
  obtain ⟨-, -, _, known, -, rfl, rfl⟩ := advanced
  refine ⟨rfl, ?_, ?_, fun h found => ?_⟩
  · simp [Store.version, Table.find?_update, known, StateRow.advanced]
  · cases head : store.heads.find? tenant <;>
      simp [Store.viewVersion, Table.find?_update, head, Head.invalid]
  · rw [Table.find?_update, if_pos rfl] at found
    obtain ⟨_, -, rfl⟩ := Option.map_eq_some_iff.mp found
    rfl

end Views

end Biz.Snapshot
