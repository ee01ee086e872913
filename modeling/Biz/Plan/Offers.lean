import Biz.Library.Runs
import Biz.Plan.Management

/-!
# Published offers do not change

What the tables say is a book: the revision and the latest version number of every plan,
its versions, and the receipts of its requests. A command that takes effect writes one
version and one receipt: either a new draft under the next number, or the next revision of a
stored version, whose content it may change only while that is a draft. All other calls
leave the book as it is.

The history of the effects of a plan therefore is its book: their plan revisions are
1, 2, 3, and so on, the numbers of its new versions are, and so are the revisions of the
effects on one version.
-/

namespace Biz.Plan.Management

open Time Checks Runs
open Function (update update_apply)

/-- What the tables say. -/
structure Book where
  revision : String → Nat
  latest : String → Nat
  version : String → Nat → Option Version
  receipt : String → String → Option (String × Version)

def Store.book (E : Encoding) (store : Store) : Book where
  revision code := (store.plans.find? code).elim 0 (·.revision)
  latest code := (store.plans.find? code).elim 0 (·.latestVersion)
  version code number :=
    (store.versions.find? (code, number)).bind fun row => E.versions.decode row.payload
  receipt code key := (store.receipts.find? (code, key)).bind fun row =>
    (E.versions.decode row.payload).map fun v => (row.fingerprint, v)

/-- The operations that make a new version. -/
def Operation.adds : Operation → Bool
  | .create | .clone => true
  | .update | .publish | .retire => false

/-- What an operation may make of a stored version. -/
inductive Revises : Operation → Version → Version → Prop
  | update {old v : Version} (was : old.state = .draft) (becomes : v.state = .draft) :
      Revises .update old v
  | publish {old v : Version} (was : old.state = .draft) (becomes : v.state = .published) :
      Revises .publish old v
  | retire {old v : Version} (was : old.state = .published) (becomes : v.state = .retired)
      (name : v.name = old.name) (terms : v.terms = old.terms.canonical)
      (content : v.contentSha256 = old.contentSha256) : Revises .retire old v

/-- Where a version that a command writes comes from. -/
inductive Origin (c : Command) (b : Book) (v : Version) : Prop
  | added (adds : c.operation.adds = true) (number : v.number = b.latest c.code + 1)
      (absent : b.version c.code v.number = none) (revision : v.revision = 1)
      (first : c.operation = .create → b.latest c.code = 0)
      (expected : c.operation = .clone → b.revision c.code = c.expected)
  | revised (old : Version) (keeps : c.operation.adds = false) (number : v.number = c.number)
      (known : b.version c.code c.number = some old) (expected : old.revision = c.expected)
      (revision : v.revision = old.revision + 1) (revises : Revises c.operation old v)

/-- What a command that takes effect does to the book. -/
structure Wrote (E : Encoding) (c : Command) (hash : String) (v : Version) (b b' : Book) :
    Prop where
  code : v.planCode = c.code
  intact : v.integrity E.digest = .ok ()
  planRevision : v.planRevision = b.revision c.code + 1
  canonical : v.terms.canonical = v.terms
  origin : Origin c b v
  revisions : b'.revision = update b.revision c.code (b.revision c.code + 1)
  latest : b'.latest = update b.latest c.code (max (b.latest c.code) v.number)
  versions : ∀ code number, b'.version code number =
    if code = c.code ∧ number = v.number then some v else b.version code number
  fresh : b.receipt c.code c.key = none
  receipts : ∀ code key, b'.receipt code key =
    if code = c.code ∧ key = c.key then some (hash, v) else b.receipt code key

section Repository

variable {E : Encoding} {store after : Store} {head : PlanRow} {v : Version}
  {code key hash : String}

theorem lock_ok (taken : lock code store = .ok (head, after)) :
    after.book E = store.book E ∧ after.receipts = store.receipts ∧ head.planCode = code ∧
      head.revision = (store.book E).revision code ∧
      head.latestVersion = (store.book E).latest code ∧ after.plans.find? code = some head := by
  unfold lock at taken
  split at taken
  · rename_i row known
    cases taken
    exact ⟨rfl, rfl, Table.key_of_find? known, by simp [Store.book, known],
      by simp [Store.book, known], known⟩
  · rename_i missing
    simp only [bind_ok, found_ok, pure_ok, Prod.mk.injEq] at taken
    obtain ⟨plans, inserted, rfl, rfl⟩ := taken
    have lookup := Table.find?_of_insert? inserted
    have same : ∀ field : PlanRow → Nat, field ⟨code, 0, 0⟩ = 0 → ∀ other,
        (plans.find? other).elim 0 field = (store.plans.find? other).elim 0 field := by
      intro field zero other
      rw [lookup]
      split
      · rename_i equal
        rw [equal, missing]
        exact zero
      · rfl
    refine ⟨?_, rfl, rfl, by simp [Store.book, missing], by simp [Store.book, missing],
      by simp [lookup]⟩
    simp only [Store.book, same (·.revision) rfl, same (·.latestVersion) rfl]

/-- What a read of a version returns: the stored one, with the revision of its plan. -/
theorem get_ok {number : Nat} (read : get E code number store = .ok v) :
    ∃ old, (store.book E).version code number = some old ∧ v.planCode = code ∧
      v.number = number ∧ old.integrity E.digest = .ok () ∧
      (∃ row, store.versions.find? (code, number) = some row ∧ row.revision = v.revision ∧
        row.state = v.state) ∧
      ∃ revision, old.planRevision ≤ revision ∧ v = { old with planRevision := revision } := by
  simp only [get, decodePlan, bind_ok, found_ok, require_ok, mapError_ok, pure_ok] at read
  obtain ⟨head, -, row, known, _, ⟨v', payload, -, ⟨code', number', revision, state, -⟩, _, intact,
    rfl⟩, -, bound, rfl⟩ := read
  have key : row.key = (code, number) := Table.key_of_find? known
  obtain ⟨same, same'⟩ := Prod.mk.inj key
  exact ⟨v', by simp [Store.book, known, payload], code'.trans same, number'.trans same', intact,
    ⟨row, known, revision.symm, state.symm⟩, head.revision, bound, rfl⟩

theorem receipt_some (answered : receipt E code key hash store = .ok (some v)) :
    (store.book E).receipt code key = some (hash, v) := by
  unfold receipt at answered
  split at answered
  · cases answered
  · rename_i row known
    simp only [bind_ok, found_ok, require_ok, mapError_ok, pure_ok] at answered
    obtain ⟨-, rfl, _, read, -, -, -, -, same⟩ := answered
    cases same
    simp [Store.book, known, read]

theorem receipt_none (answered : receipt E code key hash store = .ok none) :
    store.receipts.find? (code, key) = none := by
  unfold receipt at answered
  split at answered
  · assumption
  · simp only [bind_ok, found_ok, require_ok, mapError_ok, pure_ok] at answered
    obtain ⟨_, _, _, _, _, _, _, _, impossible⟩ := answered
    cases impossible

/-- A row that is written is found under its key, and no other row changes. -/
theorem saveVersion_ok {before : Option Version} {row : VersionRow}
    (saved : saveVersion before row store = .ok after) :
    after = { store with versions := after.versions } ∧
      (∀ key, after.versions.find? key =
        if key = row.key then some row else store.versions.find? key) ∧
      (before = none → store.versions.find? row.key = none) := by
  cases before with
  | none =>
    simp only [saveVersion, bind_ok, found_ok, pure_ok] at saved
    obtain ⟨_, inserted, rfl⟩ := saved
    exact ⟨rfl, Table.find?_of_insert? inserted, fun _ => (Table.insert?_eq_some inserted).1⟩
  | some before =>
    simp only [saveVersion, bind_ok, found_ok, require_ok, pure_ok] at saved
    obtain ⟨stored, known, -, -, rfl⟩ := saved
    have same : row.revised stored = row := by
      have key : stored.key = row.key := Table.key_of_find? known
      obtain ⟨code, number⟩ := Prod.mk.inj key
      simp [VersionRow.revised, code, number]
    refine ⟨rfl, fun key => ?_, fun fresh => by cases fresh⟩
    rw [Table.find?_update, known, Option.map_some, same]

theorem save_ok {before : Option Version} (saved : save E head before v store = .ok after)
    (locked : store.plans.find? head.planCode = some head) :
    checkSave E head before v = .ok () ∧ after.receipts = store.receipts ∧
      (after.book E).revision =
        update (store.book E).revision head.planCode (head.revision + 1) ∧
      (after.book E).latest =
        update (store.book E).latest head.planCode (max head.latestVersion v.number) ∧
      (∀ code number, (after.book E).version code number =
        if code = v.planCode ∧ number = v.number then some v
        else (store.book E).version code number) ∧
      (before = none → (store.book E).version v.planCode v.number = none) := by
  simp only [save, bind_ok, found_ok, require_ok, pure_ok] at saved
  obtain ⟨_, checked, payload, encoded, middle, written, _, _, -, -, rfl⟩ := saved
  obtain ⟨shape, lookup, absent⟩ := saveVersion_ok written
  have plans : middle.plans = store.plans := by rw [shape]
  have receipts : middle.receipts = store.receipts := by rw [shape]
  have advanced : ∀ other, (middle.plans.update head.planCode
      (PlanRow.advanced (max head.latestVersion v.number)) (PlanRow.advanced_planCode _)).find?
        other =
        if other = head.planCode then some (head.advanced (max head.latestVersion v.number))
        else store.plans.find? other := by
    intro other
    rw [Table.find?_update, plans, locked, Option.map_some]
  refine ⟨checked, receipts, funext fun other => ?_, funext fun other => ?_,
    fun code number => ?_, fun new => ?_⟩
  iterate 2
    simp only [Store.book, advanced, update_apply]
    split <;> rfl
  · simp only [Store.book, lookup, VersionRow.key, Prod.mk.injEq]
    split
    · exact E.versions.round v payload encoded
    · rfl
  · have none : store.versions.find? (v.planCode, v.number) = none := absent new
    simp [Store.book, none]

/-- A stored receipt is found under its request, and nothing else changes. -/
theorem complete_ok (completed : complete E key hash v store = .ok after) :
    (after.book E).revision = (store.book E).revision ∧
      (after.book E).latest = (store.book E).latest ∧
      (after.book E).version = (store.book E).version ∧
      ∀ code other, (after.book E).receipt code other =
        if code = v.planCode ∧ other = key then some (hash, v)
        else (store.book E).receipt code other := by
  simp only [complete, bind_ok, found_ok, pure_ok] at completed
  obtain ⟨payload, encoded, _, inserted, rfl⟩ := completed
  refine ⟨rfl, rfl, rfl, fun code other => ?_⟩
  simp only [Store.book, Table.find?_of_insert? inserted, ReceiptRow.key, Prod.mk.injEq]
  split
  · simp [E.versions.round v payload encoded]
  · rfl

end Repository

section Commands

variable {E : Encoding} {store after : Store} {head : PlanRow} {around : Surroundings}
  {c : Command} {subject : String} {catalog : Catalog} {v out : Version}

/-- What the shared end of the operations fills in. -/
theorem sealed_ok (done : sealed E around c subject catalog head v = .ok out) :
    out = { v with
      terms := v.terms.canonical
      contentSha256 := hash E.digest v.name v.terms.canonical
      actorId := subject
      reason := c.reason
      planRevision := head.revision + 1 } := by
  simp only [sealed, bind_ok, require_ok, pure_ok] at done
  obtain ⟨-, -, -, -, -, -, rfl⟩ := done
  rfl

/-- A version that passes its check has the hash of its content. -/
theorem content_of_integrity (intact : v.integrity E.digest = .ok ()) :
    v.contentSha256 = hash E.digest v.name v.terms := by
  simp only [Version.integrity, bind_ok, require_ok] at intact
  obtain ⟨-, ⟨-, -, -, -, -, -, -, content⟩, -⟩ := intact
  exact content

/-- What an operation makes of a stored version, once it is sealed. -/
theorem changed_ok {now : Instant} {old current : Version} {revision : Nat}
    (read : current = { old with planRevision := revision })
    (intact : old.integrity E.digest = .ok ()) (made : changed c now current = .ok v)
    (done : sealed E around c subject catalog head v = .ok out) :
    c.operation.adds = false ∧ out.planCode = old.planCode ∧ out.number = old.number ∧
      out.revision = old.revision + 1 ∧ Revises c.operation old out := by
  subst read
  have filled := sealed_ok done
  unfold changed at made
  split at made
  · rename_i operation
    simp only [bind_ok, require_ok, mapError_ok, pure_ok] at made
    obtain ⟨-, draft, terms, -, rfl⟩ := made
    subst filled
    exact ⟨by rw [operation]; rfl, rfl, rfl, rfl, operation ▸ .update draft draft⟩
  · rename_i operation
    simp only [bind_ok, require_ok, pure_ok] at made
    obtain ⟨-, draft, rfl⟩ := made
    subst filled
    exact ⟨by rw [operation]; rfl, rfl, rfl, rfl, operation ▸ .publish draft rfl⟩
  · rename_i operation
    simp only [bind_ok, require_ok, pure_ok] at made
    obtain ⟨-, published, rfl⟩ := made
    subst filled
    refine ⟨by rw [operation]; rfl, rfl, rfl, rfl, operation ▸ .retire published rfl rfl rfl ?_⟩
    rw [content_of_integrity intact]
    exact congrArg (E.digest old.name) old.terms.canonical_canonical
  · cases made

/-- Where the version of a new request comes from, once it is sealed. -/
theorem prepare_ok {before : Option Version}
    (revision : head.revision = (store.book E).revision c.code)
    (latest : head.latestVersion = (store.book E).latest c.code)
    (prepared : prepare E c head around.now store = .ok (before, v))
    (done : sealed E around c subject catalog head v = .ok out)
    (absent : before = none → (store.book E).version out.planCode out.number = none) :
    out.planCode = c.code ∧ Origin c (store.book E) out := by
  have filled := sealed_ok done
  unfold prepare at prepared
  split at prepared
  · rename_i operation
    simp only [bind_ok, require_ok, mapError_ok, pure_ok, Prod.mk.injEq] at prepared
    obtain ⟨-, none, terms, -, rfl, rfl⟩ := prepared
    subst filled
    refine ⟨rfl, .added (by rw [operation]; rfl) ?_ (absent rfl) rfl (fun _ => latest ▸ none) ?_⟩
    · rw [← latest, none]
      rfl
    · rw [operation]
      intro later
      cases later
  · rename_i operation
    simp only [bind_ok, require_ok, pure_ok, Prod.mk.injEq] at prepared
    obtain ⟨-, ⟨-, expected⟩, _, -, -, -, rfl, rfl⟩ := prepared
    subst filled
    refine ⟨rfl, .added (by rw [operation]; rfl) ?_ (absent rfl) rfl ?_ fun _ => ?_⟩
    · rw [← latest]
      rfl
    · rw [operation]
      intro first
      cases first
    · rw [← revision, expected]
  · simp only [bind_ok, require_ok, pure_ok, Prod.mk.injEq] at prepared
    obtain ⟨_, read, -, ⟨-, expected, -⟩, v', made, rfl, rfl⟩ := prepared
    obtain ⟨old, known, code, number, intact, -, _, -, rfl⟩ := get_ok read
    obtain ⟨keeps, sameCode, sameNumber, next, revises⟩ := changed_ok rfl intact made done
    exact ⟨sameCode.trans code, .revised old keeps (sameNumber.trans number) known expected next
      revises⟩

theorem serve_wrote {hash : String} (locked : store.plans.find? c.code = some head)
    (code : head.planCode = c.code) (revision : head.revision = (store.book E).revision c.code)
    (latest : head.latestVersion = (store.book E).latest c.code)
    (fresh : store.receipts.find? (c.code, c.key) = none)
    (served : serve E around c subject hash catalog head store = .ok (v, after)) :
    Wrote E c hash v (store.book E) (after.book E) := by
  simp only [serve, bind_ok, require_ok, pure_ok, Prod.mk.injEq] at served
  obtain ⟨-, -, ⟨_, draft⟩, prepared, out, done, middle, saved, _, completed, rfl, rfl⟩ :=
    served
  obtain ⟨checked, receipts, revisions, latests, versions, absent⟩ := save_ok saved (code ▸ locked)
  obtain ⟨sameRevision, sameLatest, sameVersion, newReceipt⟩ := complete_ok completed
  obtain ⟨outCode, origin⟩ := prepare_ok revision latest prepared done absent
  have filled := sealed_ok done
  have intact : out.integrity E.digest = .ok () := by
    simp only [checkSave, bind_ok, mapError_ok] at checked
    obtain ⟨_, intact, -⟩ := checked
    exact intact
  refine ⟨outCode, intact, ?_, ?_, origin, ?_, ?_, fun other number => ?_, ?_, fun other key => ?_⟩
  · rw [filled, ← revision]
  · rw [filled]
    exact draft.terms.canonical_canonical
  · rw [sameRevision, revisions, code, revision]
  · rw [sameLatest, latests, code, latest]
  · rw [sameVersion, versions, outCode]
  · simp [Store.book, fresh]
  · rw [newReceipt, outCode]
    have same : (middle.book E).receipt = (store.book E).receipt := by
      simp only [Store.book, receipts]
    rw [same]

end Commands

/-- A call: one that takes effect or is answered from a receipt returns a version. -/
inductive Event
  | effect (around : Surroundings) (request : Request) (v : Version)
  | replay (around : Surroundings) (request : Request) (v : Version)
  | failed (around : Surroundings) (request : Request) (error : Err)

/-- A call takes effect if its request has no receipt yet; one that fails is rolled back. -/
inductive Step (E : Encoding) : Store → Event → Store → Prop
  | effect {store after : Store} {around : Surroundings} {request : Request} {v : Version}
      (absent : store.receipts.find? (request.command.code, request.command.key) = none)
      (done : mutate E around request store = .ok (v, after)) :
      Step E store (.effect around request v) after
  | replay {store after : Store} {around : Surroundings} {request : Request} {v : Version}
      (present : store.receipts.find? (request.command.code, request.command.key) ≠ none)
      (done : mutate E around request store = .ok (v, after)) :
      Step E store (.replay around request v) after
  | failed {store : Store} {around : Surroundings} {request : Request} {error : Err}
      (refused : mutate E around request store = .error error) :
      Step E store (.failed around request error) store

/-- What a call does to the book. -/
inductive Moved (E : Encoding) (b : Book) : Event → Book → Prop
  | effect {b' : Book} {around : Surroundings} {request : Request} {v : Version} (hash : String)
      (wrote : Wrote E request.command hash v b b') : Moved E b (.effect around request v) b'
  | replay {around : Surroundings} {request : Request} {v : Version} (hash : String)
      (known : b.receipt request.command.code request.command.key = some (hash, v)) :
      Moved E b (.replay around request v) b
  | failed {around : Surroundings} {request : Request} {error : Err} :
      Moved E b (.failed around request error) b

section Steps

variable {E : Encoding} {store after : Store} {event : Event}

theorem Step.moved (taken : Step E store event after) :
    Moved E (store.book E) event (after.book E) := by
  cases taken with
  | failed => exact .failed
  | effect absent done =>
    simp only [mutate, bind_ok] at done
    obtain ⟨⟨_, hash, _⟩, -, ⟨_, _⟩, taken, replay, answered, done⟩ := done
    obtain ⟨same, receipts, code, revision, latest, locked⟩ := lock_ok (E := E) taken
    rw [← receipts] at absent
    have new : replay = none := by
      unfold receipt at answered
      rw [absent] at answered
      cases answered
      rfl
    subst new
    rw [← same] at revision latest ⊢
    exact .effect hash (serve_wrote locked code revision latest absent done)
  | replay present done =>
    simp only [mutate, bind_ok] at done
    obtain ⟨⟨_, hash, _⟩, -, ⟨_, _⟩, taken, replay, answered, done⟩ := done
    obtain ⟨same, receipts, -⟩ := lock_ok (E := E) taken
    cases replay with
    | none => exact absurd (receipt_none answered) (receipts ▸ present)
    | some out =>
      cases done
      have known := receipt_some answered
      rw [same] at known ⊢
      exact .replay hash known

end Steps

/-- The states in the order in which a version takes them. -/
def rank : VersionState → Nat
  | .draft => 0
  | .published => 1
  | .retired => 2
  | .unrecognised _ => 3

/-- A version later on: only a draft may have changed its content. -/
structure Onward (v v' : Version) : Prop where
  state : rank v.state ≤ rank v'.state
  revision : v.revision ≤ v'.revision
  content : v.state ≠ .draft →
    v'.name = v.name ∧ v'.terms = v.terms ∧ v'.contentSha256 = v.contentSha256

theorem Onward.refl (v : Version) : Onward v v := ⟨le_rfl, le_rfl, fun _ => ⟨rfl, rfl, rfl⟩⟩

theorem Onward.trans {u v w : Version} (first : Onward u v) (second : Onward v w) : Onward u w := by
  refine ⟨first.state.trans second.state, first.revision.trans second.revision, fun fixed => ?_⟩
  have still : v.state ≠ .draft := by
    intro draft
    have none := first.state
    cases state : u.state <;> simp_all [rank]
  obtain ⟨name, terms, content⟩ := first.content fixed
  obtain ⟨name', terms', content'⟩ := second.content still
  exact ⟨name'.trans name, terms'.trans terms, content'.trans content⟩

/-- Stored versions are canonical and numbered up to the latest, and receipts hold versions
of their plan. -/
structure Sound (E : Encoding) (b : Book) : Prop where
  versions : ∀ code number v, b.version code number = some v →
    v.terms.canonical = v.terms ∧ number ≤ b.latest code
  receipts : ∀ code key hash v, b.receipt code key = some (hash, v) →
    v.planCode = code ∧ v.integrity E.digest = .ok ()

section Moves

variable {E : Encoding} {b b' : Book} {event : Event} {v : Version} {code : String}

theorem Moved.sound (moved : Moved E b event b') (sound : Sound E b) : Sound E b' := by
  cases moved with
  | failed => exact sound
  | replay => exact sound
  | effect hash wrote =>
    refine ⟨fun code number v known => ?_, fun code key hash' v known => ?_⟩
    · rw [wrote.versions] at known
      rw [wrote.latest, update_apply]
      split at known
      · rename_i here
        obtain ⟨rfl, rfl⟩ := here
        cases known
        rw [if_pos rfl]
        exact ⟨wrote.canonical, le_max_right _ _⟩
      · obtain ⟨canonical, bound⟩ := sound.versions code number v known
        refine ⟨canonical, ?_⟩
        split
        · rename_i here
          exact (here ▸ bound).trans (le_max_left _ _)
        · exact bound
    · rw [wrote.receipts] at known
      split at known
      · rename_i here
        obtain ⟨rfl, rfl⟩ := here
        cases known
        exact ⟨wrote.code, wrote.intact⟩
      · exact sound.receipts code key hash' v known

/-- What a revision leaves of a stored version. -/
theorem Revises.onward {operation : Operation} {old : Version} (revises : Revises operation old v)
    (canonical : old.terms.canonical = old.terms) (revision : v.revision = old.revision + 1) :
    Onward old v := by
  have grows : old.revision ≤ v.revision := by omega
  cases revises with
  | update was becomes => exact ⟨by simp [was, becomes], grows, fun fixed => absurd was fixed⟩
  | publish was becomes =>
    exact ⟨by simp [was, becomes, rank], grows, fun fixed => absurd was fixed⟩
  | retire was becomes name terms content =>
    exact ⟨by simp [was, becomes, rank], grows, fun _ => ⟨name, terms.trans canonical, content⟩⟩

/-- Versions are never removed: one is the same after a call, or is revised by it. -/
theorem Moved.version (moved : Moved E b event b') {number : Nat}
    (known : b.version code number = some v) : ∃ v', b'.version code number = some v' ∧
      (v' = v ∨ ∃ operation, Revises operation v v' ∧ v'.revision = v.revision + 1) := by
  cases moved with
  | failed | replay => exact ⟨v, known, .inl rfl⟩
  | @effect _ _ request out hash wrote =>
    rw [wrote.versions]
    split
    · rename_i here
      obtain ⟨rfl, rfl⟩ := here
      refine ⟨out, rfl, .inr ?_⟩
      cases wrote.origin with
      | added adds number absent =>
        rw [known] at absent
        cases absent
      | revised old keeps number stored expected revision revises =>
        rw [← number, known, Option.some.injEq] at stored
        subst stored
        exact ⟨_, revises, revision⟩
    · exact ⟨v, known, .inl rfl⟩

theorem Moved.onward (moved : Moved E b event b') (sound : Sound E b) {number : Nat}
    (known : b.version code number = some v) :
    ∃ v', b'.version code number = some v' ∧ Onward v v' := by
  obtain ⟨v', known', rfl | ⟨_, revises, revision⟩⟩ := moved.version known
  · exact ⟨v', known', .refl v'⟩
  · exact ⟨v', known', revises.onward (sound.versions _ _ _ known).1 revision⟩

theorem Moved.replayed {around : Surroundings} {request : Request}
    (moved : Moved E b (.replay around request v) b') :
    b' = b ∧ ∃ hash, b.receipt request.command.code request.command.key = some (hash, v) := by
  cases moved with
  | replay hash known => exact ⟨rfl, hash, known⟩

/-- The state of a version keeps, or takes the next step. -/
theorem Moved.state (moved : Moved E b event b') {number : Nat} {v' : Version}
    (known : b.version code number = some v) (known' : b'.version code number = some v') :
    v'.state = v.state ∨ (v.state = .draft ∧ v'.state = .published) ∨
      (v.state = .published ∧ v'.state = .retired) := by
  obtain ⟨_, found, moved⟩ := moved.version known
  cases known'.symm.trans found
  rcases moved with rfl | ⟨_, revises, -⟩
  · exact .inl rfl
  · cases revises with
    | update was becomes => exact .inl (becomes.trans was.symm)
    | publish was becomes => exact .inr (.inl ⟨was, becomes⟩)
    | retire was becomes => exact .inr (.inr ⟨was, becomes⟩)

end Moves

/-- The versions that the calls of a history have written for a plan, in order. -/
def effects (code : String) (history : List Event) : List Version :=
  history.filterMap fun event =>
    match event with
    | .effect _ request v => if request.command.code = code then some v else none
    | _ => none

/-- Those that are the first revision of a new version. -/
def created (code : String) (history : List Event) : List Version :=
  history.filterMap fun event =>
    match event with
    | .effect _ request v =>
      if request.command.code = code ∧ request.command.operation.adds then some v else none
    | _ => none

/-- What the history of a book says. -/
structure Recorded (history : List Event) (b : Book) : Prop where
  revisions : ∀ code, (effects code history).map (·.planRevision) = List.range' 1 (b.revision code)
  numbers : ∀ code, (created code history).map (·.number) = List.range' 1 (b.latest code)
  versions : ∀ code number,
    ((effects code history).filter fun v => v.number = number).map (·.revision) =
      List.range' 1 ((b.version code number).elim 0 (·.revision))
  receipts : ∀ code key hash v, b.receipt code key = some (hash, v) →
    ∃ around request, .effect around request v ∈ history ∧ request.command.code = code ∧
      request.command.key = key
  served : ∀ around request v, .effect around request v ∈ history →
    ∃ hash, b.receipt request.command.code request.command.key = some (hash, v)

section Histories

variable {E : Encoding} {history : List Event} {b b' : Book} {event : Event}
  {around : Surroundings} {request : Request} {hash : String} {v : Version}

theorem effects_append (code : String) (early late : List Event) :
    effects code (early ++ late) = effects code early ++ effects code late := by
  simp [effects]

theorem created_append (code : String) (early late : List Event) :
    created code (early ++ late) = created code early ++ created code late := by
  simp [created]

theorem effects_effect (code : String) (around : Surroundings) (request : Request) (v : Version) :
    effects code [.effect around request v] = if request.command.code = code then [v] else [] := by
  simp only [effects, List.filterMap_cons, List.filterMap_nil]
  split <;> simp_all

theorem created_effect (code : String) (around : Surroundings) (request : Request) (v : Version) :
    created code [.effect around request v] =
      if request.command.code = code ∧ request.command.operation.adds then [v] else [] := by
  simp only [created, List.filterMap_cons, List.filterMap_nil]
  split <;> simp_all

/-- A call that writes nothing adds nothing to the history of a book. -/
theorem Recorded.still (recorded : Recorded history b)
    (still : ∀ around request v, event ≠ .effect around request v) :
    Recorded (history ++ [event]) b := by
  have none : ∀ code, effects code [event] = [] ∧ created code [event] = [] := by
    intro code
    cases event with
    | effect around request v => exact absurd rfl (still around request v)
    | replay | failed => exact ⟨rfl, rfl⟩
  refine ⟨fun code => ?_, fun code => ?_, fun code number => ?_,
    fun code key hash v known => ?_, fun around request v member => ?_⟩
  · rw [effects_append, (none code).1, List.append_nil]
    exact recorded.revisions code
  · rw [created_append, (none code).2, List.append_nil]
    exact recorded.numbers code
  · rw [effects_append, (none code).1, List.append_nil]
    exact recorded.versions code number
  · obtain ⟨around, request, member, same⟩ := recorded.receipts code key hash v known
    exact ⟨around, request, List.mem_append_left _ member, same⟩
  · rcases List.mem_append.mp member with earlier | last
    · exact recorded.served around request v earlier
    · exact absurd (List.mem_singleton.mp last).symm (still around request v)

/-- Counting on by one. -/
theorem range'_next (n : Nat) : List.range' 1 (n + 1) = List.range' 1 n ++ [n + 1] := by
  rw [List.range'_1_concat, Nat.add_comm 1 n]

/-- The number of a version that is written, and the latest one after it. -/
theorem Wrote.numbered (wrote : Wrote E request.command hash v b b') (sound : Sound E b)
    (code : String) :
    List.range' 1 (b'.latest code) =
      List.range' 1 (b.latest code) ++
        if request.command.code = code ∧ request.command.operation.adds then [v.number]
          else [] := by
  rw [wrote.latest, update_apply]
  by_cases here : code = request.command.code
  · subst here
    rw [if_pos rfl]
    cases wrote.origin with
    | added adds number =>
      rw [if_pos ⟨rfl, adds⟩, number, max_eq_right (Nat.le_succ _), range'_next]
    | revised old keeps number known =>
      have bound := (sound.versions _ _ _ known).2
      rw [if_neg (by simp [keeps]), number, max_eq_left bound, List.append_nil]
  · rw [if_neg here, if_neg fun ⟨same, _⟩ => here same.symm, List.append_nil]

/-- The revision of a version that is written follows the stored one. -/
theorem Wrote.revised (wrote : Wrote E request.command hash v b b') (code : String) (number : Nat) :
    List.range' 1 ((b'.version code number).elim 0 (·.revision)) =
      List.range' 1 ((b.version code number).elim 0 (·.revision)) ++
        if code = request.command.code ∧ number = v.number then [v.revision] else [] := by
  rw [wrote.versions]
  by_cases here : code = request.command.code ∧ number = v.number
  · obtain ⟨rfl, rfl⟩ := here
    rw [if_pos ⟨rfl, rfl⟩, if_pos ⟨rfl, rfl⟩]
    cases wrote.origin with
    | added adds number absent revision =>
      rw [absent, Option.elim_some, Option.elim_none, revision]
      rfl
    | revised old keeps number known expected revision =>
      rw [number, known, Option.elim_some, Option.elim_some, revision, range'_next]
  · rw [if_neg here, if_neg here, List.append_nil]

theorem Recorded.effect (recorded : Recorded history b) (sound : Sound E b)
    (wrote : Wrote E request.command hash v b b') :
    Recorded (history ++ [.effect around request v]) b' := by
  refine ⟨fun code => ?_, fun code => ?_, fun code number => ?_,
    fun code key hash' out known => ?_, fun around' request' out member => ?_⟩
  · rw [effects_append, effects_effect, List.map_append, recorded.revisions, wrote.revisions,
      update_apply]
    by_cases here : code = request.command.code
    · rw [if_pos here.symm, if_pos here, range'_next, List.map_singleton, wrote.planRevision, here]
    · rw [if_neg fun same => here same.symm, if_neg here, List.map_nil, List.append_nil]
  · rw [created_append, created_effect, List.map_append, recorded.numbers, wrote.numbered sound]
    split <;> rfl
  · rw [effects_append, effects_effect, List.filter_append, List.map_append, recorded.versions,
      wrote.revised]
    congr 1
    by_cases here : code = request.command.code
    · subst here
      by_cases there : number = v.number
      · simp [there]
      · simp [there, Ne.symm there]
    · rw [if_neg fun same => here same.symm, if_neg fun ⟨same, _⟩ => here same]
      rfl
  · rw [wrote.receipts] at known
    split at known
    · rename_i here
      obtain ⟨rfl, rfl⟩ := here
      cases known
      exact ⟨around, request, by simp, rfl, rfl⟩
    · obtain ⟨around', request', member, same⟩ := recorded.receipts code key hash' out known
      exact ⟨around', request', List.mem_append_left _ member, same⟩
  · rw [wrote.receipts]
    rcases List.mem_append.mp member with earlier | last
    · obtain ⟨hash', known⟩ := recorded.served around' request' out earlier
      split
      · rename_i here
        have fresh := wrote.fresh
        rw [← here.1, ← here.2, known] at fresh
        cases fresh
      · exact ⟨hash', known⟩
    · cases List.mem_singleton.mp last
      exact ⟨hash, if_pos ⟨rfl, rfl⟩⟩

theorem Recorded.moved (recorded : Recorded history b) (sound : Sound E b)
    (moved : Moved E b event b') : Recorded (history ++ [event]) b' := by
  cases moved with
  | failed | replay =>
    refine recorded.still fun around request v same => ?_
    cases same
  | effect hash wrote => exact recorded.effect sound wrote

end Histories

/-- Commands that compare the revision they expect with one counter: the revision of the plan
for two clones, the revision of a version for two operations on it. Creations compare nothing;
two of them meet at the first version. -/
def SameCounter (c c' : Command) : Prop :=
  c.code = c'.code ∧ (c.operation = .create ∧ c'.operation = .create ∨
    c.operation = .clone ∧ c'.operation = .clone ∨
    c.operation.adds = false ∧ c'.operation.adds = false ∧ c.number = c'.number)

/-- What an effect says of the revision that its command expects. -/
structure Fits (c : Command) (v : Version) : Prop where
  create : c.operation = .create → v.number = 1
  clone : c.operation = .clone → v.planRevision = c.expected + 1
  revise : c.operation.adds = false → v.number = c.number ∧ v.revision = c.expected + 1

section Orders

variable {E : Encoding} {history : List Event} {b b' : Book} {around around' : Surroundings}
  {request request' : Request} {v v' : Version}
  (both : [.effect around request v, .effect around' request' v'].Sublist history)

theorem Wrote.fits {c : Command} {hash : String} (wrote : Wrote E c hash v b b') : Fits c v := by
  cases wrote.origin with
  | added adds number absent revision first expected =>
    refine ⟨fun create => ?_, fun clone => ?_, fun keeps => ?_⟩
    · rw [number, first create]
    · rw [wrote.planRevision, expected clone]
    · rw [adds] at keeps
      cases keeps
  | revised old keeps number known expected revision =>
    refine ⟨fun create => ?_, fun clone => ?_, fun _ => ⟨number, by rw [revision, expected]⟩⟩
    · rw [create] at keeps
      cases keeps
    · rw [clone] at keeps
      cases keeps

/-- Numbers in the order of a range grow. -/
theorem lt_of_sublist_range' {m n a b : Nat} (both : [a, b].Sublist (List.range' m n)) : a < b := by
  have ordered : [a, b].Pairwise (· < ·) :=
    List.Pairwise.sublist both List.pairwise_lt_range'
  simpa using ordered

include both

theorem effects_sublist
    (same : request.command.code = request'.command.code) :
    [v, v'].Sublist (effects request.command.code history) := by
  have part : (effects request.command.code _).Sublist (effects request.command.code history) :=
    both.filterMap _
  simpa [effects, same] using part

theorem created_sublist
    (same : request.command.code = request'.command.code)
    (adds : request.command.operation.adds = true)
    (adds' : request'.command.operation.adds = true) :
    [v, v'].Sublist (created request.command.code history) := by
  have part : (created request.command.code _).Sublist (created request.command.code history) :=
    both.filterMap _
  simpa [created, same, adds, adds'] using part

variable (recorded : Recorded history b)

include recorded

section

variable (same : request.command.code = request'.command.code)

include same

/-- The plan revision grows from an effect to a later one. -/
theorem Recorded.planRevision_lt : v.planRevision < v'.planRevision := by
  have part := (effects_sublist both same).map (·.planRevision)
  exact lt_of_sublist_range' (recorded.revisions _ ▸ part)

/-- The revision of a version grows from an effect on it to a later one. -/
theorem Recorded.revision_lt (number : v.number = v'.number) : v.revision < v'.revision := by
  have part := ((effects_sublist both same).filter fun out => out.number = v'.number).map
    (·.revision)
  rw [recorded.versions] at part
  exact lt_of_sublist_range' (by simpa [number] using part)

/-- New versions take new numbers. -/
theorem Recorded.number_lt (adds : request.command.operation.adds = true)
    (adds' : request'.command.operation.adds = true) : v.number < v'.number := by
  have part := (created_sublist both same adds adds').map (·.number)
  exact lt_of_sublist_range' (recorded.numbers _ ▸ part)

end

/-- Of two effects that compare their expectation with one counter, the later expects more. -/
theorem Recorded.expected_ne
    (fits : ∀ around request v, .effect around request v ∈ history → Fits request.command v)
    (same : SameCounter request.command request'.command) :
    request.command.expected ≠ request'.command.expected := by
  intro equal
  have fit := fits around request v (both.subset (by simp))
  have fit' := fits around' request' v' (both.subset (by simp))
  obtain ⟨code, ⟨create, create'⟩ | ⟨clone, clone'⟩ | ⟨keeps, keeps', number⟩⟩ := same
  · have grows := recorded.number_lt both code (by rw [create]; rfl) (by rw [create']; rfl)
    rw [fit.create create, fit'.create create'] at grows
    exact lt_irrefl _ grows
  · have grows := recorded.planRevision_lt both code
    rw [fit.clone clone, fit'.clone clone', equal] at grows
    exact lt_irrefl _ grows
  · obtain ⟨here, revision⟩ := fit.revise keeps
    obtain ⟨here', revision'⟩ := fit'.revise keeps'
    have grows := recorded.revision_lt both code (by rw [here, here', number])
    rw [revision, revision', equal] at grows
    exact lt_irrefl _ grows

end Orders

section Runs

variable {E : Encoding} {first a b : Store} {past later early late : List Event} {v : Version}
  {around : Surroundings} {request : Request}

/-- Tables that hold no plan. -/
def Store.Blank (store : Store) : Prop :=
  store.plans = Table.empty ∧ store.versions = Table.empty ∧ store.receipts = Table.empty

theorem recorded_of_run (blank : first.Blank) (run : Run (Step E) first past a) :
    Sound E (a.book E) ∧ Recorded past (a.book E) := by
  refine run.history (fun history store => Sound E (store.book E) ∧ Recorded history (store.book E))
    ?_ ?_
  · intro history store event after ⟨sound, recorded⟩ taken
    exact ⟨taken.moved.sound sound, recorded.moved sound taken.moved⟩
  · obtain ⟨plans, versions, receipts⟩ := blank
    refine ⟨⟨?_, ?_⟩, ?_, ?_, ?_, ?_, ?_⟩ <;>
      simp [Store.book, plans, versions, receipts, effects, created]

/-- A version is there for ever, and goes on. -/
theorem onward_of_run (sound : Sound E (a.book E)) (run : Run (Step E) a later b) {code : String}
    {number : Nat} (known : (a.book E).version code number = some v) :
    ∃ v', (b.book E).version code number = some v' ∧ Onward v v' := by
  refine run.invariant_under (fun _ _ _ sound taken => taken.moved.sound sound) ?_ sound
    ⟨v, known, .refl v⟩
  intro before label after sound ⟨v', known, onward⟩ taken
  obtain ⟨v'', known', onward'⟩ := taken.moved.onward sound known
  exact ⟨v'', known', onward.trans onward'⟩

theorem fits_of_run (run : Run (Step E) first past a) :
    ∀ around request v, .effect around request v ∈ past → Fits request.command v := by
  refine run.history (fun history _ => ∀ around request v,
    .effect around request v ∈ history → Fits request.command v) ?_ (by simp)
  intro history store event after fits taken around request v member
  rcases List.mem_append.mp member with earlier | last
  · exact fits around request v earlier
  · cases List.mem_singleton.mp last
    cases taken.moved with
    | effect hash wrote => exact wrote.fits

/-- What a call in the middle of a history finds recorded, and does. -/
theorem recorded_before (blank : first.Blank) {event : Event}
    (run : Run (Step E) first (early ++ event :: late) b) :
    ∃ found left, Recorded early found ∧ Moved E found event left := by
  obtain ⟨_, before, rest⟩ := run.split
  obtain ⟨_, taken, -⟩ := rest.uncons
  exact ⟨_, _, (recorded_of_run blank before).2, taken.moved⟩

/-- A request that is repeated with the same fingerprint is answered from its receipt. -/
theorem mutate_of_receipt (sound : Sound E (b.book E)) {subject hash : String} {catalog : Catalog}
    (checked : admitted E around request = .ok (subject, hash, catalog))
    (known : (b.book E).receipt request.command.code request.command.key = some (hash, v)) :
    ∃ after, mutate E around request b = .ok (v, after) ∧ after.book E = b.book E := by
  obtain ⟨code, intact⟩ := sound.receipts _ _ _ _ known
  obtain ⟨⟨head, after⟩, taken⟩ : ∃ result, lock request.command.code b = .ok result := by
    unfold lock
    split
    · exact ⟨_, rfl⟩
    · rename_i missing
      cases inserted : b.plans.insert? ⟨request.command.code, 0, 0⟩ with
      | none =>
        obtain ⟨_, present⟩ := Table.insert?_eq_none inserted
        rw [missing] at present
        cases present
      | some plans => exact ⟨_, rfl⟩
  obtain ⟨same, receipts, -⟩ := lock_ok (E := E) taken
  refine ⟨after, ?_, same⟩
  have answered : receipt E request.command.code request.command.key hash after = .ok (some v) := by
    simp only [Store.book, Option.bind_eq_some_iff, Option.map_eq_some_iff] at known
    obtain ⟨_, stored, _, read, same⟩ := known
    cases same
    rw [← receipts] at stored
    simp [receipt, stored, require, found, read, code, intact, Except.mapError]
  simp [mutate, checked, taken, answered]

/-- From tables without plans, in every run of the five commands: a version that is no longer
a draft keeps its content, states only take the next step, and version numbers, version
revisions and plan revisions count up from one with the effects. Two commands that expect the
same value of one counter do not both take effect. A replay returns what the effect of its
request has stored, and a request that has a receipt is answered from it, without effect. -/
theorem offers_immutable (blank : first.Blank) (before : Run (Step E) first past a)
    (afterwards : Run (Step E) a later b) :
    (∀ code number v, (a.book E).version code number = some v →
      ∃ v', (b.book E).version code number = some v' ∧ Onward v v') ∧
    (∀ event next code number v v', Step E b event next →
      (b.book E).version code number = some v → (next.book E).version code number = some v' →
      v'.state = v.state ∨ (v.state = .draft ∧ v'.state = .published) ∨
        (v.state = .published ∧ v'.state = .retired)) ∧
    (∀ code, (created code (past ++ later)).map (·.number) =
      List.range' 1 ((b.book E).latest code)) ∧
    (∀ code, (effects code (past ++ later)).map (·.planRevision) =
      List.range' 1 ((b.book E).revision code)) ∧
    (∀ code number, ((effects code (past ++ later)).filter fun v => v.number = number).map
      (·.revision) = List.range' 1 (((b.book E).version code number).elim 0 (·.revision))) ∧
    (∀ around request v around' request' v',
      [.effect around request v, .effect around' request' v'].Sublist (past ++ later) →
      SameCounter request.command request'.command →
      request.command.expected ≠ request'.command.expected) ∧
    (∀ early late around request v, past ++ later = early ++ .replay around request v :: late →
      ∃ around' request', .effect around' request' v ∈ early ∧
        request'.command.code = request.command.code ∧
        request'.command.key = request.command.key) ∧
    (∀ early late around request v, past ++ later = early ++ .effect around request v :: late →
      ∀ around' request' v', .effect around' request' v' ∈ early →
        request'.command.code = request.command.code →
        request'.command.key ≠ request.command.key) ∧
    (∀ around request v next, Step E b (.replay around request v) next →
      next.book E = b.book E) ∧
    (∀ around request subject hash catalog v,
      admitted E around request = .ok (subject, hash, catalog) →
      (b.book E).receipt request.command.code request.command.key = some (hash, v) →
      ∃ next, mutate E around request b = .ok (v, next) ∧ next.book E = b.book E) := by
  have run := before.append afterwards
  obtain ⟨sound, recorded⟩ := recorded_of_run blank run
  refine ⟨fun code number v known => ?_, fun event next code number v v' taken => ?_,
    recorded.numbers, recorded.revisions, recorded.versions,
    fun around request v around' request' v' both same => ?_,
    fun early late around request v history => ?_,
    fun early late around request v history around' request' v' earlier code => ?_,
    fun around request v next taken => ?_,
    fun around request subject hash catalog v checked known => ?_⟩
  · exact onward_of_run (recorded_of_run blank before).1 afterwards known
  · exact taken.moved.state
  · exact recorded.expected_ne both (fits_of_run run) same
  · obtain ⟨_, _, recorded, moved⟩ := recorded_before blank (history ▸ run)
    obtain ⟨-, _, known⟩ := moved.replayed
    exact recorded.receipts _ _ _ _ known
  · obtain ⟨_, _, recorded, moved⟩ := recorded_before blank (history ▸ run)
    obtain ⟨_, known⟩ := recorded.served _ _ _ earlier
    intro key
    cases moved with
    | effect hash' wrote =>
      have fresh := wrote.fresh
      rw [← code, ← key, known] at fresh
      cases fresh
  · exact taken.moved.replayed.1
  · exact mutate_of_receipt sound checked known

end Runs

section Sample

open Projection (sampleCatalog sampleTerms sampleDigest)

/-- A day of the year 2026 on which every sample call is made. -/
def sampleNow : Instant := 739616 * Calendar.day

def sampleAround : Surroundings :=
  ⟨some ⟨true, "admin", ""⟩, some sampleCatalog, some [⟨"reports", true, true⟩], sampleNow⟩

def sampleDraft (number planRevision : Nat) (reason : String) : Version :=
  { planCode := "basic", number, revision := 1, planRevision, state := .draft, name := "Basic",
    terms := sampleTerms, contentSha256 := hash sampleDigest "Basic" sampleTerms,
    createdAt := sampleNow, publishedAt := none, retiredAt := none, actorId := "admin", reason }

def samplePublished : Version :=
  { sampleDraft 1 2 "launch" with
    revision := 2, state := .published, publishedAt := some sampleNow }

def sampleUpdated : Version :=
  { sampleDraft 2 4 "rename" with
    revision := 2, name := "Better", contentSha256 := hash sampleDigest "Better" sampleTerms }

def sampleEncoding : Encoding where
  versions :=
    .ofList [sampleDraft 1 1 "new", samplePublished, sampleDraft 2 3 "next", sampleUpdated]
  digest := sampleDigest
  fingerprint subject request := some (subject ++ request.command.reason)

def sampleStore : Store := ⟨Table.empty, Table.empty, Table.empty⟩

def sampleCreate : Request :=
  .createPlanDraft "one" "basic" "Basic" (some (termsDto sampleTerms)) "new"

def samplePublish : Request := .publishPlanVersion "two" "basic" 1 1 "launch"

def sampleClone : Request := .createPlanVersion "three" "basic" 1 2 "next"

def sampleUpdate : Request :=
  .updatePlanDraft "four" "basic" 2 1 "Better" (some (termsDto sampleTerms)) "rename"

/-- The tables after a call. -/
def sampleNext (store : Store) (request : Request) : Store :=
  match mutate sampleEncoding sampleAround request store with
  | .ok (_, after) => after
  | .error _ => store

theorem sample_done {store : Store} {request : Request} {v : Version}
    (done : (mutate sampleEncoding sampleAround request store).map (·.1) = .ok v) :
    mutate sampleEncoding sampleAround request store = .ok (v, sampleNext store request) := by
  unfold sampleNext
  split
  · rename_i out after result
    rw [result] at done
    cases done
    exact result
  · rename_i error result
    rw [result] at done
    cases done

def sampleOffered : Store := sampleNext (sampleNext sampleStore sampleCreate) samplePublish

def sampleRevised : Store := sampleNext (sampleNext sampleOffered sampleClone) sampleUpdate

/-- A version is drafted and published. -/
theorem sample_offer : Run (Step sampleEncoding) sampleStore
    [.effect sampleAround sampleCreate (sampleDraft 1 1 "new"),
      .effect sampleAround samplePublish samplePublished] sampleOffered :=
  .step (.effect (by decide +kernel) (sample_done (by decide +kernel)))
    (.step (.effect (by decide +kernel) (sample_done (by decide +kernel))) (.done _))

/-- A second one is made from it, its draft is renamed, and the publication is asked for again. -/
theorem sample_revision : Run (Step sampleEncoding) sampleOffered
    [.effect sampleAround sampleClone (sampleDraft 2 3 "next"),
      .effect sampleAround sampleUpdate sampleUpdated,
      .replay sampleAround samplePublish samplePublished]
    (sampleNext sampleRevised samplePublish) :=
  .step (.effect (by decide +kernel) (sample_done (by decide +kernel)))
    (.step (.effect (by decide +kernel) (sample_done (by decide +kernel)))
      (.step (.replay (by decide +kernel) (sample_done (by decide +kernel))) (.done _)))

/-- The publication of the first version and the update of the second expect the same
revision, and both take effect. -/
theorem same_expected_effects : ∃ history last,
    Run (Step sampleEncoding) sampleStore history last ∧
      [.effect sampleAround samplePublish samplePublished,
        .effect sampleAround sampleUpdate sampleUpdated].Sublist history ∧
      samplePublish.command.code = sampleUpdate.command.code ∧
      samplePublish.command.expected = sampleUpdate.command.expected := by
  refine ⟨_, _, sample_offer.append sample_revision, ?_, rfl, rfl⟩
  refine .cons _ (.cons_cons _ (.cons _ (.cons_cons _ (List.nil_sublist _))))

/-- The published version is still offered under the name it was published with. -/
theorem offers_immutable_sample :
    (sampleOffered.book sampleEncoding).version "basic" 1 = some samplePublished ∧
      ∃ v, ((sampleNext sampleRevised samplePublish).book sampleEncoding).version "basic"
        1 = some v ∧
        v.name = "Basic" := by
  obtain ⟨kept, -⟩ := offers_immutable ⟨rfl, rfl, rfl⟩ sample_offer sample_revision
  have known : (sampleOffered.book sampleEncoding).version "basic" 1 = some samplePublished := by
    decide +kernel
  obtain ⟨v, later, onward⟩ := kept "basic" 1 samplePublished known
  exact ⟨known, v, later, (onward.content (by decide)).1⟩

end Sample

end Biz.Plan.Management
