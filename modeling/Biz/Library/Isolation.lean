import Biz.Library.Checks
import Biz.Library.Runs

/-!
# Repeatable-read transactions with row locks

A database is a finite map from primary keys to rows. A transaction is a program of
two kinds of statement. A plain read sees the snapshot that the first plain read of
the transaction opened; a current statement (a locking read, an insert, an update or
a delete) sees the latest committed rows, and locks the rows it meets until the
transaction ends. Both see the rows that the transaction itself has written. Nothing
of a transaction is visible to another before it commits, and a commit is atomic.

A locking read locks the rows that are there and no gap between them, and does not
wait for a row that another transaction has inserted and not committed. The
interleavings below are therefore at least those of an engine that also locks gaps.

The second half is a rely and guarantee logic. Each transaction promises what its
commit does to the committed rows, given the keys it holds then. It may rely, between
its statements, on the promises of the others, whose keys are disjoint from its own.
-/

namespace Biz.Isolation

open Runs

variable {Key Failure α β Op : Type} [DecidableEq Key] {Row : Key → Type} {key : Key}

/-- One row as a statement leaves it: its content, or nothing when it is deleted. -/
abbrev Write (Row : Key → Type) := (key : Key) × Option (Row key)

def put (rows : AList Row) : Write Row → AList Row
  | ⟨key, some row⟩ => rows.insert key row
  | ⟨key, none⟩ => rows.erase key

/-- The rows after a list of writes, the last write of a key winning. -/
def overlay (rows : AList Row) (writes : List (Write Row)) : AList Row := writes.foldl put rows

theorem lookup_put_self (rows : AList Row) (key : Key) (content : Option (Row key)) :
    (put rows ⟨key, content⟩).lookup key = content := by
  cases content with
  | none => exact AList.lookup_erase key rows
  | some row => exact AList.lookup_insert rows

section

variable (rows : AList Row)

include rows

theorem lookup_put_of_ne {write : Write Row} (other : write.1 ≠ key) :
    (put rows write).lookup key = rows.lookup key := by
  obtain ⟨_, content⟩ := write
  cases content with
  | none => exact AList.lookup_erase_ne other.symm
  | some row => exact AList.lookup_insert_ne other.symm

@[simp] theorem overlay_nil : overlay rows [] = rows := rfl

theorem overlay_cons (write : Write Row) (writes : List (Write Row)) :
    overlay rows (write :: writes) = overlay (put rows write) writes := rfl

theorem overlay_append (early late : List (Write Row)) :
    overlay rows (early ++ late) = overlay (overlay rows early) late :=
  List.foldl_append

theorem lookup_overlay_last (front : List (Write Row)) (content : Option (Row key)) :
    (overlay rows (front ++ [⟨key, content⟩])).lookup key = content := by
  rw [overlay_append, overlay_cons, overlay_nil]
  exact lookup_put_self _ key content

theorem lookup_overlay_one (content : Option (Row key)) :
    (overlay rows [⟨key, content⟩]).lookup key = content :=
  lookup_overlay_last rows [] content

theorem lookup_overlay_one_of_ne {written : Key} {content : Option (Row written)}
    (other : key ≠ written) : (overlay rows [⟨written, content⟩]).lookup key = rows.lookup key :=
  lookup_put_of_ne rows other.symm

end

variable {writes : List (Write Row)}

theorem lookup_overlay_of_untouched
    (untouched : ∀ write ∈ writes, write.1 ≠ key) (rows : AList Row) :
    (overlay rows writes).lookup key = rows.lookup key := by
  induction writes generalizing rows with
  | nil => rfl
  | cons write rest ih =>
    rw [overlay_cons, ih fun later member => untouched later (.tail _ member)]
    exact lookup_put_of_ne rows (untouched write List.mem_cons_self)

theorem mem_congr {first second : AList Row} (same : second.lookup key = first.lookup key) :
    key ∈ second ↔ key ∈ first := by
  rw [← AList.lookup_isSome, ← AList.lookup_isSome, same]

/-- A key that is written is as some write left it. -/
theorem lookup_overlay_of_touched (touched : ∃ write ∈ writes, write.1 = key) (rows : AList Row) :
    ⟨key, (overlay rows writes).lookup key⟩ ∈ writes := by
  induction writes generalizing rows with
  | nil =>
    obtain ⟨_, listed, _⟩ := touched
    cases listed
  | cons write rest ih =>
    rw [overlay_cons]
    by_cases later : ∃ write ∈ rest, write.1 = key
    · exact .tail _ (ih later (put rows write))
    · obtain ⟨written, listed, rfl⟩ := touched
      rcases List.mem_cons.mp listed with rfl | inRest
      · rw [lookup_overlay_of_untouched fun other member same => later ⟨other, member, same⟩]
        rw [lookup_put_self]
        exact List.mem_cons_self
      · exact absurd ⟨written, inRest, rfl⟩ later

/-- A key is as it was, or as some write left it. -/
theorem lookup_overlay_cases (rows : AList Row) (writes : List (Write Row)) (key : Key) :
    (overlay rows writes).lookup key = rows.lookup key ∨
      ⟨key, (overlay rows writes).lookup key⟩ ∈ writes := by
  by_cases touched : ∃ write ∈ writes, write.1 = key
  · exact .inr (lookup_overlay_of_touched touched rows)
  · exact .inl
      (lookup_overlay_of_untouched (fun write member same => touched ⟨write, member, same⟩) rows)

/-- The rows after one is written for each of a list of values. -/
theorem lookup_overlay_map {Value : Type} [DecidableEq Value] (rows : AList Row)
    (values : List Value) {make : Value → Key} (injective : make.Injective)
    (content : ∀ value, Option (Row (make value))) (value : Value) :
    (overlay rows (values.map fun value => ⟨make value, content value⟩)).lookup (make value) =
      if value ∈ values then content value else rows.lookup (make value) := by
  split
  · rename_i listed
    have touched : ∃ write ∈ values.map fun value => (⟨make value, content value⟩ : Write Row),
        write.1 = make value := ⟨_, List.mem_map.mpr ⟨value, listed, rfl⟩, rfl⟩
    obtain ⟨other, _, same⟩ := List.mem_map.mp (lookup_overlay_of_touched touched rows)
    have equal := injective (congrArg Sigma.fst same)
    subst equal
    exact (eq_of_heq (Sigma.mk.inj same).2).symm
  · rename_i unlisted
    apply lookup_overlay_of_untouched
    intro write written same
    obtain ⟨_, listed, rfl⟩ := List.mem_map.mp written
    exact unlisted (injective same ▸ listed)

theorem lookup_overlay_deleted (rows : AList Row) (keys : List Key) (key : Key) :
    (overlay rows (keys.map fun key => ⟨key, none⟩)).lookup key =
      if key ∈ keys then none else rows.lookup key :=
  lookup_overlay_map rows keys Function.injective_id (fun _ => none) key

/-- Where two databases agree on a key, so do their overlays. -/
theorem lookup_overlay_congr {first second : AList Row}
    (same : first.lookup key = second.lookup key) (writes : List (Write Row)) :
    (overlay first writes).lookup key = (overlay second writes).lookup key := by
  induction writes generalizing first second with
  | nil => exact same
  | cons write rest ih =>
    apply ih
    by_cases touched : write.1 = key
    · subst touched
      rw [lookup_put_self, lookup_put_self]
    · rw [lookup_put_of_ne _ touched, lookup_put_of_ne _ touched, same]

/-- A transaction, statement by statement. A current statement says which rows it
locks besides those it writes; both may depend on the rows it sees. -/
inductive Code (Row : Key → Type) (Failure α : Type) : Type
  | done (value : α)
  | fail (failure : Failure)
  | plain (next : AList Row → Code Row Failure α)
  | current (rows : AList Row → List Key) (writes : AList Row → List (Write Row))
      (next : AList Row → Code Row Failure α)

namespace Code

def bind : Code Row Failure α → (α → Code Row Failure β) → Code Row Failure β
  | done value, rest => rest value
  | fail failure, _ => fail failure
  | plain next, rest => plain fun view => (next view).bind rest
  | current rows writes next, rest => current rows writes fun view => (next view).bind rest

instance : Monad (Code Row Failure) where
  pure := done
  bind := bind

def lift : Except Failure α → Code Row Failure α
  | .ok value => done value
  | .error failure => fail failure

/-- Refuse unless a condition holds. -/
def require (failure : Failure) (condition : Prop) [Decidable condition] :
    Code Row Failure Unit :=
  lift (Checks.require failure condition)

/-- A part of a transaction that runs only under a condition. -/
def whenever (condition : Prop) [Decidable condition] (code : Code Row Failure Unit) :
    Code Row Failure Unit :=
  if condition then code else done ()

/-- A plain read. -/
def read (f : AList Row → Except Failure α) : Code Row Failure α := plain fun view => lift (f view)

/-- A locking read of the given rows. -/
def lock (rows : AList Row → List Key) (f : AList Row → Except Failure α) :
    Code Row Failure α :=
  current rows (fun _ => []) fun view => lift (f view)

/-- An insert, an update or a delete. A statement that is refused writes nothing. -/
def modify (f : AList Row → Except Failure (α × List (Write Row))) : Code Row Failure α :=
  current (fun _ => [])
    (fun view => match f view with | .ok (_, writes) => writes | .error _ => [])
    fun view => lift ((f view).map Prod.fst)

/-- The transaction run alone: every statement sees what the last one left. -/
def run : Code Row Failure α → AList Row → Except Failure (α × AList Row)
  | done value, rows => .ok (value, rows)
  | fail failure, _ => .error failure
  | plain next, rows => (next rows).run rows
  | current _ writes next, rows => (next rows).run (overlay rows (writes rows))

/-- The kind of the next statement. -/
inductive Kind
  | read
  | lock
  | commit
  | fail
  deriving DecidableEq

def kind : Code Row Failure α → Kind
  | done _ => .commit
  | fail _ => .fail
  | plain _ => .read
  | current .. => .lock

end Code

/-- What a transaction has behind it: the snapshot its first plain read opened, its
own writes and the keys it has locked. -/
structure Standing (Row : Key → Type) where
  snapshot : Option (AList Row)
  writes : List (Write Row)
  held : List Key

namespace Standing

def fresh : Standing Row := ⟨none, [], []⟩

variable (standing : Standing Row) (committed : AList Row)

/-- The standing after a plain read. -/
def opened : Standing Row :=
  { standing with snapshot := some (standing.snapshot.getD committed) }

/-- The standing after a current statement. -/
def extend (rows : List Key) (writes : List (Write Row)) : Standing Row :=
  { standing with
    writes := standing.writes ++ writes
    held := standing.held ++ (rows ++ writes.map Sigma.fst) }

/-- What a plain read sees. -/
def plainView : AList Row :=
  overlay (standing.snapshot.getD committed) standing.writes

/-- What a current statement sees, and what a commit leaves. -/
def currentView : AList Row :=
  overlay committed standing.writes

end Standing

structure Session (Row : Key → Type) (Failure α Op : Type) where
  op : Op
  standing : Standing Row
  code : Code Row Failure α

structure System (Row : Key → Type) (Failure α Op : Type) where
  committed : AList Row
  live : AList fun _ : Nat => Session Row Failure α Op

/-- What is said of a standing and the committed rows. -/
abbrev Assertion (Row : Key → Type) := Standing Row → AList Row → Prop

/-- What is assumed when a statement is taken. -/
abbrev Assumption (Row : Key → Type) := Code.Kind → Assertion Row

/-- What a commit does to the committed rows, given the keys that the transaction holds. -/
abbrev Promise (Row : Key → Type) (Op : Type) := Op → List Key → AList Row → AList Row → Prop

/-- A transaction starts, takes its next statement or ends, or is rolled back by the
engine. -/
inductive Event (Op : Type)
  | start (id : Nat) (op : Op)
  | advance (id : Nat)
  | abandon (id : Nat)

namespace System

variable (system : System Row Failure α Op)

/-- No other transaction holds a wanted key. -/
def free (id : Nat) (wanted : List Key) : Bool :=
  system.live.entries.all fun entry =>
    entry.1 = id || wanted.all fun key => decide (key ∉ entry.2.standing.held)

def replace (id : Nat) (session : Session Row Failure α Op) : System Row Failure α Op :=
  { system with live := system.live.insert id session }

def remove (id : Nat) : System Row Failure α Op :=
  { system with live := system.live.erase id }

/-- A transaction takes its next statement. A current statement waits while another
transaction holds a row it locks. -/
def advance (id : Nat) (session : Session Row Failure α Op) : Option (System Row Failure α Op) :=
  match session.code with
  | .done _ =>
    some { system.remove id with committed := session.standing.currentView system.committed }
  | .fail _ => some (system.remove id)
  | .plain next => some <| system.replace id
      { session with
        standing := session.standing.opened system.committed
        code := next (session.standing.plainView system.committed) }
  | .current rows writes next =>
    let view := session.standing.currentView system.committed
    if system.free id (rows view ++ (writes view).map Sigma.fst) then
      some <| system.replace id
        { session with
          standing := session.standing.extend (rows view) (writes view)
          code := next view }
    else none

end System

variable (program : Op → Code Row Failure α)

def step (system : System Row Failure α Op) : Event Op → Option (System Row Failure α Op)
  | .start id op =>
    if id ∈ system.live then none else some (system.replace id ⟨op, .fresh, program op⟩)
  | .advance id => system.live.lookup id >>= system.advance id
  | .abandon id => some (system.remove id)

/-- The steps of the system as a relation. -/
def Steps (before : System Row Failure α Op)
    (event : Event Op) (after : System Row Failure α Op) : Prop :=
  step program before event = some after

variable {first last : System Row Failure α Op} {program : Op → Code Row Failure α}

variable {events : List (Event Op)}

theorem run_of_foldlM (folded : events.foldlM (step program) first = some last) :
    Run (Steps program) first events last :=
  .of_foldlM (fun _ _ _ taken => taken) folded

section Logic

variable (promise : Promise Row Op) {standing : Standing Row} {code : Code Row Failure α}
  {held : List Key} {first last : AList Row}

/-- One commit of another transaction, seen by one that holds the keys `held`. -/
def Interferes (held : List Key) (before after : AList Row) : Prop :=
  ∃ op others, List.Disjoint held others ∧
    (∀ key ∉ others, after.lookup key = before.lookup key) ∧ promise op others before after

/-- What the other transactions may do between two statements. -/
def Rely (held : List Key) : AList Row → AList Row → Prop :=
  Relation.ReflTransGen (Interferes promise held)

/-- The rest of a transaction ends in a state with the postcondition, whatever the
others do in between. The assumption holds at each statement it takes. -/
def wp (assumes : Assumption Row)
    (post : α → Assertion Row) :
    Code Row Failure α → Assertion Row
  | .done value, standing, committed => post value standing committed
  | .fail _, _, _ => True
  | .plain next, standing, committed => ∀ now, Rely promise standing.held committed now →
      assumes .read standing now →
      wp assumes post (next (standing.plainView now)) (standing.opened now) now
  | .current rows writes next, standing, committed =>
      ∀ now, Rely promise standing.held committed now → assumes .lock standing now →
      wp assumes post (next (standing.currentView now))
        (standing.extend (rows (standing.currentView now)) (writes (standing.currentView now))) now

/-- The transaction may commit now, and its commit keeps its promise. -/
def Settles (assumes : Assumption Row) (op : Op)
    (standing : Standing Row) (committed : AList Row) : Prop :=
  ∀ now, Rely promise standing.held committed now → assumes .commit standing now →
    promise op standing.held now (standing.currentView now)

/-- The rest of a transaction ends with a commit that keeps its promise. -/
abbrev Ends (assumes : Assumption Row) (op : Op) (code : Code Row Failure α) : Assertion Row :=
  wp promise assumes (fun _ => Settles promise assumes op) code

variable {promise} {assumes : Assumption Row}

/-- A relation that is reflexive, transitive and kept by each promise under foreign
keys holds across all that the others do. -/
theorem Rely.induct (related : AList Row → AList Row → Prop) (refl : ∀ rows, related rows rows)
    (trans : ∀ {a b c}, related a b → related b c → related a c)
    (one : ∀ {op others before after}, List.Disjoint held others →
      (∀ key ∉ others, after.lookup key = before.lookup key) →
      promise op others before after → related before after) (rely : Rely promise held first last) :
    related first last := by
  induction rely with
  | refl => exact refl first
  | tail _ taken ih =>
    obtain ⟨op, _, disjoint, frame, promised⟩ := taken
    exact trans ih (one disjoint frame promised)

/-- A locked row stays as it is. -/
theorem Rely.lookup (rely : Rely promise held first last) (locked : key ∈ held) :
    last.lookup key = first.lookup key :=
  rely.induct (fun before after => after.lookup key = before.lookup key) (fun _ => rfl)
    (fun early late => late.trans early) fun disjoint frame _ => frame key (disjoint locked)

/-- An invariant that every promise keeps survives the others. -/
theorem Rely.invariant (rely : Rely promise held first last) {invariant : AList Row → Prop}
    (kept : ∀ op others before after, invariant before → promise op others before after →
      invariant after) (start : invariant first) : invariant last :=
  rely.induct (fun before after => invariant before → invariant after) (fun _ => id)
    (fun early late holds => late (early holds))
    (fun _ _ promised holds => kept _ _ _ _ holds promised) start

theorem wp_bind {post : β → Assertion Row} {rest : α → Code Row Failure β} {committed : AList Row} :
    wp promise assumes post (code >>= rest) standing committed ↔
      wp promise assumes (fun value => wp promise assumes post (rest value)) code standing
        committed := by
  induction code generalizing standing committed with
  | done value => exact Iff.rfl
  | fail failure => exact Iff.rfl
  | plain _ ih | current _ _ _ ih =>
    exact forall_congr' fun now => forall_congr' fun _ => forall_congr' fun _ => ih _

theorem wp_mono {first second : α → Assertion Row}
    (weaker : ∀ value standing committed, first value standing committed →
      second value standing committed) {committed : AList Row}
    (holds : wp promise assumes first code standing committed) :
    wp promise assumes second code standing committed := by
  induction code generalizing standing committed with
  | done value => exact weaker value standing committed holds
  | fail failure => trivial
  | plain _ ih | current _ _ _ ih => exact fun now rely assumed => ih _ (holds now rely assumed)

section Rules

variable {post : β → Assertion Row} {rest : α → Code Row Failure β} {standing : Standing Row}
  {committed : AList Row} {f : AList Row → Except Failure α} {condition : Prop}

theorem wp_pure {value : β} (holds : post value standing committed) :
    wp promise assumes post (pure value : Code Row Failure β) standing committed := holds

theorem wp_lift {outcome : Except Failure α} (holds : ∀ value, outcome = .ok value →
      wp promise assumes post (rest value) standing committed) :
    wp promise assumes post (Code.lift outcome >>= rest) standing committed := by
  cases outcome with
  | error failure => trivial
  | ok value => exact holds value rfl

theorem wp_require {failure : Failure} [Decidable condition] {rest : Unit → Code Row Failure β}
    (holds : condition → wp promise assumes post (rest ()) standing committed) :
    wp promise assumes post (Code.require failure condition >>= rest) standing committed := by
  apply wp_lift
  intro _ passed
  exact holds (Checks.require_ok.mp passed)

/-- The outcome of a check at the end of a part. -/
theorem wp_lift_last {outcome : Except Failure β}
    (holds : ∀ value, outcome = .ok value → post value standing committed) :
    wp promise assumes post (Code.lift outcome) standing committed := by
  cases outcome with
  | error failure => trivial
  | ok value => exact holds value rfl

/-- A check at the end of a part. -/
theorem wp_require_last {failure : Failure} [Decidable condition]
    {post : Unit → Assertion Row}
    (holds : condition → post () standing committed) :
    wp promise assumes post (Code.require failure condition) standing committed :=
  wp_lift_last fun _ passed => holds (Checks.require_ok.mp passed)

theorem wp_whenever [Decidable condition] {code : Code Row Failure Unit}
    {rest : Unit → Code Row Failure β}
    (taken : condition → wp promise assumes post (code >>= rest) standing committed)
    (skipped : ¬condition → wp promise assumes post (rest ()) standing committed) :
    wp promise assumes post (Code.whenever condition code >>= rest) standing committed := by
  unfold Code.whenever
  split
  · exact taken ‹_›
  · exact skipped ‹_›

theorem wp_read
    (holds : ∀ now, Rely promise standing.held committed now → assumes .read standing now →
      ∀ value, f (standing.plainView now) = .ok value →
        wp promise assumes post (rest value) (standing.opened now) now) :
    wp promise assumes post (Code.read f >>= rest) standing committed :=
  fun now rely assumed => wp_lift (holds now rely assumed)

theorem wp_lock {rows : AList Row → List Key}
    (holds : ∀ now, Rely promise standing.held committed now → assumes .lock standing now →
      ∀ value, f (standing.currentView now) = .ok value →
        wp promise assumes post (rest value)
          (standing.extend (rows (standing.currentView now)) []) now) :
    wp promise assumes post (Code.lock rows f >>= rest) standing committed :=
  fun now rely assumed => wp_lift (holds now rely assumed)

variable {f : AList Row → Except Failure (α × List (Write Row))}

/-- A writing statement at the end of a part. -/
theorem wp_modify_last {post : α → Assertion Row}
    (holds : ∀ now, Rely promise standing.held committed now → assumes .lock standing now →
      ∀ value writes, f (standing.currentView now) = .ok (value, writes) →
        post value (standing.extend [] writes) now) :
    wp promise assumes post (Code.modify f) standing committed := by
  intro now rely assumed
  cases outcome : f (standing.currentView now) with
  | error failure =>
    simp only [outcome]
    trivial
  | ok result =>
    simp only [outcome]
    exact holds now rely assumed result.1 result.2 outcome

/-- A loop whose assertion says which rounds are done. -/
theorem wp_forM_done {Item : Type} {body : Item → Code Row Failure Unit} {items : List Item}
    (kept : List Item → Assertion Row) {before : List Item}
    (round : ∀ before item standing committed, kept before standing committed →
      wp promise assumes (fun _ => kept (before ++ [item])) (body item) standing committed)
    (start : kept before standing committed) :
    wp promise assumes (fun _ => kept (before ++ items)) (forM items body) standing committed := by
  induction items generalizing before standing committed with
  | nil =>
    rw [List.append_nil]
    exact start
  | cons item rest ih =>
    rw [List.forM_cons, wp_bind]
    apply wp_mono _ (round before item standing committed start)
    intro _ standing committed holds
    rw [List.append_cons]
    exact ih holds

end Rules

/-- A weakest precondition that ends in a stable postcondition is stable itself. -/
theorem wp_stable {post : α → Assertion Row}
    (stable : ∀ value standing before after, post value standing before →
      Rely promise standing.held before after → post value standing after)
    {before after : AList Row} (holds : wp promise assumes post code standing before)
    (rely : Rely promise standing.held before after) :
    wp promise assumes post code standing after := by
  cases code with
  | done value => exact stable value standing before after holds rely
  | fail failure => trivial
  | plain | current => exact fun now later assumed => holds now (rely.trans later) assumed

end Logic

section Assertions

variable {promise : Promise Row Op} {assumes : Assumption Row}
  {relation : (key : Key) → Option (Row key) → Option (Row key) → Prop} {standing : Standing Row}
  {committed : AList Row} {f : AList Row → Except Failure α} {rest : α → Code Row Failure β}
  {kept : Assertion Row} {code : Code Row Failure α}

/-- An assertion that neither the others nor a reading statement can break. -/
structure Steady (promise : Promise Row Op)
    (kept : Assertion Row) : Prop where
  rely : ∀ {standing before after}, kept standing before →
    Rely promise standing.held before after → kept standing after
  opened : ∀ {standing committed}, kept standing committed →
    kept (standing.opened committed) committed
  locked : ∀ {standing committed} rows, kept standing committed →
    kept (standing.extend rows []) committed

theorem Steady.and {first second : Assertion Row} (left : Steady promise first)
    (right : Steady promise second) :
    Steady promise fun standing committed => first standing committed ∧
      second standing committed where
  rely := fun both rely => ⟨left.rely both.1 rely, right.rely both.2 rely⟩
  opened := fun both => ⟨left.opened both.1, right.opened both.2⟩
  locked := fun rows both => ⟨left.locked rows both.1, right.locked rows both.2⟩

theorem steady_held (key : Key) : Steady promise fun standing _ => key ∈ standing.held where
  rely := fun held _ => held
  opened := fun held => held
  locked := fun _ held => List.mem_append_left _ held

theorem steady_unwritten : Steady promise fun standing _ => standing.writes = [] where
  rely := fun unwritten _ => unwritten
  opened := fun unwritten => unwritten
  locked := fun _ unwritten => List.append_eq_nil_iff.mpr ⟨unwritten, rfl⟩

/-- A part of a transaction from whose start an assertion holds to its end. -/
def Keeps (promise : Promise Row Op)
    (assumes : Assumption Row)
    (kept : Assertion Row) (code : Code Row Failure α) : Prop :=
  ∀ standing committed, kept standing committed →
    wp promise assumes (fun _ => kept) code standing committed

theorem keeps_pure (value : α) :
    Keeps promise assumes kept (pure value : Code Row Failure α) :=
  fun _ _ holds => holds

theorem keeps_lift (outcome : Except Failure α) :
    Keeps promise assumes kept (Code.lift outcome : Code Row Failure α) :=
  fun _ _ holds => wp_lift_last fun _ _ => holds

theorem keeps_require (failure : Failure) (condition : Prop) [Decidable condition] :
    Keeps promise assumes kept (Code.require failure condition : Code Row Failure Unit) :=
  keeps_lift _

theorem Keeps.bind (first : Keeps promise assumes kept code)
    (second : ∀ value, Keeps promise assumes kept (rest value)) :
    Keeps promise assumes kept (code >>= rest) := by
  intro standing committed holds
  rw [wp_bind]
  apply wp_mono _ (first standing committed holds)
  intro value standing committed holds
  exact second value standing committed holds

/-- A part that goes on with what a check returned. -/
theorem keeps_lift_bind {outcome : Except Failure α}
    (second : ∀ value, outcome = .ok value → Keeps promise assumes kept (rest value)) :
    Keeps promise assumes kept (Code.lift outcome >>= rest) := by
  intro standing committed holds
  apply wp_lift
  intro value passed
  exact second value passed standing committed holds

theorem keeps_whenever {condition : Prop} [Decidable condition] {code : Code Row Failure Unit}
    (taken : condition → Keeps promise assumes kept code) :
    Keeps promise assumes kept (Code.whenever condition code) := by
  unfold Code.whenever
  split
  · exact taken ‹_›
  · exact keeps_pure ()

section

variable (steady : Steady promise kept) {next : AList Row → Code Row Failure α}

include steady

theorem Steady.read (f : AList Row → Except Failure α) :
    Keeps promise assumes kept (Code.read f) := by
  intro standing committed holds now rely _
  exact keeps_lift _ _ _ (steady.opened (steady.rely holds rely))

theorem Steady.lock (rows : AList Row → List Key) (f : AList Row → Except Failure α) :
    Keeps promise assumes kept (Code.lock rows f) := by
  intro standing committed holds now rely _
  exact keeps_lift _ _ _ (steady.locked _ (steady.rely holds rely))

/-- Any plain statement. -/
theorem Steady.plain (later : ∀ standing now, kept standing now →
      Keeps promise assumes kept (next (standing.plainView now))) :
    Keeps promise assumes kept (.plain next) := by
  intro standing committed holds now rely _
  have holds := steady.rely holds rely
  exact later _ _ holds _ _ (steady.opened holds)

/-- Any current statement. -/
theorem Steady.current {rows : AList Row → List Key} {writes : AList Row → List (Write Row)}
    (written : ∀ standing now, kept standing now →
      kept (standing.extend (rows (standing.currentView now)) (writes (standing.currentView now)))
        now)
    (later : ∀ standing now, kept standing now →
      Keeps promise assumes kept (next (standing.currentView now))) :
    Keeps promise assumes kept (.current rows writes next) := by
  intro standing committed holds now rely _
  have holds := steady.rely holds rely
  exact later _ _ holds _ _ (written _ _ holds)

theorem Steady.modify {f : AList Row → Except Failure (α × List (Write Row))}
    (written : ∀ standing now value writes, kept standing now →
      f (standing.currentView now) = .ok (value, writes) → kept (standing.extend [] writes) now) :
    Keeps promise assumes kept (Code.modify f) := by
  intro standing committed holds
  apply wp_modify_last
  intro now rely _ value writes outcome
  exact written standing now value writes (steady.rely holds rely) outcome

end

/-- A loop keeps what each round keeps. -/
theorem keeps_forM {Item : Type} {body : Item → Code Row Failure Unit} {items : List Item}
    (round : ∀ item ∈ items, Keeps promise assumes kept (body item)) :
    Keeps promise assumes kept (forM items body) := by
  induction items with
  | nil => exact keeps_pure ()
  | cons item rest ih =>
    apply Keeps.bind (round item List.mem_cons_self)
    intro _
    exact ih fun later member => round later (.tail _ member)

/-- A locking read of which the rest uses what it saw. -/
theorem Steady.wp_lock {post : β → Assertion Row} {rows : AList Row → List Key}
    (steady : Steady promise kept) (start : kept standing committed)
    (holds : ∀ now value, kept (standing.extend (rows (standing.currentView now)) []) now →
      f (standing.currentView now) = .ok value → wp promise assumes post (rest value)
        (standing.extend (rows (standing.currentView now)) []) now) :
    wp promise assumes post (Code.lock rows f >>= rest) standing committed := by
  apply Isolation.wp_lock
  intro now rely _ value seen
  exact holds now value (steady.locked _ (steady.rely start rely)) seen

/-- A plain read of which the rest uses what it saw. -/
theorem Steady.wp_read {post : β → Assertion Row} (steady : Steady promise kept)
    (start : kept standing committed) (holds : ∀ now value, kept (standing.opened now) now →
      f (standing.plainView now) = .ok value →
        wp promise assumes post (rest value) (standing.opened now) now) :
    wp promise assumes post (Code.read f >>= rest) standing committed := by
  apply Isolation.wp_read
  intro now rely _ value seen
  exact holds now value (steady.opened (steady.rely start rely)) seen

omit [DecidableEq Key] in
/-- The snapshot that a plain read has is the committed rows or an earlier one. -/
theorem mem_opened {snapshot : AList Row}
    (taken : snapshot ∈ (standing.opened committed).snapshot) :
    snapshot = committed ∨ snapshot ∈ standing.snapshot := by
  cases Option.mem_some_iff.mp taken
  cases standing.snapshot with
  | none => exact .inl rfl
  | some earlier => exact .inr rfl

variable (relation) in
/-- The committed rows have moved on from the snapshot only as the relation says. -/
def Behind (standing : Standing Row) (committed : AList Row) : Prop :=
  ∀ snapshot ∈ standing.snapshot, ∀ key, relation key (snapshot.lookup key) (committed.lookup key)

/-- A relation that every promise respects row by row keeps a snapshot behind. -/
theorem steady_behind {relation : (key : Key) → Option (Row key) → Option (Row key) → Prop}
    (refl : ∀ key row, relation key row row)
    (trans : ∀ key first second third, relation key first second →
      relation key second third → relation key first third)
    (respected : ∀ op held before after, promise op held before after →
      ∀ key, relation key (before.lookup key) (after.lookup key)) :
    Steady promise (Behind relation) where
  rely := by
    intro standing before after behind rely snapshot taken key
    apply trans key _ _ _ (behind snapshot taken key)
    exact rely.induct
      (fun before after => relation key (before.lookup key) (after.lookup key))
      (fun _ => refl key _) (fun early late => trans key _ _ _ early late)
      fun _ _ promised => respected _ _ _ _ promised key
  opened := by
    intro standing committed behind snapshot taken key
    rcases mem_opened taken with rfl | earlier
    · exact refl key _
    · exact behind snapshot earlier key
  locked := fun _ behind => behind

/-- The transaction has locked all that it has written. -/
def Covered (standing : Standing Row) : Prop := ∀ write ∈ standing.writes, write.1 ∈ standing.held

omit [DecidableEq Key] in
theorem covered_fresh : Covered (.fresh : Standing Row) := fun _ member => (nomatch member)

omit [DecidableEq Key] in
theorem Covered.extend (covered : Covered standing) (rows : List Key) (writes : List (Write Row)) :
    Covered (standing.extend rows writes) := by
  intro write member
  rcases List.mem_append.mp member with early | late
  · exact List.mem_append_left _ (covered write early)
  · exact List.mem_append_right _ (List.mem_append_right _ (List.mem_map_of_mem late))

variable (relation) in
/-- Row by row, the pending writes change what is committed only as the relation says. -/
def Alters (standing : Standing Row) (committed : AList Row) : Prop :=
  ∀ key, relation key (committed.lookup key) ((standing.currentView committed).lookup key)

theorem alters_fresh (refl : ∀ key row, relation key row row) :
    Alters relation .fresh committed :=
  fun key => refl key _

/-- What others commit in between is not under a pending write. -/
theorem Alters.rely (refl : ∀ key row, relation key row row) (covered : Covered standing)
    {before after : AList Row} (rely : Rely promise standing.held before after)
    (holds : Alters relation standing before) : Alters relation standing after := by
  intro key
  by_cases touched : ∃ write ∈ standing.writes, write.1 = key
  · obtain ⟨write, member, rfl⟩ := touched
    have same := rely.lookup (covered write member)
    have view : (standing.currentView after).lookup write.1 =
        (standing.currentView before).lookup write.1 := lookup_overlay_congr same _
    rw [same, view]
    exact holds write.1
  · have view : (standing.currentView after).lookup key = after.lookup key := by
      apply lookup_overlay_of_untouched
      intro write member reached
      exact touched ⟨write, member, reached⟩
    rw [view]
    exact refl key _

theorem currentView_extend (rows : List Key) (writes : List (Write Row)) :
    (standing.extend rows writes).currentView committed =
      overlay (standing.currentView committed) writes :=
  overlay_append ..

theorem Alters.extend (trans : ∀ key first second third, relation key first second →
      relation key second third → relation key first third)
    (holds : Alters relation standing committed) (rows : List Key)
    (step : ∀ key, relation key ((standing.currentView committed).lookup key)
      ((overlay (standing.currentView committed) writes).lookup key)) :
    Alters relation (standing.extend rows writes) committed := by
  intro key
  rw [currentView_extend]
  exact trans key _ _ _ (holds key) (step key)

theorem Alters.mono {weaker : (key : Key) → Option (Row key) → Option (Row key) → Prop}
    (implied : ∀ key before after, relation key before after → weaker key before after)
    (holds : Alters relation standing committed) : Alters weaker standing committed :=
  fun key => implied key _ _ (holds key)

/-- A statement that writes one row. -/
theorem overlay_one_related (refl : ∀ key row, relation key row row) (rows : AList Row)
    {write : Write Row} (allowed : relation write.1 (rows.lookup write.1) write.2) (key : Key) :
    relation key (rows.lookup key) ((overlay rows [write]).lookup key) := by
  by_cases reached : write.1 = key
  · subst reached
    rw [lookup_overlay_one]
    exact allowed
  · change relation key _ ((put rows write).lookup key)
    rw [lookup_put_of_ne _ reached]
    exact refl key _

end Assertions

/-- The condition under which a system's steps are looked at: which transactions
start, and what is assumed of one when it takes a statement. -/
def Condition (admits : Op → Prop) (assumes : Op → Assumption Row)
    (system : System Row Failure α Op) : Event Op → Prop
  | .start _ op => admits op
  | .advance id => ∀ session ∈ system.live.lookup id,
      assumes session.op session.code.kind session.standing system.committed
  | .abandon _ => True

instance {admits : Op → Prop} [DecidablePred admits]
    {assumes : Op → Assumption Row}
    [∀ op kind standing committed, Decidable (assumes op kind standing committed)]
    (system : System Row Failure α Op) (event : Event Op) :
    Decidable (Condition admits assumes system event) :=
  match event with
  | .start _ op => inferInstanceAs (Decidable (admits op))
  | .advance id => inferInstanceAs (Decidable (∀ session ∈ system.live.lookup id,
      assumes session.op session.code.kind session.standing system.committed))
  | .abandon _ => isTrue trivial

/-- A run whose steps meet a condition, from its evaluation. -/
theorem guarded_of_foldlM {condition : System Row Failure α Op → Event Op → Prop}
    [∀ system event, Decidable (condition system event)]
    (folded : events.foldlM (fun system event =>
      if condition system event then step program system event else none) first = some last) :
    Run (Guarded (Steps program) condition) first events last := by
  refine .of_foldlM (fun before event after taken => ?_) folded
  rw [Option.ite_none_right_eq_some] at taken
  exact ⟨taken.2, taken.1⟩

section Soundness

variable {promise : Promise Row Op} {admits : Op → Prop} {assumes : Op → Assumption Row}
  {invariant : AList Row → Prop} {program : Op → Code Row Failure α}
  {first last : System Row Failure α Op} {id : Nat} {committed : AList Row}
  {session : Session Row Failure α Op}

/-- What a verified session carries: it writes only what it holds, and the rest of its
code settles. -/
structure Verified (promise : Promise Row Op)
    (assumes : Op → Assumption Row) (committed : AList Row)
    (session : Session Row Failure α Op) : Prop where
  covered : ∀ write ∈ session.standing.writes, write.1 ∈ session.standing.held
  settles : Ends promise (assumes session.op) session.op session.code session.standing committed

/-- The system invariant of the logic. -/
structure Sound (promise : Promise Row Op)
    (assumes : Op → Assumption Row) (invariant : AList Row → Prop)
    (system : System Row Failure α Op) : Prop where
  invariant : invariant system.committed
  verified : ∀ id, ∀ session ∈ system.live.lookup id, Verified promise assumes system.committed
    session
  exclusive : ∀ id, ∀ session ∈ system.live.lookup id, ∀ other, ∀ rival ∈ system.live.lookup other,
    id ≠ other → List.Disjoint session.standing.held rival.standing.held

theorem settles_stable {assumes : Assumption Row} {op : Op}
    {standing : Standing Row} {before after : AList Row}
    (settles : Settles promise assumes op standing before)
    (rely : Rely promise standing.held before after) :
    Settles promise assumes op standing after :=
  fun now later assumed => settles now (rely.trans later) assumed

theorem Verified.stable {before after : AList Row}
    (verified : Verified promise assumes before session)
    (rely : Rely promise session.standing.held before after) :
    Verified promise assumes after session :=
  ⟨verified.covered,
    wp_stable (fun _ _ _ _ => settles_stable) verified.settles rely⟩

/-- A commit changes no row that the transaction does not hold. -/
theorem Verified.frame (verified : Verified promise assumes committed session)
    (foreign : key ∉ session.standing.held) :
    (session.standing.currentView committed).lookup key = committed.lookup key := by
  apply lookup_overlay_of_untouched
  rintro write member rfl
  exact foreign (verified.covered write member)

section

variable {system : System Row Failure α Op}

section

variable (sound : Sound promise assumes invariant system) {session : Session Row Failure α Op}

include sound

/-- Replacing one session by a verified one whose keys are still its own. -/
theorem Sound.replace (verified : Verified promise assumes system.committed session)
    (own : ∀ other, ∀ rival ∈ system.live.lookup other, id ≠ other →
      List.Disjoint session.standing.held rival.standing.held) :
    Sound promise assumes invariant (system.replace id session) := by
  have looked : ∀ other, ∀ found ∈ (system.live.insert id session).lookup other,
      (other = id ∧ found = session) ∨ (other ≠ id ∧ found ∈ system.live.lookup other) := by
    intro other found member
    by_cases same : other = id
    · subst same
      rw [AList.lookup_insert, Option.mem_some_iff] at member
      exact .inl ⟨rfl, member.symm⟩
    · rw [AList.lookup_insert_ne same] at member
      exact .inr ⟨same, member⟩
  constructor
  case invariant => exact sound.invariant
  case verified =>
    intro other found member
    rcases looked other found member with ⟨rfl, rfl⟩ | ⟨_, kept⟩
    · exact verified
    · exact sound.verified other found kept
  case exclusive =>
    intro one first firstMember two second secondMember different
    rcases looked one first firstMember with ⟨rfl, rfl⟩ | ⟨_, firstKept⟩
    · rcases looked two second secondMember with ⟨rfl, rfl⟩ | ⟨_, secondKept⟩
      · exact absurd rfl different
      · exact own two second secondKept different
    · rcases looked two second secondMember with ⟨rfl, rfl⟩ | ⟨_, secondKept⟩
      · exact List.disjoint_symm (own one first firstKept different.symm)
      · exact sound.exclusive one first firstKept two second secondKept different

/-- The sessions that stay when one is removed, over any committed rows that they can
rely on. -/
theorem Sound.remove (id : Nat) (holds : invariant committed)
    (rely : ∀ other, ∀ rival ∈ system.live.lookup other, other ≠ id →
      Rely promise rival.standing.held system.committed committed) :
    Sound promise assumes invariant { system.remove id with committed := committed } := by
  have looked : ∀ other, ∀ found ∈ (system.live.erase id).lookup other,
      other ≠ id ∧ found ∈ system.live.lookup other := by
    intro other found member
    by_cases same : other = id
    · subst same
      rw [AList.lookup_erase] at member
      cases member
    · rw [AList.lookup_erase_ne same] at member
      exact ⟨same, member⟩
  constructor
  case invariant => exact holds
  case verified =>
    intro other found member
    obtain ⟨different, kept⟩ := looked other found member
    exact (sound.verified other found kept).stable (rely other found kept different)
  case exclusive =>
    intro one first firstMember two second secondMember different
    exact sound.exclusive one first (looked one first firstMember).2 two second
      (looked two second secondMember).2 different

/-- A commit of a verified session keeps its promise. -/
theorem Sound.promised (live : session ∈ system.live.lookup id) {value : α}
    (ended : session.code = .done value)
    (assumed : assumes session.op .commit session.standing system.committed) :
    promise session.op session.standing.held system.committed
      (session.standing.currentView system.committed) := by
  have settles := (sound.verified id session live).settles
  rw [ended] at settles
  exact settles system.committed .refl assumed

end

theorem free_disjoint {wanted : List Key} (free : system.free id wanted = true) {other : Nat}
    {rival : Session Row Failure α Op} (live : rival ∈ system.live.lookup other)
    (different : id ≠ other) : List.Disjoint wanted rival.standing.held := by
  intro key want held
  have entry := AList.mem_lookup_iff.mp live
  have passed := List.all_eq_true.mp free _ entry
  simp only [Bool.or_eq_true, decide_eq_true_eq, List.all_eq_true] at passed
  rcases passed with same | apart
  · exact different same.symm
  · exact apart key want held

end

theorem Sound.advance {system after : System Row Failure α Op}
    (sound : Sound promise assumes invariant system)
    (kept : ∀ op held before after, invariant before → promise op held before after →
      invariant after) (live : session ∈ system.live.lookup id)
    (assumed : assumes session.op session.code.kind session.standing system.committed)
    (taken : system.advance id session = some after) : Sound promise assumes invariant after := by
  obtain ⟨op, standing, code⟩ := session
  have verified := sound.verified id _ live
  have own := fun other rival member different =>
    sound.exclusive id _ live other rival member different
  cases code with
  | done value =>
    cases taken
    have promised := sound.promised live rfl assumed
    refine sound.remove id (kept _ _ _ _ sound.invariant promised) ?_
    intro other rival member different
    exact .single ⟨op, standing.held, List.disjoint_symm (own other rival member different.symm),
      fun key foreign => verified.frame foreign, promised⟩
  | fail failure =>
    cases taken
    exact sound.remove id sound.invariant fun other rival member different => .refl
  | plain next =>
    cases taken
    exact sound.replace ⟨verified.covered, verified.settles system.committed .refl assumed⟩ own
  | current rows writes next =>
    simp only [System.advance] at taken
    split at taken
    · rename_i free
      cases taken
      refine sound.replace ⟨Covered.extend verified.covered _ _,
        verified.settles system.committed .refl assumed⟩ ?_
      intro other rival member different
      exact List.disjoint_append_left.mpr
        ⟨own other rival member different, free_disjoint free member different⟩
    · cases taken

/-- A run whose transactions are all admitted. -/
theorem run_admitted (admitted : ∀ id op, .start id op ∈ events → admits op)
    (run : Run (Steps program) first events last) :
    Run (Guarded (Steps program) (Condition admits fun _ _ _ _ => True)) first events last := by
  induction run with
  | done => exact .done _
  | @step _ _ _ event rest taken _ ih =>
    refine .step ⟨taken, ?_⟩ (ih fun id op listed => admitted id op (.tail _ listed))
    cases event with
    | start id op => exact admitted id op List.mem_cons_self
    | advance id => exact fun _ _ => trivial
    | abandon id => trivial

/-- The rule of the logic. If every admitted transaction settles from every committed
state with the invariant, then every state of a run is sound. -/
theorem sound_of_run
    (kept : ∀ op held before after, invariant before → promise op held before after →
      invariant after) (settles : ∀ op, admits op → ∀ committed, invariant committed →
      Ends promise (assumes op) op (program op) .fresh committed)
    (run : Run (Guarded (Steps program) (Condition admits assumes)) first events last)
    (start : Sound promise assumes invariant first) : Sound promise assumes invariant last := by
  have one : ∀ before (event : Event Op) after, Sound promise assumes invariant before →
      Guarded (Steps program) (Condition admits assumes) before event after →
      Sound promise assumes invariant after := by
    intro before event after sound taken
    obtain ⟨stepped, condition⟩ := taken
    cases event with
    | start id op =>
      simp only [Steps, step] at stepped
      split at stepped
      · cases stepped
      · cases stepped
        exact sound.replace ⟨covered_fresh, settles op condition _ sound.invariant⟩
          fun _ _ _ _ _ held => nomatch held
    | advance id =>
      obtain ⟨session, live, taken⟩ := Option.bind_eq_some_iff.mp stepped
      exact sound.advance kept live (condition session live) taken
    | abandon id =>
      cases stepped
      exact sound.remove id sound.invariant fun other rival member different => .refl
  exact run.invariant one start

/-- A database with no transaction in flight. -/
def quiet (committed : AList Row) : System Row Failure α Op := ⟨committed, ∅⟩

theorem sound_quiet (holds : invariant committed) :
    Sound promise assumes invariant (quiet committed : System Row Failure α Op) :=
  ⟨holds, fun _ _ member => (nomatch member), fun _ _ member => (nomatch member)⟩

end Soundness

-- From here on a weakest precondition is only taken apart by its rules.
attribute [irreducible] wp

end Biz.Isolation
