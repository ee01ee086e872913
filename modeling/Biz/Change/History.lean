import Biz.Change.Transitions

/-!
# Histories of a tenant

A history starts with the bootstrap of a tenant. Afterwards changes are confirmed,
completed and cancelled and transitions are claimed and completed, in any order, each
in a transaction that commits. Between them the rest of the system works: previews are
added, tasks are prepared, plans are published and retired, views are rebuilt. A
transaction that fails is rolled back; it only takes time.

Every step of a history after its first is a move of the ledger.
-/

namespace Biz.Change

open Time Checks Transaction Subscription Runs
open Entitlement (Result Source)

inductive Event
  | bootstrap (S : Services) (requestId scope : String)
  | confirm (S : Services) (r : Confirmation)
  | completePrepared (S : Services) (taskId worker : String) (token : Nat)
  | cancelPrepared (S : Services) (taskId : String) (taskRevision : Nat)
  | claimTransition (id : Transition.Key) (worker : String) (lease : Duration)
  | completeTransition (S : Services) (id : Transition.Key) (worker : String) (token : Nat)
  | elapse

/-- What the rest of the system may do to the records of a tenant. -/
structure Elapsed (C : Setting) (store after : Store) : Prop where
  later : store.clock.now ≤ after.clock.now
  subscription : after.subscription = store.subscription
  sources : after.entitlements.rowsOf C.tenant = store.entitlements.rowsOf C.tenant
  receipts : after.receipts = store.receipts
  transitions : after.transitions = store.transitions
  previews : ∀ id p, store.previews.find? id = some p → after.previews.find? id = some p
  plans : ∀ key v, store.plans.find? key = some v → v.state ≠ .draft →
    ∃ v', after.plans.find? key = some v' ∧ v'.state ≠ .draft ∧ v'.terms = v.terms

/-- A transaction that commits. -/
def Commits {α : Type} (x : Tx α) (store after : Store) : Prop :=
  ∃ value, commit x store = .ok (value, after)

def Step (C : Setting) (store : Store) (event : Event) (after : Store) : Prop :=
  match event with
  | .bootstrap S requestId scope => Commits (bootstrap C S requestId scope) store after
  | .confirm S r => Commits (confirm C S r) store after
  | .completePrepared S taskId worker token =>
    Commits (completePrepared C S taskId worker token) store after
  | .cancelPrepared S taskId taskRevision =>
    Commits (cancelPrepared C S taskId taskRevision) store after
  | .claimTransition id worker lease => Commits (claimTransition C id worker lease) store after
  | .completeTransition S id worker token =>
    Commits (completeTransition C S id worker token) store after
  | .elapse => Elapsed C store after

/-- The steps after which the end of a period is no longer that of its sources. -/
def Event.EntersGrace (C : Setting) (store : Store) : Event → Prop
  | .completeTransition _ id _ _ => Change.EntersGrace C store id
  | _ => False

/-- The steps after which no boundary waits for the end of a period. -/
def Event.LosesBoundary (C : Setting) (store : Store) : Event → Prop
  | .completeTransition S id _ _ => Change.LosesBoundary C S store id
  | .cancelPrepared _ _ _ => ∃ b, store.subscription = some b ∧ b.periodEnd ≠ none ∧ Running b
  | _ => False

section Moves

variable {C : Setting} {S : Services} {store after : Store} {grace orphan : Prop}

theorem Elapsed.move (elapsed : Elapsed C store after) :
    Move C grace orphan (C.ledger store) (C.ledger after) := by
  refine .elapse elapsed.later ?_ elapsed.previews fun key v found sold => ?_
  · simp only [Setting.ledger, elapsed.subscription, elapsed.receipts, elapsed.transitions,
      Snapshot.stored_of_rowsOf elapsed.sources, Snapshot.Readable, elapsed.sources]
  · obtain ⟨v', found', sold', same⟩ := elapsed.plans key v found sold
    have keys := (Table.key_of_find? found').trans (Table.key_of_find? found).symm
    exact ⟨v', found', sold', congrArg Prod.fst keys, congrArg Prod.snd keys, same⟩

/-- A bootstrap gives a tenant its subscription, or finds that it has one. -/
theorem run_bootstrap {requestId scope : String} {b : BaseSubscription}
    (ran : bootstrap C S requestId scope store = .ok b after) :
    (∃ version, Begins C (C.ledger store) (C.ledger after) b version) ∨
      after = store ∧ store.subscription = some b := by
  obtain ⟨-, ran⟩ := run_demand_bind.mp ran
  obtain ⟨-, -, ran⟩ := run_read_bind.mp ran
  obtain ⟨current, read, ran⟩ := run_read_bind.mp ran
  cases current with
  | none => exact .inl (run_grantDefault ran)
  | some existing =>
    obtain ⟨-, ran⟩ := run_demand_bind.mp ran
    obtain ⟨rfl, rfl⟩ := run_pure.mp ran
    exact .inr ⟨rfl, (optionalBase_some read).1⟩

/-- Every step is a move, once the tenant has a subscription. -/
theorem Step.move {event : Event} (settled : Settled (C.ledger store))
    (taken : Step C store event after) :
    Move C (event.EntersGrace C store) (event.LosesBoundary C store) (C.ledger store)
      (C.ledger after) := by
  cases event with
  | bootstrap S requestId scope =>
    obtain ⟨b, committed⟩ := taken
    rcases run_bootstrap (commit_ok.mp committed) with ⟨_, begins⟩ | ⟨rfl, -⟩
    · obtain ⟨b', held, -⟩ := settled
      rw [begins.absent] at held
      cases held
    · exact move_of_quiet (Quiet.refl C _)
  | confirm S r =>
    obtain ⟨_, committed⟩ := taken
    exact move_confirm settled (commit_ok.mp committed)
  | completePrepared S taskId worker token =>
    obtain ⟨_, committed⟩ := taken
    exact move_completePrepared settled (commit_ok.mp committed)
  | cancelPrepared S taskId taskRevision =>
    obtain ⟨_, committed⟩ := taken
    exact move_cancelPrepared settled (commit_ok.mp committed) fun b held ends running =>
      ⟨b, held, ends, running⟩
  | claimTransition id worker lease =>
    obtain ⟨_, committed⟩ := taken
    exact move_claimTransition (commit_ok.mp committed)
  | completeTransition S id worker token =>
    obtain ⟨_, committed⟩ := taken
    exact move_completeTransition settled (commit_ok.mp committed)
  | elapse => exact Elapsed.move taken

end Moves

section Histories

variable {C : Setting} {store after : Store} {l l' : Ledger} {b : BaseSubscription}
  {version : Plan.Version}

/-- A tenant that nothing has happened to: no receipts, and no source that a
subscription could have. -/
structure Fresh (C : Setting) (store : Store) : Prop where
  subscription : store.subscription = none
  receipts : ∀ id, store.receipts.find? id = none
  sources : ∀ id s, Snapshot.stored C.encoding C.tenant store.entitlements id = some s →
    s.sourceKind ≠ .plan ∧ ∀ sourceNamespace moduleCode kind key action,
      id ≠ sourceId C.digests.source sourceNamespace moduleCode kind key action

/-- The first step of a history makes the first subscription. -/
theorem begins_of_bootstrap {S : Services} {requestId scope : String} (fresh : Fresh C store)
    (taken : Step C store (.bootstrap S requestId scope) after) :
    ∃ b version, Begins C (C.ledger store) (C.ledger after) b version := by
  obtain ⟨b, committed⟩ := taken
  rcases run_bootstrap (commit_ok.mp committed) with ⟨version, begins⟩ | ⟨-, held⟩
  · exact ⟨b, version, begins⟩
  · rw [fresh.subscription] at held
    cases held

theorem Begins.settled (begins : Begins C l l' b version) : Settled l' := by
  refine ⟨b, begins.saved, ?_, begins.valid, ?_⟩
  · rw [begins.revised]
    decide
  · rw [begins.state]
    exact not_provisioning _ _ _

theorem Begins.aligned (begins : Begins C l l' b version) (none_ : ∀ id, l.receipt id = none) :
    Aligned l' := by
  constructor
  · intro b' held
    obtain rfl : b = b' := Option.some.inj (begins.saved.symm.trans held)
    exact begins.whole
  · intro id r stored
    rw [begins.receipts, none_] at stored
    cases stored

theorem Begins.punctual (begins : Begins C l l' b version) : Punctual l' :=
  punctual_of_free begins.saved begins.free

/-- What holds in every state of a history: an invariant of the ledger that the first
subscription has and that moves keep, where neither proposition of a move holds that
the history excludes. -/
theorem history_invariant {holds : Ledger → Prop} {condition : Store → Event → Prop}
    {S : Services} {requestId scope : String} {events : List Event} (fresh : Fresh C store)
    (start : ∀ l' b version, Begins C (C.ledger store) l' b version → holds l')
    (kept : ∀ before event after, condition before event → Settled (C.ledger before) →
      Aligned (C.ledger before) → Punctual (C.ledger before) → holds (C.ledger before) →
      Move C (event.EntersGrace C before) (event.LosesBoundary C before) (C.ledger before)
        (C.ledger after) → holds (C.ledger after))
    (run : Run (Guarded (Step C) condition) store (.bootstrap S requestId scope :: events) after) :
    Settled (C.ledger after) ∧ Aligned (C.ledger after) ∧ holds (C.ledger after) := by
  obtain ⟨_, ⟨taken, -⟩, rest⟩ := run.uncons
  obtain ⟨b, version, begins⟩ := begins_of_bootstrap fresh taken
  suffices all : Settled (C.ledger after) ∧ Aligned (C.ledger after) ∧
      Punctual (C.ledger after) ∧ holds (C.ledger after) from
    ⟨all.1, all.2.1, all.2.2.2⟩
  refine rest.invariant ?_
    ⟨begins.settled, begins.aligned fresh.receipts, begins.punctual, start _ b version begins⟩
  rintro before event last ⟨settled, aligned, punctual, held⟩ ⟨taken, allowed⟩
  have move := Step.move settled taken
  exact ⟨move.settled settled, move.aligned aligned, move.punctual punctual,
    kept before event last allowed settled aligned punctual held move⟩

end Histories

/-!
## One tenant

A tenant whose plan runs for thirty days and may ask for provisioning, with a day of grace.
-/

namespace Sample

open Provisioning (Requirement)

def hash : String := String.ofList (List.replicate 64 'a')

def digests : Digests where
  source := id
  strings parts := parts.foldl (fun text part => text ++ part) ""
  input _ := hash
  subscription b := toString b.revision
  requirements rs := if rs = [] then "none" else "some"
  preview _ := hash
  receipt _ := hash
  plan _ _ := hash
  task _ := hash

def device : Plan.Definition :=
  { code := "device", technicalStatus := .ready, salesStatus := .sellable, version := 1,
    capabilities := ["device.read"], quotaKeys := ["count"], fieldKeys := [], dependencies := [],
    salesScope := [] }

/-- Thirty days with a number of devices. -/
def monthly (count : UInt64) : Plan.Terms :=
  { modules := [⟨"device", ["device.read"], [⟨"count", false, count⟩], []⟩],
    featureCodes := [], salesScope := ["*"], validityMode := .fixedDays, validityDays := 30,
    priceRef := "" }

/-- The instant of the bootstrap. -/
def begin_ : Instant := 739616 * Calendar.day

def offer : Plan.Version :=
  { planCode := "basic", number := 1, revision := 1, planRevision := 1, state := .published,
    name := "Basic", terms := monthly 10, contentSha256 := hash, createdAt := begin_,
    publishedAt := some begin_, retiredAt := none, actorId := "actor", reason := "launch" }

/-- A later version of the plan with fewer devices. -/
def fewer : Plan.Version := { offer with number := 2, terms := monthly 5 }

def rule : Rule :=
  { ruleId := "default", version := 1, priority := 0, salesScope := "*", planCode := "basic",
    planVersion := 1, enabled := true, reason := "launch", actorId := "actor",
    updatedAt := begin_ }

def requirement : Requirement :=
  { code := "device", adapter := "device", version := "1", maxAttempts := 1 }

def services (requirements : List Requirement) : Services where
  catalog := .ok [device]
  requirements _ := .ok requirements
  quotas _ _ asked := .ok (asked.map fun q =>
    { q with usageKnown := true, used := 3, policy := "checked", evidence := "count" })
  knownTenant := .ok true
  cache := none
  rules := [rule]

/-- A clock that stands on a day. -/
def clock (day : Nat) : Clock where
  reading _ := addDays begin_ day
  monotone _ _ _ := le_refl _
  positive := by
    have large : ∀ n : Nat, (0 : Int) < 739616 * 86400000000000 + n * 86400000000000 := by omega
    exact large day
  whole _ := whole_addDays (by decide) day

/-- The first sources of the tenant. -/
def granted : List Source :=
  generation id "tenant" "sub-tenant" begin_ (some (addDays begin_ 30)) (monthly 10)

/-- The sources of the tenant behind a fence on the twentieth day. -/
def behind : List Source := granted.map (fencedFrom (addDays begin_ 20))

def changeId : String := changeIdOf digests "actor" "tenant" "renewal"

/-- The sources of the tenant after it has changed to fewer devices. -/
def switched : List Source :=
  granted.map (retired (addDays begin_ 31)) ++ generation id "tenant" changeId
    (addDays begin_ 31) (some (addDays begin_ 61)) (monthly 5)

/-- A view of sources. -/
def view (number version day : Nat) (sources : List Source) : List Result :=
  match Entitlement.resolve "tenant" version (addDays begin_ day) [device.toModuleDefinition]
      sources [] with
  | .ok r => [{ r with entitlementVersion := number, catalogRevision := 1 }]
  | .error _ => []

/-- The setting of the tenant, which can encode its sources and some views. -/
def setting (views : List Result) : Setting where
  tenant := "tenant"
  digests := digests
  encoding :=
    { sources := Codec.ofList (granted ++ behind ++ switched)
      results := Codec.ofList views, inputs := fun _ _ => some "", digest := id }
  zones _ := true
  lifecycle := { trialPlans := [], graceDuration := Calendar.day, businessTimezone := "" }
  timezone := "UTC"

/-- The tenant before its bootstrap. -/
def empty : Store where
  clock := clock 0
  entitlements :=
    { catalogVersion := some 1, catalog := [device.toModuleDefinition], states := .empty,
      sources := .empty, heads := .empty, snapshots := .empty }
  plans := ⟨[offer, fewer], by decide⟩
  subscription := none
  previews := .empty
  receipts := .empty
  tasks := .empty
  transitions := .empty

theorem fresh (views : List Result) : Fresh (setting views) empty where
  subscription := rfl
  receipts _ := rfl
  sources _ _ present := by cases present

def base : BaseSubscription := defaultSubscription (setting []) rule offer "web" 1 begin_

def taskId : String := Provisioning.taskId digests.task changeId

/-- A renewal with a provisioning, previewed on the tenth day. -/
def renewal (mode : Mode) (day : Option Nat) (current : Result) : Preview :=
  { provisioningRequirements := [requirement], changeId, actorId := "actor"
    input :=
      { tenantId := "tenant", requestId := "renewal", action := .renew, targetPlanCode := "basic",
        targetPlanVersion := 1, salesScope := "", effectiveAt := day.map (addDays begin_),
        reason := "renew" }
    fingerprint := hash, hash := hash, before := base, target := offer, current
    classification := .action .renew, mode, createdAt := addDays begin_ 10
    expiresAt := addDays begin_ 11, effectiveAt := addDays begin_ (day.getD 10)
    impactDetails := [], pricingBasis := .noPriceReference }

/-- A change to fewer devices, previewed when the month is over. -/
def reduction (current : Result) : Preview :=
  let renewal := renewal .immediate none current
  { renewal with
    provisioningRequirements := [], target := fewer, classification := .downgrade
    input := { renewal.input with action := .switch, targetPlanVersion := 2 }
    createdAt := addDays begin_ 31, expiresAt := addDays begin_ 32
    effectiveAt := addDays begin_ 31 }

def confirmation : Confirmation :=
  { actorId := "actor", changeId, requestId := "confirmation", previewHash := hash,
    reason := "renew", tenantSelfService := false }

/-- The store after a transaction. -/
def run {α : Type} (x : Tx α) (store : Store) : Store :=
  match commit x store with
  | .ok (_, after) => after
  | .error _ => store

theorem commits_run {α : Type} {x : Tx α} {store : Store}
    (succeeds : (commit x store).isOk = true) : Commits x store (run x store) := by
  unfold Commits run
  cases committed : commit x store with
  | ok pair => exact ⟨pair.1, rfl⟩
  | error e =>
    rw [committed] at succeeds
    cases succeeds

/-- The store on a later day, with new previews. -/
def wait (store : Store) (day : Nat) (new : List Preview) : Store :=
  { store with
    clock := clock day,
    previews := if unique : ((store.previews.rows ++ new).map Preview.changeId).Nodup
      then ⟨store.previews.rows ++ new, unique⟩ else store.previews }

theorem elapsed_wait {C : Setting} {store : Store} (day : Nat) (new : List Preview)
    (later : store.clock.now ≤ addDays begin_ day) : Elapsed C store (wait store day new) where
  later := later
  subscription := rfl
  sources := rfl
  receipts := rfl
  transitions := rfl
  previews id p present := by
    unfold wait
    split
    · rw [Table.find?, List.find?_append, show store.previews.rows.find? _ = _ from present]
      rfl
    · exact present
  plans _ v found sold := ⟨v, found, sold, rfl⟩

/-- The tenant after its bootstrap. -/
def begun (C : Setting) : Store := run (bootstrap C (services []) "request" "web") empty

/-- The boundary that the bootstrap schedules. -/
def boundary : Transition.Key :=
  ⟨.subscriptionBoundary, "tenant", "sub-tenant", 1, addDays begin_ 30⟩

/-- The setting of a month that is over. -/
def monthOver : Setting := setting (view 1 1 31 granted ++ view 2 2 31 switched)

def lapsed : Store := wait (begun monthOver) 31 ((view 1 1 31 granted).map reduction)

/-- The tenant with fewer devices. -/
def reduced : Store := run (confirm monthOver (services []) confirmation) lapsed

/-- What the transactions of the change return and leave. -/
theorem reduction_facts :
    (commit (bootstrap monthOver (services []) "request" "web") empty).isOk = true ∧
      (begun monthOver).clock.now ≤ addDays begin_ 31 ∧
      (commit (confirm monthOver (services []) confirmation) lapsed).isOk = true ∧
      reduced.subscription = some { base with
        revision := 2, planVersion := 2, entitlementSourceVersion := 2,
        periodStart := addDays begin_ 31, periodEnd := some (addDays begin_ 61),
        sourceNamespace := changeId } ∧
      lapsed.subscription = some base ∧ lapsed.plans.find? ("basic", 1) = some offer ∧
      reduced.plans.find? ("basic", 2) = some fewer ∧ lapsed.receipts.find? changeId = none ∧
      (reduced.receipts.find? changeId).map (·.status) = some .applied := by
  decide +kernel

theorem lapsed_elapses : Step monthOver (begun monthOver) .elapse lapsed :=
  elapsed_wait 31 _ reduction_facts.2.1

theorem reduced_confirms :
    Step monthOver lapsed (.confirm (services []) confirmation) reduced :=
  commits_run reduction_facts.2.2.1

end Sample

end Biz.Change
