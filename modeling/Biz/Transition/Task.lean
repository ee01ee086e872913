import Biz.Library.Checks
import Biz.Provisioning.Task

/-!
# Time transitions

The durable tasks of `domain/timetransition`: an instant at which some authority of a
tenant has to be looked at again, and the lease of the worker that does so.

The identity of a task is a digest of its kind, tenant, authority, authority version
and due instant, which the table also has a unique index over. The model identifies a
task by these five, and compares whole tasks where the code compares their hashes.
-/

namespace Biz.Transition

open Time Checks Text
open Provisioning (maxUint64 tenant)

inductive Kind
  | scheduledChange | entitlementExpiry | subscriptionBoundary
  deriving DecidableEq

inductive State
  | queued | running | applied | superseded | reconcileRequired
  deriving DecidableEq

inductive Err
  | invalid | notFound | conflict | lease | corrupt
  deriving DecidableEq

/-- `CanonicalTime`: whole microseconds. -/
def canonicalTime (v : Instant) : Instant := v - v % microsecond

/-- What the identity of a task is a digest of. -/
structure Key where
  kind : Kind
  tenantId : String
  authorityId : String
  authorityVersion : Nat
  dueAt : Instant
  deriving DecidableEq

structure Task where
  id : Key
  businessTimezone : String
  revision : Nat
  state : State
  leaseOwner : String
  leaseToken : Nat
  leaseUntil : Option Instant
  outcome : String
  createdAt : Instant
  updatedAt : Instant
  deriving DecidableEq

variable (t : Task)

def Task.terminal : Bool :=
  t.state = .applied || t.state = .superseded || t.state = .reconcileRequired

/-- A task that a worker can still pick up or finish. -/
def Task.live : Bool := t.state = .queued || t.state = .running

def Task.due (now : Instant) : Bool :=
  match t.state with
  | .running => t.leaseUntil.any fun until_ => until_ ≤ canonicalTime now
  | .queued => t.id.dueAt ≤ canonicalTime now
  | _ => false

def Task.owns (owner : String) (token : Nat) (now : Instant) : Bool :=
  t.state = .running && t.leaseOwner = owner && t.leaseToken = token &&
    t.leaseUntil.any fun until_ => canonicalTime now < until_

section Methods

-- The names that `time.LoadLocation` finds.
variable (zones : String → Bool)

/-- `Integrity`. The switches over kinds and states are the types of the fields. -/
def Task.integrity : Except Err Unit := do
  require .corrupt (tenant t.id.tenantId ∧ key t.id.authorityId ∧ t.id.authorityVersion ≠ 0 ∧
    t.revision ≠ 0 ∧ ¬isZero t.id.dueAt ∧ ¬isZero t.createdAt ∧ t.createdAt ≤ t.updatedAt ∧
    t.businessTimezone ≠ "" ∧ t.businessTimezone.utf8ByteSize ≤ 64)
  require .corrupt (zones t.businessTimezone)
  require .corrupt (t.state = .running → key t.leaseOwner ∧ t.leaseToken ≠ 0 ∧
    ∃ until_ ∈ t.leaseUntil, t.updatedAt < until_)
  require .corrupt (t.state ≠ .running → t.leaseOwner = "" ∧ t.leaseUntil = none)
  require .corrupt (t.terminal ↔ trimSpace t.outcome ≠ "")

/-- The task that `NewInTimezone` builds. -/
def queued (id : Key) (now : Instant) (businessTimezone : String) : Task :=
  { id, businessTimezone, revision := 1, state := .queued, leaseOwner := "", leaseToken := 0,
    leaseUntil := none, outcome := "", createdAt := now, updatedAt := now }

def newInTimezone (kind : Kind) (tenantId authority : String) (version : Nat) (due now : Instant)
    (businessTimezone : String) : Except Err Task := do
  require .invalid (trimSpace businessTimezone = businessTimezone ∧ businessTimezone ≠ "" ∧
    businessTimezone.utf8ByteSize ≤ 64)
  require .invalid (zones businessTimezone)
  let t := queued ⟨kind, tenantId, authority, version, canonicalTime due⟩ (canonicalTime now)
    businessTimezone
  t.integrity zones
  return t

/-- A running task under the next lease token. -/
def Task.leased (owner : String) (now : Instant) (lease : Duration) : Task :=
  { t with
    state := .running, leaseOwner := owner, leaseToken := t.leaseToken + 1,
    leaseUntil := some (canonicalTime (now + lease)), revision := t.revision + 1,
    updatedAt := now }

def Task.claim (owner : String) (now : Instant) (lease : Duration) : Except Err Task := do
  let now := canonicalTime now
  require .conflict (key owner ∧ 5 * second ≤ lease ∧ lease ≤ 5 * minute ∧ t.due now ∧
    t.revision ≠ maxUint64 ∧ t.leaseToken ≠ maxUint64)
  let t := t.leased owner now lease
  t.integrity zones
  return t

/-- A task without a lease, in a terminal state. -/
def Task.ended (state : State) (outcome : String) (now : Instant) : Task :=
  { t with
    state, outcome := trimSpace outcome, leaseOwner := "", leaseUntil := none,
    revision := t.revision + 1, updatedAt := now }

def Task.finish (owner : String) (token : Nat) (state : State) (outcome : String)
    (now : Instant) : Except Err Task := do
  let now := canonicalTime now
  require .lease (t.owns owner token now ∧ trimSpace outcome ≠ "" ∧ outcome.utf8ByteSize ≤ 160 ∧
    t.revision ≠ maxUint64)
  require .invalid (state = .applied ∨ state = .superseded ∨ state = .reconcileRequired)
  let t := t.ended state outcome now
  t.integrity zones
  return t

end Methods

section Lemmas

variable {zones : String → Bool} {t after : Task} {now : Instant}

theorem canonicalTime_of_whole {v : Instant} (whole : v % microsecond = 0) :
    canonicalTime v = v := by
  rw [canonicalTime, whole, Int.sub_zero]

theorem canonicalTime_whole (v : Instant) : canonicalTime v % microsecond = 0 := by
  have rounded : ∀ n : Int, (n - n % 1000) % 1000 = 0 := by omega
  exact rounded v

theorem newInTimezone_ok {kind : Kind} {tenantId authority businessTimezone : String}
    {version : Nat} {due : Instant}
    (made : newInTimezone zones kind tenantId authority version due now businessTimezone =
      .ok t) :
    t = queued ⟨kind, tenantId, authority, version, canonicalTime due⟩ (canonicalTime now)
      businessTimezone := by
  simp only [newInTimezone, bind_ok, require_ok, pure_ok] at made
  obtain ⟨-, -, -, -, -, -, rfl⟩ := made
  rfl

/-- A claim changes the lease of a task and nothing that identifies it. -/
theorem Task.claim_ok {owner : String} {lease : Duration}
    (claimed : t.claim zones owner now lease = .ok after) :
    after = t.leased owner (canonicalTime now) lease := by
  simp only [claim, bind_ok, require_ok, pure_ok] at claimed
  obtain ⟨-, -, -, -, rfl⟩ := claimed
  rfl

theorem Task.finish_ok {owner outcome : String} {token : Nat} {state : State}
    (finished : t.finish zones owner token state outcome now = .ok after) :
    after = t.ended state outcome (canonicalTime now) := by
  simp only [finish, bind_ok, require_ok, pure_ok] at finished
  obtain ⟨-, -, -, -, -, -, rfl⟩ := finished
  rfl

end Lemmas

end Biz.Transition
