import Biz.Library.Checks
import Biz.Library.Codec
import Biz.Library.Table
import Biz.Provisioning.Task

/-!
# The subscription event outbox

Events of `domain/provisioning/event.go` and the repository of
`persistence/outbox.go`: the outbox, the inbox of the one consumer and the
projection that keeps the newest event of each aggregate. Every function is one
transaction on the three tables; one that returns an error is rolled back, so it
has no resulting tables.

The text columns compare as exact strings. `column` is what a `DATETIME(6)`
column returns for an instant stored in it, `codec` is `encoding/json` for events,
and `digest` is `Digest`; nothing else is known of the three.
-/

namespace Biz.Outbox

open Time Text Checks Provisioning

/-- The status texts that `Integrity` accepts; any other is `unrecognised`. -/
inductive Status
  | applied | scheduled | provisioning | cancelled | unrecognised
  deriving DecidableEq

structure Event where
  id : String
  tenantId : String
  aggregateId : String
  aggregateVersion : Nat
  changeId : String
  taskId : String
  status : Status
  sourceVersion : Nat
  entitlementVersion : Nat
  occurredAt : Instant
  hash : String
  deriving DecidableEq

/-- The values an event passes to `Digest`. -/
inductive EventDigest
  | identity (tenantId aggregateId : String) (aggregateVersion : Nat)
  | event (event : Event)

/-- What the consumer made of an event. -/
inductive Result
  | applied | stale | duplicate
  deriving DecidableEq

inductive OutboxState
  | pending | retryWait | leased | delivered | dead
  deriving DecidableEq

structure OutboxRow where
  eventId : String
  tenantId : String
  aggregateId : String
  aggregateVersion : Nat
  changeId : String
  payloadSha256 : String
  payload : String
  state : OutboxState
  attempts : Nat
  leaseOwner : String
  leaseToken : Nat
  leaseUntil : Option Instant
  nextAttemptAt : Instant
  failureCode : String
  occurredAt : Instant
  deliveredAt : Option Instant

structure InboxRow where
  consumerId : String
  eventId : String
  payloadSha256 : String
  outcome : Result
  receivedAt : Instant

structure NotificationRow where
  tenantId : String
  aggregateId : String
  aggregateVersion : Nat
  payloadSha256 : String
  payload : String
  updatedAt : Instant

def InboxRow.key (row : InboxRow) : String × String := (row.consumerId, row.eventId)

def NotificationRow.key (row : NotificationRow) : String × String := (row.tenantId, row.aggregateId)

/-- The three tables. -/
structure Store where
  outbox : Table OutboxRow.eventId
  inbox : Table InboxRow.key
  notifications : Table NotificationRow.key

def Store.empty : Store := ⟨.empty, .empty, .empty⟩

def subscriptionConsumer : String := "subscription-state-v1"

structure DeliveryReceipt where
  eventId : String
  outcome : Option Result
  aggregateVersion : Nat
  entitlementVersion : Nat

section Events

variable (digest : EventDigest → String)

def Event.seal (e : Event) : Event :=
  let e := { e with id := "evt-" ++ short (digest (.identity e.tenantId e.aggregateId
                                                     e.aggregateVersion)),
                    hash := "" }
  { e with hash := digest (.event e) }

def Event.integrity (e : Event) : Option Err :=
  let sealed := e.seal digest
  if tenant e.tenantId = false ∨ key e.aggregateId = false ∨ e.aggregateVersion = 0 ∨
      key e.changeId = false ∨ isZero e.occurredAt = true ∨ e.sourceVersion = 0 ∨
      e.entitlementVersion = 0 ∨ sealed.id ≠ e.id ∨ sealed.hash ≠ e.hash then
    some .corrupt
  else if e.status = .unrecognised then some .corrupt
  else none

/-- `ClassifyDelivery`. -/
def classifyDelivery (e : Event) (inboxHash : String) (lastVersion : Nat) (lastHash : String) :
    Except Err Result := do
  require .corrupt (e.integrity digest = none)
  if inboxHash ≠ "" then
    require .corrupt (inboxHash = e.hash)
    return .duplicate
  if e.aggregateVersion < lastVersion then return .stale
  if e.aggregateVersion = lastVersion then
    require .corrupt (e.hash = lastHash)
    return .duplicate
  return .applied

end Events

section Repository

variable (digest : EventDigest → String) (codec : Codec Event) (column : Instant → Instant)

variable (store : Store)

/-- `Append`: one row for each event, and one for each version of an aggregate. -/
def Store.append (e : Event) : Except Err Store := do
  require .corrupt (e.integrity digest = none)
  let payload ← found .invalid (codec.encode e)
  let row : OutboxRow :=
    { eventId := e.id, tenantId := e.tenantId, aggregateId := e.aggregateId,
      aggregateVersion := e.aggregateVersion, changeId := e.changeId, payloadSha256 := e.hash,
      payload := payload, state := .pending, attempts := 0, leaseOwner := "", leaseToken := 0,
      leaseUntil := none, nextAttemptAt := column e.occurredAt, failureCode := "",
      occurredAt := column e.occurredAt, deliveredAt := none }
  require .duplicateKey (∀ other ∈ store.outbox.rows,
    ¬ (other.tenantId = e.tenantId ∧ other.aggregateId = e.aggregateId ∧
      other.aggregateVersion = e.aggregateVersion))
  let outbox ← found .duplicateKey (store.outbox.insert? row)
  return { store with outbox := outbox }

variable (row : OutboxRow)

def eventFromRow : Except Err Event := do
  let e ← found .corrupt (codec.decode row.payload)
  require .corrupt (e.integrity digest = none)
  require .corrupt (e.id = row.eventId ∧ e.tenantId = row.tenantId ∧
    e.aggregateId = row.aggregateId ∧ e.aggregateVersion = row.aggregateVersion ∧
    e.changeId = row.changeId ∧ e.hash = row.payloadSha256 ∧ e.occurredAt = row.occurredAt)
  return e

/-- The condition under which `Claim` selects a row. -/
def OutboxRow.due (now : Instant) : Bool :=
  ((row.state = .pending || row.state = .retryWait) && row.nextAttemptAt ≤ now) ||
    (row.state = .leased && row.leaseUntil.any (· ≤ now))

/-- The order of the selection: next attempt, then event id. -/
def OutboxRow.before (row other : OutboxRow) : Prop :=
  row.nextAttemptAt < other.nextAttemptAt ∨
    (row.nextAttemptAt = other.nextAttemptAt ∧ row.eventId ≤ other.eventId)

instance (row other : OutboxRow) : Decidable (row.before other) :=
  inferInstanceAs (Decidable (_ ∨ _))

/-- The row that `Claim` selects: the first due row that no transaction holds. -/
def Store.select (held : List String) (now : Instant) : Option OutboxRow :=
  ((store.outbox.rows.filter fun row => row.due now && row.eventId ∉ held).insertionSort
    OutboxRow.before).head?

/-- What `Claim` makes of the selected row. -/
def claimRow (owner : String) (now : Instant) (lease : Duration) : Except Err OutboxRow := do
  require .corrupt (row.leaseToken ≠ maxUint64)
  if row.attempts ≥ 5 then
    return { row with state := .dead, failureCode := "DELIVERY_RETRIES_EXHAUSTED",
                      leaseOwner := "", leaseUntil := none }
  else
    return { row with attempts := increment32 row.attempts,
                      leaseToken := increment64 row.leaseToken, state := .leased,
                      leaseOwner := owner, leaseUntil := some (column (now + lease)) }

/-- The update that `Claim` makes of the columns it has changed. -/
def OutboxRow.claimed (changed row : OutboxRow) : OutboxRow :=
  { row with state := changed.state, failureCode := changed.failureCode,
             attempts := changed.attempts, leaseToken := changed.leaseToken,
             leaseOwner := changed.leaseOwner, leaseUntil := changed.leaseUntil }

theorem OutboxRow.claimed_eventId (changed row : OutboxRow) :
    (changed.claimed row).eventId = row.eventId := rfl

/-- `locked`: the row of a delivery and whether the caller may act on it. -/
def Store.locked (id owner : String) (token : Nat) (now : Instant) : Except Err OutboxRow := do
  let row ← found .notFound (store.outbox.find? id)
  require .lease (row.leaseToken = token)
  if row.state = .delivered then return row
  require .lease (row.state = .leased ∧ row.leaseOwner = owner ∧
    row.leaseUntil.any (now < ·) = true)
  return row

/-- The projection head of an aggregate, after the insertion of an empty one. -/
def Store.head (e : Event) (now : Instant) : NotificationRow :=
  (store.notifications.find? (e.tenantId, e.aggregateId)).getD
    { tenantId := e.tenantId, aggregateId := e.aggregateId, aggregateVersion := 0,
      payloadSha256 := "", payload := "", updatedAt := column now }

/-- The check that `Deliver` makes of a head that holds an event. -/
def headIntact (head : NotificationRow) : Bool :=
  head.aggregateVersion = 0 ||
    match codec.decode head.payload with
    | none => false
    | some previous =>
      previous.integrity digest = none && previous.hash = head.payloadSha256 &&
        previous.aggregateVersion = head.aggregateVersion && previous.tenantId = head.tenantId &&
        previous.aggregateId = head.aggregateId

/-- The update of the head that an applied event makes. -/
def NotificationRow.advanced (head : NotificationRow) (e : Event) (payload : String)
    (now : Instant) : NotificationRow :=
  if head.aggregateVersion < e.aggregateVersion then
    { head with aggregateVersion := e.aggregateVersion, payloadSha256 := e.hash,
                payload := payload, updatedAt := column now }
  else head

theorem NotificationRow.advanced_key (e : Event) (payload : String) (now : Instant)
    (head : NotificationRow) : (head.advanced column e payload now).key = head.key := by
  unfold NotificationRow.advanced
  split <;> rfl

/-- The update of the outbox row of a delivered event. -/
def OutboxRow.done (now : Instant) (row : OutboxRow) : OutboxRow :=
  { row with state := .delivered, deliveredAt := some (column now), leaseOwner := "",
             leaseUntil := none, failureCode := "" }

theorem OutboxRow.done_eventId (now : Instant) (row : OutboxRow) :
    (row.done column now).eventId = row.eventId := rfl

/-- The rest of `Deliver` once its row is locked. The two clock readings are the
one at the lock and the one after the projection head is locked. -/
def Store.deliverRow (locked now : Instant) : Except Err (Store × DeliveryReceipt) := do
  let e ← eventFromRow digest codec row
  let inbox := store.inbox.find? (subscriptionConsumer, row.eventId)
  let inboxHash := (inbox.map InboxRow.payloadSha256).getD ""
  if row.state = .delivered then
    require .corrupt (inboxHash = e.hash)
    return (store, ⟨row.eventId, inbox.map InboxRow.outcome, e.aggregateVersion,
      e.entitlementVersion⟩)
  let head := store.head column e locked
  let notifications := (store.notifications.insert? head).getD store.notifications
  require .corrupt (headIntact digest codec head = true)
  require .lease (row.leaseUntil.any (now < ·) = true)
  let outcome ← classifyDelivery digest e inboxHash head.aggregateVersion head.payloadSha256
  let inbox ← match inbox with
    | none => found .duplicateKey (store.inbox.insert?
        ⟨subscriptionConsumer, row.eventId, e.hash, outcome, column now⟩)
    | some _ => pure store.inbox
  let notifications :=
    if outcome = .applied then
      notifications.update (e.tenantId, e.aggregateId)
        (fun head => head.advanced column e row.payload now)
        (NotificationRow.advanced_key column e row.payload now)
    else notifications
  let outbox := store.outbox.update row.eventId (OutboxRow.done column now)
    (OutboxRow.done_eventId column now)
  return (⟨outbox, inbox, notifications⟩,
    ⟨row.eventId, some outcome, e.aggregateVersion, e.entitlementVersion⟩)

/-- What `Fail` makes of its locked row; a delivered row stays as it is. -/
def OutboxRow.failed (now : Instant) (code : String) (row : OutboxRow) : OutboxRow :=
  if row.state = .delivered then row
  else
    { row with state := if row.attempts ≥ 5 then .dead else .retryWait, failureCode := code,
               nextAttemptAt := column (now + backoff row.attempts), leaseOwner := "",
               leaseUntil := none }

theorem OutboxRow.failed_eventId (now : Instant) (code : String) (row : OutboxRow) :
    (row.failed column now code).eventId = row.eventId := by
  unfold OutboxRow.failed
  split <;> rfl

end Repository

end Biz.Outbox
