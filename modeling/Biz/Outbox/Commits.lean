import Biz.Library.Runs
import Biz.Outbox.Store

/-!
# What committed transactions do to the outbox

A commit is the effect of one transaction on the tables: an appended event, a
lease, a buried event, a delivery or a recorded failure of the row that the
transaction had locked. Which transaction runs, when and with which clock is left
open, so this is the abstract level: every schedule of the repository's calls is
a sequence of commits.

The invariant relates the states of the outbox, the inbox rows, the counters and
the projection heads. Every commit keeps it, keeps delivered rows as they are,
and never lowers a head.
-/

namespace Biz.Outbox

open Time Text Checks Provisioning Runs

/-- The committed changes of the outbox, by event id. -/
inductive Change
  | append (id : String)
  | lease (id : String)
  | bury (id : String)
  | deliver (id : String)
  | fail (id : String)
  deriving DecidableEq

/-- The event that a change is about. -/
def Change.id : Change → String
  | .append id | .lease id | .bury id | .deliver id | .fail id => id

/-- The change that a claim of a row commits. -/
def OutboxRow.claimChange (changed : OutboxRow) : Change :=
  if changed.state = .leased then .lease changed.eventId else .bury changed.eventId

section Commit

variable (digest : EventDigest → String) (codec : Codec Event) (column : Instant → Instant)

/-- The effect of one committed transaction. -/
inductive Commit : Store → Change → Store → Prop
  | append {store after : Store} (e : Event)
      (appended : store.append digest codec column e = .ok after) :
      Commit store (.append e.id) after
  | claim {store : Store} (row changed : OutboxRow) (owner : String) (now : Instant)
      (lease : Duration) (stored : store.outbox.find? row.eventId = some row)
      (due : row.due now = true) (claimed : claimRow column row owner now lease = .ok changed) :
      Commit store changed.claimChange
        { store with outbox := store.outbox.update row.eventId changed.claimed
                          changed.claimed_eventId }
  | deliver {store after : Store} (row : OutboxRow) (locked now : Instant)
      (receipt : DeliveryReceipt) (stored : store.outbox.find? row.eventId = some row)
      (admitted : row.state = .delivered ∨ row.state = .leased)
      (delivered : store.deliverRow digest codec column row locked now = .ok (after, receipt)) :
      Commit store (.deliver row.eventId) after
  | fail {store : Store} (row : OutboxRow) (now : Instant) (code : String)
      (stored : store.outbox.find? row.eventId = some row)
      (admitted : row.state = .delivered ∨ row.state = .leased) :
      Commit store (.fail row.eventId)
        { store with outbox := store.outbox.update row.eventId (OutboxRow.failed column now code)
                          (OutboxRow.failed_eventId column now code) }

end Commit

/-- A delivered row of an aggregate. -/
def DeliveredOf (store : Store) (tenantId aggregateId : String) (row : OutboxRow) : Prop :=
  store.outbox.find? row.eventId = some row ∧ row.state = .delivered ∧
    row.tenantId = tenantId ∧ row.aggregateId = aggregateId

/-- The head of an aggregate is its newest delivered event; without a delivered
event there is no head. -/
def HeadNewest (store : Store) (tenantId aggregateId : String) : Prop :=
  match store.notifications.find? (tenantId, aggregateId) with
  | none => ∀ row, ¬ DeliveredOf store tenantId aggregateId row
  | some head => ∃ row, DeliveredOf store tenantId aggregateId row ∧
      head.aggregateVersion = row.aggregateVersion ∧ head.payloadSha256 = row.payloadSha256 ∧
      head.payload = row.payload ∧
      ∀ other, DeliveredOf store tenantId aggregateId other →
        other.aggregateVersion ≤ row.aggregateVersion

/-- The invariant of the tables between two commits. -/
structure Coherent (digest : EventDigest → String) (codec : Codec Event) (store : Store) :
    Prop where
  positive : ∀ id row, store.outbox.find? id = some row → row.aggregateVersion ≠ 0
  versions : ∀ id id' row row', store.outbox.find? id = some row →
    store.outbox.find? id' = some row' → row.tenantId = row'.tenantId →
    row.aggregateId = row'.aggregateId → row.aggregateVersion = row'.aggregateVersion → id = id'
  counters : ∀ id row, store.outbox.find? id = some row →
    row.attempts ≤ 5 ∧ row.leaseToken = row.attempts
  decoded : ∀ id row, store.outbox.find? id = some row → row.state = .delivered →
    ∃ e, eventFromRow digest codec row = .ok e
  recorded : ∀ id row, store.outbox.find? id = some row → row.state = .delivered →
    ∃ entry, store.inbox.find? (subscriptionConsumer, id) = some entry ∧
      entry.payloadSha256 = row.payloadSha256
  received : ∀ k entry, store.inbox.find? k = some entry → k.1 = subscriptionConsumer ∧
    ∃ row, store.outbox.find? k.2 = some row ∧ row.state = .delivered
  heads : ∀ tenantId aggregateId, HeadNewest store tenantId aggregateId

variable {digest : EventDigest → String} {codec : Codec Event} {column : Instant → Instant}
  {store after : Store} {e : Event} {row : OutboxRow} {now locked : Instant}
  {receipt : DeliveryReceipt}

theorem Coherent.empty : Coherent digest codec Store.empty := by
  refine ⟨?_, ?_, ?_, ?_, ?_, ?_, ?_⟩ <;>
    simp [Store.empty, HeadNewest, DeliveredOf]

/-- Everything that a successful `Append` does. -/
theorem append_ok (appended : store.append digest codec column e = .ok after) :
    e.integrity digest = none ∧
      (∀ other ∈ store.outbox.rows, ¬ (other.tenantId = e.tenantId ∧
        other.aggregateId = e.aggregateId ∧ other.aggregateVersion = e.aggregateVersion)) ∧
      ∃ payload outbox, codec.encode e = some payload ∧
        store.outbox.insert?
          { eventId := e.id, tenantId := e.tenantId, aggregateId := e.aggregateId,
            aggregateVersion := e.aggregateVersion, changeId := e.changeId,
            payloadSha256 := e.hash, payload := payload, state := .pending, attempts := 0,
            leaseOwner := "", leaseToken := 0, leaseUntil := none,
            nextAttemptAt := column e.occurredAt, failureCode := "",
            occurredAt := column e.occurredAt, deliveredAt := none } = some outbox ∧
        after = { store with outbox := outbox } := by
  simp only [Store.append, bind_ok, require_ok, found_ok, pure_ok] at appended
  obtain ⟨-, intact, payload, encoded, -, fresh, outbox, inserted, rfl⟩ := appended
  exact ⟨intact, fresh, payload, outbox, encoded, inserted, rfl⟩

/-- Everything that a successful claim makes of its row. -/
theorem claimRow_ok {changed : OutboxRow} {owner : String} {lease : Duration}
    (claimed : claimRow column row owner now lease = .ok changed) :
    (5 ≤ row.attempts ∧
      changed = { row with state := .dead, failureCode := "DELIVERY_RETRIES_EXHAUSTED",
                           leaseOwner := "", leaseUntil := none }) ∨
    (row.attempts < 5 ∧
      changed = { row with attempts := increment32 row.attempts,
                           leaseToken := increment64 row.leaseToken, state := .leased,
                           leaseOwner := owner, leaseUntil := some (column (now + lease)) }) := by
  simp only [claimRow, bind_ok, require_ok] at claimed
  obtain ⟨-, -, claimed⟩ := claimed
  split at claimed
  · rename_i spent
    simp only [pure_ok] at claimed
    exact .inl ⟨spent, claimed.symm⟩
  · simp only [pure_ok] at claimed
    exact .inr ⟨by omega, claimed.symm⟩

/-- The number of times the event has been leased. -/
def Store.attempts (store : Store) (id : String) : Nat :=
  ((store.outbox.find? id).map OutboxRow.attempts).getD 0

/-- Heads stay newest while the delivered rows and the heads stay the same. -/
theorem HeadNewest.congr {tenantId aggregateId : String}
    (newest : HeadNewest store tenantId aggregateId)
    (notifications : after.notifications = store.notifications)
    (delivered : ∀ row, DeliveredOf after tenantId aggregateId row ↔
      DeliveredOf store tenantId aggregateId row) : HeadNewest after tenantId aggregateId := by
  unfold HeadNewest at newest ⊢
  rw [notifications]
  simpa only [delivered] using newest

/-- What a delivery does besides writing its row. -/
structure Delivers (digest : EventDigest → String) (codec : Codec Event) (store : Store)
    (new : OutboxRow) (after : Store) : Prop where
  state : new.state = .delivered
  decoded : ∃ e, eventFromRow digest codec new = .ok e
  entry : ∃ entry : InboxRow, entry.payloadSha256 = new.payloadSha256 ∧
    ∀ k, after.inbox.find? k =
      if k = (subscriptionConsumer, new.eventId) then some entry else store.inbox.find? k
  head : ∃ head, (∀ k, after.notifications.find? k =
      if k = (new.tenantId, new.aggregateId) then some head else store.notifications.find? k) ∧
    ((head.aggregateVersion = new.aggregateVersion ∧ head.payloadSha256 = new.payloadSha256 ∧
        head.payload = new.payload ∧
        ∀ old, store.notifications.find? (new.tenantId, new.aggregateId) = some old →
          old.aggregateVersion < new.aggregateVersion) ∨
      (store.notifications.find? (new.tenantId, new.aggregateId) = some head ∧
        new.aggregateVersion < head.aggregateVersion))

/-- What a commit that writes a row does, read off the lookups: the row was not delivered
before, and no other row has its version of the aggregate. -/
structure Writes (digest : EventDigest → String) (codec : Codec Event) (store : Store)
    (change : Change) (new : OutboxRow) (after : Store) : Prop where
  id : new.eventId = change.id
  outbox : ∀ id, after.outbox.find? id =
    if id = change.id then some new else store.outbox.find? id
  undelivered : ∀ old, store.outbox.find? change.id = some old → old.state ≠ .delivered
  positive : new.aggregateVersion ≠ 0
  sole : ∀ id other, id ≠ change.id → store.outbox.find? id = some other →
    other.tenantId = new.tenantId → other.aggregateId = new.aggregateId →
    other.aggregateVersion ≠ new.aggregateVersion
  counters : new.attempts ≤ 5 ∧ new.leaseToken = new.attempts
  counted : new.attempts = store.attempts change.id + if change = .lease change.id then 1 else 0
  effect : (new.state ≠ .delivered ∧ after.inbox = store.inbox ∧
      after.notifications = store.notifications) ∨ Delivers digest codec store new after

/-- What a commit does: it writes the row of its event, or nothing at all. -/
inductive Effect (digest : EventDigest → String) (codec : Codec Event) (store : Store)
    (change : Change) (after : Store) : Prop
  | writes (new : OutboxRow) (writes : Writes digest codec store change new after)
  | idle (outbox : ∀ id, after.outbox.find? id = store.outbox.find? id)
      (inbox : after.inbox = store.inbox)
        (notifications : after.notifications = store.notifications)
      (unleased : ∀ id, change ≠ .lease id)

section Written

variable {store after : Store} {change : Change} {new : OutboxRow} {id : String}

section Writes

variable (writes : Writes digest codec store change new after)

include writes

theorem Writes.found (found : after.outbox.find? id = some row) :
    (id = change.id ∧ row = new) ∨ (id ≠ change.id ∧ store.outbox.find? id = some row) := by
  rw [writes.outbox] at found
  split at found
  · rename_i here
    exact .inl ⟨here, (Option.some.inj found).symm⟩
  · rename_i elsewhere
    exact .inr ⟨elsewhere, found⟩

/-- A delivered row stays. -/
theorem Writes.kept (found : store.outbox.find? id = some row) (state : row.state = .delivered) :
    after.outbox.find? id = some row := by
  rw [writes.outbox, if_neg]
  · exact found
  · rintro rfl
    exact writes.undelivered row found state

/-- A row that is delivered afterwards was so before, or its delivery is the effect. -/
theorem Writes.delivered (found : after.outbox.find? id = some row)
    (state : row.state = .delivered) :
    (id ≠ change.id ∧ store.outbox.find? id = some row) ∨
      (id = change.id ∧ row = new ∧ Delivers digest codec store new after) := by
  rcases writes.found found with ⟨here, rfl⟩ | before
  · exact .inr ⟨here, rfl, writes.effect.resolve_left fun none => none.1 state⟩
  · exact .inl before

theorem Writes.deliveredOf (tenantId aggregateId : String) (row : OutboxRow) :
    DeliveredOf after tenantId aggregateId row ↔ DeliveredOf store tenantId aggregateId row ∨
      (row = new ∧ new.state = .delivered ∧ new.tenantId = tenantId ∧
        new.aggregateId = aggregateId) := by
  constructor
  · rintro ⟨found, state, about⟩
    rcases writes.delivered found state with ⟨-, before⟩ | ⟨-, rfl, -⟩
    · exact .inl ⟨before, state, about⟩
    · exact .inr ⟨rfl, state, about⟩
  · rintro (⟨found, state, about⟩ | ⟨rfl, state, about⟩)
    · exact ⟨writes.kept found state, state, about⟩
    · exact ⟨by rw [writes.outbox, writes.id, if_pos rfl], state, about⟩

end Writes

/-- The head of an aggregate after a delivery. -/
theorem Delivers.heads (delivers : Delivers digest codec store new after)
    {tenantId aggregateId : String} (newest : HeadNewest store tenantId aggregateId)
    (gained : ∀ row, DeliveredOf after tenantId aggregateId row ↔
      DeliveredOf store tenantId aggregateId row ∨
        (row = new ∧ new.state = .delivered ∧ new.tenantId = tenantId ∧
          new.aggregateId = aggregateId)) : HeadNewest after tenantId aggregateId := by
  obtain ⟨head, heads, moved⟩ := delivers.head
  unfold HeadNewest at newest ⊢
  rw [heads]
  simp only [gained]
  by_cases here : (tenantId, aggregateId) = (new.tenantId, new.aggregateId)
  · obtain ⟨rfl, rfl⟩ := Prod.mk.inj here
    rw [if_pos rfl]
    rcases moved with ⟨version, sha, payload, above⟩ | ⟨present, above⟩
    · refine ⟨new, .inr ⟨rfl, delivers.state, rfl, rfl⟩, version, sha, payload, ?_⟩
      rintro other (before | ⟨rfl, -⟩)
      · cases present : store.notifications.find? (new.tenantId, new.aggregateId) with
        | none =>
          simp only [present] at newest
          exact absurd before (newest other)
        | some old =>
          simp only [present] at newest
          obtain ⟨top, -, topVersion, -, -, most⟩ := newest
          have bound := most other before
          have strict := above old present
          omega
      · exact Nat.le_refl _
    · simp only [present] at newest
      obtain ⟨top, topDelivered, version, sha, payload, most⟩ := newest
      refine ⟨top, .inl topDelivered, version, sha, payload, ?_⟩
      rintro other (before | ⟨rfl, -⟩)
      · exact most other before
      · omega
  · have elsewhere : ∀ row, ¬(row = new ∧ new.state = .delivered ∧ new.tenantId = tenantId ∧
        new.aggregateId = aggregateId) := by
      rintro row ⟨-, -, tenant, aggregate⟩
      exact here (by rw [tenant, aggregate])
    rw [if_neg here]
    simpa only [elsewhere, or_false] using newest

theorem Writes.coherent (writes : Writes digest codec store change new after)
    (coherent : Coherent digest codec store) : Coherent digest codec after := by
  constructor
  case positive =>
    intro id row found
    rcases writes.found found with ⟨-, rfl⟩ | ⟨-, before⟩
    · exact writes.positive
    · exact coherent.positive id row before
  case versions =>
    intro id id' row row' found found' tenant aggregate version
    rcases writes.found found with ⟨here, rfl⟩ | ⟨other, before⟩
    · rcases writes.found found' with ⟨here', -⟩ | ⟨other, before⟩
      · exact here.trans here'.symm
      · exact absurd version.symm (writes.sole id' row' other before tenant.symm aggregate.symm)
    · rcases writes.found found' with ⟨-, rfl⟩ | ⟨-, before'⟩
      · exact absurd version (writes.sole id row other before tenant aggregate)
      · exact coherent.versions id id' row row' before before' tenant aggregate version
  case counters =>
    intro id row found
    rcases writes.found found with ⟨-, rfl⟩ | ⟨-, before⟩
    · exact writes.counters
    · exact coherent.counters id row before
  case decoded =>
    intro id row found state
    rcases writes.delivered found state with ⟨-, before⟩ | ⟨-, rfl, delivers⟩
    · exact coherent.decoded id row before state
    · exact delivers.decoded
  case recorded =>
    intro id row found state
    rcases writes.delivered found state with ⟨other, before⟩ | ⟨rfl, rfl, delivers⟩
    · obtain ⟨entry, listed, same⟩ := coherent.recorded id row before state
      rcases writes.effect with ⟨-, inbox, -⟩ | delivers
      · exact ⟨entry, inbox ▸ listed, same⟩
      · obtain ⟨_, -, entries⟩ := delivers.entry
        refine ⟨entry, ?_, same⟩
        rw [entries, writes.id, if_neg (by simpa using other)]
        exact listed
    · obtain ⟨entry, same, entries⟩ := delivers.entry
      exact ⟨entry, by rw [entries, writes.id, if_pos rfl], same⟩
  case received =>
    intro k entry found
    have old (before : store.inbox.find? k = some entry) : k.1 = subscriptionConsumer ∧
        ∃ row, after.outbox.find? k.2 = some row ∧ row.state = .delivered := by
      obtain ⟨consumer, row, stored, state⟩ := coherent.received k entry before
      exact ⟨consumer, row, writes.kept stored state, state⟩
    rcases writes.effect with ⟨-, inbox, -⟩ | delivers
    · exact old (inbox ▸ found)
    · obtain ⟨_, -, entries⟩ := delivers.entry
      rw [entries, writes.id] at found
      split at found
      · rename_i here
        subst here
        exact ⟨rfl, new, by rw [writes.outbox, if_pos rfl], delivers.state⟩
      · exact old found
  case heads =>
    intro tenantId aggregateId
    have gained := writes.deliveredOf tenantId aggregateId
    rcases writes.effect with ⟨still, -, notifications⟩ | delivers
    · apply (coherent.heads tenantId aggregateId).congr notifications
      simpa only [still, false_and, and_false, or_false] using gained
    · exact delivers.heads (coherent.heads tenantId aggregateId) gained

end Written

/-- What a decoded row says of its event. -/
theorem eventFromRow_ok (decoded : eventFromRow digest codec row = .ok e) :
    codec.decode row.payload = some e ∧ e.tenantId = row.tenantId ∧
      e.aggregateId = row.aggregateId ∧ e.aggregateVersion = row.aggregateVersion ∧
      e.hash = row.payloadSha256 := by
  simp only [eventFromRow, bind_ok, require_ok, found_ok, pure_ok] at decoded
  obtain ⟨_, read, -, -, -, ⟨-, tenant, aggregate, version, -, hash, -⟩, rfl⟩ := decoded
  exact ⟨read, tenant, aggregate, version, hash⟩

/-- Everything that a successful `Deliver` does to a row that is not delivered yet
and has no inbox entry. -/
theorem deliverRow_ok (undelivered : row.state ≠ .delivered)
    (unseen : store.inbox.find? (subscriptionConsumer, row.eventId) = none)
    (delivered : store.deliverRow digest codec column row locked now = .ok (after, receipt)) :
    ∃ e outcome inbox, eventFromRow digest codec row = .ok e ∧
      classifyDelivery digest e "" (store.head column e locked).aggregateVersion
        (store.head column e locked).payloadSha256 = .ok outcome ∧
      store.inbox.insert?
        ⟨subscriptionConsumer, row.eventId, e.hash, outcome, column now⟩ = some inbox ∧
      after.outbox = store.outbox.update row.eventId (OutboxRow.done column now)
        (OutboxRow.done_eventId column now) ∧
      after.inbox = inbox ∧
      after.notifications =
        (let notifications := (store.notifications.insert? (store.head column e locked)).getD
          store.notifications
        if outcome = .applied then
          notifications.update (e.tenantId, e.aggregateId)
            (fun head => head.advanced column e row.payload now)
            (NotificationRow.advanced_key column e row.payload now)
        else notifications) := by
  simp only [Store.deliverRow, bind_ok, if_neg undelivered, require_ok, unseen, Option.map_none,
    Option.getD_none, found_ok, pure_ok, Prod.mk.injEq] at delivered
  obtain ⟨e, decoded, -, -, -, -, outcome, classified, inbox, inserted, rfl, -⟩ := delivered
  exact ⟨e, outcome, inbox, decoded, classified, inserted, rfl, rfl, rfl⟩

/-- Without an inbox entry an event is stale below the head, a duplicate at it and
applied above it. -/
theorem classifyDelivery_fresh {version : Nat} {hash : String} {outcome : Result}
    (classified : classifyDelivery digest e "" version hash = .ok outcome) :
    (e.aggregateVersion < version ∧ outcome = .stale) ∨ e.aggregateVersion = version ∨
      (version < e.aggregateVersion ∧ outcome = .applied) := by
  simp only [classifyDelivery, bind_ok, require_ok, ne_eq, not_true_eq_false, if_false]
    at classified
  obtain ⟨-, -, classified⟩ := classified
  split at classified
  · rename_i below
    simp only [pure_ok] at classified
    exact .inl ⟨below, classified.symm⟩
  · split at classified
    · rename_i same
      exact .inr (.inl same)
    · simp only [pure_ok] at classified
      exact .inr (.inr ⟨by omega, classified.symm⟩)

/-- What `Deliver` finds as the head of the row's aggregate. -/
theorem head_cases (column : Instant → Instant) (store : Store) (e : Event) (locked : Instant) :
    (∃ head, store.notifications.find? (e.tenantId, e.aggregateId) = some head ∧
      store.head column e locked = head ∧
      (store.notifications.insert? (store.head column e locked)).getD store.notifications =
        store.notifications) ∨
    (store.notifications.find? (e.tenantId, e.aggregateId) = none ∧
      (store.head column e locked).aggregateVersion = 0 ∧
      ∀ k, ((store.notifications.insert? (store.head column e locked)).getD
        store.notifications).find? k =
          if k = (e.tenantId, e.aggregateId) then some (store.head column e locked)
          else store.notifications.find? k) := by
  cases present : store.notifications.find? (e.tenantId, e.aggregateId) with
  | some head =>
    have same : store.head column e locked = head := by simp [Store.head, present]
    refine .inl ⟨head, rfl, same, ?_⟩
    rw [same]
    cases inserted : store.notifications.insert? head with
    | none => rfl
    | some table =>
      have free := (Table.insert?_eq_some inserted).1
      rw [Table.key_of_find? present, present] at free
      cases free
  | none =>
    have key : (store.head column e locked).key = (e.tenantId, e.aggregateId) := by
      simp [Store.head, present, NotificationRow.key]
    refine .inr ⟨rfl, by simp [Store.head, present], fun k => ?_⟩
    cases inserted : store.notifications.insert? (store.head column e locked) with
    | none =>
      obtain ⟨_, taken⟩ := Table.insert?_eq_none inserted
      rw [key, present] at taken
      cases taken
    | some table =>
      rw [Option.getD_some, Table.find?_of_insert? inserted, key]

theorem advanced_above {head : NotificationRow} {payload : String}
    (above : head.aggregateVersion < e.aggregateVersion) :
    (head.advanced column e payload now).aggregateVersion = e.aggregateVersion ∧
      (head.advanced column e payload now).payloadSha256 = e.hash ∧
      (head.advanced column e payload now).payload = payload := by
  simp [NotificationRow.advanced, above]

section Undelivered

variable (coherent : Coherent digest codec store)
  (stored : store.outbox.find? row.eventId = some row) (undelivered : row.state ≠ .delivered)

include coherent stored undelivered

/-- An event that is not delivered has no inbox entry. -/
theorem Coherent.unseen : store.inbox.find? (subscriptionConsumer, row.eventId) = none := by
  cases found : store.inbox.find? (subscriptionConsumer, row.eventId) with
  | none => rfl
  | some entry =>
    obtain ⟨-, _, stored', state⟩ := coherent.received _ entry found
    rw [stored, Option.some.injEq] at stored'
    exact absurd (stored' ▸ state) undelivered

/-- A change of an undelivered row that keeps what it is about. -/
theorem writes_touch (change : Change) (about : change.id = row.eventId)
    (turn : OutboxRow → OutboxRow) (keeps : ∀ row, (turn row).eventId = row.eventId)
    (tenant : (turn row).tenantId = row.tenantId)
    (aggregate : (turn row).aggregateId = row.aggregateId)
    (version : (turn row).aggregateVersion = row.aggregateVersion)
    (counters : (turn row).attempts ≤ 5 ∧ (turn row).leaseToken = (turn row).attempts)
    (counted : (turn row).attempts = row.attempts + if change = .lease row.eventId then 1 else 0)
    (outbox : after.outbox = store.outbox.update row.eventId turn keeps)
    (effect : ((turn row).state ≠ .delivered ∧ after.inbox = store.inbox ∧
      after.notifications = store.notifications) ∨ Delivers digest codec store (turn row) after) :
    Writes digest codec store change (turn row) after := by
  constructor
  case id => exact (keeps row).trans about.symm
  case outbox =>
    intro id
    rw [outbox, Table.find?_update, stored, Option.map_some, about]
  case undelivered =>
    intro old found
    rw [about, stored] at found
    exact Option.some.inj found ▸ undelivered
  case positive => exact version ▸ coherent.positive _ row stored
  case sole =>
    intro id other elsewhere found sameTenant sameAggregate sameVersion
    rw [about] at elsewhere
    exact elsewhere (coherent.versions id _ other row found stored (sameTenant.trans tenant)
      (sameAggregate.trans aggregate) (sameVersion.trans version))
  case counters => exact counters
  case counted => rw [counted, about, Store.attempts, stored]; rfl
  case effect => exact effect

variable (delivered : store.deliverRow digest codec column row locked now = .ok (after, receipt))

include delivered

/-- The rows after a delivery. Proof: the head of the aggregate cannot be at the
version of the row, because it would then be the head of a delivered row with the
same version, which is the row itself. Below it the row is applied; above it the
head stays. -/
theorem Coherent.delivers : Delivers digest codec store (row.done column now) after := by
  obtain ⟨e, outcome, inbox, decoded, classified, entered, -, received, notifications⟩ :=
    deliverRow_ok undelivered (coherent.unseen stored undelivered) delivered
  obtain ⟨-, tenant, aggregate, version, hash⟩ := eventFromRow_ok decoded
  refine ⟨rfl, ⟨e, decoded⟩, ⟨_, hash, received ▸ Table.find?_of_insert? entered⟩, ?_⟩
  simp only [OutboxRow.done, ← tenant, ← aggregate, ← version, ← hash]
  have positive : e.aggregateVersion ≠ 0 := by
    rw [version]; exact coherent.positive _ row stored
  rcases head_cases column store e locked with
    ⟨head, present, same, kept⟩ | ⟨absent, zero, inserted⟩
  · -- The aggregate has a head, the newest of its delivered rows.
    have newest := coherent.heads e.tenantId e.aggregateId
    simp only [HeadNewest, present] at newest
    obtain ⟨top, ⟨topStored, topState, topTenant, topAggregate⟩, topVersion, -⟩ := newest
    have other : e.aggregateVersion ≠ head.aggregateVersion := by
      intro equal
      have here := coherent.versions _ _ top row topStored stored (topTenant.trans tenant)
        (topAggregate.trans aggregate) (topVersion.symm.trans (equal.symm.trans version))
      rw [here, stored, Option.some.injEq] at topStored
      exact undelivered (topStored ▸ topState)
    rw [same] at classified
    rcases classifyDelivery_fresh classified with ⟨below, rfl⟩ | equal | ⟨above, rfl⟩
    · refine ⟨head, fun k => ?_, .inr ⟨present, below⟩⟩
      simp only [notifications, kept, reduceCtorEq, if_false]
      split
      · rename_i here
        rw [here, present]
      · rfl
    · exact absurd equal other
    · obtain ⟨version, sha, payload⟩ := advanced_above above
      refine ⟨head.advanced column e row.payload now, fun k => ?_, .inl ⟨version, sha, payload, ?_⟩⟩
      · simp only [notifications, kept, if_true, Table.find?_update, present, Option.map_some]
      · intro old found
        rw [present, Option.some.injEq] at found
        exact found ▸ above
  · -- The aggregate has no head, so the inserted one is empty.
    rw [zero] at classified
    rcases classifyDelivery_fresh classified with ⟨below, -⟩ | equal | ⟨above, rfl⟩
    · omega
    · exact absurd equal positive
    · obtain ⟨version, sha, payload⟩ := advanced_above (zero ▸ above)
      refine ⟨(store.head column e locked).advanced column e row.payload now, fun k => ?_,
        .inl ⟨version, sha, payload, ?_⟩⟩
      · simp only [notifications, if_true, Table.find?_update, inserted, Option.map_some]
        split <;> rfl
      · intro old found
        rw [absent] at found
        cases found

theorem writes_deliver : Writes digest codec store (.deliver row.eventId)
    (row.done column now) after := by
  obtain ⟨_, _, _, -, -, -, outbox, -⟩ :=
    deliverRow_ok undelivered (coherent.unseen stored undelivered) delivered
  exact writes_touch coherent stored undelivered _ rfl _ (OutboxRow.done_eventId column now) rfl
    rfl rfl (coherent.counters _ row stored) (by simp [OutboxRow.done]) outbox
    (.inr (coherent.delivers stored undelivered delivered))

end Undelivered

theorem undelivered_of_due (due : row.due now = true) : row.state ≠ .delivered := by
  intro state
  simp [OutboxRow.due, state] at due

/-- What a claim makes of the counters of its row. -/
theorem claimRow_counters {changed : OutboxRow} {owner : String} {lease : Duration}
    (bounded : row.attempts ≤ 5 ∧ row.leaseToken = row.attempts)
    (claimed : claimRow column row owner now lease = .ok changed) :
    changed.eventId = row.eventId ∧ changed.state ≠ .delivered ∧ changed.attempts ≤ 5 ∧
      changed.leaseToken = changed.attempts ∧
      ((changed.claimChange = .bury row.eventId ∧ changed.attempts = row.attempts) ∨
        (changed.claimChange = .lease row.eventId ∧ changed.attempts = row.attempts + 1)) := by
  rcases claimRow_ok claimed with ⟨spent, rfl⟩ | ⟨allowed, rfl⟩
  · exact ⟨rfl, by simp, bounded.1, bounded.2, .inl ⟨rfl, rfl⟩⟩
  · have attempts : increment32 row.attempts = row.attempts + 1 :=
      Nat.mod_eq_of_lt (by omega)
    have token : increment64 row.leaseToken = row.attempts + 1 := by
      rw [bounded.2]
      exact Nat.mod_eq_of_lt (by omega)
    exact ⟨rfl, by simp, by simp only [attempts]; omega, by simp only [attempts, token],
      .inr ⟨rfl, attempts⟩⟩

theorem failed_of_delivered (column : Instant → Instant) (state : row.state = .delivered)
    (now : Instant) (code : String) : row.failed column now code = row := by
  simp [OutboxRow.failed, state]

theorem deliverRow_again (state : row.state = .delivered)
    (delivered : store.deliverRow digest codec column row locked now = .ok (after, receipt)) :
    after = store := by
  simp only [Store.deliverRow, bind_ok, if_pos state, require_ok, pure_ok,
    Prod.mk.injEq] at delivered
  obtain ⟨e, -, -, -, rfl, -⟩ := delivered
  rfl

theorem claimChange_id (changed : OutboxRow) : changed.claimChange.id = changed.eventId := by
  unfold OutboxRow.claimChange
  split <;> rfl

theorem writes_append (appended : store.append digest codec column e = .ok after) :
    ∃ new, Writes digest codec store (.append e.id) new after := by
  obtain ⟨intact, fresh, payload, outbox, encoded, inserted, rfl⟩ := append_ok appended
  have absent := (Table.insert?_eq_some inserted).1
  refine ⟨_, rfl, Table.find?_of_insert? inserted, ?_, ?_, ?_, ⟨Nat.zero_le 5, rfl⟩, ?_,
    .inl ⟨nofun, rfl, rfl⟩⟩
  · intro old found
    cases absent.symm.trans found
  · unfold Event.integrity at intact
    dsimp only at intact
    split at intact
    · cases intact
    · rename_i sound
      simp only [not_or] at sound
      exact sound.2.2.1
  · intro id other _ found tenant aggregate version
    exact fresh other (Table.find?_eq_some.mp found).1 ⟨tenant, aggregate, version⟩
  · change 0 = ((store.outbox.find? e.id).map OutboxRow.attempts).getD 0 + _
    rw [show store.outbox.find? e.id = none from absent]
    rfl

section Commits

variable {change : Change} {id : String} (commit : Commit digest codec column store change after)
  (held : Coherent digest codec store)

include commit held

/-- Step lemma: what every commit does. -/
theorem Commit.effect : Effect digest codec store change after := by
  cases commit with
  | append e appended =>
    obtain ⟨new, writes⟩ := writes_append appended
    exact .writes new writes
  | claim row changed owner now lease stored due claimed =>
    obtain ⟨same, state, attempts, token, counted⟩ :=
      claimRow_counters (held.counters _ row stored) claimed
    refine .writes _ (writes_touch held stored (undelivered_of_due due) _
      ((claimChange_id changed).trans same) changed.claimed changed.claimed_eventId rfl rfl rfl
      ⟨attempts, token⟩ ?_ rfl (.inl ⟨state, rfl, rfl⟩))
    rcases counted with ⟨kind, attempts⟩ | ⟨kind, attempts⟩ <;>
      simp [OutboxRow.claimed, kind, attempts]
  | deliver row locked now receipt stored admitted delivered =>
    by_cases state : row.state = .delivered
    · rw [deliverRow_again state delivered]
      exact .idle (fun _ => rfl) rfl rfl fun _ => nofun
    · exact .writes _ (writes_deliver held stored state delivered)
  | fail row now code stored admitted =>
    by_cases state : row.state = .delivered
    · exact .idle (Table.find?_update_of_fixed (OutboxRow.failed_eventId column now code) stored
        (failed_of_delivered column state now code)) rfl rfl fun _ => nofun
    · refine .writes _ (writes_touch held stored state _ rfl _
        (OutboxRow.failed_eventId column now code) ?_ ?_ ?_ ?_ ?_ rfl (.inl ⟨?_, rfl, rfl⟩))
      all_goals rw [OutboxRow.failed, if_neg state]
      · exact held.counters _ row stored
      · simp
      · split <;> simp

/-- Step lemma: every commit keeps the invariant. -/
theorem Commit.coherent : Coherent digest codec after := by
  cases commit.effect held with
  | writes new writes => exact writes.coherent held
  | idle outbox inbox notifications unleased =>
    refine ⟨?_, ?_, ?_, ?_, ?_, ?_, fun tenantId aggregateId =>
      (held.heads tenantId aggregateId).congr notifications fun row => by
        simp only [DeliveredOf, outbox]⟩ <;> simp only [outbox, inbox]
    · exact held.positive
    · exact held.versions
    · exact held.counters
    · exact held.decoded
    · exact held.recorded
    · exact held.received

/-- Step lemma: a commit changes the row of its event only. -/
theorem Commit.find?_of_ne (other : id ≠ change.id) :
    after.outbox.find? id = store.outbox.find? id := by
  cases commit.effect held with
  | writes new writes => rw [writes.outbox, if_neg other]
  | idle outbox => exact outbox id

/-- Step lemma: a lease counts one attempt of its event, every other commit none. -/
theorem Commit.attempts (id : String) :
    after.attempts id = store.attempts id + if change = .lease id then 1 else 0 := by
  cases commit.effect held with
  | writes new writes =>
    rw [Store.attempts, writes.outbox]
    split
    · rename_i here
      exact here ▸ writes.counted
    · rename_i other
      have unleased : change ≠ .lease id := fun same => other (by rw [same]; rfl)
      rw [if_neg unleased]
      rfl
  | idle outbox _ _ unleased => rw [Store.attempts, outbox, if_neg (unleased id)]; rfl

/-- Step lemma: no commit changes a delivered row. -/
theorem Commit.delivered_fixed (found : store.outbox.find? id = some row)
    (state : row.state = .delivered) : after.outbox.find? id = some row := by
  cases commit.effect held with
  | writes new writes => exact writes.kept found state
  | idle outbox => exact (outbox id).trans found

/-- Step lemma: no commit removes a head or lowers its version. -/
theorem Commit.head_grows {k : String × String} {head : NotificationRow}
    (found : store.notifications.find? k = some head) :
    ∃ next, after.notifications.find? k = some next ∧
      head.aggregateVersion ≤ next.aggregateVersion := by
  have kept (same : after.notifications = store.notifications) :
      ∃ next, after.notifications.find? k = some next ∧
        head.aggregateVersion ≤ next.aggregateVersion :=
    ⟨head, same ▸ found, Nat.le_refl _⟩
  cases commit.effect held with
  | idle _ _ notifications => exact kept notifications
  | writes new writes =>
    rcases writes.effect with ⟨-, -, notifications⟩ | delivers
    · exact kept notifications
    · obtain ⟨next, heads, moved⟩ := delivers.head
      rw [heads]
      split
      · rename_i here
        subst here
        refine ⟨next, rfl, ?_⟩
        rcases moved with ⟨version, -, -, above⟩ | ⟨present, -⟩
        · have strict := above head found
          omega
        · rw [found, Option.some.injEq] at present
          exact Nat.le_of_eq (congrArg _ present)
      · exact ⟨head, found, Nat.le_refl _⟩

end Commits

/-- Run lemma: the invariant holds after any commits from empty tables, and every
event has been leased as often as its row has counted. -/
theorem coherent_of_commits {changes : List Change}
    (run : Run (Commit digest codec column) Store.empty changes store) :
    Coherent digest codec store ∧ ∀ id, changes.count (.lease id) = store.attempts id := by
  refine run.history (fun past store => Coherent digest codec store ∧
    ∀ id, past.count (.lease id) = store.attempts id) ?_ ⟨Coherent.empty, fun id => rfl⟩
  rintro past before change after ⟨coherent, counted⟩ commit
  refine ⟨commit.coherent coherent, fun id => ?_⟩
  rw [commit.attempts coherent, List.count_append, counted, List.count_singleton]
  simp

/-- Run lemma: what is delivered stays, and heads only grow. -/
theorem commits_progress {changes : List Change}
    (run : Run (Commit digest codec column) store changes after)
    (coherent : Coherent digest codec store) :
    (∀ id row, store.outbox.find? id = some row → row.state = .delivered →
      after.outbox.find? id = some row) ∧
    ∀ k head, store.notifications.find? k = some head →
      ∃ next, after.notifications.find? k = some next ∧
        head.aggregateVersion ≤ next.aggregateVersion := by
  induction run with
  | done state => exact ⟨fun _ _ found _ => found, fun _ head found => ⟨head, found, Nat.le_refl _⟩⟩
  | step commit rest ih =>
    obtain ⟨fixed, grows⟩ := ih (commit.coherent coherent)
    refine ⟨fun id row found state => ?_, fun k head found => ?_⟩
    · exact fixed id row (commit.delivered_fixed coherent found state) state
    · obtain ⟨next, present, more⟩ := commit.head_grows coherent found
      obtain ⟨last, kept, most⟩ := grows k next present
      exact ⟨last, kept, Nat.le_trans more most⟩

end Biz.Outbox
