import Biz.Outbox.Commits

/-!
# Interleaved workers on the outbox

Any number of transactions of `Claim`, `Deliver` and `Fail` are open at a time.
Each first locks the outbox row it acts on, as its locking read does, and keeps
the row it has read until it commits or rolls back; a claim skips rows that
others hold, a delivery or failure of a held row waits. Owners, tokens, lease
lengths and clock readings are arbitrary, and appends come in between.

The inbox entry and the projection head are read at the commit of a delivery:
the entry belongs to the locked event, and the head stays locked from its read
to the commit. The refinement theorem says that every interleaving commits a
sequence of single transactions.
-/

namespace Biz.Outbox

open Time Text Checks Provisioning Runs

/-- The call that an open transaction serves, with its clock reading at the lock. -/
inductive Job
  | claim (owner : String) (now : Instant) (lease : Duration)
  | deliver (owner : String) (token : Nat) (locked : Instant)
  | fail (owner : String) (token : Nat) (code : String) (now : Instant)

/-- An open transaction and the row it holds. -/
structure Session where
  job : Job
  row : OutboxRow

/-- The committed tables and the open transactions. -/
structure System where
  store : Store
  sessions : List Session

def System.empty : System := ⟨.empty, []⟩

/-- The rows that open transactions hold. -/
def held (sessions : List Session) : List String := sessions.map fun session => session.row.eventId

section Steps

variable (digest : EventDigest → String) (codec : Codec Event) (column : Instant → Instant)

/-- One step of the system; a step that commits is labelled with the change. -/
inductive Step : System → Option Change → System → Prop
  | append {store after : Store} {sessions : List Session} (e : Event)
      (appended : store.append digest codec column e = .ok after) :
      Step ⟨store, sessions⟩ (some (.append e.id)) ⟨after, sessions⟩
  | select {store : Store} {sessions : List Session} (row : OutboxRow) (owner : String)
      (now : Instant) (lease : Duration)
      (admitted : key owner = true ∧ 5 * second ≤ lease ∧ lease ≤ 5 * minute)
      (selected : store.select (held sessions) now = some row) :
      Step ⟨store, sessions⟩ none ⟨store, ⟨.claim owner now lease, row⟩ :: sessions⟩
  | lock {store : Store} {sessions : List Session} (row : OutboxRow) (id owner : String)
      (token : Nat) (now : Instant) (free : id ∉ held sessions)
      (locked : store.locked id owner token now = .ok row) :
      Step ⟨store, sessions⟩ none ⟨store, ⟨.deliver owner token now, row⟩ :: sessions⟩
  | lockFail {store : Store} {sessions : List Session} (row : OutboxRow) (id owner : String)
      (token : Nat) (code : String) (now : Instant) (named : key code = true)
      (free : id ∉ held sessions) (locked : store.locked id owner token now = .ok row) :
      Step ⟨store, sessions⟩ none ⟨store, ⟨.fail owner token code now, row⟩ :: sessions⟩
  | claim {store : Store} {early late : List Session} (row changed : OutboxRow) (owner : String)
      (now : Instant) (lease : Duration)
      (claimed : claimRow column row owner now lease = .ok changed) :
      Step ⟨store, early ++ ⟨.claim owner now lease, row⟩ :: late⟩ (some changed.claimChange)
        ⟨{ store with outbox := store.outbox.update row.eventId changed.claimed
                        changed.claimed_eventId }, early ++ late⟩
  | deliver {store after : Store} {early late : List Session} (row : OutboxRow) (owner : String)
      (token : Nat) (locked now : Instant) (receipt : DeliveryReceipt)
      (delivered : store.deliverRow digest codec column row locked now = .ok (after, receipt)) :
      Step ⟨store, early ++ ⟨.deliver owner token locked, row⟩ :: late⟩
        (some (.deliver row.eventId)) ⟨after, early ++ late⟩
  | fail {store : Store} {early late : List Session} (row : OutboxRow) (owner : String)
      (token : Nat) (code : String) (now : Instant) :
      Step ⟨store, early ++ ⟨.fail owner token code now, row⟩ :: late⟩
        (some (.fail row.eventId))
        ⟨{ store with outbox := store.outbox.update row.eventId (OutboxRow.failed column now code)
                        (OutboxRow.failed_eventId column now code) }, early ++ late⟩
  | rollback {store : Store} {early late : List Session} (session : Session) :
      Step ⟨store, early ++ session :: late⟩ none ⟨store, early ++ late⟩

end Steps

/-- What the lock of a transaction guarantees of its row. -/
def Session.admitted (session : Session) : Prop :=
  match session.job with
  | .claim _ now _ => session.row.due now = true
  | .deliver _ _ _ | .fail _ _ _ _ =>
    session.row.state = .delivered ∨ session.row.state = .leased

/-- Open transactions hold distinct rows, and each row is still as it was read. -/
structure Synced (system : System) : Prop where
  distinct : (held system.sessions).Nodup
  current : ∀ session ∈ system.sessions,
    system.store.outbox.find? session.row.eventId = some session.row
  admitted : ∀ session ∈ system.sessions, session.admitted

variable {digest : EventDigest → String} {codec : Codec Event} {column : Instant → Instant}
  {store : Store}

theorem select_some {taken : List String} {now : Instant} {row : OutboxRow}
    (selected : store.select taken now = some row) :
    store.outbox.find? row.eventId = some row ∧ row.due now = true ∧ row.eventId ∉ taken := by
  have member := List.mem_of_mem_head? selected
  rw [List.mem_insertionSort, List.mem_filter, Bool.and_eq_true, decide_eq_true_eq] at member
  exact ⟨Table.find?_eq_some.mpr ⟨member.1, rfl⟩, member.2⟩

theorem locked_ok {id owner : String} {token : Nat} {now : Instant} {row : OutboxRow}
    (locked : store.locked id owner token now = .ok row) :
    store.outbox.find? id = some row ∧ (row.state = .delivered ∨ row.state = .leased) := by
  simp only [Store.locked, bind_ok, found_ok, require_ok] at locked
  obtain ⟨found, stored, -, -, locked⟩ := locked
  split at locked
  · rename_i state
    simp only [pure_ok] at locked
    subst locked
    exact ⟨stored, .inl state⟩
  · simp only [bind_ok, require_ok, pure_ok] at locked
    obtain ⟨-, ⟨state, -⟩, rfl⟩ := locked
    exact ⟨stored, .inr state⟩

/-- A transaction that locks a free row. -/
theorem Synced.begin_ {sessions : List Session} {session : Session}
    (synced : Synced ⟨store, sessions⟩) (free : session.row.eventId ∉ held sessions)
    (current : store.outbox.find? session.row.eventId = some session.row)
    (admitted : session.admitted) : Synced ⟨store, session :: sessions⟩ where
  distinct := List.nodup_cons.mpr ⟨free, synced.distinct⟩
  current := List.forall_mem_cons.mpr ⟨current, synced.current⟩
  admitted := List.forall_mem_cons.mpr ⟨admitted, synced.admitted⟩

/-- Without one of its transactions a system stays synced, and that transaction's
row is held by no other. -/
theorem Synced.end_ {early late : List Session} {session : Session}
    (synced : Synced ⟨store, early ++ session :: late⟩) :
    Synced ⟨store, early ++ late⟩ ∧
      (∀ other ∈ early ++ late, other.row.eventId ≠ session.row.eventId) ∧
      store.outbox.find? session.row.eventId = some session.row ∧ session.admitted := by
  have keep := ((List.sublist_cons_self session late).append_left early).subset
  have here : session ∈ early ++ session :: late := by simp
  have distinct : (session.row.eventId :: held (early ++ late)).Nodup := by
    have all := synced.distinct
    simp only [held, List.map_append, List.map_cons] at all ⊢
    exact List.nodup_middle.mp all
  obtain ⟨absent, rest⟩ := List.nodup_cons.mp distinct
  refine ⟨⟨rest, fun other member => synced.current other (keep member),
    fun other member => synced.admitted other (keep member)⟩, ?_,
    synced.current session here, synced.admitted session here⟩
  intro other member same
  exact absent (List.mem_map.mpr ⟨other, member, same⟩)

/-- A commit about an event that no open transaction holds keeps the system synced. -/
theorem Synced.commit {after : Store} {sessions : List Session} {change : Change}
    (synced : Synced ⟨store, sessions⟩) (coherent : Coherent digest codec store)
    (commit : Commit digest codec column store change after)
    (other : ∀ session ∈ sessions, session.row.eventId ≠ change.id) : Synced ⟨after, sessions⟩ := by
  refine ⟨synced.distinct, fun session member => ?_, synced.admitted⟩
  exact (commit.find?_of_ne coherent (other session member)).trans (synced.current session member)

/-- Step lemma: a step keeps the system synced, and what it commits is one
transaction on the tables as they are. -/
theorem Step.refines {system next : System} {label : Option Change}
    (step : Step digest codec column system label next) (synced : Synced system)
    (coherent : Coherent digest codec system.store) :
    Synced next ∧
      match label with
      | none => next.store = system.store
      | some change => Commit digest codec column system.store change next.store := by
  cases step with
  | append e appended =>
    have commit : Commit digest codec column _ (.append e.id) _ := .append e appended
    refine ⟨synced.commit coherent commit fun session member same => ?_, commit⟩
    obtain ⟨-, -, _, _, -, inserted, -⟩ := append_ok appended
    have absent := (Table.insert?_eq_some inserted).1
    have current := synced.current session member
    rw [same] at current
    exact absurd (absent.symm.trans current) (by simp)
  | select row owner now lease admitted selected =>
    obtain ⟨stored, due, free⟩ := select_some selected
    exact ⟨synced.begin_ free stored due, rfl⟩
  | lock row id owner token now free locked =>
    obtain ⟨stored, state⟩ := locked_ok locked
    have same := Table.key_of_find? stored
    exact ⟨synced.begin_ (by rw [same]; exact free) (by rw [same]; exact stored) state, rfl⟩
  | lockFail row id owner token code now named free locked =>
    obtain ⟨stored, state⟩ := locked_ok locked
    have same := Table.key_of_find? stored
    exact ⟨synced.begin_ (by rw [same]; exact free) (by rw [same]; exact stored) state, rfl⟩
  | claim row changed owner now lease claimed =>
    obtain ⟨rest, others, stored, due⟩ := synced.end_
    have commit : Commit digest codec column _ changed.claimChange _ :=
      .claim row changed owner now lease stored due claimed
    have same := (claimRow_counters (coherent.counters _ row stored) claimed).1
    refine ⟨rest.commit coherent commit fun session member => ?_, commit⟩
    rw [claimChange_id, same]
    exact others session member
  | deliver row owner token locked now receipt delivered =>
    obtain ⟨rest, others, stored, state⟩ := synced.end_
    have commit : Commit digest codec column _ (.deliver row.eventId) _ :=
      .deliver row locked now receipt stored state delivered
    exact ⟨rest.commit coherent commit others, commit⟩
  | fail row owner token code now =>
    obtain ⟨rest, others, stored, state⟩ := synced.end_
    have commit : Commit digest codec column _ (.fail row.eventId) _ :=
      .fail row now code stored state
    exact ⟨rest.commit coherent commit others, commit⟩
  | rollback session => exact ⟨synced.end_.1, rfl⟩

/-- Refinement: the commits of an interleaved run are a run of single transactions. -/
theorem commits_of_run {system last : System} {labels : List (Option Change)}
    (run : Run (Step digest codec column) system labels last) (synced : Synced system)
    (coherent : Coherent digest codec system.store) :
    Run (Commit digest codec column) system.store (labels.filterMap id) last.store ∧
      Synced last := by
  induction run with
  | done state => exact ⟨.done _, synced⟩
  | @step first next last label labels taken rest ih =>
    obtain ⟨kept, committed⟩ := taken.refines synced coherent
    cases label with
    | none =>
      rw [List.filterMap_cons_none rfl, ← committed]
      exact ih kept (committed ▸ coherent)
    | some change =>
      obtain ⟨later, synced⟩ := ih kept (Commit.coherent committed coherent)
      exact ⟨.step committed later, synced⟩

theorem Synced.empty : Synced System.empty :=
  ⟨List.nodup_nil, fun _ member => absurd member List.not_mem_nil,
    fun _ member => absurd member List.not_mem_nil⟩

/-- Convergence of the projection over every interleaving: each head is the newest
delivered event of its aggregate, an event is in the inbox exactly once when it is
delivered and never otherwise, no event is leased more than five times, delivered
rows never change again and heads never decrease. -/
theorem projection_converges (labels : List (Option Change)) (system : System)
    (run : Run (Step digest codec column) System.empty labels system) :
    (∀ tenantId aggregateId head,
      system.store.notifications.find? (tenantId, aggregateId) = some head →
      ∃ row e, DeliveredOf system.store tenantId aggregateId row ∧
        eventFromRow digest codec row = .ok e ∧ codec.decode head.payload = some e ∧
        head.aggregateVersion = e.aggregateVersion ∧ head.payloadSha256 = e.hash ∧
        ∀ other, DeliveredOf system.store tenantId aggregateId other →
          other.aggregateVersion ≤ e.aggregateVersion) ∧
    (∀ tenantId aggregateId, system.store.notifications.find? (tenantId, aggregateId) = none →
      ∀ row, ¬ DeliveredOf system.store tenantId aggregateId row) ∧
    (∀ entry ∈ system.store.inbox.rows, ∀ other ∈ system.store.inbox.rows,
      entry.eventId = other.eventId → entry = other) ∧
    (∀ id, (∃ entry ∈ system.store.inbox.rows, entry.eventId = id) ↔
      ∃ row, system.store.outbox.find? id = some row ∧ row.state = .delivered) ∧
    (∀ id, (labels.filterMap (fun label => label)).count (.lease id) ≤ 5) ∧
    ∀ later last, Run (Step digest codec column) system later last →
      (∀ id row, system.store.outbox.find? id = some row → row.state = .delivered →
        last.store.outbox.find? id = some row) ∧
      ∀ k head, system.store.notifications.find? k = some head →
        ∃ next, last.store.notifications.find? k = some next ∧
          head.aggregateVersion ≤ next.aggregateVersion := by
  obtain ⟨commits, synced⟩ := commits_of_run run Synced.empty Coherent.empty
  obtain ⟨coherent, counted⟩ := coherent_of_commits commits
  have consumer : ∀ entry ∈ system.store.inbox.rows, entry.consumerId = subscriptionConsumer :=
    fun entry member =>
      (coherent.received entry.key entry (Table.find?_eq_some.mpr ⟨member, rfl⟩)).1
  refine ⟨?_, ?_, ?_, ?_, ?_, ?_⟩
  · intro tenantId aggregateId head found
    have newest := coherent.heads tenantId aggregateId
    simp only [HeadNewest, found] at newest
    obtain ⟨row, delivered, version, sha, payload, most⟩ := newest
    obtain ⟨e, decoded⟩ := coherent.decoded _ row delivered.1 delivered.2.1
    obtain ⟨read, -, -, same, hash⟩ := eventFromRow_ok decoded
    exact ⟨row, e, delivered, decoded, payload ▸ read, version.trans same.symm,
      sha.trans hash.symm, fun other listed => same ▸ most other listed⟩
  · intro tenantId aggregateId absent
    have newest := coherent.heads tenantId aggregateId
    simpa only [HeadNewest, absent] using newest
  · intro entry member other member' same
    have keys : entry.key = other.key := by
      simp [InboxRow.key, consumer entry member, consumer other member', same]
    have first := Table.find?_eq_some.mpr ⟨member, rfl⟩
    have second := Table.find?_eq_some.mpr ⟨member', rfl⟩
    rw [keys, second, Option.some.injEq] at first
    exact first.symm
  · intro id
    constructor
    · rintro ⟨entry, member, rfl⟩
      exact (coherent.received entry.key entry (Table.find?_eq_some.mpr ⟨member, rfl⟩)).2
    · rintro ⟨row, found, state⟩
      obtain ⟨entry, listed, -⟩ := coherent.recorded id row found state
      obtain ⟨member, key⟩ := Table.find?_eq_some.mp listed
      exact ⟨entry, member, congrArg Prod.snd key⟩
  · intro id
    refine Nat.le_trans (Nat.le_of_eq (counted id)) ?_
    unfold Store.attempts
    cases found : system.store.outbox.find? id with
    | none => exact Nat.zero_le _
    | some row => exact (coherent.counters id row found).1
  · intro later last following
    exact commits_progress (commits_of_run following synced coherent).1 coherent

/-- A digest of the right length that tells two versions apart. -/
def sampleDigest : EventDigest → String
  | .identity _ _ version => String.ofList (List.replicate 64 (if version = 1 then 'a' else 'b'))
  | .event e => String.ofList (List.replicate 64 (if e.aggregateVersion = 1 then 'a' else 'b'))

/-- An event of one subscription. -/
def sampleEvent (version : Nat) : Event :=
  ({ id := "", tenantId := "tenant-1", aggregateId := "sub-1", aggregateVersion := version,
     changeId := "chg-1", taskId := "", status := .applied, sourceVersion := 1,
     entitlementVersion := 1, occurredAt := 1000, hash := "" } : Event).seal sampleDigest

def sampleCodec : Codec Event := .ofList [sampleEvent 1, sampleEvent 2]

/-- The row that an event is appended as. -/
def sampleRow (version : Nat) (payload : String) : OutboxRow :=
  { eventId := (sampleEvent version).id, tenantId := "tenant-1", aggregateId := "sub-1",
    aggregateVersion := version, changeId := "chg-1", payloadSha256 := (sampleEvent version).hash,
    payload, state := .pending, attempts := 0, leaseOwner := "", leaseToken := 0,
    leaseUntil := none, nextAttemptAt := 1000, failureCode := "", occurredAt := 1000,
    deliveredAt := none }

/-- A row under the first lease of a worker. -/
def sampleLease (owner : String) (row : OutboxRow) : OutboxRow :=
  { row with state := .leased, attempts := 1, leaseOwner := owner, leaseToken := 1,
             leaseUntil := some (1000 + 10 * second) }

/-- Two events of one subscription, and a worker for each. -/
def older : OutboxRow := sampleRow 1 ""
def newer : OutboxRow := sampleRow 2 "|"
def olderLease : OutboxRow := sampleLease "one" older
def newerLease : OutboxRow := sampleLease "two" newer

def sampleAppended : Store := ⟨⟨[older, newer], by decide⟩, .empty, .empty⟩

def sampleLeased : Store := ⟨⟨[olderLease, newerLease], by decide⟩, .empty, .empty⟩

/-- The newer event is delivered. -/
def sampleAhead : Store :=
  ⟨⟨[olderLease, newerLease.done id 2000], by decide⟩,
    ⟨[⟨subscriptionConsumer, newer.eventId, newer.payloadSha256, .applied, 2000⟩], by decide⟩,
    ⟨[⟨"tenant-1", "sub-1", 2, newer.payloadSha256, "|", 2000⟩], by decide⟩⟩

/-- The older event is delivered after it, and is stale. -/
def sampleDelivered : Store :=
  ⟨⟨[olderLease.done id 3000, newerLease.done id 2000], by decide⟩,
    ⟨[⟨subscriptionConsumer, newer.eventId, newer.payloadSha256, .applied, 2000⟩,
      ⟨subscriptionConsumer, older.eventId, older.payloadSha256, .stale, 3000⟩], by decide⟩,
    sampleAhead.notifications⟩

/-- Both events are appended. -/
theorem sample_appends : Run (Step sampleDigest sampleCodec id) System.empty
    [some (.append older.eventId), some (.append newer.eventId)] ⟨sampleAppended, []⟩ := by
  have first : Step sampleDigest sampleCodec id System.empty (some (.append older.eventId))
      ⟨⟨⟨[older], by decide⟩, .empty, .empty⟩, []⟩ := .append (sampleEvent 1) rfl
  exact .step first (.step (.append (sampleEvent 2) rfl) (.done _))

/-- Two workers claim an event each and deliver them out of order. -/
theorem sample_delivers : Run (Step sampleDigest sampleCodec id) ⟨sampleAppended, []⟩
    [none, none, some (.lease older.eventId), some (.lease newer.eventId), none, none,
      some (.deliver newer.eventId), some (.deliver older.eventId)] ⟨sampleDelivered, []⟩ := by
  let first : Session := ⟨.claim "one" 1000 (10 * second), older⟩
  let next : Session := ⟨.claim "two" 1000 (10 * second), newer⟩
  have claimed : Step sampleDigest sampleCodec id ⟨sampleAppended, [next, first]⟩
      (some (.lease older.eventId)) ⟨⟨⟨[olderLease, newer], by decide⟩, .empty, .empty⟩, [next]⟩ :=
    @Step.claim _ _ _ _ [next] [] older olderLease "one" 1000 (10 * second) rfl
  have claimedNext : Step sampleDigest sampleCodec id
      ⟨⟨⟨[olderLease, newer], by decide⟩, .empty, .empty⟩, [next]⟩
      (some (.lease newer.eventId)) ⟨sampleLeased, []⟩ :=
    @Step.claim _ _ _ _ [] [] newer newerLease "two" 1000 (10 * second) rfl
  let slow : Session := ⟨.deliver "one" 1 1500, olderLease⟩
  let fast : Session := ⟨.deliver "two" 1 1500, newerLease⟩
  have delivered : Step sampleDigest sampleCodec id ⟨sampleLeased, [fast, slow]⟩
      (some (.deliver newer.eventId)) ⟨sampleAhead, [slow]⟩ :=
    @Step.deliver _ _ _ _ _ [] [slow] newerLease "two" 1 1500 2000 _ (by rfl)
  have deliveredLate : Step sampleDigest sampleCodec id ⟨sampleAhead, [slow]⟩
      (some (.deliver older.eventId)) ⟨sampleDelivered, []⟩ :=
    @Step.deliver _ _ _ _ _ [] [] olderLease "one" 1 1500 3000 _ (by rfl)
  exact .step (.select older "one" 1000 (10 * second) (by decide) (by rfl))
    (.step (.select newer "two" 1000 (10 * second) (by decide) (by rfl))
    (.step claimed (.step claimedNext
    (.step (.lock olderLease older.eventId "one" 1 1500 (by simp [held]) (by rfl))
    (.step (.lock newerLease newer.eventId "two" 1 1500 (by decide) (by rfl))
    (.step delivered (.step deliveredLate (.done _))))))))

/-- The head after the concrete run is the newer event, though the older one came last. -/
theorem projection_converges_sample :
    ∃ head, sampleDelivered.notifications.find? ("tenant-1", "sub-1") = some head ∧
      head.aggregateVersion = 2 ∧
      ∃ e, sampleCodec.decode head.payload = some e ∧
        head.aggregateVersion = e.aggregateVersion := by
  obtain ⟨heads, -⟩ := projection_converges _ _ (sample_appends.append sample_delivers)
  obtain ⟨_, e, -, -, read, version, -⟩ := heads "tenant-1" "sub-1" _ rfl
  exact ⟨_, rfl, rfl, e, read, version⟩

/-! ## Events that stay -/

/-- What the row of an event may become: the event stays, and a row that is dead or
delivered is final. -/
structure Becomes (row next : OutboxRow) : Prop where
  event : next = { row with
    state := next.state, attempts := next.attempts, leaseOwner := next.leaseOwner,
    leaseToken := next.leaseToken, leaseUntil := next.leaseUntil,
    nextAttemptAt := next.nextAttemptAt, failureCode := next.failureCode,
    deliveredAt := next.deliveredAt }
  final : row.state = .dead ∨ row.state = .delivered → next = row

theorem becomes_refl (row : OutboxRow) : Becomes row row := ⟨rfl, fun _ => rfl⟩

theorem Becomes.trans {first second third : OutboxRow} (early : Becomes first second)
    (late : Becomes second third) : Becomes first third where
  event := by rw [late.event, early.event]
  final ended := by
    obtain rfl := early.final ended
    exact late.final ended

variable {event : String} {row : OutboxRow}

/-- Step lemma: no commit takes a row away. -/
theorem Commit.becomes {store after : Store} {change : Change}
    (commit : Commit digest codec column store change after) (held : Coherent digest codec store)
    (found : store.outbox.find? event = some row) :
    ∃ next, after.outbox.find? event = some next ∧ Becomes row next := by
  have touched {other : OutboxRow} {f : OutboxRow → OutboxRow}
      (same : ∀ row, (f row).eventId = row.eventId)
      (stored : store.outbox.find? other.eventId = some other) (becomes : Becomes other (f other)) :
      ∃ next, (store.outbox.update other.eventId f same).find? event = some next ∧
        Becomes row next := by
    rw [Table.find?_update]
    split
    · rename_i here
      cases stored.symm.trans (here ▸ found)
      exact ⟨_, by rw [stored, Option.map_some], becomes⟩
    · exact ⟨row, found, becomes_refl row⟩
  cases commit with
  | append e appended =>
    obtain ⟨-, -, _, _, -, inserted, rfl⟩ := append_ok appended
    refine ⟨row, ?_, becomes_refl row⟩
    rw [Table.find?_of_insert? inserted, if_neg, found]
    rintro rfl
    cases (Table.insert?_eq_some inserted).1.symm.trans found
  | claim other changed owner now lease stored due claimed =>
    refine touched changed.claimed_eventId stored ⟨rfl, fun ended => ?_⟩
    rcases ended with state | state <;> simp [OutboxRow.due, state] at due
  | deliver other locked now receipt stored admitted delivered =>
    by_cases state : other.state = .delivered
    · rw [deliverRow_again state delivered]
      exact ⟨row, found, becomes_refl row⟩
    · obtain ⟨_, _, _, -, -, -, outbox, -⟩ :=
        deliverRow_ok state (held.unseen stored state) delivered
      rw [outbox]
      exact touched _ stored ⟨rfl, by simp [admitted.resolve_left state]⟩
  | fail other now code stored admitted =>
    refine touched (OutboxRow.failed_eventId column now code) stored ?_
    by_cases state : other.state = .delivered
    · rw [failed_of_delivered column state]
      exact becomes_refl other
    · rw [OutboxRow.failed, if_neg state]
      exact ⟨rfl, by simp [admitted.resolve_left state]⟩

/-- However producers and workers interleave, no event is lost or altered: its row stays,
and once it is delivered or dead it does not change again. -/
theorem events_kept {labels later : List (Option Change)} {system last : System}
    (run : Run (Step digest codec column) System.empty labels system)
    (onward : Run (Step digest codec column) system later last)
    (found : system.store.outbox.find? event = some row) :
    ∃ next, last.store.outbox.find? event = some next ∧ Becomes row next := by
  obtain ⟨commits, synced⟩ := commits_of_run run Synced.empty Coherent.empty
  have coherent := (coherent_of_commits commits).1
  have commits := (commits_of_run onward synced coherent).1
  refine commits.invariant_under (fun _ _ _ held commit => commit.coherent held) ?_ coherent
    ⟨row, found, becomes_refl row⟩
  rintro _ _ _ held ⟨_, present, becomes⟩ commit
  obtain ⟨next, stored, later⟩ := commit.becomes held present
  exact ⟨next, stored, becomes.trans later⟩

/-- The older event is leased and delivered by a later run, and is still the same. -/
theorem sample_event_kept : ∃ next, sampleDelivered.outbox.find? older.eventId = some next ∧
    Becomes older next :=
  events_kept sample_appends sample_delivers rfl

end Biz.Outbox
