import Biz.Change.Sources

/-!
# What can happen to a subscription

One relation on ledgers says what a transaction of the subscription changes may do. A
confirmation holds the subscription for a later instant or for its provisioning, stops its
renewal, or takes effect, which replaces its sources. A change that is held takes effect,
starts its provisioning or is released. A boundary ends the period. All other transactions
leave the subscription alone.

Two of these moves may go wrong, and carry a proposition that says when they do: a boundary
may move the end of a period without its sources (`grace`), and a subscription may be left
without a boundary for its end (`orphan`).
-/

namespace Biz.Change

open Time Checks Transaction Subscription
open Function (update update_of_ne update_self)
open Entitlement (Source)
open Transition (Key canonicalTime)

/-- The states in which the end of its period has to be noticed. -/
def Running (b : BaseSubscription) : Prop := b.state = .trial ∨ b.state = .active ∨ b.state = .grace

instance (b : BaseSubscription) : Decidable (Running b) := inferInstanceAs (Decidable (_ ∨ _))

/-- An optional instant is a whole number of microseconds. -/
def Whole (t : Option Instant) : Prop := ∀ ends ∈ t, ends % microsecond = 0

/-- The identity of the boundary of a subscription. -/
def boundaryKey (C : Setting) (b : BaseSubscription) (ends : Instant) : Key :=
  ⟨.subscriptionBoundary, C.tenant, b.id, b.revision, ends⟩

/-- A boundary waits for the end of a subscription. -/
def Watched (C : Setting) (transition : Key → Option Transition.Task)
    (b : BaseSubscription) : Prop :=
  ∀ ends, b.periodEnd = some ends →
    ∃ t, transition (boundaryKey C b (canonicalTime ends)) = some t ∧ t.live

/-- The identities that changes have. -/
def Named (id : String) : Prop := Text.key id = true ∧ ∃ rest, id = "chg-" ++ rest

/-- Receipts stay, with their period; one that is applied stays applied. -/
def Onward (before after : String → Option Receipt) : Prop :=
  ∀ id r, before id = some r → ∃ r', after id = some r' ∧ r'.mode = r.mode ∧
    r'.entitlementExpiresAt = r.entitlementExpiresAt ∧ (r.status = .applied → r'.status = .applied)

/-- Whatever the time is from then on, a change starts at once. -/
def Prompt (i : Input) (classification : Classification) (b : BaseSubscription) (time : Instant) :
    Prop :=
  ∀ now terms mode start ends, time ≤ now →
    period i b classification now terms = .ok (mode, start, ends) → start = now

section Periods

variable {i : Input} {before : BaseSubscription} {classification : Classification}
  {now start : Instant} {target : Plan.Terms} {mode : Mode} {ends : Option Instant}

theorem periodStart_ok (chosen : periodStart i before classification now = .ok (mode, start)) :
    mode = .immediate ∧ start = now ∨
      mode = .scheduled ∧ (i.effectiveAt = some start ∨ before.periodEnd = some start) := by
  unfold periodStart at chosen
  split at chosen
  · rename_i t asked
    simp only [bind_ok, pure_ok, Prod.mk.injEq] at chosen
    obtain ⟨-, -, rfl, rfl⟩ := chosen
    exact .inr ⟨rfl, .inl asked⟩
  · split at chosen
    · simp only [bind_ok, found_ok, pure_ok] at chosen
      obtain ⟨_, known, chosen⟩ := chosen
      split at chosen
      · cases chosen
        exact .inr ⟨rfl, .inr known⟩
      · cases chosen
        exact .inl ⟨rfl, rfl⟩
    · cases chosen
      exact .inl ⟨rfl, rfl⟩

/-- A period has the mode and the start that were chosen for it, but for the end of
renewals. -/
theorem period_start
    (chosen : period i before classification now target = .ok (mode, start, ends)) :
    i.action = .stopRenewal ∧ mode = .immediate ∧ start = now ∨
      i.action ≠ .stopRenewal ∧ periodStart i before classification now = .ok (mode, start) := by
  simp only [period, bind_ok] at chosen
  obtain ⟨⟨asked, begin_⟩, first, chosen⟩ := chosen
  split at chosen
  · rename_i stop
    cases chosen
    exact .inl ⟨stop, rfl, rfl⟩
  · rename_i other
    refine .inr ⟨other, ?_⟩
    split at chosen
    · simp only [bind_ok, require_ok, found_ok, pure_ok, Prod.mk.injEq] at chosen
      obtain ⟨-, -, -, -, rfl, rfl, -⟩ := chosen
      exact first
    · split at chosen <;> cases chosen <;> exact first

/-- An immediate change starts now, and the end of renewals is immediate. -/
theorem period_ok (chosen : period i before classification now target = .ok (mode, start, ends)) :
    (mode = .immediate → start = now) ∧ (i.action = .stopRenewal → mode = .immediate) := by
  rcases period_start chosen with ⟨-, immediate, begins⟩ | ⟨other, first⟩
  · exact ⟨fun _ => begins, fun _ => immediate⟩
  · refine ⟨fun immediate => ?_, fun stop => absurd stop other⟩
    rcases periodStart_ok first with ⟨-, same⟩ | ⟨scheduled, -⟩
    · exact same
    · cases immediate.symm.trans scheduled

theorem period_congr {b b' : BaseSubscription} (same : b'.periodEnd = b.periodEnd) :
    period i b' classification now target = period i b classification now target := by
  unfold period periodStart
  rw [same]

theorem Prompt.congr {b b' : BaseSubscription} (prompt : Prompt i classification b start)
    (same : b'.periodEnd = b.periodEnd) (later : start ≤ now) :
    Prompt i classification b' now := by
  intro t terms mode begin_ ends passed chosen
  rw [period_congr same] at chosen
  exact prompt t terms mode begin_ ends (later.trans passed) chosen

/-- A change that is immediate at some time is immediate from then on. -/
theorem prompt_of_immediate
    (chosen : period i before classification now target = .ok (.immediate, start, ends)) :
    Prompt i classification before now := by
  intro t terms mode begin_ ends' later again
  obtain ⟨immediate, stop⟩ := period_ok again
  apply immediate
  rcases period_start chosen with ⟨stopping, -⟩ | ⟨other, early⟩
  · exact stop stopping
  · obtain ⟨-, late⟩ := (period_start again).resolve_left fun stopping => other stopping.1
    unfold periodStart at early late
    cases asked : i.effectiveAt with
    | some instant =>
      simp only [asked, bind_ok, pure_ok, Prod.mk.injEq] at early
      obtain ⟨-, -, ⟨⟩, -⟩ := early
    | none =>
      simp only [asked] at early late
      split at late
      · rename_i downgrade
        rw [if_pos downgrade] at early
        simp only [bind_ok, found_ok, pure_ok] at early late
        obtain ⟨last, known, early⟩ := early
        obtain ⟨last', known', late⟩ := late
        obtain rfl : last = last' := Option.some.inj (known.symm.trans known')
        split at early
        · cases early
        · rename_i ended
          rw [if_neg (not_lt.mpr ((not_lt.mp ended).trans later))] at late
          cases late
          rfl
      · cases late
        rfl

theorem whole_addDays {t : Instant} (whole : t % microsecond = 0) (days : Nat) :
    addDays t days % microsecond = 0 := by
  have split : ∀ a b : Int, a % 1000 = 0 → (a + b * 86400000000000) % 1000 = 0 := by omega
  exact split t days whole

/-- Periods are whole if the instants that they come from are. -/
theorem whole_period (chosen : period i before classification now target = .ok (mode, start, ends))
    (asked : Whole i.effectiveAt) (known : Whole before.periodEnd) (clock : now % microsecond = 0) :
    Whole ends := by
  simp only [period, bind_ok] at chosen
  obtain ⟨⟨_, begin_⟩, first, chosen⟩ := chosen
  have begins : begin_ % microsecond = 0 := by
    rcases periodStart_ok first with ⟨-, rfl⟩ | ⟨-, same | same⟩
    · exact clock
    · exact asked begin_ same
    · exact known begin_ same
  split at chosen
  · cases chosen
    exact known
  · split at chosen
    · simp only [bind_ok, require_ok, found_ok, pure_ok, Prod.mk.injEq] at chosen
      obtain ⟨-, -, last, same, -, -, rfl⟩ := chosen
      rintro _ ⟨⟩
      apply whole_addDays
      rcases max_choice begin_ last with larger | larger
      · rw [larger]
        exact begins
      · rw [larger]
        exact known last same
    · split at chosen
      · cases chosen
        rintro _ ⟨⟩
        exact whole_addDays begins _
      · cases chosen
        rintro _ ⟨⟩

end Periods

section Conditions

variable (l : Ledger)

/-- The tenant has a subscription that changes can work on. -/
def Settled : Prop :=
  ∃ b, l.subscription = some b ∧ b.revision ≠ 0 ∧ b.validate = .ok () ∧ b.state ≠ .provisioning

/-- The ends of periods are whole, those of reserved changes too. -/
def Aligned : Prop :=
  (∀ b, l.subscription = some b → Whole b.periodEnd) ∧
    ∀ id r, l.receipt id = some r → r.mode = .scheduled → Whole r.entitlementExpiresAt

/-- An immediate change that waits for its provisioning starts when it takes effect. -/
def Punctual : Prop :=
  ∀ b r, l.subscription = some b → b.pendingChangeId ≠ "" →
    l.receipt b.pendingChangeId = some r → r.mode = .immediate →
    ∃ p, l.preview b.pendingChangeId = some p ∧ Prompt p.input p.classification b l.time

end Conditions

/-- What all moves share that save a subscription. -/
structure Saves (l l' : Ledger) (raw after : BaseSubscription) : Prop where
  later : l.time ≤ l'.time
  plans : l'.plan = l.plan
  previews : l'.preview = l.preview
  held : l.subscription = some raw
  saved : l'.subscription = some after
  next : after.revision = raw.revision + 1
  valid : after.validate = .ok ()
  state : after.state ≠ .provisioning
  receipts : Onward l.receipt l'.receipt
  whole : Aligned l → Whole after.periodEnd ∧ ∀ id r, l.receipt id = none →
    l'.receipt id = some r → r.mode = .scheduled → Whole r.entitlementExpiresAt

section Receipts

variable {receipt : String → Option Receipt} {id : String} {r known : Receipt}

theorem onward_refl (receipt : String → Option Receipt) : Onward receipt receipt :=
  fun _ r stored => ⟨r, stored, rfl, rfl, fun applied => applied⟩

theorem onward_insert (fresh : receipt id = none) :
    Onward receipt (update receipt id (some r)) := by
  intro other old stored
  refine ⟨old, ?_, rfl, rfl, fun applied => applied⟩
  rw [update_of_ne ?_, stored]
  rintro rfl
  rw [fresh] at stored
  cases stored

theorem onward_update (stored : receipt id = some known) (mode : r.mode = known.mode)
    (ends : r.entitlementExpiresAt = known.entitlementExpiresAt)
    (unused : known.status ≠ .applied) : Onward receipt (update receipt id (some r)) := by
  intro other old present
  by_cases same : other = id
  · subst same
    obtain rfl : known = old := Option.some.inj (stored.symm.trans present)
    exact ⟨r, update_self .., mode, ends, fun applied => absurd applied unused⟩
  · exact ⟨old, by rw [update_of_ne same, present], rfl, rfl, fun applied => applied⟩

/-- Of the receipts after an insertion only one is new. -/
theorem eq_of_insert {other : String} {new : Receipt} (absent : receipt other = none)
    (stored : update receipt id (some r) other = some new) : new = r := by
  by_cases same : other = id
  · subst same
    rw [update_self] at stored
    exact (Option.some.inj stored).symm
  · rw [update_of_ne same, absent] at stored
    cases stored

theorem absurd_of_update {other : String} {new : Receipt} (present : receipt id = some known)
    (absent : receipt other = none)
    (stored : update receipt id (some r) other = some new) : False := by
  by_cases same : other = id
  · subst same
    rw [present] at absent
    cases absent
  · rw [update_of_ne same, absent] at stored
    cases stored

end Receipts

/-- What a transaction does to the ledger of a tenant. -/
inductive Move (C : Setting) (grace orphan : Prop) (l l' : Ledger) : Prop
  /-- A transition other than the boundary of a subscription that no change holds may be
  finished. -/
  | idle (later : l.time ≤ l'.time)
      (same : l' = { l with time := l'.time, transition := l'.transition })
      (watched : ∀ b, l.subscription = some b → b.pendingChangeId = "" → Whole b.periodEnd →
        Watched C l.transition b → Watched C l'.transition b)
  /-- Previews are added, and plan management does anything but change the terms of a
  version that was on sale. -/
  | elapse (later : l.time ≤ l'.time)
      (same : l' = { l with time := l'.time, plan := l'.plan, preview := l'.preview })
      (previews : ∀ id p, l.preview id = some p → l'.preview id = some p)
      (kept : ∀ key v, l.plan key = some v → v.state ≠ .draft →
        ∃ v', l'.plan key = some v' ∧ v'.state ≠ .draft ∧ v'.planCode = v.planCode ∧
          v'.number = v.number ∧ v'.terms = v.terms)
  /-- A change holds the subscription; a reserved one fences its sources. -/
  | hold (raw after : BaseSubscription) (r : Receipt) (saves : Saves l l' raw after)
      (free : raw.pendingChangeId = "")
      (shape : after = { raw with
        revision := raw.revision + 1, pendingChangeId := r.changeId, state := after.state,
        entitlementSourceVersion := after.entitlementSourceVersion })
      (named : Named r.changeId) (fresh : l.receipt r.changeId = none)
      (receipts : l'.receipt = update l.receipt r.changeId (some r))
      (prompt : r.mode = .immediate →
        ∃ p, l.preview r.changeId = some p ∧ Prompt p.input p.classification raw l'.time)
      (readable : l.readable → l'.readable)
      (sources : ∃ due, l.time ≤ due ∧ ∀ id, l'.source id = (l.source id).map fun v =>
        if r.status = .scheduled ∧ fenced due v then fencedFrom due v else v)
  /-- Renewals stop. -/
  | stop (raw after : BaseSubscription) (saves : Saves l l' raw after)
      (free : raw.pendingChangeId = "")
      (shape : after = { raw with
        revision := raw.revision + 1, renewalStopped := true,
        entitlementSourceVersion := after.entitlementSourceVersion })
      (sources : l'.source = l.source) (readable : l.readable → l'.readable)
      (watched : Watched C l'.transition after)
  /-- A change takes effect: its generation replaces the sources. -/
  | take (raw after : BaseSubscription) (target : Plan.Version) (r : Receipt)
      (saves : Saves l l' raw after)
      (shape : after = { raw with
        revision := raw.revision + 1, pendingChangeId := "",
        state := C.lifecycle.stateFor target.planCode target.number, planCode := target.planCode,
        planVersion := target.number, periodStart := after.periodStart,
        periodEnd := after.periodEnd, sourceNamespace := r.changeId, renewalStopped := false,
        entitlementSourceVersion := after.entitlementSourceVersion })
      (usable : Usable l raw target) (named : Named r.changeId)
      (unused : ∀ known, l.receipt r.changeId = some known → known.status ≠ .applied)
      (receipts : l'.receipt = update l.receipt r.changeId (some r))
      (applied : r.status = .applied)
      (begun : Punctual l → after.periodStart ≤ l'.time)
      (sources : l'.source = replaced after.periodStart (generation C.digests.source C.tenant
        r.changeId after.periodStart after.periodEnd target.terms) l.source)
      (readable : l'.readable) (watched : orphan ∨ Watched C l'.transition after)
  /-- A change is cancelled or fails. -/
  | release (raw after : BaseSubscription) (saves : Saves l l' raw after)
      (shape : after = { raw with
        revision := raw.revision + 1, pendingChangeId := "",
        entitlementSourceVersion := after.entitlementSourceVersion })
      (sources : l'.source = l.source) (readable : l.readable → l'.readable)
      (lost : orphan ∨ raw.periodEnd = none ∨ ¬Running raw)
  /-- A reserved change is due and starts its provisioning. -/
  | start (raw after : BaseSubscription) (r known : Receipt) (saves : Saves l l' raw after)
      (named : Named r.changeId) (holds : raw.pendingChangeId = r.changeId)
      (shape : after = { raw with revision := raw.revision + 1, state := .restricted })
      (reserved : l.receipt r.changeId = some known) (scheduled : known.status = .scheduled)
      (receipts : l'.receipt = update l.receipt r.changeId (some r))
      (status : r.status = .provisioning) (mode : r.mode = .scheduled)
      (sources : l'.source = l.source) (readable : l.readable → l'.readable)
  /-- A period ends. -/
  | bound (raw after : BaseSubscription) (saves : Saves l l' raw after)
      (free : raw.pendingChangeId = "")
      (shape : after = { raw with
        revision := raw.revision + 1, state := after.state, periodEnd := after.periodEnd,
        entitlementSourceVersion := after.entitlementSourceVersion })
      (state : after.state = .grace ∧ Watched C l'.transition after ∨
        after.state = .restricted ∨ after.state = .ended)
      (moved : grace ∨ after.periodEnd = raw.periodEnd)
      (sources : l'.source = l.source) (readable : l.readable → l'.readable)

section Conditions

variable {C : Setting} {grace orphan : Prop} {l l' : Ledger} {raw after : BaseSubscription}

/-- The changes of a transaction that saves a subscription, as a ledger. -/
theorem saves_of_shape {time : Instant} {source : String → Option Source} {readable : Prop}
    {receipt : String → Option Receipt} {transition : Key → Option Transition.Task}
    (shape : l' = { l with
      time, subscription := some after, source, readable, receipt, transition })
    (later : l.time ≤ time) (held : l.subscription = some raw)
    (next : after.revision = raw.revision + 1) (valid : after.validate = .ok ())
    (state : after.state ≠ .provisioning) (receipts : Onward l.receipt receipt)
    (whole : Aligned l → Whole after.periodEnd ∧ ∀ id r, l.receipt id = none →
      receipt id = some r → r.mode = .scheduled → Whole r.entitlementExpiresAt) :
    Saves l l' raw after := by
  subst shape
  exact ⟨later, rfl, rfl, held, rfl, next, valid, state, receipts, whole⟩

theorem Saves.settled (saves : Saves l l' raw after) : Settled l' :=
  ⟨after, saves.saved, by rw [saves.next]; exact Nat.succ_ne_zero _, saves.valid, saves.state⟩

theorem Saves.aligned (saves : Saves l l' raw after) (aligned : Aligned l) : Aligned l' := by
  obtain ⟨ends, fresh⟩ := saves.whole aligned
  constructor
  · intro b held
    obtain rfl : after = b := Option.some.inj (saves.saved.symm.trans held)
    exact ends
  · intro id r stored reserved
    cases known : l.receipt id with
    | none => exact fresh id r known stored reserved
    | some old =>
      obtain ⟨r', stored', mode, same, -⟩ := saves.receipts id old known
      obtain rfl : r' = r := Option.some.inj (stored'.symm.trans stored)
      rw [same]
      exact aligned.2 id old known (mode ▸ reserved)

/-- What a move does to the subscription, if anything. -/
theorem Move.saves_or (move : Move C grace orphan l l') :
    l'.subscription = l.subscription ∧ l'.receipt = l.receipt ∨
      ∃ raw after, Saves l l' raw after := by
  cases move with
  | idle later same watched =>
    left
    rw [same]
    exact ⟨rfl, rfl⟩
  | elapse later same previews kept =>
    left
    rw [same]
    exact ⟨rfl, rfl⟩
  | hold raw after r saves => exact .inr ⟨raw, after, saves⟩
  | stop raw after saves => exact .inr ⟨raw, after, saves⟩
  | take raw after target r saves => exact .inr ⟨raw, after, saves⟩
  | release raw after saves => exact .inr ⟨raw, after, saves⟩
  | start raw after r known saves => exact .inr ⟨raw, after, saves⟩
  | bound raw after saves => exact .inr ⟨raw, after, saves⟩

theorem Move.settled (move : Move C grace orphan l l') (settled : Settled l) : Settled l' := by
  rcases move.saves_or with ⟨same, -⟩ | ⟨_, _, saves⟩
  · obtain ⟨b, held, rest⟩ := settled
    exact ⟨b, same.trans held, rest⟩
  · exact saves.settled

theorem punctual_of_free (saved : l'.subscription = some after)
    (free : after.pendingChangeId = "") :
    Punctual l' := by
  intro b r held pending
  obtain rfl : after = b := Option.some.inj (saved.symm.trans held)
  exact absurd free pending

theorem Move.punctual (move : Move C grace orphan l l') (punctual : Punctual l) : Punctual l' := by
  cases move with
  | idle later same _ =>
    intro b r held pending stored immediate
    rw [same] at held stored
    obtain ⟨p, known, prompt⟩ := punctual b r held pending stored immediate
    exact ⟨p, by rw [same]; exact known, prompt.congr rfl later⟩
  | elapse later same previews _ =>
    intro b r held pending stored immediate
    rw [same] at held stored
    obtain ⟨p, known, prompt⟩ := punctual b r held pending stored immediate
    exact ⟨p, previews _ p known, prompt.congr rfl later⟩
  | hold raw after r saves free shape named fresh receipts prompt =>
    intro b other held pending stored immediate
    obtain rfl : after = b := Option.some.inj (saves.saved.symm.trans held)
    have holds : after.pendingChangeId = r.changeId := by rw [shape]
    rw [holds, receipts, update_self, Option.some.injEq] at stored
    subst stored
    obtain ⟨p, known, started⟩ := prompt immediate
    exact ⟨p, by rw [holds, saves.previews]; exact known, started.congr (by rw [shape]) (le_refl _)⟩
  | stop raw after saves free shape =>
    exact punctual_of_free saves.saved (by rw [shape]; exact free)
  | take raw after target r saves shape => exact punctual_of_free saves.saved (by rw [shape])
  | release raw after saves shape => exact punctual_of_free saves.saved (by rw [shape])
  | start raw after r known saves named holds shape reserved scheduled receipts status mode =>
    intro b other held pending stored immediate
    obtain rfl : after = b := Option.some.inj (saves.saved.symm.trans held)
    have same : after.pendingChangeId = r.changeId := by rw [shape]; exact holds
    rw [same, receipts, update_self, Option.some.injEq] at stored
    rw [← stored, mode] at immediate
    cases immediate
  | bound raw after saves free shape =>
    exact punctual_of_free saves.saved (by rw [shape]; exact free)

theorem Move.aligned (move : Move C grace orphan l l') (aligned : Aligned l) : Aligned l' := by
  rcases move.saves_or with ⟨sub, receipts⟩ | ⟨_, _, saves⟩
  · unfold Aligned
    rw [sub, receipts]
    exact aligned
  · exact saves.aligned aligned

end Conditions

end Biz.Change
