import Biz.Change.Effects

/-!
# Confirmations as moves

What the checks of a confirmation establish, what each of its branches saves, and that
a confirmation holds the subscription, stops its renewals, takes effect or changes
nothing.
-/

namespace Biz.Change

open Time Checks Transaction Subscription
open Provisioning (increment64)

variable {C : Setting} {S : Services} {store after : Store} {r : Confirmation} {a : Admission}
  {current : Option BaseSubscription} {raw : BaseSubscription}

section Checks

theorem optionalBase_some {b : BaseSubscription} (read : optionalBase C store = .ok (some b)) :
    store.subscription = some b ∧ b.tenantId = C.tenant := by
  unfold optionalBase at read
  split at read
  · rename_i found
    cases read
    exact getBase_ok found
  · split at read <;> cases read

/-- A confirmation locks the subscription that the tenant has. -/
theorem run_lockCurrent {i : Input} (ran : lockCurrent C r i store = .ok current after) :
    Quiet C store after ∧ (current = none → store.subscription = none) ∧
      ∀ b, current = some b → store.subscription = some b ∧ b.tenantId = C.tenant := by
  unfold lockCurrent at ran
  split at ran
  · simp only [lockTenantOptional, run_bind, run_demand, run_read] at ran
    obtain ⟨_, _, ⟨-, rfl⟩, _, _, ⟨-, rfl⟩, ⟨_, _⟩, _, locked, read, rfl⟩ := ran
    have quiet := (keeps_lockSources C).1 _ _ _ locked
    refine ⟨quiet, ?_, ?_⟩
    · rintro rfl
      exact quiet.subscription ▸ optionalBase_none read
    · rintro b rfl
      exact quiet.subscription ▸ optionalBase_some read
  · simp only [run_bind, run_pure] at ran
    obtain ⟨b, _, locked, rfl, rfl⟩ := ran
    obtain ⟨rfl, held, mine⟩ := run_lockTenant locked
    refine ⟨Quiet.refl C _, ?_, ?_⟩
    · rintro ⟨⟩
    · rintro _ ⟨⟩
      exact ⟨held, mine⟩

/-- What was captured a little later was there before. -/
theorem Captured.of_quiet {middle : Store} {i : Input} {m : Material} (quiet : Quiet C store middle)
    (captured : Captured C (C.ledger middle) raw i m) : Captured C (C.ledger store) raw i m := by
  rw [quiet.2] at captured
  exact ⟨captured.old, captured.normalized, captured.target, captured.kept, captured.lists,
    captured.mine, captured.checked⟩

/-- What the checks of a change have established, apart from a first activation. -/
structure Admitted (C : Setting) (store : Store) (raw : BaseSubscription) (r : Confirmation)
    (a : Admission) : Prop where
  captured : Captured C (C.ledger store) raw a.preview.input a.material
  free : raw.pendingChangeId = ""
  preview : getPreview C r.changeId store = .ok (some a.preview)
  prompt : a.mode = .immediate → a.start = a.admitted ∧
    Prompt a.preview.input a.preview.classification a.material.before a.admitted
  scheduled : a.mode = .scheduled → store.clock.now ≤ a.start
  stop : a.preview.input.action = .stopRenewal → a.mode = .immediate ∧ a.requirements = []
  whole : Whole a.preview.input.effectiveAt → Whole a.material.before.periodEnd → Whole a.ends

theorem Admitted.of_quiet {middle : Store} (quiet : Quiet C store middle)
    (admitted : Admitted C middle raw r a) : Admitted C store raw r a where
  captured := admitted.captured.of_quiet quiet
  free := admitted.free
  preview := by
    have read := admitted.preview
    rw [getPreview, quiet.preview] at read
    exact read
  prompt := admitted.prompt
  scheduled mode := quiet.1.trans (admitted.scheduled mode)
  stop := admitted.stop
  whole := admitted.whole

theorem confirmedPreview_ok {p : Preview} (read : confirmedPreview C r store = .ok p) :
    getPreview C r.changeId store = .ok (some p) := by
  simp only [confirmedPreview, bind_ok, require_ok, found_ok, pure_ok] at read
  obtain ⟨-, -, -, -, _, found, p, rfl, -, -, -, -, -, -, rfl⟩ := read
  exact found

theorem run_confirmedMaterial {i : Input} {m : Material} (change : i.action ≠ .initial)
    (ran : confirmedMaterial C S i current store = .ok m after) :
    (current.getD .zero).pendingChangeId = "" ∧
      capture C S (current.getD .zero) i store = .ok m after := by
  rw [confirmedMaterial, if_neg change] at ran
  simp only [run_bind, run_demand] at ran
  obtain ⟨_, _, ⟨free, rfl⟩, captured⟩ := ran
  exact ⟨free, captured⟩

variable (ran : admission C S r current store = .ok a after)

include ran

/-- The steps of an admission. -/
theorem admission_steps :
    ∃ first start ends second third, confirmedPreview C r store = .ok a.preview ∧
      now store = .ok first second ∧
      confirmedMaterial C S a.preview.input current second = .ok a.material third ∧
      period a.preview.input a.material.before a.preview.classification first
        a.material.target.terms = .ok (a.mode, start, ends) ∧
      (a.mode = .scheduled → first < start) ∧
      preparationRequirements S a.preview.input.action a.material.target = .ok a.requirements ∧
      now third = .ok a.admitted after ∧
      (if a.mode = .immediate then
        ∃ mode, period a.preview.input a.material.before a.preview.classification a.admitted
          a.material.target.terms = .ok (mode, a.start, a.ends)
      else a.start = start ∧ a.ends = ends) ∧
      S.quotas a.mode start (quotasOf a.preview.input.action a.material) = .ok a.quotas ∧
      checkQuotaReport (quotasOf a.preview.input.action a.material) a.quotas a.mode =
        .ok a.deferred := by
  obtain ⟨preview, read, ran⟩ := run_read_bind.mp ran
  obtain ⟨first, second, clock, ran⟩ := run_bind.mp ran
  obtain ⟨-, ran⟩ := run_demand_bind.mp ran
  obtain ⟨m, third, material, ran⟩ := run_bind.mp ran
  obtain ⟨-, ran⟩ := run_demand_bind.mp ran
  obtain ⟨⟨mode, start, ends⟩, chosen, ran⟩ := run_check_bind.mp ran
  obtain ⟨-, ran⟩ := run_demand_bind.mp ran
  obtain ⟨ahead, ran⟩ := run_demand_bind.mp ran
  obtain ⟨quotas, asked, ran⟩ := run_check_bind.mp ran
  obtain ⟨deferred, checked, ran⟩ := run_check_bind.mp ran
  obtain ⟨requirements, required, ran⟩ := run_check_bind.mp ran
  obtain ⟨-, ran⟩ := run_demand_bind.mp ran
  obtain ⟨admitted, last, clock', ran⟩ := run_bind.mp ran
  obtain ⟨-, ran⟩ := run_demand_bind.mp ran
  refine ⟨first, start, ends, second, third, ?_⟩
  split at ran
  · rename_i immediate
    obtain ⟨⟨mode', start', ends'⟩, again, ran⟩ := run_check_bind.mp ran
    obtain ⟨rfl, rfl⟩ := run_pure.mp ran
    exact ⟨read, clock, material, chosen, ahead, required, clock', by
      rw [if_pos immediate]; exact ⟨mode', again⟩, asked, checked⟩
  · rename_i reserved
    obtain ⟨rfl, rfl⟩ := run_pure.mp ran
    exact ⟨read, clock, material, chosen, ahead, required, clock', by
      rw [if_neg reserved]; exact ⟨rfl, rfl⟩, asked, checked⟩

theorem run_admission (change : a.preview.input.action ≠ .initial) :
    Quiet C store after ∧ a.admitted ≤ after.clock.now ∧
      Admitted C store (current.getD .zero) r a := by
  obtain ⟨first, _, _, _, third, read, clock, material, chosen, ahead, required, clock',
    period_, -⟩ := admission_steps ran
  obtain ⟨free, captured⟩ := run_confirmedMaterial change material
  obtain ⟨taken, quiet, -⟩ := run_capture captured
  have passed := (quiet_now (C := C) clock).1
  have passed' := quiet_now (C := C) clock'
  have early : store.clock.now = first := (run_now.mp clock).1
  have late : third.clock.now = a.admitted := (run_now.mp clock').1
  have order : first ≤ a.admitted := by
    rw [← early, ← late]
    exact passed.1.trans quiet.1
  refine ⟨(passed.trans quiet).trans passed'.1, passed'.2, ?_⟩
  constructor
  case captured => exact taken.of_quiet passed
  case free => exact free
  case preview => exact confirmedPreview_ok read
  case prompt =>
    intro immediate
    rw [if_pos immediate] at period_
    obtain ⟨_, again⟩ := period_
    rw [immediate] at chosen
    have prompt := (prompt_of_immediate chosen).congr rfl order
    exact ⟨prompt _ _ _ _ _ (le_refl _) again, prompt⟩
  case scheduled =>
    intro scheduled
    rw [if_neg (by rw [scheduled]; decide)] at period_
    rw [early, period_.1]
    exact (ahead scheduled).le
  case stop =>
    intro stopping
    rw [preparationRequirements, if_pos stopping] at required
    exact ⟨(period_ok chosen).2 stopping, (Except.ok.inj required).symm⟩
  case whole =>
    intro asked known
    split at period_
    · obtain ⟨_, again⟩ := period_
      exact whole_period again asked known (late ▸ third.clock.now_whole)
    · rw [period_.2]
      exact whole_period chosen asked known (early ▸ store.clock.now_whole)

theorem none_of_admission (initial : a.preview.input.action = .initial) : current = none := by
  obtain ⟨-, -, -, _, _, -, -, material, -⟩ := admission_steps ran
  rw [confirmedMaterial, if_pos initial] at material
  exact (run_demand_bind.mp material).1

end Checks

section Branches

theorem Mode.immediate_of_ne {mode : Mode} (unreserved : mode ≠ .scheduled) :
    mode = .immediate := by
  cases mode with
  | immediate => rfl
  | scheduled => exact absurd rfl unreserved

variable {x : Receipt} {b : BaseSubscription}

/-- What the branches leave of the receipt that they start from. -/
def Confirmed (C : Setting) (r : Confirmation) (a : Admission) (x : Receipt) : Prop :=
  x = { confirmedReceipt C r a with
    status := x.status, provisioningTaskId := x.provisioningTaskId,
    afterSourceVersion := x.afterSourceVersion,
    afterEntitlementVersion := x.afterEntitlementVersion }

/-- What a branch of a confirmation does, apart from a first activation. -/
inductive Executed (C : Setting) (r : Confirmation) (a : Admission) (store after : Store)
    (x : Receipt) (b : BaseSubscription) : Prop
  | hold (change : a.preview.input.action ≠ .stopRenewal)
      (status : x.status = .provisioning ∧ a.mode = .immediate ∨
        x.status = .scheduled ∧ a.mode = .scheduled)
      (shape : b = { confirmedSubscription C r a with
        pendingChangeId := r.changeId, entitlementSourceVersion := b.entitlementSourceVersion })
      (readable : (C.ledger store).readable → (C.ledger after).readable)
      (sources : ∀ id, (C.ledger after).source id = ((C.ledger store).source id).map fun v =>
        if x.status = .scheduled ∧ fenced a.start v then fencedFrom a.start v else v)
  | stop (stopping : a.preview.input.action = .stopRenewal) (status : x.status = .applied)
      (mode : a.mode = .immediate)
      (shape : b = { confirmedSubscription C r a with renewalStopped := true })
      (same : after = store)
  | take (change : a.preview.input.action ≠ .stopRenewal) (status : x.status = .applied)
      (mode : a.mode = .immediate)
      (shape : b = activated a.material (confirmedSubscription C r a) r.changeId a.start a.ends)
      (readable : (C.ledger after).readable)
      (sources : (C.ledger after).source = replaced a.start (generation C.digests.source C.tenant
        r.changeId a.start a.ends a.material.target.terms) (C.ledger store).source)

theorem run_provision (ran : provision C r a store = .ok (x, b) after) :
    Entitled store after ∧ Confirmed C r a x ∧ x.status = .provisioning ∧
      b = { confirmedSubscription C r a with pendingChangeId := r.changeId } ∧
      after.entitlements = store.entitlements := by
  simp only [provision, run_bind, run_check, run_pure, Prod.mk.injEq] at ran
  obtain ⟨t, _, ⟨-, rfl⟩, _, _, inserted, ⟨rfl, rfl⟩, rfl⟩ := ran
  obtain ⟨_, rfl⟩ := run_insertTask inserted
  exact ⟨⟨rfl, le_refl _⟩, rfl, rfl, rfl, rfl⟩

/-- The plan of a change that takes effect. -/
theorem plan_of_applyChange {k : Action} {sub : BaseSubscription} {id : String}
    {start : Instant} {ends : Option Instant} {view : Entitlement.Result} {m : Material}
    (ran : applyChange C S k m sub id start ends store = .ok (b, view) after) :
    b.planCode = m.target.planCode ∧ b.planVersion = m.target.number := by
  unfold applyChange at ran
  split at ran
  all_goals
    obtain ⟨_, -, rest⟩ := run_check_bind.mp ran
    obtain ⟨_, _, -, rest⟩ := run_bind.mp rest
    obtain ⟨_, _, -, rest⟩ := run_bind.mp rest
    cases (run_pure.mp rest).1
    exact ⟨rfl, rfl⟩

/-- Every branch starts from the receipt of its confirmation, and one that takes effect at
once gives the plan of the target, or keeps the plan. -/
theorem confirmed_of_execute (ran : execute C S r a store = .ok (x, b) after) :
    Confirmed C r a x ∧ (x.status = .applied → a.mode = .immediate ∧
      if a.preview.input.action = .stopRenewal then
        b.planCode = (confirmedSubscription C r a).planCode ∧
          b.planVersion = (confirmedSubscription C r a).planVersion
      else b.planCode = a.material.target.planCode ∧ b.planVersion = a.material.target.number) := by
  unfold execute at ran
  split at ran
  · split at ran
    · simp only [provisionInitial, run_bind, run_check, run_demand, run_pure, Prod.mk.injEq] at ran
      obtain ⟨_, _, -, _, _, -, _, _, -, _, _, -, _, _, -, _, _, -, ⟨rfl, -⟩, -⟩ := ran
      exact ⟨rfl, fun applied => by cases applied⟩
    · obtain ⟨-, confirmed, status, -⟩ := run_provision ran
      rw [status]
      exact ⟨confirmed, fun applied => by cases applied⟩
  · split at ran
    · obtain ⟨_, _, -, rest⟩ := run_bind.mp ran
      cases (run_pure.mp rest).1
      exact ⟨rfl, fun applied => by cases applied⟩
    · rename_i unreserved
      have immediate := Mode.immediate_of_ne unreserved
      split at ran
      · rename_i stop
        cases (run_pure.mp ran).1
        exact ⟨rfl, fun _ => ⟨immediate, by rw [if_pos stop]; exact ⟨rfl, rfl⟩⟩⟩
      · rename_i lasting
        obtain ⟨_, _, applies, rest⟩ := run_bind.mp ran
        cases (run_pure.mp rest).1
        exact ⟨rfl, fun _ => ⟨immediate, by
          rw [if_neg lasting]; exact plan_of_applyChange applies⟩⟩

end Branches

section Moves

variable {middle : Store} {receipt x : Receipt} {b : BaseSubscription} {grace orphan : Prop}

/-- What the writes of a confirmation leave, apart from a first activation. -/
structure Settlement (C : Setting) (r : Confirmation) (a : Admission) (store after : Store)
    (x : Receipt) (b : BaseSubscription) (receipt : Receipt) : Prop where
  confirmed : Confirmed C r a x
  sealing : receipt = ({ x with after := b }).seal C.digests
  executed : ∃ middle, Entitled store middle ∧ Executed C r a store middle x b ∧
    C.ledger after = { C.ledger middle with
      time := middle.clock.tick.now, subscription := some b,
      receipt := Function.update (C.ledger store).receipt r.changeId (some receipt),
      transition := after.transitions.find? }
  next : b.revision = a.material.before.revision + 1
  valid : b.validate = .ok ()
  fresh : (C.ledger store).receipt r.changeId = none
  watched : a.mode = .immediate → x.status = .applied ∨ x.status = .provisioning →
    Watched C after.transitions.find? b

section

variable (change : a.preview.input.action ≠ .initial)
  (lists : Snapshot.Lists (C.ledger store).source a.material.sources)
  (mine : ∀ v ∈ a.material.sources, v.tenantId = C.tenant)
  (owned : a.material.before.tenantId = C.tenant)
  (stopping : a.preview.input.action = .stopRenewal → a.mode = .immediate ∧ a.requirements = [])

include change lists mine owned stopping

/-- The branches of a change that is no first activation. -/
theorem run_execute (ran : execute C S r a store = .ok (x, b) after) :
    Entitled store after ∧ Confirmed C r a x ∧ Executed C r a store after x b := by
  unfold execute at ran
  split at ran
  · rename_i prepares
    obtain ⟨frame, confirmed, status, shape, same⟩ := run_provision ran
    have lasting : a.preview.input.action ≠ .stopRenewal := fun stop => prepares.2 (stopping stop).2
    refine ⟨frame, confirmed, .hold lasting (.inl ⟨status, prepares.1⟩) (by rw [shape]) ?_ ?_⟩
    · change Snapshot.Readable _ _ _ → Snapshot.Readable _ _ _
      rw [same]
      exact id
    · intro id
      change Snapshot.stored _ _ after.entitlements id = _
      rw [same, status]
      simp [Setting.ledger]
  · split at ran
    · rename_i reserved
      simp only [reserve, run_bind, run_pure, Prod.mk.injEq] at ran
      obtain ⟨⟨sourceVersion, entitlementVersion, saved⟩, _, fence, ⟨rfl, rfl⟩, rfl⟩ := ran
      obtain ⟨shape, frame, readable, sources⟩ := run_installTimeFence lists mine fence
      have lasting : a.preview.input.action ≠ .stopRenewal := by
        intro stop
        rw [(stopping stop).1] at reserved
        cases reserved
      refine ⟨frame, rfl, .hold lasting (.inr ⟨rfl, reserved⟩) (by rw [shape]) readable ?_⟩
      intro id
      simp only [true_and]
      exact sources id
    · rename_i unprepared unreserved
      have immediate := Mode.immediate_of_ne unreserved
      split at ran
      · rename_i stop
        obtain ⟨⟨rfl, rfl⟩, rfl⟩ := ran
        exact ⟨⟨rfl, le_refl _⟩, rfl, .stop stop rfl immediate rfl rfl⟩
      · rename_i lasting
        simp only [take, run_bind, run_pure, Prod.mk.injEq, applyChange, if_neg change] at ran
        obtain ⟨⟨_, _⟩, _, applied, ⟨rfl, rfl⟩, rfl⟩ := ran
        obtain ⟨shape, frame, readable, sources⟩ := run_applySources lists mine owned applied
        exact ⟨frame, rfl, .take lasting rfl immediate shape readable sources⟩

theorem run_settle (ran : settle C S r a store = .ok receipt after) :
    ∃ x b, Settlement C r a store after x b receipt := by
  obtain ⟨⟨x, b⟩, middle, executes, ran⟩ := run_bind.mp ran
  obtain ⟨_, _, saves, ran⟩ := run_bind.mp ran
  obtain ⟨_, completes, rfl⟩ := run_bind_pure.mp ran
  obtain ⟨worked, confirmed, executed⟩ := run_execute change lists mine owned stopping executes
  rw [saveConfirmed, if_neg change] at saves
  obtain ⟨rfl, next, valid⟩ := run_saveCurrent saves
  obtain ⟨fresh, receipts, _, rfl, lookups, watched⟩ := run_complete completes
  have key : x.changeId = r.changeId := by rw [confirmed]; rfl
  have mode : x.mode = a.mode := by rw [confirmed]; rfl
  have kept : middle.receipts.find? = store.receipts.find? :=
    congrArg Ledger.receipt (worked.ledger (C := C))
  have inserted : receipts.find? = Function.update (C.ledger store).receipt r.changeId
      (some (({ x with after := b }).seal C.digests)) := by
    refine lookups.trans ?_
    rw [kept]
    exact congrArg (fun id => Function.update store.receipts.find? id _) key
  refine ⟨x, b, ?_⟩
  constructor
  case confirmed => exact confirmed
  case sealing => rfl
  case executed =>
    refine ⟨middle, worked, executed, ?_⟩
    rw [← inserted]
    rfl
  case next => exact next
  case valid => exact valid
  case fresh =>
    change store.receipts.find? r.changeId = none
    rw [← kept, ← key]
    exact fresh
  case watched =>
    intro immediate status
    exact watched (mode.trans immediate) status

end

theorem not_provisioning (p : LifecyclePolicy) (code : String) (number : Nat) :
    p.stateFor code number ≠ .provisioning := by
  intro same
  rcases p.stateFor_cases code number with trial | active
  · rw [trial] at same
    cases same
  · rw [active] at same
    cases same

/-- The subscription that the branches start from, apart from a first activation. -/
theorem confirmedSubscription_change (change : a.preview.input.action ≠ .initial) :
    confirmedSubscription C r a = { a.material.before with
      revision := increment64 a.material.before.revision,
      entitlementSourceVersion := a.material.version,
      state := if a.preview.input.action = .stopRenewal then a.material.before.state
        else C.lifecycle.stateFor a.material.target.planCode a.material.target.number } :=
  if_neg change

/-- The writes of a confirmation are a move. -/
theorem Settlement.move (settlement : Settlement C r a middle after x b receipt)
    (quiet : Quiet C store middle) (admitted : Admitted C store raw r a)
    (passed : a.admitted ≤ middle.clock.now) (change : a.preview.input.action ≠ .initial)
    (key : Text.key r.changeId = true) (held : store.subscription = some raw)
    (normal : a.material.before = raw) (state : raw.state ≠ .provisioning) :
    Move C grace orphan (C.ledger store) (C.ledger after) := by
  obtain ⟨last, worked, executed, shape⟩ := settlement.executed
  have ledger : C.ledger after = { C.ledger store with
      time := last.clock.tick.now, subscription := some b, source := (C.ledger last).source,
      readable := (C.ledger last).readable,
      receipt := Function.update (C.ledger store).receipt r.changeId (some receipt),
      transition := after.transitions.find? } := by
    conv_lhs => rw [shape, worked.ledger, quiet.2]
  obtain ⟨named, asked⟩ := named_of_preview admitted.preview key
  have next : b.revision = raw.revision + 1 := normal ▸ settlement.next
  have fresh : (C.ledger store).receipt r.changeId = none := by
    have absent := settlement.fresh
    rw [quiet.2] at absent
    exact absent
  have sources : (C.ledger middle).source = (C.ledger store).source := quiet.source
  have readable : (C.ledger middle).readable = (C.ledger store).readable := by rw [quiet.2]
  obtain ⟨changeId, mode, ends, status⟩ : receipt.changeId = r.changeId ∧ receipt.mode = a.mode ∧
      receipt.entitlementExpiresAt = a.ends ∧ receipt.status = x.status := by
    rw [settlement.sealing, settlement.confirmed]
    exact ⟨rfl, rfl, rfl, rfl⟩
  have later : store.clock.now ≤ last.clock.tick.now :=
    quiet.1.trans (worked.later.trans last.clock.now_le_tick)
  have admittedAt : a.admitted ≤ last.clock.tick.now :=
    passed.trans (worked.later.trans last.clock.now_le_tick)
  have saves (saved : b.state ≠ .provisioning)
      (whole : Whole raw.periodEnd → Whole a.ends → Whole b.periodEnd) :
      Saves (C.ledger store) (C.ledger after) raw b := by
    refine saves_of_shape ledger later held next settlement.valid saved (onward_insert fresh) ?_
    intro aligned
    have known := aligned.1 raw held
    have chosen : Whole a.ends := admitted.whole asked (normal ▸ known)
    refine ⟨whole known chosen, fun id new absent stored _ => ?_⟩
    rw [eq_of_insert absent stored, ends]
    exact chosen
  rw [ledger] at saves ⊢
  cases executed with
  | hold lasting kind form readable' sources' =>
    rw [confirmedSubscription_change change, normal, if_neg lasting] at form
    have saved : b = { raw with
        revision := b.revision, pendingChangeId := r.changeId, state := b.state,
        entitlementSourceVersion := b.entitlementSourceVersion } := by
      rw [form]
    rw [next, ← changeId] at saved
    have state : b.state ≠ .provisioning := by
      rw [form]
      exact not_provisioning _ _ _
    refine .hold raw b receipt (saves state fun known _ => ?_) admitted.free saved ?_ ?_ ?_ ?_ ?_ ?_
    · rw [saved]
      exact known
    · rw [changeId]
      exact named
    · rw [changeId]
      exact fresh
    · rw [changeId]
    · intro immediate
      rw [changeId]
      refine ⟨a.preview, (getPreview_ok admitted.preview).1, ?_⟩
      exact (admitted.prompt (mode ▸ immediate)).2.congr (by rw [normal]) admittedAt
    · rw [← readable]
      exact readable'
    · rw [status]
      rcases kind with ⟨prepared, -⟩ | ⟨_, scheduled⟩
      · refine ⟨store.clock.now, le_refl _, fun id => ?_⟩
        rw [← sources]
        simpa [prepared] using sources' id
      · refine ⟨a.start, admitted.scheduled scheduled, fun id => ?_⟩
        rw [← sources]
        exact sources' id
  | stop stopping applied immediate form same =>
    subst same
    rw [confirmedSubscription_change change, normal, if_pos stopping] at form
    have saved : b = { raw with
        revision := b.revision, renewalStopped := true,
        entitlementSourceVersion := b.entitlementSourceVersion } := by
      rw [form]
    rw [next] at saved
    refine .stop raw b (saves ?_ fun known _ => ?_) admitted.free saved sources ?_ ?_
    · rw [saved]
      exact state
    · rw [saved]
      exact known
    · rw [← readable]
      exact id
    · exact settlement.watched immediate (.inl applied)
  | take lasting applied immediate form readable' sources' =>
    rw [confirmedSubscription_change change, normal, if_neg lasting] at form
    have started := (admitted.prompt immediate).1
    have saved : b = { raw with
        revision := b.revision, pendingChangeId := "",
        state := C.lifecycle.stateFor a.material.target.planCode a.material.target.number,
        planCode := a.material.target.planCode, planVersion := a.material.target.number,
        periodStart := b.periodStart, periodEnd := b.periodEnd, sourceNamespace := r.changeId,
        renewalStopped := false, entitlementSourceVersion := b.entitlementSourceVersion } := by
      rw [form, ← admitted.free]
      rfl
    have period_ : b.periodStart = a.start ∧ b.periodEnd = a.ends := by
      rw [form]
      exact ⟨rfl, rfl⟩
    rw [next, ← changeId] at saved
    refine .take raw b a.material.target receipt (saves ?_ fun _ chosen => ?_) saved
      admitted.captured.usable ?_ ?_ ?_ (status.trans applied) ?_ ?_ readable' ?_
    · rw [saved]
      exact not_provisioning _ _ _
    · rw [period_.2]
      exact chosen
    · rw [changeId]
      exact named
    · intro known stored
      rw [changeId, fresh] at stored
      cases stored
    · rw [changeId]
    · intro _
      rw [period_.1, started]
      exact admittedAt
    · rw [period_.1, period_.2, changeId, ← sources]
      exact sources'
    · exact .inr (settlement.watched immediate (.inl applied))

theorem receiptForRequest_ok {actor request fingerprint : String}
    (read : receiptForRequest C actor request fingerprint store = .ok (some receipt)) :
    store.receipts.find? receipt.changeId = some receipt := by
  unfold receiptForRequest at read
  split at read
  · cases read
  · rename_i row found
    simp only [bind_ok, require_ok, pure_ok, Option.some.injEq] at read
    obtain ⟨-, -, -, -, rfl⟩ := read
    exact Table.find?_eq_some.mpr ⟨List.mem_of_find?_eq_some found, rfl⟩

/-- A confirmation is a replay, or it is admitted and settled. -/
theorem confirm_steps (ran : confirm C S r store = .ok receipt after) :
    Quiet C store after ∧ store.receipts.find? receipt.changeId = some receipt ∨
      Text.key r.changeId = true ∧ ∃ hint current first a middle,
        lockCurrent C r hint store = .ok current first ∧
        admission C S r current first = .ok a middle ∧
        settle C S r a middle = .ok receipt after := by
  obtain ⟨⟨-, key, -⟩, ran⟩ := run_demand_bind.mp ran
  obtain ⟨preview, -, ran⟩ := run_read_bind.mp ran
  cases preview with
  | none =>
    obtain ⟨replay, read, ran⟩ := run_read_bind.mp ran
    obtain ⟨found, rfl⟩ := run_check.mp ran
    rw [found_ok] at found
    subst found
    exact .inl ⟨Quiet.refl C _, receiptForRequest_ok read⟩
  | some hint =>
    obtain ⟨current, first, locked, ran⟩ := run_bind.mp ran
    obtain ⟨replay, read, ran⟩ := run_read_bind.mp ran
    have quiet := (run_lockCurrent locked).1
    cases replay with
    | some old =>
      obtain ⟨rfl, rfl⟩ := run_pure.mp ran
      exact .inl ⟨quiet, quiet.receipt ▸ receiptForRequest_ok read⟩
    | none =>
      obtain ⟨a, middle, admits, settles⟩ := run_bind.mp ran
      exact .inr ⟨key, hint.input, current, first, a, middle, locked, admits, settles⟩

/-- A transaction that leaves the ledger alone is an idle move. -/
theorem move_of_quiet (quiet : Quiet C store after) :
    Move C grace orphan (C.ledger store) (C.ledger after) := by
  rw [quiet.2]
  exact .idle quiet.1 rfl fun _ _ _ _ watched => watched

/-- What a confirmation of a change does that is neither a replay nor a first
activation: it is admitted on the subscription of the tenant, and settled. -/
theorem settlement_of_admission {first : Store} {i : Input}
    (locked : lockCurrent C r i store = .ok current first)
    (admits : admission C S r current first = .ok a middle)
    (settles : settle C S r a middle = .ok receipt after)
    (change : a.preview.input.action ≠ .initial) :
    ∃ raw x b, store.subscription = some raw ∧ Quiet C store middle ∧
      a.admitted ≤ middle.clock.now ∧ Admitted C store raw r a ∧
      Settlement C r a middle after x b receipt := by
  obtain ⟨early, -, present⟩ := run_lockCurrent locked
  obtain ⟨quiet, passed, admitted⟩ := run_admission admits change
  have lists : Snapshot.Lists (C.ledger middle).source a.material.sources := by
    rw [show (C.ledger middle).source = (C.ledger first).source from quiet.source]
    exact admitted.captured.lists
  cases current with
  | none =>
    -- Without a subscription there is no plan that the change could start from.
    have normal := admitted.captured.normalized
    simp only [normalize, bind_ok, require_ok] at normal
    obtain ⟨-, ⟨-, -, valid⟩, -⟩ := normal
    cases valid
  | some raw =>
    obtain ⟨held, mine⟩ := present raw rfl
    have owned : a.material.before.tenantId = C.tenant := by
      rw [normalize_frame admitted.captured.normalized]
      exact mine
    obtain ⟨x, b, settlement⟩ := run_settle change lists admitted.captured.mine owned admitted.stop
      settles
    exact ⟨raw, x, b, held, early.trans quiet, passed, admitted.of_quiet early, settlement⟩

theorem move_confirm (settled : Settled (C.ledger store))
    (ran : confirm C S r store = .ok receipt after) :
    Move C grace orphan (C.ledger store) (C.ledger after) := by
  rcases confirm_steps ran with ⟨quiet, -⟩ | ⟨key, _, _, _, a, _, locked, admits,
    settles⟩
  · exact move_of_quiet quiet
  obtain ⟨raw, held, revised, valid, state⟩ := settled
  have change : a.preview.input.action ≠ .initial := by
    intro initial
    have absent := (run_lockCurrent locked).2.1 (none_of_admission admits initial)
    rw [show store.subscription = some raw from held] at absent
    cases absent
  obtain ⟨b, x, _, held', quiet, passed, admitted, settlement⟩ :=
    settlement_of_admission locked admits settles change
  obtain rfl : b = raw := Option.some.inj (held'.symm.trans held)
  have normal : a.material.before = b := normalize_eq admitted.captured.normalized revised
    (BaseSubscription.namespace_of_validate valid revised)
  exact settlement.move quiet admitted passed change key held' normal state

end Moves

end Biz.Change
