import Biz.Library.Runs
import Biz.ModuleCatalog.Model

/-!
# Histories of the module catalogue

What the tables say is a ledger: the modules by code, the recorded dependencies, the codes
that were deleted and the versions that were verified. A command that succeeds makes one
move of the ledger, and the moves are few: nothing, a new module that is not on sale, a
module with a version that does not decrease, which may be on sale only if that version is
verified, a verification, or a deletion of a module that no other one depends on.

The invariant of the moves is that modules on sale are verified, dependencies are recorded
and present, and deleted codes have no module. The commands refine the moves, so it holds
in every history.
-/

namespace Biz.ModuleCatalog

open Time Checks Runs
open Function (update_apply update_of_ne)

/-- What the tables say. -/
structure Ledger where
  modules : String → Option ModuleRow
  depends : String → String → Prop
  retired : String → Prop
  verified : String → Nat → Prop

def Store.ledger (store : Store) : Ledger where
  modules := store.modules.find?
  depends code dep := store.dependencies.find? (code, dep) ≠ none
  retired code := store.retiredCodes.find? code ≠ none
  verified code version := store.verifications.find? (code, version) ≠ none

inductive Move (registry : Registry) (l l' : Ledger) : Prop
  | quiet (same : l' = l)
  | create (row : ModuleRow) (d : Definition) (known : registry row.code = some d)
      (fresh : ¬l.retired row.code) (absent : l.modules row.code = none)
      (present : ∀ dep ∈ d.dependencies, l.modules dep ≠ none)
      (unsold : row.salesStatus ≠ .sellable)
      (modules : l'.modules = Function.update l.modules row.code (some row))
      (depends : ∀ code dep,
        l'.depends code dep ↔ l.depends code dep ∨ (code = row.code ∧ dep ∈ d.dependencies))
      (retired : l'.retired = l.retired) (verified : l'.verified = l.verified)
  | revise (code : String) (row next : ModuleRow) (found : l.modules code = some row)
      (grows : row.version ≤ next.version)
      (sale : next.salesStatus = .sellable → l.verified code next.version)
      (modules : l'.modules = Function.update l.modules code (some next))
      (depends : l'.depends = l.depends) (retired : l'.retired = l.retired)
      (verified : l'.verified = l.verified)
  | verify (modules : l'.modules = l.modules) (depends : l'.depends = l.depends)
      (retired : l'.retired = l.retired)
      (verified : ∀ code version, l.verified code version → l'.verified code version)
  | delete (code : String) (unreferenced : ∀ other, ¬l.depends other code)
      (modules : l'.modules = Function.update l.modules code none)
      (depends : ∀ other dep, l'.depends other dep ↔ l.depends other dep ∧ other ≠ code)
      (retired : ∀ other, l'.retired other ↔ l.retired other ∨ other = code)
      (verified : l'.verified = l.verified)

/-- The invariant of the catalogue. -/
structure Sound (registry : Registry) (l : Ledger) : Prop where
  verified : ∀ code row, l.modules code = some row → row.salesStatus = .sellable →
    l.verified code row.version
  listed : ∀ code row, l.modules code = some row →
    ∃ d, registry code = some d ∧ ∀ dep ∈ d.dependencies, l.depends code dep
  present : ∀ code dep, l.depends code dep → l.modules dep ≠ none
  retired : ∀ code, l.retired code → l.modules code = none

section Moves

variable {registry : Registry} {l l' : Ledger}

variable (move : Move registry l l')

include move

theorem Move.sound (sound : Sound registry l) : Sound registry l' := by
  cases move with
  | quiet same => exact same ▸ sound
  | create row d known fresh absent present unsold modules depends retired verified =>
    refine ⟨fun code other found sold => ?_, fun code other found => ?_, fun code dep needs => ?_,
      fun code gone => ?_⟩
    · rw [modules, update_apply] at found
      rw [verified]
      split at found
      · cases found
        exact absurd sold unsold
      · exact sound.verified code other found sold
    · rw [modules, update_apply] at found
      split at found
      · rename_i here
        exact ⟨d, here ▸ known, fun dep member => (depends code dep).mpr (.inr ⟨here, member⟩)⟩
      · obtain ⟨d', known', all⟩ := sound.listed code other found
        exact ⟨d', known', fun dep member => (depends code dep).mpr (.inl (all dep member))⟩
    · have there : l.modules dep ≠ none :=
        ((depends code dep).mp needs).elim (sound.present code dep) fun ⟨_, member⟩ =>
          present dep member
      have different : dep ≠ row.code := fun same => there (same ▸ absent)
      rwa [modules, update_of_ne different]
    · rw [retired] at gone
      have different : code ≠ row.code := fun same => fresh (same ▸ gone)
      rw [modules, update_of_ne different]
      exact sound.retired code gone
  | revise code row next found grows sale modules depends retired verified =>
    refine ⟨fun other changed found' sold => ?_, fun other changed found' => ?_,
      fun other dep needs => ?_, fun other gone => ?_⟩
    · rw [modules, update_apply] at found'
      rw [verified]
      split at found'
      · rename_i here
        cases found'
        exact here ▸ sale sold
      · exact sound.verified other changed found' sold
    · rw [modules, update_apply] at found'
      rw [depends]
      split at found'
      · rename_i here
        exact here ▸ sound.listed code row found
      · exact sound.listed other changed found'
    · rw [modules, update_apply]
      split
      · nofun
      · exact sound.present other dep (depends ▸ needs)
    · have gone := sound.retired other (retired ▸ gone)
      have different : other ≠ code := fun same => by simp [same, found] at gone
      rwa [modules, update_of_ne different]
  | verify modules depends retired verified =>
    refine ⟨fun other row found sold => ?_, ?_, ?_, ?_⟩
    · exact verified _ _ (sound.verified other row (modules ▸ found) sold)
    · rw [modules, depends]
      exact sound.listed
    · rw [modules, depends]
      exact sound.present
    · rw [modules, retired]
      exact sound.retired
  | delete code unreferenced modules depends retired verified =>
    have kept : ∀ {other row}, l'.modules other = some row →
        other ≠ code ∧ l.modules other = some row := by
      intro other row found
      rw [modules, update_apply] at found
      split at found
      · cases found
      · exact ⟨by assumption, found⟩
    refine ⟨fun other row found sold => ?_, fun other row found => ?_, fun other dep needs => ?_,
      fun other gone => ?_⟩
    · rw [verified]
      exact sound.verified other row (kept found).2 sold
    · obtain ⟨different, found⟩ := kept found
      obtain ⟨d, known, all⟩ := sound.listed other row found
      exact ⟨d, known, fun dep member => (depends other dep).mpr ⟨all dep member, different⟩⟩
    · have needs := ((depends other dep).mp needs).1
      have different : dep ≠ code := fun same => unreferenced other (same ▸ needs)
      rw [modules, update_of_ne different]
      exact sound.present other dep needs
    · rw [modules, update_apply]
      split
      · rfl
      · rename_i different
        exact sound.retired other (((retired other).mp gone).resolve_right different)

/-- A code that was retired stays so. -/
theorem Move.retired {code : String} (gone : l.retired code) : l'.retired code := by
  cases move with
  | quiet same => exact same ▸ gone
  | create row d known fresh absent present unsold modules depends retired => exact retired ▸ gone
  | revise other row next found grows sale modules depends retired => exact retired ▸ gone
  | verify modules depends retired => exact retired ▸ gone
  | delete other unreferenced modules depends retired => exact (retired code).mpr (.inl gone)

/-- A module that had a version has at least that version, or its code is retired. -/
def Since (code : String) (version : Nat) (l : Ledger) : Prop :=
  (∃ row, l.modules code = some row ∧ version ≤ row.version) ∨ l.retired code

theorem Move.since {code : String} {version : Nat} (since : Since code version l) :
    Since code version l' := by
  rcases since with ⟨row, found, bound⟩ | gone
  · cases move with
    | quiet same => exact same ▸ .inl ⟨row, found, bound⟩
    | create new d known fresh absent present unsold modules =>
      have different : code ≠ new.code := fun same => by simp [← same, found] at absent
      exact .inl ⟨row, by rwa [modules, update_of_ne different], bound⟩
    | revise other old next found' grows sale modules =>
      by_cases here : code = other
      · subst here
        rw [found, Option.some.injEq] at found'
        subst found'
        exact .inl ⟨next, by rw [modules, Function.update_self], bound.trans grows⟩
      · exact .inl ⟨row, by rwa [modules, update_of_ne here], bound⟩
    | verify modules => exact .inl ⟨row, modules ▸ found, bound⟩
    | delete other unreferenced modules depends retired =>
      by_cases here : code = other
      · exact .inr ((retired code).mpr (.inr here))
      · exact .inl ⟨row, by rwa [modules, update_of_ne here], bound⟩
  · exact .inr (move.retired gone)

end Moves

section Refinement

variable {registry : Registry} {E : Encoding} {around : Surroundings} {store after : Store}
  {change : ModuleRow → Definition → Except Err ModuleRow} {out : Module} {requestId code : String}
  {operation : Operation}

theorem transact_ok {Result : Type} {body : Store → Except Err (Result × Store)}
    {outcome : Result × Store} (done : transact body store = .ok outcome) :
    body store = .ok outcome := by
  simp only [transact, bind_ok, found_ok, require_ok] at done
  obtain ⟨-, -, -, -, done⟩ := done
  exact done

/-- The bookkeeping at the end of a command does not show in the ledger. -/
theorem ledger_of_saved {middle : Store} {response : String}
    (advanced : advanceCatalog store = .ok middle)
    (saved : saveIdempotent requestId operation code response middle = .ok after) :
    after.ledger = store.ledger := by
  simp only [advanceCatalog, bind_ok, found_ok, require_ok, pure_ok] at advanced
  simp only [saveIdempotent, bind_ok, found_ok, pure_ok] at saved
  obtain ⟨_, -, -, -, rfl⟩ := advanced
  obtain ⟨_, -, rfl⟩ := saved
  rfl

/-- What the loop over the dependencies of a new module records. -/
theorem find?_of_insertDependency {deps : List String} {first last : Table DependencyRow.key}
    (recorded : deps.foldlM (insertDependency code) first = .ok last) (other dep : String) :
    last.find? (other, dep) ≠ none ↔
      first.find? (other, dep) ≠ none ∨ (other = code ∧ dep ∈ deps) := by
  induction deps generalizing first with
  | nil =>
    cases recorded
    simp
  | cons head rest ih =>
    rw [List.foldlM_cons, bind_ok] at recorded
    obtain ⟨middle, inserted, later⟩ := recorded
    rw [insertDependency, found_ok] at inserted
    rw [ih later, Table.find?_of_insert? inserted]
    by_cases here : (other, dep) = (code, head)
    · obtain ⟨rfl, rfl⟩ := Prod.mk.inj here
      simp [DependencyRow.key]
    · have different : ¬(other = code ∧ dep = head) := fun both => here (by rw [both.1, both.2])
      simp only [DependencyRow.key, here, if_false, List.mem_cons]
      tauto

theorem createModule_move {c : CreateCommand} {d : Definition} (known : registry c.code = some d)
    (done : createModule E around c d store = .ok (out, after)) :
    Move registry store.ledger after.ledger := by
  simp only [createModule, bind_ok, found_ok, require_ok, pure_ok, Prod.mk.injEq] at done
  obtain ⟨-, fresh, -, present, _, inserted, _, recorded, _, moved, _,
    kept, -, rfl⟩ := done
  rw [ledger_of_saved moved kept]
  refine .create (newRow c d around.clock) d known (fun gone => gone fresh)
    (Table.insert?_eq_some inserted).1 present (by simp [newRow]) ?_ ?_ rfl rfl
  · funext code
    rw [update_apply]
    exact Table.find?_of_insert? inserted code
  · exact find?_of_insertDependency recorded

theorem mutateModule_move {version : Nat} {admission : Bool} {d : Definition}
    (keeps : ∀ row changed, change row d = .ok changed → changed.version = row.version)
    (sale : ∀ row changed, change row d = .ok changed →
      (revised operation changed around.clock).salesStatus = .sellable →
        operation = .salesStatus ∧ admission = true)
    (done : mutateModule E around requestId code version operation admission change d store =
      .ok (out, after)) : Move registry store.ledger after.ledger := by
  simp only [mutateModule, bind_ok, found_ok, require_ok, pure_ok, Prod.mk.injEq] at done
  obtain ⟨row, located, -, current, -, admitted, changed, made, -, -, advanced, moved, saved, kept,
    -, rfl⟩ := done
  rw [ledger_of_saved moved kept]
  have next := revised_version operation changed around.clock
  rw [keeps row changed made] at next
  refine .revise code row ((revised operation changed around.clock).written row) located ?_ ?_ ?_
    rfl
    rfl rfl
  · show row.version ≤ (revised operation changed around.clock).version
    rw [next]
    split <;> omega
  · intro sold
    obtain ⟨same, required⟩ := sale row changed made sold
    show store.verifications.find? (code, (revised operation changed around.clock).version) ≠ none
    rw [next, if_pos same, current]
    exact admitted required
  · funext other
    rw [update_apply]
    refine (Table.find?_update store.modules code other _ (ModuleRow.written_code _)).trans ?_
    rw [located]
    rfl

theorem mutate_move {reason : String} {version : Nat} {admission : Bool}
    (keeps : ∀ d row changed, change row d = .ok changed → changed.version = row.version)
    (sale : ∀ d row changed, change row d = .ok changed →
      (revised operation changed around.clock).salesStatus = .sellable →
        operation = .salesStatus ∧ admission = true)
    (done : mutate registry E around requestId code reason version operation admission change
      store =
      .ok (out, after)) : Move registry store.ledger after.ledger := by
  simp only [mutate, bind_ok, found_ok, require_ok] at done
  obtain ⟨-, -, -, -, d, -, done⟩ := done
  have done := transact_ok done
  rw [bind_ok] at done
  obtain ⟨replay, -, done⟩ := done
  cases replay with
  | some answered =>
    cases done
    exact .quiet rfl
  | none => exact mutateModule_move (keeps d) (sale d) done

theorem create_move {c : CreateCommand}
    (done : create registry E around c store = .ok (out, after)) :
    Move registry store.ledger after.ledger := by
  simp only [create, bind_ok, found_ok, require_ok] at done
  obtain ⟨-, -, -, -, d, known, done⟩ := done
  have done := transact_ok done
  rw [bind_ok] at done
  obtain ⟨replay, -, done⟩ := done
  cases replay with
  | some answered =>
    cases done
    exact .quiet rfl
  | none => exact createModule_move known done

theorem update_move {c : UpdateCommand}
    (done : update registry E around c store = .ok (out, after)) :
    Move registry store.ledger after.ledger := by
  refine mutate_move (fun d row changed made => ?_) (fun d row changed made sold => ?_) done
  · simp only [renamed, bind_ok, require_ok, pure_ok] at made
    obtain ⟨-, -, rfl⟩ := made
    rfl
  · exact absurd rfl (revised_sellable sold).1

theorem setSalesStatus_move {c : StatusCommand}
    (done : setSalesStatus registry E around c store = .ok (out, after)) :
    Move registry store.ledger after.ledger := by
  simp only [setSalesStatus, bind_ok, require_ok] at done
  obtain ⟨-, -, done⟩ := done
  refine mutate_move (fun d row changed made => ?_) (fun d row changed made sold => ?_) done
  · cases made
    rfl
  · cases made
    exact ⟨rfl, decide_eq_true (revised_sellable sold).2.2⟩

theorem setTechnicalStatus_move {c : StatusCommand}
    (done : setTechnicalStatus registry E around c store = .ok (out, after)) :
    Move registry store.ledger after.ledger := by
  simp only [setTechnicalStatus, bind_ok, require_ok] at done
  obtain ⟨-, -, done⟩ := done
  refine mutate_move (fun d row changed made => ?_) (fun d row changed made sold => ?_) done
  · simp only [technicallyChanged, bind_ok, require_ok, pure_ok] at made
    obtain ⟨-, -, rfl⟩ := made
    rfl
  · exact absurd rfl (revised_sellable sold).2.1

theorem recordRuntimeVerification_move {c : RuntimeVerificationCommand}
    (done : recordRuntimeVerification registry around c store = .ok ((), after)) :
    Move registry store.ledger after.ledger := by
  simp only [recordRuntimeVerification, bind_ok, require_ok] at done
  obtain ⟨_, -, -, -, -, -, done⟩ := done
  have done := transact_ok done
  simp only [bind_ok, found_ok, require_ok] at done
  obtain ⟨_, -, -, -, done⟩ := done
  split at done
  · simp only [bind_ok, require_ok, pure_ok, Prod.mk.injEq] at done
    obtain ⟨-, -, -, rfl⟩ := done
    exact .quiet rfl
  · simp only [bind_ok, found_ok, pure_ok, Prod.mk.injEq] at done
    obtain ⟨verifications, inserted, -, rfl⟩ := done
    refine .verify rfl rfl rfl fun code version verified => ?_
    show verifications.find? (code, version) ≠ none
    rw [Table.find?_of_insert? inserted]
    split
    · exact Option.some_ne_none _
    · exact verified

theorem deleteModule_move {c : DeleteCommand}
    (done : deleteModule E around c store = .ok ((), after)) :
    Move registry store.ledger after.ledger := by
  simp only [deleteModule, bind_ok, found_ok, require_ok, pure_ok, Prod.mk.injEq] at done
  obtain ⟨row, _, -, -, -, unreferenced, -, -, -, -, retiredCodes, inserted, _, moved,
    _, kept, -, rfl⟩ := done
  rw [ledger_of_saved moved kept]
  refine .delete c.code ?_ ?_ ?_ ?_ rfl
  · intro other depends
    obtain ⟨dependency, found⟩ := Option.ne_none_iff_exists'.mp depends
    obtain ⟨member, same⟩ := Table.find?_eq_some.mp found
    exact unreferenced dependency member (congrArg Prod.snd same)
  · funext code
    refine (Table.find?_keep store.modules _ code).trans ?_
    rw [update_apply]
    cases found : store.modules.find? code with
    | none => simp [Store.ledger, found]
    | some row =>
      have same : row.code = code := Table.key_of_find? found
      by_cases here : code = c.code <;> simp [Store.ledger, found, same, here]
  · intro other dep
    show (store.dependencies.keep _).find? (other, dep) ≠ none ↔ _
    rw [Table.find?_keep]
    cases found : store.dependencies.find? (other, dep) with
    | none => simp [Store.ledger, found]
    | some dependency =>
      have same : dependency.moduleCode = other := congrArg Prod.fst (Table.key_of_find? found)
      simp [Store.ledger, found, same, Option.filter]
  · intro other
    show retiredCodes.find? other ≠ none ↔ _
    rw [Table.find?_of_insert? inserted]
    by_cases here : other = c.code <;> simp [Store.ledger, here]

theorem delete_move {c : DeleteCommand}
    (done : delete registry E around c store = .ok ((), after)) :
    Move registry store.ledger after.ledger := by
  simp only [delete, bind_ok, require_ok] at done
  obtain ⟨-, -, -, -, -, -, done⟩ := done
  have done := transact_ok done
  rw [bind_ok] at done
  obtain ⟨replay, -, done⟩ := done
  cases replay with
  | some answered =>
    cases done
    exact .quiet rfl
  | none => exact deleteModule_move done

end Refinement

inductive Command
  | create (command : CreateCommand)
  | update (command : UpdateCommand)
  | setSalesStatus (command : StatusCommand)
  | setTechnicalStatus (command : StatusCommand)
  | recordRuntimeVerification (command : RuntimeVerificationCommand)
  | delete (command : DeleteCommand)

/-- The tables after a command that has succeeded. -/
def Command.apply (registry : Registry) (E : Encoding) (around : Surroundings) (store : Store) :
    Command → Except Err Store
  | .create command => (ModuleCatalog.create registry E around command store).map Prod.snd
  | .update command => (ModuleCatalog.update registry E around command store).map Prod.snd
  | .setSalesStatus command =>
    (ModuleCatalog.setSalesStatus registry E around command store).map Prod.snd
  | .setTechnicalStatus command =>
    (ModuleCatalog.setTechnicalStatus registry E around command store).map Prod.snd
  | .recordRuntimeVerification command =>
    (ModuleCatalog.recordRuntimeVerification registry around command store).map Prod.snd
  | .delete command => (ModuleCatalog.delete registry E around command store).map Prod.snd

/-- A call of a command; one that fails is rolled back. -/
inductive Step (registry : Registry) (E : Encoding) :
    Store → Surroundings × Command → Store → Prop
  | served {store after : Store} {around : Surroundings} {command : Command}
      (done : command.apply registry E around store = .ok after) :
      Step registry E store (around, command) after
  | failed {store : Store} {around : Surroundings} {command : Command} {error : Err}
      (refused : command.apply registry E around store = .error error) :
      Step registry E store (around, command) store

section Runs

variable {registry : Registry} {E : Encoding} {around : Surroundings}
  {store after first a b c : Store} {call : Surroundings × Command}
  {early middle late : List (Surroundings × Command)}

theorem map_snd_ok {Result : Type} {x : Except Err (Result × Store)}
    (done : x.map Prod.snd = .ok after) : ∃ result, x = .ok (result, after) := by
  cases x with
  | error _ => cases done
  | ok outcome =>
    cases done
    exact ⟨outcome.1, rfl⟩

theorem Command.apply_move {command : Command}
    (done : command.apply registry E around store = .ok after) :
    Move registry store.ledger after.ledger := by
  cases command <;> obtain ⟨_, done⟩ := map_snd_ok done
  case create => exact create_move done
  case update => exact update_move done
  case setSalesStatus => exact setSalesStatus_move done
  case setTechnicalStatus => exact setTechnicalStatus_move done
  case recordRuntimeVerification => exact recordRuntimeVerification_move done
  case delete => exact delete_move done

theorem Step.move (taken : Step registry E store call after) :
    Move registry store.ledger after.ledger := by
  cases taken with
  | served done => exact Command.apply_move done
  | failed => exact .quiet rfl

theorem sound_of_run (blank : first.modules = Table.empty ∧ first.dependencies = Table.empty)
    (run : Run (Step registry E) first early store) : Sound registry store.ledger := by
  refine run.invariant (fun _ _ _ sound taken => taken.move.sound sound) ?_
  have none : ∀ code, first.ledger.modules code = none := by
    intro code
    show first.modules.find? code = none
    rw [blank.1, Table.find?_empty]
  refine ⟨fun code row found => ?_, fun code row found => ?_, fun code dep depends => ?_,
    fun code _ => none code⟩
  · rw [none] at found
    cases found
  · rw [none] at found
    cases found
  · refine absurd ?_ depends
    rw [blank.2, Table.find?_empty]

theorem retired_of_run {code : String} (run : Run (Step registry E) store early after)
    (gone : store.ledger.retired code) : after.ledger.retired code := by
  exact run.invariant (fun _ _ _ gone taken => taken.move.retired gone) gone

theorem since_of_run {code : String} {version : Nat} (run : Run (Step registry E) store early after)
    (since : Since code version store.ledger) : Since code version after.ledger := by
  exact run.invariant (fun _ _ _ since taken => taken.move.since since) since

/-- In every history of commands that starts without modules, a module on sale has a
verification for its current version, the dependencies of every module are in the
catalogue, the version of a module never decreases, and a code that was deleted has no
module ever after. -/
theorem catalogue_sound (blank : first.modules = Table.empty ∧ first.dependencies = Table.empty)
    (before : Run (Step registry E) first early a) (between : Run (Step registry E) a middle b)
    (afterwards : Run (Step registry E) b late c) :
    (∀ code row, c.modules.find? code = some row → row.salesStatus = .sellable →
        ∃ verified, c.verifications.find? (code, row.version) = some verified) ∧
      (∀ code row, c.modules.find? code = some row →
        ∃ d, registry code = some d ∧
          ∀ dep ∈ d.dependencies, ∃ other, c.modules.find? dep = some other) ∧
      (∀ code row later, a.modules.find? code = some row → c.modules.find? code = some later →
        row.version ≤ later.version) ∧
      ∀ code row, a.modules.find? code = some row → b.modules.find? code = none →
        c.modules.find? code = none := by
  have sound := sound_of_run blank ((before.append between).append afterwards)
  refine ⟨fun code row found sold => ?_, fun code row found => ?_,
    fun code row later found found' => ?_, fun code row found deleted => ?_⟩
  · exact Option.ne_none_iff_exists'.mp (sound.verified code row found sold)
  · obtain ⟨d, known, listed⟩ := sound.listed code row found
    refine ⟨d, known, fun dep member => ?_⟩
    exact Option.ne_none_iff_exists'.mp (sound.present code dep (listed dep member))
  · have since := since_of_run (between.append afterwards) (.inl ⟨row, found, le_rfl⟩)
    rcases since with ⟨other, known, bound⟩ | gone
    · have same : some other = some later := known.symm.trans found'
      cases same
      exact bound
    · have none : c.modules.find? code = none := sound.retired code gone
      rw [found'] at none
      cases none
  · have since := since_of_run between (.inl ⟨row, found, le_rfl⟩)
    rcases since with ⟨other, known, -⟩ | gone
    · have same : some other = none := known.symm.trans deleted
      cases same
    · exact sound.retired code (retired_of_run afterwards gone)

end Runs

section Sample

def sampleRegistry : Registry := fun code =>
  if code = "base" ∨ code = "extra" then some
    { code, capabilityCodes := [], quotaSchemaKeys := [], fieldPolicySchemaKeys := [],
      dependencies := if code = "extra" then ["base"] else [], implementationReady := true }
  else none

def sampleEncoding : Encoding :=
  ⟨⟨fun _ => none, fun _ => none, nofun⟩, ⟨fun _ => none, fun _ => none, nofun⟩⟩

def sampleStore : Store :=
  { catalogVersion := some 1, modules := Table.empty, dependencies := Table.empty,
    retiredCodes := Table.empty, idempotency := Table.empty, verifications := Table.empty }

/-- A call by an operator, and one by the verifier. -/
def sampleOperator : Surroundings := ⟨some ⟨true, "operator", "", [], false⟩, hour, false⟩

def sampleVerifier : Surroundings :=
  ⟨some ⟨true, "ci-verifier:main", "", ["signed-service-api"], true⟩, hour, false⟩

def sampleCreate (requestId code : String) : Surroundings × Command :=
  (sampleOperator, .create ⟨requestId, code, "Module", "", "new", []⟩)

def sampleDelete : Surroundings × Command := (sampleOperator, .delete ⟨"three", "extra", "old", 1⟩)

def sampleHash : String := String.ofList (List.replicate 64 'a')

def sampleVerify : Surroundings × Command :=
  (sampleVerifier, .recordRuntimeVerification ⟨"base", sampleHash, sampleHash, 1⟩)

def sampleSell : Surroundings × Command :=
  (sampleOperator, .setSalesStatus ⟨"four", "base", "launch", 1, .ready, .sellable⟩)

/-- The tables after a call. -/
def sampleNext (store : Store) (call : Surroundings × Command) : Store :=
  match call.2.apply sampleRegistry sampleEncoding call.1 store with
  | .ok after => after
  | .error _ => store

theorem sample_step (store : Store) (call : Surroundings × Command) :
    Step sampleRegistry sampleEncoding store call (sampleNext store call) := by
  unfold sampleNext
  split
  · exact .served ‹_›
  · exact .failed ‹_›

/-- A run through a list of calls. -/
theorem sample_run (store : Store) (calls : List (Surroundings × Command)) :
    Run (Step sampleRegistry sampleEncoding) store calls (calls.foldl sampleNext store) := by
  induction calls generalizing store with
  | nil => exact .done store
  | cons call rest ih =>
    exact .step (sample_step store call) (ih _)

def sampleBoth : Store :=
  [sampleCreate "one" "base", sampleCreate "two" "extra"].foldl sampleNext sampleStore

def sampleDeleted : Store := [sampleDelete].foldl sampleNext sampleBoth

def sampleOnSale : Store := [sampleVerify, sampleSell].foldl sampleNext sampleDeleted

/-- Two modules are created, one is deleted, and the other is verified and put on sale. -/
theorem catalogue_sound_sample :
    (sampleOnSale.modules.find? "base").map (·.salesStatus) = some .sellable ∧
      (∀ row, sampleOnSale.modules.find? "base" = some row → row.salesStatus = .sellable →
        ∃ verified, sampleOnSale.verifications.find? ("base", row.version) = some verified) ∧
      (sampleBoth.modules.find? "extra").map (·.version) = some 1 ∧
      sampleOnSale.modules.find? "extra" = none := by
  obtain ⟨verified, -, -, gone⟩ := catalogue_sound ⟨rfl, rfl⟩
    (sample_run sampleStore [sampleCreate "one" "base", sampleCreate "two" "extra"])
    (sample_run sampleBoth [sampleDelete]) (sample_run sampleDeleted [sampleVerify, sampleSell])
  have created : (sampleBoth.modules.find? "extra").map (·.version) = some 1 := by decide +kernel
  obtain ⟨row, known, -⟩ := Option.map_eq_some_iff.mp created
  exact ⟨by decide +kernel, verified "base", created,
    gone "extra" row known (by decide +kernel)⟩

end Sample

end Biz.ModuleCatalog
