import Biz.Library.Isolation

/-!
# What a transaction can write, and how it runs alone

The footprint of a transaction bounds its writes whatever its statements see, so it
holds in every interleaving. Beside it are rules for a transaction that runs alone:
what is true of every run that commits, statement by statement.
-/

namespace Biz.Isolation

variable {Key : Type} {Row : Key → Type} {Failure α β Op : Type}

/-- Every write of the transaction is allowed, whatever its statements see. -/
def Emits (allowed : Write Row → Prop) : Code Row Failure α → Prop
  | .done _ => True
  | .fail _ => True
  | .plain next => ∀ view, Emits allowed (next view)
  | .current _ writes next =>
    ∀ view, (∀ write ∈ writes view, allowed write) ∧ Emits allowed (next view)

/-- The writes of each statement are allowed over what it sees, if it sees only what is
assumed. -/
def Bounds (seen : AList Row → Prop) (allowed : AList Row → Write Row → Prop) :
    Code Row Failure α → Prop
  | .done _ => True
  | .fail _ => True
  | .plain next => ∀ view, seen view → Bounds seen allowed (next view)
  | .current _ writes next => ∀ view, seen view →
    (∀ write ∈ writes view, allowed view write) ∧ Bounds seen allowed (next view)

theorem emits_iff {allowed : Write Row → Prop} {code : Code Row Failure α} :
    Emits allowed code ↔ Bounds (fun _ => True) (fun _ => allowed) code := by
  induction code with
  | done value => exact Iff.rfl
  | fail failure => exact Iff.rfl
  | plain _ ih | current _ _ _ ih => simp only [Emits, Bounds, ih, true_imp_iff]

@[simp]
theorem bind_bind {γ : Type} (code : Code Row Failure α) (first : α → Code Row Failure β)
    (second : β → Code Row Failure γ) :
    code >>= first >>= second = code >>= fun value => first value >>= second := by
  induction code with
  | done value => rfl
  | fail failure => rfl
  | plain next ih => exact congrArg Code.plain (funext ih)
  | current rows writes next ih =>
    exact congrArg (Code.current rows writes) (funext ih)

section Bounds

variable {seen : AList Row → Prop} {allowed : AList Row → Write Row → Prop}
  {code : Code Row Failure α} {rest : α → Code Row Failure β} {promise : Promise Row Op}
  {assumes : Assumption Row} {f : AList Row → Except Failure α} {condition : Prop}

@[simp]
theorem bounds_pure (value : α) : Bounds seen allowed (pure value : Code Row Failure α) := trivial

@[simp]
theorem bounds_lift (outcome : Except Failure α) :
    Bounds seen allowed (Code.lift outcome : Code Row Failure α) := by
  cases outcome with
  | error failure => trivial
  | ok value => trivial

@[simp]
theorem bounds_require (failure : Failure) (condition : Prop) [Decidable condition] :
    Bounds seen allowed (Code.require failure condition : Code Row Failure Unit) :=
  bounds_lift _

theorem Bounds.bind (first : Bounds seen allowed code)
    (second : ∀ value, Bounds seen allowed (rest value)) : Bounds seen allowed (code >>= rest) := by
  induction code with
  | done value => exact second value
  | fail failure => trivial
  | plain next ih =>
    exact fun view fits => ih view (first view fits)
  | current rows writes next ih =>
    exact fun view fits => ⟨(first view fits).1, ih view (first view fits).2⟩

@[simp]
theorem bounds_lift_bind {outcome : Except Failure α} :
    Bounds seen allowed (Code.lift outcome >>= rest) ↔
      ∀ value, outcome = .ok value → Bounds seen allowed (rest value) := by
  cases outcome with
  | error failure => exact ⟨fun _ _ failed => (nomatch failed), fun _ => trivial⟩
  | ok value =>
    constructor
    · intro holds _ same
      cases same
      exact holds
    · exact fun holds => holds value rfl

@[simp]
theorem bounds_require_bind {failure : Failure} [Decidable condition]
    {rest : Unit → Code Row Failure β} :
    Bounds seen allowed (Code.require failure condition >>= rest) ↔
      (condition → Bounds seen allowed (rest ())) :=
  bounds_lift_bind.trans
    ⟨fun holds passed => holds () (Checks.require_ok.mpr passed),
      fun holds _ passed => holds (Checks.require_ok.mp passed)⟩

@[simp]
theorem bounds_whenever [Decidable condition] {code : Code Row Failure Unit} :
    Bounds seen allowed (Code.whenever condition code) ↔
      (condition → Bounds seen allowed code) := by
  unfold Code.whenever
  split
  · rename_i taken
    exact ⟨fun holds _ => holds, fun holds => holds taken⟩
  · rename_i skipped
    exact ⟨fun _ taken => absurd taken skipped, fun _ => trivial⟩

@[simp]
theorem bounds_whenever_bind [Decidable condition] {code : Code Row Failure Unit}
    {rest : Unit → Code Row Failure β} :
    Bounds seen allowed (Code.whenever condition code >>= rest) ↔
      (condition → Bounds seen allowed (code >>= rest)) ∧
        (¬condition → Bounds seen allowed (rest ())) := by
  unfold Code.whenever
  split
  · rename_i taken
    exact ⟨fun holds => ⟨fun _ => holds, fun skipped => absurd taken skipped⟩, fun both =>
      both.1 taken⟩
  · rename_i skipped
    exact ⟨fun holds => ⟨fun taken => absurd taken skipped, fun _ => holds⟩, fun both =>
      both.2 skipped⟩

theorem bounds_forM {Item : Type} {body : Item → Code Row Failure Unit} {items : List Item}
    (round : ∀ item ∈ items, Bounds seen allowed (body item)) :
    Bounds seen allowed (forM items body) := by
  induction items with
  | nil => trivial
  | cons item rest ih =>
    apply Bounds.bind (round item List.mem_cons_self)
    intro _
    exact ih fun later member => round later (.tail _ member)

@[simp]
theorem bounds_read (f : AList Row → Except Failure α) : Bounds seen allowed (Code.read f) :=
  fun _ _ => bounds_lift _

@[simp]
theorem bounds_read_bind :
    Bounds seen allowed (Code.read f >>= rest) ↔
      ∀ view, seen view → ∀ value, f view = .ok value → Bounds seen allowed (rest value) :=
  forall_congr' fun _ => imp_congr_right fun _ => bounds_lift_bind

@[simp]
theorem bounds_lock (rows : AList Row → List Key) (f : AList Row → Except Failure α) :
    Bounds seen allowed (Code.lock rows f) :=
  fun _ _ => ⟨fun _ member => (nomatch member), bounds_lift _⟩

@[simp]
theorem bounds_lock_bind {rows : AList Row → List Key} :
    Bounds seen allowed (Code.lock rows f >>= rest) ↔
      ∀ view, seen view → ∀ value, f view = .ok value → Bounds seen allowed (rest value) :=
  forall_congr' fun _ => imp_congr_right fun _ =>
    (and_iff_right fun _ member => (nomatch member)).trans bounds_lift_bind

variable {f : AList Row → Except Failure (α × List (Write Row))}

@[simp]
theorem bounds_modify_bind :
    Bounds seen allowed (Code.modify f >>= rest) ↔ ∀ view, seen view → ∀ value writes,
      f view = .ok (value, writes) →
        (∀ write ∈ writes, allowed view write) ∧ Bounds seen allowed (rest value) := by
  apply forall_congr'
  intro view
  apply imp_congr_right
  intro _
  change _ ∧ Bounds seen allowed (Code.lift _ >>= rest) ↔ _
  cases outcome : f view with
  | error failure => simp [outcome, Except.map]
  | ok result =>
    obtain ⟨_, _⟩ := result
    simp [outcome, Except.map]

@[simp]
theorem bounds_modify :
    Bounds seen allowed (Code.modify f) ↔ ∀ view, seen view → ∀ value writes,
      f view = .ok (value, writes) → ∀ write ∈ writes, allowed view write := by
  apply forall_congr'
  intro view
  apply imp_congr_right
  intro _
  cases outcome : f view with
  | error failure => simp [outcome]
  | ok result =>
    obtain ⟨_, _⟩ := result
    simp [outcome]

theorem Bounds.mono {weaker : AList Row → Write Row → Prop}
    (implied : ∀ view write, allowed view write → weaker view write)
    (bounds : Bounds seen allowed code) : Bounds seen weaker code := by
  induction code with
  | done value => trivial
  | fail failure => trivial
  | plain next ih =>
    exact fun view fits => ih view (bounds view fits)
  | current rows writes next ih =>
    exact fun view fits =>
      ⟨fun write member => implied view write ((bounds view fits).1 write member),
      ih view (bounds view fits).2⟩

variable [DecidableEq Key]

/-- The footprint among other transactions: an assertion that allowed writes keep is kept. -/
theorem Bounds.keeps {kept : Assertion Row} (steady : Steady promise kept)
    (plain : ∀ standing committed, kept standing committed → seen (standing.plainView committed))
    (current : ∀ standing committed, kept standing committed →
      seen (standing.currentView committed))
    (written : ∀ standing committed rows writes, kept standing committed →
      (∀ write ∈ writes, allowed (standing.currentView committed) write) →
      kept (standing.extend rows writes) committed) (bounds : Bounds seen allowed code) :
    Keeps promise assumes kept code := by
  induction code with
  | done value => exact keeps_pure value
  | fail failure => exact keeps_lift (.error failure)
  | plain next ih =>
    exact steady.plain fun _ _ holds => ih _ (bounds _ (plain _ _ holds))
  | current rows writes next ih =>
    apply steady.current
    · exact fun _ _ holds => written _ _ _ _ holds (bounds _ (current _ _ holds)).1
    · exact fun _ _ holds => ih _ (bounds _ (current _ _ holds)).2

variable {allowed : Write Row → Prop}

/-- Every write so far is allowed. -/
theorem Bounds.keeps_writes (bounds : Bounds (fun _ => True) (fun _ => allowed) code) :
    Keeps promise assumes (fun standing _ => ∀ write ∈ standing.writes, allowed write) code := by
  have steady : Steady promise fun (standing : Standing Row) (_ : AList Row) =>
      ∀ write ∈ standing.writes, allowed write := {
    rely := fun kept _ => kept
    opened := fun kept => kept
    locked := fun _ kept write listed => kept write (by simpa [Standing.extend] using listed) }
  apply bounds.keeps steady (fun _ _ _ => trivial) (fun _ _ _ => trivial)
  intro standing committed rows writes kept own write listed
  exact (List.mem_append.mp listed).elim (kept write) (own write)

/-- A part that writes nothing keeps every steady assertion. -/
theorem Bounds.keeps_steady {kept : Assertion Row}
    (silent : Bounds (fun _ => True) (fun _ _ => False) code) (steady : Steady promise kept) :
    Keeps promise assumes kept code := by
  apply silent.keeps steady (fun _ _ _ => trivial) (fun _ _ _ => trivial)
  intro standing committed rows writes holds none
  cases writes with
  | nil => exact steady.locked rows holds
  | cons write _ => exact (none write List.mem_cons_self).elim

/-- The footprint of a transaction that runs alone. -/
theorem Bounds.run (bounds : Bounds (fun _ => True) (fun _ => allowed) code)
    {rows after : AList Row} {value : α} (ran : code.run rows = .ok (value, after)) :
    ∃ writes : List (Write Row), (∀ write ∈ writes, allowed write) ∧
      after = overlay rows writes := by
  induction code generalizing rows with
  | done value =>
    cases ran
    exact ⟨[], fun _ member => (nomatch member), rfl⟩
  | fail failure => cases ran
  | plain next ih => exact ih rows (bounds rows trivial) ran
  | current locked writes next ih =>
    obtain ⟨early, later⟩ := bounds rows trivial
    obtain ⟨more, allowedMore, rfl⟩ := ih rows later ran
    refine ⟨writes rows ++ more, ?_, (overlay_append ..).symm⟩
    intro write member
    rcases List.mem_append.mp member with first | last
    · exact early write first
    · exact allowedMore write last

/-- Writes that change the rows they fall on as a relation says: among other transactions, a
commit then changes the committed rows so. -/
theorem Bounds.settles {relation : (key : Key) → Option (Row key) → Option (Row key) → Prop}
    {op : Op} (refl : ∀ key row, relation key row row)
    (trans : ∀ key first second third, relation key first second →
      relation key second third → relation key first third) (implied : ∀ held before after,
      (∀ key, relation key (before.lookup key) (after.lookup key)) → promise op held before after)
    (bounds : Bounds (fun _ => True)
      (fun view write => relation write.1 (view.lookup write.1) write.2) code)
    (committed : AList Row) :
    Ends promise assumes op code .fresh committed := by
  have steady : Steady promise fun standing committed =>
      Covered standing ∧ Alters relation standing committed := {
    rely := fun holds rely => ⟨holds.1, holds.2.rely refl holds.1 rely⟩
    opened := fun holds => holds
    locked := fun rows holds =>
      ⟨holds.1.extend rows [], holds.2.extend trans rows fun key => refl key _⟩ }
  have keeps : Keeps promise assumes
      (fun standing committed => Covered standing ∧ Alters relation standing committed) code := by
    apply bounds.keeps steady (fun _ _ _ => trivial) (fun _ _ _ => trivial)
    intro standing committed rows writes holds fits
    refine ⟨holds.1.extend _ _, holds.2.extend trans _ ?_⟩
    intro key
    rcases lookup_overlay_cases (standing.currentView committed) writes key with same | written
    · rw [same]
      exact refl key _
    · exact fits _ written
  apply wp_mono _ (keeps .fresh committed ⟨covered_fresh, alters_fresh refl⟩)
  intro _ standing committed holds now rely _
  exact implied _ _ _ (steady.rely holds rely).2

end Bounds

section Related

variable [DecidableEq Key]

/-- A step of a system whose transactions all promise a reflexive relation. -/
theorem related_of_step (related : AList Row → AList Row → Prop) (refl : ∀ rows, related rows rows)
    {promise : Promise Row Op}
    (promised : ∀ op held before after, promise op held before after → related before after)
    {invariant : AList Row → Prop} {program : Op → Code Row Failure α}
    {system after : System Row Failure α Op} {event : Event Op}
    (sound : Sound promise (fun _ _ _ _ => True) invariant system)
    (taken : Steps program system event after) : related system.committed after.committed := by
  cases event with
  | start id op =>
    simp only [Steps, step] at taken
    split at taken
    · cases taken
    · cases taken
      exact refl _
  | abandon id =>
    cases taken
    exact refl _
  | advance id =>
    obtain ⟨session, live, advanced⟩ := Option.bind_eq_some_iff.mp taken
    obtain ⟨op, _, code⟩ := session
    cases code with
    | done value =>
      cases advanced
      exact promised _ _ _ _ (sound.promised live rfl trivial)
    | fail failure =>
      cases advanced
      exact refl _
    | plain next =>
      cases advanced
      exact refl _
    | current rows writes next =>
      simp only [System.advance] at advanced
      split at advanced
      · cases advanced
        exact refl _
      · cases advanced

end Related

/-- What is true whenever the transaction, run alone, commits. -/
def After [DecidableEq Key] (post : α → AList Row → Prop) (code : Code Row Failure α)
    (rows : AList Row) : Prop :=
  ∀ value after, code.run rows = .ok (value, after) → post value after

section After

variable [DecidableEq Key] {post : β → AList Row → Prop} {code : Code Row Failure α}
  {rest : α → Code Row Failure β} {rows : AList Row} {f : AList Row → Except Failure α}
  {condition : Prop}

theorem run_bind : (code >>= rest).run rows =
    (code.run rows >>= fun result => (rest result.1).run result.2) := by
  induction code generalizing rows with
  | done value => rfl
  | fail failure => rfl
  | plain next ih => exact ih rows
  | current locked writes next ih => exact ih rows

theorem after_bind (holds : After (fun value => After post (rest value)) code rows) :
    After post (code >>= rest) rows := by
  intro value after ran
  rw [run_bind] at ran
  obtain ⟨⟨middle, between⟩, first, second⟩ := Checks.bind_ok.mp ran
  exact holds middle between first value after second

theorem After.run {post : α → AList Row → Prop} (holds : After post code rows) {value : α}
    {after : AList Row} (ran : code.run rows = .ok (value, after)) : post value after :=
  holds value after ran

theorem After.mono {first second : α → AList Row → Prop}
    (weaker : ∀ value after, first value after → second value after)
    (holds : After first code rows) : After second code rows :=
  fun value after ran => weaker value after (holds value after ran)

theorem after_pure {value : β} (holds : post value rows) :
    After post (pure value : Code Row Failure β) rows := by
  intro _ _ ran
  cases ran
  exact holds

theorem after_lift_last {outcome : Except Failure β}
    (holds : ∀ value, outcome = .ok value → post value rows) :
    After post (Code.lift outcome) rows := by
  cases outcome with
  | error failure => exact fun _ _ ran => (nomatch ran)
  | ok value => exact after_pure (holds value rfl)

theorem after_lift {outcome : Except Failure α}
    (holds : ∀ value, outcome = .ok value → After post (rest value) rows) :
    After post (Code.lift outcome >>= rest) rows :=
  after_bind (after_lift_last holds)

theorem after_require {failure : Failure} [Decidable condition] {rest : Unit → Code Row Failure β}
    (holds : condition → After post (rest ()) rows) :
    After post (Code.require failure condition >>= rest) rows :=
  after_lift fun _ passed => holds (Checks.require_ok.mp passed)

theorem after_whenever [Decidable condition] {code : Code Row Failure Unit}
    {post : Unit → AList Row → Prop} (taken : condition → After post code rows)
    (skipped : ¬condition → post () rows) : After post (Code.whenever condition code) rows := by
  unfold Code.whenever
  split
  · exact taken ‹_›
  · exact after_pure (skipped ‹_›)

theorem after_read_last {f : AList Row → Except Failure β}
    (holds : ∀ value, f rows = .ok value → post value rows) : After post (Code.read f) rows :=
  fun value after ran => after_lift_last holds value after ran

theorem after_read (holds : ∀ value, f rows = .ok value → After post (rest value) rows) :
    After post (Code.read f >>= rest) rows :=
  after_bind (after_read_last holds)

theorem after_lock {locked : AList Row → List Key}
    (holds : ∀ value, f rows = .ok value → After post (rest value) rows) :
    After post (Code.lock locked f >>= rest) rows :=
  after_bind fun value after ran => after_lift_last holds value after ran

theorem after_modify_last {f : AList Row → Except Failure (β × List (Write Row))}
    (holds : ∀ value writes, f rows = .ok (value, writes) → post value (overlay rows writes)) :
    After post (Code.modify f) rows := by
  intro value after ran
  simp only [Code.modify, Code.run] at ran
  cases outcome : f rows with
  | error failure =>
    rw [outcome] at ran
    cases ran
  | ok result =>
    rw [outcome] at ran
    cases ran
    exact holds result.1 result.2 outcome

/-- A part whose writes are known only by its footprint. -/
theorem after_bounds {allowed : Write Row → Prop} {post : α → AList Row → Prop}
    (bounds : Bounds (fun _ => True) (fun _ => allowed) code)
    (holds : ∀ value (writes : List (Write Row)), (∀ write ∈ writes, allowed write) →
      post value (overlay rows writes)) : After post code rows := by
  intro value after ran
  obtain ⟨writes, allowed, rfl⟩ := bounds.run ran
  exact holds value writes allowed

/-- A part that writes nothing. -/
theorem after_silent {post : α → AList Row → Prop}
    (silent : Bounds (fun _ => True) (fun _ _ => False) code)
    (holds : ∀ value, post value rows) : After post code rows := by
  refine after_bounds silent ?_
  intro value writes none
  cases writes with
  | nil => exact holds value
  | cons write _ => exact (none write List.mem_cons_self).elim

end After

-- From here on these are only taken apart by their rules.
attribute [irreducible] Emits Bounds After

end Biz.Isolation
