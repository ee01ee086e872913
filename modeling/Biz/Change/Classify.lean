import Biz.Change.Model
import Biz.Subscription.Rights

/-!
# The class of a switch

`Classify` of `domain/subscriptionchange/model.go` compares terms by texts: the ranks of
their features and the limits of their quotas. A switch that is not a downgrade takes
effect at once, so it must not take a right away. The texts identify the features because
no code contains the separator.
-/

namespace Biz.Change

open Time Subscription Separator
open Entitlement (Limit Result fieldActions)

def modeRank : Plan.Mode → Nat
  | .masked => 1
  | .allow => 2
  | _ => 0

/-- The features of terms with their ranks, in the order in which they are written. -/
def featureEntries (t : Plan.Terms) : List (String × Nat) :=
  t.modules.flatMap fun m =>
    ("m/" ++ m.code, 1) ::
      m.capabilities.map (fun c => ("c/" ++ m.code ++ "/" ++ c, 1)) ++
      m.fields.map fun f =>
        ("f/" ++ m.code ++ "/" ++ f.key ++ "/" ++ f.action.text, modeRank f.mode)

/-- The rank of a feature; a missing one has rank zero. -/
def feature (t : Plan.Terms) (text : String) : Nat := (lastEntry (featureEntries t) text).getD 0

/-- Something of the old terms is missing or smaller. -/
def lowers (a b : Plan.Terms) : Bool :=
  (featureEntries a).any (fun entry => feature b entry.1 < feature a entry.1) ||
    (quotaChanges a b).any (fun q => less q.after q.before) ||
    (a.validityMode = .unlimited && b.validityMode ≠ .unlimited) ||
    (a.validityMode = .fixedDays && b.validityMode = .fixedDays &&
      b.validityDays < a.validityDays)

/-- Something of the new terms is additional or larger. -/
def raises (a b : Plan.Terms) : Bool :=
  (featureEntries a).any (fun entry => feature a entry.1 < feature b entry.1) ||
    (featureEntries b).any (fun entry => feature a entry.1 < feature b entry.1) ||
    (quotaChanges a b).any (fun q => !less q.after q.before) ||
    (a.validityMode ≠ .unlimited && b.validityMode = .unlimited) ||
    (a.validityMode = .fixedDays && b.validityMode = .fixedDays &&
      a.validityDays < b.validityDays)

def classify (a b : Plan.Terms) : Classification :=
  if lowers a b then .downgrade else if raises a b then .upgrade else .sameTier

section Entries

variable {α : Type} {entries : List (String × α)} {text : String} {value : α}

theorem mem_of_lastEntry (known : lastEntry entries text = some value) :
    (text, value) ∈ entries := by
  obtain ⟨⟨found, _⟩, last, rfl⟩ := Option.map_eq_some_iff.mp known
  obtain rfl : found = text := by simpa using List.find?_some last
  exact List.mem_reverse.mp (List.mem_of_find?_eq_some last)

theorem lastEntry_isSome (listed : (text, value) ∈ entries) :
    ∃ last, lastEntry entries text = some last := by
  refine Option.ne_none_iff_exists'.mp fun none => ?_
  have unknown := List.find?_eq_none.mp (Option.map_eq_none_iff.mp none) (text, value)
    (List.mem_reverse.mpr listed)
  exact unknown (by simp)

/-- A text whose entries agree on the value has that value. -/
theorem lastEntry_eq (listed : (text, value) ∈ entries)
    (agreed : ∀ other, (text, other) ∈ entries → other = value) :
    lastEntry entries text = some value := by
  obtain ⟨last, known⟩ := lastEntry_isSome listed
  rw [known, agreed last (mem_of_lastEntry known)]

end Entries

section Features

variable {a b t : Plan.Terms} {c : Plan.Catalog} {code key : String} {action : Entitlement.Action}
  {rank : Nat}

/-- The text of a field feature. -/
def fieldText (code key : String) (action : Entitlement.Action) : String :=
  "f/" ++ code ++ "/" ++ key ++ "/" ++ action.text

/-- The features of selected modules, capabilities and fields. -/
theorem mem_featureEntries {entry : String × Nat} :
    entry ∈ featureEntries t ↔ ∃ m ∈ t.modules,
      entry = ("m/" ++ m.code, 1) ∨
      (∃ c ∈ m.capabilities, entry = ("c/" ++ m.code ++ "/" ++ c, 1)) ∨
      ∃ f ∈ m.fields, entry = (fieldText m.code f.key f.action, modeRank f.mode) := by
  simp [featureEntries, fieldText, eq_comm]

theorem exists_featureEntries {holds : String × Nat → Prop} :
    (∃ entry ∈ featureEntries t, holds entry) ↔ ∃ m ∈ t.modules,
      holds ("m/" ++ m.code, 1) ∨
      (∃ c ∈ m.capabilities, holds ("c/" ++ m.code ++ "/" ++ c, 1)) ∨
      ∃ f ∈ m.fields, holds (fieldText m.code f.key f.action, modeRank f.mode) := by
  simp only [mem_featureEntries]
  grind

theorem free_of_accepted (accepted : t.Accepted c) {m : Plan.Module} (selected : m ∈ t.modules) :
    Free '/' m.code := by
  obtain ⟨d, -, here, -⟩ := accepted.modules m selected
  have valid := here.code
  rw [Plan.code, Bool.and_eq_true] at valid
  exact Text.notMem_of_code valid.2 (by decide)

theorem exists_of_feature {text : String} (ranked : 0 < feature t text) :
    (text, feature t text) ∈ featureEntries t := by
  unfold feature at ranked ⊢
  cases known : lastEntry (featureEntries t) text with
  | none => simp [known] at ranked
  | some rank => exact mem_of_lastEntry known

theorem mem_module :
    ("m/" ++ code, rank) ∈ featureEntries t ↔ rank = 1 ∧ ∃ m ∈ t.modules, m.code = code := by
  rw [mem_featureEntries]
  constructor
  · rintro ⟨m, selected, same | ⟨_, -, same⟩ | ⟨f, -, same⟩⟩
    · obtain ⟨text, rfl⟩ := Prod.mk.inj same
      exact ⟨rfl, m, selected, by simpa [eq_comm] using text⟩
    all_goals simpa [fieldText] using congrArg String.toList (Prod.mk.inj same).1
  · rintro ⟨rfl, m, selected, rfl⟩
    exact ⟨m, selected, .inl rfl⟩

theorem mem_capability {cap : String} (accepted : t.Accepted c) (free : Free '/' code) :
    ("c/" ++ code ++ "/" ++ cap, rank) ∈ featureEntries t ↔
      rank = 1 ∧ ∃ m ∈ t.modules, m.code = code ∧ cap ∈ m.capabilities := by
  rw [mem_featureEntries]
  constructor
  · rintro ⟨m, selected, same | ⟨_, listed, same⟩ | ⟨f, -, same⟩⟩
    rotate_left
    · obtain ⟨text, rfl⟩ := Prod.mk.inj same
      have separator : "/" = String.singleton '/' := rfl
      simp only [separator, String.append_assoc, String.append_right_inj] at text
      obtain ⟨rfl, rfl⟩ := split_first free (free_of_accepted accepted selected) text
      exact ⟨rfl, m, selected, rfl, listed⟩
    all_goals simpa [fieldText] using congrArg String.toList (Prod.mk.inj same).1
  · rintro ⟨rfl, m, selected, rfl, listed⟩
    exact ⟨m, selected, .inr (.inl ⟨cap, listed, rfl⟩)⟩

/-- The text of a field feature tells its parts: the code is what stands before the first
separator, and the action what stands after the last. -/
theorem fieldText_inj {m n k l : String} {x y : Entitlement.Action} (left : Free '/' m)
    (right : Free '/' n) (known : x ∈ fieldActions)
    (known' : y ∈ fieldActions) (same : fieldText m k x = fieldText n l y) :
    m = n ∧ k = l ∧ x = y := by
  have separator : "/" = String.singleton '/' := rfl
  have actions : ∀ x ∈ fieldActions, Free '/' x.text := by decide
  have injective : ∀ x ∈ fieldActions, ∀ y ∈ fieldActions,
      x.text = y.text → x = y := by decide
  simp only [fieldText, separator, String.append_assoc, String.append_right_inj] at same
  obtain ⟨codes, rest⟩ := split_first left right same
  obtain ⟨keys, texts⟩ := split_last (actions x known) (actions y known') rest
  exact ⟨codes, keys, injective x known y known' texts⟩

theorem mem_field (accepted : t.Accepted c) (free : Free '/' code)
    (known : action ∈ fieldActions) :
    (fieldText code key action, rank) ∈ featureEntries t ↔
      ∃ m ∈ t.modules, m.code = code ∧ ∃ f ∈ m.fields, f.key = key ∧ f.action = action ∧
        rank = modeRank f.mode := by
  rw [mem_featureEntries]
  constructor
  · rintro ⟨m, selected, same | ⟨_, -, same⟩ | ⟨f, listed, same⟩⟩
    iterate 2 simpa [fieldText] using congrArg String.toList (Prod.mk.inj same).1
    · obtain ⟨d, -, here, -⟩ := accepted.modules m selected
      obtain ⟨text, ranks⟩ := Prod.mk.inj same
      obtain ⟨codes, keys, actions⟩ := fieldText_inj free (free_of_accepted accepted selected)
        known (here.fields f listed).2.1 text
      exact ⟨m, selected, codes.symm, f, listed, keys.symm, actions.symm, ranks⟩
  · rintro ⟨m, selected, rfl, f, listed, rfl, rfl, rfl⟩
    exact ⟨m, selected, .inr (.inr ⟨f, listed, rfl⟩)⟩

/-- The entries of one feature agree on its rank. -/
theorem feature_of_mem (accepted : t.Accepted c) {text : String}
    (listed : (text, rank) ∈ featureEntries t) : feature t text = rank := by
  rw [feature, lastEntry_eq listed, Option.getD_some]
  intro other again
  obtain ⟨m, selected, same | ⟨_, -, same⟩ | ⟨f, among, same⟩⟩ := mem_featureEntries.mp listed
  · obtain ⟨rfl, rfl⟩ := Prod.mk.inj same
    exact (mem_module.mp again).1
  · obtain ⟨rfl, rfl⟩ := Prod.mk.inj same
    exact ((mem_capability accepted (free_of_accepted accepted selected)).mp again).1
  · obtain ⟨rfl, rfl⟩ := Prod.mk.inj same
    obtain ⟨d, -, here, -⟩ := accepted.modules m selected
    obtain ⟨n, chosen, codes, g, inside, keys, actions, rfl⟩ := (mem_field accepted
      (free_of_accepted accepted selected) (here.fields f among).2.1).mp again
    obtain rfl := List.inj_on_of_nodup_map accepted.distinct chosen selected codes
    have identities : g.identity = f.identity := by
      rw [Plan.Field.identity, Plan.Field.identity, keys, actions]
    rw [List.inj_on_of_nodup_map here.distinct inside among identities]

end Features

section Quotas

variable {a b t : Plan.Terms} {c : Plan.Catalog} {code key : String}

theorem mem_quotaEntries {text : String} {m : Plan.Module} {q : Plan.Quota} :
    (text, m, q) ∈ quotaEntries t ↔
      m ∈ t.modules ∧ q ∈ m.quotas ∧ m.code ++ "/" ++ q.key = text := by
  simp only [quotaEntries, List.mem_flatMap, List.mem_map, Prod.mk.injEq]
  constructor
  · rintro ⟨_, selected, _, listed, same, rfl, rfl⟩
    exact ⟨selected, listed, same⟩
  · rintro ⟨selected, listed, same⟩
    exact ⟨m, selected, q, listed, same, rfl, rfl⟩

/-- The limit under the text of a quota is the one that the terms give it. -/
theorem quotaLimit_eq (accepted : t.Accepted c) (free : Free '/' code) :
    quotaLimit t (code ++ "/" ++ key) = limitOf t code key := by
  have split : ∀ m q, (code ++ "/" ++ key, m, q) ∈ quotaEntries t →
      m ∈ t.modules ∧ q ∈ m.quotas ∧ m.code = code ∧ q.key = key := by
    intro m q entry
    obtain ⟨selected, listed, same⟩ := mem_quotaEntries.mp entry
    have separator : "/" = String.singleton '/' := rfl
    rw [separator, String.append_assoc, String.append_assoc] at same
    exact ⟨selected, listed, split_first (free_of_accepted accepted selected) free same⟩
  rw [quotaLimit]
  cases known : lastEntry (quotaEntries t) (code ++ "/" ++ key) with
  | some entry =>
    obtain ⟨m, q⟩ := entry
    obtain ⟨selected, listed, rfl, rfl⟩ := split m q (mem_of_lastEntry known)
    exact (limitOf_of_mem accepted selected listed).symm
  | none =>
    refine (limitOf_of_forall fun m selected same q listed named => ?_).symm
    have entry : (code ++ "/" ++ key, m, q) ∈ quotaEntries t :=
      mem_quotaEntries.mpr ⟨selected, listed, by rw [same, named]⟩
    obtain ⟨_, found⟩ := lastEntry_isSome entry
    rw [known] at found
    cases found

theorem quotaLimit_of_forall {text : String} (unlisted : ∀ value, (text, value) ∉ quotaEntries t) :
    quotaLimit t text = {} := by
  rw [quotaLimit]
  cases known : lastEntry (quotaEntries t) text with
  | none => rfl
  | some entry => exact absurd (mem_of_lastEntry known) (unlisted entry)

/-- A limit that changes is asked about. -/
theorem mem_quotaChanges {text : String} (differs : quotaLimit a text ≠ quotaLimit b text) :
    ∃ q ∈ quotaChanges a b, q.moduleCode ++ "/" ++ q.key = text ∧ q.before = quotaLimit a text ∧
      q.after = quotaLimit b text := by
  have listed : ∃ value, (text, value) ∈ quotaEntries a ++ quotaEntries b := by
    by_contra none
    push Not at none
    refine differs ?_
    rw [quotaLimit_of_forall fun value inside => none value (List.mem_append_left _ inside),
      quotaLimit_of_forall fun value inside => none value (List.mem_append_right _ inside)]
  obtain ⟨_, entry⟩ := listed
  obtain ⟨⟨m, q⟩, last⟩ := lastEntry_isSome entry
  have named : m.code ++ "/" ++ q.key = text := by
    rcases List.mem_append.mp (mem_of_lastEntry last) with old | new
    · exact (mem_quotaEntries.mp old).2.2
    · exact (mem_quotaEntries.mp new).2.2
  refine ⟨{ moduleCode := m.code, key := q.key, before := _, after := _ },
    List.mem_filterMap.mpr ⟨text, ?_, ?_⟩, named, rfl, rfl⟩
  · rw [List.mem_insertionSort, List.mem_dedup]
    exact List.mem_map.mpr ⟨_, entry, rfl⟩
  · simp only [last]
    exact if_pos differs

/-- The changes of quotas are those of the limits under any text. -/
theorem any_quotaChanges (test : Limit → Limit → Bool) :
    (quotaChanges a b).any (fun q => test q.before q.after) = true ↔
      ∃ text, quotaLimit a text ≠ quotaLimit b text ∧
        test (quotaLimit a text) (quotaLimit b text) = true := by
  rw [List.any_eq_true]
  constructor
  · rintro ⟨q, listed, passed⟩
    obtain ⟨text, -, found⟩ := List.mem_filterMap.mp listed
    split at found
    · obtain ⟨changed, same⟩ := Option.ite_none_right_eq_some.mp found
      cases same
      exact ⟨text, changed, passed⟩
    · cases found
  · rintro ⟨_, changed, passed⟩
    obtain ⟨q, listed, -, before, after⟩ := mem_quotaChanges changed
    exact ⟨q, listed, by rw [before, after]; exact passed⟩

/-- A limit is lower under some text iff it is lower for some module and key. -/
theorem quotaLimit_lower (acceptedA : a.Accepted c) (acceptedB : b.Accepted c) :
    (∃ text, less (quotaLimit b text) (quotaLimit a text) = true) ↔
      ∃ code key, less (limitOf b code key) (limitOf a code key) = true := by
  constructor
  · rintro ⟨text, lower⟩
    cases known : lastEntry (quotaEntries a) text with
    | none => simp [quotaLimit, known, less] at lower
    | some entry =>
      obtain ⟨selected, -, rfl⟩ := mem_quotaEntries.mp (mem_of_lastEntry known)
      have free := free_of_accepted acceptedA selected
      rw [quotaLimit_eq acceptedA free, quotaLimit_eq acceptedB free] at lower
      exact ⟨_, _, lower⟩
  · rintro ⟨code, key, lower⟩
    have free : Free '/' code := by
      by_contra bound
      have none : limitOf a code key = {} := limitOf_of_forall fun m selected same =>
        absurd (same ▸ free_of_accepted acceptedA selected) bound
      simp [none, less] at lower
    rw [← quotaLimit_eq acceptedA free, ← quotaLimit_eq acceptedB free] at lower
    exact ⟨_, lower⟩

end Quotas

section Order

variable {a b d : Plan.Terms} {c : Plan.Catalog}

/-- The days that terms are valid for; no limit is above every number. -/
def validity (t : Plan.Terms) : WithTop Nat :=
  if t.validityMode = .unlimited then ⊤ else t.validityDays

/-- Terms do not have all that a module is selected with: the module, a capability, or a field
with a rank as high. -/
def Lacks (b : Plan.Terms) (m : Plan.Module) : Prop :=
  (∀ n ∈ b.modules, n.code ≠ m.code) ∨
    (∃ cap ∈ m.capabilities, ∀ n ∈ b.modules, n.code = m.code → cap ∉ n.capabilities) ∨
    ∃ f ∈ m.fields, 0 < modeRank f.mode ∧ ∀ n ∈ b.modules, n.code = m.code → ∀ g ∈ n.fields,
      g.key = f.key → g.action = f.action → modeRank g.mode < modeRank f.mode

/-- Something of the second terms is below that of the first. -/
def Below (a b : Plan.Terms) : Prop :=
  (∃ m ∈ a.modules, Lacks b m) ∨
    (∃ code key, less (limitOf b code key) (limitOf a code key) = true) ∨ validity b < validity a

/-- The same in the texts of the features and quotas. -/
def Lower (a b : Plan.Terms) : Prop :=
  (∃ text, feature b text < feature a text) ∨
    (∃ text, less (quotaLimit b text) (quotaLimit a text) = true) ∨ validity b < validity a

/-- Whatever is lower is lower than a third or has it below. -/
theorem Lower.between (lower : Lower a d) (b : Plan.Terms) : Lower a b ∨ Lower b d := by
  rcases lower with ⟨text, lower⟩ | ⟨text, lower⟩ | lower
  · rcases lt_or_ge (feature b text) (feature a text) with first | second
    · exact .inl (.inl ⟨text, first⟩)
    · exact .inr (.inl ⟨text, lower.trans_le second⟩)
  · have either : less (quotaLimit b text) (quotaLimit a text) = true ∨
        less (quotaLimit d text) (quotaLimit b text) = true := by
      grind [less]
    rcases either with first | second
    · exact .inl (.inr (.inl ⟨text, first⟩))
    · exact .inr (.inr (.inl ⟨text, second⟩))
  · rcases lt_or_ge (validity b) (validity a) with first | second
    · exact .inl (.inr (.inr first))
    · exact .inr (.inr (.inr (lower.trans_le second)))

theorem any_feature :
    (featureEntries a).any (fun entry => feature b entry.1 < feature a entry.1) = true ↔
      ∃ text, feature b text < feature a text := by
  simp only [List.any_eq_true, decide_eq_true_eq]
  constructor
  · rintro ⟨entry, -, lower⟩
    exact ⟨entry.1, lower⟩
  · rintro ⟨_, lower⟩
    exact ⟨_, exists_of_feature (Nat.zero_lt_of_lt lower), lower⟩

theorem timed_of_validate (valid : a.validate c = .ok ()) :
    a.validityMode = .unlimited ∨ a.validityMode = .fixedDays := by
  simp only [Plan.Terms.validate, Checks.bind_ok, Checks.require_ok] at valid
  obtain ⟨-, -, -, days, -⟩ := valid
  exact days.imp And.left And.left

theorem quotaLimit_valid (valid : a.validate c = .ok ()) (text : String) :
    (quotaLimit a text).unlimited = true → (quotaLimit a text).value = 0 := by
  rw [quotaLimit]
  split
  · rename_i m q known
    obtain ⟨selected, listed, -⟩ := mem_quotaEntries.mp (mem_of_lastEntry known)
    obtain ⟨d, -, here, -⟩ := (Plan.Terms.accepted_of_validate valid).modules m selected
    have fits := (here.quotas.2 q listed).2
    simp only [Limit.valid, Bool.and_eq_true, Bool.or_eq_true, Bool.not_eq_true',
      decide_eq_true_eq] at fits
    simpa [← Bool.not_eq_true, ← imp_iff_not_or] using fits.2
  · nofun

section Valid

variable (validA : a.validate c = .ok ()) (validB : b.validate c = .ok ())

include validA validB

theorem lowers_iff : lowers a b = true ↔ Lower a b := by
  have quotas : (∃ text, quotaLimit a text ≠ quotaLimit b text ∧
      less (quotaLimit b text) (quotaLimit a text) = true) ↔
      ∃ text, less (quotaLimit b text) (quotaLimit a text) = true := by
    refine exists_congr fun text => and_iff_right_of_imp fun lower same => ?_
    rw [same, less_irrefl] at lower
    cases lower
  simp only [lowers, Bool.or_eq_true, any_feature, any_quotaChanges fun x y => less y x, quotas,
    Lower, or_assoc]
  rcases timed_of_validate validA with modeA | modeA <;>
    rcases timed_of_validate validB with modeB | modeB <;> simp [validity, modeA, modeB]

theorem raises_iff : raises a b = true ↔ Lower b a := by
  have quotas : (∃ text, quotaLimit a text ≠ quotaLimit b text ∧
      (!less (quotaLimit b text) (quotaLimit a text)) = true) ↔
      ∃ text, less (quotaLimit a text) (quotaLimit b text) = true := by
    refine exists_congr fun text => ?_
    have first := quotaLimit_valid validA text
    have second := quotaLimit_valid validB text
    generalize quotaLimit a text = x at first ⊢
    generalize quotaLimit b text = y at second ⊢
    cases x
    cases y
    grind [less]
  have features : (featureEntries a).any (fun entry =>
      feature a entry.1 < feature b entry.1) = true → ∃ text, feature a text < feature b text := by
    simp only [List.any_eq_true, decide_eq_true_eq]
    rintro ⟨entry, -, lower⟩
    exact ⟨entry.1, lower⟩
  simp only [raises, Bool.or_eq_true, any_feature, any_quotaChanges fun x y => !less y x, quotas,
    Lower, or_assoc]
  rw [← or_assoc, or_iff_right_of_imp features]
  rcases timed_of_validate validA with modeA | modeA <;>
    rcases timed_of_validate validB with modeB | modeB <;> simp [validity, modeA, modeB]

theorem lower_iff : Lower a b ↔ Below a b := by
  have acceptedA := Plan.Terms.accepted_of_validate validA
  have acceptedB := Plan.Terms.accepted_of_validate validB
  refine or_congr ?_ (or_congr_left (quotaLimit_lower acceptedA acceptedB))
  have ranked : (∃ text, feature b text < feature a text) ↔ ∃ entry ∈ featureEntries a,
      0 < entry.2 ∧ ∀ rank, (entry.1, rank) ∈ featureEntries b → rank < entry.2 := by
    constructor
    · rintro ⟨text, lower⟩
      exact ⟨_, exists_of_feature (Nat.zero_lt_of_lt lower), Nat.zero_lt_of_lt lower,
        fun rank listed => feature_of_mem acceptedB listed ▸ lower⟩
    · rintro ⟨entry, listed, positive, lower⟩
      refine ⟨entry.1, ?_⟩
      rw [feature_of_mem acceptedA listed]
      by_cases named : 0 < feature b entry.1
      · exact lower _ (exists_of_feature named)
      · omega
  rw [ranked, exists_featureEntries]
  refine exists_congr fun m => and_congr_right fun selected => ?_
  have free := free_of_accepted acceptedA selected
  obtain ⟨d, -, here, -⟩ := acceptedA.modules m selected
  refine or_congr ?_ (or_congr ?_ (exists_congr fun f => and_congr_right fun inside => ?_))
  · simp [mem_module]
  · simp [mem_capability acceptedB free]
  · have known := (here.fields f inside).2.1
    simp only [mem_field acceptedB free known, forall_exists_index, and_imp]
    grind

end Valid

/-- Offers are ordered by what they contain: an upgrade is the strict part of a preorder, and
a downgrade is all that is below in something. -/
theorem classify_order {a b d : Plan.Terms} {c : Plan.Catalog} (validA : a.validate c = .ok ())
    (validB : b.validate c = .ok ()) (validD : d.validate c = .ok ()) :
    classify a a = .sameTier ∧
      (classify a b = .upgrade → classify b a = .downgrade) ∧
      (classify a b = .sameTier ↔ classify b a = .sameTier) ∧
      (classify a b = .upgrade ∨ classify a b = .sameTier → classify b d = .upgrade →
        classify a d = .upgrade) ∧
      (classify a b = .downgrade ↔ Below a b) := by
  have lower : ∀ x y : Plan.Terms, x.validate c = .ok () → y.validate c = .ok () →
      (classify x y = .downgrade ↔ Lower x y) ∧
        (classify x y = .upgrade ↔ ¬Lower x y ∧ Lower y x) ∧
        (classify x y = .sameTier ↔ ¬Lower x y ∧ ¬Lower y x) := by
    intro x y validX validY
    rw [← lowers_iff validX validY, ← raises_iff validX validY, classify]
    cases lowers x y <;> cases raises x y <;> simp
  have never : ¬Lower a a := by
    rintro (⟨_, lower⟩ | ⟨_, lower⟩ | lower)
    · exact lt_irrefl _ lower
    · rw [less_irrefl] at lower
      cases lower
    · exact lt_irrefl _ lower
  simp only [lower a a validA validA, lower a b validA validB, lower b a validB validA,
    lower b d validB validD, lower a d validA validD, ← lower_iff validA validB]
  refine ⟨⟨never, never⟩, And.right, and_comm, ?_, trivial⟩
  rintro first ⟨notBelow, above⟩
  have kept : ¬Lower a b := first.elim And.left And.left
  exact ⟨fun low => (low.between b).elim kept notBelow, (above.between a).resolve_right kept⟩

end Order

section Soundness

variable {digest : String → String} {a b : Plan.Terms} {c : Plan.Catalog}
  {tenant first second : String} {startA startB now : Instant} {revisionA revisionB : Nat}
  {requested : List String} {before after : Result}

/-- Unless something is lower, every right is kept. -/
theorem held_of_kept (valid : b.validate c = .ok ()) (kept : ¬Below a b)
    {target : Entitlement.Kind × String × String × Entitlement.Action}
    (held : Held a target) : Held b target := by
  obtain ⟨m, selected, code, fields⟩ := held
  have has : ¬Lacks b m := fun lacks => kept (.inl ⟨m, selected, lacks⟩)
  simp only [Lacks, not_or, not_forall, not_exists, not_and, not_not] at has
  obtain ⟨⟨n, chosen, same⟩, -, ranked⟩ := has
  refine ⟨n, chosen, same.trans code, fun field => ?_⟩
  obtain ⟨f, listed, sameKey, sameAction, allowed⟩ := fields field
  obtain ⟨n', chosen', same', g, among, keys, actions, higher⟩ :=
    ranked f listed (by rw [allowed]; decide)
  have distinct := (Plan.Terms.accepted_of_validate valid).distinct
  obtain rfl := List.inj_on_of_nodup_map distinct chosen' chosen (same'.trans same.symm)
  refine ⟨g, among, keys.trans sameKey, actions.trans sameAction, ?_⟩
  rw [allowed] at higher
  cases mode : g.mode with
  | allow => rfl
  | deny | masked | unrecognised => simp [mode, modeRank] at higher

/-- A switch that is not a downgrade takes no right away: wherever both plans are active
and nothing else is, what the old one allows the new one allows, and no limit of a quota
falls.

Proof: the decisions about a plan alone are those of its terms, and terms that are not
lower keep every right and every limit. -/
theorem classify_sound (acceptedA : a.validate c = .ok ()) (acceptedB : b.validate c = .ok ())
    (notDown : classify a b ≠ .downgrade)
    (runningA : ∀ s ∈ sources digest tenant first startA a, s.active now)
    (runningB : ∀ s ∈ sources digest tenant second startB b, s.active now)
    (resolvedA : Entitlement.resolve tenant revisionA now (c.map (·.toModuleDefinition))
      (sources digest tenant first startA a) requested = .ok before)
    (resolvedB : Entitlement.resolve tenant revisionB now (c.map (·.toModuleDefinition))
      (sources digest tenant second startB b) requested = .ok after) :
    (∀ d ∈ before.decisions, ∃ e ∈ after.decisions, e.target = d.target) ∧
      ∀ d ∈ before.decisions, ∀ e ∈ after.decisions, e.target = d.target →
        (d.allowed = true → e.allowed = true) ∧
          (d.kind = .quota → less e.limit d.limit = false) := by
  have kept : ¬Below a b := by
    rw [← lower_iff acceptedA acceptedB, ← lowers_iff acceptedA acceptedB]
    exact fun lower => notDown (if_pos lower)
  have decidedA := decided_of_terms acceptedA runningA (.refl c) resolvedA
  have decidedB := decided_of_terms acceptedB runningB (.refl c) resolvedB
  constructor
  · intro d inside
    obtain ⟨-, -, -, -, rfl⟩ := Entitlement.resolve_ok.mp resolvedA
    obtain ⟨-, -, -, -, rfl⟩ := Entitlement.resolve_ok.mp resolvedB
    have listed := List.mem_map_of_mem (f := (·.target)) inside
    rw [Entitlement.decisions_target] at listed
    exact List.mem_map.mp listed
  · intro d inside e among same
    refine ⟨fun allowed => ?_, fun quota => ?_⟩
    · rw [(decidedB e among).1, same]
      exact held_of_kept acceptedB kept ((decidedA d inside).1.mp allowed)
    · obtain ⟨kinds, codes, keys, -⟩ : e.kind = d.kind ∧ e.moduleCode = d.moduleCode ∧
          e.key = d.key ∧ e.action = d.action := by
        simpa [Entitlement.Decision.target] using same
      rw [(decidedA d inside).2 quota, (decidedB e among).2 (kinds.trans quota), codes, keys]
      exact Bool.eq_false_iff.mpr fun lower => kept (.inr (.inl ⟨_, _, lower⟩))

end Soundness

section Sample

/-- The terms of the sample with the masked field allowed. -/
def sampleUpgrade : Plan.Terms :=
  { sampleTerms with modules := [{ sampleModule with
      fields := [{ key := "device.serial", action := .read, mode := .allow }] }] }

def sampleUpgraded : Except Entitlement.Err Result :=
  Entitlement.resolve "tenant" 2 (sampleStart + hour) (sampleCatalog.map (·.toModuleDefinition))
    (sources id "tenant" "chg-1" sampleStart sampleUpgrade) []

theorem sample_upgraded : ∃ result, sampleUpgraded = .ok result := by
  have accepted : sampleUpgraded.toOption.any (fun _ => true) = true := by decide +kernel
  exact (Checks.ok_of_any accepted).imp fun _ => And.left

theorem classify_order_sample : Below sampleUpgrade sampleTerms := by
  have upgraded : sampleUpgrade.validate sampleCatalog = .ok () := by decide +kernel
  have order := classify_order upgraded sample_accepted upgraded
  exact order.2.2.2.2.mp (by decide +kernel)

theorem classify_sound_sample : classify sampleTerms sampleUpgrade = .upgrade ∧
    ∃ before after, sampleResolved = .ok before ∧ sampleUpgraded = .ok after ∧
      ∀ d ∈ before.decisions, ∀ e ∈ after.decisions, e.target = d.target →
        d.allowed = true → e.allowed = true := by
  have class_ : classify sampleTerms sampleUpgrade = .upgrade := by decide +kernel
  obtain ⟨before, evaluated⟩ := sample_resolved
  obtain ⟨after, reevaluated⟩ := sample_upgraded
  refine ⟨class_, before, after, evaluated, reevaluated, fun d inside e among same => ?_⟩
  have kept := classify_sound sample_accepted (by decide +kernel) (by rw [class_]; decide)
    sample_running (by decide +kernel) evaluated reevaluated
  exact (kept.2 d inside e among same).1

end Sample

end Biz.Change
