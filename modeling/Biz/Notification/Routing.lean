import Biz.Library.Checks
import Biz.Library.Runs
import Biz.Text

/-!
# Routing of business events

A route reads the configuration of the group and the level of its event, decides what each
recipient gets on each channel, and records the decisions under the id and the version of
the configuration. A configuration is a row and two relations. A command writes all three
in a transaction under the lock on the row, so that it is one step here; a route reads them
by three statements outside any transaction, each a step of its own.

What the decisions need besides (registered types, active groups and members, channels,
preferences) is read anew by every route, and is arbitrary. So is whether a route is
abandoned: a worker may stop, or lose its lease. The queue of events and its leases are left
out, so that an event may be routed more than once here.
-/

namespace Biz.Notification

open Text Checks Runs
open Function (update update_apply update_of_ne update_self)

inductive MessageLevel
  | urgent
  | important
  | general
  deriving DecidableEq

inductive RoutingError
  | invalid
  | unavailable

/-- `ValidConfigurationID`. -/
def validConfigurationId (value : String) (maxBytes : Nat) : Bool :=
  value ≠ "" && value.utf8ByteSize ≤ maxBytes && trimSpace value = value &&
    value.toList.all fun rune => 0x21 ≤ rune.toNat && rune.toNat ≤ 0x7e

def validCode (value : String) : Bool :=
  value.utf8ByteSize ≤ 64 && value.toList.head?.any Char.isLower &&
    value.toList.all fun char => char.isLower || char.isDigit || char ∈ ['.', '_', '-']

/-! ## Configurations -/

structure ConfigurationValues where
  channels : List String
  primaryUserId : String
  secondaryUserId : String
  additionalUserIds : List String
  notes : String

def ConfigurationValues.recipientIds (values : ConfigurationValues) : List String :=
  ([values.primaryUserId] ++
    (if values.secondaryUserId = "" then [] else [values.secondaryUserId]) ++
    values.additionalUserIds).insertionSort (· ≤ ·)

/-- `Validate`: the shape of the values. -/
def ConfigurationValues.valid (values : ConfigurationValues) : Bool :=
  values.channels ≠ [] && values.channels.length ≤ 3 && values.additionalUserIds.length ≤ 100 &&
    values.recipientIds.all (validConfigurationId · 64) && values.notes.length ≤ 1000 &&
    values.notes.toList.all (fun rune => rune ∈ ['\n', '\t'] ||
      !(rune.toNat < 0x20 || (0x7f ≤ rune.toNat && rune.toNat ≤ 0x9f))) &&
    values.channels.all validCode && decide values.channels.Nodup &&
    decide values.recipientIds.Nodup

structure Configuration where
  id : String
  tenantId : String
  groupId : String
  level : MessageLevel
  values : ConfigurationValues
  version : Nat

/-- The row of a configuration: its channels and further recipients are in the relations. -/
def Configuration.header (c : Configuration) : Configuration :=
  { c with values := { c.values with channels := [], additionalUserIds := [] } }

/-- The three tables of the configurations. -/
structure Configurations where
  rows : AList fun _ : String => Configuration
  channels : String → List String
  recipients : String → List String

namespace Configurations

/-- `CreateMany` for one level, and `Replace`: the row and its relations are written. The
relations are read in the order of their texts. -/
def write (tables : Configurations) (c : Configuration) : Configurations where
  rows := tables.rows.insert c.id c.header
  channels := update tables.channels c.id (c.values.channels.insertionSort (· ≤ ·))
  recipients := update tables.recipients c.id
    (c.values.additionalUserIds.insertionSort (· ≤ ·))

def delete (tables : Configurations) (id : String) : Configurations where
  rows := tables.rows.erase id
  channels := update tables.channels id []
  recipients := update tables.recipients id []

end Configurations

/-! ## Routes -/

structure BusinessEvent where
  eventId : String
  tenantId : String
  groupId : String
  level : MessageLevel

inductive RouteOutcome
  | inAppCreated
  | externalTask
  | preferenceDenied
  | channelUnavailable
  | recipientInactive
  | noConfiguration
  | typeUnavailable
  | groupUnavailable
  deriving DecidableEq

structure RouteDecision where
  configurationId : String
  configurationVersion : Nat
  userId : String
  channel : String
  outcome : RouteOutcome

namespace RouteDecision

/-- A decision about the event as a whole. -/
def general (outcome : RouteOutcome) : RouteDecision := ⟨"", 0, "", "", outcome⟩

def valid (d : RouteDecision) : Bool :=
  if d.outcome ∈ [.noConfiguration, .typeUnavailable, .groupUnavailable] then
    d.userId = "" && d.channel = ""
  else validConfigurationId d.configurationId 64 && d.configurationVersion ≠ 0 &&
    validConfigurationId d.userId 64 && validCode d.channel

end RouteDecision

/-- `Canonical`. The decisions are sorted by user, channel and outcome afterwards; their
order is not kept here. -/
def canonical (decisions : List RouteDecision) : Except RoutingError (List RouteDecision) := do
  require .invalid (decisions ≠ [] ∧ decisions.length ≤ 1000)
  require .invalid ((∀ d ∈ decisions, d.valid) ∧
    (decisions.map fun d => (d.userId, d.channel, d.outcome)).Nodup)
  return decisions

/-- What a route reads besides the configuration. -/
structure Surroundings where
  typeRegistered : Bool
  groupActive : Bool
  active : String → Bool
  configurable : String → Bool
  allowed : String → String → Except RoutingError Bool

variable (around : Surroundings)

/-- What a recipient gets on a channel. -/
def routeOutcome (user code : String) : Except RoutingError RouteOutcome :=
  if !around.active user then .ok .recipientInactive
  else if !around.configurable code then .ok .channelUnavailable
  else if code = "in_app" then .ok .inAppCreated
  else if code = "sms" ∨ code = "email" then do
    return if ← around.allowed user code then .externalTask else .preferenceDenied
  else .ok .channelUnavailable

def decideRoute (config : Configuration) (user code : String) :
    Except RoutingError RouteDecision := do
  let outcome ← routeOutcome around user code
  return ⟨config.id, config.version, user, code, outcome⟩

/-- How far a route has come with `FindRoutingConfiguration`. -/
inductive Progress
  | claimed
  | row (row : Configuration)
  | channels (row : Configuration) (channels : List String)
  | found (config : Option Configuration)

/-- The next statement of `FindRoutingConfiguration`. -/
def Progress.next (tables : Configurations) (event : BusinessEvent) :
    Progress → Except RoutingError Progress
  | .claimed => return match tables.rows.entries.find? fun entry =>
    entry.2.tenantId = event.tenantId &&
      entry.2.groupId = event.groupId && entry.2.level = event.level with
    | none => .found none
    | some entry => .row entry.2
  | .row header => return .channels header (tables.channels header.id)
  | .channels header codes => do
    let config := { header with values := { header.values with
      channels := codes, additionalUserIds := tables.recipients header.id } }
    require .unavailable config.values.valid
    return .found (some config)
  | .found _ => .error .invalid

/-- The plan of a route that needs no configuration or has read it. -/
def planOf : Progress → Except RoutingError (List RouteDecision)
  | .claimed => do
    require .invalid (¬(around.typeRegistered ∧ around.groupActive))
    canonical [.general (if around.typeRegistered then .groupUnavailable else .typeUnavailable)]
  | .found none => canonical [.general .noConfiguration]
  | .found (some config) => do
    canonical (← (config.values.recipientIds.product config.values.channels).mapM
      fun (user, code) => decideRoute around config user code)
  | .row _ | .channels _ _ => .error .invalid

/-- The tables, the ids that new configurations were given, and the routes in progress. -/
structure System where
  tables : Configurations
  issued : List String
  sessions : Nat → Option (BusinessEvent × Progress)

def System.empty : System := ⟨⟨∅, fun _ => [], fun _ => []⟩, [], fun _ => none⟩

inductive Label
  | claimed (session : Nat) (event : BusinessEvent)
  | read (session : Nat)
  | routed (event : BusinessEvent) (plan : List RouteDecision)
  | stopped (session : Nat)
  | configured (config : Configuration)
  | removed (id : String)

/-- The steps. A new configuration has a new id; a command that creates the configurations
of several levels is several steps here. -/
inductive Step : System → Label → System → Prop
  | claim {s : System} (n : Nat) (event : BusinessEvent) : Step s (.claimed n event)
      { s with sessions := update s.sessions n (some (event, .claimed)) }
  | read {s : System} {n : Nat} {event : BusinessEvent} {progress next : Progress}
      (live : s.sessions n = some (event, progress))
        (done : progress.next s.tables event = .ok next) :
      Step s (.read n) { s with sessions := update s.sessions n (some (event, next)) }
  | route {s : System} {n : Nat} {event : BusinessEvent} {progress : Progress}
      {around : Surroundings} {plan : List RouteDecision}
      (live : s.sessions n = some (event, progress)) (planned : planOf around progress = .ok plan) :
      Step s (.routed event plan) { s with sessions := update s.sessions n none }
  | stop {s : System} (n : Nat) :
      Step s (.stopped n) { s with sessions := update s.sessions n none }
  | create {s : System} {config : Configuration} (new : config.id ∉ s.issued)
      (first : config.version = 1) (valid : config.values.valid)
      (free : ∀ id, ∀ row ∈ s.tables.rows.lookup id, ¬(row.tenantId = config.tenantId ∧
        row.groupId = config.groupId ∧ row.level = config.level)) :
      Step s (.configured config)
        { s with tables := s.tables.write config, issued := config.id :: s.issued }
  | replace {s : System} {config row : Configuration}
      (stored : s.tables.rows.lookup config.id = some row)
      (same : row.tenantId = config.tenantId ∧ row.groupId = config.groupId ∧
        row.level = config.level)
      (next : config.version = row.version + 1) (bounded : config.version < 2 ^ 64)
      (valid : config.values.valid) :
      Step s (.configured config) { s with tables := s.tables.write config }
  | delete {s : System} {id : String} {row : Configuration}
      (stored : s.tables.rows.lookup id = some row) :
      Step s (.removed id) { s with tables := s.tables.delete id }

/-- The relations of a configuration are read while its row is the one that was read. -/
def Untorn (s : System) : Label → Prop
  | .read n => match s.sessions n with
    | some (_, .row row) | some (_, .channels row _) => s.tables.rows.lookup row.id = some row
    | _ => True
  | _ => True

/-! ## What the tables and the routes know -/

/-- A configuration as it is read back. -/
def Configuration.sorted (c : Configuration) : Configuration :=
  { c with values := { c.values with
    channels := c.values.channels.insertionSort (· ≤ ·)
    additionalUserIds := c.values.additionalUserIds.insertionSort (· ≤ ·) } }

/-- The committed contents have ids that were issued, and each version has one content. -/
structure Contents (history : List Label) (s : System) : Prop where
  issued : ∀ c, .configured c ∈ history → c.id ∈ s.issued
  unique : ∀ c d, .configured c ∈ history → .configured d ∈ history → c.id = d.id →
    c.version = d.version → c = d
  stored : ∀ id, ∀ row ∈ s.tables.rows.lookup id, ∃ c, .configured c ∈ history ∧ c.id = id ∧
    row = c.header ∧ s.tables.channels id = c.sorted.values.channels ∧
    s.tables.recipients id = c.sorted.values.additionalUserIds ∧
    ∀ d, .configured d ∈ history → d.id = id → d.version ≤ row.version

/-- What a route has read is committed content. -/
def Reading (history : List Label) : Progress → Prop
  | .row row => ∃ c, .configured c ∈ history ∧ row = c.header
  | .channels row channels => ∃ c, .configured c ∈ history ∧ row = c.header ∧
    channels = c.sorted.values.channels
  | .found (some config) => ∃ c, .configured c ∈ history ∧ config = c.sorted
  | .claimed | .found none => True

/-- A plan is the product of the recipients and the channels of one committed content. -/
def Reflects (history : List Label) (plan : List RouteDecision) : Prop :=
  ∀ d ∈ plan, d.userId ≠ "" → ∃ c, .configured c ∈ history ∧ c.id = d.configurationId ∧
    c.version = d.configurationVersion ∧ ∀ user channel,
      (∃ e ∈ plan, e.userId = user ∧ e.channel = channel) ↔
        user ∈ c.values.recipientIds ∧ channel ∈ c.values.channels

section Steps

variable {history : List Label} {s t : System} {label : Label}

theorem mem_recipientIds_sorted {c : Configuration} {user : String} :
    user ∈ c.sorted.values.recipientIds ↔ user ∈ c.values.recipientIds := by
  simp only [Configuration.sorted, ConfigurationValues.recipientIds, List.mem_insertionSort,
    List.mem_append]
  rfl

/-- A plan of a configuration that was read untorn. -/
theorem planOf_reflects {around : Surroundings} {progress : Progress} {plan : List RouteDecision}
    (reading : Reading history progress) (planned : planOf around progress = .ok plan) :
    Reflects history plan := by
  have general {outcome : RouteOutcome} (done : canonical [.general outcome] = .ok plan) :
      Reflects history plan := by
    simp only [canonical, bind_ok, pure_ok] at done
    obtain ⟨-, -, -, -, rfl⟩ := done
    simp [Reflects, RouteDecision.general]
  cases progress with
  | row _ => cases planned
  | channels _ _ => cases planned
  | claimed =>
    simp only [planOf, bind_ok] at planned
    obtain ⟨-, -, planned⟩ := planned
    exact general planned
  | found config =>
    cases config with
    | none => exact general planned
    | some config =>
    obtain ⟨c, committed, rfl⟩ := reading
    simp only [planOf, bind_ok] at planned
    obtain ⟨_, decided, planned⟩ := planned
    simp only [canonical, bind_ok, pure_ok] at planned
    obtain ⟨-, -, -, -, rfl⟩ := planned
    have listed := mem_of_mapM decided
    have total := exists_mapM_ok.mp ⟨_, decided⟩
    simp only [decideRoute, bind_ok, pure_ok] at listed total
    intro d member _
    obtain ⟨_, -, outcome, -, rfl⟩ := (listed d).mp member
    refine ⟨c, committed, rfl, rfl, fun user channel => ?_⟩
    have chosen : (user, channel) ∈ c.sorted.values.recipientIds.product c.sorted.values.channels ↔
        user ∈ c.values.recipientIds ∧ channel ∈ c.values.channels := by
      rw [List.pair_mem_product, mem_recipientIds_sorted]
      simp [Configuration.sorted]
    rw [← chosen]
    constructor
    · rintro ⟨e, made, rfl, rfl⟩
      obtain ⟨_, asked, _, -, rfl⟩ := (listed e).mp made
      exact asked
    · intro asked
      obtain ⟨e, outcome, routed, rfl⟩ := total _ asked
      exact ⟨_, (listed _).mpr ⟨_, asked, outcome, routed, rfl⟩, rfl, rfl⟩

/-- More history knows more. -/
theorem Reading.mono {progress : Progress} (reading : Reading history progress) (label : Label) :
    Reading (history ++ [label]) progress := by
  match progress with
  | .claimed | .found none => trivial
  | .row _ | .channels _ _ | .found (some _) =>
    obtain ⟨c, committed, rest⟩ := reading
    exact ⟨c, List.mem_append_left _ committed, rest⟩

theorem Reflects.mono {plan : List RouteDecision} (reflects : Reflects history plan)
    (label : Label) :
    Reflects (history ++ [label]) plan := by
  intro d member attributed
  obtain ⟨c, committed, rest⟩ := reflects d member attributed
  exact ⟨c, List.mem_append_left _ committed, rest⟩

/-- The contents stay while no configuration is written. -/
theorem Contents.mono (contents : Contents history s) (label : Label)
    (silent : ∀ c, label ≠ .configured c) (issued : t.issued = s.issued)
    (tables : ∀ id, ∀ row ∈ t.tables.rows.lookup id, row ∈ s.tables.rows.lookup id ∧
      t.tables.channels id = s.tables.channels id ∧
        t.tables.recipients id = s.tables.recipients id) :
    Contents (history ++ [label]) t := by
  have old (c : Configuration) : .configured c ∈ history ++ [label] ↔ .configured c ∈ history := by
    simp [(silent c).symm]
  constructor
  case issued => simpa only [old, issued] using contents.issued
  case unique => simpa only [old] using contents.unique
  case stored =>
    intro id row found
    obtain ⟨before, channels, recipients⟩ := tables id row found
    simpa only [old, channels, recipients] using contents.stored id row before

/-- A new version of a configuration is later than all that were committed under its id. -/
theorem Contents.write (contents : Contents history s) {config : Configuration}
    {issued : List String}
    (kept : ∀ id ∈ s.issued, id ∈ issued) (own : config.id ∈ issued)
    (later : ∀ c, .configured c ∈ history → c.id = config.id → c.version < config.version) :
    Contents (history ++ [.configured config])
      { s with tables := s.tables.write config, issued := issued } := by
  have either {c : Configuration} (listed : .configured c ∈ history ++ [.configured config]) :
      .configured c ∈ history ∨ c = config := by simpa using listed
  constructor
  case issued =>
    intro c listed
    rcases either listed with old | rfl
    · exact kept _ (contents.issued c old)
    · exact own
  case unique =>
    intro c d left right ids versions
    rcases either left with old | rfl <;> rcases either right with old' | rfl
    · exact contents.unique c d old old' ids versions
    · exact absurd versions (later c old ids).ne
    · exact absurd versions.symm (later d old' ids.symm).ne
    · rfl
  case stored =>
    intro id row found
    by_cases here : id = config.id
    · subst here
      simp only [Configurations.write, AList.lookup_insert, Option.mem_some_iff] at found
      subst found
      refine ⟨config, by simp, rfl, rfl, update_self .., update_self .., ?_⟩
      intro d listed ids
      rcases either listed with old | rfl
      · exact (later d old ids).le
      · exact Nat.le_refl _
    · simp only [Configurations.write, AList.lookup_insert_ne here] at found
      obtain ⟨c, committed, named, shape, channels, recipients, newest⟩ :=
        contents.stored id row found
      refine ⟨c, List.mem_append_left _ committed, named, shape, ?_, ?_, ?_⟩
      · exact (update_of_ne here ..).trans channels
      · exact (update_of_ne here ..).trans recipients
      · intro d listed ids
        rcases either listed with old | rfl
        · exact newest d old ids
        · exact absurd ids.symm here

theorem Step.contents (step : Step s label t) (contents : Contents history s) :
    Contents (history ++ [label]) t := by
  cases step with
  | claim | read | route | stop =>
    exact contents.mono _ (fun _ => nofun) rfl fun _ _ found => ⟨found, rfl, rfl⟩
  | create new first =>
    refine contents.write (fun _ => .tail _) (.head _) fun c committed same => ?_
    exact absurd (same ▸ contents.issued c committed) new
  | replace stored same next =>
    obtain ⟨c, committed, named, -, -, -, newest⟩ := contents.stored _ _ stored
    refine contents.write (fun _ => id) (named ▸ contents.issued c committed) fun d old ids => ?_
    have bound := newest d old ids
    omega
  | @delete id =>
    refine contents.mono _ (fun _ => nofun) rfl fun other row found => ?_
    by_cases here : other = id
    · subst here
      simp [Configurations.delete] at found
    · simp only [Configurations.delete, AList.lookup_erase_ne here] at found
      exact ⟨found, update_of_ne here .., update_of_ne here ..⟩

/-- A statement that is not torn reads on in the same content. -/
theorem reading_next (contents : Contents history s) {n : Nat} {event : BusinessEvent}
    {progress next : Progress} (live : s.sessions n = some (event, progress))
    (reading : Reading history progress) (untorn : Untorn s (.read n))
    (done : progress.next s.tables event = .ok next) : Reading history next := by
  cases progress with
  | found => cases done
  | claimed =>
    simp only [Progress.next, pure_ok] at done
    subst done
    split
    · trivial
    · rename_i entry found
      obtain ⟨c, committed, -, shape, -⟩ := contents.stored entry.1 entry.2
        (AList.mem_lookup_iff.mpr (List.mem_of_find?_eq_some found))
      exact ⟨c, committed, shape⟩
  | row row =>
    simp only [Untorn, live] at untorn
    simp only [Progress.next, pure_ok] at done
    subst done
    obtain ⟨c, committed, -, shape, channels, -⟩ := contents.stored _ row untorn
    exact ⟨c, committed, shape, channels⟩
  | channels row codes =>
    simp only [Untorn, live] at untorn
    simp only [Progress.next, bind_ok, pure_ok] at done
    obtain ⟨-, -, rfl⟩ := done
    obtain ⟨c, committed, rfl, rfl⟩ := reading
    obtain ⟨d, committed', named, shape, -, recipients, -⟩ := contents.stored _ _ untorn
    have versions : c.header.version = d.header.version := by rw [shape]
    obtain rfl : c = d := contents.unique c d committed committed' named.symm versions
    exact ⟨c, committed, by rw [recipients]; rfl⟩

end Steps

/-- In every run in which no route is torn, the decisions of a route that name a
configuration are about exactly the recipients and the channels that were committed under
its id and version, and only one content was. -/
theorem routes_reflect_one_version {history : List Label} {last : System}
    (run : Run (Guarded Step Untorn) .empty history last) :
    (∀ event plan, .routed event plan ∈ history → Reflects history plan) ∧
      ∀ c d, .configured c ∈ history → .configured d ∈ history → c.id = d.id →
        c.version = d.version → c = d := by
  have kept := run.history (fun past s => Contents past s ∧
    (∀ n event progress, s.sessions n = some (event, progress) → Reading past progress) ∧
    ∀ event plan, .routed event plan ∈ past → Reflects past plan) ?_ ?_
  · exact ⟨kept.2.2, kept.1.unique⟩
  · rintro past s label t ⟨contents, reading, reflects⟩ ⟨step, untorn⟩
    have earlier {event plan} (listed : Label.routed event plan ∈ past) :
        Reflects (past ++ [label]) plan := (reflects event plan listed).mono label
    refine ⟨step.contents contents, ?_, ?_⟩
    · intro n event progress live
      apply Reading.mono
      cases step with
      | create | replace | delete => exact reading n event progress live
      | claim | stop | route | read =>
        simp only [update_apply] at live
        split at live
        · cases live <;> first
            | trivial
            | exact reading_next contents ‹_› (reading _ _ _ ‹_›) untorn ‹_›
        · exact reading n event progress live
    · intro event plan listed
      rcases List.mem_append.mp listed with old | new
      · exact earlier old
      · cases List.mem_singleton.mp new
        cases step with
        | route live planned => exact (planOf_reflects (reading _ _ _ live) planned).mono _
  · refine ⟨⟨nofun, nofun, fun id row found => ?_⟩, nofun, nofun⟩
    simp [System.empty] at found

section Sample

/-- A configuration with one recipient and one channel. -/
def alarm (user channel : String) (version : Nat) : Configuration :=
  ⟨"c", "t", "g", .urgent, ⟨[channel], user, "", [], ""⟩, version⟩

def alarmEvent : BusinessEvent := ⟨"e", "t", "g", .urgent⟩

def everything : Surroundings := ⟨true, true, fun _ => true, fun _ => true, fun _ _ => .ok true⟩

/-- The configuration is replaced after a route has read its row. -/
def tornRoute : List Label :=
  [.configured (alarm "u" "sms" 1), .claimed 0 alarmEvent, .read 0,
    .configured (alarm "v" "email" 2),
    .read 0, .read 0, .routed alarmEvent [⟨"c", 1, "u", "email", .externalTask⟩]]

/-- The recorded channel is one that the recorded version never had. -/
theorem torn_route_recorded : (∃ last, Run Step .empty tornRoute last) ∧
    ¬Reflects tornRoute [⟨"c", 1, "u", "email", .externalTask⟩] := by
  constructor
  · have first : Step .empty (.configured (alarm "u" "sms" 1)) _ :=
      .create (by decide) rfl (by decide) fun _ _ found => (nomatch found)
    refine ⟨_, .step first (.step (.claim 0 alarmEvent) (.step (.read rfl rfl) (.step (.replace rfl
      ⟨rfl, rfl, rfl⟩ rfl (by decide) (by decide)) (.step (.read rfl rfl) (.step (.read rfl rfl)
      (.step (@Step.route _ 0 alarmEvent _ everything _ rfl rfl) (.done _)))))))⟩
  · intro reflects
    obtain ⟨c, committed, -, version, pairs⟩ := reflects _ (.head _) (by decide)
    obtain ⟨-, channel⟩ := (pairs "u" "email").mp ⟨_, .head _, rfl, rfl⟩
    have options : c = alarm "u" "sms" 1 ∨ c = alarm "v" "email" 2 := by
      simpa [tornRoute] using committed
    rcases options with rfl | rfl
    · exact absurd channel (by decide)
    · cases version

/-- Two recipients on two channels. -/
def alert : Configuration :=
  ⟨"c", "t", "g", .urgent, ⟨["sms", "email"], "v", "u", [], ""⟩, 2⟩

def alerts : List RouteDecision :=
  [⟨"c", 2, "u", "email", .externalTask⟩, ⟨"c", 2, "u", "sms", .externalTask⟩,
    ⟨"c", 2, "v", "email", .externalTask⟩, ⟨"c", 2, "v", "sms", .externalTask⟩]

/-- A route that reads the second version of a configuration, which is then deleted. -/
def calmRoute : List Label :=
  [.configured (alarm "u" "sms" 1), .claimed 0 alarmEvent, .configured alert, .read 0, .read 0,
    .read 0, .removed "c", .routed alarmEvent alerts]

theorem calm_route_reflects : (∃ last, Run (Guarded Step Untorn) .empty calmRoute last) ∧
    Reflects calmRoute alerts := by
  have first : Step .empty (.configured (alarm "u" "sms" 1)) _ :=
    .create (by decide) rfl (by decide) fun _ _ found => (nomatch found)
  have run : ∃ last, Run (Guarded Step Untorn) .empty calmRoute last :=
    ⟨_, .step ⟨first, trivial⟩ (.step ⟨.claim 0 alarmEvent, trivial⟩
      (.step ⟨.replace rfl ⟨rfl, rfl, rfl⟩ rfl (by decide) (by decide), trivial⟩
      (.step ⟨.read rfl rfl, trivial⟩ (.step ⟨.read rfl rfl, rfl⟩ (.step ⟨.read rfl rfl, rfl⟩
      (.step ⟨.delete rfl, trivial⟩ (.step
      ⟨@Step.route _ 0 alarmEvent _ everything _ rfl rfl, trivial⟩ (.done _))))))))⟩
  obtain ⟨last, run⟩ := run
  exact ⟨⟨last, run⟩, (routes_reflect_one_version run).1 alarmEvent _ (by simp [calmRoute])⟩

end Sample

end Biz.Notification
