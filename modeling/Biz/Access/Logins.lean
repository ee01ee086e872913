import Biz.Access.Operations

/-!
# Login identifiers

`ResolveLoginIdentifier` finds the account behind an e-mail address, a user name or a
phone number. Addresses and names are columns of the account; a phone number is a
contact of memberships, of all tenants. So the memberships of one tenant can never
redirect the sign-in of somebody outside it, but a number they carry too becomes
ambiguous, and an ambiguous number signs nobody in.
-/

namespace Biz.Access

open Text

inductive LoginIdentifierKind
  | username
  | email
  | phone
  deriving DecidableEq

inductive LoginFailure
  | invalidUserCredentials
  | internal (failure : Failure)
  deriving DecidableEq

/-- The classes of runes that the normalisation asks for. -/
structure Runes where
  isDigit : Char → Bool
  isSpace : Char → Bool
  isControl : Char → Bool

structure LoginIdentifierResolution where
  userId : String
  email : String
  kind : LoginIdentifierKind
  normalized : String
  otpChannel : Channel
  otpDestination : String
  deriving DecidableEq

section Normalization

variable (runes : Runes) (contacts : Contacts)

def looksLikePhoneIdentifier (value : String) : Bool :=
  value.toList.zipIdx.all fun (rune, index) =>
    runes.isDigit rune || (rune = '+' && index = 0) || rune ∈ [' ', '-', '(', ')']

/-- `NormalizeLoginIdentifier`; `none` is its only error. -/
def normalizeLoginIdentifier (identifier : String) : Option (LoginIdentifierKind × String) :=
  let value := trimSpace identifier
  if value = "" then none
  else if '@' ∈ value.toList then
    (contacts.normalizeEmail value).toOption.map (.email, ·)
  else if looksLikePhoneIdentifier runes value then
    ((contacts.normalizePhone value).toOption.filter (· ≠ "")).map (.phone, ·)
  else
    let username := contacts.lower value
    let letters := username.toList
    if letters.length < 5 ∨ letters.length > 20 then none
    else if letters.any fun rune => runes.isSpace rune || runes.isControl rune then none
    else if letters.all runes.isDigit then none
    else some (.username, username)

end Normalization

/-! ## The queries -/

/-- Which phone columns the query for a number matches. -/
def Contacts.phoneQuery (contacts : Contacts) (normalized : String) :
    Except Failure (Contact → Bool) :=
  match contacts.protection with
  | none => .ok fun phone => phone.plain = normalized
  | some protection => do
    let lookup ← protection.lookupPhone normalized
    return fun phone => phone.lookupHash = some lookup

namespace Db

variable (db : Db)

/-- The active accounts that a query picks, by id. -/
def activeUsers (pick : UserRecord → Bool) : List (String × UserRecord) :=
  (db.users.filter fun user => user.2.active && pick user.2).insertionSort
    fun first second => first.1 ≤ second.1

/-- The distinct users with an active membership, of any tenant, that a query picks. -/
def phoneHolders (pick : Contact → Bool) : List String :=
  ((db.entries.filterMap fun
    | ⟨.membership _ user, row⟩ =>
      if row.status = .active ∧ pick row.phone = true then some user else none
    | _ => none).dedup).insertionSort (· ≤ ·)

/-- `findUserByEmail` for active accounts only. -/
def findActiveUserByEmail (contacts : Contacts) (email : String) :
    Except Failure (String × String) := do
  let normalized ← contacts.normalizeEmail email
  let hash ← contacts.protection.mapM fun protection => protection.lookupEmail normalized
  let hit := (db.activeUsers fun row => hash.isSome && row.email.lookupHash = hash).head?.or
    (db.activeUsers fun row => contacts.lower row.email.plain = contacts.lower normalized).head?
  let (id, row) ← Checks.found .recordNotFound hit
  let plain ← contacts.userEmail row
  return (id, plain)

end Db

def resolveUserIdByPhone (contacts : Contacts) (db : Db) (normalized : String) :
    Except LoginFailure String :=
  match contacts.phoneQuery normalized with
  | .error failure => .error (.internal failure)
  | .ok pick =>
    match (db.phoneHolders pick).take 2 with
    | [user] => .ok user
    | _ => .error .invalidUserCredentials

def resolveLoginIdentifier (runes : Runes) (contacts : Contacts) (db : Db) (identifier : String) :
    Except LoginFailure LoginIdentifierResolution :=
  match normalizeLoginIdentifier runes contacts identifier with
  | none => .error .invalidUserCredentials
  | some (.email, normalized) =>
    match db.findActiveUserByEmail contacts normalized with
    | .error failure => .error (if failure = .recordNotFound ∨ failure = .invalidContact
        then .invalidUserCredentials else .internal failure)
    | .ok (id, email) => .ok ⟨id, email, .email, normalized, .email, email⟩
  | some (.username, normalized) =>
    match (db.activeUsers fun row => row.username.map contacts.lower = some normalized).take 2 with
    | [(id, row)] => do
      let email ← (contacts.userEmail row).mapError .internal
      return ⟨id, email, .username, normalized, .email, email⟩
    | _ => .error .invalidUserCredentials
  | some (.phone, normalized) => do
    let id ← resolveUserIdByPhone contacts db normalized
    let row ← Checks.found .invalidUserCredentials ((db.lookup (.user id)).filter UserRecord.active)
    let email ← (contacts.userEmail row).mapError .internal
    return ⟨id, email, .phone, normalized, .sms, normalized⟩

/-! ## States that differ in the memberships of one tenant -/

/-- Two states have the same rows but for the memberships of one tenant. -/
def AgreeOutside (tenant : String) (first second : Db) : Prop :=
  ∀ key, (∀ user, key ≠ .membership tenant user) → first.lookup key = second.lookup key

section Queries

variable {db first second : Db} {tenant : String}

theorem mem_users {id : String} {row : UserRecord} :
    (id, row) ∈ db.users ↔ db.lookup (.user id) = some row := by
  rw [← Option.mem_def, AList.mem_lookup_iff, Db.users, List.mem_filterMap]
  constructor
  · rintro ⟨⟨key, _⟩, listed, picked⟩
    cases key <;> cases picked
    exact listed
  · intro listed
    exact ⟨⟨.user id, row⟩, listed, rfl⟩

theorem nodup_users : db.users.Nodup := by
  apply List.Nodup.filterMap _ (List.NodupKeys.nodup db.nodupKeys)
  rintro ⟨key, row⟩ ⟨key', row'⟩ user picked picked'
  cases key <;> cases picked
  cases key' <;> cases picked'
  rfl

/-- Ids are unique, so the order of the ids orders the accounts in only one way. -/
theorem activeUsers_agree (agree : AgreeOutside tenant first second) (pick : UserRecord → Bool) :
    first.activeUsers pick = second.activeUsers pick := by
  have same (user : String × UserRecord) : user ∈ first.users ↔ user ∈ second.users := by
    rw [mem_users, mem_users, agree (.user user.1) fun _ => nofun]
  have perm : first.users.Perm second.users :=
    (List.perm_ext_iff_of_nodup nodup_users nodup_users).mpr same
  have sorted (db : Db) : (db.activeUsers pick).Pairwise fun a b => a.1 ≤ b.1 :=
    List.pairwise_insertionSort _ _
  refine List.Perm.eq_of_pairwise ?_ (sorted first) (sorted second)
    (((List.perm_insertionSort _ _).trans (perm.filter _)).trans (List.perm_insertionSort _ _).symm)
  rintro ⟨id, row⟩ ⟨id', row'⟩ mine yours below above
  simp only [Db.activeUsers, List.mem_insertionSort, List.mem_filter] at mine yours
  obtain rfl : id = id' := le_antisymm below above
  rw [same, mem_users] at mine
  rw [mem_users, mine.1] at yours
  simp_all

theorem mem_phoneHolders {pick : Contact → Bool} {user : String} :
    user ∈ db.phoneHolders pick ↔ ∃ owner row, db.membership? owner user = some row ∧
      row.status = .active ∧ pick row.phone = true := by
  simp only [Db.phoneHolders, List.mem_insertionSort, List.mem_dedup, List.mem_filterMap]
  constructor
  · rintro ⟨⟨key, row⟩, listed, picked⟩
    cases key <;> simp only [reduceCtorEq, Option.ite_none_right_eq_some, Option.some.injEq]
      at picked
    obtain ⟨carried, rfl⟩ := picked
    exact ⟨_, row, AList.mem_lookup_iff.mpr listed, carried⟩
  · rintro ⟨owner, row, held, carried⟩
    exact ⟨⟨.membership owner user, row⟩, AList.mem_lookup_iff.mp held, by simp [carried]⟩

/-- The query limited to two rows yields one row for one holder and no other number of holders. -/
theorem phoneHolders_single {pick : Contact → Bool} {user : String} :
    (db.phoneHolders pick).take 2 = [user] ↔ ∀ other, other ∈ db.phoneHolders pick ↔
      other = user := by
  have distinct : (db.phoneHolders pick).Nodup :=
    (List.perm_insertionSort _ _).nodup_iff.mpr (List.nodup_dedup _)
  match holders : db.phoneHolders pick with
  | [] => simp [eq_comm]
  | [single] => simp [eq_comm]
  | one :: two :: rest =>
    have apart : one ≠ two := by
      rintro rfl
      simp [holders] at distinct
    simp only [List.take_succ_cons, List.take_zero, List.cons.injEq, reduceCtorEq, and_false,
      false_iff]
    intro only
    exact apart (((only one).mp (by simp)).trans ((only two).mp (by simp)).symm)

end Queries

section Resolution

variable {contacts : Contacts} {first second : Db} {tenant user normalized : String}

theorem resolveUserIdByPhone_ok {db : Db} :
    resolveUserIdByPhone contacts db normalized = .ok user ↔
      ∃ pick, contacts.phoneQuery normalized = .ok pick ∧
        ∀ other, other ∈ db.phoneHolders pick ↔ other = user := by
  simp only [← phoneHolders_single, resolveUserIdByPhone]
  cases contacts.phoneQuery normalized with
  | error failure => simp
  | ok pick =>
    simp only [Except.ok.injEq, exists_eq_left']
    split <;> simp_all

/-- The holder of a number outside a tenant keeps it, and it stays theirs alone unless the
tenant has an active membership with the number. -/
theorem resolveUserIdByPhone_agree (agree : AgreeOutside tenant first second)
    (outside : first.membership? tenant user = none)
    (found : resolveUserIdByPhone contacts first normalized = .ok user) :
    resolveUserIdByPhone contacts second normalized = .ok user ∨
      (resolveUserIdByPhone contacts second normalized = .error .invalidUserCredentials ∧
        ∃ pick other row, contacts.phoneQuery normalized = .ok pick ∧
          second.membership? tenant other = some row ∧ row.status = .active ∧
          pick row.phone = true) := by
  obtain ⟨pick, query, only⟩ := resolveUserIdByPhone_ok.mp found
  -- Memberships of the other tenants are the same, those of the tenant are not the user's.
  have elsewhere {owner other : String} (foreign : owner ≠ tenant) :
      first.membership? owner other = second.membership? owner other :=
    agree _ fun _ same => foreign (Key.membership.inj same).1
  have kept : user ∈ second.phoneHolders pick := by
    obtain ⟨owner, row, held, carried⟩ := mem_phoneHolders.mp ((only user).mpr rfl)
    have foreign : owner ≠ tenant := by
      rintro rfl
      simp [outside] at held
    exact mem_phoneHolders.mpr ⟨owner, row, elsewhere foreign ▸ held, carried⟩
  by_cases alone : ∀ other, other ∈ second.phoneHolders pick ↔ other = user
  · exact .inl (resolveUserIdByPhone_ok.mpr ⟨pick, query, alone⟩)
  · right
    obtain ⟨other, holds, different⟩ : ∃ other, other ∈ second.phoneHolders pick ∧
      other ≠ user := by
      by_contra nobody
      push Not at nobody
      exact alone fun other => ⟨nobody other, fun same => same ▸ kept⟩
    constructor
    · have many : ∀ id, (second.phoneHolders pick).take 2 ≠ [id] := by
        intro id single
        have only' := phoneHolders_single.mp single
        exact different (((only' other).mp holds).trans ((only' user).mp kept).symm)
      simp only [resolveUserIdByPhone, query]
    · obtain ⟨owner, row, held, carried⟩ := mem_phoneHolders.mp holds
      have own : owner = tenant := by
        by_contra foreign
        exact different ((only other).mp
          (mem_phoneHolders.mpr ⟨owner, row, (elsewhere foreign).symm ▸ held, carried⟩))
      exact ⟨pick, other, row, query, own ▸ held, carried⟩

theorem findActiveUserByEmail_agree (agree : AgreeOutside tenant first second) (email : String) :
    first.findActiveUserByEmail contacts email = second.findActiveUserByEmail contacts email := by
  simp only [Db.findActiveUserByEmail, activeUsers_agree agree]

/-- Whatever the memberships of a tenant are, a user outside it who can sign in by an
identifier still can, and gets the code where it went before, unless the identifier is a
number that an active membership of the tenant carries: then nobody signs in by it. -/
theorem tenants_only_make_phones_ambiguous (runes : Runes) (contacts : Contacts)
    (tenant identifier : String) (first second : Db) (agree : AgreeOutside tenant first second)
    (resolution : LoginIdentifierResolution)
    (outside : first.membership? tenant resolution.userId = none)
    (yields : resolveLoginIdentifier runes contacts first identifier = .ok resolution) :
    resolveLoginIdentifier runes contacts second identifier = .ok resolution ∨
      (resolveLoginIdentifier runes contacts second identifier = .error .invalidUserCredentials ∧
        ∃ normalized pick other row,
          normalizeLoginIdentifier runes contacts identifier = some (.phone, normalized) ∧
          contacts.phoneQuery normalized = .ok pick ∧
          second.membership? tenant other = some row ∧ row.status = .active ∧
          pick row.phone = true) := by
  rw [← yields]
  rcases kind : normalizeLoginIdentifier runes contacts identifier with
    _ | ⟨_ | _ | _, normalized⟩
  · simp [resolveLoginIdentifier, kind]
  · simp only [resolveLoginIdentifier, kind, activeUsers_agree agree, true_or]
  · simp only [resolveLoginIdentifier, kind, findActiveUserByEmail_agree agree, true_or]
  · simp only [resolveLoginIdentifier, kind, Checks.bind_ok, Checks.pure_ok] at yields
    obtain ⟨id, phone, _, _, _, _, rfl⟩ := yields
    have sameAccount : first.lookup (.user id) = second.lookup (.user id) :=
      agree _ fun _ same => by cases same
    simp only [resolveLoginIdentifier, kind, phone]
    rcases resolveUserIdByPhone_agree agree outside
      phone with same | ⟨refused, pick, other, carrier⟩
    · left
      rw [same]
      change (Checks.found _ ((second.lookup (.user id)).filter _) >>= _) =
        (Checks.found _ ((first.lookup (.user id)).filter _) >>= _)
      rw [sameAccount]
    · right
      rw [refused]
      exact ⟨rfl, normalized, pick, other, carrier.choose, rfl, carrier.choose_spec⟩

end Resolution

/-! ## A number two tenants know -/

def plainRunes : Runes := ⟨Char.isDigit, Char.isWhitespace, fun _ => false⟩

def phoneMember (phone : String) : MembershipRecord :=
  ⟨.active, "", .blank, ⟨phone, "", none, ""⟩, "", "", "", "", none, 1⟩

/-- A user who signs in by the number of their membership in `b`. -/
def soleHolder : Db :=
  ((∅ : Db).insert (.user "u") ⟨none, ⟨"u@x", "", none, ""⟩, true⟩).insert
    (.membership "b" "u") (phoneMember "123456")

/-- The same after `a` has entered the number for a member of its own. -/
def sharedNumber : Db := soleHolder.insert (.membership "a" "v") (phoneMember "123456")

theorem sharedNumber_agrees : AgreeOutside "a" soleHolder sharedNumber := by
  intro key other
  exact (AList.lookup_insert_ne (other "v")).symm

theorem shared_number_blocks_login :
    AgreeOutside "a" soleHolder sharedNumber ∧
    soleHolder.membership? "a" "u" = none ∧ sharedNumber.membership? "a" "u" = none ∧
    resolveLoginIdentifier plainRunes plainService.config.contacts soleHolder "123456" =
      .ok ⟨"u", "u@x", .phone, "123456", .sms, "123456"⟩ ∧
    resolveLoginIdentifier plainRunes plainService.config.contacts sharedNumber "123456" =
      .error .invalidUserCredentials := by
  refine ⟨sharedNumber_agrees, ?_⟩
  decide +kernel

/-- The user still signs in by their address; the number is one that `a` carries. -/
theorem soleHolder_login_kept :
    resolveLoginIdentifier plainRunes plainService.config.contacts sharedNumber "u@x" =
        .ok ⟨"u", "u@x", .email, "u@x", .email, "u@x"⟩ ∧
      ∃ other row, sharedNumber.membership? "a" other = some row ∧ row.status = .active ∧
        row.phone.plain = "123456" := by
  have outside : soleHolder.membership? "a" "u" = none := by decide +kernel
  have yields : resolveLoginIdentifier plainRunes plainService.config.contacts soleHolder "123456" =
      .ok ⟨"u", "u@x", .phone, "123456", .sms, "123456"⟩ := by decide +kernel
  have refused : resolveLoginIdentifier plainRunes plainService.config.contacts sharedNumber
      "123456" = .error .invalidUserCredentials := by decide +kernel
  have resolved (identifier : String) := tenants_only_make_phones_ambiguous plainRunes
    plainService.config.contacts "a" identifier soleHolder sharedNumber sharedNumber_agrees
  have address : normalizeLoginIdentifier plainRunes plainService.config.contacts "u@x" =
      some (.email, "u@x") := by decide +kernel
  have number : normalizeLoginIdentifier plainRunes plainService.config.contacts "123456" =
      some (.phone, "123456") := by decide +kernel
  constructor
  · refine (resolved "u@x" _ outside (by decide +kernel)).resolve_right ?_
    rintro ⟨_, _, _, _, _, kind, _⟩
    cases address.symm.trans kind
  · rcases resolved "123456" _ outside yields with same | ⟨_, _, _, other, row, kind, query, rest⟩
    · cases refused.symm.trans same
    · cases number.symm.trans kind
      cases query
      exact ⟨other, row, rest.1, rest.2.1, of_decide_eq_true rest.2.2⟩

end Biz.Access
