import Biz.Library.Calendar

/-!
# RFC 3339 texts of instants

`Time.Format` and `time.Parse` for the layout `RFC3339Nano` in UTC, over lists of
characters: the parts of the date in fixed widths, the fraction without trailing
zeros, then `Z`. A year outside 0 to 9999 is printed with a sign or with more than
four digits; no parser of the layout reads such a text, because both the fast one
and the general one take four digits and then need a hyphen. What is read here is what
the general one reads, which takes more texts than the fast one.

`parse_format` says when the text of an instant gives the instant back.
-/

namespace Biz.Rfc3339

open Time Calendar

def digit (d : Nat) : Char := Char.ofNat (48 + d)

/-- The last `width` decimal digits of a number. -/
def digits : Nat → Nat → List Char
  | 0, _ => []
  | width + 1, n => digit (n / 10 ^ width % 10) :: digits width (n % 10 ^ width)

/-- `appendInt`: at least `width` digits, after a sign when the number is negative. -/
def appendInt (x : Int) (width : Nat) : List Char :=
  (if x < 0 then ['-'] else []) ++ digits (max width (Nat.log 10 x.natAbs + 1)) x.natAbs

variable (text : List Char)

def trimZeros : List Char := (text.reverse.dropWhile (· = '0')).reverse

/-- `appendNano` without trailing zeros. -/
def fraction (nanosecond : Nat) : List Char :=
  match trimZeros (digits 9 nanosecond) with
  | [] => []
  | text => '.' :: text

/-- The text of a date in UTC. -/
def print (d : Date) : List Char :=
  appendInt d.year 4 ++ '-' :: (appendInt d.month 2 ++ '-' :: (appendInt d.day 2 ++ 'T' ::
    (appendInt d.hour 2 ++ ':' :: (appendInt d.minute 2 ++ ':' :: (appendInt d.second 2 ++
      (fraction d.nanosecond ++ ['Z']))))))

/-- `t.UTC().Format(time.RFC3339Nano)`. -/
def format (t : Instant) : String := String.ofList (print (date t))

/-- The number that a list of digits denotes, after a number read before. -/
def value (before : Nat) (text : List Char) : Nat :=
  text.foldl (fun n c => 10 * n + (c.toNat - 48)) before

/-- A number of exactly `width` digits within bounds. -/
def number (width low high : Nat) (text : List Char) : Option (Nat × List Char) :=
  let here := text.take width
  if here.length = width ∧ here.all Char.isDigit ∧ low ≤ value 0 here ∧ value 0 here ≤ high then
    some (value 0 here, text.drop width)
  else none

def expect (c : Char) : List Char → Option (List Char)
  | [] => none
  | d :: rest => if d = c then some rest else none

/-- The hour may have one digit. -/
def readHour : Option (Nat × List Char) :=
  number (if (text.drop 1).head?.any Char.isDigit = true then 2 else 1) 0 23 text

/-- An optional fraction of a second, after a period or a comma, of which nine digits count. -/
def readFraction : List Char → Nat × List Char
  | [] => (0, [])
  | mark :: rest =>
    let text := (rest.takeWhile Char.isDigit).take 9
    if (mark = '.' ∨ mark = ',') ∧ text ≠ [] then
      (value 0 text * 10 ^ (9 - text.length), rest.dropWhile Char.isDigit)
    else (0, mark :: rest)

/-- The offset of the zone in seconds, of which 24 hours and 60 minutes are read too. -/
def readZone : Option Int :=
  match text with
  | ['Z'] => some 0
  | sign :: rest => do
    let (hours, rest) ← number 2 0 24 rest
    let rest ← expect ':' rest
    let (minutes, rest) ← number 2 0 60 rest
    if rest = [] then
      if sign = '+' then some ((hours * 60 + minutes) * 60)
      else if sign = '-' then some (-((hours * 60 + minutes) * 60))
      else none
    else none
  | [] => none

/-- The number of days of a month. -/
def daysIn (month : Nat) (year : Int) : Nat := ((monthLengths (leap year))[month - 1]?).getD 0

def read : Option Instant := do
  let (year, text) ← number 4 0 9999 text
  let text ← expect '-' text
  let (month, text) ← number 2 1 12 text
  let text ← expect '-' text
  let (day, text) ← number 2 1 (daysIn month year) text
  let text ← expect 'T' text
  let (hour, text) ← readHour text
  let text ← expect ':' text
  let (minute, text) ← number 2 0 59 text
  let text ← expect ':' text
  let (second, text) ← number 2 0 59 text
  let (nanosecond, text) := readFraction text
  let offset ← readZone text
  return instant ⟨year, month, day, hour, minute, second, nanosecond⟩ - offset * second

/-- `time.Parse(time.RFC3339Nano, text)`. -/
def parse (text : String) : Option Instant := read text.toList

theorem digit_isDigit {d : Nat} (small : d < 10) : (digit d).isDigit = true := by
  interval_cases d <;> rfl

theorem digit_toNat {d : Nat} (small : d < 10) : (digit d).toNat = 48 + d := by
  interval_cases d <;> rfl

@[simp] theorem length_digits (width n : Nat) : (digits width n).length = width := by
  induction width generalizing n with
  | zero => rfl
  | succ width ih => simp [digits, ih]

theorem isDigit_digits (width n : Nat) : ∀ c ∈ digits width n, c.isDigit = true := by
  induction width generalizing n with
  | zero => simp [digits]
  | succ width ih =>
    exact List.forall_mem_cons.mpr ⟨digit_isDigit (Nat.mod_lt _ (by decide)),
      ih _⟩

theorem value_digits {width n : Nat} (before : Nat) (fits : n < 10 ^ width) :
    value before (digits width n) = before * 10 ^ width + n := by
  induction width generalizing n before with
  | zero =>
    simp [digits, value]
    omega
  | succ width ih =>
    have positive : 0 < 10 ^ width := Nat.pow_pos (by decide)
    have lead : n / 10 ^ width < 10 := Nat.div_lt_of_lt_mul (by rwa [Nat.pow_succ] at fits)
    have later := ih (10 * before + n / 10 ^ width) (Nat.mod_lt n positive)
    simp only [value] at later
    simp only [value, digits, List.foldl_cons, Nat.mod_eq_of_lt lead, digit_toNat lead,
      Nat.add_sub_cancel_left]
    have split := Nat.div_add_mod n (10 ^ width)
    rw [Nat.pow_succ]
    linarith [split]

theorem appendInt_of_lt {n width : Nat} (positive : width ≠ 0) (fits : n < 10 ^ width) :
    appendInt n width = digits width n := by
  have short : Nat.log 10 n + 1 ≤ width := Nat.log_lt_of_lt_pow' positive fits
  simp [appendInt, Nat.max_eq_left short]

/-- A printed number within bounds is read back. -/
theorem number_appendInt {width low high n : Nat} (positive : width ≠ 0) (fits : n < 10 ^ width)
    (above : low ≤ n) (below : n ≤ high) (rest : List Char) :
    number width low high (appendInt n width ++ rest) = some (n, rest) := by
  have here : (digits width n ++ rest).take width = digits width n :=
    List.take_left' (length_digits width n)
  have denoted : value 0 (digits width n) = n := by
    rw [value_digits 0 fits]
    omega
  simp only [number, appendInt_of_lt positive fits, here, denoted, length_digits,
    List.all_eq_true.mpr (isDigit_digits width n), above, below, and_self, if_true,
    List.drop_left' (length_digits width n)]

theorem readHour_appendInt {hour : Nat} (below : hour ≤ 23) (rest : List Char) :
    readHour (appendInt hour 2 ++ rest) = some (hour, rest) := by
  have two : ((appendInt hour 2 ++ rest).drop 1).head?.any Char.isDigit = true := by
    rw [appendInt_of_lt (by decide) (by omega)]
    exact digit_isDigit (Nat.mod_lt _ (by decide))
  rw [readHour, if_pos two]
  exact number_appendInt (by decide) (by omega) (Nat.zero_le hour) below rest

theorem number_rest {width low high n : Nat} {text rest : List Char}
    (taken : number width low high text = some (n, rest)) : rest = text.drop width := by
  simp only [number] at taken
  split at taken
  · simp_all
  · cases taken

@[simp] theorem expect_cons (c : Char) (rest : List Char) : expect c (c :: rest) = some rest := by
  simp [expect]

/-- Trimming takes zeros off the end. -/
theorem trimZeros_append (text : List Char) :
    ∃ count, text = trimZeros text ++ List.replicate count '0' := by
  refine ⟨(text.reverse.takeWhile (· = '0')).length, ?_⟩
  have zeros : text.reverse.takeWhile (· = '0') =
      List.replicate (text.reverse.takeWhile (· = '0')).length '0' := by
    refine List.eq_replicate_of_mem fun c member => ?_
    simpa using List.mem_takeWhile_imp member
  have parts := List.takeWhile_append_dropWhile (p := (· = '0')) (l := text.reverse)
  rw [zeros] at parts
  rw [trimZeros, ← List.reverse_inj, List.reverse_append, List.reverse_replicate,
    List.reverse_reverse]
  exact parts.symm

theorem value_append_zeros (before count : Nat) (text : List Char) :
    value before (text ++ List.replicate count '0') = value before text * 10 ^ count := by
  induction count with
  | zero => simp
  | succ count ih =>
    have last : '0'.toNat - 48 = 0 := rfl
    rw [List.replicate_succ', ← List.append_assoc, value, List.foldl_append]
    change 10 * value before (text ++ List.replicate count '0') + ('0'.toNat - 48) = _
    rw [ih, last]
    ring

/-- A printed fraction is read back. -/
theorem readFraction_fraction {nanosecond : Nat} (fits : nanosecond < 10 ^ 9) :
    readFraction (fraction nanosecond ++ ['Z']) = (nanosecond, ['Z']) := by
  obtain ⟨count, parts⟩ := trimZeros_append (digits 9 nanosecond)
  have length := congrArg List.length parts
  have denoted := congrArg (value 0) parts
  rw [List.length_append, length_digits, List.length_replicate] at length
  rw [value_append_zeros, value_digits 0 fits, Nat.zero_mul, Nat.zero_add] at denoted
  have all : ∀ c ∈ trimZeros (digits 9 nanosecond), c.isDigit = true := fun c member =>
    isDigit_digits 9 nanosecond c (parts ▸ List.mem_append_left _ member)
  unfold fraction
  cases shape : trimZeros (digits 9 nanosecond) with
  | nil =>
    rw [shape] at denoted
    simp [denoted, value, readFraction]
  | cons c rest =>
    rw [shape] at length denoted all
    have whole : (c :: rest ++ ['Z']).takeWhile Char.isDigit = c :: rest := by
      rw [List.takeWhile_append_of_pos all]
      simp
    have left : (c :: rest ++ ['Z']).dropWhile Char.isDigit = ['Z'] := by
      rw [List.dropWhile_append_of_pos all]
      rfl
    have short : (c :: rest).take 9 = c :: rest := List.take_of_length_le (by omega)
    have missing : 9 - (c :: rest).length = count := by omega
    change readFraction ('.' :: (c :: rest ++ ['Z'])) = _
    simp only [readFraction, whole, left, short, missing, ← denoted]
    exact if_pos ⟨.inl trivial, List.cons_ne_nil c rest⟩

/-- The parts of a date that lie within their ranges. -/
structure Proper (d : Date) : Prop where
  year : 0 ≤ d.year ∧ d.year ≤ 9999
  month : 1 ≤ d.month ∧ d.month ≤ 12
  day : 1 ≤ d.day ∧ d.day ≤ daysIn d.month d.year
  hour : d.hour ≤ 23
  minute : d.minute ≤ 59
  second : d.second ≤ 59
  nanosecond : d.nanosecond < 10 ^ 9

theorem daysIn_le (month : Nat) (year : Int) : daysIn month year ≤ 31 := by
  have bounded : ∀ length ∈ monthLengths (leap year), length ≤ 31 := by
    cases leap year <;> decide
  unfold daysIn
  cases found : (monthLengths (leap year))[month - 1]? with
  | none => simp
  | some length => exact bounded length (List.mem_of_getElem? found)

/-- A printed date is read back. -/
theorem read_print {d : Date} (proper : Proper d) : read (print d) = some (instant d) := by
  obtain ⟨year, nonnegative⟩ : ∃ year : Nat, d.year = year := ⟨d.year.toNat, by
    have := proper.year
    omega⟩
  have last := daysIn_le d.month d.year
  have early := proper.year.2
  have ⟨firstMonth, lastMonth⟩ := proper.month
  have ⟨firstDay, lastDay⟩ := proper.day
  have hours := proper.hour
  have minutes := proper.minute
  have seconds := proper.second
  rw [nonnegative] at last lastDay early
  have readYear := number_appendInt (show 4 ≠ 0 by decide) (show year < 10 ^ 4 by omega)
    (Nat.zero_le year) (show year ≤ 9999 by omega)
  have readMonth := number_appendInt (show 2 ≠ 0 by decide) (show d.month < 10 ^ 2 by omega)
    firstMonth lastMonth
  have readDay := number_appendInt (show 2 ≠ 0 by decide) (show d.day < 10 ^ 2 by omega)
    firstDay lastDay
  have readHour := readHour_appendInt hours
  have readMinute := number_appendInt (show 2 ≠ 0 by decide) (show d.minute < 10 ^ 2 by omega)
    (Nat.zero_le _) minutes
  have readSecond := number_appendInt (show 2 ≠ 0 by decide) (show d.second < 10 ^ 2 by omega)
    (Nat.zero_le _) seconds
  simp only [read, print, nonnegative, readYear, readMonth, readDay, readHour, readMinute,
    readSecond, readFraction_fraction proper.nanosecond, expect_cons, readZone, Option.bind_eq_bind,
    Option.bind_some, Option.pure_def, Int.zero_mul, Int.sub_zero]
  rw [← nonnegative]

/-- A year with a sign or with five digits is not read. -/
theorem read_print_of_year {d : Date} (outside : ¬(0 ≤ d.year ∧ d.year ≤ 9999)) :
    read (print d) = none := by
  by_cases negative : d.year < 0
  · have signed : ∀ rest, number 4 0 9999 ('-' :: rest) = none := by
      intro rest
      unfold number
      simp
    simp only [read, print, appendInt, negative, if_true, List.cons_append, List.nil_append,
      signed]
    rfl
  · -- The fifth character is a digit where the parser needs a hyphen.
    have long : 4 ≤ Nat.log 10 d.year.natAbs :=
      Nat.le_log_of_pow_le (by decide) (show 10 ^ 4 ≤ d.year.natAbs by omega)
    have unsigned : appendInt d.year 4 = digits (Nat.log 10 d.year.natAbs + 1) d.year.natAbs := by
      simp only [appendInt, negative, if_false, List.nil_append]
      rw [Nat.max_eq_right (by omega)]
    have fifth : ∃ c rest, (appendInt d.year 4).drop 4 = c :: rest ∧ c.isDigit = true := by
      rw [unsigned]
      cases shape : (digits (Nat.log 10 d.year.natAbs + 1) d.year.natAbs).drop 4 with
      | nil =>
        have := List.drop_eq_nil_iff.mp shape
        rw [length_digits] at this
        omega
      | cons c rest =>
        have member : c ∈ (digits (Nat.log 10 d.year.natAbs + 1) d.year.natAbs).drop 4 := by
          rw [shape]
          exact List.mem_cons_self
        exact ⟨c, rest, rfl, isDigit_digits _ _ c (List.mem_of_mem_drop member)⟩
    obtain ⟨c, rest, shape, isDigit⟩ := fifth
    have other : c ≠ '-' := by
      rintro rfl
      cases isDigit
    unfold read
    cases taken : number 4 0 9999 (print d) with
    | none => rfl
    | some read =>
      obtain ⟨tail, left⟩ : ∃ tail, read.2 = c :: tail := by
        rw [number_rest taken, print, List.drop_append_of_le_length (by simp [unsigned]; omega),
          shape]
        exact ⟨_, rfl⟩
      simp [left, expect, other]

/-- The text of an instant gives the instant back exactly when its year has four
digits. -/
theorem parse_format (t : Instant) :
    parse (format t) = if 0 ≤ year t ∧ year t ≤ 9999 then some t else none := by
  rw [parse, format, String.toList_ofList]
  split
  · rename_i early
    obtain ⟨firstMonth, lastMonth, firstDay, ⟨length, found, lastDay⟩, hours, minutes, seconds,
      nanoseconds⟩ := date_bounds t
    rw [read_print, instant_date]
    exact { year := early, month := ⟨firstMonth, lastMonth⟩,
            day := ⟨firstDay, by simpa [daysIn, found] using lastDay⟩, hour := by omega,
            minute := by omega, second := by omega, nanosecond := nanoseconds }
  · rename_i outside
    exact read_print_of_year outside

end Biz.Rfc3339
