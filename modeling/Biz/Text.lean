import Mathlib

/-!
# Text checks of the Go standard library

The regular expressions and string functions that the domain packages share,
over Lean strings. A Go string is a byte sequence; `len` of it is the number of
its UTF-8 bytes. Byte sequences that are not UTF-8 have no counterpart here.
-/

namespace Biz.Text

/-- `unicode.IsSpace`. -/
def isSpace (c : Char) : Bool :=
  c.toNat ∈ [0x09, 0x0a, 0x0b, 0x0c, 0x0d, 0x20, 0x85, 0xa0, 0x1680, 0x2028, 0x2029, 0x202f,
    0x205f, 0x3000] || (0x2000 ≤ c.toNat && c.toNat ≤ 0x200a)

/-- `strings.TrimSpace`. -/
def trimSpace (s : String) : String :=
  String.ofList ((s.toList.dropWhile isSpace).reverse.dropWhile isSpace).reverse

/-- The first 48 characters of a hexadecimal digest, `digest[:48]`. -/
def short (digest : String) : String := String.ofList (digest.toList.take 48)

/-- A character of an identifier after its first. -/
def keyRest (c : Char) : Bool := c.isAlphanum || c ∈ ['.', '_', ':', '-']

/-- The expression `^[A-Za-z0-9][A-Za-z0-9._:-]{0,127}$`. -/
def key (s : String) : Bool :=
  match s.toList with
  | [] => false
  | first :: rest => first.isAlphanum && rest.length ≤ 127 && rest.all keyRest

/-- The expression `^[A-Za-z0-9][A-Za-z0-9._:-]*$` on a text of at most `limit` bytes. -/
def token (s : String) (limit : Nat) : Bool :=
  match s.toList with
  | [] => false
  | first :: rest => s.utf8ByteSize ≤ limit && first.isAlphanum && rest.all keyRest

/-- `strconv.ParseUint(s, 10, 64)`. -/
def parseUint (s : String) : Option Nat :=
  let n := s.toList.foldl (fun n c => 10 * n + (c.toNat - 48)) 0
  if s ≠ "" ∧ s.toList.all Char.isDigit ∧ n < 2 ^ 64 then some n else none

/-- The rest of a code; the flag says that the last character was a separator. -/
def codeRest : Bool → List Char → Bool
  | afterSeparator, [] => !afterSeparator
  | afterSeparator, c :: rest =>
    if c.isLower || c.isDigit then codeRest false rest
    else if c ∈ ['.', '_', '-'] && !afterSeparator then codeRest true rest
    else false

/-- The expression `^[a-z][a-z0-9]*(?:[._-][a-z0-9]+)*$`. -/
def code (s : String) : Bool :=
  match s.toList with
  | [] => false
  | first :: rest => first.isLower && codeRest false rest

variable {s : String}

theorem key_ne_empty (accepted : key s = true) : s ≠ "" := by
  rintro rfl
  simp [key] at accepted

theorem code_ne_empty (accepted : code s = true) : s ≠ "" := by
  rintro rfl
  simp [code] at accepted

/-- The characters of a code. -/
def codeChar (c : Char) : Bool := c.isLower || c.isDigit || c ∈ ['.', '_', '-']

theorem codeChar_of_codeRest {afterSeparator : Bool} {chars : List Char}
    (accepted : codeRest afterSeparator chars = true) : ∀ c ∈ chars, codeChar c := by
  induction chars generalizing afterSeparator with
  | nil => simp
  | cons c rest ih =>
    unfold codeRest at accepted
    split at accepted
    · exact List.forall_mem_cons.mpr ⟨by simp_all [codeChar], ih accepted⟩
    · split at accepted
      · exact List.forall_mem_cons.mpr ⟨by simp_all [codeChar], ih accepted⟩
      · cases accepted

theorem codeChar_of_code (accepted : code s = true) : ∀ c ∈ s.toList, codeChar c := by
  unfold code at accepted
  split at accepted
  · cases accepted
  · rename_i first rest chars
    rw [Bool.and_eq_true] at accepted
    rw [chars]
    exact List.forall_mem_cons.mpr ⟨by simp [codeChar, accepted.1], codeChar_of_codeRest accepted.2⟩

/-- A code is free of every other character. -/
theorem notMem_of_code (accepted : code s = true) {c : Char} (other : codeChar c = false) :
    c ∉ s.toList := by
  intro member
  have inside := codeChar_of_code accepted c member
  rw [other] at inside
  cases inside

/-- A key is free of every character that it may not have. -/
theorem notMem_of_key (accepted : key s = true) {c : Char} (other : keyRest c = false) :
    c ∉ s.toList := by
  unfold key at accepted
  split at accepted
  · cases accepted
  · rename_i first rest chars
    simp only [Bool.and_eq_true, List.all_eq_true] at accepted
    rw [chars]
    intro member
    rcases List.mem_cons.mp member with rfl | later
    · simp [keyRest, accepted.1.1] at other
    · rw [accepted.2 c later] at other
      cases other

/-- Only a text with a visible character survives trimming. -/
theorem ne_empty_of_trimSpace (visible : trimSpace s ≠ "") : s ≠ "" := by
  rintro rfl
  exact visible rfl

/-- Trimming a second time changes nothing. -/
@[simp] theorem trimSpace_trimSpace (s : String) : trimSpace (trimSpace s) = trimSpace s := by
  -- Cutting the end leaves the first character, which is visible.
  have kept : ∀ chars : List Char, chars.dropWhile isSpace = chars →
      (chars.rdropWhile isSpace).dropWhile isSpace = chars.rdropWhile isSpace := by
    intro chars visible
    rw [List.dropWhile_eq_self_iff] at visible ⊢
    intro nonempty
    have cut := List.rdropWhile_prefix isSpace chars
    rw [cut.getElem nonempty]
    exact visible (nonempty.trans_le cut.length_le)
  have once := kept _ (List.dropWhile_idempotent isSpace s.toList)
  have twice := List.rdropWhile_idempotent isSpace (s.toList.dropWhile isSpace)
  change String.ofList (((trimSpace s).toList.dropWhile isSpace).rdropWhile isSpace) =
    String.ofList ((s.toList.dropWhile isSpace).rdropWhile isSpace)
  have text : (trimSpace s).toList = (s.toList.dropWhile isSpace).rdropWhile isSpace :=
    String.toList_ofList
  rw [text, once, twice]

end Biz.Text
