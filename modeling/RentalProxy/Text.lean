import RentalProxy.Lib.Trim
import Mathlib.Data.List.Infix

/-!
# Text

The functions on `str` that the proxy uses, on the characters of the text.
-/

namespace RentalProxy.Text

/-- `char::is_whitespace`, the `White_Space` property. -/
def isWhitespace (c : Char) : Bool :=
  let n := c.toNat
  (0x09 ≤ n && n ≤ 0x0D) || n = 0x20 || n = 0x85 || n = 0xA0 || n = 0x1680 ||
    (0x2000 ≤ n && n ≤ 0x200A) || n = 0x2028 || n = 0x2029 || n = 0x202F || n = 0x205F ||
    n = 0x3000

/-- `str::trim`. -/
def trim (s : String) : String := String.ofList (Trim.trim isWhitespace s.toList)

@[simp] theorem toList_trim (s : String) :
    (trim s).toList = Trim.trim isWhitespace s.toList := String.toList_ofList

/-- Trimmed is trimmed. -/
theorem trim_trim (s : String) : trim (trim s) = trim s := by
  rw [trim, toList_trim, Trim.trim_trim]
  rfl

/-- `str::eq_ignore_ascii_case`. -/
def eqIgnoreAsciiCase (a b : List Char) : Bool :=
  decide (a.map Char.toLower = b.map Char.toLower)

/-- `str::rsplit_once`: what stands before and after the last such character. -/
def rsplitOnce (c : Char) : List Char → Option (List Char × List Char)
  | [] => none
  | a :: s =>
    match rsplitOnce c s with
    | some (before, after) => some (a :: before, after)
    | none => if a = c then some ([], s) else none

/-- The digits of an unsigned number.  A `+` may stand in front. -/
def unsignedDigits (s : List Char) : List Char := if s.head? = some '+' then s.tail else s

/-- `u16::from_str`. -/
def parseU16 (s : List Char) : Option Nat :=
  let digits := unsignedDigits s
  if digits.isEmpty || digits.any (fun c => !c.isDigit) then none
  else
    let value := Nat.ofDigitChars 10 digits 0
    if value < 65536 then some value else none

theorem rsplitOnce_eq_some {c : Char} {s before after : List Char}
    (h : rsplitOnce c s = some (before, after)) : s = before ++ c :: after := by
  induction s generalizing before with
  | nil => cases h
  | cons a s ih =>
    unfold rsplitOnce at h
    split at h
    · rename_i hrest
      cases h
      rw [ih hrest]
      rfl
    · split at h
      · rename_i ha
        cases h
        rw [ha]
        rfl
      · cases h

theorem unsignedDigits_suffix (s : List Char) : unsignedDigits s <:+ s := by
  unfold unsignedDigits
  split
  · exact List.tail_suffix s
  · exact List.suffix_rfl

/-- A number ends with a digit. -/
theorem isDigit_of_parseU16 {s : List Char} (h : (parseU16 s).isSome = true) :
    ∃ c ∈ s.getLast?, c.isDigit = true := by
  have hdigits : unsignedDigits s ≠ [] ∧ ∀ c ∈ unsignedDigits s, c.isDigit = true := by
    unfold parseU16 at h
    dsimp only at h
    split at h
    · cases h
    · rename_i hparse
      rw [Bool.not_eq_true, Bool.or_eq_false_iff, List.isEmpty_eq_false_iff,
        List.any_eq_false] at hparse
      exact ⟨hparse.1, fun c hc => by simpa using hparse.2 c hc⟩
  obtain ⟨hne, hall⟩ := hdigits
  obtain ⟨front, hfront⟩ := unsignedDigits_suffix s
  refine ⟨(unsignedDigits s).getLast hne, ?_, hall _ (List.getLast_mem hne)⟩
  have hlast : (front ++ unsignedDigits s).getLast? = (unsignedDigits s).getLast? := by
    rw [List.getLast?_append, List.getLast?_eq_getLast_of_ne_nil hne]
    rfl
  rw [Option.mem_def, ← List.getLast?_eq_getLast_of_ne_nil hne, ← hlast, hfront]

/-- A digit is not white space. -/
theorem isWhitespace_of_isDigit {c : Char} (h : c.isDigit = true) : isWhitespace c = false := by
  simp only [Char.isDigit, Bool.and_eq_true, decide_eq_true_eq, ge_iff_le,
    UInt32.le_iff_toNat_le] at h
  have hn : 48 ≤ c.toNat ∧ c.toNat ≤ 57 := h
  simp only [isWhitespace, Bool.or_eq_false_iff, Bool.and_eq_false_iff, decide_eq_false_iff_not]
  omega

/-- What has another lower case is a capital letter. -/
theorem toLower_cases (c : Char) :
    c.toLower = c ∨ (65 ≤ c.toNat ∧ c.toNat ≤ 90 ∧ c.toLower.toNat = c.toNat + 32) := by
  unfold Char.toLower
  split
  · right
    rename_i hupper
    simp only [UInt32.le_iff_toNat_le, ge_iff_le] at hupper
    have hn : 65 ≤ c.toNat ∧ c.toNat ≤ 90 := hupper
    refine ⟨hn.1, hn.2, ?_⟩
    change (c.val + ('a'.val - 'A'.val)).toNat = _
    rw [UInt32.toNat_add]
    change (c.toNat + 32) % 2 ^ 32 = _
    omega
  · exact Or.inl rfl

/-- Lower case does not hide a character that is no letter. -/
theorem eq_of_toLower {c d : Char} (hd : d.toNat < 97) (h : c.toLower = d) : c = d := by
  rcases toLower_cases c with hsame | ⟨hlow, _, hlower⟩
  · exact hsame.symm.trans h
  · rw [h] at hlower
    omega

theorem eq_of_map_toLower {s t : List Char} (ht : ∀ d ∈ t, d.toNat < 97)
    (h : s.map Char.toLower = t) : s = t := by
  induction s generalizing t with
  | nil => exact h
  | cons c s ih =>
    subst h
    rw [List.map_cons, List.forall_mem_cons] at ht
    rw [List.map_cons, ← eq_of_toLower ht.1 rfl, ← ih ht.2 rfl]

/-- White space has no lower case. -/
theorem toLower_of_isWhitespace {c : Char} (h : isWhitespace c = true) : c.toLower = c := by
  rcases toLower_cases c with hsame | ⟨hlow, hhigh, _⟩
  · exact hsame
  · simp only [isWhitespace, Bool.or_eq_true, Bool.and_eq_true, decide_eq_true_eq] at h
    omega

/-- A letter and no other character has two cases. -/
theorem isAlpha_iff {c : Char} :
    c.isAlpha = true ↔ (65 ≤ c.toNat ∧ c.toNat ≤ 90) ∨ (97 ≤ c.toNat ∧ c.toNat ≤ 122) := by
  have halpha : c.isAlpha = (c.isUpper || c.isLower) := rfl
  have hupper : c.isUpper = decide ('A'.val ≤ c.val ∧ c.val ≤ 'Z'.val) := rfl
  have hlower : c.isLower = (decide ('a'.val ≤ c.val) && decide (c.val ≤ 'z'.val)) := rfl
  rw [halpha, hupper, hlower]
  simp only [Bool.or_eq_true, Bool.and_eq_true, decide_eq_true_eq, UInt32.le_iff_toNat_le]
  rfl

theorem exists_other_case {c : Char} (h : c.isAlpha = true) :
    ∃ d, d ≠ c ∧ d.toLower = c.toLower := by
  have hother : ∀ n < 128, (Char.ofNat n).isAlpha = true →
      ((Char.ofNat n).toLower ≠ Char.ofNat n ∧
        (Char.ofNat n).toLower.toLower = (Char.ofNat n).toLower) ∨
      ((Char.ofNat n).toUpper ≠ Char.ofNat n ∧
        (Char.ofNat n).toUpper.toLower = (Char.ofNat n).toLower) := by decide
  have hascii : c.toNat < 128 := by
    have hletter := isAlpha_iff.mp h
    omega
  specialize hother c.toNat hascii
  rw [Char.ofNat_toNat] at hother
  rcases hother h with ⟨hne, hcase⟩ | ⟨hne, hcase⟩
  · exact ⟨_, hne, hcase⟩
  · exact ⟨_, hne, hcase⟩

/-- What is no letter is alike to itself only. -/
theorem eq_of_toLower_eq {c d : Char} (hc : c.isAlpha = false) (h : c.toLower = d.toLower) :
    d = c := by
  have hletter : ¬((65 ≤ c.toNat ∧ c.toNat ≤ 90) ∨ (97 ≤ c.toNat ∧ c.toNat ≤ 122)) := fun hn => by
    rw [isAlpha_iff.mpr hn] at hc
    cases hc
  rcases toLower_cases c with hsame | ⟨hlow, hhigh, _⟩
  · rcases toLower_cases d with hsame' | ⟨hlow, hhigh, hlower⟩
    · rw [← hsame, h, hsame']
    · rw [← h, hsame] at hlower
      omega
  · omega

end RentalProxy.Text
