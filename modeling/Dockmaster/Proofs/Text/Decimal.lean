import Dockmaster.Text.Decimal
import Mathlib.Algebra.GroupWithZero.Nat
import Mathlib.Data.List.TakeWhile
import Mathlib.Tactic.SplitIfs

/-!
# Which numbers are read

`Numeral cs n` says that `cs` is a way to write `n`.  The reader works from digit to digit and gives
up as soon as the number is too large, but what it answers can be told without following it
(`readWordFrom_eq`, by induction on the digits): numerals of numbers that 64 bits can hold are read
(`readWord_eq_ok_iff`), a text that begins with the digits of a larger number is called too large,
whatever comes after them (`readWord_eq_tooLarge_iff`), and everything else has an invalid digit.
-/

namespace Dockmaster.Text

/-- A text is a way to write a number: an optional plus sign, and then decimal digits, at least
one. -/
def Numeral (cs : List Char) (n : Nat) : Prop :=
  ∃ digits, (cs = digits ∨ cs = '+' :: digits) ∧ digits ≠ [] ∧
    (∀ c ∈ digits, c.isDigit = true) ∧ Nat.ofDigitChars 10 digits 0 = n

/-- The number that the longest run of digits at the beginning of a text makes, after an optional
plus sign. -/
def leadingNumber (cs : List Char) : Nat :=
  Nat.ofDigitChars 10 ((dropPlus cs).takeWhile Char.isDigit) 0

/-! ### Numerals -/

theorem dropPlus_of_digits {digits : List Char} (h : ∀ c ∈ digits, c.isDigit = true) :
    dropPlus digits = digits := by
  unfold dropPlus
  split
  · exact absurd (h '+' List.mem_cons_self) (by decide)
  · rfl

theorem eq_dropPlus (cs : List Char) : cs = dropPlus cs ∨ cs = '+' :: dropPlus cs := by
  unfold dropPlus
  split
  · exact .inr rfl
  · exact .inl rfl

theorem numeral_iff {cs : List Char} {n : Nat} :
    Numeral cs n ↔ (dropPlus cs ≠ [] ∧ (dropPlus cs).all Char.isDigit = true) ∧
      Nat.ofDigitChars 10 (dropPlus cs) 0 = n := by
  rw [List.all_eq_true]
  constructor
  · rintro ⟨digits, hcs, hne, hdigits, hn⟩
    have hdrop : dropPlus cs = digits := by
      rcases hcs with rfl | rfl
      · exact dropPlus_of_digits hdigits
      · rfl
    rw [hdrop]
    exact ⟨⟨hne, hdigits⟩, hn⟩
  · rintro ⟨⟨hne, hdigits⟩, hn⟩
    exact ⟨dropPlus cs, eq_dropPlus cs, hne, hdigits, hn⟩

theorem Numeral.unique {cs : List Char} {m n : Nat} (hm : Numeral cs m) (hn : Numeral cs n) :
    m = n :=
  (numeral_iff.mp hm).2.symm.trans (numeral_iff.mp hn).2

/-- The digits of a numeral are all there is to it. -/
theorem Numeral.leadingNumber_eq {cs : List Char} {n : Nat} (h : Numeral cs n) :
    leadingNumber cs = n := by
  obtain ⟨⟨-, hdigits⟩, hn⟩ := numeral_iff.mp h
  rw [leadingNumber, List.takeWhile_eq_self_iff.mpr (List.all_eq_true.mp hdigits), hn]

theorem not_numeral_nil (n : Nat) : ¬ Numeral [] n := fun h => (numeral_iff.mp h).1.1 rfl

theorem isDigit_of_mem_toString {n : Nat} {c : Char} (h : c ∈ (toString n).toList) :
    c.isDigit = true := by
  rw [Nat.toString_eq_repr, Nat.toList_repr] at h
  exact Nat.isDigit_of_mem_toDigits (by decide) (by decide) h

/-- Every number has a numeral. -/
theorem numeral_toString (n : Nat) : Numeral (toString n).toList n := by
  refine ⟨_, .inl rfl, ?_, fun c => isDigit_of_mem_toString, ?_⟩
  · rw [Nat.toString_eq_repr, Nat.toList_repr]
    exact Nat.toDigits_ne_nil
  · rw [Nat.toString_eq_repr, Nat.toList_repr]
    exact Nat.ofDigitChars_toDigits (by decide) (by decide)

/-! ### The reader -/

theorem le_ofDigitChars (digits : List Char) (value : Nat) :
    value ≤ Nat.ofDigitChars 10 digits value := by
  rw [Nat.ofDigitChars_eq_ofDigitChars_zero]
  exact Nat.le_add_right_of_le (Nat.le_mul_of_pos_left value (Nat.pow_pos (by decide)))

/-- **Reading digit by digit** is the same as looking at the longest run of digits and at what
follows it.  Digits only make a number larger, so whether it becomes too large shows at the end of
the run. -/
theorem readWordFrom_eq {value : Nat} (h : value < wordLimit) (cs : List Char) :
    readWordFrom value cs =
      if wordLimit ≤ Nat.ofDigitChars 10 (cs.takeWhile Char.isDigit) value then .error .tooLarge
      else if cs.all Char.isDigit = true then .ok (Nat.ofDigitChars 10 cs value)
      else .error .invalidDigit := by
  induction cs generalizing value with
  | nil =>
    rw [List.takeWhile_nil, Nat.ofDigitChars_nil, if_neg (by omega), List.all_nil, if_pos rfl]
    rfl
  | cons c cs ih =>
    unfold readWordFrom
    by_cases hdigit : c.isDigit = true
    · have hall : (c :: cs).all Char.isDigit = cs.all Char.isDigit := by
        rw [List.all_cons, hdigit, Bool.true_and]
      rw [if_neg (by simp [hdigit]), List.takeWhile_cons_of_pos hdigit, Nat.ofDigitChars_cons,
        Nat.ofDigitChars_cons, ← digitValue]
      by_cases hlarge : wordLimit ≤ 10 * value + digitValue c
      · rw [if_pos hlarge, if_pos (hlarge.trans (le_ofDigitChars _ _))]
      · rw [if_neg hlarge, ih (by omega), hall]
    · have hnotall : ¬ (c :: cs).all Char.isDigit = true := fun hall =>
        hdigit (List.all_eq_true.mp hall c List.mem_cons_self)
      rw [if_pos (Bool.eq_false_iff.mpr hdigit), List.takeWhile_cons_of_neg hdigit,
        Nat.ofDigitChars_nil, if_neg (by omega), if_neg hnotall]

theorem readWord_eq (cs : List Char) :
    readWord cs =
      if wordLimit ≤ leadingNumber cs then .error .tooLarge
      else if dropPlus cs ≠ [] ∧ (dropPlus cs).all Char.isDigit = true then
        .ok (Nat.ofDigitChars 10 (dropPlus cs) 0)
      else .error .invalidDigit := by
  unfold readWord leadingNumber
  cases hdrop : dropPlus cs with
  | nil => rfl
  | cons c digits =>
    have hfrom := readWordFrom_eq (show 0 < wordLimit by decide) (c :: digits)
    simpa only [ne_eq, reduceCtorEq, not_false_eq_true, true_and] using hfrom

theorem wordLimit_eq : wordLimit = 2 ^ 64 := rfl

/-- **What is read** is a numeral of a number that 64 bits can hold. -/
theorem readWord_eq_ok_iff {cs : List Char} {n : Nat} :
    readWord cs = .ok n ↔ Numeral cs n ∧ n < 2 ^ 64 := by
  rw [readWord_eq, ← wordLimit_eq]
  constructor
  · intro h
    split_ifs at h with hlarge hdigits
    have hnumeral : Numeral cs n := numeral_iff.mpr ⟨hdigits, Except.ok.inj h⟩
    rw [hnumeral.leadingNumber_eq] at hlarge
    exact ⟨hnumeral, by omega⟩
  · rintro ⟨hnumeral, hlt⟩
    obtain ⟨hdigits, hn⟩ := numeral_iff.mp hnumeral
    rw [hnumeral.leadingNumber_eq, if_neg (by omega), if_pos hdigits, hn]

/-- **What is too large** begins with the digits of a number that 64 bits cannot hold. -/
theorem readWord_eq_tooLarge_iff {cs : List Char} :
    readWord cs = .error .tooLarge ↔ 2 ^ 64 ≤ leadingNumber cs := by
  rw [readWord_eq, ← wordLimit_eq]
  split_ifs with hlarge hdigits
  · exact iff_of_true rfl hlarge
  · exact iff_of_false nofun hlarge
  · exact iff_of_false nofun hlarge

/-- **What has an invalid digit** is anything else that is no numeral. -/
theorem readWord_eq_invalidDigit_iff {cs : List Char} :
    readWord cs = .error .invalidDigit ↔ leadingNumber cs < 2 ^ 64 ∧ ¬ ∃ n, Numeral cs n := by
  rw [readWord_eq, ← wordLimit_eq]
  split_ifs with hlarge hdigits
  · exact iff_of_false nofun fun h => absurd h.1 (by omega)
  · exact iff_of_false nofun fun h => h.2 ⟨_, numeral_iff.mpr ⟨hdigits, rfl⟩⟩
  · refine iff_of_true rfl ⟨by omega, ?_⟩
    rintro ⟨n, hnumeral⟩
    exact hdigits (numeral_iff.mp hnumeral).1

end Dockmaster.Text
