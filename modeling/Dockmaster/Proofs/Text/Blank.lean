import Dockmaster.Text.Blank
import Mathlib.Data.List.TakeWhile

/-!
# What trimming leaves

A text is its trimmed part with blanks around it, and the trimmed part has no blank at either end
(`exists_padding`, `bare_trimChars`).  There is only one such part: `trimChars_eq_iff` says that
this is all there is to trimming, whatever stands inside the text.
-/

namespace Dockmaster.Text

/-- A text of blanks only. -/
def Blank (cs : List Char) : Prop := ∀ c ∈ cs, isBlank c = true

/-- A text without a blank at either end. -/
structure Bare (cs : List Char) : Prop where
  /-- It does not begin with a blank. -/
  head : ∀ c ∈ cs.head?, isBlank c = false
  /-- It does not end with a blank. -/
  last : ∀ c ∈ cs.getLast?, isBlank c = false

theorem blank_append {as bs : List Char} : Blank (as ++ bs) ↔ Blank as ∧ Blank bs :=
  List.forall_mem_append

theorem bare_of_forall {cs : List Char} (h : ∀ c ∈ cs, isBlank c = false) : Bare cs :=
  ⟨fun c hc => h c (List.mem_of_mem_head? hc), fun c hc => h c (List.mem_of_mem_getLast? hc)⟩

/-- A digit is no blank. -/
theorem isBlank_of_isDigit {c : Char} (h : c.isDigit = true) : isBlank c = false := by
  have hdigit : 48 ≤ c.toNat ∧ c.toNat ≤ 57 := Char.isDigit_iff_toNat.mp h
  have houtside : ∀ range ∈ blankRanges, range.2 < 48 ∨ 57 < range.1 := by decide
  rw [isBlank, List.any_eq_false]
  intro range hrange hin
  have hrangeOutside := houtside range hrange
  rw [Bool.and_eq_true, decide_eq_true_eq, decide_eq_true_eq] at hin
  omega

/-! ### One end -/

theorem exists_trimStart (cs : List Char) : ∃ before, Blank before ∧ cs = before ++ trimStart cs :=
  ⟨cs.takeWhile isBlank, fun _ h => List.mem_takeWhile_imp h,
    List.takeWhile_append_dropWhile.symm⟩

theorem exists_trimEnd (cs : List Char) : ∃ after, Blank after ∧ cs = trimEnd cs ++ after := by
  refine ⟨(cs.reverse.takeWhile isBlank).reverse, fun c h => ?_, ?_⟩
  · exact List.mem_takeWhile_imp (List.mem_reverse.mp h)
  · rw [trimEnd, ← List.reverse_append, List.takeWhile_append_dropWhile, List.reverse_reverse]

theorem head?_trimStart (cs : List Char) : ∀ c ∈ (trimStart cs).head?, isBlank c = false := by
  intro c hc
  have hhead := List.head?_dropWhile_not isBlank cs
  rw [show (cs.dropWhile isBlank).head? = some c from hc] at hhead
  exact hhead

theorem getLast?_trimEnd (cs : List Char) : ∀ c ∈ (trimEnd cs).getLast?, isBlank c = false := by
  intro c hc
  rw [trimEnd, List.getLast?_reverse] at hc
  exact head?_trimStart cs.reverse c hc

theorem trimStart_append {before : List Char} (h : Blank before) (cs : List Char) :
    trimStart (before ++ cs) = trimStart cs :=
  List.dropWhile_append_of_pos h

/-- What begins with no blank is kept, whatever stands before it. -/
theorem trimStart_append_cons (cs rest : List Char) {c : Char} (h : isBlank c = false) :
    trimStart (cs ++ c :: rest) = trimStart cs ++ c :: rest := by
  have hkept : trimStart (c :: rest) = c :: rest := List.dropWhile_cons_of_neg (by simp [h])
  rw [trimStart, List.dropWhile_append]
  split_ifs with hempty
  · rw [trimStart, List.isEmpty_iff.mp hempty]
    exact hkept
  · rfl

theorem trimStart_eq_self {cs : List Char} (h : ∀ c ∈ cs.head?, isBlank c = false) :
    trimStart cs = cs := by
  cases cs with
  | nil => rfl
  | cons c cs => exact List.dropWhile_cons_of_neg (by simp [h c rfl])

/-! ### Both ends -/

theorem bare_trimChars (cs : List Char) : Bare (trimChars cs) := by
  refine ⟨fun c hc => ?_, getLast?_trimEnd _⟩
  obtain ⟨after, -, hafter⟩ := exists_trimEnd (trimStart cs)
  refine head?_trimStart cs c ?_
  rw [hafter, List.head?_append, ← trimChars, show (trimChars cs).head? = some c from hc]
  rfl

/-- **A text is its trimmed part between blanks.** -/
theorem exists_padding (cs : List Char) :
    ∃ before after, Blank before ∧ Blank after ∧ cs = before ++ trimChars cs ++ after := by
  obtain ⟨before, hbefore, hstart⟩ := exists_trimStart cs
  obtain ⟨after, hafter, hend⟩ := exists_trimEnd (trimStart cs)
  refine ⟨before, after, hbefore, hafter, ?_⟩
  rw [trimChars, List.append_assoc, ← hend]
  exact hstart

theorem trimChars_of_bare {cs : List Char} (h : Bare cs) : trimChars cs = cs := by
  have hreverse : trimStart cs.reverse = cs.reverse := by
    refine trimStart_eq_self fun c hc => h.last c ?_
    rwa [List.head?_reverse] at hc
  rw [trimChars, trimStart_eq_self h.head, trimEnd, ← trimStart, hreverse, List.reverse_reverse]

theorem trimEnd_append {after : List Char} (h : Blank after) (cs : List Char) :
    trimEnd (cs ++ after) = trimEnd cs := by
  have hreverse : Blank after.reverse := fun c hc => h c (List.mem_reverse.mp hc)
  rw [trimEnd, List.reverse_append, ← trimStart, trimStart_append hreverse]
  rfl

theorem trimChars_of_blank {cs : List Char} (h : Blank cs) : trimChars cs = [] := by
  rw [trimChars, trimStart, List.dropWhile_eq_nil_iff.mpr h]
  rfl

/-- Blanks around a text do not count. -/
theorem trimChars_padded {before cs after : List Char} (hbefore : Blank before) (h : Bare cs)
    (hafter : Blank after) : trimChars (before ++ cs ++ after) = cs := by
  cases cs with
  | nil =>
    rw [List.append_nil]
    exact trimChars_of_blank (blank_append.mpr ⟨hbefore, hafter⟩)
  | cons c rest =>
    have hstart : trimStart (before ++ c :: rest ++ after) = c :: rest ++ after := by
      rw [List.append_assoc, trimStart_append hbefore]
      exact trimStart_eq_self h.head
    have hend : trimEnd (c :: rest) = trimChars (c :: rest) := by
      rw [trimChars, trimStart_eq_self h.head]
    rw [trimChars, hstart, trimEnd_append hafter, hend, trimChars_of_bare h]

/-- **What trimming leaves** is the one part without a blank at either end around which there are
only blanks. -/
theorem trimChars_eq_iff {cs part : List Char} :
    trimChars cs = part ↔
      Bare part ∧ ∃ before after, Blank before ∧ Blank after ∧ cs = before ++ part ++ after := by
  constructor
  · rintro rfl
    exact ⟨bare_trimChars cs, exists_padding cs⟩
  · rintro ⟨hbare, before, after, hbefore, hafter, rfl⟩
    exact trimChars_padded hbefore hbare hafter

theorem trimChars_eq_nil_iff {cs : List Char} : trimChars cs = [] ↔ Blank cs := by
  refine ⟨fun h => ?_, trimChars_of_blank⟩
  obtain ⟨before, after, hbefore, hafter, hcs⟩ := exists_padding cs
  rw [hcs, h, List.append_nil]
  exact blank_append.mpr ⟨hbefore, hafter⟩

end Dockmaster.Text
