import Dockmaster.Guard
import Mathlib.Data.List.Sort
import Mathlib.Data.String.Basic

/-!
# What a guard protects

A guard keeps its entries as a set: in increasing order and each of them once
(`sortedSet_strict`), with the members of the list that it is made from (`mem_sortedSet`).  So it
protects what the entries protect in any order and however often they are repeated
(`protects_ofList`).
-/

namespace Dockmaster

/-! ### Sets as lists -/

theorem mem_sortedSet {entry : String} {entries : List String} :
    entry ∈ sortedSet entries ↔ entry ∈ entries := by
  rw [sortedSet, List.mem_eraseDups, List.mem_mergeSort]

/-- A list in increasing order, each entry once, is strictly increasing. -/
theorem pairwise_lt_eraseDups : ∀ {entries : List String}, entries.Pairwise (· ≤ ·) →
    entries.eraseDups.Pairwise (· < ·)
  | [], _ => .nil
  | entry :: rest, h => by
    obtain ⟨hfirst, hrest⟩ := List.pairwise_cons.mp h
    rw [List.eraseDups_cons]
    refine List.pairwise_cons.mpr ⟨fun other hother => ?_, pairwise_lt_eraseDups (hrest.filter _)⟩
    obtain ⟨hmem, hne⟩ := List.mem_filter.mp (List.mem_eraseDups.mp hother)
    exact lt_of_le_of_ne (hfirst other hmem) fun heq => by simp [heq] at hne
termination_by entries => entries.length
decreasing_by exact Nat.lt_succ_of_le (List.length_filter_le _ _)

theorem sortedSet_strict (entries : List String) : (sortedSet entries).Pairwise (· < ·) := by
  have htrans (a b c : String) (hab : decide (a ≤ b) = true) (hbc : decide (b ≤ c) = true) :
      decide (a ≤ c) = true :=
    decide_eq_true (le_trans (of_decide_eq_true hab) (of_decide_eq_true hbc))
  have htotal (a b : String) : (decide (a ≤ b) || decide (b ≤ a)) = true := by
    rw [Bool.or_eq_true, decide_eq_true_eq, decide_eq_true_eq]
    exact le_total a b
  exact pairwise_lt_eraseDups
    ((List.pairwise_mergeSort htrans htotal entries).imp of_decide_eq_true)

/-! ### Guards -/

/-- The texts by which a container may be protected. -/
def Identity.texts (identity : Identity) : List String :=
  [identity.id, identity.name, identity.image]

theorem isProtected_iff {identity : Identity} {entries : List String} :
    isProtected identity entries = true ↔ ∃ text ∈ identity.texts, text ∈ entries := by
  unfold isProtected Identity.texts
  simp only [List.any_eq_true, Bool.or_eq_true, decide_eq_true_eq]
  constructor
  · rintro ⟨entry, hmem, (rfl | rfl) | rfl⟩
    · exact ⟨_, by simp, hmem⟩
    · exact ⟨_, by simp, hmem⟩
    · exact ⟨_, by simp, hmem⟩
  · rintro ⟨text, htext, hmem⟩
    refine ⟨text, hmem, ?_⟩
    simpa only [List.mem_cons, List.not_mem_nil, or_false, or_assoc] using htext

theorem isProtected_congr {entries others : List String}
    (h : ∀ entry, entry ∈ entries ↔ entry ∈ others) (identity : Identity) :
    isProtected identity entries = isProtected identity others := by
  rw [Bool.eq_iff_iff, isProtected_iff, isProtected_iff]
  simp only [h]

namespace Guard

theorem protects_iff {guard : Guard} {identity : Identity} :
    guard.protects identity = true ↔ identity.id ∈ guard.entries ∨
      identity.name ∈ guard.entries ∨ identity.image ∈ guard.entries := by
  rw [protects, isProtected_iff, Identity.texts]
  simp only [List.mem_cons, List.not_mem_nil, or_false, exists_eq_or_imp, exists_eq_left]

/-- **A guard protects what its entries protect.** -/
theorem protects_ofList (entries : List String) (identity : Identity) :
    (ofList entries).protects identity = isProtected identity entries :=
  isProtected_congr (fun _ => mem_sortedSet) identity

end Guard

end Dockmaster
