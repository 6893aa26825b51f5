import Dockmaster.Directory
import Mathlib.Data.List.Nodup

/-!
# Directories stay in order

A directory that is built from nothing by `put` and `remove` lists its names in increasing order
(`sorted_put`, `sorted_remove`), so every name occurs once. In such a directory the entries are
exactly what `find?` finds (`mem_iff_find?`), and a value that only one name has occurs once
(`countP_value`).
-/

namespace Dockmaster.Directory

variable {α : Type}

/-- The names stand in increasing order. -/
def Sorted (dir : Directory α) : Prop := dir.Pairwise fun a b => a.1 < b.1

theorem sorted_nil : Sorted ([] : Directory α) := List.Pairwise.nil

theorem mem_put {key : String} {value : α} {dir : Directory α} {entry : String × α}
    (h : entry ∈ put key value dir) : entry = (key, value) ∨ entry ∈ dir := by
  induction dir with
  | nil => exact .inl (List.mem_singleton.mp h)
  | cons head rest ih =>
    obtain ⟨name, old⟩ := head
    rw [put] at h
    split_ifs at h with hlt heq
    · exact List.mem_cons.mp h
    · rcases List.mem_cons.mp h with rfl | h
      · exact .inl rfl
      · exact .inr (List.mem_cons_of_mem _ h)
    · rcases List.mem_cons.mp h with rfl | h
      · exact .inr (List.mem_cons_self ..)
      · exact (ih h).imp_right (List.mem_cons_of_mem _)

theorem sorted_put (key : String) (value : α) {dir : Directory α} (h : dir.Sorted) :
    (put key value dir).Sorted := by
  induction dir with
  | nil => exact List.pairwise_singleton _ _
  | cons head rest ih =>
    obtain ⟨name, old⟩ := head
    obtain ⟨hhead, hrest⟩ := List.pairwise_cons.mp h
    rw [put]
    split_ifs with hlt heq
    · refine List.pairwise_cons.mpr ⟨fun entry hentry => ?_, h⟩
      rcases List.mem_cons.mp hentry with rfl | hentry
      · exact hlt
      · exact String.lt_trans hlt (hhead entry hentry)
    · exact List.pairwise_cons.mpr ⟨fun entry hentry => heq ▸ hhead entry hentry, hrest⟩
    · refine List.pairwise_cons.mpr ⟨fun entry hentry => ?_, ih hrest⟩
      rcases mem_put hentry with rfl | hentry
      · -- the key is neither below nor equal to the name that it is put behind
        by_contra hnot
        exact heq (String.le_antisymm (String.not_lt.mp hlt) (String.not_lt.mp hnot))
      · exact hhead entry hentry

theorem sorted_remove (key : String) {dir : Directory α} (h : dir.Sorted) :
    (remove key dir).Sorted :=
  List.Pairwise.filter _ h

theorem mem_of_find? {key : String} {value : α} {dir : Directory α}
    (h : find? key dir = some value) : (key, value) ∈ dir := by
  induction dir with
  | nil => simp [find?] at h
  | cons head rest ih =>
    obtain ⟨name, old⟩ := head
    rw [find?] at h
    split_ifs at h with heq
    · obtain rfl := Option.some.inj h
      rw [heq]
      exact List.mem_cons_self ..
    · exact List.mem_cons_of_mem _ (ih h)

/-- Something is found under the name of an entry, if perhaps not the entry. -/
theorem isSome_find?_of_mem {dir : Directory α} {entry : String × α} (h : entry ∈ dir) :
    (find? entry.1 dir).isSome := by
  induction dir with
  | nil => exact absurd h List.not_mem_nil
  | cons head rest ih =>
    obtain ⟨name, value⟩ := head
    rw [find?]
    split_ifs with hname
    · rfl
    · rcases List.mem_cons.mp h with rfl | h
      · exact absurd rfl hname
      · exact ih h

theorem isSome_find?_put {key : String} {dir : Directory α}
    (h : (find? key dir).isSome) (other : String) (value : α) :
    (find? key (put other value dir)).isSome := by
  by_cases hkey : key = other
  · rw [hkey, find?_put_self]
    rfl
  · rwa [find?_put_of_ne hkey]

/-- The entries of a sorted directory are what is found under their names. -/
theorem mem_iff_find? {dir : Directory α} (h : dir.Sorted) {key : String} {value : α} :
    (key, value) ∈ dir ↔ find? key dir = some value := by
  refine ⟨fun hmem => ?_, mem_of_find?⟩
  induction dir with
  | nil => simp at hmem
  | cons head rest ih =>
    obtain ⟨name, old⟩ := head
    obtain ⟨hhead, hrest⟩ := List.pairwise_cons.mp h
    rw [find?]
    rcases List.mem_cons.mp hmem with heq | hmem
    · obtain ⟨rfl, rfl⟩ := Prod.mk.inj heq
      rw [if_pos rfl]
    · -- the names behind the first are greater, so the search passes it by
      have hlt : name < key := hhead (key, value) hmem
      have hne : name ≠ key := fun heq => String.lt_irrefl key (heq ▸ hlt)
      rw [if_neg hne]
      exact ih hrest hmem

theorem nodup_names {dir : Directory α} (h : dir.Sorted) : (dir.map (·.1)).Nodup := by
  refine List.pairwise_map.mpr (List.Pairwise.imp (fun {a b} hlt heq => ?_) h)
  rw [heq] at hlt
  exact String.lt_irrefl _ hlt

/-- A value that only one name has occurs once. -/
theorem countP_value [DecidableEq α] {dir : Directory α} (h : dir.Sorted) {key : String} {value : α}
    (hkey : find? key dir = some value)
    (hone : ∀ name, find? name dir = some value → name = key) :
    dir.countP (·.2 = value) = 1 := by
  -- the entries with the value are those with the name, and there is one of these
  have hcount : dir.countP (·.2 = value) = dir.countP (·.1 = key) := by
    apply List.countP_congr
    intro entry hentry
    obtain ⟨name, v⟩ := entry
    have hfind := (mem_iff_find? h).mp hentry
    simp only [decide_eq_true_eq]
    constructor
    · rintro rfl
      exact hone name hfind
    · rintro rfl
      exact Option.some.inj (hfind.symm.trans hkey)
  have hmem : key ∈ dir.map (·.1) := List.mem_map.mpr ⟨_, mem_of_find? hkey, rfl⟩
  rw [hcount, ← List.count_eq_one_of_mem (nodup_names h) hmem, List.count, List.countP_map]
  apply List.countP_congr
  intro entry _
  simp [Function.comp]

end Dockmaster.Directory
