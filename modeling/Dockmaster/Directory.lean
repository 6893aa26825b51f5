/-!
# Directories

Values by name, in increasing order of the names, each name at most once.
-/

namespace Dockmaster

/-- Values by name, in increasing order of the names. -/
abbrev Directory (α : Type) := List (String × α)

namespace Directory

variable {α : Type}

/-- The value of a name. -/
def find? (key : String) : Directory α → Option α
  | [] => none
  | (name, value) :: rest => if name = key then some value else find? key rest

/-- The directory with a value for a name, instead of the one that it may have. -/
def put (key : String) (value : α) : Directory α → Directory α
  | [] => [(key, value)]
  | (name, old) :: rest =>
    if key < name then (key, value) :: (name, old) :: rest
    else if name = key then (key, value) :: rest
    else (name, old) :: put key value rest

/-- The directory without a name. -/
def remove (key : String) (dir : Directory α) : Directory α :=
  dir.filter (·.1 ≠ key)

/-- The directory of some pairs; the last value of a name counts. -/
def ofPairs (pairs : List (String × α)) : Directory α :=
  pairs.foldl (fun dir pair => put pair.1 pair.2 dir) []

@[simp] theorem find?_put_self (key : String) (value : α) (dir : Directory α) :
    find? key (put key value dir) = some value := by
  induction dir with
  | nil => simp [put, find?]
  | cons entry rest ih =>
    obtain ⟨name, old⟩ := entry
    simp only [put]
    split
    · simp [find?]
    · split
      · simp [find?]
      · simp [find?, *]

theorem find?_put_of_ne {key other : String} (h : other ≠ key) (value : α) (dir : Directory α) :
    find? other (put key value dir) = find? other dir := by
  induction dir with
  | nil => simp [put, find?, Ne.symm h]
  | cons entry rest ih =>
    obtain ⟨name, old⟩ := entry
    simp only [put]
    split
    · simp [find?, Ne.symm h]
    · split
      · rename_i hname
        simp [find?, hname, Ne.symm h]
      · simp [find?, ih]

@[simp] theorem find?_remove_self (key : String) (dir : Directory α) :
    find? key (remove key dir) = none := by
  induction dir with
  | nil => rfl
  | cons entry rest ih =>
    obtain ⟨name, value⟩ := entry
    by_cases h : name = key
    · simpa [remove, h] using ih
    · simpa [remove, h, find?] using ih

theorem find?_remove_of_ne {key other : String} (h : other ≠ key) (dir : Directory α) :
    find? other (remove key dir) = find? other dir := by
  induction dir with
  | nil => rfl
  | cons entry rest ih =>
    obtain ⟨name, value⟩ := entry
    by_cases hname : name = key
    · subst hname
      simpa [remove, find?, Ne.symm h] using ih
    · by_cases hother : name = other
      · simp [remove, find?, hother, h]
      · simpa [remove, find?, hname, hother] using ih

end Directory

end Dockmaster
