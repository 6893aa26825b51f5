import Dockmaster.Json.Shape
import Mathlib.Data.List.Nodup
import Mathlib.Data.List.Perm.Basic

/-!
# Records are read in any order

A record can be stated as an object with its members in any order and with foreign members among
them, or as the array of its values (`Restates`). Whichever way it is stated, the reader of the
shape finds the same normal form (`read_of_restates`): exactly one member has the name of a field,
and it is not a foreign one.
-/

namespace Dockmaster.Json

/-- The members of an object whose names are texts. -/
def named (members : List (String × Json)) : List (Literal × Json) :=
  members.map fun member => (some member.1, member.2)

/-- A member that does not belong to a record with the given members. -/
def IsForeign (own : List (String × Json)) (member : Literal × Json) : Prop :=
  ∃ name, member.1 = some name ∧ name ∉ own.map (·.1)

/-- **The ways to state a record**, given the object that has its members in order. -/
inductive Restates : Json → Json → Prop
  /-- Its members stand in any order, with foreign ones among them. -/
  | object {own : List (String × Json)} {members foreign : List (Literal × Json)}
      (perm : members.Perm (named own ++ foreign)) (strange : ∀ m ∈ foreign, IsForeign own m) :
      Restates (.ofMembers own) (.object members)
  /-- Its values stand in order. -/
  | array {own : List (String × Json)} : Restates (.ofMembers own) (.array (own.map (·.2)))

/-- A record can be stated as it is written. -/
theorem restates_self (own : List (String × Json)) :
    Restates (.ofMembers own) (.ofMembers own) := by
  have perm : (named own).Perm (named own ++ []) := by rw [List.append_nil]
  exact .object perm nofun

namespace Shape

/-- A member has the name of a field and holds a text that the field accepts as it is. -/
def Fits (field : String × Shape) (member : String × Json) : Prop :=
  field.1 = member.1 ∧ ∃ s, member.2 = .text s ∧ read field.2 (.text s) = some (.text s)

variable {fields : List (String × Shape)} {own : List (String × Json)}

/-- A field that fits is the first of the normal form. -/
theorem Fits.addField {field : String × Shape} {member : String × Json} (h : Fits field member)
    (rest : List (Literal × Json)) :
    read field.2 member.2 = some member.2 ∧
      addField field.1 member.2 rest = (some member.1, member.2) :: rest := by
  obtain ⟨hname, s, hvalue, hread⟩ := h
  rw [hname, hvalue]
  exact ⟨hread, rfl⟩

/-! ### Arrays -/

theorem readPositions_of_fits (h : List.Forall₂ Fits fields own) :
    readPositions fields (own.map (·.2)) = some (named own) := by
  induction h with
  | nil => rw [List.map_nil, readPositions]; rfl
  | cons hfits _ ih =>
    obtain ⟨hread, hadd⟩ := hfits.addField (named _)
    rw [List.map_cons, readPositions, hread, ih]
    exact congrArg some hadd

/-! ### Objects -/

/-- No foreign member has the name of a field. -/
theorem filter_foreign {foreign : List (Literal × Json)} (strange : ∀ m ∈ foreign, IsForeign own m)
    {name : String} (h : name ∈ own.map (·.1)) : foreign.filter (·.1 = some name) = [] := by
  rw [List.filter_eq_nil_iff]
  intro member hmember hname
  obtain ⟨other, hother, hnot⟩ := strange member hmember
  rw [decide_eq_true_eq, hother] at hname
  exact hnot (Option.some.inj hname ▸ h)

/-- One member of a record has the name of a field. -/
theorem filter_named (nodup : (own.map (·.1)).Nodup) {member : String × Json} (h : member ∈ own) :
    (named own).filter (·.1 = some member.1) = [(some member.1, member.2)] := by
  induction own with
  | nil => cases h
  | cons first own ih =>
    rw [List.map_cons, List.nodup_cons] at nodup
    obtain ⟨hfirst, hrest⟩ := nodup
    rw [named, List.map_cons]
    cases h with
    | head =>
      have hnone : (named own).filter (·.1 = some member.1) = [] := by
        rw [List.filter_eq_nil_iff]
        intro other hother hname
        obtain ⟨m, hm, rfl⟩ := List.mem_map.mp hother
        rw [decide_eq_true_eq] at hname
        exact hfirst (Option.some.inj hname ▸ List.mem_map_of_mem hm)
      rw [List.filter_cons_of_pos (by simp)]
      exact congrArg _ hnone
    | tail _ h =>
      have hne : ¬ some first.1 = some member.1 := by
        intro heq
        exact hfirst (Option.some.inj heq ▸ List.mem_map_of_mem h)
      rw [List.filter_cons_of_neg (by simpa using hne)]
      exact ih hrest h

/-- **Among the members of a restated record, one has the name of a field.** -/
theorem filter_of_perm {members foreign : List (Literal × Json)}
    (perm : members.Perm (named own ++ foreign)) (strange : ∀ m ∈ foreign, IsForeign own m)
    (nodup : (own.map (·.1)).Nodup) {member : String × Json} (h : member ∈ own) :
    members.filter (·.1 = some member.1) = [(some member.1, member.2)] := by
  have hfilter := perm.filter (·.1 = some member.1)
  rw [List.filter_append, filter_named nodup h,
    filter_foreign strange (List.mem_map_of_mem h), List.append_nil] at hfilter
  exact List.perm_singleton.mp hfilter

/-- The fields of a record are found one after another. -/
theorem readFields_of_fits {members : List (Literal × Json)} (h : List.Forall₂ Fits fields own)
    (one : ∀ m ∈ own, members.filter (·.1 = some m.1) = [(some m.1, m.2)]) :
    readFields fields members = some (named own) := by
  induction h with
  | nil =>
    rw [readFields]
    rfl
  | @cons field member fields own hfits _ ih =>
    obtain ⟨hread, hadd⟩ := hfits.addField (named own)
    have hone := one member (.head _)
    have hrest := ih fun m hm => one m (.tail _ hm)
    rw [← hfits.1] at hone
    simp only [readFields, hone, hread, hrest, bind, Option.bind]
    exact congrArg some hadd

/-! ### Records -/

/-- Fields that fit have the names of the members. -/
theorem map_fst_of_fits (h : List.Forall₂ Fits fields own) :
    fields.map (·.1) = own.map (·.1) := by
  induction h with
  | nil => rfl
  | cons hfits _ ih => rw [List.map_cons, List.map_cons, hfits.1, ih]

/-- Members that fit hold texts. -/
theorem exists_text_of_fits (h : List.Forall₂ Fits fields own) :
    ∀ m ∈ own, ∃ s, m.2 = .text s := by
  induction h with
  | nil => exact fun m hm => nomatch hm
  | cons hfits _ ih =>
    intro m hm
    cases hm with
    | head =>
      obtain ⟨-, s, hvalue, -⟩ := hfits
      exact ⟨s, hvalue⟩
    | tail _ hm => exact ih m hm

/-- The name of every member is a text. -/
theorem any_isNone_of_perm {members foreign : List (Literal × Json)}
    (perm : members.Perm (named own ++ foreign)) (strange : ∀ m ∈ foreign, IsForeign own m) :
    members.any (·.1.isNone) = false := by
  rw [List.any_eq_false]
  intro member hmember
  rcases List.mem_append.mp (perm.mem_iff.mp hmember) with hown | hforeign
  · obtain ⟨m, -, rfl⟩ := List.mem_map.mp hown
    exact Bool.false_ne_true
  · obtain ⟨name, hname, -⟩ := strange member hforeign
    rw [hname]
    exact Bool.false_ne_true

/-- An object that has given members has no others. -/
theorem ofMembers_inj {own other : List (String × Json)} (h : ofMembers own = ofMembers other) :
    own = other := by
  refine List.map_injective_iff.mpr ?_ (Json.object.inj h)
  intro member other heq
  obtain ⟨hname, hvalue⟩ := Prod.mk.inj heq
  exact Prod.ext (Option.some.inj hname) hvalue

/-- **A record is read the same way however it is stated.** -/
theorem read_of_restates {written value : Json} (hwritten : written = .ofMembers own)
    (fits : List.Forall₂ Fits fields own) (nodup : (fields.map (·.1)).Nodup)
    (h : Restates written value) : read (.record fields) value = some written := by
  rw [map_fst_of_fits fits] at nodup
  cases h with
  | object perm strange =>
    obtain rfl := ofMembers_inj hwritten
    have hnone := any_isNone_of_perm perm strange
    have hfields := readFields_of_fits fits fun m hm => filter_of_perm perm strange nodup hm
    rw [read, hnone, if_neg Bool.false_ne_true, hfields]
    rfl
  | array =>
    obtain rfl := ofMembers_inj hwritten
    rw [read, readPositions_of_fits fits]
    rfl

end Shape

end Dockmaster.Json
