import Dockmaster.Proofs.Json.Record
import Mathlib.Data.Set.List

/-!
# Normal forms of values

`Shape.read` brings a value into the normal form of a shape. This file says what a normal form looks
like from outside: what is found in a record under the name of an optional field has the shape that
the field asks for (`Shape.IsNormal.of_member?`), a list of texts is nothing but that
(`Shape.IsNormal.texts`), and a dictionary has each name once (`Shape.IsNormal.dict`).

The other half is about looking members up: an object that is built of members with different names
has exactly these (`member?_ofPresent`).
-/

namespace Dockmaster.Json

/-! ### Members -/

theorem mem_of_member? {members : List (Literal × Json)} {name : String} {value : Json}
    (h : (object members).member? name = some value) : (some name, value) ∈ members := by
  obtain ⟨member, hfind, rfl⟩ := Option.map_eq_some_iff.mp h
  have hname : member.1 = some name := by simpa using List.find?_some hfind
  have hmem := List.mem_reverse.mp (List.mem_of_find?_eq_some hfind)
  rwa [← hname]

/-- A name that no member has leads to nothing, and one that a member has leads to something. -/
theorem member?_eq_none_iff {members : List (Literal × Json)} {name : String} :
    (object members).member? name = none ↔ ∀ member ∈ members, member.1 ≠ some name := by
  simp [member?]

/-- Where names differ, a member is found under its name. -/
theorem member?_ofMembers {own : List (String × Json)} (nodup : (own.map (·.1)).Nodup)
    {name : String} {value : Json} :
    (ofMembers own).member? name = some value ↔ (name, value) ∈ own := by
  have hmem : (some name, value) ∈ named own ↔ (name, value) ∈ own := by simp [named]
  refine ⟨fun h => hmem.mp (mem_of_member? h), fun h => ?_⟩
  cases hfound : (ofMembers own).member? name with
  | none => exact absurd rfl (member?_eq_none_iff.mp hfound _ (hmem.mpr h))
  | some other =>
    obtain ⟨member, hmember, heq⟩ := List.mem_map.mp (mem_of_member? hfound)
    obtain ⟨hname, rfl⟩ := Prod.mk.inj heq
    have hsame := List.inj_on_of_nodup_map nodup h hmember (Option.some.inj hname).symm
    rw [← hsame]

/-- An object of present members has those that are present. -/
theorem member?_ofPresent_iff {fields : List (String × Option Json)}
    (nodup : (fields.map (·.1)).Nodup) {name : String} {value : Json} :
    (ofPresent fields).member? name = some value ↔ (name, some value) ∈ fields := by
  have hpresent : ((fields.filterMap fun member =>
      member.2.map fun value => (member.1, value)).map (·.1)).Nodup := by
    refine List.pairwise_map.mpr (List.pairwise_filterMap.mpr ?_)
    refine (List.pairwise_map.mp nodup).imp fun hne a ha b hb => ?_
    obtain ⟨_, -, rfl⟩ := Option.map_eq_some_iff.mp ha
    obtain ⟨_, -, rfl⟩ := Option.map_eq_some_iff.mp hb
    exact hne
  rw [ofPresent, member?_ofMembers hpresent]
  simp only [List.mem_filterMap, Option.map_eq_some_iff, Prod.mk.injEq]
  constructor
  · rintro ⟨⟨_, _⟩, hmem, _, rfl, rfl, rfl⟩
    exact hmem
  · intro hmem
    exact ⟨_, hmem, _, rfl, rfl, rfl⟩

/-- **What is found under the name of a field is what the field has.** -/
theorem member?_ofPresent {fields : List (String × Option Json)} (nodup : (fields.map (·.1)).Nodup)
    {name : String} {value? : Option Json} (h : (name, value?) ∈ fields) :
    (ofPresent fields).member? name = value? := by
  ext value
  rw [member?_ofPresent_iff nodup]
  constructor
  · intro hmem
    exact congrArg Prod.snd (List.inj_on_of_nodup_map nodup h hmem rfl)
  · rintro rfl
    exact h

theorem member?_ofPresent_eq_none {fields : List (String × Option Json)}
    (nodup : (fields.map (·.1)).Nodup) {name : String} (h : name ∉ fields.map (·.1)) :
    (ofPresent fields).member? name = none := by
  rw [Option.eq_none_iff_forall_ne_some]
  intro value hvalue
  exact h (List.mem_map_of_mem ((member?_ofPresent_iff nodup).mp hvalue))

/-! ### Normal forms -/

namespace Shape

/-- A value is the normal form of some value of a shape. -/
def IsNormal (shape : Shape) (value : Json) : Prop := ∃ written, read shape written = some value

theorem of_mem_mapM {α β : Type} {f : α → Option β} {items : List α} {results : List β}
    (h : items.mapM f = some results) : ∀ b ∈ results, ∃ a ∈ items, f a = some b := by
  induction items generalizing results with
  | nil =>
    obtain rfl := Option.some.inj h
    exact fun b hb => absurd hb List.not_mem_nil
  | cons a rest ih =>
    rw [List.mapM_cons] at h
    obtain ⟨first, hfirst, h⟩ := Option.bind_eq_some_iff.mp h
    obtain ⟨others, hothers, h⟩ := Option.bind_eq_some_iff.mp h
    obtain rfl := Option.some.inj h
    intro b hb
    rcases List.mem_cons.mp hb with rfl | hb
    · exact ⟨a, List.mem_cons_self .., hfirst⟩
    · obtain ⟨c, hc, hcb⟩ := ih hothers b hb
      exact ⟨c, List.mem_cons_of_mem _ hc, hcb⟩

/-- A value that a field holds is a normal form of its shape, and not null. -/
def Holds (fields : List (String × Shape)) (member : Literal × Json) : Prop :=
  ∃ field ∈ fields, member.1 = some field.1 ∧ IsNormal field.2 member.2 ∧ isNull member.2 = false

theorem Holds.cons {fields : List (String × Shape)} {member : Literal × Json}
    (h : Holds fields member) (field : String × Shape) : Holds (field :: fields) member := by
  obtain ⟨other, hother, hmember⟩ := h
  exact ⟨other, List.mem_cons_of_mem _ hother, hmember⟩

theorem holds_addField {fields : List (String × Shape)} {shape : Shape} {value : Json}
    (hvalue : IsNormal shape value) {rest : List (Literal × Json)}
    (hrest : ∀ member ∈ rest, Holds fields member) (name : String) :
    ∀ member ∈ addField name value rest, Holds ((name, shape) :: fields) member := by
  intro member hmember
  unfold addField at hmember
  split_ifs at hmember with hnull
  · exact (hrest member hmember).cons _
  · rcases List.mem_cons.mp hmember with rfl | hmember
    · exact ⟨_, List.mem_cons_self .., rfl, hvalue, by simpa using hnull⟩
    · exact (hrest member hmember).cons _

theorem holds_of_readFields {fields : List (String × Shape)} {members own : List (Literal × Json)}
    (h : readFields fields members = some own) : ∀ member ∈ own, Holds fields member := by
  induction fields generalizing own with
  | nil =>
    rw [readFields] at h
    obtain rfl := Option.some.inj h
    exact fun member hmember => absurd hmember List.not_mem_nil
  | cons field fields ih =>
    obtain ⟨name, shape⟩ := field
    rw [readFields] at h
    split at h
    · split_ifs at h
      exact fun member hmember => (ih h member hmember).cons _
    · obtain ⟨value, hvalue, h⟩ := Option.bind_eq_some_iff.mp h
      obtain ⟨rest, hrest, h⟩ := Option.bind_eq_some_iff.mp h
      obtain rfl := Option.some.inj h
      exact holds_addField ⟨_, hvalue⟩ (ih hrest) name
    · cases h

theorem holds_of_readPositions {fields : List (String × Shape)} {items : List Json}
    {own : List (Literal × Json)} (h : readPositions fields items = some own) :
    ∀ member ∈ own, Holds fields member := by
  induction fields generalizing items own with
  | nil =>
    cases items with
    | nil =>
      rw [readPositions] at h
      obtain rfl := Option.some.inj h
      exact fun member hmember => absurd hmember List.not_mem_nil
    | cons item items => simp [readPositions] at h
  | cons field fields ih =>
    obtain ⟨name, shape⟩ := field
    cases items with
    | nil => simp [readPositions] at h
    | cons item items =>
      rw [readPositions] at h
      obtain ⟨value, hvalue, h⟩ := Option.bind_eq_some_iff.mp h
      obtain ⟨rest, hrest, h⟩ := Option.bind_eq_some_iff.mp h
      obtain rfl := Option.some.inj h
      exact holds_addField ⟨_, hvalue⟩ (ih hrest) name

/-- **A record in normal form** is an object whose members are held by its fields. -/
theorem IsNormal.record {fields : List (String × Shape)} {value : Json}
    (h : IsNormal (.record fields) value) :
    ∃ own, value = .object own ∧ ∀ member ∈ own, Holds fields member := by
  obtain ⟨written, h⟩ := h
  cases written with
  | object members =>
    rw [read] at h
    split_ifs at h
    obtain ⟨own, hown, rfl⟩ := Option.map_eq_some_iff.mp h
    exact ⟨own, rfl, holds_of_readFields hown⟩
  | array items =>
    rw [read] at h
    obtain ⟨own, hown, rfl⟩ := Option.map_eq_some_iff.mp h
    exact ⟨own, rfl, holds_of_readPositions hown⟩
  | _ => simp [read] at h

/-- The member under the name of a field is a normal form of the shape of the field. -/
theorem IsNormal.member? {fields : List (String × Shape)} {record value : Json}
    (h : IsNormal (.record fields) record) (nodup : (fields.map (·.1)).Nodup) {name : String}
    {shape : Shape} (hfield : (name, shape) ∈ fields) (hvalue : record.member? name = some value) :
    IsNormal shape value ∧ isNull value = false := by
  obtain ⟨own, rfl, hown⟩ := h.record
  obtain ⟨field, hmem, hname, hnormal⟩ := hown _ (mem_of_member? hvalue)
  obtain rfl := List.inj_on_of_nodup_map nodup hfield hmem (Option.some.inj hname)
  exact hnormal

/-- What is there in an optional place has the shape that is asked for. -/
theorem IsNormal.of_optional {shape : Shape} {value : Json} (h : IsNormal (.optional shape) value)
    (hnull : isNull value = false) : IsNormal shape value := by
  obtain ⟨written, h⟩ := h
  rw [read] at h
  split_ifs at h
  · obtain rfl := Option.some.inj h
    cases hnull
  · exact ⟨written, h⟩

/-- **The member under the name of an optional field** has the shape that the field asks for. -/
theorem IsNormal.of_member? {fields : List (String × Shape)} {record value : Json}
    (h : IsNormal (.record fields) record) (nodup : (fields.map (·.1)).Nodup) {name : String}
    {shape : Shape} (hfield : (name, .optional shape) ∈ fields)
    (hvalue : record.member? name = some value) : IsNormal shape value := by
  obtain ⟨hnormal, hnull⟩ := h.member? nodup hfield hvalue
  exact hnormal.of_optional hnull

theorem IsNormal.text {value : Json} (h : IsNormal .text value) : ∃ s, value = .text s := by
  obtain ⟨written, h⟩ := h
  cases written with
  | string literal =>
    cases literal with
    | none => simp [read] at h
    | some s =>
      rw [read] at h
      exact ⟨s, (Option.some.inj h).symm⟩
  | _ => simp [read] at h

theorem IsNormal.hollow {value : Json} (h : IsNormal .hollow value) : value = .object [] := by
  obtain ⟨written, h⟩ := h
  cases written with
  | object members =>
    cases members with
    | nil =>
      rw [read] at h
      exact (Option.some.inj h).symm
    | cons member rest => simp [read] at h
  | _ => simp [read] at h

theorem IsNormal.list {shape : Shape} {value : Json} (h : IsNormal (.list shape) value) :
    ∃ items, value = .array items ∧ ∀ item ∈ items, IsNormal shape item := by
  obtain ⟨written, h⟩ := h
  cases written with
  | array items =>
    rw [read] at h
    obtain ⟨results, hresults, rfl⟩ := Option.map_eq_some_iff.mp h
    refine ⟨results, rfl, fun item hitem => ?_⟩
    obtain ⟨source, -, hsource⟩ := of_mem_mapM hresults item hitem
    exact ⟨source, hsource⟩
  | _ => simp [read] at h

/-- **A list of texts** is nothing but that. -/
theorem IsNormal.texts {value : Json} (h : IsNormal (.list .text) value) :
    ∃ items, value = .texts items := by
  obtain ⟨items, rfl, hitems⟩ := h.list
  have hrange : ∀ item ∈ items, item ∈ Set.range Json.text := by
    intro item hitem
    obtain ⟨s, rfl⟩ := (hitems item hitem).text
    exact ⟨s, rfl⟩
  obtain ⟨own, rfl⟩ : items ∈ Set.range (List.map Json.text) := by
    rwa [Set.range_list_map]
  exact ⟨own, rfl⟩

theorem lastOfEach_sublist (members : List (Literal × Json)) :
    (lastOfEach members).Sublist members := by
  induction members with
  | nil => exact List.Sublist.refl _
  | cons member rest ih =>
    rw [lastOfEach]
    split_ifs
    · exact ih.cons _
    · exact ih.cons_cons _

theorem nodup_lastOfEach (members : List (Literal × Json)) :
    ((lastOfEach members).map (·.1)).Nodup := by
  induction members with
  | nil => exact List.nodup_nil
  | cons member rest ih =>
    rw [lastOfEach]
    split_ifs with hlater
    · exact ih
    · refine List.nodup_cons.mpr ⟨fun hmem => ?_, ih⟩
      -- a name that is kept stands among the later ones
      obtain ⟨other, hother, hname⟩ := List.mem_map.mp hmem
      refine hlater (List.any_eq_true.mpr ⟨other, (lastOfEach_sublist rest).subset hother, ?_⟩)
      simpa using hname

/-- **A dictionary in normal form** has each name once, and values in normal form. -/
theorem IsNormal.dict {shape : Shape} {value : Json} (h : IsNormal (.dict shape) value) :
    ∃ own : List (String × Json), value = .ofMembers own ∧ (own.map (·.1)).Nodup ∧
      ∀ member ∈ own, IsNormal shape member.2 := by
  obtain ⟨written, h⟩ := h
  cases written with
  | object members =>
    rw [read] at h
    obtain ⟨entries, hentries, h⟩ := Option.bind_eq_some_iff.mp h
    obtain rfl := Option.some.inj h
    have hmember : ∀ member ∈ lastOfEach entries,
        ∃ name, member.1 = some name ∧ IsNormal shape member.2 := by
      intro member hmember
      obtain ⟨source, -, hsource⟩ :=
        of_mem_mapM hentries member ((lastOfEach_sublist entries).subset hmember)
      obtain ⟨name, -, hsource⟩ := Option.bind_eq_some_iff.mp hsource
      obtain ⟨value, hvalue, hsource⟩ := Option.bind_eq_some_iff.mp hsource
      obtain rfl := Option.some.inj hsource
      exact ⟨name, rfl, _, hvalue⟩
    obtain ⟨own, hown⟩ : ∃ own, named own = lastOfEach entries := by
      suffices hrange : lastOfEach entries ∈ Set.range named from hrange
      unfold named
      rw [Set.range_list_map]
      intro member hmem
      obtain ⟨name, hname, -⟩ := hmember member hmem
      exact ⟨(name, member.2), Prod.ext hname.symm rfl⟩
    refine ⟨own, congrArg Json.object hown.symm, ?_, fun member hmem => ?_⟩
    · have hnodup := nodup_lastOfEach entries
      rw [← hown, named, List.map_map] at hnodup
      refine List.Nodup.of_map some ?_
      rwa [List.map_map]
    · obtain ⟨-, -, hnormal⟩ := hmember (some member.1, member.2)
        (hown ▸ List.mem_map_of_mem hmem)
      exact hnormal
  | _ => simp [read] at h

end Shape

end Dockmaster.Json
