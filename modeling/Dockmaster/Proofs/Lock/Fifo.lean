import Dockmaster.Proofs.Lock.Line
import Dockmaster.Proofs.Lock.Queues

/-!
# The lock table is a first come, first served lock for each id

Whatever is done at a desk, every step finds what it finds in the plain queues of
`Dockmaster.Proofs.Lock.Queues`. The relation behind this is `Desk.Refines`: the tickets of the
table are those of the live acquisitions in the order in which they were made, the queue of an id
is made of the live acquisitions for it, and an acquisition that was seen to hold its lock is at the
head. A step of the desk and the step of the queues keep this relation and find the same
(`refines_step`).
-/

namespace Dockmaster.Desk

/-! ### Sound desks -/

/-- The live acquisitions for an id, the oldest first. -/
def lineFor (desk : Desk) (id : String) : Queue := desk.live.filter (·.id = id)

/-- **The invariant of a desk.** -/
structure Sound (desk : Desk) : Prop where
  /-- The table is sound. -/
  table : desk.table.Sound
  /-- The tickets are those of the live acquisitions. -/
  tickets : desk.table.tickets.map (fun t => (t.name, t.id)) =
    desk.live.map (fun a => (a.name, a.id))
  /-- An acquisition that was seen to hold its lock is at the head of its line. -/
  first : ∀ a ∈ desk.live, a.held = true → (desk.table.line a.id).head? = some a.name

theorem sound_empty : Desk.empty.Sound where
  table := LockTable.sound_empty
  tickets := rfl
  first a ha := by simp [Desk.empty] at ha

theorem mem_lineFor {desk : Desk} {id : String} {a : Acquisition} :
    a ∈ desk.lineFor id ↔ a ∈ desk.live ∧ a.id = id := by
  simp [lineFor]

section Sound

variable {desk : Desk}

theorem Sound.line_eq (h : desk.Sound) (id : String) :
    desk.table.line id = (desk.lineFor id).map (·.name) := by
  have hpairs := congrArg (fun pairs => (pairs.filter (·.2 = id)).map Prod.fst) h.tickets
  simpa [LockTable.line, lineOf, lineFor, List.filter_map, Function.comp_def] using hpairs

theorem Sound.names_eq (h : desk.Sound) :
    desk.table.tickets.map (·.name) = desk.live.map (·.name) := by
  have hnames := congrArg (List.map Prod.fst) h.tickets
  simpa only [List.map_map, Function.comp_def] using hnames

theorem Sound.names_nodup (h : desk.Sound) : (desk.live.map (·.name)).Nodup :=
  h.names_eq ▸ h.table.distinct

theorem Sound.mem_line (h : desk.Sound) {a : Acquisition} (ha : a ∈ desk.live) :
    a.name ∈ desk.table.line a.id := by
  rw [h.line_eq]
  exact List.mem_map.mpr ⟨a, mem_lineFor.mpr ⟨ha, rfl⟩, rfl⟩

theorem Sound.head?_line (h : desk.Sound) (id : String) :
    (desk.table.line id).head? = (desk.lineFor id).head?.map (·.name) := by
  rw [h.line_eq, List.head?_map]

theorem Sound.find?_of_mem (h : desk.Sound) {a : Acquisition} (ha : a ∈ desk.live) :
    desk.find? a.name = some a :=
  find?_of_nodup_map Acquisition.name h.names_nodup ha

theorem Sound.find?_lineFor (h : desk.Sound) {a : Acquisition} (ha : a ∈ desk.live) :
    (desk.lineFor a.id).find? (·.name = a.name) = some a :=
  find?_of_nodup_map Acquisition.name (h.names_nodup.sublist (List.filter_sublist.map _))
    (mem_lineFor.mpr ⟨ha, rfl⟩)

theorem Sound.name_ne_of_ne (h : desk.Sound) {a b : Acquisition} {other : String}
    (ha : a ∈ desk.live) (hother : other ≠ a.id) (hb : b ∈ desk.lineFor other) :
    b.name ≠ a.name := by
  obtain ⟨hlive, hid⟩ := mem_lineFor.mp hb
  intro hname
  obtain rfl := List.inj_on_of_nodup_map h.names_nodup hlive ha hname
  exact hother hid.symm

end Sound

theorem mem_of_find? {desk : Desk} {name : String} {a : Acquisition}
    (h : desk.find? name = some a) : a ∈ desk.live ∧ a.name = name :=
  ⟨List.mem_of_find?_eq_some h, by simpa using List.find?_some h⟩

/-- A name that no live acquisition has is found in no line. -/
theorem find?_lineFor_eq_none {desk : Desk} {name : String} (h : desk.find? name = none)
    (id : String) : (desk.lineFor id).find? (·.name = name) = none := by
  apply List.find?_eq_none.mpr
  intro a ha
  exact List.find?_eq_none.mp h a (mem_lineFor.mp ha).1

/-! ### What the steps do to the desk -/

theorem Sound.acquire {desk : Desk} (h : desk.Sound) {name : String} (id : String)
    (hnew : name ∉ desk.live.map (·.name)) : (desk.step (.acquire name id)).1.Sound where
  table := h.table.acquire (h.names_eq ▸ hnew)
  tickets := by
    show ((desk.table.acquire id name).1.tickets).map _ = (desk.live ++ [_]).map _
    rw [LockTable.tickets_acquire h.table, List.map_append, List.map_append, h.tickets]
    rfl
  first a ha hheld := by
    show ((desk.table.acquire id name).1.line a.id).head? = some a.name
    rw [LockTable.line_acquire h.table]
    rcases List.mem_append.mp ha with ha | ha
    · rw [List.head?_append, h.first a ha hheld]
      rfl
    · -- the new acquisition has the lock at once only if nobody was in the line
      obtain rfl := List.mem_singleton.mp ha
      have hempty : desk.table.line id = [] := by
        rw [← List.isEmpty_iff, ← LockTable.acquire_held h.table id name]
        exact hheld
      rw [hempty]
      simp

theorem Sound.without {desk : Desk} (h : desk.Sound) {name : String} {table : LockTable String}
    (hsound : table.Sound) (htickets : table.tickets = desk.table.tickets.eraseP (·.name = name)) :
    Sound ⟨table, desk.without name⟩ where
  table := hsound
  tickets := by
    have hpairs := congrArg (List.filter (·.1 ≠ name)) h.tickets
    rw [List.filter_map, List.filter_map] at hpairs
    show table.tickets.map _ = (desk.live.filter _).map _
    rw [htickets, eraseP_name_eq_filter h.table.distinct]
    exact hpairs
  first a ha hheld := by
    obtain ⟨ha, hne⟩ := List.mem_filter.mp ha
    have hhead := h.first a ha hheld
    show (lineOf table.tickets a.id).head? = some a.name
    rw [htickets, lineOf_eraseP h.table.distinct]
    exact head?_erase_of_ne hhead (by simpa using hne)

/-- Seeing that an acquisition holds its lock does no harm if it is at the head of its line. -/
theorem Sound.noticed {desk : Desk} (h : desk.Sound) {a : Acquisition} (ha : a ∈ desk.live)
    (hhead : (desk.table.line a.id).head? = some a.name) :
    Sound ⟨desk.table, desk.live.map (·.seen a.name)⟩ where
  table := h.table
  tickets := by
    rw [h.tickets, List.map_map]
    apply List.map_congr_left
    intro b _
    simp
  first b hb hheld := by
    obtain ⟨c, hc, rfl⟩ := List.mem_map.mp hb
    by_cases hname : c.name = a.name
    · obtain rfl := List.inj_on_of_nodup_map h.names_nodup hc ha hname
      simpa using hhead
    · rw [Acquisition.seen_of_ne hname] at hheld ⊢
      exact h.first c hc hheld

theorem lineFor_seen (desk : Desk) (name id : String) :
    (desk.live.map (·.seen name)).filter (·.id = id) = (desk.lineFor id).map (·.seen name) := by
  rw [List.filter_map, lineFor]
  congr 1
  apply List.filter_congr
  intro a _
  simp

/-! ### The desk and the queues go together -/

/-- **The simulation relation** between a desk and the queues of all ids. -/
structure Refines (home : String → Option String) (desk : Desk) (queues : Queues) : Prop where
  /-- The desk is sound. -/
  sound : desk.Sound
  /-- The ids of the live acquisitions are known. -/
  housed : ∀ a ∈ desk.live, home a.name = some a.id
  /-- The queue of an id is made of the live acquisitions for it. -/
  queue : ∀ id, queues id = desk.lineFor id

section Refines

variable {home : String → Option String} {desk : Desk} {queues : Queues}

theorem refines_empty (home : String → Option String) : Refines home .empty .empty where
  sound := sound_empty
  housed a ha := by simp [Desk.empty] at ha
  queue _ := rfl

theorem Refines.acquire (h : Refines home desk queues) {name id : String}
    (hhome : home name = some id) (hnew : name ∉ desk.live.map (·.name)) :
    Refines home (desk.step (.acquire name id)).1 (queues.step home (.acquire name id)).1 ∧
      (desk.step (.acquire name id)).2 = (queues.step home (.acquire name id)).2 := by
  have hheld : (desk.table.acquire id name).2 = (queues id).isEmpty := by
    rw [LockTable.acquire_held h.sound.table, h.sound.line_eq, h.queue, List.isEmpty_map]
  refine ⟨⟨h.sound.acquire id hnew, ?_, ?_⟩, ?_⟩
  · intro a ha
    rcases List.mem_append.mp ha with ha | ha
    · exact h.housed a ha
    · rw [List.mem_singleton.mp ha]
      exact hhome
  · intro other
    show (if other = id then queues id ++ [⟨name, id, (queues id).isEmpty⟩] else queues other) =
      (desk.live ++ [(⟨name, id, (desk.table.acquire id name).2⟩ : Acquisition)]).filter
        (·.id = other)
    rw [hheld, List.filter_append]
    split_ifs with heq
    · subst heq
      rw [h.queue]
      simp [lineFor]
    · rw [h.queue]
      simp [lineFor, Ne.symm heq]
  · show (if (desk.table.acquire id name).2 then Answer.held else .waiting) =
      if (queues id).isEmpty then Answer.held else .waiting
    rw [hheld]

/-- A step about a name that no live acquisition has finds nothing and changes nothing. -/
theorem Refines.absent (h : Refines home desk queues) {s : Step} (hmade : s.made? = none)
    (habsent : desk.find? s.name = none) :
    Refines home (desk.step s).1 (queues.step home s).1 ∧
      (desk.step s).2 = (queues.step home s).2 := by
  have hdesk : desk.step s = (desk, .none) := by
    cases s with
    | acquire name id => cases hmade
    | poll name => simp only [Desk.step, show desk.find? name = none from habsent]
    | drop name => simp only [Desk.step, show desk.find? name = none from habsent]
  have hqueue (id : String) : (queues id).step s = (queues id, .none) := by
    have hplace := find?_lineFor_eq_none habsent id
    rw [← h.queue] at hplace
    cases s with
    | acquire name id => cases hmade
    | poll name => simp only [Queue.step, show (queues id).find? (·.name = name) = none from hplace]
    | drop name => simp only [Queue.step, show (queues id).find? (·.name = name) = none from hplace]
  have hqueues : queues.step home s = (queues, .none) := by
    unfold Queues.step
    cases Queues.target? home s with
    | none => rfl
    | some id =>
      simp only [hqueue, Prod.mk.injEq, and_true]
      funext other
      split_ifs with heq
      · rw [heq]
      · rfl
  rw [hdesk, hqueues]
  exact ⟨h, rfl⟩

theorem Refines.poll (h : Refines home desk queues) {a : Acquisition} (ha : a ∈ desk.live) :
    Refines home (desk.step (.poll a.name)).1 (queues.step home (.poll a.name)).1 ∧
      (desk.step (.poll a.name)).2 = (queues.step home (.poll a.name)).2 := by
  have hdesk := h.sound.find?_of_mem ha
  have hqueue := h.sound.find?_lineFor ha
  have howner : desk.table.isOwner a.name = true ↔
      (desk.lineFor a.id).head?.map (·.name) = some a.name := by
    rw [LockTable.isOwner_iff h.sound.table (h.sound.mem_line ha), h.sound.head?_line]
  have htarget : Queues.target? home (.poll a.name) = some a.id := h.housed a ha
  obtain ⟨name, id, held⟩ := a
  cases held with
  | true =>
    -- whoever holds the lock already has nothing to find out
    simp only [Desk.step, hdesk, Queues.step, htarget, Queue.step, h.queue, hqueue]
    refine ⟨⟨h.sound, h.housed, fun other => ?_⟩, trivial⟩
    split_ifs with heq
    · rw [heq]
    · rfl
  | false =>
    by_cases hhead : (desk.lineFor id).head?.map (·.name) = some name
    · simp only [Desk.step, hdesk, howner.mpr hhead, Queues.step, htarget, Queue.step, h.queue,
        hqueue, hhead, if_true]
      refine ⟨⟨h.sound.noticed ha ((h.sound.head?_line id).trans hhead), ?_, ?_⟩, trivial⟩
      · intro b hb
        obtain ⟨c, hc, rfl⟩ := List.mem_map.mp hb
        have hhoused := h.housed c hc
        split_ifs <;> exact hhoused
      · intro other
        refine Eq.trans ?_ (lineFor_seen desk name other).symm
        split_ifs with heq
        · rw [heq]
        · -- nobody in the other lines has the name
          conv_lhs => rw [← List.map_id (desk.lineFor other)]
          apply List.map_congr_left
          intro b hb
          rw [Acquisition.seen_of_ne (h.sound.name_ne_of_ne ha heq hb), id_eq]
    · have hnot : desk.table.isOwner name = false := by
        rw [← Bool.not_eq_true, howner]
        exact hhead
      simp only [Desk.step, hdesk, hnot, Queues.step, htarget, Queue.step, h.queue, hqueue, hhead,
        if_false, Bool.false_eq_true]
      refine ⟨⟨h.sound, h.housed, fun other => ?_⟩, trivial⟩
      split_ifs with heq
      · rw [heq]
      · rfl

theorem Refines.drop (h : Refines home desk queues) {a : Acquisition} (ha : a ∈ desk.live) :
    Refines home (desk.step (.drop a.name)).1 (queues.step home (.drop a.name)).1 ∧
      (desk.step (.drop a.name)).2 = (queues.step home (.drop a.name)).2 := by
  have hdesk := h.sound.find?_of_mem ha
  have hqueue := h.sound.find?_lineFor ha
  have htarget : Queues.target? home (.drop a.name) = some a.id := h.housed a ha
  have hhoused : ∀ b ∈ desk.without a.name, home b.name = some b.id :=
    fun b hb => h.housed b (List.mem_filter.mp hb).1
  -- dropping concerns one line only, since nobody in another one has the name
  have hlines (other : String) :
      (if other = a.id then (desk.lineFor a.id).filter (·.name ≠ a.name) else desk.lineFor other) =
        (desk.without a.name).filter (·.id = other) := by
    unfold without
    rw [List.filter_comm]
    split_ifs with heq
    · rw [heq]
      rfl
    · symm
      apply List.filter_eq_self.mpr
      intro b hb
      simpa using h.sound.name_ne_of_ne ha heq hb
  obtain ⟨name, id, held⟩ := a
  simp only [Queues.step, htarget, Queue.step, h.queue, hqueue]
  cases held with
  | true =>
    simp only [Desk.step, hdesk, if_true]
    have hrelease := h.sound.table.release (h.sound.first _ ha rfl)
    exact ⟨⟨h.sound.without hrelease (LockTable.tickets_release _ _), hhoused, hlines⟩, trivial⟩
  | false =>
    simp only [Desk.step, hdesk, if_false, Bool.false_eq_true]
    have habandon := h.sound.table.abandon (h.sound.mem_line ha)
    exact ⟨⟨h.sound.without habandon (LockTable.tickets_abandon _ _), hhoused, hlines⟩, trivial⟩

/-- **One step** of the desk is one step of the queues and finds the same. -/
theorem refines_step (h : Refines home desk queues) (s : Step)
    (hmade : ∀ name id, s.made? = some (name, id) →
      home name = some id ∧ name ∉ desk.live.map (·.name)) :
    Refines home (desk.step s).1 (queues.step home s).1 ∧
      (desk.step s).2 = (queues.step home s).2 := by
  cases s with
  | acquire name id => exact h.acquire (hmade name id rfl).1 (hmade name id rfl).2
  | poll name =>
    cases hfind : desk.find? name with
    | none => exact h.absent rfl hfind
    | some a =>
      obtain ⟨ha, rfl⟩ := mem_of_find? hfind
      exact h.poll ha
  | drop name =>
    cases hfind : desk.find? name with
    | none => exact h.absent rfl hfind
    | some a =>
      obtain ⟨ha, rfl⟩ := mem_of_find? hfind
      exact h.drop ha

end Refines

/-! ### Runs -/

/-- A step leaves the live acquisitions in the order in which they were made. -/
theorem live_step (desk : Desk) (s : Step) :
    ((desk.step s).1.live.map fun a => (a.name, a.id)).Sublist
      (desk.live.map (fun a => (a.name, a.id)) ++ s.made?.toList) := by
  cases s with
  | acquire name id =>
    show ((desk.live ++ [_]).map _).Sublist _
    rw [List.map_append]
    exact List.Sublist.refl _
  | poll name =>
    simp only [Desk.step, Step.made?, Option.toList_none, List.append_nil]
    split
    · split_ifs
      · -- what an acquisition is for does not change when it is seen to hold its lock
        have hsame : ((fun a : Acquisition => (a.name, a.id)) ∘ fun a =>
            if a.name = name then { a with held := true } else a) = fun a => (a.name, a.id) := by
          funext a
          simp only [Function.comp]
          split_ifs <;> rfl
        rw [List.map_map, hsame]
      · exact List.Sublist.refl _
    · exact List.Sublist.refl _
  | drop name =>
    simp only [Desk.step, Step.made?, Option.toList_none, List.append_nil]
    split
    · exact List.filter_sublist.map _
    · exact List.filter_sublist.map _
    · exact List.Sublist.refl _

theorem made_cons (s : Step) (rest : List Step) :
    made (s :: rest) = s.made?.toList ++ made rest := by
  unfold made
  cases hmade : s.made? with
  | none => rw [List.filterMap_cons_none hmade]; rfl
  | some pair => rw [List.filterMap_cons_some hmade]; rfl

theorem live_after (desk : Desk) (steps : List Step) :
    ((desk.after steps).live.map fun a => (a.name, a.id)).Sublist
      (desk.live.map (fun a => (a.name, a.id)) ++ made steps) := by
  induction steps generalizing desk with
  | nil => exact (List.append_nil _).symm ▸ List.Sublist.refl _
  | cons s rest ih =>
    rw [made_cons, ← List.append_assoc]
    exact (ih (desk.step s).1).trans ((live_step desk s).append_right _)

/-- **Refinement.** From a desk and queues that go together, any steps that make acquisitions under
new names find the same, and the desk stays sound. -/
theorem Refines.run {home : String → Option String} {desk : Desk} {queues : Queues}
    (h : Refines home desk queues) (steps : List Step)
    (hhome : ∀ pair ∈ made steps, home pair.1 = some pair.2)
    (hnew : ((desk.live.map (fun a => (a.name, a.id)) ++ made steps).map (·.1)).Nodup) :
    desk.answers steps = queues.answers home steps ∧ (desk.after steps).Sound := by
  induction steps generalizing desk queues with
  | nil => exact ⟨rfl, h.sound⟩
  | cons s rest ih =>
    rw [made_cons] at hhome hnew
    have hmade : ∀ name id, s.made? = some (name, id) →
        home name = some id ∧ name ∉ desk.live.map (·.name) := by
      intro name id hs
      rw [hs] at hhome hnew
      have hmem : (name, id) ∈ [(name, id)] := List.mem_singleton_self _
      refine ⟨hhome (name, id) (List.mem_append_left _ hmem), fun hlive => ?_⟩
      rw [List.map_append, List.map_map] at hnew
      exact (List.nodup_append.mp hnew).2.2 name hlive name (List.mem_cons_self ..) rfl
    obtain ⟨hnext, hanswer⟩ := refines_step h s hmade
    -- what is live after the step was live before or was made by it, so the names still differ
    have hrest := ih hnext (fun pair hpair => hhome pair (List.mem_append_right _ hpair)) (by
      rw [← List.append_assoc] at hnew
      exact hnew.sublist (((live_step desk s).append_right _).map _))
    refine ⟨?_, hrest.2⟩
    rw [answers, Queues.answers, hanswer, hrest.1]

/-- **Fairness** as it is seen at a desk. -/
structure FirstComeFirstServed (desk : Desk) : Prop where
  /-- At most one acquisition for an id holds its lock. -/
  alone : ∀ a ∈ desk.live, ∀ b ∈ desk.live, a.held = true → b.held = true → a.id = b.id → a = b
  /-- Whoever holds a lock has overtaken nobody who is still there. -/
  inTurn : ∀ older a younger, desk.live = older ++ a :: younger → a.held = true →
    ∀ b ∈ older, b.id ≠ a.id
  /-- The oldest acquisition for an id holds the lock or finds so when it looks again. -/
  notLost : ∀ id a, (desk.lineFor id).head? = some a →
    a.held = true ∨ (desk.step (.poll a.name)).2 = .held

theorem Sound.firstComeFirstServed {desk : Desk} (h : desk.Sound) :
    desk.FirstComeFirstServed where
  alone a ha b hb hheld hheld' hid := by
    have hfirst := h.first a ha hheld
    rw [hid, h.first b hb hheld'] at hfirst
    exact List.inj_on_of_nodup_map h.names_nodup ha hb (Option.some.inj hfirst).symm
  inTurn older a younger hlive hheld b hb hid := by
    have ha : a ∈ desk.live := hlive ▸ List.mem_append_right _ (List.mem_cons_self ..)
    have hfirst := h.first a ha hheld
    rw [h.head?_line] at hfirst
    obtain ⟨c, hc, hname⟩ := Option.map_eq_some_iff.mp hfirst
    -- the first in the line is among the older ones, so it is not `a`
    have holder : c ∈ older := by
      rw [lineFor, hlive, List.filter_append, List.head?_append] at hc
      cases hline : (older.filter (·.id = a.id)).head? with
      | none =>
        have hnil := List.head?_eq_none_iff.mp hline
        exact absurd hid (by simpa using List.filter_eq_nil_iff.mp hnil b hb)
      | some d =>
        rw [hline] at hc
        obtain rfl := Option.some.inj hc
        exact (List.mem_filter.mp (List.mem_of_head? hline)).1
    have hnames := h.names_nodup
    rw [hlive, List.map_append] at hnames
    exact (List.nodup_append.mp hnames).2.2 c.name (List.mem_map_of_mem holder) a.name
      (List.mem_map_of_mem (List.mem_cons_self ..)) hname
  notLost id a hhead := by
    obtain ⟨ha, rfl⟩ := mem_lineFor.mp (List.mem_of_head? hhead)
    cases hheld : a.held with
    | true => exact .inl rfl
    | false =>
      have howner : desk.table.isOwner a.name = true := by
        rw [LockTable.isOwner_iff h.table (h.mem_line ha), h.head?_line, hhead]
        rfl
      right
      obtain ⟨name, id, held⟩ := a
      obtain rfl : held = false := hheld
      simp only [Desk.step, h.find?_of_mem ha, howner, if_true]

/-- **The lock table is a family of first come, first served queues.** Whatever steps are taken, by
acquisitions of which each has a name of its own:

* every step finds what it finds in the queues of the ids, in which the live acquisitions of an id
  stand in the order in which they were made;
* locks are held by at most one acquisition for an id, in turn, and no lock is lost;
* what the steps about an id find does not depend on the steps about other ids. -/
theorem answers_eq_queues (steps : List Step) (h : ((made steps).map (·.1)).Nodup) :
    answers .empty steps = Queues.answers (homeIn steps) .empty steps ∧
      (after .empty steps).FirstComeFirstServed ∧
      ((after .empty steps).live.map fun a => (a.name, a.id)).Sublist (made steps) ∧
      ∀ id, ((steps.zip (answers .empty steps)).filter
          (Queues.target? (homeIn steps) ·.1 = some id)).map (·.2) =
        answers .empty (steps.filter (Queues.target? (homeIn steps) · = some id)) := by
  have hhome : ∀ pair ∈ made steps, homeIn steps pair.1 = some pair.2 := by
    intro pair hpair
    unfold homeIn
    rw [find?_of_nodup_map Prod.fst h hpair]
    rfl
  obtain ⟨hanswers, hsound⟩ := (refines_empty (homeIn steps)).run steps hhome h
  refine ⟨hanswers, hsound.firstComeFirstServed, live_after .empty steps, fun id => ?_⟩
  -- the steps about one id make acquisitions under new names as well
  have hsub : (made (steps.filter (Queues.target? (homeIn steps) · = some id))).Sublist
      (made steps) := List.Sublist.filterMap _ List.filter_sublist
  have hpart := ((refines_empty (homeIn steps)).run
    (steps.filter (Queues.target? (homeIn steps) · = some id))
    (fun pair hpair => hhome pair (hsub.subset hpair)) (h.sublist (hsub.map _))).1
  have habout : ∀ s ∈ steps.filter (Queues.target? (homeIn steps) · = some id),
      Queues.target? (homeIn steps) s = some id :=
    fun s hs => by simpa using (List.mem_filter.mp hs).2
  rw [hanswers, Queues.answers_about, hpart, Queues.answers_of_target habout]

/-- A lock that is handed to a waiting acquisition and then given up before that acquisition looked
again, followed by a step after the entry was removed. -/
def heirGivesUp : List Step :=
  [.acquire "a" "web", .acquire "b" "web", .acquire "c" "web", .acquire "d" "db", .poll "c",
    .drop "a", .drop "b", .poll "c", .drop "c", .acquire "e" "web", .poll "b"]

theorem answers_heirGivesUp :
    ((made heirGivesUp).map (·.1)).Nodup ∧
      answers .empty heirGivesUp =
        [.held, .waiting, .waiting, .held, .waiting, .released, .cancelled, .held, .released, .held,
          .none] :=
  ⟨by decide, (answers_eq_queues heirGivesUp (by decide)).1.trans (by decide)⟩

end Dockmaster.Desk
