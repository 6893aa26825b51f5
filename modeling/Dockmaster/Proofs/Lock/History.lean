import Dockmaster.Proofs.Lock.Fifo
import Mathlib.Data.List.Induction

/-!
# What happens at a desk

`Moves` lists the ways on of a desk, one for each thing that a step can do, so that a fact about all
steps is proved by its cases. Names only tell acquisitions apart: in the runs that count, a name is
not in use when an acquisition is made under it (`OwnNames`), and it may be used again afterwards.
Every desk that such a run leads to is sound (`Sound.after`).

`Since` says that something has happened in the course of a run and that something else has not
happened since. One more step changes this in one way only (`since_concat`), so a fact that every
step changes in the same way is told by the history of the desk.
-/

namespace Dockmaster.Desk

/-! ### What a step does -/

/-- **The ways on of a desk**, one for each thing that a step can do. -/
inductive Moves (desk : Desk) : Step → Desk → Prop
  /-- A lock is asked for. -/
  | acquire (name id : String) :
      Moves desk (.acquire name id) ⟨(desk.table.acquire id name).1,
        desk.live ++ [⟨name, id, (desk.table.acquire id name).2⟩]⟩
  /-- A look that finds nothing new. -/
  | look (name : String) : Moves desk (.poll name) desk
  /-- A look at a lock that was handed over. -/
  | notice {a : Acquisition} (live : a ∈ desk.live) (owner : desk.table.isOwner a.name = true) :
      Moves desk (.poll a.name) ⟨desk.table, desk.live.map (·.seen a.name)⟩
  /-- A holder lets its lock go. -/
  | release {a : Acquisition} (live : a ∈ desk.live) (held : a.held = true) :
      Moves desk (.drop a.name) ⟨desk.table.release a.name, desk.without a.name⟩
  /-- One who waits gives up. -/
  | abandon {a : Acquisition} (live : a ∈ desk.live) (waits : a.held = false) :
      Moves desk (.drop a.name) ⟨desk.table.abandon a.name, desk.without a.name⟩
  /-- There is nothing to drop. -/
  | absent {name : String} (absent : ∀ a ∈ desk.live, a.name ≠ name) : Moves desk (.drop name) desk

theorem moves_step (desk : Desk) (s : Step) : Moves desk s (desk.step s).1 := by
  cases s with
  | acquire name id => exact .acquire name id
  | poll name =>
    simp only [step]
    split
    · rename_i id hfind
      obtain ⟨ha, rfl⟩ := mem_of_find? hfind
      split_ifs with howner
      · exact .notice ha howner
      · exact .look _
    · exact .look name
  | drop name =>
    simp only [step]
    split
    · rename_i id hfind
      obtain ⟨ha, rfl⟩ := mem_of_find? hfind
      exact .release ha rfl
    · rename_i id hfind
      obtain ⟨ha, rfl⟩ := mem_of_find? hfind
      exact .abandon ha rfl
    · rename_i hfind
      exact .absent fun a ha hname => by simpa [hname] using List.find?_eq_none.mp hfind a ha

/-- The names of the acquisitions that the steps make are not in use at the time. -/
def OwnNames (desk : Desk) : List Step → Prop
  | [] => True
  | s :: rest => (∀ pair ∈ s.made?, desk.find? pair.1 = none) ∧ OwnNames (desk.step s).1 rest

instance decidableOwnNames : (desk : Desk) → (steps : List Step) → Decidable (desk.OwnNames steps)
  | _, [] => isTrue trivial
  | desk, s :: rest =>
    have := decidableOwnNames (desk.step s).1 rest
    inferInstanceAs (Decidable (_ ∧ _))

theorem Sound.moves {desk next : Desk} {s : Step} (h : desk.Sound) (move : Moves desk s next)
    (hnew : ∀ pair ∈ s.made?, desk.find? pair.1 = none) : next.Sound := by
  cases move with
  | acquire name id =>
    refine h.acquire id fun hlive => ?_
    obtain ⟨a, ha, rfl⟩ := List.mem_map.mp hlive
    have habsent := hnew (a.name, id) rfl
    rw [h.find?_of_mem ha] at habsent
    cases habsent
  | look name => exact h
  | notice live owner =>
    exact h.noticed live ((LockTable.isOwner_iff h.table (h.mem_line live)).mp owner)
  | release live held =>
    exact h.without (h.table.release (h.first _ live held)) (LockTable.tickets_release _ _)
  | abandon live waits =>
    exact h.without (h.table.abandon (h.mem_line live)) (LockTable.tickets_abandon _ _)
  | absent habsent => exact h

/-! ### Runs -/

/-- Something has happened in the course of some steps, and something else has not happened
since. Both are told by the step and the desk before it. -/
def Since (happened undone : Desk → Step → Prop) (steps : List Step) : Prop :=
  ∃ before s rest, steps = before ++ s :: rest ∧ happened (after .empty before) s ∧
    ∀ mid t tail, rest = mid ++ t :: tail → ¬ undone (after .empty (before ++ s :: mid)) t

theorem not_since_nil (happened undone : Desk → Step → Prop) : ¬ Since happened undone [] := by
  rintro ⟨before, s, rest, hsteps, -⟩
  exact List.append_ne_nil_of_right_ne_nil before (List.cons_ne_nil s rest) hsteps.symm

/-- **What one more step changes.** -/
theorem since_concat (happened undone : Desk → Step → Prop) (steps : List Step) (s : Step) :
    Since happened undone (steps ++ [s]) ↔
      happened (after .empty steps) s ∨
        Since happened undone steps ∧ ¬ undone (after .empty steps) s := by
  constructor
  · rintro ⟨before, first, rest, hsteps, hhappened, hnot⟩
    rcases List.eq_nil_or_concat rest with rfl | ⟨middle, last, rfl⟩
    · obtain ⟨rfl, hs⟩ := List.append_inj' hsteps rfl
      obtain rfl := List.singleton_inj.mp hs
      exact .inl hhappened
    · rw [List.concat_eq_append, ← List.cons_append, ← List.append_assoc] at hsteps
      obtain ⟨rfl, hs⟩ := List.append_inj' hsteps rfl
      obtain rfl := List.singleton_inj.mp hs
      refine .inr ⟨⟨before, first, middle, rfl, hhappened, fun mid t tail hmiddle => ?_⟩, ?_⟩
      · refine hnot mid t (tail ++ [s]) ?_
        rw [hmiddle, List.concat_eq_append, List.append_assoc, List.cons_append]
      · exact hnot middle s [] (List.concat_eq_append ..)
  · rintro (hhappened | ⟨⟨before, first, rest, rfl, hhappened, hnot⟩, hlast⟩)
    · exact ⟨steps, s, [], rfl, hhappened, fun mid t tail hnil => by simp at hnil⟩
    · refine ⟨before, first, rest ++ [s], by simp, hhappened, fun mid t tail hrest => ?_⟩
      rcases List.eq_nil_or_concat tail with rfl | ⟨front, last, rfl⟩
      · obtain ⟨rfl, hs⟩ := List.append_inj' hrest rfl
        obtain rfl := List.singleton_inj.mp hs
        exact hlast
      · rw [List.concat_eq_append, ← List.cons_append, ← List.append_assoc] at hrest
        exact hnot mid t front (List.append_inj' hrest rfl).1

theorem after_append (desk : Desk) (first second : List Step) :
    desk.after (first ++ second) = (desk.after first).after second :=
  List.foldl_append ..

theorem ownNames_append {desk : Desk} {first second : List Step} :
    desk.OwnNames (first ++ second) ↔ desk.OwnNames first ∧ (desk.after first).OwnNames second := by
  induction first generalizing desk with
  | nil => exact (and_iff_right trivial).symm
  | cons s rest ih =>
    rw [List.cons_append, OwnNames, OwnNames, ih, and_assoc]
    rfl

theorem Sound.after {desk : Desk} (h : desk.Sound) {steps : List Step}
    (hnames : desk.OwnNames steps) : (desk.after steps).Sound := by
  induction steps generalizing desk with
  | nil => exact h
  | cons s rest ih => exact ih (h.moves (moves_step desk s) hnames.1) hnames.2

end Dockmaster.Desk
