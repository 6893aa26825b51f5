import Dockmaster.Proofs.Lock.History
import Mathlib.Data.Set.Card

/-!
# The life of an entry of the lock table

An entry is made when a lock is asked for and goes when a holder lets the lock go while nobody else
has a ticket for it. Giving up removes no entry. An entry can therefore outlive the last acquisition for
its id: a holder hands the lock to one that waits, and that one gives up before it has looked.

What becomes of an entry is told by the history of the desk:

* an id has an entry iff it was asked for since the last time a holder was the last to leave
  (`Desk.hasEntry_iff`);
* an id without a live acquisition has an entry iff it was left behind in the way described
  (`Desk.leftBehind_iff`), which gives the number of entries (`Desk.active_eq_card_add`);
* an entry that was left behind serves the next one who asks (`Desk.entry_life`).
-/

namespace Dockmaster

/-! ### What the table does to its entries -/

namespace LockTable

variable {τ : Type}

/-- The table has an entry for an id. -/
def HasEntry (table : LockTable τ) (id : String) : Prop := (table.entries.find? id).isSome

theorem entries_acquire_of_hasEntry {table : LockTable τ} {id : String} (h : table.HasEntry id)
    (name : τ) : (table.acquire id name).1.entries = table.entries := by
  obtain ⟨address, hid⟩ := Option.isSome_iff_exists.mp h
  show (table.enroll id).1.entries = table.entries
  unfold enroll
  rw [hid]

theorem find?_entries_acquire_of_ne (table : LockTable τ) {id other : String} (h : other ≠ id)
    (name : τ) : (table.acquire id name).1.entries.find? other = table.entries.find? other := by
  show (table.enroll id).1.entries.find? other = table.entries.find? other
  unfold enroll
  split
  · rfl
  · exact Directory.find?_put_of_ne h _ _

theorem hasEntry_acquire {table : LockTable τ} (h : table.Sound) (id : String) (name : τ) :
    (table.acquire id name).1.HasEntry id := by
  show ((table.enroll id).1.entries.find? id).isSome
  rw [(h.enroll id).2.2]
  rfl

/-- An entry that is looked at for removal goes iff nobody has a ticket for its id. -/
theorem find?_entries_prune {table : LockTable τ} (h : table.Sound) (id other : String) :
    (table.prune id).entries.find? other =
      if other = id ∧ table.line id = [] then none else table.entries.find? other := by
  unfold prune
  cases hid : table.entries.find? id with
  | none =>
    split_ifs with hgone
    · rw [hgone.1, hid]
    · rfl
  | some address =>
    have hcount : table.references address = 1 ↔ table.line id = [] := by
      rw [h.references_eq hid, Nat.add_eq_left, List.length_eq_zero_iff]
    simp only [hcount]
    by_cases hline : table.line id = []
    · rw [if_pos hline]
      by_cases heq : other = id
      · rw [if_pos ⟨heq, hline⟩, heq, Directory.find?_remove_self]
      · rw [if_neg fun hgone => heq hgone.1, Directory.find?_remove_of_ne heq]
    · rw [if_neg hline, if_neg fun hgone => hline hgone.2]

variable [DecidableEq τ]

@[simp] theorem entries_abandon (table : LockTable τ) (name : τ) :
    (table.abandon name).entries = table.entries := by
  unfold abandon
  split <;> rfl

/-- A holder that lets its lock go takes the entry along iff it is alone in the line. -/
theorem find?_entries_release {table : LockTable τ} (h : table.Sound) {id : String} {name : τ}
    (hhead : (table.line id).head? = some name) (other : String) :
    (table.release name).entries.find? other =
      if other = id ∧ table.line id = [name] then none else table.entries.find? other := by
  obtain ⟨t, ht, rfl, rfl⟩ := mem_lineOf.mp (List.mem_of_head? hhead)
  have hentry := h.listed t ht
  have howner : (table.lockAt t.address).owner = some t.name := by
    rw [← Lock.head?_queue (h.fair hentry), h.queued hentry, hhead]
  have hsound := h.discard ht (Lock.fair_handOver _) (Lock.queue_handOver_of_owner howner)
  have hline : ((table.change t.address Lock.handOver).discard t.name).line t.id =
      (table.line t.id).erase t.name :=
    lineOf_eraseP h.distinct
  have halone : (table.line t.id).erase t.name = [] ↔ table.line t.id = [t.name] := by
    obtain ⟨rest, hrest⟩ := List.head?_eq_some_iff.mp hhead
    rw [hrest, List.erase_cons_head, List.cons_eq_cons, and_iff_right rfl]
  unfold release
  rw [ticket?_eq_some h ht]
  simp only [find?_entries_prune hsound, hline, halone]
  rfl

end LockTable

namespace Desk

/-! ### What a step keeps -/

/-- A step asks for the lock of an id. -/
def Step.Asks (id : String) (s : Step) : Prop := ∃ name, s = .acquire name id

theorem Step.not_asks_poll (name id : String) : ¬ (Step.poll name).Asks id := by
  rintro ⟨_, heq⟩
  cases heq

theorem Step.not_asks_drop (name id : String) : ¬ (Step.drop name).Asks id := by
  rintro ⟨_, heq⟩
  cases heq

/-- A step ends the only live acquisition for an id: that of a holder if `held`, and that of one who
waits otherwise. -/
def EndsLast (held : Bool) (id : String) (desk : Desk) (s : Step) : Prop :=
  ∃ name, s = .drop name ∧ desk.lineFor id = [⟨name, id, held⟩]

/-- The table of a desk has an entry for an id. -/
def HasEntry (desk : Desk) (id : String) : Prop := desk.table.HasEntry id

section Moves

variable {desk next : Desk} {s : Step}

/-- An id with a live acquisition has an entry. -/
theorem Sound.hasEntry (h : desk.Sound) {id : String} (hline : desk.lineFor id ≠ []) :
    desk.HasEntry id := by
  obtain ⟨a, ha⟩ := List.exists_mem_of_ne_nil _ hline
  obtain ⟨hlive, rfl⟩ := mem_lineFor.mp ha
  obtain ⟨t, ht, hid, -⟩ := mem_lineOf.mp (h.mem_line hlive)
  show (desk.table.entries.find? a.id).isSome
  rw [← hid, h.table.listed t ht]
  rfl

theorem EndsLast.dropped {held : Bool} {id : String} (h : EndsLast held id desk s) :
    ∃ a ∈ desk.live, s = .drop a.name := by
  obtain ⟨name, rfl, hline⟩ := h
  exact ⟨_, (mem_lineFor.mp (hline ▸ List.mem_singleton_self _)).1, rfl⟩

/-- Where an acquisition stands alone in its line, its end is the end of the last one. -/
theorem Sound.endsLast_iff (h : desk.Sound) {a : Acquisition} (ha : a ∈ desk.live) (held : Bool)
    (id : String) :
    EndsLast held id desk (.drop a.name) ↔
      (a.held = held ∧ id = a.id ∧ desk.table.line a.id = [a.name]) := by
  constructor
  · rintro ⟨name, hname, hline⟩
    obtain rfl := Step.drop.inj hname
    obtain ⟨hb, hid⟩ := mem_lineFor.mp (hline ▸ List.mem_singleton_self _)
    have heq := List.inj_on_of_nodup_map h.names_nodup ha hb rfl
    have hheld : a.held = held := congrArg Acquisition.held heq
    have hid : id = a.id := (congrArg Acquisition.id heq).symm
    refine ⟨hheld, hid, ?_⟩
    rw [h.line_eq, ← hid, hline]
    rfl
  · rintro ⟨rfl, rfl, hline⟩
    refine ⟨a.name, rfl, ?_⟩
    rw [h.line_eq] at hline
    obtain ⟨b, hb, hname⟩ := List.map_eq_singleton_iff.mp hline
    have hlive := (mem_lineFor.mp (hb ▸ List.mem_singleton_self b : b ∈ desk.lineFor a.id)).1
    rw [hb, List.inj_on_of_nodup_map h.names_nodup hlive ha hname]

/-- The entry of an id goes when a holder is the last to leave. -/
theorem Sound.not_hasEntry_of_endsLast (h : desk.Sound) (move : Moves desk s next) {id : String}
    (hends : EndsLast true id desk s) : ¬ next.HasEntry id := by
  obtain ⟨b, hb, hs⟩ := hends.dropped
  cases move with
  | release live held =>
    obtain ⟨-, rfl, hline⟩ := (h.endsLast_iff live true id).mp hends
    unfold HasEntry LockTable.HasEntry
    rw [LockTable.find?_entries_release h.table (h.first _ live held), if_pos ⟨rfl, hline⟩]
    exact Bool.false_ne_true
  | abandon live waits =>
    have hheld := ((h.endsLast_iff live true id).mp hends).1
    rw [waits] at hheld
    cases hheld
  | absent habsent => exact absurd (Step.drop.inj hs).symm (habsent b hb)
  | _ => cases hs

/-- Otherwise an entry stays as it is. -/
theorem Sound.find?_entries_of_not_endsLast (h : desk.Sound) (move : Moves desk s next)
    {id : String} (hentry : desk.HasEntry id) (hends : ¬ EndsLast true id desk s) :
    next.table.entries.find? id = desk.table.entries.find? id := by
  cases move with
  | acquire name other =>
    by_cases hid : id = other
    · subst hid
      exact congrArg _ (LockTable.entries_acquire_of_hasEntry hentry name)
    · exact LockTable.find?_entries_acquire_of_ne _ hid name
  | @release a live held =>
    have hgone : ¬ (id = a.id ∧ desk.table.line a.id = [a.name]) :=
      fun hgone => hends ((h.endsLast_iff live true id).mpr ⟨held, hgone⟩)
    show (desk.table.release a.name).entries.find? id = _
    rw [LockTable.find?_entries_release h.table (h.first _ live held), if_neg hgone]
  | abandon live waits => exact congrArg _ (LockTable.entries_abandon _ _)
  | _ => rfl

/-- An entry is made only for one who asks. -/
theorem Sound.asks_of_hasEntry (h : desk.Sound) (move : Moves desk s next) {id : String}
    (hentry : next.HasEntry id) (hnone : ¬ desk.HasEntry id) : s.Asks id := by
  unfold HasEntry LockTable.HasEntry at hentry hnone
  cases move with
  | acquire name other =>
    by_cases hid : id = other
    · exact ⟨name, hid ▸ rfl⟩
    · refine absurd ?_ hnone
      rwa [LockTable.find?_entries_acquire_of_ne _ hid] at hentry
  | release live held =>
    rw [LockTable.find?_entries_release h.table (h.first _ live held)] at hentry
    split_ifs at hentry
    · cases hentry
    · exact absurd hentry hnone
  | abandon live waits =>
    rw [LockTable.entries_abandon] at hentry
    exact absurd hentry hnone
  | _ => exact absurd hentry hnone

/-- **What a step makes of an entry.** -/
theorem Sound.hasEntry_moves_iff (h : desk.Sound) (move : Moves desk s next) (id : String) :
    next.HasEntry id ↔ s.Asks id ∨ desk.HasEntry id ∧ ¬ EndsLast true id desk s := by
  constructor
  · intro hentry
    by_cases hbefore : desk.HasEntry id
    · exact .inr ⟨hbefore, fun hends => h.not_hasEntry_of_endsLast move hends hentry⟩
    · exact .inl (h.asks_of_hasEntry move hentry hbefore)
  · rintro (⟨name, rfl⟩ | ⟨hbefore, hends⟩)
    · cases move
      exact LockTable.hasEntry_acquire h.table id name
    · unfold HasEntry LockTable.HasEntry
      rw [h.find?_entries_of_not_endsLast move hbefore hends]
      exact hbefore

theorem Sound.line_eq_nil_iff (h : desk.Sound) (id : String) :
    desk.table.line id = [] ↔ desk.lineFor id = [] := by
  rw [h.line_eq, List.map_eq_nil_iff]

/-- Whoever leaves was in one line only, and leaves it empty iff nobody else was in it. -/
theorem Sound.line_erase_eq_nil_iff (h : desk.Sound) {a : Acquisition} (ha : a ∈ desk.live)
    (id : String) :
    (desk.table.line id).erase a.name = [] ↔
      desk.lineFor id = [] ∨ ∃ held, EndsLast held id desk (.drop a.name) := by
  have halone : desk.table.line id = [a.name] ↔ id = a.id ∧ desk.table.line a.id = [a.name] := by
    constructor
    · intro hline
      have hmem : a.name ∈ desk.table.line id := hline ▸ List.mem_singleton_self _
      rw [h.line_eq] at hmem
      obtain ⟨b, hb, hname⟩ := List.mem_map.mp hmem
      obtain ⟨hlive, rfl⟩ := mem_lineFor.mp hb
      obtain rfl := List.inj_on_of_nodup_map h.names_nodup hlive ha hname
      exact ⟨rfl, hline⟩
    · rintro ⟨rfl, hline⟩
      exact hline
  rw [List.erase_eq_nil_iff, h.line_eq_nil_iff, halone]
  refine or_congr_right ⟨fun hlast => ⟨a.held, ?_⟩, fun ⟨held, hends⟩ => ?_⟩
  · exact (h.endsLast_iff ha a.held id).mpr ⟨rfl, hlast⟩
  · exact ((h.endsLast_iff ha held id).mp hends).2

/-- **What a step makes of an empty line**, and which steps make a line empty. -/
theorem Sound.lineFor_moves_eq_nil_iff (h : desk.Sound) (move : Moves desk s next) (id : String) :
    next.lineFor id = [] ↔
      desk.lineFor id = [] ∧ ¬ s.Asks id ∨ ∃ held, EndsLast held id desk s := by
  -- whatever is no drop of a live acquisition ends none
  have hnone (hs : ∀ a ∈ desk.live, s ≠ .drop a.name) : ¬ ∃ held, EndsLast held id desk s := by
    rintro ⟨held, hends⟩
    obtain ⟨a, ha, rfl⟩ := hends.dropped
    exact hs a ha rfl
  cases move with
  | acquire name other =>
    have hasks : Step.Asks id (.acquire name other) ↔ other = id := by
      constructor
      · rintro ⟨_, hname⟩
        exact (Step.acquire.inj hname).2
      · rintro rfl
        exact ⟨name, rfl⟩
    have hends := hnone fun a _ heq => by cases heq
    show (desk.live ++ [_]).filter _ = [] ↔ _
    rw [or_iff_left hends, hasks, List.filter_append, List.append_eq_nil_iff]
    simp [lineFor]
  | look name =>
    have hends := hnone fun a _ heq => by cases heq
    rw [or_iff_left hends, and_iff_left (Step.not_asks_poll name id)]
  | @notice a live owner =>
    have hends := hnone fun a _ heq => by cases heq
    have hline : Desk.lineFor ⟨desk.table, desk.live.map (·.seen a.name)⟩ id = _ :=
      lineFor_seen desk a.name id
    rw [or_iff_left hends, and_iff_left (Step.not_asks_poll a.name id), hline,
      List.map_eq_nil_iff]
  | @release a live held =>
    have hnext : Sound ⟨desk.table.release a.name, desk.without a.name⟩ :=
      h.moves (.release live held) fun _ hmade => by cases hmade
    rw [← hnext.line_eq_nil_iff, LockTable.line_release h.table, h.line_erase_eq_nil_iff live,
      and_iff_left (Step.not_asks_drop a.name id)]
  | @abandon a live waits =>
    have hnext : Sound ⟨desk.table.abandon a.name, desk.without a.name⟩ :=
      h.moves (.abandon live waits) fun _ hmade => by cases hmade
    rw [← hnext.line_eq_nil_iff, LockTable.line_abandon h.table, h.line_erase_eq_nil_iff live,
      and_iff_left (Step.not_asks_drop a.name id)]
  | @absent name habsent =>
    have hends := hnone fun a ha heq => habsent a ha (Step.drop.inj heq).symm
    rw [or_iff_left hends, and_iff_left (Step.not_asks_drop name id)]

end Moves

/-! ### The life of an entry -/

/-- An id was asked for since the last time a holder of its lock was the last to leave. -/
def AskedSince (id : String) (steps : List Step) : Prop :=
  Since (fun _ s => s.Asks id) (EndsLast true id) steps

/-- The last in the line of an id gives up before it has looked at the lock it was handed. -/
def GivesUpLast (id : String) (desk : Desk) (s : Step) : Prop :=
  ∃ name, s = .drop name ∧ desk.lineFor id = [⟨name, id, false⟩] ∧ desk.table.isOwner name = true

/-- The last acquisition for an id to go away gave up after it was handed the lock, and nobody has
asked for the id since. -/
def LeftBehind (id : String) (steps : List Step) : Prop :=
  Since (GivesUpLast id) (fun _ s => s.Asks id) steps

/-- Whoever is alone in a line has been handed the lock. -/
theorem Sound.givesUpLast_iff {desk : Desk} (h : desk.Sound) (id : String) (s : Step) :
    GivesUpLast id desk s ↔ EndsLast false id desk s := by
  constructor
  · rintro ⟨name, hs, hline, -⟩
    exact ⟨name, hs, hline⟩
  · rintro ⟨name, hs, hline⟩
    have hname : name ∈ desk.table.line id := by
      rw [h.line_eq, hline]
      exact List.mem_singleton_self _
    refine ⟨name, hs, hline, (LockTable.isOwner_iff h.table hname).mpr ?_⟩
    rw [h.head?_line, hline]
    rfl

section Entry

variable {steps : List Step} {id : String}

/-- **An id has an entry iff it was asked for since a holder was the last to leave.** -/
theorem hasEntry_iff (h : OwnNames .empty steps) (id : String) :
    (after .empty steps).HasEntry id ↔ AskedSince id steps := by
  induction steps using List.reverseRecOn with
  | nil => exact iff_of_false Bool.false_ne_true (not_since_nil _ _)
  | append_singleton steps s ih =>
    obtain ⟨hsteps, -⟩ := ownNames_append.mp h
    have hsound := sound_empty.after hsteps
    rw [AskedSince, since_concat, ← AskedSince, ← ih hsteps, after_append]
    exact hsound.hasEntry_moves_iff (moves_step _ s) id

/-- **An id that nobody needs has an entry iff it was left behind.** -/
theorem leftBehind_iff (h : OwnNames .empty steps) (id : String) :
    (after .empty steps).HasEntry id ∧ (after .empty steps).lineFor id = [] ↔
      LeftBehind id steps := by
  induction steps using List.reverseRecOn with
  | nil => exact iff_of_false (fun hentry => Bool.false_ne_true hentry.1) (not_since_nil _ _)
  | append_singleton steps s ih =>
    obtain ⟨hsteps, -⟩ := ownNames_append.mp h
    have hsound := sound_empty.after hsteps
    have hmove := moves_step (after .empty steps) s
    rw [LeftBehind, since_concat, ← LeftBehind, ← ih hsteps, hsound.givesUpLast_iff, after_append]
    show (step _ s).1.HasEntry id ∧ (step _ s).1.lineFor id = [] ↔ _
    rw [hsound.hasEntry_moves_iff hmove, hsound.lineFor_moves_eq_nil_iff hmove]
    constructor
    · rintro ⟨hentry, ⟨hline, hasks⟩ | ⟨held, hends⟩⟩
      · exact .inr ⟨⟨(hentry.resolve_left hasks).1, hline⟩, hasks⟩
      · -- the last has gone, and it was no holder because the entry is still there
        obtain ⟨a, -, rfl⟩ := hends.dropped
        obtain ⟨-, hnot⟩ := hentry.resolve_left fun ⟨_, hname⟩ => nomatch hname
        cases held with
        | true => exact absurd hends hnot
        | false => exact .inl hends
    · rintro (⟨name, hs, hline⟩ | ⟨⟨hentry, hline⟩, hasks⟩)
      · have hentry := hsound.hasEntry (hline ▸ List.cons_ne_nil _ _)
        refine ⟨.inr ⟨hentry, ?_⟩, .inr ⟨false, name, hs, hline⟩⟩
        rintro ⟨other, -, hother⟩
        cases hline.symm.trans hother
      · refine ⟨.inr ⟨hentry, ?_⟩, .inl ⟨hline, hasks⟩⟩
        rintro ⟨name, -, hcons⟩
        exact List.cons_ne_nil _ _ (hcons.symm.trans hline)

end Entry

/-- **As long as no holder is the last to leave, an entry stays as it is.** -/
theorem Sound.find?_entries_after {desk : Desk} (h : desk.Sound) {steps : List Step}
    (hnames : desk.OwnNames steps) {id : String} (hentry : desk.HasEntry id)
    (hnot : ∀ mid s tail, steps = mid ++ s :: tail → ¬ EndsLast true id (desk.after mid) s) :
    (desk.after steps).table.entries.find? id = desk.table.entries.find? id := by
  induction steps generalizing desk with
  | nil => rfl
  | cons s rest ih =>
    have hmove := moves_step desk s
    have hkept := h.find?_entries_of_not_endsLast hmove hentry (hnot [] s rest rfl)
    have hnext : (desk.step s).1.HasEntry id := by
      unfold HasEntry LockTable.HasEntry
      rw [hkept]
      exact hentry
    refine (ih (h.moves hmove hnames.1) hnames.2 hnext fun mid t tail hrest => ?_).trans hkept
    exact hnot (s :: mid) t tail (congrArg (s :: ·) hrest)

/-- **The life of an entry.** Whatever steps are taken, by acquisitions whose names are not in use
when they are made:

* an id has an entry iff it was asked for since the last time a holder of its lock was let go while
  no other acquisition for it was alive;
* an id with a live acquisition has an entry, and one without has an entry iff the last acquisition
  for it to go away gave up after it was handed the lock;
* an entry that was left behind serves the next one who asks, who has the lock at once;
* an entry stays the same until a holder is the last to leave, and then it goes. -/
theorem entry_life (steps : List Step) (h : OwnNames .empty steps) (id : String) :
    ((after .empty steps).HasEntry id ↔ AskedSince id steps) ∧
      (∀ a ∈ (after .empty steps).live, a.id = id → (after .empty steps).HasEntry id) ∧
      ((after .empty steps).HasEntry id ∧ (after .empty steps).lineFor id = [] ↔
        LeftBehind id steps) ∧
      (LeftBehind id steps → ∀ name,
        ((after .empty steps).step (.acquire name id)).2 = .held ∧
          ((after .empty steps).step (.acquire name id)).1.table.entries =
            (after .empty steps).table.entries) ∧
      ∀ more, (after .empty steps).OwnNames more → (after .empty steps).HasEntry id →
        (∀ mid s tail, more = mid ++ s :: tail →
          ¬ EndsLast true id ((after .empty steps).after mid) s) →
        ((after .empty steps).after more).table.entries.find? id =
            (after .empty steps).table.entries.find? id ∧
          ∀ s, EndsLast true id ((after .empty steps).after more) s →
            ¬ (((after .empty steps).after more).step s).1.HasEntry id := by
  have hsound := sound_empty.after h
  refine ⟨hasEntry_iff h id, fun a ha hid => ?_, leftBehind_iff h id, fun hleft name => ?_,
    fun more hmore hentry hnot => ?_⟩
  · exact hsound.hasEntry (List.ne_nil_of_mem (mem_lineFor.mpr ⟨ha, hid⟩))
  · obtain ⟨hentry, hline⟩ := (leftBehind_iff h id).mpr hleft
    refine ⟨?_, LockTable.entries_acquire_of_hasEntry hentry name⟩
    show (if ((after .empty steps).table.acquire id name).2 then Answer.held else .waiting) = .held
    rw [LockTable.acquire_held hsound.table, (hsound.line_eq_nil_iff id).mpr hline]
    rfl
  · have hkept := hsound.find?_entries_after hmore hentry hnot
    exact ⟨hkept, fun s => (hsound.after hmore).not_hasEntry_of_endsLast (moves_step _ s)⟩

/-- A holder leaves behind one who waits, who gives up before it has looked again. -/
def deserted : List Step :=
  [.acquire "a" "web", .acquire "b" "web", .acquire "c" "db", .drop "a", .drop "b"]

theorem entry_life_deserted :
    OwnNames .empty deserted ∧ AskedSince "web" deserted ∧ LeftBehind "web" deserted ∧
      ((after .empty deserted).step (.acquire "d" "web")).2 = .held ∧
      ¬ (((after .empty deserted).after [.acquire "d" "web"]).step (.drop "d")).1.HasEntry
        "web" := by
  obtain ⟨hasked, -, hleft, hreuse, hlast⟩ := entry_life deserted (by decide) "web"
  have hentry : (after .empty deserted).HasEntry "web" := by
    show ((after .empty deserted).table.entries.find? "web").isSome = true
    decide
  have hbehind := hleft.mp ⟨hentry, by decide⟩
  refine ⟨by decide, hasked.mp hentry, hbehind, (hreuse hbehind "d").1, ?_⟩
  refine (hlast [.acquire "d" "web"] (by decide) hentry ?_).2 (.drop "d") ⟨"d", rfl, by decide⟩
  rintro mid s tail hmore ⟨name, rfl, -⟩
  have hmem : Step.drop name ∈ [Step.acquire "d" "web"] := hmore ▸ by simp
  cases List.mem_singleton.mp hmem

/-! ### The number of entries -/

theorem mem_entries_iff {desk : Desk} {id : String} :
    id ∈ (desk.table.entries.map (·.1)).toFinset ↔ desk.HasEntry id := by
  rw [List.mem_toFinset, List.mem_map]
  constructor
  · rintro ⟨entry, hentry, rfl⟩
    exact Directory.isSome_find?_of_mem hentry
  · intro hentry
    obtain ⟨address, hfind⟩ := Option.isSome_iff_exists.mp hentry
    exact ⟨(id, address), Directory.mem_of_find? hfind, rfl⟩

/-- An id has one entry at most, so there are as many entries as ids that have one. -/
theorem Sound.active_eq_card {desk : Desk} (h : desk.Sound) :
    desk.table.active = (desk.table.entries.map (·.1)).toFinset.card := by
  rw [List.toFinset_card_of_nodup (Directory.nodup_names h.table.sorted), List.length_map]
  rfl

/-- The ids that are held or awaited. -/
def needed (desk : Desk) : Finset String := (desk.live.map (·.id)).toFinset

theorem mem_needed {desk : Desk} {id : String} : id ∈ desk.needed ↔ desk.lineFor id ≠ [] := by
  rw [needed, List.mem_toFinset, List.mem_map]
  constructor
  · rintro ⟨a, ha⟩
    exact List.ne_nil_of_mem (mem_lineFor.mpr ha)
  · intro hline
    obtain ⟨a, ha⟩ := List.exists_mem_of_ne_nil _ hline
    exact ⟨a, mem_lineFor.mp ha⟩

/-- **The number of entries** is that of the ids that are held or awaited and of those that were
left behind. It is that of the former alone iff no id was left behind. -/
theorem active_eq_card_add (steps : List Step) (h : OwnNames .empty steps) :
    (after .empty steps).table.active =
        (after .empty steps).needed.card + {id | LeftBehind id steps}.ncard ∧
      ((after .empty steps).table.active = (after .empty steps).needed.card ↔
        ∀ id, ¬ LeftBehind id steps) := by
  have hsound := sound_empty.after h
  set desk := after .empty steps
  set entries := (desk.table.entries.map (·.1)).toFinset
  -- the ids with an entry are those that are needed and those that were left behind
  have hunion : (entries : Set String) = ↑desk.needed ∪ {id | LeftBehind id steps} := by
    ext id
    rw [Set.mem_union, Finset.mem_coe, Finset.mem_coe, Set.mem_ofPred_eq, mem_entries_iff,
      mem_needed, ← leftBehind_iff h]
    by_cases hline : desk.lineFor id = []
    · exact ⟨fun hentry => .inr ⟨hentry, hline⟩,
        fun hid => (hid.resolve_left fun hne => hne hline).1⟩
    · exact ⟨fun _ => .inl hline, fun _ => hsound.hasEntry hline⟩
  have hdisjoint : Disjoint (desk.needed : Set String) {id | LeftBehind id steps} := by
    rw [Set.disjoint_left]
    intro id hneeded hleft
    exact mem_needed.mp hneeded ((leftBehind_iff h id).mpr hleft).2
  have hfinite : {id | LeftBehind id steps}.Finite :=
    entries.finite_toSet.subset (hunion ▸ Set.subset_union_right)
  have hcount : desk.table.active = desk.needed.card + {id | LeftBehind id steps}.ncard := by
    rw [hsound.active_eq_card, ← Set.ncard_coe_finset, ← Set.ncard_coe_finset, hunion,
      Set.ncard_union_eq hdisjoint desk.needed.finite_toSet hfinite]
  refine ⟨hcount, ?_⟩
  rw [hcount, Nat.add_eq_left, Set.ncard_eq_zero hfinite, Set.eq_empty_iff_forall_notMem]
  rfl

theorem active_eq_card_add_deserted :
    OwnNames .empty deserted ∧ (after .empty deserted).table.active = 2 ∧
      (after .empty deserted).needed = {"db"} ∧ {id | LeftBehind id deserted}.ncard = 1 := by
  have hactive : (after .empty deserted).table.active = 2 := by decide
  have hneeded : (after .empty deserted).needed = {"db"} := by decide
  have hcount := (active_eq_card_add deserted (by decide)).1
  rw [hactive, hneeded, Finset.card_singleton] at hcount
  exact ⟨by decide, hactive, hneeded, (Nat.add_left_cancel hcount).symm⟩

/-- The entries are more than the ids that are held or awaited. -/
theorem active_ne_card_needed :
    ¬ ∀ steps, OwnNames .empty steps →
      (after .empty steps).table.active = (after .empty steps).needed.card := by
  intro hall
  have hequal := hall [.acquire "a" "web", .acquire "b" "web", .drop "a", .drop "b"] (by decide)
  exact absurd hequal (by decide)

end Desk

end Dockmaster
