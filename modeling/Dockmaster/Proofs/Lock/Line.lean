import Dockmaster.Lock.Table
import Dockmaster.Proofs.Directory

/-!
# The lock table keeps a line for each id

The tickets for an id that were not let go, in the order in which they were asked for, are the
*line* of the id. This file shows what the table does in terms of these lines alone:

* `acquire` puts a name at the end of a line and finds the lock free iff the line was empty
  (`line_acquire`, `acquire_held`);
* `release` and `abandon` take a name out of its line, wherever it stands (`line_release`,
  `line_abandon`);
* the lock of an id belongs to the first in its line (`owner?_eq`, `isOwner_iff`).

All of this rests on `Sound`, which every operation keeps: a ticket refers to the lock that the
table has for its id, different ids have different locks, and the owner of a lock followed by those
who wait for it is the line of the id. The entry of an id is removed when the table alone refers to
its lock, which `references_eq` shows to be the case iff the line is empty; so no lock is thrown
away that somebody still has a ticket for, and no id ever has two locks.
-/

namespace Dockmaster

/-- Among things of which no two have the same name, each is found by its name. -/
theorem find?_of_nodup_map {α β : Type} [DecidableEq β] (name : α → β) {items : List α}
    (h : (items.map name).Nodup) {a : α} (ha : a ∈ items) :
    items.find? (name · = name a) = some a := by
  cases hfind : items.find? (name · = name a) with
  | none =>
    have hnone := List.find?_eq_none.mp hfind a ha
    simp at hnone
  | some b =>
    have hname : name b = name a := by simpa using List.find?_some hfind
    rw [List.inj_on_of_nodup_map h (List.mem_of_find?_eq_some hfind) ha hname]

/-! ### One lock -/

namespace Lock

variable {τ : Type}

/-- The owner of a lock, and after it those who wait. -/
def queue (lock : Lock τ) : List τ := lock.owner.toList ++ lock.waiting

/-- Nobody waits for a lock that belongs to nobody. -/
def Fair (lock : Lock τ) : Prop := lock.owner = none → lock.waiting = []

theorem fair_unclaimed : (unclaimed : Lock τ).Fair := fun _ => rfl

theorem head?_queue {lock : Lock τ} (h : lock.Fair) : lock.queue.head? = lock.owner := by
  unfold queue
  cases howner : lock.owner with
  | none => rw [h howner]; rfl
  | some name => rfl

theorem isFree_eq {lock : Lock τ} (h : lock.Fair) : lock.isFree = lock.queue.isEmpty := by
  unfold isFree queue
  cases howner : lock.owner with
  | none => rw [h howner]; rfl
  | some name => rfl

theorem fair_ask (lock : Lock τ) (name : τ) : (lock.ask name).Fair := by
  unfold ask
  cases howner : lock.owner with
  | none => exact fun hnone => nomatch hnone
  | some other => exact fun hnone => nomatch hnone

theorem queue_ask {lock : Lock τ} (h : lock.Fair) (name : τ) :
    (lock.ask name).queue = lock.queue ++ [name] := by
  unfold ask queue
  cases howner : lock.owner with
  | none => simp [h howner]
  | some other => simp

theorem fair_handOver (lock : Lock τ) : lock.handOver.Fair := by
  unfold handOver
  cases lock.waiting with
  | nil => exact fun _ => rfl
  | cons next rest => exact fun hnone => nomatch hnone

theorem queue_handOver (lock : Lock τ) : lock.handOver.queue = lock.waiting := by
  unfold handOver queue
  cases lock.waiting with
  | nil => rfl
  | cons next rest => rfl

variable [DecidableEq τ]

theorem queue_handOver_of_owner {lock : Lock τ} {name : τ} (h : lock.owner = some name) :
    lock.handOver.queue = lock.queue.erase name := by
  rw [queue_handOver, queue, h]
  simp

theorem fair_giveUp {lock : Lock τ} (h : lock.Fair) (name : τ) : (lock.giveUp name).Fair := by
  unfold giveUp
  split_ifs with howner
  · exact fair_handOver lock
  · intro hnone
    show lock.waiting.erase name = []
    rw [h hnone]
    rfl

theorem queue_giveUp (lock : Lock τ) (name : τ) :
    (lock.giveUp name).queue = lock.queue.erase name := by
  unfold giveUp
  split_ifs with howner
  · exact queue_handOver_of_owner howner
  · unfold queue
    cases hother : lock.owner with
    | none => rfl
    | some other =>
      have hne : other ≠ name := fun heq => howner (heq ▸ hother)
      simp [hne]

end Lock

/-! ### Lines -/

/-- The names on the tickets for an id. -/
def lineOf {τ : Type} (tickets : List (Ticket τ)) (id : String) : List τ :=
  (tickets.filter (·.id = id)).map (·.name)

section Tickets

variable {τ : Type} {tickets : List (Ticket τ)} {id : String} {name : τ}

theorem mem_lineOf : name ∈ lineOf tickets id ↔ ∃ t ∈ tickets, t.id = id ∧ t.name = name := by
  simp [lineOf, and_assoc]

theorem lineOf_append_singleton (t : Ticket τ) :
    lineOf (tickets ++ [t]) id = lineOf tickets id ++ if t.id = id then [t.name] else [] := by
  unfold lineOf
  rw [List.filter_append, List.map_append]
  split_ifs with h <;> simp [h]

theorem nodup_lineOf (h : (tickets.map (·.name)).Nodup) : (lineOf tickets id).Nodup :=
  h.sublist (List.filter_sublist.map _)

/-- Tickets have different names, so a ticket is known by its name. -/
theorem eq_of_name_eq (h : (tickets.map (·.name)).Nodup) {t u : Ticket τ} (ht : t ∈ tickets)
    (hu : u ∈ tickets) (heq : t.name = u.name) : t = u :=
  List.inj_on_of_nodup_map h ht hu heq

variable [DecidableEq τ]

theorem eraseP_name_eq_filter (h : (tickets.map (·.name)).Nodup) :
    tickets.eraseP (·.name = name) = tickets.filter (·.name ≠ name) := by
  induction tickets with
  | nil => rfl
  | cons t rest ih =>
    obtain ⟨hnot, hrest⟩ := List.nodup_cons.mp h
    -- the names differ, so whatever is behind the ticket that is erased stays
    by_cases ht : t.name = name
    · rw [List.eraseP_cons_of_pos (by simpa using ht), List.filter_cons_of_neg (by simpa using ht)]
      symm
      apply List.filter_eq_self.mpr
      intro u hu
      have hne : u.name ≠ name := fun heq => hnot (List.mem_map.mpr ⟨u, hu, heq.trans ht.symm⟩)
      simpa using hne
    · rw [List.eraseP_cons_of_neg (by simpa using ht), List.filter_cons_of_pos (by simpa using ht),
        ih hrest]

theorem lineOf_eraseP (h : (tickets.map (·.name)).Nodup) :
    lineOf (tickets.eraseP (·.name = name)) id = (lineOf tickets id).erase name := by
  rw [eraseP_name_eq_filter h, (nodup_lineOf h).erase_eq_filter]
  unfold lineOf
  rw [List.filter_map, List.filter_filter, List.filter_filter]
  congr 1
  apply List.filter_congr
  intro t _
  simp only [Function.comp, ne_eq, decide_not, Bool.and_comm, bne, beq_eq_decide]

/-- The first in a line stays the first when another one leaves it. -/
theorem head?_erase_of_ne {line : List τ} {first : τ} (h : line.head? = some first)
    (hne : first ≠ name) : (line.erase name).head? = some first := by
  cases line with
  | nil => cases h
  | cons a rest =>
    obtain rfl := Option.some.inj h
    rw [List.erase_cons_tail (by simpa using hne)]
    rfl

end Tickets

/-! ### Sound tables -/

namespace LockTable

variable {τ : Type}

/-- The line of an id: the names on the tickets for it, the oldest first. -/
def line (table : LockTable τ) (id : String) : List τ := lineOf table.tickets id

/-- **The invariant of the lock table.** -/
structure Sound (table : LockTable τ) : Prop where
  /-- The ids of the entries are in order. -/
  sorted : table.entries.Sorted
  /-- Different ids have different locks. -/
  apart : ∀ {i j a}, table.entries.find? i = some a → table.entries.find? j = some a → i = j
  /-- The table has the locks that its entries refer to. -/
  stored : ∀ {i a}, table.entries.find? i = some a → a < table.store.length
  /-- Nobody waits for a lock that belongs to nobody. -/
  fair : ∀ {i a}, table.entries.find? i = some a → (table.lockAt a).Fair
  /-- The owner of a lock and those who wait for it are the line of its id. -/
  queued : ∀ {i a}, table.entries.find? i = some a → (table.lockAt a).queue = table.line i
  /-- Different tickets have different names. -/
  distinct : (table.tickets.map (·.name)).Nodup
  /-- A ticket refers to the lock that the table has for its id. -/
  listed : ∀ t ∈ table.tickets, table.entries.find? t.id = some t.address

theorem sound_empty : (empty : LockTable τ).Sound where
  sorted := Directory.sorted_nil
  apart h := by simp [empty, Directory.find?] at h
  stored h := by simp [empty, Directory.find?] at h
  fair h := by simp [empty, Directory.find?] at h
  queued h := by simp [empty, Directory.find?] at h
  distinct := List.nodup_nil
  listed t ht := by simp [empty] at ht

@[simp] theorem line_empty (id : String) : (empty : LockTable τ).line id = [] := rfl

/-- An id without an entry has no tickets. -/
theorem Sound.line_of_no_entry {table : LockTable τ} (h : table.Sound) {id : String}
    (hid : table.entries.find? id = none) : table.line id = [] := by
  apply List.eq_nil_iff_forall_not_mem.mpr
  intro name hname
  obtain ⟨t, ht, rfl, -⟩ := mem_lineOf.mp hname
  rw [h.listed t ht] at hid
  cases hid

/-- **Reference count.** The lock of an id is referred to by the table and by the tickets in the
line of the id. -/
theorem Sound.references_eq {table : LockTable τ} (h : table.Sound) {id : String} {a : Nat}
    (hid : table.entries.find? id = some a) :
    table.references a = 1 + (table.line id).length := by
  have hentries : table.entries.countP (·.2 = a) = 1 :=
    Directory.countP_value h.sorted hid fun _ hj => h.apart hj hid
  -- a ticket refers to the lock iff it is for the id
  have htickets : table.tickets.countP (·.address = a) = table.tickets.countP (·.id = id) := by
    apply List.countP_congr
    intro t ht
    simp only [decide_eq_true_eq]
    constructor
    · rintro rfl
      exact h.apart (h.listed t ht) hid
    · rintro rfl
      exact Option.some.inj ((h.listed t ht).symm.trans hid)
  rw [references, hentries, htickets, line, lineOf, List.length_map, List.countP_eq_length_filter]

/-- The lock of an id belongs to the first in its line. -/
theorem Sound.owner?_eq {table : LockTable τ} (h : table.Sound) (id : String) :
    table.owner? id = (table.line id).head? := by
  unfold owner?
  cases hid : table.entries.find? id with
  | none => rw [h.line_of_no_entry hid]; rfl
  | some a => rw [Option.bind_some, ← h.queued hid, Lock.head?_queue (h.fair hid)]

/-! ### Changing one lock -/

theorem lockAt_change (table : LockTable τ) (a : Nat) (f : Lock τ → Lock τ) {b : Nat}
    (h : b < table.store.length) :
    (table.change a f).lockAt b = if a = b then f (table.lockAt b) else table.lockAt b := by
  unfold lockAt change
  rw [List.getElem?_modify, List.getElem?_eq_getElem h]
  split_ifs <;> rfl

/-- A table stays sound when the lock of one id is changed and the tickets with it, as long as the
lock goes along with the line and the lines of other ids stay as they are. -/
theorem Sound.changed {table : LockTable τ} (h : table.Sound) {id : String} {a : Nat}
    (hid : table.entries.find? id = some a) (f : Lock τ → Lock τ) (tickets : List (Ticket τ))
    (fair : (f (table.lockAt a)).Fair) (queued : (f (table.lockAt a)).queue = lineOf tickets id)
    (others : ∀ j, j ≠ id → lineOf tickets j = table.line j)
    (distinct : (tickets.map (·.name)).Nodup)
    (listed : ∀ t ∈ tickets, table.entries.find? t.id = some t.address) :
    ({ table with tickets }.change a f).Sound where
  sorted := h.sorted
  apart := h.apart
  stored hj := by
    show _ < (table.store.modify a f).length
    rw [List.length_modify]
    exact h.stored hj
  fair {j b} hj := by
    rw [lockAt_change { table with tickets } a f (h.stored hj)]
    split_ifs with hab
    · exact hab ▸ fair
    · exact h.fair hj
  queued {j b} hj := by
    rw [lockAt_change { table with tickets } a f (h.stored hj)]
    split_ifs with hab
    · -- the lock that was changed is that of `id` alone
      subst hab
      obtain rfl := h.apart hj hid
      exact queued
    · have hne : j ≠ id := by
        rintro rfl
        exact hab (Option.some.inj (hid.symm.trans hj))
      exact (h.queued hj).trans (others j hne).symm
  distinct := distinct
  listed := listed

/-! ### Asking for a lock -/

/-- Making an entry changes nothing for anybody. -/
theorem Sound.enroll {table : LockTable τ} (h : table.Sound) (id : String) :
    (table.enroll id).1.Sound ∧ (table.enroll id).1.tickets = table.tickets ∧
      (table.enroll id).1.entries.find? id = some (table.enroll id).2 := by
  unfold LockTable.enroll
  cases hid : table.entries.find? id with
  | some a => exact ⟨h, rfl, hid⟩
  | none =>
    dsimp only
    -- what is found afterwards is the new entry or was found before
    have hfind : ∀ {j b}, Directory.find? j (table.entries.put id table.store.length) = some b →
        (j = id ∧ b = table.store.length) ∨ (j ≠ id ∧ table.entries.find? j = some b) := by
      intro j b hj
      by_cases hji : j = id
      · subst hji
        rw [Directory.find?_put_self] at hj
        exact .inl ⟨rfl, (Option.some.inj hj).symm⟩
      · rw [Directory.find?_put_of_ne hji] at hj
        exact .inr ⟨hji, hj⟩
    -- the new lock stands behind the old ones, which are where they were
    have hnew : (table.store ++ [Lock.unclaimed])[table.store.length]?.getD .unclaimed
        = (.unclaimed : Lock τ) := by simp
    have hold : ∀ {b}, b < table.store.length →
        (table.store ++ [Lock.unclaimed])[b]?.getD .unclaimed = table.lockAt b := by
      intro b hb
      rw [List.getElem?_append_left hb]
      rfl
    refine ⟨?_, rfl, Directory.find?_put_self ..⟩
    exact {
      sorted := Directory.sorted_put _ _ h.sorted
      apart := by
        intro i j a hi hj
        rcases hfind hi with ⟨hiid, ha⟩ | ⟨-, hi'⟩
        · rcases hfind hj with ⟨hjid, -⟩ | ⟨-, hj'⟩
          · rw [hiid, hjid]
          · exact absurd (ha ▸ h.stored hj') (Nat.lt_irrefl _)
        · rcases hfind hj with ⟨-, ha⟩ | ⟨-, hj'⟩
          · exact absurd (ha ▸ h.stored hi') (Nat.lt_irrefl _)
          · exact h.apart hi' hj'
      stored := by
        intro i a hi
        rw [List.length_append, List.length_singleton]
        rcases hfind hi with ⟨-, rfl⟩ | ⟨-, hi⟩
        · exact Nat.lt_succ_self _
        · exact Nat.lt_succ_of_lt (h.stored hi)
      fair := by
        intro i a hi
        unfold lockAt
        rcases hfind hi with ⟨-, rfl⟩ | ⟨-, hi⟩
        · rw [hnew]; exact Lock.fair_unclaimed
        · rw [hold (h.stored hi)]; exact h.fair hi
      queued := by
        intro i a hi
        unfold lockAt
        rcases hfind hi with ⟨rfl, rfl⟩ | ⟨-, hi⟩
        · rw [hnew]; exact (h.line_of_no_entry hid).symm
        · rw [hold (h.stored hi)]; exact h.queued hi
      distinct := h.distinct
      listed := by
        intro t ht
        have hne : t.id ≠ id := by
          rintro heq
          rw [← heq, h.listed t ht] at hid
          cases hid
        show Directory.find? t.id (Directory.put _ _ _) = _
        rw [Directory.find?_put_of_ne hne]
        exact h.listed t ht }

theorem acquire_eq (table : LockTable τ) (id : String) (name : τ) :
    table.acquire id name =
      ({ (table.enroll id).1 with
          tickets := (table.enroll id).1.tickets ++
            [(⟨name, id, (table.enroll id).2⟩ : Ticket τ)] }.change (table.enroll id).2
              (·.ask name),
      ((table.enroll id).1.lockAt (table.enroll id).2).isFree) :=
  rfl

theorem tickets_acquire {table : LockTable τ} (h : table.Sound) (id : String) (name : τ) :
    (table.acquire id name).1.tickets = table.tickets ++ [⟨name, id, (table.enroll id).2⟩] := by
  rw [acquire_eq, ← (h.enroll id).2.1]
  rfl

theorem line_acquire {table : LockTable τ} (h : table.Sound) (id : String) (name : τ) (j : String) :
    (table.acquire id name).1.line j = table.line j ++ if id = j then [name] else [] := by
  unfold line
  rw [tickets_acquire h, lineOf_append_singleton]

/-- Whoever asks for a lock has it at once iff nobody else has a ticket for it. -/
theorem acquire_held {table : LockTable τ} (h : table.Sound) (id : String) (name : τ) :
    (table.acquire id name).2 = (table.line id).isEmpty := by
  obtain ⟨hsound, htickets, hentry⟩ := h.enroll id
  rw [acquire_eq]
  dsimp only
  rw [Lock.isFree_eq (hsound.fair hentry), hsound.queued hentry, line, htickets]
  rfl

theorem Sound.acquire {table : LockTable τ} (h : table.Sound) {id : String} {name : τ}
    (hnew : name ∉ table.tickets.map (·.name)) : (table.acquire id name).1.Sound := by
  obtain ⟨hsound, htickets, hentry⟩ := h.enroll id
  rw [acquire_eq]
  refine hsound.changed hentry _ _ (Lock.fair_ask _ name) ?_ ?_ ?_ ?_
  · rw [Lock.queue_ask (hsound.fair hentry), hsound.queued hentry, lineOf_append_singleton,
      if_pos rfl]
    rfl
  · intro j hj
    rw [lineOf_append_singleton, if_neg (Ne.symm hj), List.append_nil]
    rfl
  · rw [htickets, List.map_append]
    -- the name is new, so no older ticket has it
    refine List.nodup_append.mpr ⟨h.distinct, List.nodup_singleton _, ?_⟩
    rintro other hold _ hsingle rfl
    have heq : other = name := List.mem_singleton.mp hsingle
    exact hnew (heq ▸ hold)
  · intro t ht
    rcases List.mem_append.mp ht with ht | ht
    · exact hsound.listed t ht
    · rw [List.mem_singleton.mp ht]
      exact hentry

/-! ### Letting a lock go -/

theorem tickets_prune (table : LockTable τ) (id : String) :
    (table.prune id).tickets = table.tickets := by
  unfold prune
  split
  · split_ifs <;> rfl
  · rfl

/-- Removing the entry of an id that only the table refers to takes no lock from anybody. -/
theorem Sound.prune {table : LockTable τ} (h : table.Sound) (id : String) :
    (table.prune id).Sound := by
  unfold LockTable.prune
  cases hid : table.entries.find? id with
  | none => exact h
  | some a =>
    dsimp only
    split_ifs with hone
    · -- nobody has a ticket for the id, so no ticket loses its entry
      have hempty : table.line id = [] := by
        rw [h.references_eq hid] at hone
        exact List.length_eq_zero_iff.mp (by omega)
      -- what is found afterwards was found before, since an id has one entry only
      have hfind : ∀ {j b}, Directory.find? j (table.entries.remove id) = some b →
          table.entries.find? j = some b := by
        intro j b hj
        have hne : j ≠ id := by
          rintro rfl
          rw [Directory.find?_remove_self] at hj
          cases hj
        rwa [Directory.find?_remove_of_ne hne] at hj
      exact {
        sorted := Directory.sorted_remove id h.sorted
        apart := fun hi hj => h.apart (hfind hi) (hfind hj)
        stored := fun hi => h.stored (hfind hi)
        fair := fun hi => h.fair (hfind hi)
        queued := fun hi => h.queued (hfind hi)
        distinct := h.distinct
        listed := by
          intro t ht
          have hne : t.id ≠ id := by
            intro heq
            have hmem : t.name ∈ table.line id := mem_lineOf.mpr ⟨t, ht, heq, rfl⟩
            rw [hempty] at hmem
            cases hmem
          show Directory.find? t.id (Directory.remove _ _) = _
          rw [Directory.find?_remove_of_ne hne]
          exact h.listed t ht }
    · exact h

variable [DecidableEq τ]

theorem ticket?_eq_some {table : LockTable τ} (h : table.Sound) {t : Ticket τ}
    (ht : t ∈ table.tickets) : table.ticket? t.name = some t :=
  find?_of_nodup_map Ticket.name h.distinct ht

theorem isOwner_iff {table : LockTable τ} (h : table.Sound) {id : String} {name : τ}
    (hname : name ∈ table.line id) :
    table.isOwner name = true ↔ (table.line id).head? = some name := by
  obtain ⟨t, ht, rfl, rfl⟩ := mem_lineOf.mp hname
  have hentry := h.listed t ht
  unfold isOwner
  rw [ticket?_eq_some h ht, decide_eq_true_eq, ← Lock.head?_queue (h.fair hentry),
    h.queued hentry]

/-- Taking a ticket away goes with any change of the lock that takes the name out of its queue. -/
theorem Sound.discard {table : LockTable τ} (h : table.Sound) {t : Ticket τ}
    (ht : t ∈ table.tickets) {f : Lock τ → Lock τ} (fair : (f (table.lockAt t.address)).Fair)
    (queued : (f (table.lockAt t.address)).queue = (table.lockAt t.address).queue.erase t.name) :
    ((table.change t.address f).discard t.name).Sound := by
  have hentry := h.listed t ht
  refine h.changed hentry f (table.tickets.eraseP (·.name = t.name)) fair ?_ ?_ ?_ ?_
  · rw [queued, h.queued hentry, lineOf_eraseP h.distinct]
    rfl
  · -- the name is in no other line
    intro j hj
    rw [lineOf_eraseP h.distinct]
    apply List.erase_of_not_mem
    intro hmem
    obtain ⟨u, hu, rfl, hname⟩ := mem_lineOf.mp hmem
    exact hj (congrArg Ticket.id (eq_of_name_eq h.distinct hu ht hname))
  · exact h.distinct.sublist (List.eraseP_sublist.map _)
  · exact fun u hu => h.listed u (List.mem_of_mem_eraseP hu)

theorem Sound.release {table : LockTable τ} (h : table.Sound) {id : String} {name : τ}
    (hhead : (table.line id).head? = some name) : (table.release name).Sound := by
  obtain ⟨t, ht, rfl, rfl⟩ := mem_lineOf.mp (List.mem_of_head? hhead)
  have hentry := h.listed t ht
  have howner : (table.lockAt t.address).owner = some t.name := by
    rw [← Lock.head?_queue (h.fair hentry), h.queued hentry, hhead]
  unfold LockTable.release
  rw [ticket?_eq_some h ht]
  exact (h.discard ht (Lock.fair_handOver _) (Lock.queue_handOver_of_owner howner)).prune t.id

theorem Sound.abandon {table : LockTable τ} (h : table.Sound) {id : String} {name : τ}
    (hname : name ∈ table.line id) : (table.abandon name).Sound := by
  obtain ⟨t, ht, rfl, rfl⟩ := mem_lineOf.mp hname
  unfold LockTable.abandon
  rw [ticket?_eq_some h ht]
  exact h.discard ht (Lock.fair_giveUp (h.fair (h.listed t ht)) _) (Lock.queue_giveUp _ _)

theorem tickets_release (table : LockTable τ) (name : τ) :
    (table.release name).tickets = table.tickets.eraseP (·.name = name) := by
  unfold release ticket?
  cases hfind : table.tickets.find? (·.name = name) with
  | none => exact (List.eraseP_of_forall_not (List.find?_eq_none.mp hfind)).symm
  | some t => exact tickets_prune _ _

theorem tickets_abandon (table : LockTable τ) (name : τ) :
    (table.abandon name).tickets = table.tickets.eraseP (·.name = name) := by
  unfold abandon ticket?
  cases hfind : table.tickets.find? (·.name = name) with
  | none => exact (List.eraseP_of_forall_not (List.find?_eq_none.mp hfind)).symm
  | some t => rfl

theorem line_release {table : LockTable τ} (h : table.Sound) (name : τ) (id : String) :
    (table.release name).line id = (table.line id).erase name := by
  unfold line
  rw [tickets_release, lineOf_eraseP h.distinct]

theorem line_abandon {table : LockTable τ} (h : table.Sound) (name : τ) (id : String) :
    (table.abandon name).line id = (table.line id).erase name := by
  unfold line
  rw [tickets_abandon, lineOf_eraseP h.distinct]

end LockTable

end Dockmaster
