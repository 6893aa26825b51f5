import Dockmaster.Proofs.Engine.Run
import Dockmaster.Proofs.Lock.Line

/-!
# Who has which lock

In every legal run the locks and the phases of the operations agree (`Engine.Sound`): an operation
stands in the line of the one id that it knows its container by, from the moment when it knows the
id until it is over, and an operation in a phase that holds the lock is the first of its line. So
two operations never hold the lock of one id (`Sound.eq_of_held`).
-/

namespace Dockmaster.Engine

/-- **The invariant of the engine.** -/
structure Sound (engine : Engine) : Prop where
  /-- The lock table is sound. -/
  locks : engine.locks.Sound
  /-- The operations in the line of an id are those that know their container by it. -/
  lined : ∀ {n id}, n ∈ engine.locks.line id ↔
    ∃ op, engine.find? n = some op ∧ op.fullId? = some id
  /-- An operation that holds a lock is the first of its line. -/
  first : ∀ {n op id}, engine.find? n = some op → op.heldLock? = some id →
    (engine.locks.line id).head? = some n

theorem sound_start (guard : Guard) : (start guard).Sound where
  locks := LockTable.sound_empty
  lined := by simp [start, find?]
  first h := by simp [start, find?] at h

section Sound

variable {engine : Engine} {n : Nat}

/-- An operation that does not know its container is in no line. -/
theorem Sound.not_mem_line (h : engine.Sound) {op : Operation} (live : engine.find? n = some op)
    (unknown : op.fullId? = none) (id : String) : n ∉ engine.locks.line id := by
  intro hmem
  obtain ⟨op', hop', hid⟩ := h.lined.mp hmem
  obtain rfl := Option.some.inj (live.symm.trans hop')
  rw [unknown] at hid
  cases hid

/-- **Mutual exclusion.** Two operations never hold the lock of one id. -/
theorem Sound.eq_of_held (h : engine.Sound) {k : Nat} {op other : Operation} {id : String}
    (hn : engine.find? n = some op) (hk : engine.find? k = some other)
    (held : op.heldLock? = some id) (held' : other.heldLock? = some id) : n = k :=
  Option.some.inj ((h.first hn held).symm.trans (h.first hk held'))

theorem Sound.owner?_of_held (h : engine.Sound) {op : Operation} {id : String}
    (hn : engine.find? n = some op) (held : op.heldLock? = some id) :
    engine.locks.owner? id = some n := by
  rw [h.locks.owner?_eq]
  exact h.first hn held

/-! ### What keeps the invariant -/

/-- The invariant is kept if one operation alone changes and its place in the lines with it. -/
theorem Sound.changed {after : Engine} (h : engine.Sound)
    (others : ∀ k, k ≠ n → after.find? k = engine.find? k) (locks : after.locks.Sound)
    (lined : ∀ id, n ∈ after.locks.line id ↔
      ∃ op, after.find? n = some op ∧ op.fullId? = some id)
    (first : ∀ op id, after.find? n = some op → op.heldLock? = some id →
      (after.locks.line id).head? = some n)
    (kept : ∀ k id, k ≠ n → (k ∈ after.locks.line id ↔ k ∈ engine.locks.line id))
    (ahead : ∀ k id, k ≠ n → (engine.locks.line id).head? = some k →
      (after.locks.line id).head? = some k) : after.Sound where
  locks := locks
  lined := by
    intro k id
    by_cases hk : k = n
    · rw [hk]
      exact lined id
    · rw [kept k id hk, others k hk]
      exact h.lined
  first := by
    intro k op id hfind hheld
    by_cases hk : k = n
    · subst hk
      exact first op id hfind hheld
    · rw [others k hk] at hfind
      exact ahead k id hk (h.first hfind hheld)

/-- An operation that knows of the same lock as before needs no change of the locks. -/
theorem Sound.put (h : engine.Sound) {next : Operation}
    (known : ∀ id, next.fullId? = some id ↔ ∃ op, engine.find? n = some op ∧ op.fullId? = some id)
    (held : ∀ id, next.heldLock? = some id → (engine.locks.line id).head? = some n) :
    (engine.put n next).Sound := by
  refine h.changed (fun k hk => find?_put_of_ne _ _ _ hk) h.locks ?_ ?_ (fun _ _ _ => Iff.rfl)
    (fun _ _ _ => id)
  · intro id
    rw [find?_put_self]
    refine (h.lined.trans (known id).symm).trans ?_
    constructor
    · exact fun hid => ⟨next, rfl, hid⟩
    · rintro ⟨_, ⟨⟩, hid⟩
      exact hid
  · intro op id hfind hheld
    rw [find?_put_self] at hfind
    obtain rfl := Option.some.inj hfind
    exact held id hheld

/-- An operation that gets to know its container asks for the lock. -/
theorem Sound.acquire (h : engine.Sound) {op next : Operation} {id : String}
    (live : engine.find? n = some op) (unknown : op.fullId? = none)
    (known : next.fullId? = some id)
    (held : ∀ j, next.heldLock? = some j → (engine.locks.acquire id n).2 = true) :
    ({ engine with locks := (engine.locks.acquire id n).1 }.put n next).Sound := by
  have hnot := h.not_mem_line live unknown
  have hline := LockTable.line_acquire h.locks id n
  have hnew : n ∉ engine.locks.tickets.map (·.name) := by
    intro hmem
    obtain ⟨t, ht, hname⟩ := List.mem_map.mp hmem
    exact hnot t.id (mem_lineOf.mpr ⟨t, ht, rfl, hname⟩)
  refine h.changed (fun k hk => find?_put_of_ne _ _ _ hk) (h.locks.acquire hnew) ?_ ?_ ?_ ?_
  · intro j
    show n ∈ (engine.locks.acquire id n).1.line j ↔ _
    rw [hline, find?_put_self]
    constructor
    · intro hmem
      rcases List.mem_append.mp hmem with hmem | hmem
      · exact absurd hmem (hnot j)
      · split_ifs at hmem with hj
        · exact ⟨next, rfl, hj ▸ known⟩
        · cases hmem
    · rintro ⟨_, ⟨⟩, hj⟩
      obtain rfl : id = j := Option.some.inj (known.symm.trans hj)
      rw [if_pos rfl]
      exact List.mem_append_right _ (List.mem_singleton_self n)
  · intro op j hfind hheld
    rw [find?_put_self] at hfind
    obtain rfl := Option.some.inj hfind
    obtain rfl : id = j :=
      Option.some.inj (known.symm.trans (Operation.fullId?_eq_some_iff.mpr (.inr hheld)))
    -- it has the lock at once only if nobody was in the line
    have hempty : engine.locks.line id = [] := by
      rw [← List.isEmpty_iff, ← LockTable.acquire_held h.locks id n]
      exact held id hheld
    show ((engine.locks.acquire id n).1.line id).head? = some n
    rw [hline, hempty, if_pos rfl]
    rfl
  · intro k j hk
    show k ∈ (engine.locks.acquire id n).1.line j ↔ _
    rw [hline, List.mem_append]
    split_ifs with hj
    · simp [hk]
    · simp
  · intro k j hk hhead
    show ((engine.locks.acquire id n).1.line j).head? = some k
    rw [hline, List.head?_append, hhead]
    rfl

theorem Sound.locksWithout (h : engine.Sound) {op : Operation} (live : engine.find? n = some op) :
    (engine.locksWithout n op).Sound ∧
      ∀ id, (engine.locksWithout n op).line id = (engine.locks.line id).erase n := by
  unfold Engine.locksWithout
  cases hheld : op.heldLock? with
  | some id =>
    exact ⟨h.locks.release (h.first live hheld), LockTable.line_release h.locks n⟩
  | none =>
    cases hawaited : op.awaitedLock? with
    | some id =>
      have hmem : n ∈ engine.locks.line id :=
        h.lined.mpr ⟨op, live, Operation.fullId?_eq_some_iff.mpr (.inl hawaited)⟩
      exact ⟨h.locks.abandon hmem, LockTable.line_abandon h.locks n⟩
    | none =>
      refine ⟨h.locks, fun id => (List.erase_of_not_mem fun hmem => ?_).symm⟩
      obtain ⟨op', hop', hid⟩ := h.lined.mp hmem
      obtain rfl := Option.some.inj (live.symm.trans hop')
      -- whoever knows its container waits for the lock or holds it
      rcases Operation.fullId?_eq_some_iff.mp hid with hid | hid
      · rw [hawaited] at hid
        cases hid
      · rw [hheld] at hid
        cases hid

/-- An operation that is over leaves its line. -/
theorem Sound.discard (h : engine.Sound) {op : Operation} (live : engine.find? n = some op) :
    ({ engine with locks := engine.locksWithout n op }.discard n).Sound := by
  obtain ⟨hsound, hline⟩ := h.locksWithout live
  have hnodup : ∀ id, (engine.locks.line id).Nodup := fun _ => nodup_lineOf h.locks.distinct
  refine h.changed (fun k hk => find?_discard_of_ne _ _ hk) hsound ?_ ?_ ?_ ?_
  · intro id
    show n ∈ (engine.locksWithout n op).line id ↔ _
    rw [hline, find?_discard_self]
    constructor
    · exact fun hmem => absurd hmem (hnodup id).not_mem_erase
    · rintro ⟨_, ⟨⟩, _⟩
  · intro other id hfind
    rw [find?_discard_self] at hfind
    cases hfind
  · intro k id hk
    show k ∈ (engine.locksWithout n op).line id ↔ _
    rw [hline]
    exact List.mem_erase_of_ne hk
  · intro k id hk hhead
    show ((engine.locksWithout n op).line id).head? = some k
    rw [hline]
    exact head?_erase_of_ne hhead hk

end Sound

/-! ### The invariant in every run -/

/-- **One event keeps the invariant.** -/
theorem Sound.step {engine : Engine} (h : engine.Sound) {event : Event}
    (fresh : ∀ n op, event = .begin n op → engine.find? n = none ∧ op.IsNew) :
    (engine.step event).1.Sound := by
  have turn := turn_step engine event
  generalize (engine.step event).1 = after, (engine.step event).2 = notices at turn
  cases turn with
  | begun n op =>
    obtain ⟨hnone, hnew⟩ := fresh n op rfl
    refine h.put (fun id => ?_) (fun id hheld => ?_)
    · simp [hnew.fullId?_eq_none, hnone]
    · have hid := Operation.fullId?_eq_some_iff.mpr (.inr hheld)
      rw [hnew.fullId?_eq_none] at hid
      cases hid
  | idle _ => exact h
  | heard answers live asks goesOn free =>
    -- the operation keeps the lock that it has, if it has one
    obtain ⟨hfull, hheld⟩ := Operation.heldLock?_eq_of_free asks goesOn free
    refine h.put (fun id => ?_) (fun id hnext => h.first live (hheld ▸ hnext))
    simp [live, hfull]
  | queued answers live asks goesOn waits taken =>
    have hnone := Operation.fullId?_eq_none_of_waits asks goesOn waits
    refine h.acquire live hnone (Operation.fullId?_eq_some_iff.mpr (.inl waits)) ?_
    intro id hheld
    rw [Operation.heldLock?_of_awaitedLock? waits] at hheld
    cases hheld
  | entered answers live asks goesOn waits free gets =>
    have hnone := Operation.fullId?_eq_none_of_waits asks goesOn waits
    have hheld := Operation.heldLock?_of_gets waits gets
    exact h.acquire live hnone (Operation.fullId?_eq_some_iff.mpr (.inr hheld)) fun _ _ => free
  | looked live waits owns gets =>
    -- the lock was handed to the operation before, when it came to the head of the line
    have hheld := Operation.heldLock?_of_gets waits gets
    have hmem := h.lined.mpr ⟨_, live, Operation.fullId?_eq_some_iff.mpr (.inl waits)⟩
    have hhead := (LockTable.isOwner_iff h.locks hmem).mp owns
    refine h.put (fun id => ?_) (fun id hid => ?_)
    · rw [Operation.fullId?_eq_some_iff.mpr (.inr hheld)]
      simp [live, Operation.fullId?_eq_some_iff.mpr (.inl waits)]
    · rw [hheld] at hid
      exact Option.some.inj hid ▸ hhead
  | returned answers live asks ends => exact h.discard live
  | cancelled live => exact h.discard live

/-- **The invariant holds in every legal run.** -/
theorem sound_after (guard : Guard) {events : List Event} (legal : Legal events) :
    ((start guard).after events).Sound := by
  induction events using List.reverseRecOn with
  | nil => exact sound_start guard
  | append_singleton past event ih =>
    rw [after_append, after_singleton]
    apply (ih legal.of_append).step
    rintro n op rfl
    refine ⟨(share_of_not_begins guard n legal.not_begins).1, legal.fresh n op ?_⟩
    exact List.mem_append_right _ (List.mem_singleton_self _)

end Dockmaster.Engine
