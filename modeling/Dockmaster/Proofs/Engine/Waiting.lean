import Dockmaster.Proofs.Engine.Protection

/-!
# Nobody waits for nothing

An operation waits for the lock of its container only behind another one that is under way, knows
the same container, has the lock, and does not depend on any other operation (`never_stuck`). The
first in the line of an id has the lock: it holds it, or it was handed it and has only to look. The
others in the line wait behind the first.

A line consists of the operations under way that know their container by the id, since whoever is
over has left it, in whatever way it ended. So a lock never belongs to an operation that is gone
(`Sound.knows_of_owner`), and the line of an id that no operation under way knows is empty: the next
one gets the lock with its first look at the container (`Sound.enters_alone`).
-/

namespace Dockmaster

namespace Operation

/-- An operation that knows its container and does not wait for the lock asks for something. -/
theorem request?_of_heldLock? {op : Operation} {id : String} (h : op.heldLock? = some id) :
    op.request?.isSome := by
  cases op with
  | manage action reference phase =>
    cases phase with
    | resolving => cases h
    | queueing fullId => cases h
    | _ => rfl
  | _ => cases h

end Operation

namespace Engine

open Lifecycle

/-- An operation under way knows its container by an id. -/
def Knows (engine : Engine) (n : Nat) (id : String) : Prop :=
  ∃ op, engine.find? n = some op ∧ op.fullId? = some id

/-- An operation under way waits for the lock of an id, and was not handed it yet. -/
def Waits (engine : Engine) (n : Nat) (id : String) : Prop :=
  (∃ op, engine.find? n = some op ∧ op.awaitedLock? = some id) ∧ engine.locks.isOwner n = false

/-- An operation under way depends on no other: it has asked the daemon for something, or it has
only to look to ask for its second inspection. -/
def CanGoOn (engine : Engine) (n : Nat) (id : String) : Prop :=
  (∃ op, engine.find? n = some op ∧ op.request?.isSome) ∨
    engine.asked n [.look n] = [.inspect id]

section Sound

variable {engine : Engine} {n : Nat} {id : String}

theorem Waits.knows (waits : engine.Waits n id) : engine.Knows n id := by
  obtain ⟨⟨op, live, awaits⟩, -⟩ := waits
  exact ⟨op, live, Operation.fullId?_eq_some_iff.mpr (.inl awaits)⟩

/-- An operation knows one id at most. -/
theorem Knows.unique {id' : String} (knows : engine.Knows n id) (knows' : engine.Knows n id') :
    id = id' := by
  obtain ⟨op, live, hid⟩ := knows
  obtain ⟨op', live', hid'⟩ := knows'
  obtain rfl := Option.some.inj (live.symm.trans live')
  exact Option.some.inj (hid.symm.trans hid')

/-! ### The owner of a lock -/

/-- **A lock belongs to an operation under way** that knows its container by the id of the lock. -/
theorem Sound.knows_of_owner (h : engine.Sound) (owns : engine.locks.owner? id = some n) :
    engine.Knows n id := by
  rw [h.locks.owner?_eq] at owns
  exact h.lined.mp (List.mem_of_head? owns)

/-- The owner of a lock finds that it has it. -/
theorem Sound.isOwner_of_owner (h : engine.Sound) (owns : engine.locks.owner? id = some n) :
    engine.locks.isOwner n = true := by
  refine (LockTable.isOwner_iff h.locks (h.lined.mpr (h.knows_of_owner owns))).mpr ?_
  rw [← h.locks.owner?_eq]
  exact owns

/-- The owner of a lock does not wait for any. -/
theorem Sound.not_waits_of_owner (h : engine.Sound) (owns : engine.locks.owner? id = some n)
    (id' : String) : ¬ engine.Waits n id' := by
  rintro ⟨-, hnot⟩
  rw [h.isOwner_of_owner owns] at hnot
  cases hnot

/-- An operation that was handed the lock asks for its second inspection when it looks. -/
theorem asked_look {op : Operation} (live : engine.find? n = some op)
    (awaits : op.awaitedLock? = some id) (owns : engine.locks.isOwner n = true) :
    engine.asked n [.look n] = [.inspect id] := by
  rw [asked_singleton]
  have turn := turn_step engine (.look n)
  generalize (engine.step (.look n)).1 = after, (engine.step (.look n)).2 = notices at turn
  cases turn with
  | idle hidle =>
    rcases hidle with hnone | hnot
    · exact absurd ⟨op, live, Option.isSome_of_eq_some awaits⟩ hnone
    · rw [owns] at hnot
      cases hnot
  | looked live' waits _ gets =>
    obtain rfl := Option.some.inj (live.symm.trans live')
    obtain ⟨action, reference, rfl⟩ := Operation.eq_of_awaitedLock? awaits
    cases gets
    exact asked?_issue_self ..

/-- The owner of a lock depends on no other operation. -/
theorem Sound.canGoOn_of_owner (h : engine.Sound) (owns : engine.locks.owner? id = some n) :
    engine.CanGoOn n id := by
  obtain ⟨op, live, hid⟩ := h.knows_of_owner owns
  rcases Operation.fullId?_eq_some_iff.mp hid with awaits | holds
  · exact .inr (asked_look live awaits (h.isOwner_of_owner owns))
  · exact .inl ⟨op, live, Operation.request?_of_heldLock? holds⟩

/-! ### Those who wait -/

/-- The lock of an id that an operation under way knows belongs to somebody. -/
theorem Sound.exists_owner (h : engine.Sound) (knows : engine.Knows n id) :
    ∃ k, engine.locks.owner? id = some k := by
  rw [h.locks.owner?_eq]
  have hmem : n ∈ engine.locks.line id := h.lined.mpr knows
  exact ⟨_, List.head?_eq_some_head (List.ne_nil_of_mem hmem)⟩

/-- **Whoever waits, waits behind another one** that has the lock. -/
theorem Sound.owner_of_waits (h : engine.Sound) (waits : engine.Waits n id) :
    ∃ k, k ≠ n ∧ engine.locks.owner? id = some k := by
  obtain ⟨k, owns⟩ := h.exists_owner waits.knows
  refine ⟨k, ?_, owns⟩
  rintro rfl
  exact h.not_waits_of_owner owns id waits

/-- **An operation that nobody shares its container with gets the lock at once.** -/
theorem Sound.enters_alone (h : engine.Sound) {action : Action} {reference : String}
    {answers : Answers} {info : InspectRecord}
    (live : engine.find? n = some (.manage action reference .resolving))
    (tells : answers (.inspect reference) = .ok info)
    (alone : ∀ k, ¬ engine.Knows k (info.id.getD reference)) :
    engine.asked n [.answer n answers] = [.inspect (info.id.getD reference)] ∧
      (engine.after [.answer n answers]).locks.owner? (info.id.getD reference) = some n := by
  have hsound : (engine.step (.answer n answers)).1.Sound :=
    h.step fun _ _ hbegin => nomatch hbegin
  have hempty : engine.locks.line (info.id.getD reference) = [] :=
    List.eq_nil_iff_forall_not_mem.mpr fun k hmem => alone k (h.lined.mp hmem)
  have hresume : (Operation.manage action reference .resolving).resume engine.guard answers =
      .running (.manage action reference (.queueing (info.id.getD reference))) := by
    simp only [Operation.resume, Lifecycle.resume]
    rw [tells]
    rfl
  rw [asked_singleton, after_singleton]
  have turn := turn_step engine (.answer n answers)
  generalize (engine.step (.answer n answers)).1 = after,
    (engine.step (.answer n answers)).2 = notices at turn hsound ⊢
  cases turn with
  | idle hidle =>
    -- the operation has asked for its first inspection
    change (engine.find? n).bind (·.request?) = none at hidle
    rw [live] at hidle
    cases hidle
  | heard _ live' asks goesOn free =>
    obtain rfl := Option.some.inj (live.symm.trans live')
    obtain rfl := Progress.running.inj (hresume.symm.trans goesOn)
    cases free
  | queued _ live' asks goesOn waits taken =>
    obtain rfl := Option.some.inj (live.symm.trans live')
    obtain rfl := Progress.running.inj (hresume.symm.trans goesOn)
    obtain rfl := Option.some.inj waits
    rw [LockTable.acquire_held h.locks, hempty] at taken
    cases taken
  | entered _ live' asks goesOn waits free gets =>
    obtain rfl := Option.some.inj (live.symm.trans live')
    obtain rfl := Progress.running.inj (hresume.symm.trans goesOn)
    obtain rfl := Option.some.inj waits
    cases gets
    exact ⟨asked?_issue_self .., hsound.owner?_of_held (find?_put_self ..) rfl⟩
  | returned _ live' asks ends =>
    obtain rfl := Option.some.inj (live.symm.trans live')
    rw [hresume] at ends
    cases ends

end Sound

/-- **No operation is ever stuck behind a lock.** In every state that a run can come to, whatever
the daemon answers, whoever fails or is cancelled: an operation that waits does so behind another
one under way that knows the same container, has its lock, does not wait itself and depends on no
other; an operation that is the only one to know its container does not wait; every lock belongs to
an operation under way; and if no operation under way knows a container, then the next one that
hears of it has the lock at once. -/
theorem never_stuck {guard : Guard} {events : List Event} (legal : Legal events) :
    (∀ n id, ((start guard).after events).Waits n id →
      ∃ k, k ≠ n ∧ ((start guard).after events).Knows k id ∧
        ((start guard).after events).locks.owner? id = some k ∧
        (∀ id', ¬ ((start guard).after events).Waits k id') ∧
        ((start guard).after events).CanGoOn k id) ∧
    (∀ n id, ((start guard).after events).Knows n id →
      (∀ k id', k ≠ n → ((start guard).after events).Knows k id' → id' ≠ id) →
        ∀ id', ¬ ((start guard).after events).Waits n id') ∧
    (∀ n id, ((start guard).after events).locks.owner? id = some n →
      ((start guard).after events).Knows n id) ∧
    (∀ id, (∀ k, ¬ ((start guard).after events).Knows k id) →
      ∀ n action reference answers info,
        ((start guard).after events).find? n = some (.manage action reference .resolving) →
        answers (.inspect reference) = .ok info → info.id.getD reference = id →
          ((start guard).after events).asked n [.answer n answers] = [.inspect id] ∧
          ((start guard).after (events ++ [.answer n answers])).locks.owner? id = some n) := by
  have hsound := sound_after guard legal
  refine ⟨?_, ?_, ?_, ?_⟩
  · intro n id waits
    obtain ⟨k, hne, owns⟩ := hsound.owner_of_waits waits
    exact ⟨k, hne, hsound.knows_of_owner owns, owns, hsound.not_waits_of_owner owns,
      hsound.canGoOn_of_owner owns⟩
  · intro n id knows alone id' waits
    obtain rfl := knows.unique waits.knows
    obtain ⟨k, hne, owns⟩ := hsound.owner_of_waits waits
    exact alone k _ hne (hsound.knows_of_owner owns) rfl
  · exact fun n id owns => hsound.knows_of_owner owns
  · rintro id alone n action reference answers info live tells rfl
    rw [after_append]
    exact hsound.enters_alone live tells alone

/-- Three operations meet at one container, and the first is cancelled while it has the lock. -/
def crowd : List Event :=
  [.begin 0 (.update "web"), .begin 1 (.stop "4f"), .begin 2 (.restart "4f1a"),
    .answer 0 (telling (recordOf "4f1a" "web")), .answer 1 (telling (recordOf "4f1a" "web")),
    .answer 2 (telling (recordOf "4f1a" "web")), .cancel 0]

/-- The third operation waits behind the second, which was handed the lock and has not looked. -/
theorem never_stuck_crowd :
    Legal crowd ∧ ((start ⟨[]⟩).after crowd).Waits 2 "4f1a" ∧
      ∃ k, k ≠ 2 ∧ ((start ⟨[]⟩).after crowd).Knows k "4f1a" ∧
        ((start ⟨[]⟩).after crowd).CanGoOn k "4f1a" := by
  have hlegal : Legal crowd := by
    refine ⟨fun n op hmem => ?_, by decide⟩
    obtain ⟨-, rfl⟩ | ⟨-, rfl⟩ | ⟨-, rfl⟩ :
        n = 0 ∧ op = .update "web" ∨ n = 1 ∧ op = .stop "4f" ∨ n = 2 ∧ op = .restart "4f1a" := by
      simpa [crowd] using hmem
    · rfl
    · rfl
    · rfl
  have hwaits : ((start ⟨[]⟩).after crowd).Waits 2 "4f1a" := ⟨⟨_, rfl, rfl⟩, rfl⟩
  obtain ⟨hbehind, -, -, -⟩ := @never_stuck ⟨[]⟩ crowd hlegal
  obtain ⟨k, hne, hknows, -, -, hgoes⟩ := hbehind 2 "4f1a" hwaits
  exact ⟨hlegal, hwaits, k, hne, hknows, hgoes⟩

end Engine

end Dockmaster
