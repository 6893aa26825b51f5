import Dockmaster.Operation.Basic
import Dockmaster.Proofs.Operation.Spelling
import Dockmaster.Proofs.World.Residents
import Mathlib.Logic.Function.Basic

/-!
# Daemons that keep what they are given

A daemon is dependable (`Dependable`) if nothing goes wrong with what an update asks for: it tells
the whole record of a container, stores what it is asked to create under the name with a slash in
front and under an id that no container has, and changes no other container than the one that a
request names. Its containers are seen through a function from ids, so what a request does to them
is an update of this function.

The daemon in memory is dependable if no failure is planned and it is always given an unused id for
the next container (`Stocked.dependable`).
-/

namespace Dockmaster

/-- A container apart from its networks. -/
def Resident.apart (resident : Resident) : Resident :=
  { resident with info := { resident.info with networks := none } }

/-- Whether a container holds what a request for a new one gives, verbatim. -/
def Resident.Holds (resident : Resident) (name : String) (config : CreateConfig) : Prop :=
  resident.info.name = some ("/" ++ name) ∧
    resident.info.config = some ⟨some config.image, config.settings⟩ ∧
    resident.info.hostConfig = config.hostConfig

open Function (update)

/-- **A daemon on which updates succeed.** `find?` tells the container with an id. -/
structure Dependable {σ : Type} (server : Operation.Server σ)
    (find? : σ → String → Option Resident) : Prop where
  /-- A record tells the id of its container, if it tells one. -/
  told : ∀ {s id resident}, find? s id = some resident → resident.info.id.getD id = id
  /-- Looking a container up changes none. -/
  looked : ∀ s reference, find? (server s (.inspect reference)).1 = find? s
  /-- Looking a container up by its id tells its record. -/
  inspected : ∀ {s id resident}, find? s id = some resident →
    (server s (.inspect id)).2 = .ok resident.info
  /-- Images can be pulled. -/
  pulled : ∀ s image, (server s (.pull image)).2 = .ok () ∧
    find? (server s (.pull image)).1 = find? s
  /-- A container can be stopped, unless it is stopped already. -/
  stopped : ∀ {s id resident} grace, find? s id = some resident →
    ((server s (.stop id grace)).2 = .ok () ∨
      ∃ message, (server s (.stop id grace)).2 = .error (.response 304 message)) ∧
    ∃ changed, find? (server s (.stop id grace)).1 = update (find? s) id (some changed)
  /-- A container can be removed by force. -/
  removed : ∀ {s id resident}, find? s id = some resident →
    (server s (.remove id true)).2 = .ok () ∧
      find? (server s (.remove id true)).1 = update (find? s) id none
  /-- A container can be created under a name that no other has. Its id is new. -/
  created : ∀ {s name} config,
    (∀ id resident, find? s id = some resident → resident.info.name ≠ some ("/" ++ name)) →
    ∃ id resident, (server s (.create name config)).2 = .ok id ∧ find? s id = none ∧
      find? (server s (.create name config)).1 = update (find? s) id (some resident) ∧
      resident.Holds name config
  /-- Connecting a container to a network changes nothing but its networks, if it succeeds. -/
  connected : ∀ {s id resident} network aliases, find? s id = some resident →
    ∃ changed, find? (server s (.connect network id aliases)).1 =
      update (find? s) id (some changed) ∧ changed.apart = resident.apart
  /-- A container can be started. -/
  started : ∀ {s id resident}, find? s id = some resident →
    (server s (.start id)).2 = .ok () ∧
      find? (server s (.start id)).1 = update (find? s) id (some { resident with running := true })

/-! ### The daemon in memory -/

namespace Directory

variable {α : Type}

theorem find?_put (key : String) (value : α) (dir : Directory α) :
    (find? · (put key value dir)) = update (find? · dir) key (some value) := by
  funext other
  by_cases h : other = key
  · subst h
    rw [find?_put_self, Function.update_self]
  · rw [find?_put_of_ne h, Function.update_of_ne h]

theorem find?_remove (key : String) (dir : Directory α) :
    (find? · (remove key dir)) = update (find? · dir) key none := by
  funext other
  by_cases h : other = key
  · subst h
    rw [find?_remove_self, Function.update_self]
  · rw [find?_remove_of_ne h, Function.update_of_ne h]

end Directory

namespace ScriptedDaemon

variable {daemon : ScriptedDaemon}

/-- The container with an id. -/
def resident? (daemon : ScriptedDaemon) (id : String) : Option Resident :=
  daemon.residents.find? id

/-- No request puts the containers out of order. -/
theorem sorted_execute (h : daemon.residents.Sorted) (request : Request) :
    (daemon.execute request).1.residents.Sorted := by
  have effect := effect_execute daemon request
  generalize (daemon.execute request).1 = after, (daemon.execute request).2 = answer at effect
  cases effect with
  | refused failed => exact h
  | asked looks => exact h
  | pulled image => exact h
  | altered done => exact Directory.sorted_put _ _ h
  | removed force named => exact Directory.sorted_remove _ h
  | created name config id nextIds => exact Directory.sorted_put _ _ h

/-- An id that no container has: it is longer than all of theirs together. -/
def unusedId (daemon : ScriptedDaemon) : String :=
  String.ofList ('x' :: daemon.residents.flatMap (·.1.toList))

theorem resident?_unusedId (daemon : ScriptedDaemon) : daemon.resident? daemon.unusedId = none := by
  cases hfind : daemon.resident? daemon.unusedId with
  | none => rfl
  | some resident =>
    have hmem := Directory.mem_of_find? hfind
    have hkey : daemon.unusedId.toList ∈ daemon.residents.map (·.1.toList) :=
      List.mem_map.mpr ⟨_, hmem, rfl⟩
    have hle := (List.sublist_flatten_of_mem hkey).length_le
    rw [← List.flatMap_def] at hle
    -- it would have to be shorter than itself
    have hlength : daemon.unusedId.toList = 'x' :: daemon.residents.flatMap (·.1.toList) :=
      String.toList_ofList
    rw [hlength, List.length_cons] at hle
    omega

end ScriptedDaemon

/-- A daemon in memory in which every container stands under the id in its record, in order. -/
structure Stocked where
  /-- The daemon. -/
  daemon : ScriptedDaemon
  /-- The containers stand in order. -/
  sorted : daemon.residents.Sorted
  /-- Every container stands under its id. -/
  keyed : daemon.Keyed

namespace Stocked

/-- The container with an id. -/
def find? (s : Stocked) (id : String) : Option Resident := s.daemon.resident? id

/-- The daemon with an unused id for the next container. -/
def restocked (s : Stocked) : Stocked :=
  ⟨{ s.daemon with nextIds := [s.daemon.unusedId] }, s.sorted, s.keyed⟩

/-- The daemon after a request, which does not fail as planned. -/
def after (s : Stocked) (request : Request) : Stocked :=
  ⟨(s.daemon.execute request).1, ScriptedDaemon.sorted_execute s.sorted request,
    ScriptedDaemon.keyed_execute s.keyed request⟩

/-- Serves a request with an unused id at hand. -/
def server : Operation.Server Stocked := fun s request =>
  (s.restocked.after request, (s.restocked.daemon.execute request).2)

section Requests

variable {s : Stocked} {id : String} {resident : Resident}

theorem lookup_eq (found : s.find? id = some resident) :
    s.daemon.lookup id = .ok (id, resident) := by
  have hsome : (s.daemon.residents.find? id).isSome := by
    rw [← ScriptedDaemon.resident?, ← find?, found]
    rfl
  exact ScriptedDaemon.lookup_of_resolve? (ScriptedDaemon.resolve?_of_isSome_find? hsome) found

/-- A change of one container. -/
theorem change_eq (found : s.find? id = some resident)
    (f : Resident → Except DaemonFault Resident) :
    s.daemon.change id f =
      match f resident with
      | .ok changed => (s.daemon.put id changed, .ok ())
      | .error fault => (s.daemon, .error fault) := by
  cases hf : f resident <;> simp only [ScriptedDaemon.change, lookup_eq found, hf]

theorem resident?_put (daemon : ScriptedDaemon) (id : String) (resident : Resident) :
    (daemon.put id resident).resident? = update daemon.resident? id (some resident) :=
  Directory.find?_put id resident daemon.residents

theorem hasName_eq_false {name : String}
    (free : ∀ id resident, s.find? id = some resident → resident.info.name ≠ some ("/" ++ name)) :
    s.daemon.hasName name = false := by
  rw [ScriptedDaemon.hasName, List.any_eq_false]
  rintro ⟨id, resident⟩ hmem hname
  exact free id resident ((Directory.mem_iff_find? s.sorted).mp hmem) (of_decide_eq_true hname)

end Requests

/-- **The daemon in memory is dependable.** -/
theorem dependable : Dependable server find? where
  told := by
    intro s id resident found
    rw [s.keyed _ (Directory.mem_of_find? found)]
    rfl
  looked _ _ := rfl
  inspected := by
    intro s id resident found
    have hlookup : s.restocked.daemon.lookup id = .ok (id, resident) := lookup_eq found
    change (s.restocked.daemon.lookup id).map (·.2.info) = _
    rw [hlookup]
    rfl
  pulled _ _ := ⟨rfl, rfl⟩
  stopped := by
    intro s id resident grace found
    have hchange := change_eq (s := s.restocked) found fun resident =>
      if resident.running then .ok { resident with running := false }
      else .error (.response 304 "")
    cases hrunning : resident.running with
    | true =>
      rw [hrunning, if_pos rfl] at hchange
      exact ⟨.inl (congrArg Prod.snd hchange), _,
        (congrArg (·.1.resident?) hchange).trans (resident?_put _ _ _)⟩
    | false =>
      rw [hrunning, if_neg Bool.false_ne_true] at hchange
      refine ⟨.inr ⟨_, congrArg Prod.snd hchange⟩, resident, ?_⟩
      rw [← found, Function.update_eq_self]
      exact congrArg (·.1.resident?) hchange
  removed := by
    intro s id resident found
    have hlookup : s.restocked.daemon.lookup id = .ok (id, resident) := lookup_eq found
    have hremove : s.restocked.daemon.execute (.remove id true) =
        ({ s.restocked.daemon with residents := s.daemon.residents.remove id }, .ok ()) := by
      rw [ScriptedDaemon.execute, hlookup]
      dsimp only
      rw [Bool.not_true, Bool.and_false, if_neg Bool.false_ne_true]
      rfl
    exact ⟨congrArg Prod.snd hremove,
      (congrArg (·.1.resident?) hremove).trans (Directory.find?_remove _ _)⟩
  created := by
    intro s name config free
    have hcreate : s.restocked.daemon.execute (.create name config) =
        (({ s.daemon with nextIds := [] } : ScriptedDaemon).put s.daemon.unusedId
          (.created s.daemon.unusedId name config), .ok s.daemon.unusedId) := by
      rw [ScriptedDaemon.execute, hasName_eq_false (s := s.restocked) free,
        if_neg Bool.false_ne_true]
      rfl
    exact ⟨_, _, congrArg Prod.snd hcreate, s.daemon.resident?_unusedId,
      (congrArg (·.1.resident?) hcreate).trans (resident?_put _ _ _), rfl, rfl, rfl⟩
  connected := by
    intro s id resident network aliases found
    have hchange := change_eq (s := s.restocked) found fun resident =>
      .ok (resident.connected ⟨network, aliases⟩)
    exact ⟨resident.connected ⟨network, aliases⟩,
      (congrArg (·.1.resident?) hchange).trans (resident?_put _ _ _), rfl⟩
  started := by
    intro s id resident found
    have hchange := change_eq (s := s.restocked) found fun resident =>
      .ok { resident with running := true }
    exact ⟨congrArg Prod.snd hchange,
      (congrArg (·.1.resident?) hchange).trans (resident?_put _ _ _)⟩

end Stocked

end Dockmaster
