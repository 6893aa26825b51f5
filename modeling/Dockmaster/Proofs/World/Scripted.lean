import Dockmaster.Daemon.Scripted
import Dockmaster.Proofs.Directory
import Dockmaster.Proofs.World.Daemon

/-!
# The daemon in memory is honest

The daemon in memory is honest as long as its containers are kept under the ids in their records
(`ScriptedDaemon.honest_execute`), and no request changes that (`keyed_execute`). A run with it is
lawful if every id names its container for one stretch of the run and nothing else at any time
(`World.lawful_of_lives`).
-/

namespace Dockmaster

namespace ScriptedDaemon

/-- Whether the containers are kept under the ids in their records. -/
def Keyed (daemon : ScriptedDaemon) : Prop :=
  ∀ entry ∈ daemon.residents, entry.2.info.id = some entry.1

section Keyed

variable {daemon : ScriptedDaemon}

theorem Keyed.put (h : daemon.Keyed) {key : String} {resident : Resident}
    (hid : resident.info.id = some key) : (daemon.put key resident).Keyed := by
  intro entry hmem
  rcases Directory.mem_put hmem with rfl | hmem
  · exact hid
  · exact h entry hmem

theorem lookup_eq_ok {reference key : String} {resident : Resident}
    (h : daemon.lookup reference = .ok (key, resident)) :
    daemon.resolve? reference = some key ∧ daemon.residents.find? key = some resident := by
  unfold lookup at h
  split at h
  · rename_i key' hresolve
    split at h
    · rename_i resident' hfind
      cases h
      exact ⟨hresolve, hfind⟩
    · cases h
  · cases h

/-- A change that leaves the id in the record alone. -/
theorem Keyed.change (h : daemon.Keyed) (reference : String)
    {f : Resident → Except DaemonFault Resident}
    (hf : ∀ resident changed, f resident = .ok changed → changed.info.id = resident.info.id) :
    (daemon.change reference f).1.Keyed := by
  unfold ScriptedDaemon.change
  split
  · rename_i key resident hlookup
    split
    · rename_i changed hchanged
      have hmem := Directory.mem_of_find? (lookup_eq_ok hlookup).2
      exact h.put ((hf _ _ hchanged).trans (h _ hmem))
    · exact h
  · exact h

/-- **No request takes a container from its key.** -/
theorem keyed_execute (h : daemon.Keyed) (request : Request) :
    (daemon.execute request).1.Keyed := by
  cases request with
  | list all => exact h
  | inspect reference => exact h
  | listImages image => exact h
  | pull image => exact h
  | stop reference grace =>
    refine h.change reference fun resident changed hchanged => ?_
    split at hchanged <;> cases hchanged
    rfl
  | restart reference grace =>
    refine h.change reference fun resident changed hchanged => ?_
    cases hchanged
    rfl
  | remove reference force =>
    unfold execute
    dsimp only
    split
    · split
      · exact h
      · exact fun entry hmem => h entry (List.mem_of_mem_filter hmem)
    · exact h
  | create name config =>
    unfold execute
    dsimp only
    split
    · exact h
    · exact Keyed.put (fun entry hmem => h entry hmem) rfl
  | start reference =>
    refine h.change reference fun resident changed hchanged => ?_
    cases hchanged
    rfl
  | connect network container aliases =>
    refine h.change container fun resident changed hchanged => ?_
    cases hchanged
    rfl

theorem isSome_find?_of_resolve? {reference key : String}
    (h : daemon.resolve? reference = some key) : (daemon.residents.find? key).isSome := by
  unfold resolve? at h
  split_ifs at h with hfound
  · obtain rfl := Option.some.inj h
    exact hfound
  · split at h
    · rename_i key' resident hnamed
      obtain rfl := Option.some.inj h
      exact Directory.isSome_find?_of_mem (List.mem_of_find?_eq_some hnamed)
    · split at h
      · rename_i key' resident hfilter
        obtain rfl := Option.some.inj h
        have hmem : (key', resident) ∈ [(key', resident)] := List.mem_singleton_self _
        rw [← hfilter] at hmem
        exact Directory.isSome_find?_of_mem (List.mem_of_mem_filter hmem)
      · cases h

theorem resolve?_of_isSome_find? {key : String} (h : (daemon.residents.find? key).isSome) :
    daemon.resolve? key = some key := by
  unfold resolve?
  rw [if_pos h]

/-- **The daemon in memory is honest.** -/
theorem honest_execute (h : daemon.Keyed) : World.Honest execute resolve? daemon where
  named hresolve := resolve?_of_isSome_find? (isSome_find?_of_resolve? hresolve)
  told := by
    intro reference info hok
    have hlookup : (daemon.lookup reference).map (·.2.info) = .ok info := hok
    cases hfound : daemon.lookup reference with
    | error fault =>
      rw [hfound] at hlookup
      cases hlookup
    | ok found =>
      obtain ⟨key, resident⟩ := found
      rw [hfound] at hlookup
      cases hlookup
      obtain ⟨hresolve, hfind⟩ := lookup_eq_ok hfound
      exact ⟨key, hresolve, h _ (Directory.mem_of_find? hfind)⟩
  missing := by
    intro reference hnone
    have hlookup : daemon.lookup reference = .error (noSuchContainer reference) := by
      unfold lookup
      rw [hnone]
    refine ⟨"No such container: " ++ reference, ?_⟩
    show (daemon.lookup reference).map (·.2.info) = _
    rw [hlookup]
    rfl
  removed := by
    intro reference force hok
    unfold execute at hok ⊢
    dsimp only at hok ⊢
    cases hfound : daemon.lookup reference with
    | error fault =>
      rw [hfound] at hok
      cases hok
    | ok found =>
      obtain ⟨key, resident⟩ := found
      rw [hfound] at hok
      dsimp only at hok ⊢
      split_ifs at hok ⊢
      -- whatever a reference names afterwards is kept under its key, and nothing is under this one
      refine ⟨key, (lookup_eq_ok hfound).1, fun hresolve => ?_⟩
      have hsome := isSome_find?_of_resolve? hresolve
      rw [Directory.find?_remove_self] at hsome
      cases hsome

end Keyed

end ScriptedDaemon

namespace World

/-- What every request to the daemon keeps holds in every run. -/
theorem daemonAfter_induction {σ : Type} {server : Operation.Server σ} {P : σ → Prop}
    (hserver : ∀ s request, P s → P (server s request).1) {w : World σ} (hstart : P w.daemon)
    (events : List Event) : P (w.daemonAfter server events) := by
  unfold daemonAfter
  induction events generalizing w with
  | nil => exact hstart
  | cons event rest ih =>
    refine @ih (w.step server event) ?_
    have turn := turn_step server w event
    generalize w.step server event = after, w.engineEvent? event = driven,
      w.service? server event = service at turn ⊢
    cases turn with
    | served fault flight =>
      cases fault with
      | none => exact hserver _ _ hstart
      | some fault => exact hstart
    | _ => exact hstart

/-- **A lawful run**: the containers have ids of a certain list, and each of these names its
container from some moment of the run up to another, and nothing else at any time. -/
theorem lawful_of_lives {w : World ScriptedDaemon} {events : List Event} {ids : List String}
    (keyed : w.daemon.Keyed)
    (known : ∀ i < events.length + 1,
      ∀ entry ∈ (w.daemonAfter ScriptedDaemon.execute (events.take i)).residents, entry.1 ∈ ids)
    (lives : ∀ id ∈ ids, ∃ birth death : Nat, ∀ i < events.length + 1,
      (w.daemonAfter ScriptedDaemon.execute (events.take i)).resolve? id =
        if birth ≤ i ∧ i < death then some id else none) :
    Lawful ScriptedDaemon.execute ScriptedDaemon.resolve? w events := by
  have htake {past : List Event} (h : past <+: events) :
      past = events.take past.length ∧ past.length < events.length + 1 :=
    ⟨List.prefix_iff_eq_take.mp h, Nat.lt_succ_of_le h.length_le⟩
  have hlives {past : List Event} (hpast : past <+: events) {reference id : String}
      (h : (w.daemonAfter ScriptedDaemon.execute past).resolve? reference = some id) :
      ∃ birth death : Nat, ∀ {later}, later <+: events →
        (w.daemonAfter ScriptedDaemon.execute later).resolve? id =
          if birth ≤ later.length ∧ later.length < death then some id else none := by
    obtain ⟨resident, hfind⟩ :=
      Option.isSome_iff_exists.mp (ScriptedDaemon.isSome_find?_of_resolve? h)
    obtain ⟨heq, hlength⟩ := htake hpast
    rw [heq] at hfind
    obtain ⟨birth, death, hlife⟩ := lives id (known _ hlength _ (Directory.mem_of_find? hfind))
    refine ⟨birth, death, fun {later} hlater => ?_⟩
    obtain ⟨heq, hlength⟩ := htake hlater
    rw [← hlife later.length hlength, ← heq]
  refine ⟨fun {past} _ => ?_, fun hpast hlater hid hother => ?_,
    fun {past later last id} hpast hlater hlast hid hnone => ?_⟩
  · have hkeyed : (w.daemonAfter ScriptedDaemon.execute past).Keyed :=
      @daemonAfter_induction _ ScriptedDaemon.execute ScriptedDaemon.Keyed
        (fun _ request h => ScriptedDaemon.keyed_execute h request) w keyed past
    exact ScriptedDaemon.honest_execute hkeyed
  · obtain ⟨birth, death, hlife⟩ := hlives (hpast.trans hlater) hid
    rw [hlife hlater] at hother
    split_ifs at hother
    exact (Option.some.inj hother).symm
  · obtain ⟨birth, death, hlife⟩ := hlives (hpast.trans (hlater.trans hlast)) hid
    have hpl := hpast.length_le
    have hll := hlater.length_le
    rw [hlife (hpast.trans (hlater.trans hlast))] at hid
    rw [hlife (hlater.trans hlast)] at hnone
    rw [hlife hlast]
    -- it was born before it was there, so it was not there later because it was dead
    split_ifs at hid hnone ⊢ with hthere hgone hback
    · omega
    · rfl

end World

end Dockmaster
