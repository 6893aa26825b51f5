import Dockmaster.Proofs.Engine.Protection
import Dockmaster.Proofs.Operation.Alone
import Dockmaster.Proofs.World.Scripted

/-!
# Protection and the spelling of a reference

A container of the daemon in memory can be named by its id, by its name, or by a beginning of its id
that no other id has. Whoever stops, restarts or updates it is refused exactly if one of four texts
is an entry of the guard: the id, the name, the image, and the reference of the caller
(`refused_iff`). The first three are the same for all callers, so all callers are refused or none,
unless an entry is the reference of one of them and none of these three
(`refusal_by_spelling`). Such an entry is a beginning of the id; entries are compared exactly, so it
does not cover the container as such, but only those who spell it like this.
-/

namespace Dockmaster

open Lifecycle

/-- The texts that protect a container whatever it is called by: the key, the name without one
leading slash, and the image. -/
def Resident.texts (key : String) (resident : Resident) : List String :=
  [key, stripSlash (resident.info.name.getD ""), (resident.info.config.bind (·.image)).getD ""]

/-- A failure that is planned for all inspections or for none. -/
def PlannedFailure.Impartial (failure : PlannedFailure) : Prop :=
  ∀ reference other,
    (Request.inspect reference).matchesKey failure.key =
      (Request.inspect other).matchesKey failure.key

/-- An impartial plan fails two inspections alike. -/
theorem PlannedFailure.find_inspect_eq {failures : List PlannedFailure}
    (impartial : ∀ failure ∈ failures, failure.Impartial) (reference other : String) :
    find (.inspect reference) failures = find (.inspect other) failures := by
  induction failures with
  | nil => rfl
  | cons failure rest ih =>
    have hconcerns : failure.concerns (.inspect reference) = failure.concerns (.inspect other) := by
      unfold concerns
      rw [impartial failure List.mem_cons_self reference other]
    rw [find, find, hconcerns, ih fun failure hmem => impartial failure (.tail _ hmem)]

namespace ScriptedDaemon

variable {daemon : ScriptedDaemon} {guard : Guard} {reference key : String} {resident : Resident}

/-! ### What a reference names -/

theorem lookup_of_resolve? (names : daemon.resolve? reference = some key)
    (found : daemon.residents.find? key = some resident) :
    daemon.lookup reference = .ok (key, resident) := by
  unfold lookup
  rw [names]
  dsimp only
  rw [found]

/-- A name does not begin with the slash that the daemon puts in front. -/
theorem stripSlash_slash_append (name : String) : stripSlash ("/" ++ name) = name := by
  unfold stripSlash
  rw [String.toList_append]
  exact String.ofList_toList

/-- A reference that is neither the key nor the name of its container is a beginning of the key. -/
theorem beginning_of_resolve? (sorted : daemon.residents.Sorted)
    (names : daemon.resolve? reference = some key)
    (found : daemon.residents.find? key = some resident)
    (other : reference ∉ resident.texts key) : reference.toList <+: key.toList := by
  unfold resolve? at names
  split_ifs at names with hkey
  · obtain rfl := Option.some.inj names
    exact absurd List.mem_cons_self other
  · split at names
    · -- the reference is the name of the container
      rename_i key' resident' hnamed
      obtain rfl := Option.some.inj names
      have hname : resident'.info.name = some ("/" ++ reference) := by
        simpa using List.find?_some hnamed
      have hfound := (Directory.mem_iff_find? sorted).mp (List.mem_of_find?_eq_some hnamed)
      obtain rfl := Option.some.inj (found.symm.trans hfound)
      refine absurd ?_ other
      unfold Resident.texts
      rw [hname, Option.getD_some, stripSlash_slash_append]
      exact List.mem_cons_of_mem _ List.mem_cons_self
    · split at names
      · rename_i key' resident' hfilter
        obtain rfl := Option.some.inj names
        have hmem : (key', resident') ∈ [(key', resident')] := List.mem_singleton_self _
        rw [← hfilter] at hmem
        have hbegins := List.of_mem_filter hmem
        rw [Bool.and_eq_true] at hbegins
        exact List.isPrefixOf_iff_prefix.mp hbegins.2
      · cases names

/-! ### Who is refused -/

/-- Whether an operation, carried out alone, is refused because its container is protected. -/
def Refused (daemon : ScriptedDaemon) (guard : Guard) (action : Action) (reference : String) :
    Prop :=
  Operation.IsRefusal
    (Operation.run guard serve daemon (.manage action reference .resolving)).2

/-- Whether no failure is planned for an inspection of a reference, nor for one of a key after
it. -/
def Inspects (daemon : ScriptedDaemon) (reference key : String) : Prop :=
  (PlannedFailure.find (.inspect reference) daemon.failures).2 = none ∧
    (PlannedFailure.find (.inspect key)
      (PlannedFailure.find (.inspect reference) daemon.failures).1).2 = none

/-- Under an impartial plan it makes no difference what the first inspection is of. -/
theorem inspects_iff (impartial : ∀ failure ∈ daemon.failures, failure.Impartial)
    (reference other key : String) : daemon.Inspects reference key ↔ daemon.Inspects other key := by
  unfold Inspects
  rw [PlannedFailure.find_inspect_eq impartial reference other]

/-- What an inspection tells, if it does not fail as planned. -/
theorem serve_inspect_eq_ok (names : daemon.resolve? reference = some key)
    (found : daemon.residents.find? key = some resident) {info : InspectRecord} :
    (daemon.serve (.inspect reference)).2 = .ok info ↔
      (PlannedFailure.find (.inspect reference) daemon.failures).2 = none ∧
        resident.info = info := by
  unfold serve
  rcases PlannedFailure.find (.inspect reference) daemon.failures with ⟨failures, _ | fault⟩
  · have hlookup : ({ daemon with failures } : ScriptedDaemon).lookup reference =
        .ok (key, resident) := lookup_of_resolve? names found
    simp [execute, hlookup, Except.map]
  · simp

theorem serve_inspect_fst (daemon : ScriptedDaemon) (reference : String) :
    (daemon.serve (.inspect reference)).1 =
      { daemon with
        failures := (PlannedFailure.find (.inspect reference) daemon.failures).1 } := by
  unfold serve
  rcases PlannedFailure.find (.inspect reference) daemon.failures with ⟨failures, _ | fault⟩ <;> rfl

/-- **Who is refused.** Both inspections succeed, and an entry of the guard is the id, the name or
the image of the container, or the reference of the caller. -/
theorem refused_iff (keyed : daemon.Keyed) (names : daemon.resolve? reference = some key)
    (found : daemon.residents.find? key = some resident) (action : Action) :
    daemon.Refused guard action reference ↔
      daemon.Inspects reference key ∧
        ∃ text ∈ reference :: resident.texts key, text ∈ guard.entries := by
  have hid : resident.info.id.getD reference = key := by
    rw [keyed _ (Directory.mem_of_find? found)]
    rfl
  have hkey : daemon.resolve? key = some key :=
    resolve?_of_isSome_find? (Option.isSome_of_eq_some found)
  -- the second inspection is of the same container, whatever is left of the plan
  have hsecond (info : InspectRecord) :
      (serve (daemon.serve (.inspect reference)).1 (.inspect key)).2 = .ok info ↔
        (PlannedFailure.find (.inspect key)
          (PlannedFailure.find (.inspect reference) daemon.failures).1).2 = none ∧
        resident.info = info := by
    rw [serve_inspect_fst]
    exact @serve_inspect_eq_ok { daemon with
      failures := (PlannedFailure.find (.inspect reference) daemon.failures).1 } _ _ _ hkey found _
  have hveto : vetoed guard reference key resident.info = true ↔
      ∃ text ∈ reference :: resident.texts key, text ∈ guard.entries := vetoed_iff
  unfold Refused Inspects
  rw [Operation.refused_run_iff, ← hveto]
  constructor
  · rintro ⟨first, info, htold, hagain, hrefused⟩
    obtain ⟨hplan, rfl⟩ := (serve_inspect_eq_ok names found).mp htold
    rw [hid] at hagain hrefused
    obtain ⟨hplan', rfl⟩ := (hsecond info).mp hagain
    exact ⟨⟨hplan, hplan'⟩, hrefused⟩
  · rintro ⟨⟨hplan, hplan'⟩, hrefused⟩
    refine ⟨resident.info, resident.info, (serve_inspect_eq_ok names found).mpr ⟨hplan, rfl⟩, ?_⟩
    rw [hid]
    exact ⟨(hsecond _).mpr ⟨hplan', rfl⟩, hrefused⟩

/-- The guard has the reference of a caller as an entry, and nothing that protects the container
from all callers. -/
def ShieldsSpelling (guard : Guard) (key : String) (resident : Resident) (reference : String) :
    Prop :=
  reference ∈ guard.entries ∧ ∀ text ∈ resident.texts key, text ∉ guard.entries

/-- An entry is either for all callers or for those who spell it out. -/
theorem exists_entry_iff (guard : Guard) (key : String) (resident : Resident) (reference : String) :
    (∃ text ∈ reference :: resident.texts key, text ∈ guard.entries) ↔
      (∃ text ∈ resident.texts key, text ∈ guard.entries) ∨
        ShieldsSpelling guard key resident reference := by
  unfold ShieldsSpelling
  rw [List.exists_mem_cons_iff]
  by_cases hall : ∃ text ∈ resident.texts key, text ∈ guard.entries
  · exact ⟨fun _ => .inl hall, fun _ => .inr hall⟩
  · have hnone : ∀ text ∈ resident.texts key, text ∉ guard.entries := by
      intro text hmem hentry
      exact hall ⟨text, hmem, hentry⟩
    constructor
    · rintro (hentry | hentry)
      · exact .inr ⟨hentry, hnone⟩
      · exact .inl hentry
    · rintro (hentry | ⟨hentry, -⟩)
      · exact .inr hentry
      · exact .inl hentry

/-- **Protection and spelling.** An operation is refused exactly if its inspections succeed and an
entry of the guard is the id, the name or the image of the container, or the reference itself. So of
two references of one container, the guard refuses both or none, unless it shields one spelling
only. A spelling that is shielded alone is a beginning of the id, and not the id, the name or the
image, and whoever spells the container otherwise is not refused. -/
theorem refusal_by_spelling {other : String} (keyed : daemon.Keyed)
    (sorted : daemon.residents.Sorted) (impartial : ∀ failure ∈ daemon.failures, failure.Impartial)
    (names : daemon.resolve? reference = some key) (names' : daemon.resolve? other = some key)
    (action : Action) :
    ∃ resident, daemon.residents.find? key = some resident ∧
      (daemon.Refused guard action reference ↔
        daemon.Inspects reference key ∧
          ∃ text ∈ reference :: resident.texts key, text ∈ guard.entries) ∧
      ((ShieldsSpelling guard key resident reference ↔ ShieldsSpelling guard key resident other) →
        (daemon.Refused guard action reference ↔ daemon.Refused guard action other)) ∧
      (ShieldsSpelling guard key resident reference →
        reference.toList <+: key.toList ∧ reference ∉ resident.texts key ∧
        (¬ ShieldsSpelling guard key resident other → ¬ daemon.Refused guard action other)) := by
  obtain ⟨resident, found⟩ := Option.isSome_iff_exists.mp (isSome_find?_of_resolve? names)
  have hrefused := @refused_iff daemon guard reference key resident keyed names found action
  have hrefused' := @refused_iff daemon guard other key resident keyed names' found action
  refine ⟨resident, found, hrefused, fun same => ?_, fun shields => ?_⟩
  · rw [hrefused, hrefused', inspects_iff impartial reference other key, exists_entry_iff,
      exists_entry_iff, same]
  · have hother : reference ∉ resident.texts key := fun hmem => shields.2 _ hmem shields.1
    refine ⟨beginning_of_resolve? sorted names found hother, hother, fun hnot hrefusedOther => ?_⟩
    obtain ⟨-, hentries⟩ := hrefused'.mp hrefusedOther
    rcases (exists_entry_iff ..).mp hentries with ⟨text, hmem, hentry⟩ | hshields
    · exact shields.2 text hmem hentry
    · exact hnot hshields

/-- A daemon with one container, `web`. -/
def webOnly : ScriptedDaemon :=
  { residents := [("4f1a",
      { info := { id := some "4f1a", name := some "/web" }, running := true })] }

theorem keyed_webOnly : webOnly.Keyed := by
  intro entry hmem
  obtain rfl := List.mem_singleton.mp hmem
  rfl

/-- A guard with the full id refuses those who call `web` by its name as well as those who use a
beginning of the id. -/
theorem refusal_by_spelling_webOnly :
    webOnly.resolve? "web" = some "4f1a" ∧ webOnly.resolve? "4f" = some "4f1a" ∧
      (webOnly.Refused ⟨["4f1a"]⟩ .stop "web" ↔ webOnly.Refused ⟨["4f1a"]⟩ .stop "4f") := by
  have hnames : webOnly.resolve? "web" = some "4f1a" := rfl
  have hnames' : webOnly.resolve? "4f" = some "4f1a" := rfl
  obtain ⟨resident, hfound, -, hsame, -⟩ :=
    @refusal_by_spelling webOnly ⟨["4f1a"]⟩ "web" "4f1a" "4f" keyed_webOnly
      (List.pairwise_singleton _ _) nofun hnames hnames' .stop
  obtain rfl := Option.some.inj hfound
  refine ⟨hnames, hnames', hsame ?_⟩
  -- the full id is an entry for all callers
  constructor
  · exact fun shields => absurd List.mem_cons_self (shields.2 "4f1a" List.mem_cons_self)
  · exact fun shields => absurd List.mem_cons_self (shields.2 "4f1a" List.mem_cons_self)

/-- A daemon with one container, `web`, that fails whenever it is inspected by its name. -/
def webUnnamed : ScriptedDaemon := { webOnly with failures := [⟨"inspect:web", .timeout, 0, none⟩] }

/-- A guard with a beginning of the id refuses those who use it, and lets those stop `web` who call
it by its name. A failure that is planned for one spelling alone sets it apart, too. -/
theorem refused_by_beginning_only :
    (webOnly.Keyed ∧ webOnly.resolve? "4f" = some "4f1a" ∧ webOnly.resolve? "web" = some "4f1a" ∧
      webOnly.Refused ⟨["4f"]⟩ .stop "4f" ∧ ¬ webOnly.Refused ⟨["4f"]⟩ .stop "web") ∧
    (webUnnamed.Keyed ∧ webUnnamed.resolve? "4f" = some "4f1a" ∧
      webUnnamed.resolve? "web" = some "4f1a" ∧
      webUnnamed.Refused ⟨["4f1a"]⟩ .stop "4f" ∧ ¬ webUnnamed.Refused ⟨["4f1a"]⟩ .stop "web") := by
  have hkeyed : webUnnamed.Keyed := keyed_webOnly
  refine ⟨⟨keyed_webOnly, rfl, rfl, ?_, ?_⟩, hkeyed, rfl, rfl, ?_, ?_⟩
  · exact (refused_iff keyed_webOnly rfl rfl .stop).mpr ⟨⟨rfl, rfl⟩, by decide⟩
  · intro hrefused
    obtain ⟨-, hentry⟩ := (refused_iff keyed_webOnly rfl rfl .stop).mp hrefused
    revert hentry
    decide
  · exact (refused_iff hkeyed rfl rfl .stop).mpr ⟨⟨rfl, rfl⟩, by decide⟩
  · intro hrefused
    obtain ⟨⟨hplan, -⟩, -⟩ := (refused_iff hkeyed rfl rfl .stop).mp hrefused
    cases hplan

end ScriptedDaemon

end Dockmaster
