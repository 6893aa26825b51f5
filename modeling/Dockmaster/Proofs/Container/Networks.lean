import Dockmaster.Proofs.Container.CarryOver
import Mathlib.Data.List.Sort
import Mathlib.Data.String.Basic

/-!
# Which networks a replacement is connected to

The daemon tells the networks of a container as an object, whose members have no order. What is kept
of them has one: they are sorted by their names, and since no name occurs twice there is only one
way to do so (`Snapshot.networksOf_eq_of_perm`). A replacement is connected to all of them, or to
all but the default network if there are several; so it is connected to some if the container was
(`Snapshot.reconnect_ne_nil`).

`KeepsNetworks` collects this, and `networks_are_kept` says that it is so whenever the names differ,
which is the case for every record that is read (`networkMap_of_read`).
-/

namespace Dockmaster

open Json Json.Shape Docker

/-! ### The order of names -/

/-- The code points of a text. -/
def codePoints (s : String) : List Nat := s.toList.map Char.toNat

theorem map_toNat_lt_iff {a b : List Char} : a.map Char.toNat < b.map Char.toNat ↔ a < b := by
  induction a generalizing b with
  | nil => cases b <;> simp
  | cons c a ih =>
    cases b with
    | nil => simp
    | cons d b =>
      rw [List.map_cons, List.map_cons, List.cons_lt_cons_iff, List.cons_lt_cons_iff, ih,
        Char.toNat_inj]
      rfl

/-- Texts are in the order of their code points. -/
theorem codePoints_lt_iff {s t : String} : codePoints s < codePoints t ↔ s < t :=
  map_toNat_lt_iff.trans String.lt_iff_toList_lt.symm

/-! ### What is kept -/

namespace Snapshot

theorem networksOf_perm (info : InspectRecord) :
    (networksOf info).Perm (info.networks.getD []) := List.mergeSort_perm ..

theorem pairwise_networksOf (info : InspectRecord) :
    (networksOf info).Pairwise fun a b => a.network ≤ b.network := by
  have htrans (a b c : Attachment) (hab : decide (a.network ≤ b.network) = true)
      (hbc : decide (b.network ≤ c.network) = true) : decide (a.network ≤ c.network) = true :=
    decide_eq_true (le_trans (of_decide_eq_true hab) (of_decide_eq_true hbc))
  have htotal (a b : Attachment) :
      (decide (a.network ≤ b.network) || decide (b.network ≤ a.network)) = true := by
    rw [Bool.or_eq_true, decide_eq_true_eq, decide_eq_true_eq]
    exact le_total a.network b.network
  exact (List.pairwise_mergeSort htrans htotal _).imp of_decide_eq_true

section Distinct

variable {info : InspectRecord} (distinct : ((info.networks.getD []).map (·.network)).Nodup)
include distinct

theorem networksOf_strict : (networksOf info).Pairwise fun a b => a.network < b.network := by
  have hnodup : (networksOf info).Pairwise fun a b => a.network ≠ b.network :=
    List.pairwise_map.mp (((networksOf_perm info).map _).nodup_iff.mpr distinct)
  exact (pairwise_networksOf info).imp₂ (fun _ _ => lt_of_le_of_ne) hnodup

/-- **There is one way to sort networks by their names**, in whatever order they are told. -/
theorem networksOf_eq_of_perm {other : InspectRecord}
    (perm : (other.networks.getD []).Perm (info.networks.getD [])) :
    networksOf other = networksOf info := by
  have hdistinct : ((other.networks.getD []).map (·.network)).Nodup :=
    (perm.map _).nodup_iff.mpr distinct
  refine List.Perm.eq_of_pairwise (fun a b _ _ hab hba => absurd hab hba.asymm)
    (networksOf_strict hdistinct) (networksOf_strict distinct) ?_
  exact (networksOf_perm other).trans (perm.trans (networksOf_perm info).symm)

end Distinct

/-! ### What is connected -/

theorem reconnect_of_le {snapshot : Snapshot} (h : snapshot.networks.length ≤ 1) :
    snapshot.reconnect = snapshot.networks := if_neg (not_lt.mpr h)

theorem reconnect_of_lt {snapshot : Snapshot} (h : 1 < snapshot.networks.length) :
    snapshot.reconnect = snapshot.networks.filter (·.network ≠ defaultNetwork) := if_pos h

/-- Among several networks with different names one has another name than a given one. -/
theorem exists_network_ne {networks : List Attachment}
    (distinct : networks.Pairwise fun a b => a.network < b.network) (h : 1 < networks.length)
    (name : String) : ∃ a ∈ networks, a.network ≠ name := by
  match networks with
  | a :: b :: rest =>
    have hlt : a.network < b.network := List.rel_of_pairwise_cons distinct (.head _)
    by_cases hname : a.network = name
    · exact ⟨b, .tail _ (.head _), (hname ▸ hlt).ne'⟩
    · exact ⟨a, .head _, hname⟩

/-- **A container in some network is connected to one again.** -/
theorem reconnect_ne_nil {info : InspectRecord}
    (distinct : ((info.networks.getD []).map (·.network)).Nodup)
    (some_network : info.networks.getD [] ≠ []) : (capture info).reconnect ≠ [] := by
  have hnetworks : (capture info).networks ≠ [] := fun h =>
    some_network ((networksOf_perm info).symm.trans (.of_eq h)).eq_nil
  rcases Nat.lt_or_ge 1 (capture info).networks.length with hmany | hfew
  · obtain ⟨a, ha, hname⟩ := exists_network_ne (networksOf_strict distinct) hmany defaultNetwork
    rw [reconnect_of_lt hmany]
    exact List.ne_nil_of_mem (List.mem_filter.mpr ⟨ha, decide_eq_true hname⟩)
  · rwa [reconnect_of_le hfew]

end Snapshot

/-! ### Records -/

/-- The networks that a record has, each name with what is told of the connection. -/
def networkMap (record : Json) : List (String × Json) :=
  (((record.member? "NetworkSettings").bind (·.member? "Networks")).bind asMembers?).getD []

/-- The networks of a record as they are read. -/
theorem networks_ofRecord (record : Json) :
    ((InspectRecord.ofRecord record).networks.getD []) =
      (networkMap record).map fun entry => ⟨entry.1, textsOf? "Aliases" entry.2⟩ := by
  unfold InspectRecord.ofRecord networkMap attachmentsOf?
  cases record.member? "NetworkSettings" with
  | none => rfl
  | some settings =>
    simp only [Option.bind_some]
    cases (settings.member? "Networks").bind asMembers? with
    | none => rfl
    | some members => rfl

/-- The networks of a record in normal form have different names, and connections in normal form. -/
theorem networkMap_of_read {value record : Json} (h : Shapes.container.read value = some record) :
    ((networkMap record).map (·.1)).Nodup ∧
      ∀ entry ∈ networkMap record, IsNormal Shapes.endpoint entry.2 := by
  unfold networkMap
  cases hsettings : record.member? "NetworkSettings" with
  | none => exact ⟨List.nodup_nil, nofun⟩
  | some settings =>
    have hnormal : IsNormal Shapes.networkSettings settings :=
      IsNormal.of_member? ⟨value, h⟩ (by decide) (by simp) hsettings
    rw [Option.bind_some]
    cases hnetworks : settings.member? "Networks" with
    | none => exact ⟨List.nodup_nil, nofun⟩
    | some networks =>
      have hdict : IsNormal (.dict Shapes.endpoint) networks :=
        hnormal.of_member? (by decide) (by simp) hnetworks
      obtain ⟨own, rfl, nodup, hown⟩ := hdict.dict
      rw [Option.bind_some, asMembers?_ofMembers]
      exact ⟨nodup, hown⟩

/-- The aliases in a connection are read as they are told. -/
theorem aliases_of_isNormal {endpoint : Json} (h : IsNormal Shapes.endpoint endpoint) :
    (textsOf? "Aliases" endpoint).map .texts = endpoint.member? "Aliases" :=
  map_textsOf? fun _ hvalue => h.of_member? (by decide) (by simp) hvalue

/-! ### The result -/

/-- **What becomes of the networks of a container.** -/
structure KeepsNetworks (info : InspectRecord) : Prop where
  /-- They are kept in the same order, in whatever order they are told. -/
  order_free : ∀ other : InspectRecord,
    (other.networks.getD []).Perm (info.networks.getD []) →
      (Snapshot.capture other).networks = (Snapshot.capture info).networks
  /-- It is the increasing order of their names by code points. -/
  increasing : (Snapshot.capture info).networks.Pairwise fun a b =>
    codePoints a.network < codePoints b.network
  /-- Each is kept once, with its aliases. -/
  perm : (Snapshot.capture info).networks.Perm (info.networks.getD [])
  /-- A single one is connected again. -/
  reconnect_few : (Snapshot.capture info).networks.length ≤ 1 →
    (Snapshot.capture info).reconnect = (Snapshot.capture info).networks
  /-- Several are connected again, without the default one. -/
  reconnect_many : 1 < (Snapshot.capture info).networks.length →
    (Snapshot.capture info).reconnect =
      (Snapshot.capture info).networks.filter (·.network ≠ "bridge")
  /-- Some are connected again if there were any. -/
  reconnect_some : info.networks.getD [] ≠ [] → (Snapshot.capture info).reconnect ≠ []

theorem keepsNetworks {info : InspectRecord}
    (distinct : ((info.networks.getD []).map (·.network)).Nodup) : KeepsNetworks info where
  order_free _ perm := Snapshot.networksOf_eq_of_perm distinct perm
  increasing := (Snapshot.networksOf_strict distinct).imp codePoints_lt_iff.mpr
  perm := Snapshot.networksOf_perm info
  reconnect_few := Snapshot.reconnect_of_le
  reconnect_many := Snapshot.reconnect_of_lt
  reconnect_some := Snapshot.reconnect_ne_nil distinct

/-- **The networks of a container are kept** in one order, and connected again without the default
one if there are several. This is so for all records whose networks have different names, and the
records that are read are such: they have the networks that are told, with the aliases that are
told. -/
theorem networks_are_kept :
    (∀ info : InspectRecord, ((info.networks.getD []).map (·.network)).Nodup →
      KeepsNetworks info) ∧
    ∀ value record, Shapes.container.read value = some record →
      ∃ info, InspectRecord.ofJson? value = some info ∧ KeepsNetworks info ∧
        ((info.networks.getD []).map fun a => (a.network, a.aliases.map Json.texts)) =
          (networkMap record).map fun entry => (entry.1, entry.2.member? "Aliases") := by
  refine ⟨fun info => keepsNetworks, fun value record hread => ?_⟩
  obtain ⟨nodup, hnormal⟩ := networkMap_of_read hread
  refine ⟨_, InspectRecord.ofJson?_of_read hread, keepsNetworks ?_, ?_⟩
  · rw [networks_ofRecord, List.map_map]
    exact nodup
  · rw [networks_ofRecord, List.map_map]
    refine List.map_congr_left fun entry hentry => ?_
    exact Prod.ext rfl (aliases_of_isNormal (hnormal entry hentry))

/-- What the daemon tells of a container in three networks. -/
def widespread : InspectRecord where
  networks := some [⟨"proxy", some ["web"]⟩, ⟨"bridge", none⟩, ⟨"backend", none⟩]

/-- The order of the names and the networks that are told leave one possibility. -/
theorem networks_are_kept_widespread :
    ((widespread.networks.getD []).map (·.network)).Nodup ∧
      (Snapshot.capture widespread).networks =
        [⟨"backend", none⟩, ⟨"bridge", none⟩, ⟨"proxy", some ["web"]⟩] ∧
      (Snapshot.capture widespread).reconnect = [⟨"backend", none⟩, ⟨"proxy", some ["web"]⟩] := by
  have distinct : ((widespread.networks.getD []).map (·.network)).Nodup := by decide
  have keeps := networks_are_kept.1 widespread distinct
  have hnetworks : (Snapshot.capture widespread).networks =
      [⟨"backend", none⟩, ⟨"bridge", none⟩, ⟨"proxy", some ["web"]⟩] :=
    List.Perm.eq_of_pairwise (fun _ _ _ _ hab hba => absurd hab (lt_asymm hba)) keeps.increasing
      (by decide) (keeps.perm.trans (by decide))
  refine ⟨distinct, hnetworks, ?_⟩
  rw [keeps.reconnect_many (by rw [hnetworks]; decide), hnetworks]
  decide

end Dockmaster
