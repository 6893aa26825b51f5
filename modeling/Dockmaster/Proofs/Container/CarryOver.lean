import Dockmaster.Container.Snapshot
import Dockmaster.Proofs.Json.Normal

/-!
# What a replacement takes over

A request for a replacement is made of what the daemon tells of the container, and both are records
of many optional fields. `TakesOver` says what the request has of the container, field by field: the
image that is asked for, the host side as it is, and each of nine settings (`carried`) as it is
told, except that an empty user and an empty set of volumes count as none (`isTold`). Whatever the
daemon tells, the request is such a one, and a container that has what the request asks for is
replaced with the same request again (`config_carried_over`).

Reading and writing meet in `Settings.members`, the settings as they are written under the names of
their fields. What is read of a record in normal form stands in the record under these names
(`Settings.member?_of_isNormal`), and a record that has it under these names is read as that
(`Settings.ofRecord_eq`).
-/

namespace Dockmaster

open Json Json.Shape Docker

/-! ### Fields are read as they are written -/

@[simp] theorem asMembers?_ofMembers (own : List (String × Json)) :
    (Json.ofMembers own).asMembers? = some own := by
  simp [Json.ofMembers, Json.asMembers?, List.filterMap_map]

theorem asTexts?_texts (items : List String) : (Json.texts items).asTexts? = some items := by
  simp [Json.texts, Json.asTexts?, Json.asArray?, List.filterMap_map, Function.comp_def, Json.text,
    Json.asText?]

theorem namesOf?_nameSetJson (names : List String) :
    (nameSetJson names).asMembers?.map (fun members => members.map (·.1)) = some names := by
  simp [nameSetJson, Function.comp_def]

theorem textMapOf?_textMapJson (entries : List (String × String)) :
    (textMapJson entries).asMembers?.map (fun members => members.filterMap fun member =>
      member.2.asText?.map fun value => (member.1, value)) = some entries := by
  simp [textMapJson, List.filterMap_map, Json.text, Json.asText?]

section Fields

variable {α : Type} {name : String} {record : Json}

/-- What is written is read. -/
theorem bind_map_eq {decode : Json → Option α} {encode : α → Json} {value? : Option α}
    (inv : ∀ a, decode (encode a) = some a) : (value?.map encode).bind decode = value? := by
  cases value? with
  | none => rfl
  | some a => exact inv a

theorem textOf?_eq {value? : Option String} (h : record.member? name = value?.map .text) :
    textOf? name record = value? := by
  rw [textOf?, h]
  exact bind_map_eq fun _ => rfl

theorem textsOf?_eq {value? : Option (List String)} (h : record.member? name = value?.map .texts) :
    textsOf? name record = value? := by
  rw [textsOf?, h]
  exact bind_map_eq asTexts?_texts

theorem namesOf?_eq {value? : Option (List String)}
    (h : record.member? name = value?.map nameSetJson) : namesOf? name record = value? := by
  rw [namesOf?, Option.map_bind, h]
  exact bind_map_eq namesOf?_nameSetJson

theorem textMapOf?_eq {value? : Option (List (String × String))}
    (h : record.member? name = value?.map textMapJson) : textMapOf? name record = value? := by
  rw [textMapOf?, Option.map_bind, h]
  exact bind_map_eq textMapOf?_textMapJson

/-! ### Fields are written as they were read -/

/-- What is read of a field is written as it was if the field holds something that was written. -/
theorem map_bind_eq {decode : Json → Option α} {encode : α → Json} {value? : Option Json}
    (inv : ∀ a, decode (encode a) = some a) (h : ∀ value ∈ value?, ∃ a, value = encode a) :
    (value?.bind decode).map encode = value? := by
  cases value? with
  | none => rfl
  | some value =>
    obtain ⟨a, rfl⟩ := h value rfl
    rw [Option.bind_some, inv, Option.map_some]

theorem map_textOf? (h : ∀ value ∈ record.member? name, IsNormal .text value) :
    (textOf? name record).map .text = record.member? name :=
  map_bind_eq (fun _ => rfl) fun value hvalue => (h value hvalue).text

theorem map_textsOf? (h : ∀ value ∈ record.member? name, IsNormal (.list .text) value) :
    (textsOf? name record).map .texts = record.member? name :=
  map_bind_eq asTexts?_texts fun value hvalue => (h value hvalue).texts

theorem map_namesOf? (h : ∀ value ∈ record.member? name, IsNormal Shapes.nameSet value) :
    (namesOf? name record).map nameSetJson = record.member? name := by
  rw [namesOf?, Option.map_bind]
  refine map_bind_eq namesOf?_nameSetJson fun value hvalue => ?_
  obtain ⟨own, rfl, -, hown⟩ := (h value hvalue).dict
  refine ⟨own.map (·.1), congrArg Json.ofMembers ?_⟩
  rw [List.map_map]
  refine (List.map_id own).symm.trans (List.map_congr_left fun member hmember => ?_)
  exact Prod.ext rfl (hown member hmember).hollow

theorem map_textMapOf? (h : ∀ value ∈ record.member? name, IsNormal (.dict .text) value) :
    (textMapOf? name record).map textMapJson = record.member? name := by
  rw [textMapOf?, Option.map_bind]
  refine map_bind_eq textMapOf?_textMapJson fun value hvalue => ?_
  obtain ⟨own, rfl, -, hown⟩ := (h value hvalue).dict
  have hrange : own ∈ Set.range (List.map fun entry : String × String =>
      (entry.1, Json.text entry.2)) := by
    rw [Set.range_list_map]
    intro member hmember
    obtain ⟨s, hs⟩ := (hown member hmember).text
    exact ⟨(member.1, s), Prod.ext rfl hs.symm⟩
  obtain ⟨entries, rfl⟩ := hrange
  exact ⟨entries, rfl⟩

end Fields

/-! ### Settings -/

/-- The names of the settings that a replacement takes over. -/
def carried : List String :=
  ["User", "ExposedPorts", "Env", "Cmd", "Healthcheck", "Volumes", "WorkingDir", "Entrypoint",
    "Labels"]

/-- Whether a setting is told. An empty user and an empty set of volumes are what the daemon tells
where there are none. -/
def isTold : String → Json → Bool
  | "User", .string (some "") => false
  | "Volumes", .object [] => false
  | _, _ => true

theorem isTold_user (user : String) : isTold "User" (.text user) = decide (user ≠ "") := by
  by_cases h : user = ""
  · rw [h]
    rfl
  · rw [decide_eq_true h]
    unfold isTold
    split <;> simp_all [Json.text]

theorem isTold_volumes (volumes : List String) :
    isTold "Volumes" (nameSetJson volumes) = decide (volumes ≠ []) := by
  cases volumes <;> rfl

theorem isTold_of_ne {name : String} (huser : name ≠ "User") (hvolumes : name ≠ "Volumes")
    (value : Json) : isTold name value = true := by
  unfold isTold
  split <;> simp_all

namespace Settings

/-- The settings as they are written, each with the name of its field. -/
def members (settings : Settings) : List (String × Option Json) := [
  ("User", settings.user.map .text),
  ("ExposedPorts", settings.exposedPorts.map nameSetJson),
  ("Env", settings.env.map .texts),
  ("Cmd", settings.cmd.map .texts),
  ("Healthcheck", settings.healthcheck),
  ("Volumes", settings.volumes.map nameSetJson),
  ("WorkingDir", settings.workingDir.map .text),
  ("Entrypoint", settings.entrypoint.map .texts),
  ("Labels", settings.labels.map textMapJson)]

/-- The settings as a record. -/
def toJson (settings : Settings) : Json := .ofPresent settings.members

theorem map_fst_members (settings : Settings) : settings.members.map (·.1) = carried := rfl

theorem mem_carried {settings : Settings} {field : String × Option Json}
    (h : field ∈ settings.members) : field.1 ∈ carried :=
  settings.map_fst_members ▸ List.mem_map_of_mem h

theorem exists_mem_members (settings : Settings) {name : String} (h : name ∈ carried) :
    ∃ value?, (name, value?) ∈ settings.members := by
  obtain ⟨⟨_, value?⟩, hmem, rfl⟩ := List.mem_map.mp (settings.map_fst_members ▸ h)
  exact ⟨value?, hmem⟩

theorem member?_toJson {settings : Settings} :
    ∀ field ∈ settings.members, settings.toJson.member? field.1 = field.2 := fun _ hmem =>
  have nodup : (settings.members.map (·.1)).Nodup := by rw [map_fst_members]; decide
  member?_ofPresent nodup hmem

/-- **A record is read as the settings that it has** under the names of their fields. -/
theorem ofRecord_eq {record : Json} {settings : Settings}
    (h : ∀ field ∈ settings.members, record.member? field.1 = field.2) :
    ofRecord record = settings := by
  have hat {name : String} {value? : Option Json} (hmem : (name, value?) ∈ settings.members) :
      record.member? name = value? := h _ hmem
  cases settings
  simp only [ofRecord, mk.injEq]
  refine ⟨textsOf?_eq (hat ?_), textMapOf?_eq (hat ?_), namesOf?_eq (hat ?_), textsOf?_eq (hat ?_),
    textsOf?_eq (hat ?_), textOf?_eq (hat ?_), textOf?_eq (hat ?_), namesOf?_eq (hat ?_), hat ?_⟩
  all_goals simp [members]

/-- **A record in normal form has the settings that are read of it** under their names. -/
theorem member?_of_isNormal {record : Json} (h : IsNormal Shapes.containerConfig record) :
    ∀ field ∈ (ofRecord record).members, record.member? field.1 = field.2 := by
  have hfield {name : String} {shape : Shape} (hmem : (name, Shape.optional shape) ∈ _)
      (value : Json) (hvalue : value ∈ record.member? name) : IsNormal shape value :=
    h.of_member? (by decide) hmem hvalue
  intro field hmem
  simp only [members, ofRecord, List.mem_cons, List.not_mem_nil, or_false] at hmem
  rcases hmem with rfl | rfl | rfl | rfl | rfl | rfl | rfl | rfl | rfl
  · exact (map_textOf? (hfield (by simp))).symm
  · exact (map_namesOf? (hfield (by simp))).symm
  · exact (map_textsOf? (hfield (by simp))).symm
  · exact (map_textsOf? (hfield (by simp))).symm
  · rfl
  · exact (map_namesOf? (hfield (by simp))).symm
  · exact (map_textOf? (hfield (by simp))).symm
  · exact (map_textsOf? (hfield (by simp))).symm
  · exact (map_textMapOf? (hfield (by simp))).symm

/-- **What is not told is dropped.** -/
theorem members_dropEmpty (settings : Settings) :
    settings.dropEmpty.members =
      settings.members.map fun field => (field.1, field.2.filter (isTold field.1)) := by
  have hother {name : String} (huser : name ≠ "User") (hvolumes : name ≠ "Volumes")
      (value? : Option Json) : value?.filter (isTold name) = value? := by
    cases value? with
    | none => rfl
    | some value => rw [Option.filter_some, isTold_of_ne huser hvolumes, if_pos rfl]
  simp [members, dropEmpty, Option.filter_map, Function.comp_def, isTold_user, isTold_volumes,
    hother]

theorem dropEmpty_dropEmpty (settings : Settings) :
    settings.dropEmpty.dropEmpty = settings.dropEmpty := by
  simp [dropEmpty, Option.filter_filter]

end Settings

/-! ### Records -/

namespace InspectRecord

/-- What a record tells of the settings. -/
def settings (info : InspectRecord) : Settings := (info.config.map (·.settings)).getD {}

/-- What the daemon tells of one container, from a normal record. -/
def ofRecord (record : Json) : InspectRecord where
  id := textOf? "Id" record
  name := textOf? "Name" record
  config := (record.member? "Config").map .ofRecord
  hostConfig := record.member? "HostConfig"
  networks := (record.member? "NetworkSettings").bind attachmentsOf?

theorem ofJson?_of_read {value record : Json} (h : Shapes.container.read value = some record) :
    ofJson? value = some (ofRecord record) := by
  rw [ofJson?, h]
  rfl

/-- A setting of which nothing is told is absent, also where there are no settings at all. -/
theorem bind_config_member? (info : InspectRecord) (name : String) :
    (info.config.map (·.settings.toJson)).bind (·.member? name) =
      info.settings.toJson.member? name := by
  unfold settings
  cases info.config with
  | none => rfl
  | some config => rfl

/-- What a record has among its settings is read as such. -/
theorem settings_ofRecord_eq {record : Json} {settings : Settings}
    (h : ∀ field ∈ settings.members,
      (record.member? "Config").bind (·.member? field.1) = field.2) :
    (ofRecord record).settings = settings := by
  unfold InspectRecord.settings ofRecord
  cases hconfig : record.member? "Config" with
  | none =>
    rw [hconfig] at h
    -- no settings are told, which is as if an empty record of them were
    have hnone : Settings.ofRecord (.object []) = settings := Settings.ofRecord_eq h
    exact hnone
  | some config =>
    rw [hconfig] at h
    exact Settings.ofRecord_eq h

/-- What is read of the settings of a record stands in it. -/
theorem member?_settings_ofRecord {value record : Json}
    (h : Shapes.container.read value = some record) {name : String} (hname : name ∈ carried) :
    (record.member? "Config").bind (·.member? name) =
      (ofRecord record).settings.toJson.member? name := by
  unfold InspectRecord.settings ofRecord
  cases hconfig : record.member? "Config" with
  | none => rfl
  | some config =>
    have hnormal : IsNormal Shapes.containerConfig config :=
      IsNormal.of_member? ⟨value, h⟩ (by decide) (by simp) hconfig
    obtain ⟨value?, hfield⟩ := (Settings.ofRecord config).exists_mem_members hname
    calc config.member? name
      _ = value? := Settings.member?_of_isNormal hnormal _ hfield
      _ = (Settings.ofRecord config).toJson.member? name := (Settings.member?_toJson _ hfield).symm

end InspectRecord

/-! ### Requests -/

namespace CreateConfig

/-- The members of a request, its settings last. -/
def members (request : CreateConfig) : List (String × Option Json) :=
  ("Image", some (.text request.image)) :: ("HostConfig", request.hostConfig) ::
    request.settings.members

theorem member?_toJson {request : CreateConfig} :
    ∀ field ∈ request.members, request.toJson.member? field.1 = field.2 := by
  rintro ⟨name, value?⟩ hmem
  refine member?_ofPresent (by simp) ?_
  simp only [members, Settings.members, List.mem_cons] at hmem ⊢
  tauto

theorem member?_toJson_eq_none {request : CreateConfig} {name : String}
    (h : name ∉ "Image" :: "HostConfig" :: carried) : request.toJson.member? name = none := by
  refine member?_ofPresent_eq_none (by simp) ?_
  simp only [carried, List.map_cons, List.map_nil, List.mem_cons] at h ⊢
  tauto

end CreateConfig

/-- **What a request takes over** of the settings and the host side of a container, if there are
any. -/
structure TakesOver (config? host? : Option Json) (image : String) (request : Json) : Prop where
  /-- It has the image that it is asked for. -/
  image_eq : request.member? "Image" = some (.text image)
  /-- It has the host side as it is. -/
  host_eq : request.member? "HostConfig" = host?
  /-- It has each of the settings as it is told, and no other. -/
  setting_eq : ∀ name ∈ carried,
    request.member? name = (config?.bind (·.member? name)).filter (isTold name)
  /-- It has nothing else. -/
  other_eq : ∀ name ∉ "Image" :: "HostConfig" :: carried, request.member? name = none

/-- **A container that has what a request asks for**, from its settings and its host side. -/
structure HasRequested (config? host? : Option Json) (request : Json) : Prop where
  /-- It has the host side. -/
  host_eq : host? = request.member? "HostConfig"
  /-- It has the settings. -/
  setting_eq : ∀ name ∈ carried, config?.bind (·.member? name) = request.member? name

namespace Snapshot

theorem capture_settings (info : InspectRecord) :
    (capture info).settings = info.settings.dropEmpty := by
  unfold capture InspectRecord.settings
  cases info.config with
  | none => rfl
  | some config => rfl

/-- Nothing that is kept of a container is dropped the next time. -/
theorem dropEmpty_capture (info : InspectRecord) :
    (capture info).settings.dropEmpty = (capture info).settings := by
  rw [capture_settings, Settings.dropEmpty_dropEmpty]

theorem takesOver (info : InspectRecord) (image : String) :
    TakesOver (info.config.map (·.settings.toJson)) info.hostConfig image
      ((capture info).createConfig image).toJson where
  image_eq := CreateConfig.member?_toJson _ (.head _)
  host_eq := CreateConfig.member?_toJson _ (.tail _ (.head _))
  setting_eq name hname := by
    obtain ⟨value?, hfield⟩ := info.settings.exists_mem_members hname
    have hkept : (name, value?.filter (isTold name)) ∈ (capture info).settings.members := by
      rw [capture_settings, Settings.members_dropEmpty]
      exact List.mem_map_of_mem hfield
    calc ((capture info).createConfig image).toJson.member? name
      _ = value?.filter (isTold name) :=
        CreateConfig.member?_toJson (name, _) (.tail _ (.tail _ hkept))
      _ = ((info.config.map (·.settings.toJson)).bind (·.member? name)).filter (isTold name) := by
        rw [info.bind_config_member?, Settings.member?_toJson _ hfield]
  other_eq name := CreateConfig.member?_toJson_eq_none

/-- What a container was created with is what it is replaced with. -/
theorem createConfig_of_settings {info again : InspectRecord} {image : String}
    (settings : again.settings = ((capture info).createConfig image).settings)
    (host : again.hostConfig = ((capture info).createConfig image).hostConfig) :
    (capture again).createConfig image = (capture info).createConfig image := by
  have hsettings : (capture again).settings = (capture info).settings := by
    rw [capture_settings, settings]
    exact dropEmpty_capture info
  unfold createConfig
  rw [hsettings]
  exact congrArg _ host

end Snapshot

/-- **The configuration of a container is carried over.** Whatever is told of it, the request for a
replacement takes over what there is, and a container that has what the request asks for is replaced
with the same request. The first half is about what the service holds, the second about the records
that it is sent, which are read. -/
theorem config_carried_over (image : String) :
    (∀ info : InspectRecord,
      let request := (Snapshot.capture info).createConfig image
      TakesOver (info.config.map (·.settings.toJson)) info.hostConfig image request.toJson ∧
      ∀ again : InspectRecord,
        again.settings = request.settings → again.hostConfig = request.hostConfig →
        (Snapshot.capture again).createConfig image = request) ∧
    ∀ value record, Shapes.container.read value = some record →
      ∃ info, InspectRecord.ofJson? value = some info ∧
        let request := (Snapshot.capture info).createConfig image
        TakesOver (record.member? "Config") (record.member? "HostConfig") image request.toJson ∧
        ∀ value' record', Shapes.container.read value' = some record' →
          HasRequested (record'.member? "Config") (record'.member? "HostConfig") request.toJson →
          ∃ again, InspectRecord.ofJson? value' = some again ∧
            (Snapshot.capture again).createConfig image = request := by
  refine ⟨fun info => ⟨Snapshot.takesOver info image, fun again settings host =>
    Snapshot.createConfig_of_settings settings host⟩, fun value record hread => ?_⟩
  refine ⟨_, InspectRecord.ofJson?_of_read hread, ?_, fun value' record' hread' requested => ?_⟩
  · have takes := Snapshot.takesOver (.ofRecord record) image
    refine { takes with setting_eq := fun name hname => ?_ }
    rw [takes.setting_eq name hname, InspectRecord.bind_config_member?,
      InspectRecord.member?_settings_ofRecord hread hname]
  · refine ⟨_, InspectRecord.ofJson?_of_read hread', Snapshot.createConfig_of_settings ?_ ?_⟩
    · refine InspectRecord.settings_ofRecord_eq fun field hfield => ?_
      rw [requested.setting_eq _ (Settings.mem_carried hfield)]
      exact CreateConfig.member?_toJson _ (.tail _ (.tail _ hfield))
    · exact requested.host_eq.trans (CreateConfig.member?_toJson _ (.tail _ (.head _)))

/-- What the daemon tells of a container with an empty user and without volumes. -/
def deployed : Json := .object [
  (some "HostConfig", .object [(some "Memory", .nat 512)]),
  (some "Config", .object [(some "User", .text ""), (some "Tty", .bool true),
    (some "Env", .texts ["MODE=fast"]), (some "Volumes", .object []),
    (some "Labels", .object [(some "tier", .text "web")])])]

/-- What the daemon tells of the replacement. -/
def redeployed : Json := .object [
  (some "HostConfig", .object [(some "Memory", .nat 512)]),
  (some "Config", .object [(some "Env", .texts ["MODE=fast"]), (some "Image", .text "app:v2"),
    (some "Labels", .object [(some "tier", .text "web")])])]

/-- The replacement would be replaced with what it was created with. -/
theorem config_carried_over_deployed :
    ∃ info again, InspectRecord.ofJson? deployed = some info ∧
      InspectRecord.ofJson? redeployed = some again ∧
      let request := (Snapshot.capture info).createConfig "app:v2"
      request.toJson.member? "User" = none ∧
      request.toJson.member? "Env" = some (.texts ["MODE=fast"]) ∧
      (Snapshot.capture again).createConfig "app:v2" = request := by
  obtain ⟨info, hinfo, takes, stable⟩ := (config_carried_over "app:v2").2 deployed deployed rfl
  have hsame : ∀ name ∈ carried, (redeployed.member? "Config").bind (·.member? name) =
      ((deployed.member? "Config").bind (·.member? name)).filter (isTold name) := by
    simp only [carried, List.forall_mem_cons]
    exact ⟨rfl, rfl, rfl, rfl, rfl, rfl, rfl, rfl, rfl, nofun⟩
  obtain ⟨again, hagain, heq⟩ := stable redeployed redeployed rfl {
    host_eq := takes.host_eq.symm
    setting_eq := fun name hname => (hsame name hname).trans (takes.setting_eq name hname).symm }
  exact ⟨info, again, hinfo, hagain, takes.setting_eq "User" (by decide),
    takes.setting_eq "Env" (by decide), heq⟩

end Dockmaster
