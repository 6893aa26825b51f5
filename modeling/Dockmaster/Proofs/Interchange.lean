import Dockmaster.Interchange
import Dockmaster.Proofs.Json.Reading
import Dockmaster.Proofs.Json.Record
import Dockmaster.Proofs.Json.Writing

/-!
# The shared types survive the journey

Whatever texts an identity, a summary or a log line holds, the JSON text written for it is read as
the same value, and so is every other text that states the same members: with blanks, in other
spellings, in any order, with foreign members of any kind and depth, or as an array
(`shared_types_travel`). The same holds of streams and update steps, which are written as names. The
reader of values, the writer and the reader of shapes are each treated on their own; here they are
put together, once for records and once for choices.
-/

namespace Dockmaster

open Json

variable {α : Type} {toJson : α → Json} {ofText? : String → Option α}

/-- **A type travels as JSON**: reading takes back what writing does. -/
structure Travels (toJson : α → Json) (ofText? : String → Option α) : Prop where
  /-- What is written for a value is a text of its JSON form. -/
  isText : ∀ v, IsTextOf (toJson v) (render (toJson v))
  /-- This text is read as the value. -/
  written : ∀ v, ofText? (render (toJson v)) = some v
  /-- A value that was read from any text at all can be written and read again. -/
  again : ∀ s v, ofText? s = some v → ofText? (render (toJson v)) = some v

/-- **A type travels as a record**: it does not matter how its members are stated and spelt. -/
structure TravelsAsRecord (toJson : α → Json) (ofText? : String → Option α) : Prop
    extends Travels toJson ofText? where
  /-- Every text that states the members of a value in one way or another is read as this value. -/
  restated : ∀ v value s, Restates (toJson v) value → IsTextOf value s → ofText? s = some v

/-- A text of a value is read as the normal form of the value. -/
theorem readAs_of_isTextOf {shape : Shape} {decode? : Json → Option α} {value normal : Json}
    {s : String} (h : IsTextOf value s) (hread : shape.read value = some normal) :
    readAs shape decode? s = decode? normal := by
  rw [readAs, parse_of_isTextOf h]
  change (shape.read value).bind decode? = _
  rw [hread]
  rfl

/-- A type travels if its values are written as texts, and these are read as the values. -/
theorem Travels.of_isText (isText : ∀ v, IsTextOf (toJson v) (render (toJson v)))
    (read : ∀ v s, IsTextOf (toJson v) s → ofText? s = some v) : Travels toJson ofText? := by
  have written : ∀ v, ofText? (render (toJson v)) = some v := fun v => read v _ (isText v)
  exact ⟨isText, written, fun _ v _ => written v⟩

/-! ### Choices -/

/-- A name that can be chosen is read as it is. -/
theorem read_choice {names : List String} {name : String} (h : name ∈ names) :
    (Shape.choice names).read (.text name) = some (.text name) := by
  rw [Shape.read]
  exact if_pos h

/-- **Names travel** if each is among those to choose from and is decoded as what it names. -/
theorem travels_of_choice {names : List String} {name : α → String} {decode? : Json → Option α}
    (hname : ∀ v, name v ∈ names) (hdecode : ∀ v, decode? (.text (name v)) = some v) :
    Travels (fun v => .text (name v)) (readAs (.choice names) decode?) := by
  refine .of_isText (fun v => isTextOf_render (spells_text (name v))) fun v s hs => ?_
  rw [readAs_of_isTextOf hs (read_choice (hname v)), hdecode v]

theorem OutputStream.name_mem (stream : OutputStream) : stream.name ∈ all.map name := by
  cases stream <;> decide

theorem OutputStream.ofRecord?_text (stream : OutputStream) :
    ofRecord? (.text stream.name) = some stream := by
  cases stream <;> rfl

theorem UpdateStage.name_mem (stage : UpdateStage) : stage.name ∈ all.map name := by
  cases stage <;> decide

theorem UpdateStage.ofRecord?_text (stage : UpdateStage) :
    ofRecord? (.text stage.name) = some stage := by
  cases stage <;> rfl

/-! ### Records -/

/-- **Records travel** if their members fit the fields and are decoded as what holds them. -/
theorem travels_of_record {fields : List (String × Shape)} {own : α → List (String × Json)}
    {decode? : Json → Option α} (nodup : (fields.map (·.1)).Nodup)
    (fits : ∀ v, List.Forall₂ Shape.Fits fields (own v))
    (hdecode : ∀ v, decode? (.ofMembers (own v)) = some v) :
    TravelsAsRecord (fun v => .ofMembers (own v)) (readAs (.record fields) decode?) := by
  have restated : ∀ v value s, Restates (.ofMembers (own v)) value → IsTextOf value s →
      readAs (.record fields) decode? s = some v := by
    intro v value s hvalue hs
    rw [readAs_of_isTextOf hs (Shape.read_of_restates rfl (fits v) nodup hvalue), hdecode v]
  have isText : ∀ v, IsTextOf (.ofMembers (own v)) (render (.ofMembers (own v))) := by
    intro v
    refine isTextOf_render (spells_ofMembers fun m hm => ?_)
    obtain ⟨s, hs⟩ := Shape.exists_text_of_fits (fits v) m hm
    rw [hs]
    exact spells_text s
  have travels := Travels.of_isText isText fun v s => restated v _ s (restates_self (own v))
  exact { travels with restated := restated }

/-- A text fits a field for texts. -/
theorem fits_text (name s : String) : Shape.Fits (name, .text) (name, .text s) := by
  refine ⟨rfl, s, rfl, ?_⟩
  rw [text, Shape.read]

/-- A stream fits a field for streams. -/
theorem fits_stream (name : String) (stream : OutputStream) :
    Shape.Fits (name, OutputStream.shape) (name, stream.toJson) :=
  ⟨rfl, stream.name, rfl, read_choice stream.name_mem⟩

theorem Identity.travels : TravelsAsRecord Identity.toJson Identity.ofText? :=
  travels_of_record (by decide)
    (fun _ => .cons (fits_text ..) (.cons (fits_text ..) (.cons (fits_text ..) .nil)))
    (fun _ => rfl)

theorem Summary.travels : TravelsAsRecord Summary.toJson Summary.ofText? :=
  travels_of_record (by decide)
    (fun _ => .cons (fits_text ..) (.cons (fits_text ..) (.cons (fits_text ..)
      (.cons (fits_text ..) (.cons (fits_text ..) .nil)))))
    (fun _ => rfl)

theorem LogLine.travels : TravelsAsRecord LogLine.toJson LogLine.ofText? :=
  travels_of_record (by decide) (fun _ => .cons (fits_stream ..) (.cons (fits_text ..) .nil))
    (fun line => by cases line with | mk stream text => cases stream <;> rfl)

/-! ### The shared types -/

/-- **Every shared type travels as JSON**, and the records however their members are stated. -/
theorem shared_types_travel :
    Travels OutputStream.toJson OutputStream.ofText? ∧
    Travels UpdateStage.toJson UpdateStage.ofText? ∧
    TravelsAsRecord Identity.toJson Identity.ofText? ∧
    TravelsAsRecord Summary.toJson Summary.ofText? ∧
    TravelsAsRecord LogLine.toJson LogLine.ofText? :=
  ⟨travels_of_choice OutputStream.name_mem OutputStream.ofRecord?_text,
    travels_of_choice UpdateStage.name_mem UpdateStage.ofRecord?_text,
    Identity.travels, Summary.travels, LogLine.travels⟩

/-- A list in which lists are nested and a string denotes no text. -/
def foreignValue : Json := .array [.array [.null], .string none]

/-- An identity with its members in another order and a foreign one among them. -/
def shuffled : Json :=
  .object [(some "image", .text "nginx"), (some "labels", foreignValue), (some "name", .text "web"),
    (some "id", .text "a\"b")]

/-- One of the texts of the shuffled identity, with some blanks. -/
def shuffledText : String :=
  "\x7b\"image\":\"nginx\", \"labels\" : [[null],\"\\ud800\"],\"name\":\"web\"," ++
    "\"id\":\"a\\\"b\"\x7d"

theorem isTextOf_shuffled : IsTextOf shuffled shuffledText := by
  have space : IsBlank [' '] := List.forall_mem_singleton.mpr rfl
  have half : SpellsPieces [.code 0xD800] ['\\', 'u', 'd', '8', '0', '0'] :=
    .cons (.code rfl) .nil
  have lone : SpellsLiteral none ['\\', 'u', 'd', '8', '0', '0'] := spellsLiteral_of_pieces half
  have labels : Spells foreignValue _ :=
    .array isBlank_nil (.cons (.array isBlank_nil (.last .null isBlank_nil)) isBlank_nil isBlank_nil
      (.last (.string lone) isBlank_nil))
  have members := Separated.cons (SpellsMember.mk (spellsLiteral_escape "image") isBlank_nil
    isBlank_nil (spells_text "nginx")) isBlank_nil space
    (.cons (.mk (spellsLiteral_escape "labels") space space labels) isBlank_nil isBlank_nil
    (.cons (.mk (spellsLiteral_escape "name") isBlank_nil isBlank_nil (spells_text "web"))
      isBlank_nil isBlank_nil
    (.last (.mk (spellsLiteral_escape "id") isBlank_nil isBlank_nil (spells_text "a\"b"))
      isBlank_nil)))
  exact ⟨[], _, [], isBlank_nil, .object isBlank_nil members, isBlank_nil, by decide⟩

/-- The shuffled identity is read. -/
theorem shared_types_travel_shuffled :
    Identity.ofText? shuffledText = some ⟨"a\"b", "web", "nginx"⟩ := by
  have perm := (List.reverse_perm (named [("id", .text "a\"b"), ("name", .text "web"),
    ("labels", foreignValue), ("image", .text "nginx")])).trans (.cons _ (.cons _ (.swap _ _ [])))
  have strange : ∀ m ∈ [((some "labels" : Literal), foreignValue)],
      IsForeign [("id", .text "a\"b"), ("name", .text "web"), ("image", .text "nginx")] m :=
    List.forall_mem_singleton.mpr ⟨"labels", rfl, by decide⟩
  have restates : Restates (Identity.toJson ⟨"a\"b", "web", "nginx"⟩) shuffled :=
    .object perm strange
  exact shared_types_travel.2.2.1.restated _ _ _ restates isTextOf_shuffled

end Dockmaster
