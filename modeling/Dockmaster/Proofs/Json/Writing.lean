import Dockmaster.Json.Printer
import Dockmaster.Proofs.Json.Literal
import Mathlib.Data.List.Basic

/-!
# What is written is a text of the value

The compact form of a text is a literal that denotes it (`spells_writeText`), whatever its
characters, and the compact form of an object spells the object if the values of its members are
spelt (`spells_ofMembers`). Nothing is written between tokens.
-/

namespace Dockmaster.Json

open Text

theorem isBlank_nil : IsBlank [] := nofun

/-! ### Strings -/

/-- The digits of a control character are read as its number. -/
theorem hexCode?_of_lt {n : Nat} (h : n < 0x20) :
    hexCode? '0' '0' (hexDigit (n / 16)) (hexDigit (n % 16)) = some n := by
  have hall : ∀ n < 0x20, hexCode? '0' '0' (hexDigit (n / 16)) (hexDigit (n % 16)) = some n := by
    decide
  exact hall n h

/-- **A character is written as one piece that stands for it.** -/
theorem spellsPiece_escape (c : Char) :
    ∃ piece, SpellsPiece piece (escape c) ∧ piece.units = units c := by
  unfold escape
  split_ifs with hquote hbackslash hnewline hreturn htab hbackspace hfeed hcontrol
  · exact ⟨.char c, .letter (by rw [hquote]; rfl), rfl⟩
  · exact ⟨.char c, .letter (by rw [hbackslash]; rfl), rfl⟩
  · exact ⟨.char c, .letter (by rw [hnewline]; rfl), rfl⟩
  · exact ⟨.char c, .letter (by rw [hreturn]; rfl), rfl⟩
  · exact ⟨.char c, .letter (by rw [htab]; rfl), rfl⟩
  · exact ⟨.char c, .letter (by rw [hbackspace]; rfl), rfl⟩
  · exact ⟨.char c, .letter (by rw [hfeed]; rfl), rfl⟩
  · refine ⟨.code c.toNat, .code (hexCode?_of_lt hcontrol), ?_⟩
    rw [units_of_lt (by omega)]
    rfl
  · exact ⟨.char c, .plain hquote hbackslash (Nat.not_lt.mp hcontrol), rfl⟩

theorem spellsPieces_escape (cs : List Char) :
    ∃ pieces, SpellsPieces pieces (cs.flatMap escape) ∧
      pieces.flatMap Piece.units = cs.flatMap units := by
  induction cs with
  | nil => exact ⟨[], .nil, rfl⟩
  | cons c cs ih =>
    obtain ⟨piece, hpiece, hunits⟩ := spellsPiece_escape c
    obtain ⟨pieces, hpieces, hrest⟩ := ih
    refine ⟨piece :: pieces, .cons hpiece hpieces, ?_⟩
    rw [List.flatMap_cons, List.flatMap_cons, hunits, hrest]

/-- **What is written between quotation marks denotes the text.** -/
theorem spellsLiteral_escape (s : String) : SpellsLiteral (some s) (s.toList.flatMap escape) := by
  obtain ⟨pieces, hpieces, hunits⟩ := spellsPieces_escape s.toList
  refine ⟨pieces, hpieces, fun t => ?_⟩
  rw [hunits, flatMap_units_inj, String.toList_inj]
  exact Option.some_inj

/-- The compact form of a text spells it. -/
theorem spells_text (s : String) : Spells (.text s) (write (.text s)) := by
  rw [text, write]
  exact .string (spellsLiteral_escape s)

/-! ### Objects -/

/-- A member is written as its name, a colon and its value. -/
theorem spellsMember_write (name : String) {value : Json} (h : Spells value (write value)) :
    SpellsMember Spells (some name, value) (writeLiteral (some name) ++ ':' :: write value) := by
  have hmember := SpellsMember.mk (spellsLiteral_escape name) isBlank_nil isBlank_nil h
  simpa [writeLiteral, writeText] using hmember

/-- Members are written with commas between them. -/
theorem separated_writeMembers {member : String × Json} {members : List (String × Json)}
    (h : ∀ m ∈ member :: members, Spells m.2 (write m.2)) :
    Separated (SpellsMember Spells) ((member :: members).map fun m => (some m.1, m.2))
      (writeMembers ((member :: members).map fun m => (some m.1, m.2))) := by
  induction members generalizing member with
  | nil =>
    have hlast := Separated.last (spellsMember_write member.1 (h member (.head _)))
      isBlank_nil
    rw [List.append_nil] at hlast
    rw [List.map_singleton, writeMembers]
    exact hlast
  | cons next members ih =>
    have hfirst := spellsMember_write member.1 (h member (.head _))
    have hothers := ih fun m hm => h m (.tail _ hm)
    have hcons := Separated.cons hfirst isBlank_nil isBlank_nil hothers
    rw [List.append_assoc, List.cons_append] at hcons
    rw [List.map_cons, List.map_cons, writeMembers]
    exact hcons

/-- **The compact form of an object spells it** if the values of its members are spelt. -/
theorem spells_ofMembers {members : List (String × Json)}
    (h : ∀ m ∈ members, Spells m.2 (write m.2)) :
    Spells (.ofMembers members) (write (.ofMembers members)) := by
  rw [ofMembers, write]
  cases members with
  | nil => exact .emptyObject isBlank_nil
  | cons member members => exact .object isBlank_nil (separated_writeMembers h)

/-- The compact text of a value is a text of it if its characters spell it. -/
theorem isTextOf_render {value : Json} (h : Spells value (write value)) :
    IsTextOf value (render value) := by
  refine ⟨[], write value, [], isBlank_nil, h, isBlank_nil, ?_⟩
  rw [render, String.toList_ofList, List.nil_append, List.append_nil]

end Dockmaster.Json
