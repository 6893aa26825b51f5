import Dockmaster.Proofs.Config.Loading
import Dockmaster.Proofs.Guard
import Dockmaster.Proofs.Text.Segment
import Mathlib.Data.Finset.Lattice.Lemmas

/-!
# From the list of protected containers to the guard

The list is written as one text with commas.  What it protects can be said without reading it from
left to right: `mem_parseBlacklist` says which entries it has, segment by segment, and everything
else follows from that, since an entry is protected or not wherever it stands in the list.

`Piece` is a piece of such a text as somebody may write it, an entry with blanks around it or
nothing but blanks, and `written` joins pieces with commas; reading gives the entries back
(`mem_parseBlacklist_written`).  `blacklist_exact` puts this together with the guard.
-/

namespace Dockmaster.Config

open Text

/-! ### Entries -/

/-- **The entries of a list** are its trimmed segments, as far as something is left of them. -/
theorem mem_parseBlacklist {raw entry : String} :
    entry ∈ parseBlacklist raw ↔
      entry ≠ "" ∧ ∃ segment ∈ segments ',' raw.toList, trimChars segment = entry.toList := by
  rw [parseBlacklist, mem_sortedSet, blacklistEntries]
  simp only [List.mem_map, List.mem_filter, decide_eq_true_eq]
  constructor
  · rintro ⟨cs, ⟨⟨segment, hsegment, rfl⟩, hne⟩, rfl⟩
    refine ⟨fun h => hne ?_, segment, hsegment, String.toList_ofList.symm⟩
    rw [← String.toList_ofList (l := trimChars segment), h]
    rfl
  · rintro ⟨hne, segment, hsegment, htrim⟩
    refine ⟨entry.toList, ⟨⟨segment, hsegment, htrim⟩, fun h => hne ?_⟩, String.ofList_toList⟩
    rw [← String.toList_inj, h]
    rfl

/-- Two lists with a comma between them have the entries of both. -/
theorem mem_parseBlacklist_append {first second entry : String} :
    entry ∈ parseBlacklist (first ++ "," ++ second) ↔
      entry ∈ parseBlacklist first ∨ entry ∈ parseBlacklist second := by
  have hchars : (first ++ "," ++ second).toList = first.toList ++ ',' :: second.toList := by
    rw [String.toList_append, String.toList_append, List.append_assoc]
    rfl
  simp only [mem_parseBlacklist, hchars, segments_append_cons, List.mem_append, or_and_right,
    exists_or, and_or_left]

/-! ### Lists as they are written -/

/-- A text that can be an entry of a list. -/
structure Entry where
  /-- The text. -/
  text : String
  /-- It is not empty. -/
  ne_empty : text ≠ ""
  /-- There is no comma in it. -/
  no_comma : ',' ∉ text.toList
  /-- It has no blank at either end. -/
  bare : Bare text.toList

/-- Blanks around an entry, or in place of one. -/
abbrev Blanks := { cs : List Char // Blank cs }

/-- What may stand between two commas of a list. -/
inductive Piece where
  /-- No entry, but possibly blanks. -/
  | hole (blanks : Blanks)
  /-- An entry, possibly with blanks around it. -/
  | listed (before : Blanks) (entry : Entry) (after : Blanks)

namespace Piece

/-- The characters of a piece. -/
def chars : Piece → List Char
  | .hole blanks => blanks.val
  | .listed before entry after => before.val ++ entry.text.toList ++ after.val

/-- The entry in a piece. -/
def entry? : Piece → Option String
  | .hole _ => none
  | .listed _ entry _ => some entry.text

theorem comma_not_mem_blanks (blanks : Blanks) : ',' ∉ blanks.val := fun hmem =>
  absurd (blanks.property _ hmem) (by decide)

theorem comma_not_mem_chars (piece : Piece) : ',' ∉ piece.chars := by
  cases piece with
  | hole blanks => exact comma_not_mem_blanks blanks
  | listed before entry after =>
    rw [chars, List.mem_append, List.mem_append, not_or, not_or]
    exact ⟨⟨comma_not_mem_blanks before, entry.no_comma⟩, comma_not_mem_blanks after⟩

theorem entry?_eq_some_iff {piece : Piece} {text : String} :
    piece.entry? = some text ↔ text ≠ "" ∧ trimChars piece.chars = text.toList := by
  cases piece with
  | hole blanks =>
    rw [chars, trimChars_of_blank blanks.property]
    refine iff_of_false nofun ?_
    rintro ⟨hne, htext⟩
    exact hne (String.toList_inj.mp htext.symm)
  | listed before entry after =>
    rw [chars, trimChars_padded before.property entry.bare after.property, String.toList_inj,
      entry?, Option.some_inj]
    exact ⟨fun h => ⟨h ▸ entry.ne_empty, h⟩, And.right⟩

end Piece

/-- Pieces with commas between them. -/
def written (pieces : List Piece) : String :=
  ",".intercalate (pieces.map fun piece => String.ofList piece.chars)

theorem segments_written {pieces : List Piece} (h : pieces ≠ []) :
    segments ',' (written pieces).toList = pieces.map Piece.chars := by
  have hchars : (written pieces).toList = [','].intercalate (pieces.map Piece.chars) := by
    rw [written, String.toList_intercalate, List.map_map]
    simp only [Function.comp_def, String.toList_ofList]
    rfl
  rw [hchars]
  refine segments_intercalate (fun cs hcs => ?_) (by simpa using h)
  obtain ⟨piece, -, rfl⟩ := List.mem_map.mp hcs
  exact piece.comma_not_mem_chars

/-- **Reading gives back what was written**, whatever blanks and holes are in between. -/
theorem mem_parseBlacklist_written {pieces : List Piece} {entry : String} :
    entry ∈ parseBlacklist (written pieces) ↔ entry ∈ pieces.filterMap Piece.entry? := by
  rw [mem_parseBlacklist, List.mem_filterMap]
  by_cases hnil : pieces = []
  · subst hnil
    refine iff_of_false ?_ (by simp)
    rintro ⟨hne, segment, hsegment, htext⟩
    rw [List.mem_singleton.mp hsegment] at htext
    exact hne (String.toList_inj.mp htext.symm)
  · simp only [segments_written hnil, List.mem_map, exists_exists_and_eq_and,
      Piece.entry?_eq_some_iff]
    tauto

/-! ### The guard -/

/-- **From the list to the guard.**  The guard of a configuration protects a container iff the id,
the name or the image is not empty and stands, with nothing but blanks around it, between two commas
or ends of the list.  The entries are a set: it makes no difference for what is protected in which
order or how often they are given, a list that is continued after a comma has the entries of both
parts, and every way to write down some entries has exactly those. -/
theorem blacklist_exact :
    (∀ lookup config raw, lookup blacklistKey = some raw → ofLookup lookup = .ok config →
      ∀ identity : Identity, (Guard.ofList config.blacklist).protects identity = true ↔
        ∃ text ∈ identity.texts, text ≠ "" ∧
          ∃ segment, IsSegment ',' segment raw.toList ∧ trimChars segment = text.toList) ∧
    (∀ raw identity entries, (∀ entry, entry ∈ entries ↔ entry ∈ parseBlacklist raw) →
      (Guard.ofList (parseBlacklist raw)).protects identity = isProtected identity entries) ∧
    (∀ raw, (parseBlacklist raw).Pairwise (· < ·)) ∧
    (∀ first second, (parseBlacklist (first ++ "," ++ second)).toFinset =
      (parseBlacklist first).toFinset ∪ (parseBlacklist second).toFinset) ∧
    (∀ pieces, (parseBlacklist (written pieces)).toFinset =
      (pieces.filterMap Piece.entry?).toFinset) := by
  refine ⟨fun lookup config raw hraw hok identity => ?_, fun raw identity entries h => ?_,
    fun raw => sortedSet_strict _, fun first second => ?_, fun pieces => ?_⟩
  · have hlist : config.blacklist = parseBlacklist raw := by
      rw [(describes_of_ofLookup hok).2.blacklist, hraw]
      rfl
    rw [Guard.protects_ofList, isProtected_iff, hlist]
    simp only [mem_parseBlacklist, mem_segments_iff]
  · rw [Guard.protects_ofList]
    exact (isProtected_congr h identity).symm
  · ext entry
    simp only [List.mem_toFinset, Finset.mem_union, mem_parseBlacklist_append]
  · ext entry
    simp only [List.mem_toFinset, mem_parseBlacklist_written]

/-- Variables with a list that has blanks and nothing in it as well. -/
def listed (key : String) : Option String :=
  if key = blacklistKey then some " traefik ,,nginx:latest" else none

theorem blacklist_exact_listed : ∃ config, ofLookup listed = .ok config ∧
    (Guard.ofList config.blacklist).protects ⟨"c1", "traefik", ""⟩ = true := by
  have hlist : listed blacklistKey = some " traefik ,,nginx:latest" := by decide +kernel
  have hunset : ∀ v ∈ numberVariables, listed v.key = none := by decide +kernel
  have hvalid : ∀ v ∈ numberVariables, v.Valid (listed v.key) := fun v hv => by
    rw [hunset v hv]
    exact ⟨none, .unset, fun _ => nofun⟩
  obtain ⟨config, hload, -⟩ := ofLookup_of_valid hvalid
  have hsegment : IsSegment ',' " traefik ".toList " traefik ,,nginx:latest".toList :=
    ⟨by decide +kernel, [], ",,nginx:latest".toList, by decide +kernel, .inl rfl, .inr ⟨_, rfl⟩⟩
  refine ⟨config, hload, (blacklist_exact.1 listed config _ hlist hload _).mpr ?_⟩
  exact ⟨"traefik", by decide, by decide, _, hsegment, by decide +kernel⟩

end Dockmaster.Config
