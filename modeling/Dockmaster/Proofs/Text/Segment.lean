import Dockmaster.Text.Segment
import Mathlib.Data.List.Basic

/-!
# What stands between separators

`IsSegment` says what a segment of a text is: a part without the separator, with the separator or
an end of the text on either side.  `segments` finds all of them (`mem_segments_iff`) and undoes the
joining of parts that have no separator in them (`segments_intercalate`).
-/

namespace Dockmaster.Text

/-- A part of a text that has no separator in it and reaches from one separator, or end of the text,
to the next. -/
structure IsSegment (sep : Char) (piece cs : List Char) : Prop where
  /-- There is no separator in it. -/
  not_mem : sep ∉ piece
  /-- There is one on either side, or nothing. -/
  between : ∃ before after, cs = before ++ piece ++ after ∧
    (before = [] ∨ ∃ rest, before = rest ++ [sep]) ∧ (after = [] ∨ ∃ rest, after = sep :: rest)

section Segments

variable {sep : Char}

theorem segments_eq_splitOn (cs : List Char) : segments sep cs = cs.splitOn sep := by
  induction cs with
  | nil => rfl
  | cons c cs ih =>
    rw [List.splitOn_cons_eq_if_modifyHead, segments, ih]
    simp only [beq_iff_eq]
    split_ifs with hsep
    · rfl
    · cases hpieces : cs.splitOn sep with
      | nil => exact absurd hpieces (List.splitOn_ne_nil sep cs)
      | cons first others => rfl

theorem segments_append_cons (as bs : List Char) :
    segments sep (as ++ sep :: bs) = segments sep as ++ segments sep bs := by
  simp only [segments_eq_splitOn, List.splitOn_append_cons_self]

theorem segments_of_not_mem {cs : List Char} (h : sep ∉ cs) : segments sep cs = [cs] := by
  rw [segments_eq_splitOn, List.splitOn_eq_singleton h]

theorem segments_intercalate {pieces : List (List Char)} (h : ∀ piece ∈ pieces, sep ∉ piece)
    (hne : pieces ≠ []) : segments sep ([sep].intercalate pieces) = pieces := by
  rw [segments_eq_splitOn, List.splitOn_intercalate sep h hne]

theorem IsSegment.mem_segments {piece cs : List Char} (h : IsSegment sep piece cs) :
    piece ∈ segments sep cs := by
  obtain ⟨hpiece, before, after, rfl, hbefore, hafter⟩ := h
  have hrest : piece ∈ segments sep (piece ++ after) := by
    rcases hafter with rfl | ⟨rest, rfl⟩
    · rw [List.append_nil, segments_of_not_mem hpiece]
      exact List.mem_singleton_self piece
    · rw [segments_append_cons, segments_of_not_mem hpiece]
      exact List.mem_append_left _ (List.mem_singleton_self piece)
  rcases hbefore with rfl | ⟨rest, rfl⟩
  · exact hrest
  · rw [List.append_assoc, List.append_assoc, List.singleton_append, segments_append_cons]
    exact List.mem_append_right _ hrest

theorem isSegment_of_mem {piece cs : List Char} (h : piece ∈ segments sep cs) :
    IsSegment sep piece cs := by
  -- by induction on the length, since what is left after the first separator is shorter
  induction hlength : cs.length using Nat.strongRecOn generalizing cs with
  | _ length ih =>
    by_cases hsep : sep ∈ cs
    · obtain ⟨first, rest, rfl, hfirst⟩ := List.eq_append_cons_of_mem hsep
      rw [segments_append_cons, segments_of_not_mem hfirst, List.singleton_append,
        List.mem_cons] at h
      rcases h with rfl | h
      · exact ⟨hfirst, [], sep :: rest, rfl, .inl rfl, .inr ⟨rest, rfl⟩⟩
      · have hshorter : rest.length < length := by
          rw [← hlength, List.length_append, List.length_cons]
          omega
        obtain ⟨hpiece, before, after, rfl, hbefore, hafter⟩ := ih rest.length hshorter h rfl
        refine ⟨hpiece, first ++ sep :: before, after, by simp, .inr ?_, hafter⟩
        rcases hbefore with rfl | ⟨begin, rfl⟩
        · exact ⟨first, rfl⟩
        · exact ⟨first ++ sep :: begin, by simp⟩
    · rw [segments_of_not_mem hsep, List.mem_singleton] at h
      subst h
      exact ⟨hsep, [], [], (List.append_nil _).symm, .inl rfl, .inl rfl⟩

/-- **The segments** of a text are what is cut out of it. -/
theorem mem_segments_iff {piece cs : List Char} :
    piece ∈ segments sep cs ↔ IsSegment sep piece cs :=
  ⟨isSegment_of_mem, IsSegment.mem_segments⟩

end Segments

end Dockmaster.Text
