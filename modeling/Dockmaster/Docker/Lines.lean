import Dockmaster.Fault

/-!
# Streams that are cut at their ends

A body that is read piece by piece may end before the last piece is complete.
-/

namespace Dockmaster.Docker

/-- The byte that ends a line. -/
def lineEnd : UInt8 := 10

/-- The first line and what comes after its end, if it has an end. -/
def cutLine : List UInt8 → Option (List UInt8 × List UInt8)
  | [] => none
  | b :: rest =>
    if b = lineEnd then some ([], rest)
    else (cutLine rest).map fun (line, others) => (b :: line, others)

/-- A line and what comes after it are together one byte shorter than the whole. -/
theorem length_of_cutLine {bytes line rest : List UInt8} (h : cutLine bytes = some (line, rest)) :
    line.length + rest.length + 1 = bytes.length := by
  induction bytes generalizing line with
  | nil => cases h
  | cons b others ih =>
    simp only [cutLine] at h
    split at h
    · cases h; simp
    · obtain ⟨⟨line', rest'⟩, hcut, heq⟩ := Option.map_eq_some_iff.1 h
      simp only [Prod.mk.injEq] at heq
      obtain ⟨rfl, rfl⟩ := heq
      have := ih hcut
      simp only [List.length_cons]
      omega

/-- The failure of a stream whose last piece is not complete. -/
def bytesRemaining : DaemonFault := .io "bytes remaining on stream"

end Dockmaster.Docker
