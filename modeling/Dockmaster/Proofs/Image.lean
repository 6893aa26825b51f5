import Dockmaster.Image
import Dockmaster.Proofs.Text.Blank

/-!
# Which images are in a registry

An image reference names a registry iff, blanks and digest apart, it has a first segment with a
point or a colon in it and a second one (`isRemote_exact`).  The tag plays no part in this: what is
cut off as a tag has no slash in it, and what has no slash in it can be added to a text or taken
from its end without a difference (`inRegistry_append_iff`).  The blanks at the end and the digest
are of this kind, too.
-/

namespace Dockmaster.Image

open Text

/-- A text of at least two segments, the first of which has a point or a colon in it. -/
def InRegistry (cs : List Char) : Prop :=
  ∃ host path, cs = host ++ '/' :: path ∧ '/' ∉ host ∧ ('.' ∈ host ∨ ':' ∈ host)

/-! ### Cutting at a character -/

theorem takeWhile_of_not_mem {mark : Char} {cs : List Char} (h : mark ∉ cs) :
    cs.takeWhile (· ≠ mark) = cs := by
  refine List.takeWhile_eq_self_iff.mpr fun c hc => decide_eq_true ?_
  rintro rfl
  exact h hc

theorem takeWhile_append_mark {mark : Char} {before : List Char} (h : mark ∉ before)
    (rest : List Char) : (before ++ mark :: rest).takeWhile (· ≠ mark) = before := by
  have hstop : (mark :: rest).takeWhile (· ≠ mark) = [] :=
    List.takeWhile_cons_of_neg (by simp)
  rw [List.takeWhile_append, takeWhile_of_not_mem h, if_pos rfl, hstop, List.append_nil]

/-! ### The first segment -/

theorem namesRegistry_iff {cs : List Char} : namesRegistry cs = true ↔ InRegistry cs := by
  unfold namesRegistry
  simp only [Bool.and_eq_true, decide_eq_true_eq, List.any_eq_true, Bool.or_eq_true]
  constructor
  · rintro ⟨hslash, c, hc, hmark⟩
    obtain ⟨host, path, rfl, hhost⟩ := List.eq_append_cons_of_mem hslash
    rw [takeWhile_append_mark hhost] at hc
    refine ⟨host, path, rfl, hhost, ?_⟩
    rcases hmark with rfl | rfl
    · exact .inl hc
    · exact .inr hc
  · rintro ⟨host, path, rfl, hhost, hmark⟩
    rw [takeWhile_append_mark hhost]
    refine ⟨List.mem_append_right _ List.mem_cons_self, ?_⟩
    rcases hmark with hpoint | hcolon
    · exact ⟨_, hpoint, .inl rfl⟩
    · exact ⟨_, hcolon, .inr rfl⟩

/-- **Only what stands before the first slash counts**, so an end without a slash does not. -/
theorem inRegistry_append_iff {cs tail : List Char} (h : '/' ∉ tail) :
    InRegistry (cs ++ tail) ↔ InRegistry cs := by
  constructor
  · rintro ⟨host, path, heq, hhost, hmark⟩
    rcases List.append_eq_append_iff.mp heq with ⟨between, -, htail⟩ | ⟨between, hcs, hpath⟩
    · exact absurd (htail ▸ List.mem_append_right _ List.mem_cons_self) h
    · cases between with
      | nil =>
        rw [List.nil_append] at hpath
        exact absurd (hpath ▸ List.mem_cons_self) h
      | cons c path =>
        obtain rfl : '/' = c := (List.cons.inj hpath).1
        exact ⟨host, path, hcs, hhost, hmark⟩
  · rintro ⟨host, path, rfl, hhost, hmark⟩
    exact ⟨host, path ++ tail, by rw [List.append_assoc, List.cons_append], hhost, hmark⟩

/-! ### The tag -/

/-- What is cut off as a tag has no slash in it. -/
theorem exists_tag (cs : List Char) : ∃ tag, '/' ∉ tag ∧ cs = withoutTag cs ++ tag := by
  unfold withoutTag
  dsimp only
  split_ifs with h
  · obtain ⟨hcolon, hslash⟩ := h
    obtain ⟨after, before, hreverse, hafter⟩ :=
      List.eq_append_cons_of_mem (List.mem_reverse.mpr hcolon)
    have hcs : cs = before.reverse ++ ':' :: after.reverse := by
      rw [← List.reverse_reverse cs, hreverse]
      simp
    rw [hreverse, takeWhile_append_mark hafter] at hslash ⊢
    refine ⟨':' :: after.reverse, ?_, ?_⟩
    · rw [List.mem_cons, not_or]
      exact ⟨by decide, hslash⟩
    · have hlength : cs.length - after.reverse.length - 1 = before.reverse.length := by
        rw [hcs]
        simp only [List.length_append, List.length_cons]
        omega
      rw [hlength, hcs, List.take_left]
  · exact ⟨[], List.not_mem_nil, (List.append_nil cs).symm⟩

/-- **A tag makes no difference.** -/
theorem inRegistry_withoutTag {cs : List Char} : InRegistry (withoutTag cs) ↔ InRegistry cs := by
  obtain ⟨tag, hslash, hcs⟩ := exists_tag cs
  calc InRegistry (withoutTag cs)
      ↔ InRegistry (withoutTag cs ++ tag) := (inRegistry_append_iff hslash).symm
    _ ↔ InRegistry cs := by rw [← hcs]

/-! ### The digest and the blanks -/

theorem withoutDigest_append (cs tail : List Char) :
    ∃ kept, (∀ c ∈ kept, c ∈ withoutDigest tail) ∧
      withoutDigest (cs ++ tail) = withoutDigest cs ++ kept := by
  unfold withoutDigest
  rw [List.takeWhile_append]
  split_ifs with hwhole
  · refine ⟨_, fun c hc => hc, ?_⟩
    rw [(List.takeWhile_prefix _).eq_of_length hwhole]
  · exact ⟨[], fun c hc => absurd hc List.not_mem_nil, (List.append_nil _).symm⟩

theorem inRegistry_withoutDigest_append {cs tail : List Char} (h : '/' ∉ withoutDigest tail) :
    InRegistry (withoutDigest (cs ++ tail)) ↔ InRegistry (withoutDigest cs) := by
  obtain ⟨kept, hkept, heq⟩ := withoutDigest_append cs tail
  rw [heq]
  exact inRegistry_append_iff fun hslash => h (hkept _ hslash)

theorem isRemote_iff_inRegistry {reference : String} :
    isRemote reference = true ↔ InRegistry (withoutDigest (trimChars reference.toList)) :=
  namesRegistry_iff.trans inRegistry_withoutTag

/-- The blanks at the end make no difference. -/
theorem isRemote_iff_trimStart {reference : String} :
    isRemote reference = true ↔ InRegistry (withoutDigest (trimStart reference.toList)) := by
  obtain ⟨after, hafter, hstart⟩ := exists_trimEnd (trimStart reference.toList)
  have hslash : '/' ∉ withoutDigest after := fun h =>
    absurd (hafter _ ((List.takeWhile_sublist _).subset h)) (by decide)
  calc isRemote reference = true
      ↔ InRegistry (withoutDigest (trimChars reference.toList)) := isRemote_iff_inRegistry
    _ ↔ InRegistry (withoutDigest (trimChars reference.toList ++ after)) :=
        (inRegistry_withoutDigest_append hslash).symm
    _ ↔ InRegistry (withoutDigest (trimStart reference.toList)) := by rw [trimChars, ← hstart]

/-- An end that begins with no blank, and has no slash before its at sign, makes no difference. -/
theorem isRemote_append {reference tail : String} {c : Char} {rest : List Char}
    (htail : tail.toList = c :: rest) (hblank : isBlank c = false)
    (hslash : '/' ∉ withoutDigest (c :: rest)) :
    isRemote (reference ++ tail) = isRemote reference := by
  rw [Bool.eq_iff_iff, isRemote_iff_trimStart, isRemote_iff_trimStart, String.toList_append, htail,
    trimStart_append_cons _ _ hblank]
  exact inRegistry_withoutDigest_append hslash

/-- The name of an image without blanks, digest and tag. -/
def bareName (reference : String) : String :=
  String.ofList (withoutTag (withoutDigest (trimChars reference.toList)))

theorem isRemote_bareName (reference : String) :
    isRemote (bareName reference) = isRemote reference := by
  have hname : (bareName reference).toList =
      withoutTag (withoutDigest (trimChars reference.toList)) := String.toList_ofList
  have hbegins : (bareName reference).toList <+: withoutDigest (trimChars reference.toList) := by
    obtain ⟨tag, -, htag⟩ := exists_tag (withoutDigest (trimChars reference.toList))
    rw [hname]
    exact ⟨tag, htag.symm⟩
  have hdigest : '@' ∉ (bareName reference).toList := fun h => by
    simpa using List.mem_takeWhile_imp (hbegins.subset h)
  have hstart : trimStart (bareName reference).toList = (bareName reference).toList := by
    refine trimStart_eq_self fun c hc => (bare_trimChars reference.toList).head c ?_
    have hfirst : [c] <+: (bareName reference).toList :=
      List.singleton_prefix_iff_head?_eq_some.mpr hc
    exact List.singleton_prefix_iff_head?_eq_some.mp
      (hfirst.trans (hbegins.trans (List.takeWhile_prefix _)))
  rw [Bool.eq_iff_iff, isRemote_iff_trimStart, hstart, withoutDigest, takeWhile_of_not_mem hdigest,
    hname, isRemote_iff_inRegistry]
  exact inRegistry_withoutTag

/-! ### Image references -/

/-- **What makes an image remote.**  A reference names a registry iff what stands before its first
at sign, blanks around the reference apart, goes on after a first slash and has a point or a colon
before it.  So it does not matter whether a tag is taken off, and neither does a digest or a tag
that is added, even to a reference that is blank or has a digest already. -/
theorem isRemote_exact (reference : String) :
    (isRemote reference = true ↔
      ∃ host path, (trimChars reference.toList).takeWhile (· ≠ '@') = host ++ '/' :: path ∧
        '/' ∉ host ∧ ('.' ∈ host ∨ ':' ∈ host)) ∧
    isRemote (bareName reference) = isRemote reference ∧
    (∀ digest, isRemote (reference ++ ("@" ++ digest)) = isRemote reference) ∧
    (∀ tag, '/' ∉ tag.toList → isRemote (reference ++ (":" ++ tag)) = isRemote reference) := by
  refine ⟨isRemote_iff_inRegistry, isRemote_bareName reference, fun digest => ?_,
    fun tag hslash => ?_⟩
  · have hat : ("@" ++ digest).toList = '@' :: digest.toList := String.toList_append
    exact isRemote_append hat (by decide) (by simp [withoutDigest])
  · have hcolon : (":" ++ tag).toList = ':' :: tag.toList := String.toList_append
    refine isRemote_append hcolon (by decide) fun h => ?_
    rcases List.mem_cons.mp ((List.takeWhile_sublist _).subset h) with h | h
    · exact absurd h (by decide)
    · exact hslash h

example : isRemote " localhost:5000/app:dev@sha256:ab/cd " = true := by decide +kernel

end Dockmaster.Image
