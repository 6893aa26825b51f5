import Dockmaster.Proofs.Json.Grammar
import Mathlib.Data.List.Basic

/-!
# String literals are read as they are written

The reader takes a literal apart into its pieces (`readPieces_of_spells`) and puts the pieces
together to a text. It finds the text that has the same units of sixteen bits, and finds none only
if there is none (`assemble?_eq_some_iff`). Units determine a text (`flatMap_units_inj`): the units
of a character are one that is no half of a surrogate pair, or the two halves of one.
-/

namespace Dockmaster.Json

open Text

/-! ### Units -/

theorem isHighHalf_iff {n : Nat} : isHighHalf n = true ↔ 0xD800 ≤ n ∧ n ≤ 0xDBFF := by
  rw [isHighHalf, Bool.and_eq_true, decide_eq_true_eq, decide_eq_true_eq]

theorem isLowHalf_iff {n : Nat} : isLowHalf n = true ↔ 0xDC00 ≤ n ∧ n ≤ 0xDFFF := by
  rw [isLowHalf, Bool.and_eq_true, decide_eq_true_eq, decide_eq_true_eq]

theorem toNat_ofNat {n : Nat} (h : n.isValidChar) : (Char.ofNat n).toNat = n := by
  rw [Char.ofNat, dif_pos h]
  rfl

theorem units_of_lt {c : Char} (h : c.toNat < 0x10000) : units c = [c.toNat] := if_pos h

theorem units_of_le {c : Char} (h : 0x10000 ≤ c.toNat) :
    units c = [0xD800 + (c.toNat - 0x10000) / 0x400, 0xDC00 + (c.toNat - 0x10000) % 0x400] :=
  if_neg (Nat.not_lt.mpr h)

/-- **The units of a character**: one that is no half of a surrogate pair, or two halves. -/
theorem units_cases (c : Char) :
    (units c = [c.toNat] ∧ isHighHalf c.toNat = false ∧ isLowHalf c.toNat = false) ∨
    ∃ high low, units c = [high, low] ∧ isHighHalf high = true ∧ isLowHalf low = true ∧
      joinHalves high low = c := by
  have hc : c.toNat < 0xD800 ∨ 0xDFFF < c.toNat ∧ c.toNat < 0x110000 := c.valid
  by_cases h : c.toNat < 0x10000
  · refine .inl ⟨units_of_lt h, ?_, ?_⟩
    · rw [← Bool.not_eq_true, isHighHalf_iff]
      omega
    · rw [← Bool.not_eq_true, isLowHalf_iff]
      omega
  · refine .inr ⟨_, _, units_of_le (Nat.not_lt.mp h), ?_, ?_, ?_⟩
    · rw [isHighHalf_iff]
      omega
    · rw [isLowHalf_iff]
      omega
    · have hjoin : 0x10000 + 0x400 * (0xD800 + (c.toNat - 0x10000) / 0x400 - 0xD800) +
          (0xDC00 + (c.toNat - 0x10000) % 0x400 - 0xDC00) = c.toNat := by omega
      rw [joinHalves, hjoin, Char.ofNat_toNat]

/-- Two halves make up a character that has them as its units. -/
theorem units_joinHalves {high low : Nat} (hhigh : isHighHalf high = true)
    (hlow : isLowHalf low = true) : units (joinHalves high low) = [high, low] := by
  rw [isHighHalf_iff] at hhigh
  rw [isLowHalf_iff] at hlow
  have hvalid : (0x10000 + 0x400 * (high - 0xD800) + (low - 0xDC00)).isValidChar :=
    .inr (by omega)
  have htoNat : (joinHalves high low).toNat =
      0x10000 + 0x400 * (high - 0xD800) + (low - 0xDC00) := toNat_ofNat hvalid
  rw [units_of_le (by omega), htoNat]
  have hfirst : 0xD800 + (0x10000 + 0x400 * (high - 0xD800) + (low - 0xDC00) - 0x10000) / 0x400 =
      high := by omega
  have hsecond : 0xDC00 + (0x10000 + 0x400 * (high - 0xD800) + (low - 0xDC00) - 0x10000) % 0x400 =
      low := by omega
  rw [hfirst, hsecond]

/-- A unit that is no half makes up a character by itself. -/
theorem units_ofNat {n : Nat} (hn : n < 0x10000) (hhigh : ¬ isHighHalf n = true)
    (hlow : ¬ isLowHalf n = true) : units (Char.ofNat n) = [n] := by
  rw [isHighHalf_iff] at hhigh
  rw [isLowHalf_iff] at hlow
  have hvalid : n.isValidChar := by
    rw [Nat.isValidChar]
    omega
  rw [units_of_lt (by rwa [toNat_ofNat hvalid]), toNat_ofNat hvalid]

/-- The units of no character are the beginning of those of another. -/
theorem units_append_inj {c d : Char} {us vs : List Nat} (h : units c ++ us = units d ++ vs) :
    c = d ∧ us = vs := by
  rcases units_cases c with ⟨hc, hchigh, -⟩ | ⟨high, low, hc, hhigh, -, hjoin⟩ <;>
    rcases units_cases d with ⟨hd, hdhigh, -⟩ | ⟨high', low', hd, hhigh', -, hjoin'⟩ <;>
    rw [hc, hd] at h
  · obtain ⟨hn, hrest⟩ := List.cons.inj h
    exact ⟨Char.toNat_inj.mp hn, hrest⟩
  · rw [(List.cons.inj h).1, hhigh'] at hchigh
    cases hchigh
  · rw [← (List.cons.inj h).1, hhigh] at hdhigh
    cases hdhigh
  · obtain ⟨hfirst, h⟩ := List.cons.inj h
    obtain ⟨hsecond, hrest⟩ := List.cons.inj h
    rw [← hfirst, ← hsecond] at hjoin'
    exact ⟨hjoin.symm.trans hjoin', hrest⟩

/-- A character has a unit. -/
theorem units_append_ne_nil {c : Char} {us : List Nat} : units c ++ us ≠ [] := by
  intro h
  rcases units_cases c with ⟨hc, -⟩ | ⟨high, low, hc, -⟩ <;> rw [hc] at h <;> cases h

/-- **Units determine a text.** -/
theorem append_eq_flatMap_units_iff {c : Char} {us : List Nat} {cs : List Char} :
    units c ++ us = cs.flatMap units ↔ ∃ rest, cs = c :: rest ∧ us = rest.flatMap units := by
  constructor
  · intro h
    cases cs with
    | nil => exact absurd h units_append_ne_nil
    | cons d rest =>
      obtain ⟨rfl, hrest⟩ := units_append_inj h
      exact ⟨rest, rfl, hrest⟩
  · rintro ⟨rest, rfl, rfl⟩
    rfl

/-- No two texts have the same units. -/
theorem flatMap_units_inj {cs ds : List Char} :
    cs.flatMap units = ds.flatMap units ↔ cs = ds := by
  induction cs generalizing ds with
  | nil =>
    cases ds with
    | nil => exact iff_of_true rfl rfl
    | cons d ds => exact iff_of_false (fun h => units_append_ne_nil h.symm) nofun
  | cons c cs ih =>
    rw [List.flatMap_cons, append_eq_flatMap_units_iff]
    constructor
    · rintro ⟨rest, rfl, hrest⟩
      rw [ih.mp hrest]
    · rintro rfl
      exact ⟨cs, rfl, rfl⟩

/-- The first unit of a character is no second half. -/
theorem isLowHalf_of_units_append {c : Char} {n : Nat} {us vs : List Nat}
    (h : units c ++ us = n :: vs) : isLowHalf n = false := by
  rcases units_cases c with ⟨hc, -, hlow⟩ | ⟨high, low, hc, hhigh, -⟩
  · rw [hc] at h
    rwa [← (List.cons.inj h).1]
  · rw [hc] at h
    rw [← (List.cons.inj h).1]
    rw [isHighHalf_iff] at hhigh
    rw [← Bool.not_eq_true, isLowHalf_iff]
    omega

/-- A first half is the first unit of a text only before a second half, and a second half never
is. -/
theorem head_of_cons_eq_flatMap_units {n : Nat} {us : List Nat} {cs : List Char}
    (h : n :: us = cs.flatMap units) :
    (isHighHalf n = false ∧ isLowHalf n = false) ∨
      isHighHalf n = true ∧ isLowHalf n = false ∧
        ∃ low rest, us = low :: rest ∧ isLowHalf low = true := by
  cases cs with
  | nil => cases h
  | cons c rest =>
    rw [List.flatMap_cons] at h
    have hno : isLowHalf n = false := isLowHalf_of_units_append h.symm
    rcases units_cases c with ⟨hc, hhigh, -⟩ | ⟨high, low, hc, hhigh, hlow, -⟩
    · rw [hc] at h
      rw [(List.cons.inj h).1] at hno ⊢
      exact .inl ⟨hhigh, hno⟩
    · rw [hc] at h
      obtain ⟨rfl, hrest⟩ := List.cons.inj h
      exact .inr ⟨hhigh, hno, low, _, hrest, hlow⟩

/-! ### Texts of pieces -/

/-- A text begins with a character whose units come first. -/
theorem map_cons_eq_some_iff {c : Char} {us : List Nat} {text? : Option (List Char)}
    (ih : ∀ cs, text? = some cs ↔ us = cs.flatMap units) (cs : List Char) :
    text?.map (c :: ·) = some cs ↔ units c ++ us = cs.flatMap units := by
  rw [append_eq_flatMap_units_iff, Option.map_eq_some_iff]
  constructor
  · rintro ⟨rest, hrest, rfl⟩
    exact ⟨rest, rfl, (ih rest).mp hrest⟩
  · rintro ⟨rest, rfl, hrest⟩
    exact ⟨rest, (ih rest).mpr hrest, rfl⟩

/-- **Pieces denote the text that has their units**, if there is one. -/
theorem assemble?_eq_some_iff {pieces : List Piece} (hcodes : ∀ n, .code n ∈ pieces → n < 0x10000)
    (cs : List Char) :
    assemble? pieces = some cs ↔ pieces.flatMap Piece.units = cs.flatMap units := by
  induction pieces using assemble?.induct generalizing cs with
  | case1 =>
    cases cs with
    | nil => exact iff_of_true rfl rfl
    | cons c rest => exact iff_of_false nofun fun h => units_append_ne_nil h.symm
  | case2 c rest ih =>
    rw [assemble?]
    exact map_cons_eq_some_iff (ih fun n hn => hcodes n (.tail _ hn)) cs
  | case3 high low rest hhigh hlow ih =>
    rw [assemble?, if_pos hhigh, if_pos hlow]
    have hrest := ih fun n hn => hcodes n (.tail _ (.tail _ hn))
    have hmap := map_cons_eq_some_iff (c := joinHalves high low) hrest cs
    rw [units_joinHalves hhigh hlow] at hmap
    exact hmap
  | case4 high low rest hhigh hlow =>
    rw [assemble?, if_pos hhigh, if_neg hlow]
    refine iff_of_false nofun fun h => ?_
    obtain ⟨hno, -⟩ | ⟨-, -, next, more, hnext, hlow'⟩ := head_of_cons_eq_flatMap_units h
    · rw [hno] at hhigh
      cases hhigh
    · obtain ⟨rfl, -⟩ := List.cons.inj hnext
      exact hlow hlow'
  | case5 high low rest hhigh hlow =>
    rw [assemble?, if_neg hhigh, if_pos hlow]
    refine iff_of_false nofun fun h => ?_
    obtain ⟨-, hno⟩ | ⟨-, hno, -⟩ := head_of_cons_eq_flatMap_units h
    · rw [hno] at hlow
      cases hlow
    · rw [hno] at hlow
      cases hlow
  | case6 high low rest hhigh hlow ih =>
    rw [assemble?, if_neg hhigh, if_neg hlow]
    have hrest := ih fun n hn => hcodes n (.tail _ hn)
    have hmap := map_cons_eq_some_iff (c := Char.ofNat high) hrest cs
    rw [units_ofNat (hcodes high (.head _)) hhigh hlow] at hmap
    exact hmap
  | case7 n rest hnext hhalf =>
    rw [assemble?, if_pos hhalf]
    · refine iff_of_false nofun fun h => ?_
      rw [Bool.or_eq_true] at hhalf
      obtain ⟨hnohigh, hnolow⟩ | ⟨-, -, low, more, hmore, hlow⟩ := head_of_cons_eq_flatMap_units h
      · rw [hnohigh, hnolow] at hhalf
        simp at hhalf
      · -- A second half has to come next, and only a code could be one.
        cases rest with
        | nil => cases hmore
        | cons piece rest =>
          cases piece with
          | char c =>
            rw [isLowHalf_of_units_append hmore] at hlow
            cases hlow
          | code low => exact hnext low rest rfl
    · exact hnext
  | case8 n rest hnext hhalf ih =>
    rw [Bool.or_eq_true, not_or] at hhalf
    have hrest := ih fun n hn => hcodes n (.tail _ hn)
    have hmap := map_cons_eq_some_iff (c := Char.ofNat n) hrest cs
    rw [units_ofNat (hcodes n (.head _)) hhalf.1 hhalf.2] at hmap
    rw [assemble?, if_neg (by rw [Bool.or_eq_true, not_or]; exact hhalf)]
    · exact hmap
    · exact hnext

/-! ### Reading pieces -/

/-- The value of a digit is below sixteen. -/
theorem hexValue?_lt {c : Char} {n : Nat} (h : hexValue? c = some n) : n < 16 := by
  unfold hexValue? at h
  split_ifs at h with hdigit hsmall hcapital
  · have hle : c.toNat ≤ '9'.toNat := hdigit.2
    rw [← Option.some.inj h]
    change c.toNat - 48 < 16
    change c.toNat ≤ 57 at hle
    omega
  · have hle : c.toNat ≤ 'f'.toNat := hsmall.2
    rw [← Option.some.inj h]
    change c.toNat - 97 + 10 < 16
    change c.toNat ≤ 102 at hle
    omega
  · have hle : c.toNat ≤ 'F'.toNat := hcapital.2
    rw [← Option.some.inj h]
    change c.toNat - 65 + 10 < 16
    change c.toNat ≤ 70 at hle
    omega

/-- The number of two digits is a byte. -/
theorem hexPair?_lt {high low : Char} {n : Nat} (h : hexPair? high low = some n) : n < 0x100 := by
  simp only [hexPair?, Option.bind_eq_bind, Option.bind_eq_some_iff] at h
  obtain ⟨m, hm, k, hk, hn⟩ := h
  have hmlt : m < 16 := hexValue?_lt hm
  have hklt : k < 16 := hexValue?_lt hk
  rw [← Option.some.inj hn]
  omega

/-- Four digits make a unit of sixteen bits. -/
theorem hexCode?_lt {a b c d : Char} {n : Nat} (h : hexCode? a b c d = some n) : n < 0x10000 := by
  simp only [hexCode?, Option.bind_eq_bind, Option.bind_eq_some_iff] at h
  obtain ⟨m, hm, k, hk, hn⟩ := h
  have hmlt : m < 0x100 := hexPair?_lt hm
  have hklt : k < 0x100 := hexPair?_lt hk
  rw [← Option.some.inj hn]
  omega

/-- A code is written as a unit of sixteen bits. -/
theorem SpellsPieces.code_lt {pieces : List Piece} {cs : List Char} (h : SpellsPieces pieces cs) :
    ∀ n, .code n ∈ pieces → n < 0x10000 := by
  induction h with
  | nil => exact fun n hn => nomatch hn
  | cons first others ih =>
    intro n hn
    cases hn with
    | head =>
      cases first with
      | code digits => exact hexCode?_lt digits
    | tail _ hn => exact ih n hn

/-- **Pieces are read as they are written.** -/
theorem readPieces_of_spells {pieces : List Piece} {body : List Char} (h : SpellsPieces pieces body)
    (rest : List Char) : readPieces (body ++ '"' :: rest) = .ok (pieces, rest) := by
  induction h with
  | nil => rfl
  | cons first others ih =>
    rw [List.append_assoc]
    cases first with
    | plain unquoted unescaped uncontrolled =>
      rw [List.singleton_append, readPieces.eq_7, if_neg (Nat.not_lt.mpr uncontrolled), ih]
      · rfl
      · exact unquoted
      all_goals
        intros
        contradiction
    | letter stands =>
      rw [List.cons_append, List.singleton_append, readPieces.eq_5, stands, ih]
      · rfl
      all_goals
        intros
        subst_vars
        cases stands
    | code digits =>
      simp only [List.cons_append, List.nil_append]
      rw [readPieces.eq_3, digits, ih]
      rfl

/-- **The pieces of a literal determine what it denotes.** -/
theorem assemble?_eq_iff {pieces : List Piece} {cs : List Char} (h : SpellsPieces pieces cs)
    (literal : Literal) :
    (assemble? pieces).map String.ofList = literal ↔
      ∀ s, literal = some s ↔ pieces.flatMap Piece.units = s.toList.flatMap units := by
  have htext : ∀ s, (assemble? pieces).map String.ofList = some s ↔
      pieces.flatMap Piece.units = s.toList.flatMap units := by
    intro s
    rw [← assemble?_eq_some_iff h.code_lt, Option.map_eq_some_iff]
    constructor
    · rintro ⟨cs, hcs, rfl⟩
      rwa [String.toList_ofList]
    · exact fun h => ⟨s.toList, h, String.ofList_toList⟩
  constructor
  · rintro rfl
    exact htext
  · intro hliteral
    exact Option.ext fun s => (htext s).trans (hliteral s).symm

/-- Whatever pieces are written, they spell a literal. -/
theorem spellsLiteral_of_pieces {pieces : List Piece} {cs : List Char}
    (h : SpellsPieces pieces cs) : SpellsLiteral ((assemble? pieces).map String.ofList) cs :=
  ⟨pieces, h, (assemble?_eq_iff h _).mp rfl⟩

/-- **A literal is read as it is written.** -/
theorem readLiteral_of_spells {literal : Literal} {body : List Char}
    (h : SpellsLiteral literal body) (rest : List Char) :
    readLiteral (body ++ '"' :: rest) = .ok (literal, rest) := by
  obtain ⟨pieces, hpieces, hliteral⟩ := h
  have hdenotes := (assemble?_eq_iff hpieces literal).mpr hliteral
  rw [readLiteral, readPieces_of_spells hpieces rest, ← hdenotes]
  rfl

end Dockmaster.Json
