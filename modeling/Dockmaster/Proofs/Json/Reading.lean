import Dockmaster.Proofs.Json.Literal
import Mathlib.Data.List.Basic

/-!
# Every JSON text is read

The reader finds the value that a text spells (`parse_of_isTextOf`). A number ends only where
nothing that could belong to it follows, so every token is read together with what stands behind it.
The steps that the reader allows itself are enough: a value takes at most two for each of its
characters (`reads`). Nothing bounds how deeply values are nested.
-/

namespace Dockmaster.Json

/-! ### Blanks and words -/

theorem isSpace_iff {c : Char} :
    isSpace c = true ↔ c = ' ' ∨ c = '\n' ∨ c = '\t' ∨ c = '\r' := by
  simp only [isSpace, Bool.or_eq_true, decide_eq_true_eq, or_assoc]

theorem skipSpace_append {blanks : List Char} (h : IsBlank blanks) (cs : List Char) :
    skipSpace (blanks ++ cs) = skipSpace cs :=
  List.dropWhile_append_of_pos h

theorem skipSpace_cons {c : Char} {cs : List Char} (h : isSpace c = false) :
    skipSpace (c :: cs) = c :: cs := by
  rw [skipSpace, List.dropWhile_cons_of_neg]
  rw [h]
  exact Bool.false_ne_true

theorem skipSpace_append_cons {blanks : List Char} (h : IsBlank blanks) {c : Char} {cs : List Char}
    (hc : isSpace c = false) : skipSpace (blanks ++ c :: cs) = c :: cs := by
  rw [skipSpace_append h, skipSpace_cons hc]

/-- A word is read to its end. -/
theorem readWordRest_append (value : Json) (word rest : List Char) :
    readWordRest value word (word ++ rest) = .ok (value, rest) := by
  induction word with
  | nil => rfl
  | cons c word ih =>
    rw [List.cons_append, readWordRest, if_pos rfl, ih]

/-! ### Numbers -/

/-- No digit comes next. -/
def EndsDigits (rest : List Char) : Prop := ∀ c ∈ rest.head?, c.isDigit = false

/-- Nothing that could go on with a number comes next. -/
def EndsNumber (rest : List Char) : Prop :=
  ∀ c ∈ rest.head?, c.isDigit = false ∧ c ≠ '.' ∧ c ≠ 'e' ∧ c ≠ 'E'

theorem EndsNumber.endsDigits {rest : List Char} (h : EndsNumber rest) : EndsDigits rest :=
  fun c hc => (h c hc).1

theorem endsNumber_nil : EndsNumber [] := nofun

theorem endsNumber_append {blanks rest : List Char} (h : IsBlank blanks) (hrest : EndsNumber rest) :
    EndsNumber (blanks ++ rest) := by
  cases blanks with
  | nil => exact hrest
  | cons b blanks =>
    rintro c ⟨⟩
    rcases isSpace_iff.mp (h b (.head _)) with rfl | rfl | rfl | rfl <;> decide

/-- Digits are read as far as they go. -/
theorem readDigits_of_isDigits {cs rest : List Char} (h : IsDigits cs) (hrest : EndsDigits rest) :
    readDigits (cs ++ rest) = .ok (cs, rest) := by
  obtain ⟨hne, hdigits⟩ := h
  have htake : rest.takeWhile Char.isDigit = [] ∧ rest.dropWhile Char.isDigit = rest := by
    cases rest with
    | nil => exact ⟨rfl, rfl⟩
    | cons c rest =>
      have hc : ¬ c.isDigit = true := by
        rw [hrest c rfl]
        exact Bool.false_ne_true
      exact ⟨List.takeWhile_cons_of_neg hc, List.dropWhile_cons_of_neg hc⟩
  rw [readDigits, List.takeWhile_append_of_pos hdigits, List.dropWhile_append_of_pos hdigits,
    htake.1, htake.2, List.append_nil]
  cases cs with
  | nil => exact absurd rfl hne
  | cons c cs => rfl

/-- Digits begin with a digit. -/
theorem IsDigits.eq_cons {cs : List Char} (h : IsDigits cs) :
    ∃ c rest, cs = c :: rest ∧ c.isDigit = true := by
  cases cs with
  | nil => exact absurd rfl h.1
  | cons c rest => exact ⟨c, rest, rfl, h.2 c (.head _)⟩

theorem readWhole_of_isWhole {cs rest : List Char} (h : IsWhole cs) (hrest : EndsDigits rest) :
    readWhole (cs ++ rest) = .ok (cs, rest) := by
  rw [readWhole, readDigits_of_isDigits h.1 hrest]
  simp only [bind, Except.bind]
  split
  · cases h.2 _ rfl
  · rfl

theorem readFraction_of_isFraction {cs rest : List Char} (h : IsFraction cs)
    (hrest : EndsDigits rest) (hpoint : '.' ∉ rest.head?) :
    readFraction (cs ++ rest) = .ok (cs, rest) := by
  cases h with
  | none =>
    rw [List.nil_append, readFraction.eq_2]
    rintro more rfl
    exact hpoint rfl
  | digits h =>
    rw [List.cons_append, readFraction, readDigits_of_isDigits h hrest]
    rfl

theorem readExponent_of_isExponent {cs rest : List Char} (h : IsExponent cs)
    (hrest : EndsNumber rest) : readExponent (cs ++ rest) = .ok (cs, rest) := by
  cases h with
  | none =>
    cases rest with
    | nil => rfl
    | cons c rest =>
      obtain ⟨-, -, hsmall, hcapital⟩ := hrest c rfl
      exact if_neg (not_or.mpr ⟨hsmall, hcapital⟩)
  | digits isMark isSign h =>
    have hread := readDigits_of_isDigits h hrest.endsDigits
    rcases isSign with rfl | rfl | rfl
    · obtain ⟨c, more, rfl, hc⟩ := h.eq_cons
      simp only [List.nil_append, List.cons_append] at hread ⊢
      rw [readExponent.eq_3, if_pos isMark, hread]
      · rfl
      all_goals
        rintro _ ⟨⟩
        cases hc
    · simp only [List.nil_append, List.cons_append]
      rw [readExponent.eq_1, if_pos isMark, hread]
      rfl
    · simp only [List.nil_append, List.cons_append]
      rw [readExponent.eq_2, if_pos isMark, hread]
      rfl

/-- What comes behind a fraction ends its digits. -/
theorem endsDigits_exponent {exponent rest : List Char} (h : IsExponent exponent)
    (hrest : EndsNumber rest) : EndsDigits (exponent ++ rest) ∧ '.' ∉ (exponent ++ rest).head? := by
  cases h with
  | none => exact ⟨hrest.endsDigits, fun hpoint => (hrest _ hpoint).2.1 rfl⟩
  | digits isMark =>
    rcases isMark with rfl | rfl
    · exact ⟨by rintro c ⟨⟩; rfl, by rintro ⟨⟩⟩
    · exact ⟨by rintro c ⟨⟩; rfl, by rintro ⟨⟩⟩

/-- What comes behind the whole part of a number ends its digits. -/
theorem endsDigits_fraction {fraction rest : List Char} (h : IsFraction fraction)
    (hrest : EndsDigits rest) : EndsDigits (fraction ++ rest) := by
  cases h with
  | none => exact hrest
  | digits h => rintro c ⟨⟩; rfl

/-- **A number is read as it is written.** -/
theorem readNumber_of_spells (negative : Bool) {whole fraction exponent rest : List Char}
    (isWhole : IsWhole whole) (isFraction : IsFraction fraction) (isExponent : IsExponent exponent)
    (hrest : EndsNumber rest) :
    readNumber (minus negative ++ (whole ++ (fraction ++ (exponent ++ rest)))) =
      .ok (numberOf negative whole fraction exponent, rest) := by
  obtain ⟨hdigits, hpoint⟩ := endsDigits_exponent isExponent hrest
  have hexponent := readExponent_of_isExponent isExponent hrest
  have hfraction := readFraction_of_isFraction isFraction hdigits hpoint
  have hwhole := readWhole_of_isWhole isWhole (endsDigits_fraction isFraction hdigits)
  cases negative with
  | true =>
    change readNumber ('-' :: (whole ++ (fraction ++ (exponent ++ rest)))) = _
    rw [readNumber.eq_1, hwhole]
    simp only [bind, Except.bind, hfraction, hexponent]
    rfl
  | false =>
    change readNumber (whole ++ (fraction ++ (exponent ++ rest))) = _
    rw [readNumber.eq_2, hwhole]
    · simp only [bind, Except.bind, hfraction, hexponent]
      rfl
    · intro more heq
      obtain ⟨c, digits, rfl, hc⟩ := isWhole.1.eq_cons
      cases (List.cons.inj heq).1
      cases hc

/-! ### Values -/

/-- Whether a number may begin with a character. -/
def BeginsNumber (c : Char) : Prop := c = '-' ∨ c.isDigit = true

theorem BeginsNumber.isSpace_eq_false {c : Char} (h : BeginsNumber c) : isSpace c = false := by
  rw [← Bool.not_eq_true, isSpace_iff]
  rintro (rfl | rfl | rfl | rfl) <;> rcases h with h | h <;> cases h

/-- A number begins with a minus sign or a digit. -/
theorem number_eq_cons (negative : Bool) {whole : List Char} (h : IsWhole whole)
    (rest : List Char) :
    ∃ c more, minus negative ++ (whole ++ rest) = c :: more ∧ BeginsNumber c := by
  cases negative with
  | true => exact ⟨'-', _, rfl, .inl rfl⟩
  | false =>
    obtain ⟨c, more, rfl, hc⟩ := h.1.eq_cons
    exact ⟨c, _, rfl, .inr hc⟩

/-- A value begins with a character that is no blank and no closing bracket. -/
theorem Spells.eq_cons {value : Json} {cs : List Char} (h : Spells value cs) :
    ∃ c rest, cs = c :: rest ∧ isSpace c = false ∧ c ≠ ']' := by
  cases h with
  | number negative isWhole =>
    obtain ⟨c, more, heq, hc⟩ := number_eq_cons negative isWhole _
    refine ⟨c, more, heq, hc.isSpace_eq_false, ?_⟩
    rintro rfl
    rcases hc with hc | hc <;> cases hc
  | _ => exact ⟨_, _, rfl, rfl, by decide⟩

/-- A member begins with a quotation mark. -/
theorem SpellsMember.eq_cons (member : Literal × Json) (cs : List Char)
    (h : SpellsMember Spells member cs) : ∃ c rest, cs = c :: rest ∧ c = '"' := by
  cases h
  exact ⟨_, _, rfl, rfl⟩

/-- Things with commas between them begin like the first of them. -/
theorem Separated.eq_cons {α : Type} {Written : α → List Char → Prop} {P : Char → Prop}
    (first : ∀ x cs, Written x cs → ∃ c rest, cs = c :: rest ∧ P c) {xs : List α} {cs : List Char}
    (h : Separated Written xs cs) : ∃ c rest, cs = c :: rest ∧ P c := by
  cases h with
  | last written =>
    obtain ⟨c, rest, rfl, hc⟩ := first _ _ written
    exact ⟨c, _, rfl, hc⟩
  | cons written =>
    obtain ⟨c, rest, rfl, hc⟩ := first _ _ written
    exact ⟨c, _, rfl, hc⟩

/-! ### One step of the reader -/

section Steps

variable {steps : Nat} {cs rest more next last : List Char} {c : Char}

theorem readItems_last {item : Json} (hitem : readValue steps cs = .ok (item, rest))
    (hend : skipSpace rest = ']' :: last) :
    readItems (steps + 1) cs = .ok ([item], last) := by
  simp only [readItems, hitem, bind, Except.bind, hend]
  rfl

theorem readItems_more {item : Json} {items : List Json}
    (hitem : readValue steps cs = .ok (item, rest)) (hcomma : skipSpace rest = ',' :: more)
    (hmore : skipSpace more = c :: next) (hc : c ≠ ']')
    (hitems : readItems steps (c :: next) = .ok (items, last)) :
    readItems (steps + 1) cs = .ok (item :: items, last) := by
  simp only [readItems, hitem, bind, Except.bind, hcomma, hmore]
  split
  · contradiction
  · rename_i heq
    exact absurd (List.cons.inj heq).1 hc
  · rw [hitems]
    rfl

theorem readColon_of_skipSpace (hcolon : skipSpace cs = ':' :: rest) : readColon cs = .ok rest := by
  simp only [readColon, hcolon]

theorem readMembers_last {name : Literal} {value : Json} {body : List Char}
    (hname : readLiteral cs = .ok (name, rest)) (hcolon : skipSpace rest = ':' :: body)
    (hvalue : readValue steps body = .ok (value, more)) (hend : skipSpace more = '\x7d' :: last) :
    readMembers (steps + 1) ('"' :: cs) = .ok ([(name, value)], last) := by
  simp only [readMembers, hname, readColon_of_skipSpace hcolon, hvalue, bind, Except.bind, hend]
  rfl

theorem readMembers_more {name : Literal} {value : Json} {members : List (Literal × Json)}
    {body behind : List Char} (hname : readLiteral cs = .ok (name, rest))
    (hcolon : skipSpace rest = ':' :: body) (hvalue : readValue steps body = .ok (value, more))
    (hcomma : skipSpace more = ',' :: behind) (hbehind : skipSpace behind = '"' :: next)
    (hmembers : readMembers steps ('"' :: next) = .ok (members, last)) :
    readMembers (steps + 1) ('"' :: cs) = .ok ((name, value) :: members, last) := by
  simp only [readMembers, hname, readColon_of_skipSpace hcolon, hvalue, bind, Except.bind, hcomma,
    hbehind]
  split
  · contradiction
  · rename_i heq
    cases heq
  · rw [hmembers]
    rfl

theorem readValue_string {literal : Literal} (hcs : skipSpace cs = '"' :: rest)
    (hliteral : readLiteral rest = .ok (literal, last)) :
    readValue (steps + 1) cs = .ok (.string literal, last) := by
  simp only [readValue, hcs, hliteral, bind, Except.bind]
  rfl

theorem readValue_emptyArray (hcs : skipSpace cs = '[' :: rest)
    (hend : skipSpace rest = ']' :: last) : readValue (steps + 1) cs = .ok (.array [], last) := by
  simp only [readValue, hcs, hend]

theorem readValue_array {items : List Json} (hcs : skipSpace cs = '[' :: rest)
    (hrest : skipSpace rest = c :: next) (hc : c ≠ ']')
    (hitems : readItems steps (c :: next) = .ok (items, last)) :
    readValue (steps + 1) cs = .ok (.array items, last) := by
  simp only [readValue, hcs, hrest]
  split
  · contradiction
  · rename_i heq
    exact absurd (List.cons.inj heq).1 hc
  · rw [hitems]
    rfl

theorem readValue_emptyObject (hcs : skipSpace cs = '\x7b' :: rest)
    (hend : skipSpace rest = '\x7d' :: last) :
    readValue (steps + 1) cs = .ok (.object [], last) := by
  simp only [readValue, hcs, hend]

theorem readValue_object {members : List (Literal × Json)} (hcs : skipSpace cs = '\x7b' :: rest)
    (hrest : skipSpace rest = '"' :: next)
    (hmembers : readMembers steps ('"' :: next) = .ok (members, last)) :
    readValue (steps + 1) cs = .ok (.object members, last) := by
  simp only [readValue, hcs, hrest]
  split
  · contradiction
  · rename_i heq
    cases heq
  · rw [hmembers]
    rfl

theorem readValue_number (hcs : skipSpace cs = c :: rest) (hc : BeginsNumber c) :
    readValue (steps + 1) cs = readNumber (c :: rest) := by
  rw [readValue, hcs]
  split
  case h_8 heq =>
    obtain ⟨rfl, rfl⟩ := List.cons.inj heq
    exact if_pos (by simpa [BeginsNumber] using hc)
  all_goals
    rename_i heq
    cases heq <;> rcases hc with hc | hc <;> cases hc

end Steps

/-! ### Runs of the reader -/

/-- So many steps are enough for every value of half that length, whatever follows. -/
def Reads (steps : Nat) : Prop :=
  ∀ value cs blanks rest, Spells value cs → IsBlank blanks → EndsNumber rest →
    2 * cs.length ≤ steps → readValue steps (blanks ++ (cs ++ rest)) = .ok (value, rest)

/-- What follows a value inside brackets. -/
theorem endsNumber_delimiter {blanks rest : List Char} {c : Char} (h : IsBlank blanks)
    (hc : c = ',' ∨ c = ']' ∨ c = '\x7d') : EndsNumber (blanks ++ c :: rest) := by
  refine endsNumber_append h ?_
  rintro d ⟨⟩
  rcases hc with rfl | rfl | rfl <;> decide

/-- **Items are read as they are written**, if values are. -/
theorem readItems_of_separated {items : List Json} {cs : List Char}
    (h : Separated Spells items cs) (rest : List Char) {steps : Nat}
    (reads : ∀ k < steps, Reads k) (hsteps : 2 * cs.length + 1 ≤ steps) :
    readItems steps (cs ++ ']' :: rest) = .ok (items, rest) := by
  induction h generalizing steps with
  | @last item cs blanks written blank =>
    cases steps with
    | zero => cases hsteps
    | succ steps =>
      rw [List.length_append] at hsteps
      have hitem := reads steps (Nat.lt_succ_self steps) item cs [] (blanks ++ ']' :: rest) written
        nofun (endsNumber_delimiter blank (.inr (.inl rfl))) (by omega)
      rw [List.append_assoc]
      exact readItems_last hitem (skipSpace_append_cons blank (by decide))
  | @cons item items cs before after others written blankBefore blankAfter separated ih =>
    cases steps with
    | zero => cases hsteps
    | succ steps =>
      simp only [List.length_append, List.length_cons] at hsteps
      obtain ⟨c, more, rfl, hspace, hbracket⟩ :=
        separated.eq_cons (P := fun c => isSpace c = false ∧ c ≠ ']') fun _ _ h => h.eq_cons
      have hitem := reads steps (Nat.lt_succ_self steps) item cs []
        (before ++ ',' :: (after ++ (c :: more ++ ']' :: rest))) written nofun
        (endsNumber_delimiter blankBefore (.inl rfl)) (by omega)
      have hitems : readItems steps (c :: more ++ ']' :: rest) = .ok (items, rest) :=
        ih (fun k hk => reads k (Nat.lt_succ_of_lt hk)) (by omega)
      simp only [List.append_assoc, List.cons_append]
      exact readItems_more hitem (skipSpace_append_cons blankBefore (by decide))
        (skipSpace_append_cons blankAfter hspace) hbracket hitems

/-- **Members are read as they are written**, if values are. -/
theorem readMembers_of_separated {members : List (Literal × Json)} {cs : List Char}
    (h : Separated (SpellsMember Spells) members cs) (rest : List Char) {steps : Nat}
    (reads : ∀ k < steps, Reads k) (hsteps : 2 * cs.length + 1 ≤ steps) :
    readMembers steps (cs ++ '\x7d' :: rest) = .ok (members, rest) := by
  induction h generalizing steps with
  | @last member cs blanks written blank =>
    cases written with
    | @mk name value body before after cs spelt blankBefore blankAfter written =>
    cases steps with
    | zero => cases hsteps
    | succ steps =>
      simp only [List.length_append, List.length_cons] at hsteps
      have hname := readLiteral_of_spells spelt (before ++ ':' :: (after ++ (cs ++ (blanks ++
        '\x7d' :: rest))))
      have hvalue := reads steps (Nat.lt_succ_self steps) value cs after (blanks ++ '\x7d' :: rest)
        written blankAfter (endsNumber_delimiter blank (.inr (.inr rfl))) (by omega)
      simp only [List.append_assoc, List.cons_append]
      exact readMembers_last hname (skipSpace_append_cons blankBefore (by decide)) hvalue
        (skipSpace_append_cons blank (by decide))
  | @cons member members cs before' after' others written blankBefore' blankAfter' separated ih =>
    cases written with
    | @mk name value body before after cs spelt blankBefore blankAfter written =>
    cases steps with
    | zero => cases hsteps
    | succ steps =>
      obtain ⟨_, more, rfl, rfl⟩ := separated.eq_cons (P := (· = '"')) SpellsMember.eq_cons
      simp only [List.length_append, List.length_cons] at hsteps
      have hname := readLiteral_of_spells spelt (before ++ ':' :: (after ++ (cs ++ (before' ++
        ',' :: (after' ++ ('"' :: more ++ '\x7d' :: rest))))))
      have hvalue := reads steps (Nat.lt_succ_self steps) value cs after
        (before' ++ ',' :: (after' ++ ('"' :: more ++ '\x7d' :: rest)))
        written blankAfter (endsNumber_delimiter blankBefore' (.inl rfl)) (by omega)
      have hmembers : readMembers steps ('"' :: more ++ '\x7d' :: rest) = .ok (members, rest) :=
        ih (fun k hk => reads k (Nat.lt_succ_of_lt hk))
          (by rw [List.length_cons]; omega)
      simp only [List.append_assoc, List.cons_append]
      exact readMembers_more hname (skipSpace_append_cons blankBefore (by decide)) hvalue
        (skipSpace_append_cons blankBefore' (by decide))
        (skipSpace_append_cons blankAfter' (by decide)) hmembers

/-- **A value is read as it is written.** -/
theorem reads (steps : Nat) : Reads steps := by
  induction steps using Nat.strongRecOn with
  | ind steps ih =>
    intro value cs blanks rest h blank hrest hsteps
    cases steps with
    | zero =>
      obtain ⟨c, more, rfl, -⟩ := h.eq_cons
      cases hsteps
    | succ steps =>
      cases h with
      | null =>
        rw [readValue, skipSpace_append blank]
        exact readWordRest_append _ ['u', 'l', 'l'] rest
      | yes =>
        rw [readValue, skipSpace_append blank]
        exact readWordRest_append _ ['r', 'u', 'e'] rest
      | no =>
        rw [readValue, skipSpace_append blank]
        exact readWordRest_append _ ['a', 'l', 's', 'e'] rest
      | number negative isWhole isFraction isExponent =>
        simp only [List.append_assoc]
        have hnumber := readNumber_of_spells negative isWhole isFraction isExponent hrest
        obtain ⟨c, more, heq, hc⟩ := number_eq_cons negative isWhole _
        rw [heq] at hnumber ⊢
        rw [readValue_number (skipSpace_append_cons blank hc.isSpace_eq_false) hc, hnumber]
      | string spelt =>
        simp only [List.cons_append, List.append_assoc]
        exact readValue_string (skipSpace_append_cons blank (by decide))
          (readLiteral_of_spells spelt rest)
      | emptyArray inner =>
        simp only [List.cons_append, List.append_assoc]
        exact readValue_emptyArray (skipSpace_append_cons blank (by decide))
          (skipSpace_append_cons inner (by decide))
      | array inner spelt =>
        simp only [List.length_append, List.length_cons] at hsteps
        have hitems := readItems_of_separated spelt rest (fun k hk => ih k (Nat.lt_succ_of_lt hk))
          (by omega)
        obtain ⟨c, more, rfl, hspace, hbracket⟩ :=
          spelt.eq_cons (P := fun c => isSpace c = false ∧ c ≠ ']') fun _ _ h => h.eq_cons
        simp only [List.cons_append, List.append_assoc]
        exact readValue_array (skipSpace_append_cons blank (by decide))
          (skipSpace_append_cons inner hspace) hbracket hitems
      | emptyObject inner =>
        simp only [List.cons_append, List.append_assoc]
        exact readValue_emptyObject (skipSpace_append_cons blank (by decide))
          (skipSpace_append_cons inner (by decide))
      | object inner spelt =>
        simp only [List.length_append, List.length_cons] at hsteps
        have hmembers := readMembers_of_separated spelt rest
          (fun k hk => ih k (Nat.lt_succ_of_lt hk)) (by omega)
        obtain ⟨_, more, rfl, rfl⟩ := spelt.eq_cons (P := (· = '"')) SpellsMember.eq_cons
        simp only [List.cons_append, List.append_assoc]
        exact readValue_object (skipSpace_append_cons blank (by decide))
          (skipSpace_append_cons inner (by decide)) hmembers

/-- **Every text of a value is read as this value.** -/
theorem parse_of_isTextOf {value : Json} {s : String} (h : IsTextOf value s) :
    parse s = .ok value := by
  obtain ⟨before, cs, after, blankBefore, spelt, blankAfter, hs⟩ := h
  have hend : EndsNumber after := by
    rw [← List.append_nil after]
    exact endsNumber_append blankAfter endsNumber_nil
  have hvalue := reads (2 * s.toList.length + 2) value cs before after spelt blankBefore hend (by
    rw [hs, List.length_append, List.length_append]
    omega)
  have hskip : skipSpace after = [] := by
    rw [← List.append_nil after, skipSpace_append blankAfter]
    rfl
  have hall : readAll s.toList = .ok value := by
    rw [← hs] at hvalue
    simp only [readAll, hvalue, bind, Except.bind, hskip]
    rfl
  rw [parse, hall]

end Dockmaster.Json
