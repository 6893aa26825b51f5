import Dockmaster.Text.Utf8
import Mathlib.Algebra.GroupWithZero.Nat
import Mathlib.Data.List.Induction
import Mathlib.Data.List.Infix
import Mathlib.Tactic.SplitIfs

/-!
# Encoding, decoding, and bytes that arrive in pieces

A character is one byte, or a first byte and a tail of bytes that carry six bits each
(`encodeChar_cases`); the decoder walks through the tail with the bits so far as its state
(`run_tails`), so decoding undoes encoding (`decode_encode`).

For bytes that come in pieces the question is whether a cut between two of them goes through a
character. What a state of the decoder stands for is answered in both directions: at a cut through a
character it waits for the byte that comes next (`fits_of_cutsCharacter`), and a state that waits
for a byte has seen the beginning of a character that goes on with it (`begins_run`). A decoder that
starts afresh at such a cut writes a replacement character on either side of it, one more than the
bytes together give (`length_decodeChars_append_lt`); at any other cut nothing changes. So pieces
decode to what the whole decodes to exactly when none of the cuts goes through a character
(`decodeChars_flatten_iff`).
-/

namespace Dockmaster.Text.Utf8

/-! ### Characters as bytes -/

/-- The byte that carries the lowest six bits of a number inside a character. -/
def tailByte (q : Nat) : UInt8 := UInt8.ofNat (q % 64 + 128)

/-- The last bytes of a character, which carry six bits each. -/
def tails (n : Nat) : Nat → List UInt8
  | 0 => []
  | k + 1 => tailByte (n / 64 ^ k) :: tails n k

theorem toNat_tailByte (q : Nat) : (tailByte q).toNat = q % 64 + 128 := by
  rw [tailByte, UInt8.toNat_ofNat']
  omega

/-- A state takes a byte that fits it. -/
theorem step_within {missing : Nat} {low high b : UInt8} {bits : Nat} (hlow : low ≤ b)
    (hhigh : b ≤ high) :
    step (.within missing low high bits) b =
      if missing ≤ 1 then (.start, [Char.ofNat (64 * bits + (b.toNat - 0x80))])
      else (.within (missing - 1) 0x80 0xBF (64 * bits + (b.toNat - 0x80)), []) := by
  rw [step, if_pos ⟨hlow, hhigh⟩]

/-- A state passes over to the next character at a byte that does not fit it. -/
theorem step_within_of_not {missing : Nat} {low high b : UInt8} {bits : Nat}
    (h : ¬ (low ≤ b ∧ b ≤ high)) :
    step (.within missing low high bits) b = ((first b).1, replacement :: (first b).2) := by
  rw [step, if_neg h]

/-- A byte of a tail brings the bits so far to the number it was cut from. -/
theorem step_tailByte {missing : Nat} {low high : UInt8} {q : Nat} (hlow : low ≤ tailByte q)
    (hhigh : tailByte q ≤ high) :
    step (.within missing low high (q / 64)) (tailByte q) =
      if missing ≤ 1 then (.start, [Char.ofNat q])
      else (.within (missing - 1) 0x80 0xBF q, []) := by
  rw [step_within hlow hhigh, toNat_tailByte]
  have hq : 64 * (q / 64) + (q % 64 + 128 - 0x80) = q := by omega
  rw [hq]

theorem tailByte_bounds (q : Nat) : 0x80 ≤ tailByte q ∧ tailByte q ≤ 0xBF := by
  simp only [UInt8.le_iff_toNat_le, toNat_tailByte]
  have : (0x80 : UInt8).toNat = 128 := rfl
  have : (0xBF : UInt8).toNat = 191 := rfl
  omega

/-- The tail of a character completes it. -/
theorem run_tails (n k : Nat) {low high : UInt8} (hlow : low ≤ tailByte (n / 64 ^ k))
    (hhigh : tailByte (n / 64 ^ k) ≤ high) :
    run (.within (k + 1) low high (n / 64 ^ (k + 1))) (tails n (k + 1)) =
      (.start, [Char.ofNat n]) := by
  induction k generalizing low high with
  | zero =>
    rw [Nat.pow_zero, Nat.div_one] at hlow hhigh
    rw [tails, Nat.pow_zero, Nat.div_one, tails, run, Nat.zero_add, Nat.pow_one,
      step_tailByte hlow hhigh]
    rfl
  | succ k ih =>
    have hdiv : n / 64 ^ (k + 1 + 1) = n / 64 ^ (k + 1) / 64 := by
      rw [Nat.div_div_eq_div_mul, ← Nat.pow_succ]
    have hnext := tailByte_bounds (n / 64 ^ k)
    rw [tails, run, hdiv, step_tailByte hlow hhigh, if_neg (by omega)]
    dsimp only
    rw [Nat.add_sub_cancel, ih hnext.1 hnext.2]
    rfl

theorem first_two {b : UInt8} (h : 0xC2 ≤ b.toNat) (h' : b.toNat < 0xE0) :
    first b = (.within 1 0x80 0xBF (b.toNat - 0xC0), []) := by
  simp only [first, UInt8.lt_iff_toNat_lt, UInt8.reduceToNat]
  rw [if_neg (by omega), if_neg (by omega), if_pos (by omega)]

theorem first_three {b : UInt8} (h : 0xE0 ≤ b.toNat) (h' : b.toNat < 0xF0) :
    first b = (.within 2 (if b = 0xE0 then 0xA0 else 0x80) (if b = 0xED then 0x9F else 0xBF)
      (b.toNat - 0xE0), []) := by
  simp only [first, UInt8.lt_iff_toNat_lt, UInt8.reduceToNat]
  rw [if_neg (by omega), if_neg (by omega), if_neg (by omega), if_pos (by omega)]

theorem first_four {b : UInt8} (h : 0xF0 ≤ b.toNat) (h' : b.toNat < 0xF5) :
    first b = (.within 3 (if b = 0xF0 then 0x90 else 0x80) (if b = 0xF4 then 0x8F else 0xBF)
      (b.toNat - 0xF0), []) := by
  simp only [first, UInt8.lt_iff_toNat_lt, UInt8.reduceToNat]
  rw [if_neg (by omega), if_neg (by omega), if_neg (by omega), if_neg (by omega), if_pos (by omega)]

/-- The bytes of a character, each written as the number it carries. -/
theorem encodeChar_eq (c : Char) :
    String.utf8EncodeChar c =
      if c.toNat ≤ 0x7F then [UInt8.ofNat c.toNat]
      else if c.toNat ≤ 0x7FF then
        [UInt8.ofNat (c.toNat / 64 % 32 + 192), tailByte c.toNat]
      else if c.toNat ≤ 0xFFFF then
        [UInt8.ofNat (c.toNat / 4096 % 16 + 224), tailByte (c.toNat / 64), tailByte c.toNat]
      else
        [UInt8.ofNat (c.toNat / 262144 % 8 + 240), tailByte (c.toNat / 4096),
          tailByte (c.toNat / 64), tailByte c.toNat] := rfl

/-- **A character is one byte, or a first byte and a tail.** The state after the first byte asks for
as many bytes as the tail has, and the first byte of the tail lies between its bounds. -/
theorem encodeChar_cases (c : Char) :
    (String.utf8EncodeChar c = [UInt8.ofNat c.toNat] ∧ c.toNat < 0x80) ∨
    ∃ k lead low high, String.utf8EncodeChar c = lead :: tails c.toNat (k + 1) ∧
      first lead = (.within (k + 1) low high (c.toNat / 64 ^ (k + 1)), []) ∧
      low ≤ tailByte (c.toNat / 64 ^ k) ∧ tailByte (c.toNat / 64 ^ k) ≤ high := by
  have hc : c.toNat < 0xD800 ∨ 0xDFFF < c.toNat ∧ c.toNat < 0x110000 := c.valid
  rw [encodeChar_eq]
  generalize c.toNat = n at hc ⊢
  by_cases h1 : n ≤ 0x7F
  · exact .inl ⟨if_pos h1, by omega⟩
  right
  rw [if_neg h1]
  by_cases h2 : n ≤ 0x7FF
  · have hlead : (UInt8.ofNat (n / 64 % 32 + 192)).toNat = n / 64 + 192 := by
      rw [UInt8.toNat_ofNat']
      omega
    rw [if_pos h2]
    refine ⟨0, UInt8.ofNat (n / 64 % 32 + 192), 0x80, 0xBF, ?_, ?_, ?_⟩
    · simp [tails, tailByte]
    · rw [first_two (by omega) (by omega), hlead]
      simp
    · exact tailByte_bounds _
  rw [if_neg h2]
  by_cases h3 : n ≤ 0xFFFF
  · have hlead : (UInt8.ofNat (n / 4096 % 16 + 224)).toNat = n / 4096 + 224 := by
      rw [UInt8.toNat_ofNat']
      omega
    rw [if_pos h3]
    generalize UInt8.ofNat (n / 4096 % 16 + 224) = lead at hlead ⊢
    refine ⟨1, lead, if lead = 0xE0 then 0xA0 else 0x80, if lead = 0xED then 0x9F else 0xBF, ?_,
      ?_, ?_⟩
    · simp [tails]
    · rw [first_three (by omega) (by omega), hlead]
      simp
    · simp only [UInt8.le_iff_toNat_le, toNat_tailByte, ← UInt8.toNat_inj, hlead]
      simp
      constructor <;> split_ifs <;> simp <;> omega
  · have hlead : (UInt8.ofNat (n / 262144 % 8 + 240)).toNat = n / 262144 + 240 := by
      rw [UInt8.toNat_ofNat']
      omega
    rw [if_neg h3]
    generalize UInt8.ofNat (n / 262144 % 8 + 240) = lead at hlead ⊢
    refine ⟨2, lead, if lead = 0xF0 then 0x90 else 0x80, if lead = 0xF4 then 0x8F else 0xBF, ?_,
      ?_, ?_⟩
    · simp [tails]
    · rw [first_four (by omega) (by omega), hlead]
      simp
    · simp only [UInt8.le_iff_toNat_le, toNat_tailByte, ← UInt8.toNat_inj, hlead]
      simp
      constructor <;> split_ifs <;> simp <;> omega

/-! ### Decoding what was encoded -/

/-- **The decoder gives back a character.** -/
theorem run_encodeChar (c : Char) : run .start (String.utf8EncodeChar c) = (.start, [c]) := by
  rcases encodeChar_cases c with
    ⟨hencode, hascii⟩ | ⟨k, lead, low, high, hencode, hlead, hlow, hhigh⟩
  · have hbyte : (UInt8.ofNat c.toNat).toNat = c.toNat := by
      rw [UInt8.toNat_ofNat']
      omega
    have hlt : UInt8.ofNat c.toNat < 0x80 := UInt8.lt_iff_toNat_lt.mpr (by rwa [hbyte])
    rw [hencode, run, step, first, if_pos hlt, hbyte, Char.ofNat_toNat]
    rfl
  · rw [hencode, run, step, hlead]
    dsimp only
    rw [run_tails _ _ hlow hhigh, Char.ofNat_toNat]
    rfl

theorem run_encodeChars (cs : List Char) : run .start (encodeChars cs) = (.start, cs) := by
  induction cs with
  | nil => rfl
  | cons c rest ih =>
    have hcons : encodeChars (c :: rest) = String.utf8EncodeChar c ++ encodeChars rest := rfl
    rw [hcons, run_append, run_encodeChar, ih]
    rfl

/-- **Decoding undoes encoding.** -/
theorem decode_encode (s : String) : decode (encode s) = s := by
  have hchars : decodeChars (encodeChars s.toList) = s.toList := by
    rw [decodeChars, run_encodeChars]
    exact List.append_nil _
  rw [decode, encode, hchars, String.ofList_toList]

/-! ### States -/

/-- What every state of a decoder satisfies: only the later bytes of a character are waited for. -/
def State.Proper : State → Prop
  | .start => True
  | .within missing low high _ => 0 < missing ∧ 0x80 ≤ low ∧ high ≤ 0xBF

/-- A byte that begins a character of several bytes. -/
theorem first_within {b : UInt8} {missing bits : Nat} {low high : UInt8}
    (h : (first b).1 = .within missing low high bits) :
    (missing = 1 ∧ (0xC2 ≤ b.toNat ∧ b.toNat < 0xE0) ∧ bits = b.toNat - 0xC0 ∧
      low = 0x80 ∧ high = 0xBF) ∨
    (missing = 2 ∧ (0xE0 ≤ b.toNat ∧ b.toNat < 0xF0) ∧ bits = b.toNat - 0xE0 ∧
      low = (if b = 0xE0 then 0xA0 else 0x80) ∧ high = if b = 0xED then 0x9F else 0xBF) ∨
    (missing = 3 ∧ (0xF0 ≤ b.toNat ∧ b.toNat < 0xF5) ∧ bits = b.toNat - 0xF0 ∧
      low = (if b = 0xF0 then 0x90 else 0x80) ∧ high = if b = 0xF4 then 0x8F else 0xBF) := by
  by_cases h2 : 0xC2 ≤ b.toNat ∧ b.toNat < 0xE0
  · rw [first_two h2.1 h2.2] at h
    obtain ⟨rfl, rfl, rfl, rfl⟩ := State.within.inj h
    exact .inl ⟨rfl, h2, rfl, rfl, rfl⟩
  by_cases h3 : 0xE0 ≤ b.toNat ∧ b.toNat < 0xF0
  · rw [first_three h3.1 h3.2] at h
    obtain ⟨rfl, rfl, rfl, rfl⟩ := State.within.inj h
    exact .inr (.inl ⟨rfl, h3, rfl, rfl, rfl⟩)
  by_cases h4 : 0xF0 ≤ b.toNat ∧ b.toNat < 0xF5
  · rw [first_four h4.1 h4.2] at h
    obtain ⟨rfl, rfl, rfl, rfl⟩ := State.within.inj h
    exact .inr (.inr ⟨rfl, h4, rfl, rfl, rfl⟩)
  -- every other byte is a character of its own or none
  have hstart : (first b).1 = .start := by
    simp only [first, UInt8.lt_iff_toNat_lt, UInt8.reduceToNat]
    by_cases h1 : b.toNat < 128
    · rw [if_pos h1]
    rw [if_neg h1]
    by_cases h2' : b.toNat < 194
    · rw [if_pos h2']
    rw [if_neg h2', if_neg (by omega), if_neg (by omega), if_neg (by omega)]
  rw [hstart] at h
  exact absurd h State.noConfusion

theorem proper_first (b : UInt8) : (first b).1.Proper := by
  cases h : (first b).1 with
  | start => trivial
  | within missing low high bits =>
    rcases first_within h with
      ⟨rfl, -, -, rfl, rfl⟩ | ⟨rfl, -, -, rfl, rfl⟩ | ⟨rfl, -, -, rfl, rfl⟩
    · exact ⟨by decide, by decide, by decide⟩
    · exact ⟨by decide, by split_ifs <;> decide, by split_ifs <;> decide⟩
    · exact ⟨by decide, by split_ifs <;> decide, by split_ifs <;> decide⟩

theorem proper_step (state : State) (b : UInt8) : (step state b).1.Proper := by
  cases state with
  | start => exact proper_first b
  | within missing low high bits =>
    by_cases hfits : low ≤ b ∧ b ≤ high
    · rw [step_within hfits.1 hfits.2]
      split_ifs
      · trivial
      · exact ⟨by omega, by decide, by decide⟩
    · rw [step_within_of_not hfits]
      exact proper_first b

theorem proper_run (bytes : List UInt8) : (run .start bytes).1.Proper := by
  induction bytes using List.reverseRecOn with
  | nil => trivial
  | append_singleton before b _ =>
    rw [run_append]
    exact proper_step _ b

/-- A byte that begins a character of several bytes fits no state. -/
theorem step_lead {state : State} (hstate : state.Proper) {b : UInt8} {missing bits : Nat}
    {low high : UInt8} (h : (first b).1 = .within missing low high bits) :
    (step state b).1 = .within missing low high bits := by
  cases state with
  | start => exact h
  | within missing' low' high' bits' =>
    have hhigh := UInt8.le_iff_toNat_le.mp hstate.2.2
    have hlead : 0xC2 ≤ b.toNat := by
      rcases first_within h with ⟨-, h, -⟩ | ⟨-, h, -⟩ | ⟨-, h, -⟩ <;> omega
    have hfits : ¬ (low' ≤ b ∧ b ≤ high') := by
      intro hfits
      have := UInt8.le_iff_toNat_le.mp hfits.2
      have : (0xBF : UInt8).toNat = 191 := rfl
      omega
    rw [step_within_of_not hfits]
    exact h

/-! ### Cut characters -/

/-- The first bytes end inside a character that the byte after them goes on with. -/
def CutsCharacter (xs ys : List UInt8) : Prop :=
  ∃ (c : Char) (begun : List UInt8) (b : UInt8) (rest : List UInt8),
    begun ≠ [] ∧ begun <:+ xs ∧ ys = b :: rest ∧ begun ++ [b] <+: String.utf8EncodeChar c

/-- A state waits for a byte that fits it. -/
def State.Fits : State → UInt8 → Prop
  | .start, _ => False
  | .within _ low high _, b => low ≤ b ∧ b ≤ high

instance (state : State) (b : UInt8) : Decidable (state.Fits b) :=
  match state with
  | .start => inferInstanceAs (Decidable False)
  | .within _ low high _ => inferInstanceAs (Decidable (low ≤ b ∧ b ≤ high))

/-- Inside the tail of a character, the decoder waits for the byte that comes next. -/
theorem fits_of_prefix {n k : Nat} {more : List UInt8} {b low high : UInt8}
    (hmore : more ++ [b] <+: tails n (k + 1)) (hlow : low ≤ tailByte (n / 64 ^ k))
    (hhigh : tailByte (n / 64 ^ k) ≤ high) :
    (run (.within (k + 1) low high (n / 64 ^ (k + 1))) more).1.Fits b := by
  induction more generalizing k low high with
  | nil =>
    rw [List.nil_append, tails, List.cons_prefix_cons] at hmore
    rw [hmore.1]
    exact ⟨hlow, hhigh⟩
  | cons m more ih =>
    rw [List.cons_append, tails, List.cons_prefix_cons] at hmore
    obtain ⟨rfl, hmore⟩ := hmore
    cases k with
    | zero => exact absurd (List.prefix_nil.mp hmore) (by simp)
    | succ k =>
      have hdiv : n / 64 ^ (k + 1 + 1) = n / 64 ^ (k + 1) / 64 := by
        rw [Nat.div_div_eq_div_mul, ← Nat.pow_succ]
      have hnext := tailByte_bounds (n / 64 ^ k)
      rw [run, hdiv, step_tailByte hlow hhigh, if_neg (by omega)]
      exact ih hmore hnext.1 hnext.2

/-- At a cut through a character, the decoder waits for the byte that comes next. -/
theorem fits_of_cutsCharacter {xs ys : List UInt8} (h : CutsCharacter xs ys) :
    ∃ b rest, ys = b :: rest ∧ (run .start xs).1.Fits b := by
  obtain ⟨c, begun, b, rest, hbegun, ⟨before, rfl⟩, rfl, hprefix⟩ := h
  refine ⟨b, rest, rfl, ?_⟩
  obtain ⟨lead, more, rfl⟩ := List.exists_cons_of_ne_nil hbegun
  rcases encodeChar_cases c with ⟨hencode, -⟩ | ⟨k, lead', low, high, hencode, hlead, hlow, hhigh⟩
  · have hlength := hprefix.length_le
    rw [hencode] at hlength
    simp at hlength
  · rw [hencode, List.cons_append, List.cons_prefix_cons] at hprefix
    obtain ⟨rfl, hmore⟩ := hprefix
    have hstep := step_lead (proper_run before) (congrArg Prod.fst hlead)
    rw [run_append]
    change (run (step (run .start before).1 lead).1 more).1.Fits b
    rw [hstep]
    exact fits_of_prefix hmore hlow hhigh

theorem exists_char {n : Nat} (h : n.isValidChar) : ∃ c : Char, c.toNat = n :=
  ⟨Char.ofNatAux n h, rfl⟩

/-- The bytes begin every character whose remaining bytes follow the state: so many are missing,
and the first of them lies between the bounds. -/
def Begins (begun : List UInt8) (k : Nat) (low high : UInt8) (bits : Nat) : Prop :=
  ∀ n, n / 64 ^ (k + 1) = bits → low ≤ tailByte (n / 64 ^ k) → tailByte (n / 64 ^ k) ≤ high →
    ∃ c, String.utf8EncodeChar c = begun ++ tails n (k + 1)

/-- A byte that begins a character of several bytes begins every character that its state asks
for: the bounds on the second byte leave out exactly the numbers that are no character or have a
shorter form. -/
theorem begins_first {b : UInt8} {missing bits : Nat} {low high : UInt8}
    (h : (first b).1 = .within missing low high bits) :
    ∃ k, missing = k + 1 ∧ Begins [b] k low high bits := by
  rcases first_within h with ⟨rfl, hb, hbits, -, -⟩ | ⟨rfl, hb, hbits, rfl, rfl⟩ |
    ⟨rfl, hb, hbits, rfl, rfl⟩
  · refine ⟨0, rfl, fun n hn _ _ => ?_⟩
    rw [Nat.zero_add, Nat.pow_one, hbits] at hn
    obtain ⟨c, rfl⟩ := exists_char (n := n) (.inl (by omega))
    have hlead : UInt8.ofNat (c.toNat / 64 % 32 + 192) = b := by
      rw [← UInt8.toNat_inj, UInt8.toNat_ofNat']
      omega
    refine ⟨c, ?_⟩
    rw [encodeChar_eq, if_neg (by omega), if_pos (by omega), hlead]
    simp [tails]
  · refine ⟨1, rfl, fun n hn hlow hhigh => ?_⟩
    simp only [Nat.reduceAdd, Nat.reducePow, hbits] at hn
    simp only [UInt8.le_iff_toNat_le, toNat_tailByte, ← UInt8.toNat_inj, Nat.pow_one,
      apply_ite UInt8.toNat, UInt8.reduceToNat] at hlow hhigh
    have hrange : 0x800 ≤ n ∧ n ≤ 0xFFFF := by
      split_ifs at hlow <;> omega
    have hvalid : n.isValidChar := by
      rw [Nat.isValidChar]
      split_ifs at hhigh <;> omega
    obtain ⟨c, rfl⟩ := exists_char hvalid
    have hlead : UInt8.ofNat (c.toNat / 4096 % 16 + 224) = b := by
      rw [← UInt8.toNat_inj, UInt8.toNat_ofNat']
      omega
    refine ⟨c, ?_⟩
    rw [encodeChar_eq, if_neg (by omega), if_neg (by omega), if_pos (by omega), hlead]
    simp [tails]
  · refine ⟨2, rfl, fun n hn hlow hhigh => ?_⟩
    simp only [Nat.reduceAdd, Nat.reducePow, hbits] at hn
    simp only [UInt8.le_iff_toNat_le, toNat_tailByte, ← UInt8.toNat_inj, Nat.reducePow,
      apply_ite UInt8.toNat, UInt8.reduceToNat] at hlow hhigh
    have hrange : 0x10000 ≤ n := by
      split_ifs at hlow <;> omega
    have hvalid : n.isValidChar := by
      rw [Nat.isValidChar]
      split_ifs at hhigh <;> omega
    obtain ⟨c, rfl⟩ := exists_char hvalid
    have hlead : UInt8.ofNat (c.toNat / 262144 % 8 + 240) = b := by
      rw [← UInt8.toNat_inj, UInt8.toNat_ofNat']
      omega
    refine ⟨c, ?_⟩
    rw [encodeChar_eq, if_neg (by omega), if_neg (by omega), if_neg (by omega), hlead]
    simp [tails]

/-- **The state of the decoder is that of a begun character.** -/
theorem begins_run {xs : List UInt8} {missing bits : Nat} {low high : UInt8}
    (h : (run .start xs).1 = .within missing low high bits) :
    ∃ begun k, begun ≠ [] ∧ begun <:+ xs ∧ missing = k + 1 ∧ Begins begun k low high bits := by
  induction xs using List.reverseRecOn generalizing missing low high bits with
  | nil => exact absurd h State.noConfusion
  | append_singleton before b ih =>
    have hrun : (run .start (before ++ [b])).1 = (step (run .start before).1 b).1 := by
      rw [run_append]
      rfl
    rw [hrun] at h
    -- either the byte begins a character or it goes on with the one that is begun
    have hfirst : (first b).1 = .within missing low high bits →
        ∃ begun k, begun ≠ [] ∧ begun <:+ before ++ [b] ∧ missing = k + 1 ∧
          Begins begun k low high bits := by
      intro hfirst
      obtain ⟨k, hmissing, hbegins⟩ := begins_first hfirst
      exact ⟨[b], k, List.cons_ne_nil _ _, List.suffix_append _ _, hmissing, hbegins⟩
    cases hstate : (run .start before).1 with
    | start =>
      rw [hstate] at h
      exact hfirst h
    | within missing' low' high' bits' =>
      have hproper := proper_run before
      rw [hstate] at h hproper
      by_cases hfits : low' ≤ b ∧ b ≤ high'
      · rw [step_within hfits.1 hfits.2] at h
        by_cases hlast : missing' ≤ 1
        · rw [if_pos hlast] at h
          exact absurd h State.noConfusion
        rw [if_neg hlast] at h
        obtain ⟨rfl, rfl, rfl, rfl⟩ := State.within.inj h
        obtain ⟨begun, k, -, hsuffix, rfl, hbegins⟩ := ih hstate
        obtain ⟨k, rfl⟩ : ∃ k', k = k' + 1 := ⟨k - 1, by omega⟩
        refine ⟨begun ++ [b], k, by simp, ?_, rfl, ?_⟩
        · obtain ⟨prior, rfl⟩ := hsuffix
          exact ⟨prior, by rw [List.append_assoc]⟩
        · intro n hn _ _
          have hdiv : n / 64 ^ (k + 1 + 1) = n / 64 ^ (k + 1) / 64 := by
            rw [Nat.div_div_eq_div_mul, ← Nat.pow_succ]
          have hb : 128 ≤ b.toNat ∧ b.toNat ≤ 191 :=
            ⟨UInt8.le_iff_toNat_le.mp (UInt8.le_trans hproper.2.1 hfits.1),
              UInt8.le_iff_toNat_le.mp (UInt8.le_trans hfits.2 hproper.2.2)⟩
          have htail : tailByte (n / 64 ^ (k + 1)) = b := by
            rw [← UInt8.toNat_inj, toNat_tailByte, hn]
            omega
          obtain ⟨c, hc⟩ := hbegins n (by rw [hdiv, hn]; omega) (htail ▸ hfits.1)
            (htail ▸ hfits.2)
          refine ⟨c, ?_⟩
          rw [hc, tails, htail, List.append_assoc]
          rfl
      · rw [step_within_of_not hfits] at h
        exact hfirst h

/-- **A decoder waits for the next byte exactly at a cut through a character.** -/
theorem cutsCharacter_iff (xs ys : List UInt8) :
    CutsCharacter xs ys ↔ ∃ b rest, ys = b :: rest ∧ (run .start xs).1.Fits b := by
  refine ⟨fits_of_cutsCharacter, ?_⟩
  rintro ⟨b, rest, rfl, hfits⟩
  cases hstate : (run .start xs).1 with
  | start =>
    rw [hstate] at hfits
    exact hfits.elim
  | within missing low high bits =>
    obtain ⟨begun, k, hbegun, hsuffix, rfl, hbegins⟩ := begins_run hstate
    have hproper := proper_run xs
    rw [hstate] at hfits hproper
    have hb : 128 ≤ b.toNat ∧ b.toNat ≤ 191 :=
      ⟨UInt8.le_iff_toNat_le.mp (UInt8.le_trans hproper.2.1 hfits.1),
        UInt8.le_iff_toNat_le.mp (UInt8.le_trans hfits.2 hproper.2.2)⟩
    -- the character whose further bytes carry zeros
    have hn : (64 * bits + (b.toNat - 128)) * 64 ^ k / 64 ^ k = 64 * bits + (b.toNat - 128) :=
      Nat.mul_div_cancel _ (Nat.pow_pos (by decide))
    generalize (64 * bits + (b.toNat - 128)) * 64 ^ k = n at hn
    have htail : tailByte (n / 64 ^ k) = b := by
      rw [← UInt8.toNat_inj, toNat_tailByte, hn]
      omega
    have hbits : n / 64 ^ (k + 1) = bits := by
      rw [Nat.pow_succ, ← Nat.div_div_eq_div_mul, hn]
      omega
    obtain ⟨c, hc⟩ := hbegins n hbits (htail ▸ hfits.1) (htail ▸ hfits.2)
    refine ⟨c, begun, b, rest, hbegun, hsuffix, rfl, ?_⟩
    rw [hc, tails, htail]
    exact ⟨tails n k, by rw [List.append_assoc]; rfl⟩

instance (xs ys : List UInt8) : Decidable (CutsCharacter xs ys) :=
  match ys with
  | [] => isFalse fun ⟨_, _, _, _, _, _, hys, _⟩ => List.cons_ne_nil _ _ hys.symm
  | b :: rest => decidable_of_iff ((run .start xs).1.Fits b) <| by
      rw [cutsCharacter_iff]
      refine ⟨fun h => ⟨b, rest, rfl, h⟩, ?_⟩
      rintro ⟨b', rest', hys, h⟩
      rwa [(List.cons.inj hys).1]

/-! ### Pieces -/

/-- The characters that bytes bring out from a state, with what their end brings out. -/
def charsFrom (state : State) (bytes : List UInt8) : List Char :=
  (run state bytes).2 ++ finish (run state bytes).1

theorem decodeChars_append (xs ys : List UInt8) :
    decodeChars (xs ++ ys) = (run .start xs).2 ++ charsFrom (run .start xs).1 ys := by
  change (run .start (xs ++ ys)).2 ++ finish (run .start (xs ++ ys)).1 = _
  rw [run_append, List.append_assoc]
  rfl

theorem charsFrom_cons (state : State) (b : UInt8) (bytes : List UInt8) :
    charsFrom state (b :: bytes) = (step state b).2 ++ charsFrom (step state b).1 bytes :=
  List.append_assoc ..

/-- Where no byte fits, a begun character becomes a replacement character. -/
theorem charsFrom_of_not_fits {state : State} {bytes : List UInt8}
    (h : ∀ b rest, bytes = b :: rest → ¬ state.Fits b) :
    charsFrom state bytes = finish state ++ charsFrom .start bytes := by
  cases state with
  | start => rfl
  | within missing low high bits =>
    cases bytes with
    | nil => rfl
    | cons b rest =>
      rw [charsFrom_cons, charsFrom_cons, step_within_of_not (h b rest rfl)]
      rfl

/-- A byte that fits a state is no character of its own. -/
theorem step_start_of_fits {state : State} (hstate : state.Proper) {b : UInt8}
    (h : state.Fits b) : step .start b = (.start, [replacement]) := by
  cases state with
  | start => exact h.elim
  | within missing low high bits =>
    have hlow := UInt8.le_iff_toNat_le.mp (UInt8.le_trans hstate.2.1 h.1)
    have hhigh := UInt8.le_iff_toNat_le.mp (UInt8.le_trans h.2 hstate.2.2)
    simp only [UInt8.reduceToNat] at hlow hhigh
    simp only [step, first, UInt8.lt_iff_toNat_lt, UInt8.reduceToNat]
    rw [if_neg (by omega), if_pos (by omega)]

/-- A state and a byte that fits it bring out one character between them, where the replacement
character for each would be two. -/
theorem length_charsFrom_lt_of_rest {state : State} (hstate : state.Proper) {b : UInt8}
    {rest : List UInt8} (h : state.Fits b)
    (hrest : ∀ state : State, state.Proper →
      (charsFrom state rest).length ≤ 1 + (charsFrom .start rest).length) :
    (charsFrom state (b :: rest)).length < 1 + (charsFrom .start (b :: rest)).length := by
  rw [charsFrom_cons .start, step_start_of_fits hstate h, charsFrom_cons, List.length_append,
    List.length_append, List.length_singleton]
  cases state with
  | start => exact h.elim
  | within missing low high bits =>
    have hnext := hrest _ (proper_step (.within missing low high bits) b)
    rw [step_within h.1 h.2] at hnext ⊢
    by_cases hlast : missing ≤ 1
    · simp only [if_pos hlast, List.length_singleton]
      omega
    · simp only [if_neg hlast, List.length_nil] at hnext ⊢
      omega

/-- A state brings out at most one character more than the beginning does. -/
theorem length_charsFrom_le {state : State} (hstate : state.Proper) (bytes : List UInt8) :
    (charsFrom state bytes).length ≤ 1 + (charsFrom .start bytes).length := by
  induction bytes generalizing state with
  | nil => cases state <;> simp [charsFrom, run, finish]
  | cons b rest ih =>
    by_cases hfits : state.Fits b
    · exact (length_charsFrom_lt_of_rest hstate hfits fun _ => ih).le
    · have hfinish : (finish state).length ≤ 1 := by cases state <;> simp [finish]
      rw [charsFrom_of_not_fits (by simpa using hfits), List.length_append]
      omega

/-- **Bytes may be decoded in pieces that cut no character.** -/
theorem decodeChars_append_of_not_cuts {xs ys : List UInt8} (h : ¬ CutsCharacter xs ys) :
    decodeChars (xs ++ ys) = decodeChars xs ++ decodeChars ys := by
  rw [cutsCharacter_iff] at h
  have hfits : ∀ b rest, ys = b :: rest → ¬ (run .start xs).1.Fits b :=
    fun b rest hys hfits => h ⟨b, rest, hys, hfits⟩
  rw [decodeChars_append, charsFrom_of_not_fits hfits, ← List.append_assoc]
  rfl

/-- **Pieces that cut a character decode to more characters.** -/
theorem length_decodeChars_append_lt {xs ys : List UInt8} (h : CutsCharacter xs ys) :
    (decodeChars (xs ++ ys)).length < (decodeChars xs).length + (decodeChars ys).length := by
  obtain ⟨b, rest, rfl, hfits⟩ := (cutsCharacter_iff xs ys).mp h
  have hlt : (charsFrom (run .start xs).1 (b :: rest)).length <
      1 + (charsFrom .start (b :: rest)).length :=
    length_charsFrom_lt_of_rest (proper_run xs) hfits
      fun _ hstate => length_charsFrom_le hstate rest
  have hfinish : (decodeChars xs).length = (run .start xs).2.length + 1 := by
    change ((run .start xs).2 ++ finish (run .start xs).1).length = _
    rw [List.length_append]
    cases hstate : (run .start xs).1 with
    | start => rw [hstate] at hfits; exact hfits.elim
    | within missing low high bits => rfl
  have hys : decodeChars (b :: rest) = charsFrom .start (b :: rest) := rfl
  rw [decodeChars_append, List.length_append, hfinish, hys]
  omega

theorem length_decodeChars_append_le (xs ys : List UInt8) :
    (decodeChars (xs ++ ys)).length ≤ (decodeChars xs).length + (decodeChars ys).length := by
  by_cases h : CutsCharacter xs ys
  · exact (length_decodeChars_append_lt h).le
  · rw [decodeChars_append_of_not_cuts h, List.length_append]

/-- A cut between two of the pieces goes through a character. -/
def Severed (pieces : List (List UInt8)) : Prop :=
  ∃ before after, pieces = before ++ after ∧ CutsCharacter before.flatten after.flatten

theorem not_severed_nil : ¬ Severed [] := by
  rintro ⟨before, after, hpieces, c, begun, b, rest, hbegun, hsuffix, -⟩
  obtain ⟨rfl, rfl⟩ := List.append_eq_nil_iff.mp hpieces.symm
  exact hbegun (List.suffix_nil.mp hsuffix)

/-- Bytes before the first do not undo a cut. -/
theorem CutsCharacter.append_left {xs ys : List UInt8} (h : CutsCharacter xs ys)
    (zs : List UInt8) : CutsCharacter (zs ++ xs) ys := by
  obtain ⟨c, begun, b, rest, hbegun, hsuffix, hys, hprefix⟩ := h
  exact ⟨c, begun, b, rest, hbegun, hsuffix.trans (List.suffix_append zs xs), hys, hprefix⟩

/-- A cut after two pieces goes through a character that the second begins or that the first
begins. -/
theorem CutsCharacter.of_append_left {xs ys zs : List UInt8} (h : CutsCharacter (xs ++ ys) zs) :
    CutsCharacter xs (ys ++ zs) ∨ CutsCharacter ys zs := by
  obtain ⟨c, begun, b, rest, hbegun, hsuffix, rfl, hprefix⟩ := h
  rcases List.suffix_or_suffix_of_suffix hsuffix (List.suffix_append xs ys) with
    hsuffix' | ⟨lead, rfl⟩
  · exact .inr ⟨c, begun, b, rest, hbegun, hsuffix', rfl, hprefix⟩
  · have hlead : lead <:+ xs := by
      obtain ⟨before, hbefore⟩ := hsuffix
      rw [← List.append_assoc, List.append_cancel_right_eq] at hbefore
      exact ⟨before, hbefore⟩
    cases ys with
    | nil =>
      rw [List.append_nil] at hprefix hbegun
      exact .inl ⟨c, lead, b, rest, hbegun, hlead, rfl, hprefix⟩
    | cons y ys =>
      by_cases hnil : lead = []
      · exact .inr ⟨c, lead ++ y :: ys, b, rest, hbegun, by simp [hnil], rfl, hprefix⟩
      · refine .inl ⟨c, lead, y, ys ++ b :: rest, hnil, hlead, rfl, ?_⟩
        have hshort : lead ++ [y] <+: (lead ++ y :: ys) ++ [b] := ⟨ys ++ [b], by simp⟩
        exact hshort.trans hprefix

theorem severed_cons (piece : List UInt8) (pieces : List (List UInt8)) :
    Severed (piece :: pieces) ↔ CutsCharacter piece pieces.flatten ∨ Severed pieces := by
  constructor
  · rintro ⟨before, after, hpieces, hcuts⟩
    cases before with
    | nil =>
      obtain ⟨c, begun, b, rest, hbegun, hsuffix, -⟩ := hcuts
      exact absurd (List.suffix_nil.mp hsuffix) hbegun
    | cons piece' before =>
      rw [List.cons_append, List.cons.injEq] at hpieces
      obtain ⟨rfl, rfl⟩ := hpieces
      rw [List.flatten_cons] at hcuts
      rw [List.flatten_append]
      exact hcuts.of_append_left.imp_right fun hcuts => ⟨before, after, rfl, hcuts⟩
  · rintro (hcuts | ⟨before, after, rfl, hcuts⟩)
    · exact ⟨[piece], pieces, rfl, by simpa using hcuts⟩
    · exact ⟨piece :: before, after, rfl, hcuts.append_left piece⟩

theorem length_decodeChars_flatten_le (pieces : List (List UInt8)) :
    (decodeChars pieces.flatten).length ≤ (pieces.flatMap decodeChars).length := by
  induction pieces with
  | nil => exact Nat.le_refl _
  | cons piece pieces ih =>
    have happend := length_decodeChars_append_le piece pieces.flatten
    rw [List.flatten_cons, List.flatMap_cons, List.length_append]
    omega

instance : (pieces : List (List UInt8)) → Decidable (Severed pieces)
  | [] => isFalse not_severed_nil
  | piece :: pieces =>
    have : Decidable (Severed pieces) := instDecidableSevered pieces
    decidable_of_iff _ (severed_cons piece pieces).symm

/-- **Decoding piece by piece gives what decoding the whole gives exactly when no cut between two
pieces goes through a character.** -/
theorem decodeChars_flatten_iff (pieces : List (List UInt8)) :
    decodeChars pieces.flatten = pieces.flatMap decodeChars ↔ ¬ Severed pieces := by
  induction pieces with
  | nil => exact iff_of_true rfl not_severed_nil
  | cons piece pieces ih =>
    rw [severed_cons, not_or, List.flatten_cons, List.flatMap_cons]
    by_cases hcuts : CutsCharacter piece pieces.flatten
    · refine iff_of_false (fun heq => ?_) fun h => h.1 hcuts
      have hlt := length_decodeChars_append_lt hcuts
      have hle := length_decodeChars_flatten_le pieces
      rw [heq, List.length_append] at hlt
      omega
    · rw [decodeChars_append_of_not_cuts hcuts, List.append_cancel_left_eq, ih]
      exact (and_iff_right hcuts).symm

end Dockmaster.Text.Utf8
