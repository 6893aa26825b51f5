import Dockmaster.Config
import Dockmaster.Proofs.Text.Blank
import Dockmaster.Proofs.Text.Decimal

/-!
# Which configurations are accepted

Four variables hold numbers (`numberVariables`, in the order in which they are read).  `Says` is
what the value of such a variable says, and `NumberVariable.Valid` whether it can be used.  A value
that cannot has exactly one `Flaw`, and reading the variable reports that one
(`NumberVariable.read_cases`, `Flaw.Spoils.unique`).

`loading_exact` puts the variables together: a configuration is loaded iff all four are valid, the
first that is not is the one reported, and what is loaded is what the variables say.
-/

namespace Dockmaster.Config

open Text

/-! ### Values -/

/-- What the value of a variable says: nothing if the variable is unset or blank, else the number
that it is a numeral of, which has to fit into 64 bits. -/
inductive Says : Option String → Option Nat → Prop
  /-- The variable is unset. -/
  | unset : Says none none
  /-- The variable is blank. -/
  | blank {raw : String} (blank : Blank raw.toList) : Says (some raw) none
  /-- The variable holds a number. -/
  | number {raw : String} {n : Nat} (numeral : Numeral (trimChars raw.toList) n)
      (fits : n < 2 ^ 64) : Says (some raw) (some n)

/-- **A value says one thing.** -/
theorem Says.unique {value : Option String} {number other : Option Nat} (h : Says value number)
    (hother : Says value other) : number = other := by
  have hnone {raw : String} {n : Nat} (hblank : Blank raw.toList)
      (hnumeral : Numeral (trimChars raw.toList) n) : False := by
    rw [trimChars_of_blank hblank] at hnumeral
    exact not_numeral_nil n hnumeral
  cases h with
  | unset => cases hother with | unset => rfl
  | blank blank =>
    cases hother with
    | blank => rfl
    | number numeral => exact (hnone blank numeral).elim
  | number numeral =>
    cases hother with
    | blank blank => exact (hnone blank numeral).elim
    | number hnumeral => exact congrArg some (numeral.unique hnumeral)

/-- A variable that holds a number. -/
structure NumberVariable where
  /-- The name of the variable. -/
  key : String
  /-- Whether zero is refused. -/
  positive : Bool

/-- The variables that hold numbers, in the order in which they are read. -/
def numberVariables : List NumberVariable :=
  [⟨updateIntervalKey, true⟩, ⟨healthIntervalKey, true⟩, ⟨streamBufferKey, true⟩,
    ⟨readTimeoutKey, false⟩]

/-- Whether a variable can be used with a value. -/
def NumberVariable.Valid (v : NumberVariable) (value : Option String) : Prop :=
  ∃ number, Says value number ∧ (v.positive = true → number ≠ some 0)

/-- What can be wrong with the value of a variable. -/
inductive Flaw where
  /-- It begins with the digits of a number that does not fit into 64 bits. -/
  | tooLarge
  /-- It is no number otherwise. -/
  | invalidDigit
  /-- It is zero where zero is refused. -/
  | zero

namespace Flaw

/-- How a flaw is reported. -/
def message (key raw : String) : Flaw → String
  | .tooLarge => key ++ "=" ++ raw ++ ": " ++ "number too large to fit in target type"
  | .invalidDigit => key ++ "=" ++ raw ++ ": " ++ "invalid digit found in string"
  | .zero => key ++ " must be greater than zero"

/-- When the value of a variable has a flaw. -/
def Spoils (v : NumberVariable) (raw : String) : Flaw → Prop
  | .tooLarge => 2 ^ 64 ≤ leadingNumber (trimChars raw.toList)
  | .invalidDigit => ¬ Blank raw.toList ∧ leadingNumber (trimChars raw.toList) < 2 ^ 64 ∧
      ¬ ∃ n, Numeral (trimChars raw.toList) n
  | .zero => v.positive = true ∧ Numeral (trimChars raw.toList) 0

variable {v : NumberVariable} {raw : String}

/-- **A value has one flaw at most.** -/
theorem Spoils.unique {flaw other : Flaw} (h : flaw.Spoils v raw) (hother : other.Spoils v raw) :
    other = flaw := by
  have hzero (hnumeral : Numeral (trimChars raw.toList) 0) :
      ¬ 2 ^ 64 ≤ leadingNumber (trimChars raw.toList) := by
    rw [hnumeral.leadingNumber_eq]
    decide
  cases flaw <;> cases other
  case tooLarge.tooLarge | invalidDigit.invalidDigit | zero.zero => rfl
  case tooLarge.invalidDigit => exact absurd h (Nat.not_le.mpr hother.2.1)
  case invalidDigit.tooLarge => exact absurd hother (Nat.not_le.mpr h.2.1)
  case tooLarge.zero => exact absurd h (hzero hother.2)
  case zero.tooLarge => exact absurd hother (hzero h.2)
  case invalidDigit.zero => exact absurd ⟨0, hother.2⟩ h.2.2
  case zero.invalidDigit => exact absurd ⟨0, h.2⟩ hother.2.2

theorem Spoils.not_valid {flaw : Flaw} (h : flaw.Spoils v raw) : ¬ v.Valid (some raw) := by
  rintro ⟨number, hsays, hpositive⟩
  cases hsays with
  | blank hblank =>
    have hnil : trimChars raw.toList = [] := trimChars_of_blank hblank
    cases flaw with
    | tooLarge => exact absurd (hnil ▸ h : 2 ^ 64 ≤ leadingNumber []) (by decide)
    | invalidDigit => exact h.1 hblank
    | zero => exact not_numeral_nil 0 (hnil ▸ h.2)
  | @number _ n hnumeral hfits =>
    cases flaw with
    | tooLarge => exact absurd (hnumeral.leadingNumber_eq ▸ h) (Nat.not_le.mpr hfits)
    | invalidDigit => exact h.2.2 ⟨n, hnumeral⟩
    | zero => exact hpositive h.1 (congrArg some (hnumeral.unique h.2))

end Flaw

/-! ### Reading one variable -/

/-- The number that a variable holds, as `readNumber` and `readPositive` have it. -/
def NumberVariable.read (lookup : String → Option String) (v : NumberVariable) :
    Except ServiceError (Option Nat) := do
  let number ← readNumber lookup v.key
  if v.positive = true ∧ number = some 0 then
    .error (.config (v.key ++ " must be greater than zero"))
  else return number

theorem readPositive_eq (lookup : String → Option String) (key : String) (default : Nat) :
    readPositive lookup key default =
      (NumberVariable.read lookup ⟨key, true⟩).map (·.getD default) := by
  unfold readPositive NumberVariable.read
  rcases readNumber lookup key with e | _ | _ | n <;> rfl

theorem readNumber_eq (lookup : String → Option String) (key : String) :
    readNumber lookup key = NumberVariable.read lookup ⟨key, false⟩ := by
  unfold NumberVariable.read
  rcases readNumber lookup key with e | _ | _ | n <;> rfl

section Read

variable (lookup : String → Option String)

/-- What `readNumber` makes of a variable is what the variable says, or else reports a flaw. -/
theorem readNumber_cases (v : NumberVariable) :
    (∃ number, Says (lookup v.key) number ∧ readNumber lookup v.key = .ok number) ∨
    ∃ (raw : String) (flaw : Flaw), lookup v.key = some raw ∧ flaw.Spoils v raw ∧
      readNumber lookup v.key = .error (.config (flaw.message v.key raw)) := by
  unfold readNumber
  cases hvalue : lookup v.key with
  | none => exact .inl ⟨none, .unset, rfl⟩
  | some raw =>
    dsimp only
    split
    · rename_i hnil
      exact .inl ⟨none, .blank (trimChars_eq_nil_iff.mp hnil), rfl⟩
    · rename_i hne
      have hblank : ¬ Blank raw.toList := fun h => hne (trimChars_eq_nil_iff.mpr h)
      cases hread : readWord (trimChars raw.toList) with
      | ok n =>
        obtain ⟨hnumeral, hfits⟩ := readWord_eq_ok_iff.mp hread
        exact .inl ⟨some n, .number hnumeral hfits, rfl⟩
      | error fault =>
        refine .inr ⟨raw, ?_⟩
        cases fault with
        | tooLarge => exact ⟨.tooLarge, rfl, readWord_eq_tooLarge_iff.mp hread, rfl⟩
        | invalidDigit =>
          exact ⟨.invalidDigit, rfl, ⟨hblank, readWord_eq_invalidDigit_iff.mp hread⟩, rfl⟩

/-- **What reading a variable comes to**: what it says, if that can be used, or else its flaw. -/
theorem NumberVariable.read_cases (v : NumberVariable) :
    (∃ number, Says (lookup v.key) number ∧ (v.positive = true → number ≠ some 0) ∧
      v.read lookup = .ok number) ∨
    ∃ (raw : String) (flaw : Flaw), lookup v.key = some raw ∧ flaw.Spoils v raw ∧
      v.read lookup = .error (.config (flaw.message v.key raw)) := by
  unfold NumberVariable.read
  obtain ⟨number, hsays, hread⟩ | ⟨raw, flaw, hvalue, hflaw, hread⟩ := readNumber_cases lookup v
  · rw [hread]
    by_cases hzero : v.positive = true ∧ number = some 0
    · obtain ⟨hpositive, rfl⟩ := hzero
      generalize hvalue : lookup v.key = value at hsays
      cases hsays with
      | @number raw _ hnumeral _ =>
        exact .inr ⟨raw, .zero, rfl, ⟨hpositive, hnumeral⟩, if_pos ⟨hpositive, rfl⟩⟩
    · exact .inl ⟨number, hsays, not_and.mp hzero, if_neg hzero⟩
  · rw [hread]
    exact .inr ⟨raw, flaw, hvalue, hflaw, rfl⟩

theorem NumberVariable.Valid.read_eq {v : NumberVariable} (h : v.Valid (lookup v.key)) :
    ∃ number, Says (lookup v.key) number ∧ (v.positive = true → number ≠ some 0) ∧
      v.read lookup = .ok number := by
  obtain hread | ⟨raw, flaw, hvalue, hflaw, -⟩ := v.read_cases lookup
  · exact hread
  · rw [hvalue] at h
    exact absurd h hflaw.not_valid

theorem NumberVariable.read_of_not_valid {v : NumberVariable} (h : ¬ v.Valid (lookup v.key)) :
    ∃ (raw : String) (flaw : Flaw), lookup v.key = some raw ∧ flaw.Spoils v raw ∧
      v.read lookup = .error (.config (flaw.message v.key raw)) := by
  obtain ⟨number, hsays, hpositive, -⟩ | hread := v.read_cases lookup
  · exact absurd ⟨number, hsays, hpositive⟩ h
  · exact hread

/-! ### Reading all variables -/

theorem ofLookup_of_read {update health buffer timeout : Option Nat}
    (hupdate : NumberVariable.read lookup ⟨updateIntervalKey, true⟩ = .ok update)
    (hhealth : NumberVariable.read lookup ⟨healthIntervalKey, true⟩ = .ok health)
    (hbuffer : NumberVariable.read lookup ⟨streamBufferKey, true⟩ = .ok buffer)
    (htimeout : NumberVariable.read lookup ⟨readTimeoutKey, false⟩ = .ok timeout) :
    ofLookup lookup = .ok {
      host := present? (lookup hostKey)
      blacklist := ((lookup blacklistKey).map parseBlacklist).getD []
      updateInterval := update.getD 300
      healthInterval := health.getD 30
      streamBuffer := buffer.getD 256
      readTimeout := timeout.filter (· ≠ 0) } := by
  unfold ofLookup
  rw [readPositive_eq, readPositive_eq, readPositive_eq, readNumber_eq, hupdate, hhealth, hbuffer,
    htimeout]
  rfl

/-- **The first variable that cannot be read** is the one that is reported. -/
theorem ofLookup_of_first {earlier later : List NumberVariable} {v : NumberVariable}
    {e : ServiceError} (hsplit : numberVariables = earlier ++ v :: later)
    (hearlier : ∀ w ∈ earlier, ∃ number, w.read lookup = .ok number)
    (hread : v.read lookup = .error e) : ofLookup lookup = .error e := by
  unfold ofLookup
  rw [readPositive_eq, readPositive_eq, readPositive_eq, readNumber_eq]
  unfold numberVariables at hsplit
  -- one case for each number of variables that are read before
  rcases earlier with _ | ⟨update, _ | ⟨health, _ | ⟨buffer, _ | ⟨timeout, earlier⟩⟩⟩⟩
  · obtain ⟨rfl, -⟩ := List.cons.inj hsplit
    rw [hread]
    rfl
  · simp only [List.cons_append, List.nil_append, List.cons.injEq] at hsplit
    obtain ⟨rfl, rfl, -⟩ := hsplit
    obtain ⟨number, hupdate⟩ := hearlier _ List.mem_cons_self
    rw [hupdate, hread]
    rfl
  · simp only [List.cons_append, List.nil_append, List.cons.injEq] at hsplit
    obtain ⟨rfl, rfl, rfl, -⟩ := hsplit
    simp only [List.forall_mem_cons] at hearlier
    obtain ⟨⟨_, hupdate⟩, ⟨_, hhealth⟩, -⟩ := hearlier
    rw [hupdate, hhealth, hread]
    rfl
  · simp only [List.cons_append, List.nil_append, List.cons.injEq] at hsplit
    obtain ⟨rfl, rfl, rfl, rfl, -⟩ := hsplit
    simp only [List.forall_mem_cons] at hearlier
    obtain ⟨⟨_, hupdate⟩, ⟨_, hhealth⟩, ⟨_, hbuffer⟩, -⟩ := hearlier
    rw [hupdate, hhealth, hbuffer, hread]
    rfl
  · simp at hsplit

end Read

/-! ### The configuration -/

/-- **A configuration is what the variables say**, with defaults for what they leave open. -/
structure Describes (lookup : String → Option String) (config : Config) : Prop where
  /-- The time between two checks for updates. -/
  updateInterval : ∃ number, Says (lookup updateIntervalKey) number ∧
    config.updateInterval = number.getD 300
  /-- The time between two health checks. -/
  healthInterval : ∃ number, Says (lookup healthIntervalKey) number ∧
    config.healthInterval = number.getD 30
  /-- The lines that a live log stream may hold back. -/
  streamBuffer : ∃ number, Says (lookup streamBufferKey) number ∧
    config.streamBuffer = number.getD 256
  /-- The time for reading historical logs, where zero stands for no limit. -/
  readTimeout : ∃ number, Says (lookup readTimeoutKey) number ∧
    config.readTimeout = number.filter (· ≠ 0)
  /-- The address of the daemon without the blanks around it, if anything is left. -/
  host : ∀ text, config.host = some text ↔
    ∃ raw, lookup hostKey = some raw ∧ trim raw = text ∧ text ≠ ""
  /-- The protected containers. -/
  blacklist : config.blacklist = ((lookup blacklistKey).map parseBlacklist).getD []

/-- **A configuration is usable**: no time and no buffer is zero, and the address has no blanks
around it. -/
structure Usable (config : Config) : Prop where
  /-- Some time passes between two checks for updates. -/
  updateInterval : 1 ≤ config.updateInterval
  /-- Some time passes between two health checks. -/
  healthInterval : 1 ≤ config.healthInterval
  /-- A live log stream can hold a line back. -/
  streamBuffer : 1 ≤ config.streamBuffer
  /-- If there is a limit for reading historical logs, it is not zero. -/
  readTimeout : ∀ seconds ∈ config.readTimeout, 1 ≤ seconds
  /-- If there is an address, it is not empty and has no blank at either end. -/
  host : ∀ host ∈ config.host, host ≠ "" ∧ Bare host.toList

theorem present?_eq_some_iff {value : Option String} {text : String} :
    present? value = some text ↔ ∃ raw, value = some raw ∧ trim raw = text ∧ text ≠ "" := by
  unfold present?
  rw [Option.filter_eq_some_iff, Option.map_eq_some_iff, decide_eq_true_eq]
  exact ⟨fun ⟨⟨raw, hvalue, htrim⟩, hne⟩ => ⟨raw, hvalue, htrim, hne⟩,
    fun ⟨raw, hvalue, htrim, hne⟩ => ⟨⟨raw, hvalue, htrim⟩, hne⟩⟩

theorem bare_of_present? {value : Option String} {text : String} (h : present? value = some text) :
    text ≠ "" ∧ Bare text.toList := by
  obtain ⟨raw, -, rfl, hne⟩ := present?_eq_some_iff.mp h
  refine ⟨hne, ?_⟩
  rw [trim, String.toList_ofList]
  exact bare_trimChars raw.toList

theorem one_le_getD {number : Option Nat} {default : Nat} (h : number ≠ some 0)
    (hdefault : 1 ≤ default) : 1 ≤ number.getD default := by
  rcases number with _ | _ | n
  · exact hdefault
  · exact absurd rfl h
  · exact Nat.le_add_left 1 n

/-- What is loaded if every variable is valid. -/
theorem ofLookup_of_valid {lookup : String → Option String}
    (h : ∀ v ∈ numberVariables, v.Valid (lookup v.key)) :
    ∃ config, ofLookup lookup = .ok config ∧ config.Usable ∧ config.Describes lookup := by
  unfold numberVariables at h
  simp only [List.forall_mem_cons] at h
  obtain ⟨hupdate, hhealth, hbuffer, htimeout, -⟩ := h
  obtain ⟨update, hupdateSays, hupdatePos, hupdateRead⟩ := hupdate.read_eq
  obtain ⟨health, hhealthSays, hhealthPos, hhealthRead⟩ := hhealth.read_eq
  obtain ⟨buffer, hbufferSays, hbufferPos, hbufferRead⟩ := hbuffer.read_eq
  obtain ⟨timeout, htimeoutSays, -, htimeoutRead⟩ := htimeout.read_eq
  refine ⟨_, ofLookup_of_read lookup hupdateRead hhealthRead hbufferRead htimeoutRead, ?_, ?_⟩
  · refine ⟨one_le_getD (hupdatePos rfl) (by decide), one_le_getD (hhealthPos rfl) (by decide),
      one_le_getD (hbufferPos rfl) (by decide), fun seconds hseconds => ?_,
      fun host hhost => bare_of_present? hhost⟩
    exact Nat.one_le_iff_ne_zero.mpr (of_decide_eq_true (Option.mem_filter_iff.mp hseconds).2)
  · exact ⟨⟨update, hupdateSays, rfl⟩, ⟨health, hhealthSays, rfl⟩, ⟨buffer, hbufferSays, rfl⟩,
      ⟨timeout, htimeoutSays, rfl⟩, fun _ => present?_eq_some_iff, rfl⟩

/-- Where not every variable is valid, there is a first that is not. -/
theorem exists_first_not_valid {lookup : String → Option String}
    (h : ¬ ∀ v ∈ numberVariables, v.Valid (lookup v.key)) :
    ∃ earlier v later, numberVariables = earlier ++ v :: later ∧
      (∀ w ∈ earlier, w.Valid (lookup w.key)) ∧ ¬ v.Valid (lookup v.key) := by
  classical
  have hsome : (numberVariables.find? fun v => ¬ v.Valid (lookup v.key)).isSome = true := by
    simpa only [List.find?_isSome, decide_eq_true_eq, not_forall, exists_prop] using h
  obtain ⟨v, hfind⟩ := Option.isSome_iff_exists.mp hsome
  obtain ⟨hv, earlier, later, hsplit, hearlier⟩ := List.find?_eq_some_iff_append.mp hfind
  refine ⟨earlier, v, later, hsplit, fun w hw => ?_, of_decide_eq_true hv⟩
  simpa using hearlier w hw

/-- The first variable that is not valid has one flaw, and that is reported. -/
theorem ofLookup_of_not_valid {lookup : String → Option String}
    {earlier later : List NumberVariable} {v : NumberVariable}
    (hsplit : numberVariables = earlier ++ v :: later)
    (hearlier : ∀ w ∈ earlier, w.Valid (lookup w.key)) (hv : ¬ v.Valid (lookup v.key)) :
    ∃ (raw : String) (flaw : Flaw), lookup v.key = some raw ∧
      (∀ other : Flaw, other.Spoils v raw ↔ other = flaw) ∧
      ofLookup lookup = .error (.config (flaw.message v.key raw)) := by
  obtain ⟨raw, flaw, hvalue, hflaw, hread⟩ := NumberVariable.read_of_not_valid lookup hv
  refine ⟨raw, flaw, hvalue, fun other => ⟨hflaw.unique, fun h => h ▸ hflaw⟩, ?_⟩
  refine ofLookup_of_first lookup hsplit (fun w hw => ?_) hread
  obtain ⟨number, -, -, hok⟩ := (hearlier w hw).read_eq
  exact ⟨number, hok⟩

section Loaded

variable {lookup : String → Option String} {config : Config} (hok : ofLookup lookup = .ok config)
include hok

theorem valid_of_ofLookup : ∀ v ∈ numberVariables, v.Valid (lookup v.key) := by
  by_contra hinvalid
  obtain ⟨earlier, v, later, hsplit, hearlier, hv⟩ := exists_first_not_valid hinvalid
  obtain ⟨raw, flaw, -, -, herror⟩ := ofLookup_of_not_valid hsplit hearlier hv
  rw [herror] at hok
  cases hok

theorem describes_of_ofLookup : config.Usable ∧ config.Describes lookup := by
  obtain ⟨loaded, hloaded, hgood⟩ := ofLookup_of_valid (valid_of_ofLookup hok)
  obtain rfl := Except.ok.inj (hloaded.symm.trans hok)
  exact hgood

end Loaded

/-- **Loading a configuration.**  It succeeds iff every variable that holds a number is valid.  If
not, the first that is not valid is reported with its one flaw, the value being quoted as it stands
where it is no number.  What is loaded is usable and is what the variables say. -/
theorem loading_exact (lookup : String → Option String) :
    ((∃ config, ofLookup lookup = .ok config) ↔
      ∀ v ∈ numberVariables, v.Valid (lookup v.key)) ∧
    (∀ earlier v later, numberVariables = earlier ++ v :: later →
      (∀ w ∈ earlier, w.Valid (lookup w.key)) → ¬ v.Valid (lookup v.key) →
        ∃ (raw : String) (flaw : Flaw), lookup v.key = some raw ∧
          (∀ other : Flaw, other.Spoils v raw ↔ other = flaw) ∧
          ofLookup lookup = .error (.config (flaw.message v.key raw))) ∧
    (∀ config, ofLookup lookup = .ok config → config.Usable ∧ config.Describes lookup) := by
  refine ⟨⟨fun ⟨config, hok⟩ => valid_of_ofLookup hok, fun h => ?_⟩,
    fun earlier v later => ofLookup_of_not_valid, fun config => describes_of_ofLookup⟩
  obtain ⟨config, hok, -⟩ := ofLookup_of_valid h
  exact ⟨config, hok⟩

/-- Variables of which two are not valid. -/
def spoiled (key : String) : Option String :=
  if key = healthIntervalKey then some " +18446744073709551616x"
  else if key = streamBufferKey then some "0"
  else none

theorem loading_exact_spoiled :
    ofLookup spoiled = .error (.config ("DSM_HEALTH_CHECK_INTERVAL_SECS" ++ "=" ++
      " +18446744073709551616x" ++ ": " ++ "number too large to fit in target type")) := by
  have hupdate : spoiled updateIntervalKey = none := by decide +kernel
  have hhealth : spoiled healthIntervalKey = some " +18446744073709551616x" := by decide +kernel
  have hflaw : Flaw.tooLarge.Spoils ⟨healthIntervalKey, true⟩ " +18446744073709551616x" := by
    unfold Flaw.Spoils
    decide +kernel
  obtain ⟨raw, flaw, hvalue, honly, herror⟩ :=
    (loading_exact spoiled).2.1 [⟨updateIntervalKey, true⟩] ⟨healthIntervalKey, true⟩
      [⟨streamBufferKey, true⟩, ⟨readTimeoutKey, false⟩] rfl
      (fun v hv => by
        rw [List.mem_singleton.mp hv, hupdate]
        exact ⟨none, .unset, fun _ => nofun⟩)
      (by rw [hhealth]; exact hflaw.not_valid)
  obtain rfl := Option.some.inj (hhealth.symm.trans hvalue)
  obtain rfl := (honly .tooLarge).mp hflaw
  exact herror

end Dockmaster.Config
