import Dockmaster.Daemon.Remote
import Dockmaster.Log.HandFed
import Dockmaster.Proofs.Config.Loading

/-!
# Which buffer sizes can be used

The configuration admits a buffer size, the settings for reading logs make a capacity of it, and a
live stream is opened with that capacity.  The first two guard the lower end: the configuration
refuses zero and the settings raise it to one.  Nothing guards the upper end: the configuration takes
what 64 bits can hold, and no queue can be made beyond `LiveStream.maxCapacity`, which is smaller.

The sizes that are accepted are the positive numbers that 64 bits can hold (`exists_capacity_iff`).
A job panics if and only if it opens a live stream and the capacity is beyond the maximum
(`perform_eq_panicked_iff`), and `stream_panics_iff` says so of every configuration that is loaded.
So not every size that is accepted can be used (`oversized_panics`).
-/

namespace Dockmaster

open Text

/-! ### Opening a stream -/

/-- The lower end does not matter: settings have room for a line. -/
theorem LiveStream.canOpen_iff (settings : LogSettings) :
    LiveStream.canOpen settings.capacity = true ↔
      settings.capacity ≤ LiveStream.maxCapacity := by
  rw [LiveStream.canOpen, decide_eq_true_iff]
  exact and_iff_right settings.capacity_pos

theorem HandFed.start?_eq_none_iff (settings : LogSettings) :
    HandFed.start? settings.capacity = none ↔ LiveStream.maxCapacity < settings.capacity := by
  rw [HandFed.start?, ite_eq_right_iff, LiveStream.canOpen_iff]
  exact ⟨fun h => Nat.lt_of_not_le fun hle => Option.some_ne_none _ (h hle),
    fun hlt hle => absurd hle (Nat.not_le.mpr hlt)⟩

namespace Reading

variable {reading : Reading}

theorem result_ofLiveLines {settings : LogSettings} {feed : Feed}
    (h : ofLiveLines settings feed = some reading) :
    ∃ deliveries, reading.result = .lines deliveries := by
  obtain ⟨⟨elapsed, deliveries⟩, -, rfl⟩ := Option.map_eq_some_iff.mp h
  exact ⟨deliveries, rfl⟩

theorem result_ofLastLines {read : Nat × LogRead}
    (h : ofLastLines read = some reading) : ∃ text, reading.result = .text text := by
  obtain ⟨text, -, rfl⟩ := Option.map_eq_some_iff.mp h
  exact ⟨text, rfl⟩

/-- **Opening a stream panics** iff the capacity is beyond the maximum, whatever the feed. -/
theorem ofOpened_eq_panicked_iff (settings : LogSettings) (feed : Feed) :
    (ofOpened settings feed).map (·.result) = some .panicked ↔
      LiveStream.maxCapacity < settings.capacity := by
  unfold ofOpened
  split_ifs with hopen
  · refine iff_of_false (fun h => ?_) ?_
    · obtain ⟨reading, hreading, hresult⟩ := Option.map_eq_some_iff.mp h
      obtain ⟨deliveries, hlines⟩ := result_ofLiveLines hreading
      cases hlines.symm.trans hresult
    · exact Nat.not_lt.mpr ((LiveStream.canOpen_iff settings).mp hopen)
  · exact iff_of_true rfl (Nat.lt_of_not_le fun h => hopen ((LiveStream.canOpen_iff settings).mpr h))

end Reading

/-- **A job panics** iff it opens a live stream with a capacity beyond the maximum, whatever is at the
other end. -/
theorem Transport.perform_eq_panicked_iff {σ : Type} (transport : Transport σ) (guard : Guard)
    (settings : LogSettings) (s : σ) (job : Job) :
    (transport.perform guard settings s job).2 = some .panicked ↔
      (∃ id follow, job = .streamAll id follow) ∧
        LiveStream.maxCapacity < settings.capacity := by
  cases job with
  | operation op => exact iff_of_false nofun (by rintro ⟨⟨id, follow, h⟩, -⟩; cases h)
  | getLogs id tail =>
    refine iff_of_false (fun h => ?_) (by rintro ⟨⟨id, follow, h⟩, -⟩; cases h)
    obtain ⟨reading, hreading, hresult⟩ := Option.map_eq_some_iff.mp h
    obtain ⟨read, -, hlast⟩ := Option.bind_eq_some_iff.mp hreading
    obtain ⟨text, htext⟩ := Reading.result_ofLastLines hlast
    cases htext.symm.trans hresult
  | streamAll id follow =>
    rw [and_iff_right ⟨id, follow, rfl⟩]
    exact Reading.ofOpened_eq_panicked_iff settings _

/-! ### Loading a size -/

namespace Config

/-- The capacity is the buffer size that was loaded. -/
theorem capacity_ofConfig {lookup : String → Option String} {config : Config}
    (hok : ofLookup lookup = .ok config) :
    (LogSettings.ofConfig config).capacity = config.streamBuffer :=
  Nat.max_eq_left (describes_of_ofLookup hok).1.streamBuffer

/-- What a value says fits into 64 bits. -/
theorem Says.lt {value : Option String} {number : Option Nat} (h : Says value number) :
    ∀ n ∈ number, n < 2 ^ 64 := by
  cases h with
  | unset | blank => exact nofun
  | number numeral fits => exact fun n hn => Option.some.inj hn ▸ fits

theorem capacity_lt {lookup : String → Option String} {config : Config}
    (hok : ofLookup lookup = .ok config) : (LogSettings.ofConfig config).capacity < 2 ^ 64 := by
  obtain ⟨number, hsays, hbuffer⟩ := (describes_of_ofLookup hok).2.streamBuffer
  rw [capacity_ofConfig hok, hbuffer]
  cases number with
  | none => decide
  | some n => exact hsays.lt n rfl

/-- Variables of which only the buffer size is set. -/
def sized (n : Nat) (key : String) : Option String :=
  if key = streamBufferKey then some (toString n) else none

/-- **Every positive number that 64 bits can hold is accepted.** -/
theorem ofLookup_sized {n : Nat} (hpos : 1 ≤ n) (hlt : n < 2 ^ 64) :
    ∃ config, ofLookup (sized n) = .ok config ∧ (LogSettings.ofConfig config).capacity = n := by
  have hsays : Says (sized n streamBufferKey) (some n) := by
    have hbare : Bare (toString n).toList :=
      bare_of_forall fun c hc => isBlank_of_isDigit (isDigit_of_mem_toString hc)
    rw [sized, if_pos rfl]
    refine .number ?_ hlt
    rw [trimChars_of_bare hbare]
    exact numeral_toString n
  have hvalid : ∀ v ∈ numberVariables, v.Valid (sized n v.key) := by
    intro v _
    by_cases hkey : v.key = streamBufferKey
    · rw [hkey]
      exact ⟨some n, hsays, fun _ hzero => Nat.one_le_iff_ne_zero.mp hpos (Option.some.inj hzero)⟩
    · rw [sized, if_neg hkey]
      exact ⟨none, .unset, fun _ => nofun⟩
  obtain ⟨config, hok, -, hdescribes⟩ := ofLookup_of_valid hvalid
  obtain ⟨number, hnumber, hbuffer⟩ := hdescribes.streamBuffer
  refine ⟨config, hok, ?_⟩
  rw [capacity_ofConfig hok, hbuffer, hnumber.unique hsays, Option.getD_some]

/-- **Which sizes are accepted**: the positive numbers that 64 bits can hold. -/
theorem exists_capacity_iff (n : Nat) :
    (∃ lookup config, ofLookup lookup = .ok config ∧
      (LogSettings.ofConfig config).capacity = n) ↔ 1 ≤ n ∧ n < 2 ^ 64 := by
  constructor
  · rintro ⟨lookup, config, hok, rfl⟩
    exact ⟨(LogSettings.ofConfig config).capacity_pos, capacity_lt hok⟩
  · rintro ⟨hpos, hlt⟩
    exact ⟨sized n, ofLookup_sized hpos hlt⟩

/-- **Which of the sizes that are accepted can be used.**  With a configuration that is accepted, the
capacity is what the variable says, or 256; it is positive and fits into 64 bits.  No stream can be
opened exactly if it is `2 ^ 61` or more.  Then a job panics exactly if it opens a stream, whatever
the daemon answers, and otherwise no job does. -/
theorem stream_panics_iff (lookup : String → Option String) (config : Config)
    (hok : ofLookup lookup = .ok config) :
    (∃ number, Says (lookup streamBufferKey) number ∧
      (LogSettings.ofConfig config).capacity = number.getD 256) ∧
    (1 ≤ (LogSettings.ofConfig config).capacity ∧
      (LogSettings.ofConfig config).capacity < 2 ^ 64) ∧
    (HandFed.start? (LogSettings.ofConfig config).capacity = none ↔
      2 ^ 61 ≤ (LogSettings.ofConfig config).capacity) ∧
    ∀ {σ : Type} (transport : Transport σ) (guard : Guard) (s : σ) (job : Job),
      (transport.perform guard (.ofConfig config) s job).2 = some .panicked ↔
        (∃ id follow, job = .streamAll id follow) ∧
          2 ^ 61 ≤ (LogSettings.ofConfig config).capacity := by
  have hnumber : ∃ number, Says (lookup streamBufferKey) number ∧
      (LogSettings.ofConfig config).capacity = number.getD 256 := by
    rw [capacity_ofConfig hok]
    exact (describes_of_ofLookup hok).2.streamBuffer
  exact ⟨hnumber, (exists_capacity_iff _).mp ⟨lookup, config, hok, rfl⟩,
    HandFed.start?_eq_none_iff _, fun transport guard s job =>
      transport.perform_eq_panicked_iff guard (.ofConfig config) s job⟩

/-- The largest size that can be used: live streams are opened. -/
theorem stream_panics_iff_largest :
    ∃ config, ofLookup (sized (2 ^ 61 - 1)) = .ok config ∧
      HandFed.start? (LogSettings.ofConfig config).capacity ≠ none ∧
      ∀ (guard : Guard) (peer : ScriptedPeer) (id : String) (follow : Bool),
        (Transport.perform ScriptedPeer.exchange guard (.ofConfig config) peer
          (.streamAll id follow)).2 ≠ some .panicked := by
  obtain ⟨config, hok, hcapacity⟩ := ofLookup_sized (n := 2 ^ 61 - 1) (by decide) (by decide)
  have hsmall : ¬ 2 ^ 61 ≤ (LogSettings.ofConfig config).capacity := by
    rw [hcapacity]
    decide
  obtain ⟨-, -, hopen, hjobs⟩ := stream_panics_iff _ config hok
  exact ⟨config, hok, fun hnone => hsmall (hopen.mp hnone), fun guard peer id follow hpanic =>
    hsmall ((hjobs ScriptedPeer.exchange guard peer (.streamAll id follow)).mp hpanic).2⟩

/-- The next size is accepted as well, and every live stream panics. -/
theorem oversized_panics :
    ∃ config, ofLookup (fun key =>
        if key = streamBufferKey then some "2305843009213693952" else none) = .ok config ∧
      ¬ (LogSettings.ofConfig config).capacity ≤ LiveStream.maxCapacity ∧
      HandFed.start? (LogSettings.ofConfig config).capacity = none ∧
      ∀ (guard : Guard) (peer : ScriptedPeer) (id : String) (follow : Bool),
        (Transport.perform ScriptedPeer.exchange guard (.ofConfig config) peer
          (.streamAll id follow)).2 = some .panicked := by
  obtain ⟨config, hok, hcapacity⟩ := ofLookup_sized (n := 2 ^ 61) (by decide) (by decide)
  have hlarge : LiveStream.maxCapacity < (LogSettings.ofConfig config).capacity := by
    rw [hcapacity]
    decide
  exact ⟨config, hok, Nat.not_le.mpr hlarge, (HandFed.start?_eq_none_iff _).mpr hlarge,
    fun guard peer id follow =>
      (Transport.perform_eq_panicked_iff ..).mpr ⟨⟨id, follow, rfl⟩, hlarge⟩⟩

end Config

end Dockmaster
