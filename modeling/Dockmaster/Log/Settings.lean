import Dockmaster.Config

/-!
# Settings for reading logs

How many lines a live stream may hold back, and how long a historical read may take.
-/

namespace Dockmaster

/-- The settings for reading logs. -/
structure LogSettings where
  /-- The lines that a live stream may hold back. -/
  capacity : Nat
  /-- The milliseconds after which a historical read is given up. -/
  deadline : Option Nat
  /-- A stream can always hold a line back. -/
  capacity_pos : 0 < capacity

namespace LogSettings

/-- The capacity when nothing else is said. -/
def defaultCapacity : Nat := 256

/-- The settings with a capacity, of which zero counts as one, and a deadline. -/
def of (capacity : Nat) (deadline : Option Nat) : LogSettings :=
  ⟨max capacity 1, deadline, Nat.lt_of_lt_of_le Nat.one_pos (Nat.le_max_right _ _)⟩

/-- The settings that a configuration asks for. -/
def ofConfig (config : Config) : LogSettings :=
  of config.streamBuffer (config.readTimeout.map (1000 * ·))

end LogSettings

end Dockmaster
