/-!
# Summaries of containers

The line that a listing has for each container.
-/

namespace Dockmaster

/-- One container in a listing. -/
structure Summary where
  /-- The id. -/
  id : String
  /-- The name without a leading slash. -/
  name : String
  /-- The image reference. -/
  image : String
  /-- The state in one word. -/
  state : String
  /-- The state in more words. -/
  status : String
  deriving DecidableEq, Repr

/-- Whether the state is `running`, in capital or small ASCII letters. -/
def Summary.isRunning (s : Summary) : Bool :=
  s.state.toList.map Char.toLower = ['r', 'u', 'n', 'n', 'i', 'n', 'g']

end Dockmaster
