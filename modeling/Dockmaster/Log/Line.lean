import Dockmaster.Text.Utf8

/-!
# Log lines

A frame is what the daemon sends of the output of a container: bytes of one of its streams. A line
is what the service passes on: a text and the stream it comes from. What a container was sent on its
standard input counts as console output.
-/

namespace Dockmaster

/-- The streams of a container, as the daemon names them. -/
inductive FrameStream where
  /-- Standard input. -/
  | stdin
  /-- Standard output. -/
  | stdout
  /-- Standard error. -/
  | stderr
  /-- The terminal. -/
  | console
  deriving DecidableEq, Repr

/-- Some bytes of one stream. -/
structure Frame where
  /-- The stream. -/
  stream : FrameStream
  /-- The bytes. -/
  bytes : List UInt8
  deriving DecidableEq, Repr

/-- The streams to which lines belong. -/
inductive OutputStream where
  /-- Standard output. -/
  | stdout
  /-- Standard error. -/
  | stderr
  /-- The terminal. -/
  | console
  deriving DecidableEq, Repr

/-- A piece of log output. -/
structure LogLine where
  /-- The stream. -/
  stream : OutputStream
  /-- The text. -/
  text : String
  deriving DecidableEq, Repr

/-- The stream to which the lines of a frame belong. -/
def FrameStream.output : FrameStream → OutputStream
  | .stdout => .stdout
  | .stderr => .stderr
  | .stdin | .console => .console

/-- The line that a frame amounts to. Its bytes are decoded by themselves, so a character that is
cut between two frames comes out as replacement characters. -/
def LogLine.ofFrame (frame : Frame) : LogLine :=
  ⟨frame.stream.output, Text.Utf8.decode frame.bytes⟩

namespace OutputStream

/-- All streams. -/
def all : List OutputStream := [.stdout, .stderr, .console]

/-- The name of a stream. -/
def name : OutputStream → String
  | .stdout => "stdout"
  | .stderr => "stderr"
  | .console => "console"

/-- The stream with a name. -/
def ofName? (name : String) : Option OutputStream :=
  all.find? (·.name = name)

end OutputStream

end Dockmaster
