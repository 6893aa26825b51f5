import Dockmaster.Docker.Lines
import Dockmaster.Log.Feed

/-!
# The framing of logs

The daemon sends a log in frames: a byte for the stream, three bytes that say nothing, the length of
the payload in four bytes, and the payload. Where the next byte is none for a stream, the log is not
framed; then every line counts as a frame of the console, its end included.
-/

namespace Dockmaster.Docker

/-- The number of bytes before the payload of a frame. -/
def headerLength : Nat := 8

/-- The stream that a byte stands for. -/
def streamOfByte? (b : UInt8) : Option FrameStream :=
  if b = 0 then some .stdin
  else if b = 1 then some .stdout
  else if b = 2 then some .stderr
  else none

/-- The number that some bytes denote, the most significant first. -/
def bigEndian (bytes : List UInt8) : Nat :=
  bytes.foldl (fun n b => 256 * n + b.toNat) 0

/-- The length of the payload that a header announces. -/
def payloadLength (header : List UInt8) : Nat := bigEndian ((header.drop 4).take 4)

/-- What a log brings. A frame that is not complete at the end is a failure, but the log may end
right after a header. -/
def logEvents (bytes : List UInt8) : List FeedEvent :=
  match bytes with
  | [] => []
  | b :: others =>
    match streamOfByte? b with
    | none =>
      match _h : cutLine (b :: others) with
      | none => [.fault bytesRemaining]
      | some (line, rest) => .frame ⟨.console, line ++ [lineEnd]⟩ :: logEvents rest
    | some stream =>
      if (b :: others).length < headerLength then [.fault bytesRemaining]
      else
        let rest := (b :: others).drop headerLength
        let length := payloadLength (b :: others)
        if rest.length < length then
          if rest.isEmpty then [] else [.fault bytesRemaining]
        else .frame ⟨stream, rest.take length⟩ :: logEvents (rest.drop length)
termination_by bytes.length
decreasing_by
  · have := length_of_cutLine _h
    omega
  · simp only [List.length_drop, List.length_cons, headerLength] at *
    omega

/-- The feed of a log that comes all at once. -/
def logFeed (bytes : List UInt8) : Feed := (logEvents bytes).map (⟨0, ·⟩)

end Dockmaster.Docker
