import Dockmaster.Docker.Lines
import Dockmaster.Docker.Shapes
import Dockmaster.Text.Utf8

/-!
# Progress records

While an image is pulled, the daemon sends one JSON record after another, each on a line of its own.
A line break may also stand inside a record: a line that ends too early to be a record is put
together with the next one. This is done once while the body is coming in and once for each record
after it has ended; what is left over then is a failure. A record may report that pulling failed.
-/

namespace Dockmaster.Docker

open Json

/-- What some bytes are at the beginning of a stream of progress records. -/
inductive ProgressPiece where
  /-- A record that reports no error. -/
  | record
  /-- The beginning of a record. -/
  | incomplete
  /-- A failure. -/
  | failed (fault : DaemonFault)

/-- The failure that JSON in a stream amounts to when it cannot be read. -/
def pieceFault (fault : Json.Fault) : ProgressPiece :=
  if fault.reason.isEnd then .incomplete else .failed (.malformed fault)

/-- What a value is in a stream of progress records. -/
def pieceOfJson (value : Json) : ProgressPiece :=
  match (Shape.optional Shapes.pullProgress).read value with
  | none => .failed .unreadable
  | some .null => .incomplete
  | some record =>
    match (record.member? "error").bind asText? with
    | some error => .failed (.stream error)
    | none => .record

/-- What some bytes are. -/
def pieceOfBytes (bytes : List UInt8) : ProgressPiece :=
  match Text.Utf8.decode? bytes with
  | none => .failed .unreadable
  | some text =>
    match parse text with
    | .ok value => pieceOfJson value
    | .error fault => pieceFault fault

/-- Reads what is left of a stream that has ended. -/
def readEnded (bytes : List UInt8) : Except DaemonFault Unit :=
  match bytes with
  | [] => .ok ()
  | b :: others =>
    match _h : cutLine (b :: others) with
    | none =>
      match pieceOfBytes (b :: others) with
      | .record => .ok ()
      | .incomplete => .error bytesRemaining
      | .failed fault => .error fault
    | some (line, rest) =>
      match pieceOfBytes line with
      | .record => readEnded rest
      | .incomplete => if line ++ rest = [] then .ok () else .error bytesRemaining
      | .failed fault => .error fault
termination_by bytes.length
decreasing_by
  have := length_of_cutLine _h
  omega

/-- Reads a stream. -/
def readProgress (bytes : List UInt8) : Except DaemonFault Unit :=
  match bytes with
  | [] => .ok ()
  | b :: others =>
    match _h : cutLine (b :: others) with
    | none =>
      match pieceOfBytes (b :: others) with
      | .record => .ok ()
      | .incomplete => readEnded (b :: others)
      | .failed fault => .error fault
    | some (line, rest) =>
      match pieceOfBytes line with
      | .record => readProgress rest
      | .incomplete => readEnded (line ++ rest)
      | .failed fault => .error fault
termination_by bytes.length
decreasing_by
  have := length_of_cutLine _h
  omega

end Dockmaster.Docker
