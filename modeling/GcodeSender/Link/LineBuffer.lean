import GcodeSender.Text

/-!
# Lines of a byte stream

Bytes arrive in pieces of any size, and lines are cut from them at line feeds. What came after
the last line feed is kept for the next read. A read ends with the first whole line, with
silence, or with the end of the stream; bytes that grow beyond the limit without a line feed
are an error and are dropped. The main statement is that a line that is buffered is read without
waiting.
-/
namespace GcodeSender

/-- What arrives on a stream. -/
inductive Arrival where
  /-- A piece of bytes. -/
  | bytes (chunk : Bytes)
  /-- Nothing, for as long as a read waits. -/
  | silence
  /-- The end of the stream. -/
  | ended
deriving DecidableEq, Repr

/-- How a read ends. -/
inductive ReadOutcome where
  /-- A line, without the line feed and without one carriage return before it. -/
  | line (text : Bytes)
  /-- No whole line in time. -/
  | timeout
  /-- The stream ended. -/
  | closed
  /-- A line that is too long. -/
  | lineTooLong
deriving DecidableEq, Repr

namespace LineBuffer

/-- The most bytes that are kept without a line feed. -/
def limit : Nat := 256

/-- The first whole line of a buffer, and what follows it. -/
def takeLine? (buffer : Bytes) : Option (Bytes × Bytes) :=
  (cut? Byte.newline buffer).map fun (line, rest) => (stripReturn line, rest)

/-- Wait for a whole line. Gives how the read ends, the buffer after it, and what has not
arrived yet. Without any further arrival the read ends as in silence. -/
def await (buffer : Bytes) : List Arrival → ReadOutcome × Bytes × List Arrival
  | [] => (.timeout, buffer, [])
  | .silence :: later => (.timeout, buffer, later)
  | .ended :: later => (.closed, buffer, .ended :: later)
  | .bytes chunk :: later =>
    let buffer := buffer ++ chunk
    match takeLine? buffer with
    | some (line, rest) => (.line line, rest, later)
    | none =>
      if limit < buffer.length then (.lineTooLong, [], later) else await buffer later

/-- Read a line: one that is buffered already, or the first that arrives. -/
def read (buffer : Bytes) (arrivals : List Arrival) : ReadOutcome × Bytes × List Arrival :=
  match takeLine? buffer with
  | some (line, rest) => (.line line, rest, arrivals)
  | none => await buffer arrivals

/-- A buffered line is read without waiting. -/
theorem read_of_takeLine? {buffer line rest : Bytes} {arrivals : List Arrival}
    (buffered : takeLine? buffer = some (line, rest)) :
    read buffer arrivals = (.line line, rest, arrivals) := by
  simp [read, buffered]

end LineBuffer

end GcodeSender
