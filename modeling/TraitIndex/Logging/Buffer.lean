import TraitIndex.Log.Record

/-!
# Records on their way to the log file

Records are held back until the line of the next one does not fit beside theirs; then they are
passed on together.  A line that fills the buffer alone is passed on at once, behind those before.
-/

namespace TraitIndex.Logging

/-- The number of bytes that are held back at most. -/
def bufferWidth : Nat :=
  8192

/-- The width of the time stamp that a line of the log file begins with. -/
def stampWidth : Nat :=
  "[2026-01-31 12:30:00.000000 +00:00] ".utf8ByteSize

/-- The width of what a line of the log file says about the place that its record comes from. -/
def originWidth (record : Log.Record) : Nat :=
  match record.event with
  | "scripts_discovered" => 47
  | "index_attached" => 47
  | "load_finished" => 61
  | "script_load_failed" => 61
  | "script_submit_failed" => 61
  | "logging_init" => 66
  | "panic_captured" => 66
  | "fragment_rejected" => 78
  | "registry_init" => 82
  | _ => 79

/-- The width of a line of the log file, with its end: time stamp, level, origin and message. -/
def lineWidth (record : Log.Record) : Nat :=
  stampWidth + (record.level.label ++ " ").utf8ByteSize + originWidth record +
    (": " ++ record.message ++ "\n").utf8ByteSize

/-- The records that were passed on and those that are held back. -/
structure Buffer where
  passed : List Log.Record
  held : List Log.Record

namespace Buffer

def empty : Buffer :=
  ⟨[], []⟩

/-- The width of what is held back. -/
def width (buffer : Buffer) : Nat :=
  buffer.held.foldr (fun record width => lineWidth record + width) 0

/-- Passes on what is held back. -/
def flush (buffer : Buffer) : Buffer :=
  ⟨buffer.passed ++ buffer.held, []⟩

def push (buffer : Buffer) (record : Log.Record) : Buffer :=
  let buffer := if bufferWidth < buffer.width + lineWidth record then buffer.flush else buffer
  let buffer := { buffer with held := buffer.held ++ [record] }
  if bufferWidth ≤ lineWidth record then buffer.flush else buffer

def ofRecords (records : List Log.Record) : Buffer :=
  records.foldl push empty

end Buffer

end TraitIndex.Logging
