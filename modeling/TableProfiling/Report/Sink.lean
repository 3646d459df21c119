import TableProfiling.Log.Config
import TableProfiling.Report.Action
import TableProfiling.Report.LineBreak
import TableProfiling.Report.Tally
import TableProfiling.Storage.Channel
import TableProfiling.Text.Truncate

namespace TableProfiling.Report

open Storage (Writer)

-- The blocks of a report are gathered in a channel, with an empty line between them.
structure Sink where
  path : String
  config : Config
  log : Log.Config := .balanced
  isOpen : Bool := true
  -- Whether there is a block that the next one has to be kept apart from.
  hasWritten : Bool := false
  tally : Tally := {}
  deriving DecidableEq, Repr

namespace Sink

variable {σ : Type} (w : Writer σ)

-- What stands at the end of a complete report.
def terminator : String := "\n]"

def closedFailure (s : Sink) : Failure :=
  .storage s.path .closed

-- Writes one text, and then another one if that worked.
def writeBoth (first second : String) (c : σ) : Except StorageFault Unit × σ :=
  match w.write first c with
  | (.ok (), c) => w.write second c
  | (.error fault, c) => (.error fault, c)

def writeBlock (s : Sink) (text : String) (c : σ) : Except Failure Unit × σ :=
  if s.isOpen then
    let (result, c) := if s.hasWritten then writeBoth w "\n" text c else w.write text c
    (result.mapError (.storage s.path), c)
  else
    (.error s.closedFailure, c)

def breakEntry (log : Log.Config) (table field : String) : Log.Entry :=
  .event .warn "Value contains a line break, report layout will break"
    [("table", table), ("field", truncate log.maxFieldLength field)]

-- Warns about the line breaks of a record, and then writes its block.
def write (r : Record) : Action (Sink × σ) Unit := fun (s, c) =>
  let breaks := lineBreaks s.config r
  let warnings := breaks.map (breakEntry s.log r.name)
  let tally := breaks.foldl (·.warning r.name <| · ++ " contains a line break") s.tally
  let text := block s.config r
  match s.writeBlock w text c with
  | (.ok (), c) =>
    let written := s.log.sinkWrite "Wrote profile record"
      [("table", r.name), ("bytes", toString text.utf8ByteSize)]
    ⟨.ok (), warnings ++ written, { s with tally := tally.written r.name, hasWritten := true }, c⟩
  | (.error f, c) =>
    ⟨.error f, warnings, { s with tally := tally.failure r.name f.text }, c⟩

-- Completes the report. A sink is closed afterwards, even if that failed.
def close : Action (Sink × σ) Unit := fun (s, c) =>
  if s.isOpen then
    let (result, c) := match w.write terminator c with
      | (.ok (), c) => w.flush c
      | (.error fault, c) => (.error fault, c)
    let entries := match result with
      | .ok () => [.event .info "Closed file sink"
          [("path", s.path), ("records", toString s.tally.records.length)]]
      | .error _ => []
    ⟨result.mapError (.storage s.path), entries, { s with isOpen := false }, w.release c⟩
  else
    ⟨.error s.closedFailure, [], s, c⟩

-- Gives a sink up. If it is still open the report remains incomplete.
def drop (s : Sink) (c : σ) : List Log.Entry × σ :=
  if s.isOpen then
    let entry := .event .warn
      "File sink dropped without close, report has no terminating marker" [("path", s.path)]
    ([entry], w.release c)
  else
    ([], c)

end TableProfiling.Report.Sink
