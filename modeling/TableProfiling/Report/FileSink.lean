import TableProfiling.Json.Record
import TableProfiling.Report.Sink

namespace TableProfiling.Report

open Json Storage

-- Where a report goes, and what is in it.
structure FileConfig where
  filename : String
  includeTests : Bool := true
  deriving DecidableEq, Repr

namespace FileConfig

def codec : Codec FileConfig :=
  .record "FileSinkConfig"
    (.cons (.required "filename" (.stringLike .path))
      (.cons (.defaulted "include_tests" .bool true) .nil))
    (fun (filename, includeTests, ()) => { filename, includeTests })
    (fun c => (c.filename, c.includeTests, ()))

-- Sees to it that the directory of a file exists.
def prepare (s : Store) (p : Path) : Except StorageFault Unit × Store :=
  match p.parent? with
  | some parent =>
    if parent.isEmpty || s.isDirectory parent then (.ok (), s) else s.createDirectories parent
  | none => (.ok (), s)

-- Creates the file and what directories it needs, and opens a sink on it.
def openSink (c : FileConfig) : Action Store (Sink × Channel) := fun s =>
  let span := .span .info "open" [("path", c.filename)]
  let p := Path.ofString c.filename
  match prepare s p with
  | (.error fault, s) => ⟨.error (.storage c.filename fault), [span], s⟩
  | (.ok (), s) =>
    match s.createFile p with
    | .error fault => ⟨.error (.storage c.filename fault), [span], s⟩
    | .ok (l, s) =>
      let sink : Sink := { path := c.filename, config := ⟨c.includeTests⟩ }
      let entry := .event .info "Opened file sink" [("path", c.filename)]
      ⟨.ok (sink, .ofFile s l), [span, entry], s⟩

-- Opens a sink as a value describes it.
def openValue (v : Value) : Action Store (Sink × Channel) :=
  match codec.ofValue v with
  | .ok c => c.openSink
  | .error fault => .fail (.configuration (.sink fault))

end TableProfiling.Report.FileConfig
