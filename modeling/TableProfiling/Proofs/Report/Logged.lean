import TableProfiling.Proofs.Log.Picked
import TableProfiling.Proofs.Report.Accounts

namespace TableProfiling.Report

open Log
open Storage (Writer Channel Store Location)

variable {σ : Type} {w : Writer σ} {k : Sink × σ}

-- Whether a step has closed a sink.
def Step.closes (x : Step σ) : Bool :=
  x.call = .close && x.outcome.result.isOk

-- What the log says about some calls.
def logged (w : Writer σ) (calls : List Call) (k : Sink × σ) : List Entry :=
  (steps w calls k).flatMap (·.outcome.entries)

-- What the log says about a sink that is opened, gets some calls, and is given up.
def runEntries (c : FileConfig) (store : Store) (w : Writer σ) (calls : List Call)
    (k : Sink × σ) : List Entry :=
  let k' := after w calls k
  (c.openSink store).entries ++ logged w calls k ++ (k'.1.drop w k'.2).1

-- Each break of a line, with the name of the record that has it.
def breaks (c : Config) (rs : List Record) : List (String × String) :=
  rs.flatMap fun r => (lineBreaks c r).map (r.name, ·)

theorem map_breaks (f : String × String → α) (c : Config) (rs : List Record) :
    (breaks c rs).map f = rs.flatMap fun r => (lineBreaks c r).map fun b => f (r.name, b) := by
  simp [breaks, List.map_flatMap, Function.comp_def]

def breakEntries (log : Log.Config) (c : Config) (r : Record) : List Entry :=
  (lineBreaks c r).map (Sink.breakEntry log r.name)

def writeEntries (log : Log.Config) (c : Config) (r : Record) : List Entry :=
  log.sinkWrite "Wrote profile record"
    [("table", r.name), ("bytes", toString (block c r).utf8ByteSize)]

theorem flatMap_writeEntries (log : Log.Config) (c : Config) (rs : List Record) :
    rs.flatMap (writeEntries log c) =
      if log.sinkWrites then
        rs.map fun r => .event log.level "Wrote profile record"
          [("table", r.name), ("bytes", toString (block c r).utf8ByteSize)]
      else
        [] := by
  induction rs
  case nil          => split <;> rfl
  case cons r rs hi =>
    rw [List.flatMap_cons, hi, writeEntries, Config.sinkWrite]
    split <;> rfl

def closeEntry (path : String) (t : Tally) : Entry :=
  .event .info "Closed file sink" [("path", path), ("records", toString t.records.length)]

theorem act_log (call : Call) : (call.act w k).state.1.log = k.1.log := by
  cases call
  case write r =>
    simp only [Call.write_state, Sink.write]
    split <;> rfl
  case status => rfl
  case close =>
    simp only [Call.close_state, Sink.close]
    split <;> rfl

theorem write_entries (r : Record) :
    ((Call.write r).act w k).entries =
      breakEntries k.1.log k.1.config r ++
      (Step.written? ⟨.write r, (Call.write r).act w k⟩).toList.flatMap
        (writeEntries k.1.log k.1.config) := by
  set x : Step σ := ⟨.write r, (Call.write r).act w k⟩
  have result : x.outcome.result = _ := Call.write_result
  have entries : x.outcome.entries = (Sink.write w r k).entries := Action.return_entries
  refine entries.trans ?_
  rcases hb : k.1.writeBlock w (block k.1.config r) k.2 with ⟨⟨f⟩ | ⟨⟩, c'⟩
  case error =>
    simp only [Sink.write, hb, Except.map] at result
    simp [Sink.write, hb, Step.written?_of_error result, breakEntries]
  case ok =>
    simp only [Sink.write, hb, Except.map] at result
    simp [Sink.write, hb, Step.written?_of_ok result, breakEntries, writeEntries, x, Call.record?]

theorem close_entries :
    (Call.close.act w k).entries =
      if Step.closes ⟨.close, Call.close.act w k⟩ then [closeEntry k.1.path k.1.tally] else [] := by
  set x : Step σ := ⟨.close, Call.close.act w k⟩
  have entries : x.outcome.entries = (Sink.close w k).entries := Action.return_entries
  have closes : x.closes = (Sink.close w k).result.isOk := by
    simp [Step.closes, x]
    cases (Sink.close w k).result <;> rfl
  refine entries.trans ?_
  rw [closes]
  simp only [Sink.close]
  split
  case isFalse => rfl
  case isTrue =>
    rcases w.write Sink.terminator k.2 with ⟨⟨f⟩ | ⟨⟩, c⟩
    case error => rfl
    case ok =>
      rcases hf : w.flush c with ⟨⟨f⟩ | ⟨⟩, c'⟩ <;>
        simp [hf, closeEntry, Except.mapError, Except.isOk, Except.toBool]

theorem act_entries (call : Call) :
    (call.act w k).entries =
      call.record?.toList.flatMap (breakEntries k.1.log k.1.config) ++
      (Step.written? ⟨call, call.act w k⟩).toList.flatMap (writeEntries k.1.log k.1.config) ++
      if Step.closes ⟨call, call.act w k⟩ then [closeEntry k.1.path k.1.tally] else [] := by
  cases call
  case write r => simpa [Call.record?, Step.closes] using write_entries r
  case status  => rfl
  case close   => exact close_entries.trans <| by rw [Step.written?_of_no_record rfl]; rfl

theorem picked_breakEntries (log : Log.Config) (c : Config) (r : Record) :
    picked messages (breakEntries log c r) =
      if "Value contains a line break, report layout will break" ∈ messages then
        breakEntries log c r
      else
        [] := by
  simp only [breakEntries]
  induction lineBreaks c r
  case nil          => simp
  case cons b bs hi =>
    rw [List.map_cons, Sink.breakEntry, picked_event, hi]
    split <;> rfl

theorem picked_writeEntries (log : Log.Config) (c : Config) (r : Record) :
    picked messages (writeEntries log c r) =
      if "Wrote profile record" ∈ messages then writeEntries log c r else [] :=
  picked_sinkWrite ..

-- The log tells of three things, and each can be told from the others.
theorem picked_act (messages : List String) (call : Call) :
    picked messages (call.act w k).entries =
      (if "Value contains a line break, report layout will break" ∈ messages then
        call.record?.toList.flatMap (breakEntries k.1.log k.1.config)
      else
        []) ++
      (if "Wrote profile record" ∈ messages then
        (Step.written? ⟨call, call.act w k⟩).toList.flatMap (writeEntries k.1.log k.1.config)
      else
        []) ++
      if "Closed file sink" ∈ messages ∧ Step.closes ⟨call, call.act w k⟩ then
        [closeEntry k.1.path k.1.tally]
      else
        [] := by
  rw [act_entries]
  simp only [picked_append, picked_flatMap, picked_breakEntries, picked_writeEntries]
  congr 1
  · congr 1 <;> split <;> simp
  · by_cases h : Step.closes ⟨call, call.act w k⟩ <;> simp [h, closeEntry]

theorem logged_cons (call : Call) (calls : List Call) (k : Sink × σ) :
    logged w (call :: calls) k =
      (call.act w k).entries ++ logged w calls (call.act w k).state :=
  rfl

theorem picked_breaks (calls : List Call) (k : Sink × σ) :
    picked ["Value contains a line break, report layout will break"] (logged w calls k) =
      (calls.filterMap Call.record?).flatMap (breakEntries k.1.log k.1.config) := by
  induction calls generalizing k
  case nil => rfl
  case cons call calls hi =>
    have config := act_advanced (w := w) (k := k) call |>.config
    rw [logged_cons, picked_append, hi, act_log, config, picked_act]
    cases h : call.record? <;> simp [h]

theorem picked_writes (calls : List Call) (k : Sink × σ) :
    picked ["Wrote profile record"] (logged w calls k) =
      (written w calls k).flatMap (writeEntries k.1.log k.1.config) := by
  induction calls generalizing k
  case nil => rfl
  case cons call calls hi =>
    have config := act_advanced (w := w) (k := k) call |>.config
    rw [logged_cons, picked_append, hi, act_log, config, picked_act, written_cons]
    simp

-- A sink is closed once, and takes no records afterwards.
theorem closes_final {call : Call} (h : Step.closes ⟨call, call.act w k⟩) (calls : List Call) :
    (steps w calls (call.act w k).state).any Step.closes = false ∧
    (after w calls (call.act w k).state).1.tally.records = k.1.tally.records := by
  simp only [Step.closes, Bool.and_eq_true, decide_eq_true_eq] at h
  obtain ⟨rfl, -⟩ := h
  have advanced := close_advanced (w := w) (k := k)
  have closed : (Call.close.act w k).state.1.isOpen = false := by simpa using advanced.isOpen
  constructor
  case left =>
    apply List.any_eq_false.mpr
    intro x hx
    rcases steps_refused closed hx with hc | ⟨f, hf⟩
    case inl => simp [Step.closes, hc]
    case inr => simp [Step.closes, hf, Except.isOk, Except.toBool]
  case right =>
    have later := after_advanced (w := w) calls (Call.close.act w k).state |>.records
    have none := written_of_closed (w := w) closed calls
    rw [written] at none
    rw [later, none, advanced.records, List.filterMap_cons, Step.written?_of_no_record rfl]
    simp

-- The entry about the closing of a sink counts all records that the sink ever takes.
theorem picked_closes (calls : List Call) (k : Sink × σ) :
    picked ["Closed file sink"] (logged w calls k) =
      if (steps w calls k).any Step.closes then [closeEntry k.1.path (after w calls k).1.tally]
      else [] := by
  induction calls generalizing k
  case nil => rfl
  case cons call calls hi =>
    have path := act_advanced (w := w) (k := k) call |>.path
    rw [logged_cons, picked_append, hi, picked_act, path]
    by_cases h : Step.closes ⟨call, call.act w k⟩
    case neg => simp [h, steps, after]
    case pos =>
      obtain ⟨unclosed, records⟩ := closes_final h calls
      have last : (after w (call :: calls) k).1.tally.records = k.1.tally.records := records
      simp [h, unclosed, steps, closeEntry, last]

theorem picked_drops (calls : List Call) (k : Sink × σ) :
    picked ["File sink dropped without close, report has no terminating marker"]
      (logged w calls k) = [] := by
  induction calls generalizing k
  case nil                => rfl
  case cons call calls hi =>
    rw [logged_cons, picked_append, hi, picked_act]
    simp

theorem picked_openSink (h : "Opened file sink" ∉ messages) (c : FileConfig) (store : Store) :
    picked messages (c.openSink store).entries = [] := by
  simp only [FileConfig.openSink]
  repeat' split
  all_goals simp [h]

-- Opening a sink adds nothing to what the log says otherwise, and giving it up a single warning.
theorem picked_runEntries (h : "Opened file sink" ∉ messages) (c : FileConfig) (store : Store)
    (calls : List Call) (k : Sink × σ) :
    picked messages (runEntries c store w calls k) =
      picked messages (logged w calls k) ++
      if (after w calls k).1.isOpen ∧
          "File sink dropped without close, report has no terminating marker" ∈ messages then
        [.event .warn "File sink dropped without close, report has no terminating marker"
          [("path", (after w calls k).1.path)]]
      else
        [] := by
  simp only [runEntries, picked_append, picked_openSink h, List.nil_append, Sink.drop]
  by_cases opened : (after w calls k).1.isOpen <;> simp [opened]

-- What a call appends ends in the block, if the call succeeds.
theorem asked_of_ok {r : Record} (h : ((Call.write r).act w k).result.isOk) :
    (asked w (.write r) k).getLast? = some (block k.1.config r) := by
  have ho : k.1.isOpen := by
    apply Bool.of_not_eq_false
    intro closed
    obtain ⟨f, hf⟩ : ∃ f, ((Call.write r).act w k).result = .error f := act_refused closed nofun
    simp [hf, Except.isOk, Except.toBool] at h
  rw [asked_write ho]
  split
  case isFalse => rfl
  case isTrue hw =>
    rcases hn : w.write "\n" k.2 with ⟨⟨f⟩ | ⟨⟩, c⟩
    case error =>
      simp [Sink.write, Sink.writeBlock, Sink.writeBoth, ho, hw, hn, Except.mapError, Except.map,
        Except.isOk, Except.toBool] at h
    case ok => rfl

-- What the log says about a sink that was opened at `k`, beside what its tally says.
structure Logged (c : FileConfig) (log : Log.Config) (w : Writer σ) (calls : List Call)
    (k : Sink × σ) (es : List Entry) : Prop where
  status   : (Call.status.act w (after w calls k)).result = .ok (some (after w calls k).1.tally)
  breaks   : picked ["Value contains a line break, report layout will break"] es =
    (breaks ⟨c.includeTests⟩ <| calls.filterMap Call.record?).map fun (table, field) =>
      .event .warn "Value contains a line break, report layout will break"
        [("table", table), ("field", truncate log.maxFieldLength field)]
  warnings : (after w calls k).1.tally.warnings =
    (Report.breaks ⟨c.includeTests⟩ <| calls.filterMap Call.record?).map fun (table, field) =>
      table ++ ": " ++ (field ++ " contains a line break")
  writes   : picked ["Wrote profile record"] es =
    if log.sinkWrites then
      (written w calls k).map fun r => .event log.level "Wrote profile record"
        [("table", r.name), ("bytes", toString (block ⟨c.includeTests⟩ r).utf8ByteSize)]
    else
      []
  records  : (picked ["Wrote profile record"] es).length =
    if log.sinkWrites then (after w calls k).1.tally.records.length else 0
  appended : ∀ {before r rest}, calls = before ++ .write r :: rest →
    ((Call.write r).act w (after w before k)).result.isOk →
    (asked w (.write r) (after w before k)).getLast? = some (block ⟨c.includeTests⟩ r)
  closed   : picked ["Closed file sink"] es =
    if (steps w calls k).any Step.closes then
      [.event .info "Closed file sink" [("path", c.filename),
        ("records", toString (after w calls k).1.tally.records.length)]]
    else
      []
  dropped  : picked ["File sink dropped without close, report has no terminating marker"] es =
    if .close ∈ calls then
      []
    else
      [.event .warn "File sink dropped without close, report has no terminating marker"
        [("path", c.filename)]]

-- The entries agree with the tally: both tell of the same line breaks and of the same records.
theorem openSink_logged {c : FileConfig} {store : Store} {k : Sink × Channel}
    (ho : (c.openSink store).result = .ok k) (log : Log.Config) (w : Writer σ) (x : σ)
    (calls : List Call) :
    let k' := ({ k.1 with log }, x)
    Logged c log w calls k' (runEntries c store w calls k') := by
  obtain ⟨_, _, _, -, rfl⟩ := openSink_ok ho
  intro k'
  have h := after_advanced (w := w) calls k'
  have config (before : List Call) : (after w before k').1.config = ⟨c.includeTests⟩ :=
    after_advanced before k' |>.config
  have writes : picked ["Wrote profile record"] (runEntries c store w calls k') =
      if log.sinkWrites then
        (written w calls k').map fun r => .event log.level "Wrote profile record"
          [("table", r.name), ("bytes", toString (block ⟨c.includeTests⟩ r).utf8ByteSize)]
      else
        [] := by
    rw [picked_runEntries (by simp), picked_writes, flatMap_writeEntries]
    simp [k']
  refine {
    status   := rfl
    breaks   := ?breaks
    warnings := ?warnings
    writes   := ?writes
    records  := ?records
    appended := fun _ ok => config _ ▸ asked_of_ok ok
    closed   := ?closed
    dropped  := ?dropped }
  case breaks =>
    rw [picked_runEntries (by simp), picked_breaks, map_breaks, if_neg (by simp), List.append_nil]
    rfl
  case warnings =>
    rw [h.warnings, filterMap_record?_steps, map_breaks]
    rfl
  case writes => exact writes
  case records =>
    rw [writes, h.records]
    split <;> simp [written, k']
  case closed =>
    rw [picked_runEntries (by simp), picked_closes]
    simp [closeEntry, k']
  case dropped =>
    have opened : (after w calls k').1.isOpen ↔ .close ∉ calls := by
      simpa only [map_call_steps, k', true_and] using h.isOpen
    have path : (after w calls k').1.path = c.filename := h.path
    rw [picked_runEntries (by simp), picked_drops, path]
    by_cases hc : .close ∈ calls <;> simp [hc, opened]

-- The second text fails to be written. The sink is closed in the end, and takes no further record.
theorem openSink_logged_failing :
    let l : Location := ["tmp", "work", "report.txt"]
    let k : Sink × Channel :=
      ({ path := "report.txt", config := {} }, .ofFile (Store.fresh.put l (.file .empty)) l)
    let w : Writer Nat :=
      { write _ n := (if n = 1 then .error .storageFull else .ok (), n + 1)
        flush n   := (.ok (), n)
        release   := id }
    let log : Log.Config := { Log.Config.verbose with maxFieldLength := 16 }
    let k' : Sink × Nat := ({ k.1 with log }, 0)
    let r : Record := { profile := { name := "t", results := ⟨[("row\ncount", .long 1)]⟩ } }
    let calls : List Call := [.write r, .write r, .close, .write r]
    let es := runEntries ⟨"report.txt", true⟩ .fresh w calls k'
    let broken : Entry := .event .warn "Value contains a line break, report layout will break"
      [("table", "t"), ("field", "table metric 'ro...(truncated)")]
    (FileConfig.openSink ⟨"report.txt", true⟩ .fresh).result = .ok k ∧
    Logged ⟨"report.txt", true⟩ log w calls k' es ∧
    logged w calls k' =
      [broken, .event .info "Wrote profile record" [("table", "t"), ("bytes", "76")], broken,
        .event .info "Closed file sink" [("path", "report.txt"), ("records", "1")], broken] := by
  intro l k w log k' r calls es broken
  have ho : (FileConfig.openSink ⟨"report.txt", true⟩ .fresh).result = .ok k := rfl
  exact ⟨ho, openSink_logged ho log w 0 calls, by decide +kernel⟩

end TableProfiling.Report
