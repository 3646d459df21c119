import TableProfiling.Proofs.Report.Line
import TableProfiling.Proofs.Storage.Channel
import TableProfiling.Report.FileSink

namespace TableProfiling.Report

open Storage (Writer Channel Store Location)

variable {σ : Type} {w : Writer σ}

-- What can be asked of a sink.
inductive Call
  | write (r : Record)
  | status
  | close
  deriving DecidableEq

namespace Call

-- Only the call for the status has an answer, apart from whether it succeeds.
def act (w : Writer σ) : Call → Action (Sink × σ) (Option Tally)
  | write r => do Sink.write w r; return none
  | status => do return some (← Action.get).1.tally
  | close => do Sink.close w; return none

def record? : Call → Option Record
  | write r => some r
  | status | close => none

end Call

-- How a sink and its channel stand after some calls.
def after (w : Writer σ) (calls : List Call) (k : Sink × σ) : Sink × σ :=
  calls.foldl (fun k call => (call.act w k).state) k

-- The records that are to be written before a sink is closed.
def accepted (calls : List Call) : List Record :=
  (calls.takeWhile (· ≠ .close)).filterMap Call.record?

-- The blocks of records, with an empty line between them.
def joined (c : Config) (rs : List Record) : String :=
  "\n".intercalate (rs.map (block c))

theorem joined_append_singleton :
    joined c (rs ++ [r]) = joined c rs ++ (if rs.isEmpty then "" else "\n") ++ block c r := by
  cases rs
  case nil => simp [joined]
  case cons r' rs =>
    simp only [joined, List.map_append]
    rw [String.intercalate_append_of_ne_nil (by simp) (by simp)]
    simp

theorem block_ends (c : Config) (r : Record) : ∃ t, block c r = t ++ "\n" :=
  ⟨_, terminated_eq_intercalate lines_ne_nil⟩

theorem joined_ends (c : Config) (rs : List Record) :
    rs = [] ∧ joined c rs = "" ∨ ∃ t, joined c rs = t ++ "\n" := by
  cases List.eq_nil_or_concat rs
  case inl hn => exact .inl ⟨hn, by simp [hn, joined]⟩
  case inr hr =>
    have ⟨rs', r, hr⟩ := hr
    have ⟨t, ht⟩ := block_ends c r
    right
    rw [hr, List.concat_eq_append, joined_append_singleton, ht, ←String.append_assoc]
    exact ⟨_, rfl⟩

-- As long as a report is not complete, it does not look as if it were.
theorem joined_ne_marked (t : String) : joined c rs ≠ t ++ "\n]" := by
  intro h
  have h := congrArg (·.toList.getLast?) h
  obtain ⟨-, hj⟩ | ⟨_, hj⟩ := joined_ends c rs <;> simp [hj] at h

namespace Action

variable {a : Action σ α} {k : σ}

theorem return_result :
    ((do let _ ← a; return x : Action σ β) k).result = (a k).result.map fun _ => x := by
  change (Action.bind a (fun _ => Action.pure x) k).result = _
  simp only [Action.bind, Action.pure]
  cases (a k).result <;> rfl

theorem return_state : ((do let _ ← a; return x : Action σ β) k).state = (a k).state := by
  change (Action.bind a (fun _ => Action.pure x) k).state = _
  simp only [Action.bind, Action.pure]
  cases (a k).result <;> rfl

theorem return_entries : ((do let _ ← a; return x : Action σ β) k).entries = (a k).entries := by
  change (Action.bind a (fun _ => Action.pure x) k).entries = _
  simp only [Action.bind, Action.pure]
  cases (a k).result <;> simp

end Action

namespace Call

variable {k : Sink × σ}

@[simp]
theorem write_state : ((write r).act w k).state = (Sink.write w r k).state :=
  Action.return_state

@[simp]
theorem status_state : (status.act w k).state = k :=
  rfl

@[simp]
theorem close_state : (close.act w k).state = (Sink.close w k).state :=
  Action.return_state

@[simp]
theorem write_result :
    ((write r).act w k).result = (Sink.write w r k).result.map fun _ => none :=
  Action.return_result

@[simp]
theorem status_result : (status.act w k).result = .ok (some k.1.tally) :=
  rfl

@[simp]
theorem close_result : (close.act w k).result = (Sink.close w k).result.map fun _ => none :=
  Action.return_result

end Call

-- A channel that takes everything. It holds a text while it is in use, and the text is kept when it
-- no longer is.
structure Faithful (w : Writer σ) (holds kept : String → σ → Prop) : Prop where
  write   : ∀ {t c} (s), holds t c → ∃ c', w.write s c = (.ok (), c') ∧ holds (t ++ s) c'
  flush   : ∀ {t c}, holds t c → ∃ c', w.flush c = (.ok (), c') ∧ holds t c'
  release : ∀ {t c}, holds t c → kept t (w.release c)

-- A sink that has taken some records since it was opened.
structure Taken (p : String) (c : Config) (rs : List Record) (s : Sink) : Prop where
  path       : s.path = p
  config     : s.config = c
  records    : s.tally.records = rs.map Record.name
  hasWritten : s.hasWritten = !rs.isEmpty

variable {holds kept : String → σ → Prop} {p : String} {c : Config} {rs : List Record}
variable {k : Sink × σ}

structure Gathering (holds : String → σ → Prop) (p : String) (c : Config)
    (rs : List Record) (k : Sink × σ) : Prop extends Taken p c rs k.1 where
  isOpen : k.1.isOpen = true
  text   : holds (joined c rs) k.2

structure Completed (kept : String → σ → Prop) (p : String) (c : Config)
    (rs : List Record) (k : Sink × σ) : Prop extends Taken p c rs k.1 where
  isOpen : k.1.isOpen = false
  text   : kept (joined c rs ++ "\n]") k.2

theorem foldl_warning (f : String → String) (key : String) (breaks : List String) (t : Tally) :
    breaks.foldl (·.warning key <| f ·) t =
      { t with warnings := t.warnings ++ breaks.map fun b => key ++ ": " ++ f b } := by
  induction breaks generalizing t
  case nil          => simp
  case cons b bs hi => rw [List.foldl_cons, hi]; simp [Tally.warning]

namespace Gathering

theorem writeBlock (F : Faithful w holds kept) (h : Gathering holds p c rs k) (r : Record) :
    ∃ c', k.1.writeBlock w (block c r) k.2 = (.ok (), c') ∧
      holds (joined c (rs ++ [r])) c' := by
  simp only [joined_append_singleton, Sink.writeBlock, h.isOpen, h.hasWritten]
  cases rs.isEmpty
  case true =>
    have ⟨c', hw, hc⟩ := F.write (block c r) h.text
    exact ⟨c', by simp [hw, Except.mapError], by simpa using hc⟩
  case false =>
    have ⟨c₁, hw₁, hc₁⟩ := F.write "\n" h.text
    have ⟨c₂, hw₂, hc₂⟩ := F.write (block c r) hc₁
    exact ⟨c₂, by simp [Sink.writeBoth, hw₁, hw₂, Except.mapError], by simpa using hc₂⟩

theorem write (F : Faithful w holds kept) (h : Gathering holds p c rs k) (r : Record) :
    (Sink.write w r k).result = .ok () ∧
    Gathering holds p c (rs ++ [r]) (Sink.write w r k).state := by
  have ⟨c', hw, hc⟩ := h.writeBlock F r
  rw [←h.config] at hw
  simp only [Sink.write, hw]
  refine ⟨trivial, ⟨h.path, h.config, ?_, by simp⟩, h.isOpen, hc⟩
  simp [Tally.written, foldl_warning (· ++ " contains a line break"), h.records]

theorem close (F : Faithful w holds kept) (h : Gathering holds p c rs k) :
    (Sink.close w k).result = .ok () ∧
    Completed kept p c rs (Sink.close w k).state := by
  have ⟨c₁, hw, hc₁⟩ := F.write Sink.terminator h.text
  have ⟨c₂, hf, hc₂⟩ := F.flush hc₁
  simp only [Sink.close, h.isOpen, if_true, hw, hf]
  exact ⟨rfl, ⟨h.path, h.config, h.records, h.hasWritten⟩, rfl, F.release hc₂⟩

theorem drop (F : Faithful w holds kept) (h : Gathering holds p c rs k) :
    kept (joined c rs) (k.1.drop w k.2).2 := by
  simp only [Sink.drop, h.isOpen]
  exact F.release h.text

theorem act (F : Faithful w holds kept) (h : Gathering holds p c rs k) (call : Call) :
    ∃ answer, (call.act w k).result = .ok answer := by
  cases call
  case write r => simp [(h.write F r).left, Except.map]
  case status  => simp
  case close   => simp [(h.close F).left, Except.map]

theorem act_state {call : Call} (F : Faithful w holds kept) (h : Gathering holds p c rs k)
    (hc : call ≠ .close) :
    Gathering holds p c (rs ++ call.record?.toList) (call.act w k).state := by
  cases call
  case write r => simpa [Call.record?] using (h.write F r).right
  case status  => simpa [Call.record?] using h
  case close   => contradiction

end Gathering

namespace Completed

theorem writeBlock (h : Completed kept p c rs k) (text : String) :
    k.1.writeBlock w text k.2 = (.error (.storage p .closed), k.2) := by
  simp [Sink.writeBlock, h.isOpen, Sink.closedFailure, h.path]

theorem write (h : Completed kept p c rs k) (r : Record) :
    (Sink.write w r k).result = .error (.storage p .closed) ∧
    (Sink.write w r k).state.2 = k.2 ∧
    Completed kept p c rs (Sink.write w r k).state := by
  simp only [Sink.write, h.writeBlock]
  refine ⟨trivial, trivial, ⟨h.path, h.config, ?_, h.hasWritten⟩, h.isOpen, h.text⟩
  simp [Tally.failure, foldl_warning (· ++ " contains a line break"), h.records]

theorem close (h : Completed kept p c rs k) :
    (Sink.close w k).result = .error (.storage p .closed) ∧ (Sink.close w k).state = k := by
  simp [Sink.close, h.isOpen, Sink.closedFailure, h.path]

theorem drop (h : Completed kept p c rs k) : (k.1.drop w k.2).2 = k.2 := by
  simp [Sink.drop, h.isOpen]

-- A call that is refused leaves everything as it is, but for the failure in the tally.
theorem act {call : Call} (h : Completed kept p c rs k) (hc : call ≠ .status) :
    (call.act w k).result = .error (.storage p .closed) ∧ (call.act w k).state.2 = k.2 := by
  cases call
  case write r => simp [h.write r, Except.map]
  case status  => contradiction
  case close   => simp [h.close, Except.map]

theorem act_state (h : Completed kept p c rs k) (call : Call) :
    Completed kept p c rs (call.act w k).state := by
  cases call
  case write r => simpa using (h.write r).right.right
  case status  => exact h
  case close   => simpa [h.close] using h

end Completed

theorem after_append : after w (calls₁ ++ calls₂) k = after w calls₂ (after w calls₁ k) := by
  simp [after]

theorem Gathering.after (F : Faithful w holds kept) (h : Gathering holds p c rs k)
    (hc : .close ∉ calls) :
    Gathering holds p c (rs ++ calls.filterMap Call.record?) (after w calls k) := by
  induction calls generalizing rs k
  case nil => simpa [Report.after] using h
  case cons call calls hi =>
    simp only [List.mem_cons, not_or] at hc
    have h := hi (h.act_state F <| Ne.symm hc.left) hc.right
    cases hr : call.record? <;> simpa [hr, Report.after] using h

theorem Completed.after (h : Completed kept p c rs k) (calls : List Call) :
    Completed kept p c rs (after w calls k) := by
  induction calls generalizing k
  case nil                => exact h
  case cons call calls hi => exact hi <| h.act_state call

theorem takeWhile_append_of_not_mem (hc : .close ∉ before) (rest : List Call) :
    (before ++ rest).takeWhile (· ≠ .close) = before ++ rest.takeWhile (· ≠ .close) := by
  apply List.takeWhile_append_of_pos
  intro call hm
  simpa using ne_of_mem_of_not_mem hm hc

theorem accepted_of_not_mem (hc : .close ∉ calls) :
    accepted calls = calls.filterMap Call.record? := by
  have h := takeWhile_append_of_not_mem hc []
  rw [List.append_nil] at h
  rw [accepted, h, List.takeWhile_nil, List.append_nil]

theorem accepted_of_mem (hc : .close ∉ before) :
    accepted (before ++ .close :: rest) = before.filterMap Call.record? := by
  rw [accepted, takeWhile_append_of_not_mem hc]
  simp

-- Whether a sink is closed depends on whether it has been asked to be; what it has taken until then
-- are the records that have been written before.
theorem Gathering.run (F : Faithful w holds kept) (h : Gathering holds p c [] k)
    (calls : List Call) :
    (.close ∉ calls → Gathering holds p c (accepted calls) (Report.after w calls k)) ∧
    (.close ∈ calls → Completed kept p c (accepted calls) (Report.after w calls k)) := by
  constructor
  case left =>
    intro hc
    simpa [accepted_of_not_mem hc] using h.after F hc
  case right =>
    intro hc
    have ⟨before, rest, hs, hb⟩ := List.eq_append_cons_of_mem hc
    have completed := h.after F hb |>.close F |>.right
    rw [hs, accepted_of_mem hb, after_append]
    simpa [Report.after] using completed.after rest

-- A channel to the file at a location; the file gets it all when the channel is no longer used.
theorem faithful_file (l : Location) :
    Faithful Channel.writer (Channel.Holds l) fun text c =>
      c.store.get? l = some (.file text.toUTF8) where
  write s h := h.write
  flush h :=
    have ⟨c, hf, hc, hp⟩ := h.flush
    ⟨c, hf, hc.holds hp⟩
  release h := by
    have ⟨c, hf, hc, _⟩ := h.flush
    simp only [Channel.writer, hf]
    exact hc.file

-- Something has been opened that keeps what is written, other than a device.
def IsFile (c : Channel) : Prop :=
  ∃ content, c.store.get? c.location = some (.file content)

theorem openSink_ok {c : FileConfig} {k : Sink × Channel} (ho : (c.openSink s).result = .ok k) :
    ∃ s₀ l s', Store.createFile s₀ (.ofString c.filename) = .ok (l, s') ∧
      k = ({ path := c.filename, config := ⟨c.includeTests⟩ }, .ofFile s' l) := by
  simp only [FileConfig.openSink] at ho
  split at ho
  case h_1 => cases ho
  case h_2 =>
    split at ho
    case h_1 => cases ho
    case h_2 hc =>
      cases ho
      exact ⟨_, _, _, hc, rfl⟩

theorem openSink_gathering {c : FileConfig} {k : Sink × Channel}
    (ho : (c.openSink s).result = .ok k) (hf : IsFile k.2) :
    Gathering (Channel.Holds k.2.location) c.filename ⟨c.includeTests⟩ [] k := by
  have ⟨content, hf⟩ := hf
  obtain ⟨_, _, _, hc, rfl⟩ := openSink_ok ho
  cases Store.createFile_empty hc hf
  refine ⟨⟨rfl, rfl, rfl, rfl⟩, rfl, .empty, ⟨rfl, hf, rfl⟩, ?_⟩
  rfl

-- How a sink of a file stands after some calls. It is told by what a further call would do, by what
-- the file holds if the sink has been closed, and by what it will hold if the sink is given up.
structure RunOnFile (c : FileConfig) (l : Location) (calls : List Call) (k : Sink × Channel) :
    Prop where
  succeeds   : .close ∉ calls →
    ∀ call : Call, ∃ answer, (call.act Channel.writer k).result = .ok answer
  fails      : .close ∈ calls → ∀ call : Call, call ≠ .status →
    (call.act Channel.writer k).result = .error (.storage c.filename .closed) ∧
    (call.act Channel.writer k).state.2 = k.2 ∧
    (call.act Channel.writer k).state.1.tally.records = k.1.tally.records
  complete   : .close ∈ calls →
    k.2.store.get? l = some (.file (joined ⟨c.includeTests⟩ (accepted calls) ++ "\n]").toUTF8)
  incomplete : .close ∉ calls →
    (k.1.drop Channel.writer k.2).2.store.get? l =
      some (.file (joined ⟨c.includeTests⟩ (accepted calls)).toUTF8)
  marked_iff : ∃ text : String,
    (k.1.drop Channel.writer k.2).2.store.get? l = some (.file text.toUTF8) ∧
    ((∃ t, text = t ++ "\n]") ↔ .close ∈ calls)

-- A sink gathers records until it is closed, and refuses to do anything afterwards.
theorem openSink_run {c : FileConfig} {s : Store} {k : Sink × Channel}
    (ho : (c.openSink s).result = .ok k) (hf : IsFile k.2) (calls : List Call) :
    RunOnFile c k.2.location calls (after Channel.writer calls k) := by
  have F := faithful_file k.2.location
  have ⟨gathering, completed⟩ := openSink_gathering ho hf |>.run F calls
  refine {
    succeeds := fun hc => (gathering hc).act F
    fails := ?fails
    complete := fun hc => (completed hc).text
    incomplete := fun hc => (gathering hc).drop F
    marked_iff := ?marked_iff }
  case fails =>
    intro hc call hs
    have h := completed hc
    have ⟨hr, hk⟩ := h.act (w := Channel.writer) hs
    exact ⟨hr, hk, (h.act_state call).records.trans h.records.symm⟩
  case marked_iff =>
    by_cases hc : .close ∈ calls
    case pos =>
      have h := completed hc
      exact ⟨_, h.drop ▸ h.text, by simp [hc], by simp⟩
    case neg =>
      refine ⟨_, (gathering hc).drop F, ?_⟩
      simp [hc]
      exact joined_ne_marked

theorem openSink_run_misused :
    let l : Location := ["tmp", "work", "report.txt"]
    let k : Sink × Channel :=
      ({ path := "report.txt", config := {} }, .ofFile (Store.fresh.put l (.file .empty)) l)
    let r : Record := { profile := { name := "t", results := ⟨[("rowCount", .long 1)]⟩ } }
    let calls : List Call := [.write r, .status, .write r, .close, .write r, .close]
    (FileConfig.openSink ⟨"report.txt", true⟩ .fresh).result = .ok k ∧ IsFile k.2 ∧
    RunOnFile ⟨"report.txt", true⟩ l calls (after Channel.writer calls k) ∧
    (after Channel.writer calls k).2.store.get? l = some (.file (
      "Profile for: t\nTable Profile results:\n\trowCount: 1\nColumn Profile results:\n\n" ++
      "Profile for: t\nTable Profile results:\n\trowCount: 1\nColumn Profile results:\n" ++
      "\n]").toUTF8) := by
  intro l k r calls
  have ho : (FileConfig.openSink ⟨"report.txt", true⟩ .fresh).result = .ok k := rfl
  have hf : IsFile k.2 := ⟨_, rfl⟩
  have h := openSink_run ho hf calls
  exact ⟨ho, hf, h, h.complete <| by decide⟩

end TableProfiling.Report
