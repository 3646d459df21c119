import TableProfiling.Proofs.Report.Run

namespace TableProfiling.Report

open Storage (Writer Channel Store Location)

variable {σ : Type} {w : Writer σ}

-- A call, and what came of it.
structure Step (σ : Type) where
  call : Call
  outcome : Outcome (Sink × σ) (Option Tally)

namespace Step

-- The record that has been written, if one has.
def written? (x : Step σ) : Option Record :=
  if x.outcome.result.isOk then x.call.record? else none

-- The record that could not be written, if that is so, and why.
def failed? (x : Step σ) : Option (Record × Failure) :=
  match x.outcome.result with
  | .ok _ => none
  | .error f => x.call.record?.map (·, f)

end Step

-- Calls as `after` makes them, each with what came of it.
def steps (w : Writer σ) : List Call → Sink × σ → List (Step σ)
  | [], _ => []
  | call :: calls, k =>
    let outcome := call.act w k
    ⟨call, outcome⟩ :: steps w calls outcome.state

-- The records that were written by some calls.
def written (w : Writer σ) (calls : List Call) (k : Sink × σ) : List Record :=
  (steps w calls k).filterMap Step.written?

-- The records that could not be written.
def failed (w : Writer σ) (calls : List Call) (k : Sink × σ) : List (Record × Failure) :=
  (steps w calls k).filterMap Step.failed?

-- How a tally tells of a failure.
def failureNote (r : Record) (f : Failure) : String :=
  r.name ++ ": " ++ f.text

-- How a tally tells of what breaks lines in a record.
def breakNotes (c : Config) (r : Record) : List String :=
  (lineBreaks c r).map fun b => r.name ++ ": " ++ (b ++ " contains a line break")

-- A channel, and what it has been asked to write.
def traced (w : Writer σ) : Writer (σ × List String) where
  write text c :=
    let (result, c') := w.write text c.1
    (result, c', c.2 ++ [text])
  flush c :=
    let (result, c') := w.flush c.1
    (result, c', c.2)
  release c := (w.release c.1, c.2)

-- The texts that a call asks a channel to write.
def asked (w : Writer σ) (call : Call) (k : Sink × σ) : List String :=
  (call.act (traced w) (k.1, k.2, [])).state.2.2

namespace Step

variable {x : Step σ}

theorem written?_of_ok (h : x.outcome.result = .ok answer) : x.written? = x.call.record? := by
  simp [written?, h, Except.isOk, Except.toBool]

theorem written?_of_error (h : x.outcome.result = .error f) : x.written? = none := by
  simp [written?, h, Except.isOk, Except.toBool]

theorem failed?_of_ok (h : x.outcome.result = .ok answer) : x.failed? = none := by
  simp [failed?, h]

theorem failed?_of_error (h : x.outcome.result = .error f) :
    x.failed? = x.call.record?.map (·, f) := by
  simp [failed?, h]

theorem written?_of_no_record (h : x.call.record? = none) : x.written? = none := by
  simp [written?, h]

theorem failed?_of_no_record (h : x.call.record? = none) : x.failed? = none := by
  cases hx : x.outcome.result
  case ok    => exact failed?_of_ok hx
  case error => simp [failed?_of_error hx, h]

-- A record is either written or it is not.
theorem length_written_add_length_failed (xs : List (Step σ)) :
    (xs.filterMap written?).length + (xs.filterMap failed?).length =
      (xs.filterMap (·.call.record?)).length := by
  induction xs
  case nil => rfl
  case cons x xs hi =>
    simp only [List.filterMap_cons]
    cases hx : x.outcome.result
    case ok =>
      rw [written?_of_ok hx, failed?_of_ok hx]
      cases x.call.record? <;> simp <;> omega
    case error =>
      rw [written?_of_error hx, failed?_of_error hx]
      cases x.call.record? <;> simp <;> omega

end Step

theorem map_call_steps (calls : List Call) (k : Sink × σ) :
    (steps w calls k).map Step.call = calls := by
  induction calls generalizing k
  case nil                => rfl
  case cons call calls hi => simp [steps, hi]

theorem filterMap_record?_steps (calls : List Call) (k : Sink × σ) :
    (steps w calls k).filterMap (·.call.record?) = calls.filterMap Call.record? := by
  conv => rhs; rw [←map_call_steps (w := w) calls k, List.filterMap_map]
  rfl

theorem written_cons {call : Call} :
    written w (call :: calls) k =
      (Step.written? ⟨call, call.act w k⟩).toList ++ written w calls (call.act w k).state := by
  simp only [written, steps, List.filterMap_cons]
  split <;> simp_all

-- What becomes of a sink by some steps.
structure Advanced (s s' : Sink) (xs : List (Step σ)) : Prop where
  path       : s'.path = s.path
  config     : s'.config = s.config
  isOpen     : s'.isOpen ↔ s.isOpen ∧ .close ∉ xs.map Step.call
  hasWritten : s'.hasWritten ↔ s.hasWritten ∨ ∃ r, r ∈ xs.filterMap Step.written?
  records    : s'.tally.records =
    s.tally.records ++ (xs.filterMap Step.written?).map Record.name
  warnings   : s'.tally.warnings =
    s.tally.warnings ++ (xs.filterMap (·.call.record?)).flatMap (breakNotes s.config)
  failures   : s'.tally.failures =
    s.tally.failures ++ (xs.filterMap Step.failed?).map fun (r, f) => failureNote r f

namespace Advanced

variable {s s' s'' : Sink} {xs ys : List (Step σ)}

theorem refl (s : Sink) : Advanced s s ([] : List (Step σ)) where
  path       := rfl
  config     := rfl
  isOpen     := by simp
  hasWritten := by simp
  records    := by simp
  warnings   := by simp
  failures   := by simp

theorem trans (h : Advanced s s' xs) (h' : Advanced s' s'' ys) : Advanced s s'' (xs ++ ys) where
  path       := h'.path.trans h.path
  config     := h'.config.trans h.config
  isOpen     := by simp [h'.isOpen, h.isOpen, and_assoc]
  hasWritten := by
    simp only [h'.hasWritten, h.hasWritten, List.filterMap_append, List.mem_append, exists_or,
      or_assoc]
  records    := by simp [h'.records, h.records]
  warnings   := by simp [h'.warnings, h.warnings, h.config]
  failures   := by simp [h'.failures, h.failures]

-- A call that is not about a record leaves the tally alone.
theorem of_no_record {x : Step σ} (h : x.call.record? = none) (hp : s'.path = s.path)
    (hc : s'.config = s.config) (ho : s'.isOpen ↔ s.isOpen ∧ .close ≠ x.call)
    (hw : s'.hasWritten = s.hasWritten) (ht : s'.tally = s.tally) : Advanced s s' [x] where
  path       := hp
  config     := hc
  isOpen     := by simpa using ho
  hasWritten := by simp [hw, Step.written?_of_no_record h]
  records    := by simp [ht, Step.written?_of_no_record h]
  warnings   := by simp [ht, h]
  failures   := by simp [ht, Step.failed?_of_no_record h]

end Advanced

variable {k : Sink × σ}

theorem foldl_lineBreaks (c : Config) (r : Record) (t : Tally) :
    (lineBreaks c r).foldl (·.warning r.name <| · ++ " contains a line break") t =
      { t with warnings := t.warnings ++ breakNotes c r } :=
  foldl_warning (· ++ " contains a line break") r.name _ t

theorem write_advanced (r : Record) :
    Advanced k.1 ((Call.write r).act w k).state.1 [⟨.write r, (Call.write r).act w k⟩] := by
  have ⟨s, c⟩ := k
  set x : Step σ := ⟨.write r, (Call.write r).act w (s, c)⟩
  rcases hb : s.writeBlock w (block s.config r) c with ⟨⟨f⟩ | ⟨⟩, c'⟩
  case error =>
    have hr : x.outcome.result = .error f := by simp [x, Sink.write, hb, Except.map]
    have hw := Step.written?_of_error hr
    have hf := Step.failed?_of_error hr
    rw [Call.write_state]
    simp only [Sink.write, hb]
    constructor <;>
      simp [hw, hf, x, Call.record?, foldl_lineBreaks, Tally.failure, failureNote]
  case ok =>
    have hr : x.outcome.result = .ok none := by simp [x, Sink.write, hb, Except.map]
    have hw := Step.written?_of_ok hr
    have hf := Step.failed?_of_ok hr
    rw [Call.write_state]
    simp only [Sink.write, hb]
    constructor <;> simp [hw, hf, x, Call.record?, foldl_lineBreaks, Tally.written]

theorem close_advanced :
    Advanced k.1 (Call.close.act w k).state.1 [⟨.close, Call.close.act w k⟩] := by
  rw [Call.close_state, Sink.close]
  split
  case isTrue h  => exact .of_no_record rfl rfl rfl (by simp) rfl rfl
  case isFalse h => exact .of_no_record rfl rfl rfl (by simpa using h) rfl rfl

theorem act_advanced (call : Call) :
    Advanced k.1 (call.act w k).state.1 [⟨call, call.act w k⟩] := by
  cases call
  case write r => exact write_advanced r
  case status  => exact .of_no_record rfl rfl rfl (by simp) rfl rfl
  case close   => exact close_advanced

theorem after_advanced (calls : List Call) (k : Sink × σ) :
    Advanced k.1 (after w calls k).1 (steps w calls k) := by
  induction calls generalizing k
  case nil                => exact .refl k.1
  case cons call calls hi => exact act_advanced call |>.trans <| hi _

theorem act_refused {call : Call} (h : k.1.isOpen = false) (hc : call ≠ .status) :
    ∃ f, (call.act w k).result = .error f := by
  cases call
  case write r => simp [Sink.write, Sink.writeBlock, h, Except.map]
  case status  => contradiction
  case close   => simp [Sink.close, h, Except.map]

-- A sink is never opened again.
theorem act_closed (h : k.1.isOpen = false) (call : Call) :
    (call.act w k).state.1.isOpen = false := by
  have opened := act_advanced (w := w) (k := k) call |>.isOpen
  simpa [h] using opened

theorem steps_refused (h : k.1.isOpen = false) {x : Step σ} (hx : x ∈ steps w calls k) :
    x.call = .status ∨ ∃ f, x.outcome.result = .error f := by
  induction calls generalizing k
  case nil => cases hx
  case cons call calls hi =>
    rcases List.mem_cons.mp hx with rfl | hx
    case inl => exact or_iff_not_imp_left.mpr fun hc => act_refused h hc
    case inr => exact hi (act_closed h call) hx

theorem written_of_closed (h : k.1.isOpen = false) (calls : List Call) : written w calls k = [] := by
  apply List.filterMap_eq_nil_iff.mpr
  intro x hx
  rcases steps_refused h hx with hc | ⟨f, hf⟩
  case inl => exact Step.written?_of_no_record <| by rw [hc]; rfl
  case inr => exact Step.written?_of_error hf

@[simp]
theorem traced_write (text : String) (c : σ × List String) :
    (traced w).write text c = ((w.write text c.1).1, (w.write text c.1).2, c.2 ++ [text]) :=
  rfl

-- A record is kept apart from what has been written before it.
theorem asked_write (ho : k.1.isOpen) (r : Record) :
    asked w (.write r) k =
      if k.1.hasWritten then
        "\n" :: if (w.write "\n" k.2).1.isOk then [block k.1.config r] else []
      else [block k.1.config r] := by
  have hs : asked w (.write r) k =
      (k.1.writeBlock (traced w) (block k.1.config r) (k.2, [])).2.2 := by
    rw [asked, Call.write_state]
    simp only [Sink.write]
    split <;> simp_all
  rw [hs]
  simp only [Sink.writeBlock, ho, if_true]
  split
  case isFalse => rfl
  case isTrue =>
    rcases hw : w.write "\n" k.2 with ⟨⟨_⟩ | ⟨⟩, c⟩ <;>
      simp [Sink.writeBoth, hw, Except.isOk, Except.toBool]

-- One tally has come from another one by adding to the ends of its lists.
structure Tally.Extends (t' t : Tally) : Prop where
  records  : t.records <+: t'.records
  warnings : t.warnings <+: t'.warnings
  failures : t.failures <+: t'.failures

theorem Advanced.extends {s s' : Sink} {xs : List (Step σ)} (h : Advanced s s' xs) :
    s'.tally.Extends s.tally where
  records  := ⟨_, h.records.symm⟩
  warnings := ⟨_, h.warnings.symm⟩
  failures := ⟨_, h.failures.symm⟩

-- A sink that was opened at `k` accounts for its calls.
structure Accounted (c : Config) (w : Writer σ) (calls : List Call) (k : Sink × σ) : Prop where
  status    : (Call.status.act w (after w calls k)).result = .ok (some (after w calls k).1.tally)
  records   : (after w calls k).1.tally.records = (written w calls k).map Record.name
  failures  : (after w calls k).1.tally.failures =
    (failed w calls k).map fun (r, f) => failureNote r f
  total     : (after w calls k).1.tally.records.length + (after w calls k).1.tally.failures.length =
    (calls.filterMap Call.record?).length
  warnings  : (after w calls k).1.tally.warnings =
    (calls.filterMap Call.record?).flatMap (breakNotes c)
  separated : (after w calls k).1.isOpen → ∀ r, asked w (.write r) (after w calls k) =
    if written w calls k = [] then [block c r]
    else "\n" :: if (w.write "\n" (after w calls k).2).1.isOk then [block c r] else []
  grows     : ∀ more, (after w (calls ++ more) k).1.tally.Extends (after w calls k).1.tally
  open_iff  : (after w calls k).1.isOpen ↔ .close ∉ calls

-- Whatever comes of the calls, the tally tells which records were written, which failed and why,
-- and what breaks lines in them, all in the order of the calls.
theorem openSink_accounted {c : FileConfig} {store : Store} {k : Sink × Channel}
    (ho : (c.openSink store).result = .ok k) (log : Log.Config) (w : Writer σ) (x : σ)
    (calls : List Call) : Accounted ⟨c.includeTests⟩ w calls ({ k.1 with log }, x) := by
  obtain ⟨_, _, _, -, rfl⟩ := openSink_ok ho
  set k' : Sink × σ := ({ path := c.filename, config := ⟨c.includeTests⟩, log }, x)
  have h := after_advanced (w := w) calls k'
  have hw : (after w calls k').1.hasWritten ↔ written w calls k' ≠ [] := by
    simpa [k', written, List.eq_nil_iff_forall_not_mem] using h.hasWritten
  refine {
    status := rfl
    records := h.records
    failures := h.failures
    total := ?total
    warnings := h.warnings.trans <| by rw [filterMap_record?_steps]; rfl
    separated := ?separated
    grows := ?grows
    open_iff := by simpa only [map_call_steps, k', true_and] using h.isOpen }
  case total =>
    have ht := Step.length_written_add_length_failed (steps w calls k')
    rw [filterMap_record?_steps] at ht
    simpa [h.records, h.failures, k'] using ht
  case separated =>
    intro ho r
    have hc : (after w calls k').1.config = ⟨c.includeTests⟩ := h.config
    simp only [asked_write ho, hc, hw, ne_eq, ite_not]
  case grows =>
    intro more
    rw [after_append]
    exact after_advanced more _ |>.extends

-- Every second text fails to be written, and the channel can never be flushed.
theorem openSink_accounted_failing :
    let l : Location := ["tmp", "work", "report.txt"]
    let k : Sink × Channel :=
      ({ path := "report.txt", config := {} }, .ofFile (Store.fresh.put l (.file .empty)) l)
    let w : Writer Nat :=
      { write _ n := (if n % 2 = 0 then .ok () else .error .storageFull, n + 1)
        flush n   := (.error .storageFull, n)
        release   := id }
    let k' : Sink × Nat := ({ k.1 with log := .production }, 0)
    let r : Record := { profile := { name := "t", results := ⟨[("row\ncount", .long 1)]⟩ } }
    let calls : List Call := [.write r, .write r, .close, .write r]
    let broken := "t: table metric 'row\\ncount' contains a line break"
    (FileConfig.openSink ⟨"report.txt", true⟩ .fresh).result = .ok k ∧
    Accounted ⟨true⟩ w calls k' ∧
    (after w calls k').1.tally =
      { records  := ["t"]
        warnings := [broken, broken, broken]
        failures := [
          "t: Sink I/O error on 'report.txt': No space left on device (os error 28)",
          "t: Sink I/O error on 'report.txt': file sink is already closed"] } := by
  intro l k w k' r calls broken
  have ho : (FileConfig.openSink ⟨"report.txt", true⟩ .fresh).result = .ok k := rfl
  exact ⟨ho, openSink_accounted ho .production w 0 calls, by decide +kernel⟩

end TableProfiling.Report
