import TableProfiling.Proofs.Report.Accounts

namespace TableProfiling.Report

open Storage (Writer Channel Store Location)

variable {σ α : Type} {w : Writer σ}

-- What is worked on, and how often it has been closed.
def counted (close : Action σ Unit) : Action (σ × Nat) Unit := fun k =>
  let o := close k.1
  { o with state := (o.state, k.2 + 1) }

-- Something that uses a sink: what it asks of the sink next may depend on everything that the sink
-- has answered before.
inductive Body (α : Type)
  | done (result : Except Failure α)
  | ask (call : Call) (next : Except Failure (Option Tally) → Body α)

namespace Body

def act (w : Writer σ) : Body α → Action (Sink × σ) α
  | done result => fun k => ⟨result, [], k⟩
  | ask call next => fun k =>
    let o := call.act w k
    let o' := (next o.result).act w o.state
    { o' with entries := o.entries ++ o'.entries }

-- What a body comes to ask of a sink.
def calls (w : Writer σ) : Body α → Sink × σ → List Call
  | done _, _ => []
  | ask call next, k =>
    let o := call.act w k
    call :: (next o.result).calls w o.state

theorem act_state (body : Body α) (k : Sink × σ) :
    (body.act w k).state = after w (body.calls w k) k := by
  induction body generalizing k
  case done             => rfl
  case ask call next hi => exact hi _ _

end Body

-- What comes of closing what a body has worked on.
structure Closes (close : Action σ Unit) (body : Action σ α) (k : σ) : Prop where
  state     : (Action.closing close body k).state = (close (body k).state).state
  failed    : ∀ {f}, (body k).result = .error f → (Action.closing close body k).result = .error f
  unclosed  : ∀ {x g}, (body k).result = .ok x → (close (body k).state).result = .error g →
    (Action.closing close body k).result = .error g
  succeeded : ∀ {x}, (body k).result = .ok x → (close (body k).state).result = .ok () →
    (Action.closing close body k).result = .ok x

theorem closing_closes (close : Action σ Unit) (body : Action σ α) (k : σ) :
    Closes close body k := by
  constructor
  case state =>
    simp only [Action.closing]
    split <;> rfl
  case failed =>
    intro f hb
    simp only [Action.closing, hb]
    cases (close (body k).state).result <;> rfl
  case unclosed =>
    intro x g hb hc
    simp only [Action.closing, hb, hc]
  case succeeded =>
    intro x hb hc
    simp only [Action.closing, hb, hc]

theorem closing_counted (close : Action σ Unit) (body : Action (σ × Nat) α) (k : σ × Nat) :
    (Action.closing (counted close) body k).state.2 = (body k).state.2 + 1 := by
  rw [(closing_closes (counted close) body k).state]
  rfl

variable {holds kept : String → σ → Prop} {p : String} {c : Config} {rs : List Record}
variable {k : Sink × σ}

-- As long as a channel takes everything, what is written is what comes before the sink is closed.
theorem Gathering.written (F : Faithful w holds kept) (h : Gathering holds p c rs k)
    (calls : List Call) : Report.written w calls k = accepted calls := by
  induction calls generalizing rs k
  case nil => rfl
  case cons call calls hi =>
    have ⟨_, hr⟩ := h.act F call
    rw [written_cons, Step.written?_of_ok hr]
    by_cases hc : call = .close
    case pos =>
      rw [hc, Call.close_state, written_of_closed (h.close F).right.isOpen]
      rfl
    case neg =>
      rw [hi <| h.act_state F hc]
      cases call
      case write r => rfl
      case status  => rfl
      case close   => contradiction

-- A sink that is closed after a body has used it. It is closed already if the body has closed it, so
-- that closing it again fails.
theorem Gathering.closing (F : Faithful w holds kept) (h : Gathering holds p c [] k)
    (body : Body α) :
    let calls := body.calls w k
    let o := Action.closing (Sink.close w) (body.act w) k
    Completed kept p c (Report.written w calls k) o.state ∧
    (.close ∈ calls → ∃ f, o.result = .error f) ∧
    (.close ∉ calls → o.result = (body.act w k).result) := by
  intro calls o
  have closes := closing_closes (Sink.close w) (body.act w) k
  have ⟨gathering, completed⟩ := h.run F calls
  rw [closes.state, body.act_state, h.written F]
  by_cases hc : .close ∈ calls
  case pos =>
    have ⟨hr, hk⟩ := (completed hc).close (w := w)
    refine ⟨by rw [hk]; exact completed hc, fun _ => ?_, absurd hc⟩
    cases hb : (body.act w k).result
    case error f => exact ⟨f, closes.failed hb⟩
    case ok x    => exact ⟨_, closes.unclosed hb <| body.act_state k ▸ hr⟩
  case neg =>
    have ⟨hr, hk⟩ := (gathering hc).close F
    refine ⟨hk, fun h => absurd h hc, fun _ => ?_⟩
    cases hb : (body.act w k).result
    case error f => exact closes.failed hb
    case ok x    => exact closes.succeeded hb <| body.act_state k ▸ hr

theorem Gathering.withLog (h : Gathering holds p c rs k) (log : Log.Config) :
    Gathering holds p c rs ({ k.1 with log }, k.2) :=
  ⟨⟨h.path, h.config, h.records, h.hasWritten⟩, h.isOpen, h.text⟩

-- What is left of a sink of a file that is closed after a body has used it. The sink is given up
-- then.
structure ScopedOnFile (c : FileConfig) (body : Body α) (k : Sink × Channel)
    (o : Outcome (Sink × Channel) α) : Prop where
  file    : (o.state.1.drop Channel.writer o.state.2).2.store.get? k.2.location =
    some (.file (joined ⟨c.includeTests⟩
      (written Channel.writer (body.calls Channel.writer k) k) ++ "\n]").toUTF8)
  misused : .close ∈ body.calls Channel.writer k → ∃ f, o.result = .error f
  passed  : .close ∉ body.calls Channel.writer k →
    o.result = (body.act Channel.writer k).result

-- Whatever a body does with a sink, the sink is closed once when the body is done, and a file has a
-- complete report of what the body has written.
theorem closing_scoped :
    (∀ {σ α : Type} (close : Action σ Unit) (body : Action σ α) (k : σ), Closes close body k) ∧
    (∀ {σ α : Type} (close : Action σ Unit) (body : Action (σ × Nat) α) (k : σ × Nat),
      (Action.closing (counted close) body k).state.2 = (body k).state.2 + 1) ∧
    (∀ {α : Type} {c : FileConfig} {store : Store} {k : Sink × Channel},
      (c.openSink store).result = .ok k → IsFile k.2 → ∀ (log : Log.Config) (body : Body α),
        let k' := ({ k.1 with log }, k.2)
        ScopedOnFile c body k' <|
          Action.closing (Sink.close Channel.writer) (body.act Channel.writer) k') := by
  refine ⟨closing_closes, closing_counted, ?_⟩
  intro α c store k ho hf log body k'
  have h := openSink_gathering ho hf |>.withLog log
  have ⟨completed, misused, passed⟩ := h.closing (faithful_file k.2.location) body
  exact { file := by rw [completed.drop]; exact completed.text, misused, passed }

-- A body that closes the sink on its own, and does not care that writing fails afterwards.
theorem closing_scoped_misused :
    let l : Location := ["tmp", "work", "report.txt"]
    let k : Sink × Channel :=
      ({ path := "report.txt", config := {} }, .ofFile (Store.fresh.put l (.file .empty)) l)
    let r : Record := { profile := { name := "t", results := ⟨[("rowCount", .long 1)]⟩ } }
    let body : Body Unit := .ask (.write r) fun _ => .ask (.write r) fun _ => .ask .close fun _ =>
      .ask (.write r) fun _ => .done (.ok ())
    let o := Action.closing (Sink.close Channel.writer) (body.act Channel.writer) k
    (FileConfig.openSink ⟨"report.txt", true⟩ .fresh).result = .ok k ∧ IsFile k.2 ∧
    (∃ f, o.result = .error f) ∧
    (o.state.1.drop Channel.writer o.state.2).2.store.get? l =
      some (.file (joined ⟨true⟩ [r, r] ++ "\n]").toUTF8) := by
  intro l k r body o
  have ho : (FileConfig.openSink ⟨"report.txt", true⟩ .fresh).result = .ok k := rfl
  have hf : IsFile k.2 := ⟨_, rfl⟩
  have h : ScopedOnFile ⟨"report.txt", true⟩ body k o :=
    closing_scoped.right.right ho hf .balanced body
  have hc : body.calls Channel.writer k = [.write r, .write r, .close, .write r] := rfl
  have hw : written Channel.writer (body.calls Channel.writer k) k = [r, r] := by
    rw [hc]
    exact openSink_gathering ho hf |>.written (faithful_file l) _
  have file := h.file
  rw [hw] at file
  exact ⟨ho, hf, h.misused <| by simp [hc], file⟩

end TableProfiling.Report
