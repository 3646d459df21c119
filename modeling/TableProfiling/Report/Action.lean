import TableProfiling.Failure
import TableProfiling.Log.Entry

namespace TableProfiling.Report

-- What an action comes to. One that fails keeps the state and the entries that it has come to.
structure Outcome (σ : Type) (α : Type) where
  result : Except Failure α
  entries : List Log.Entry
  state : σ

def Action (σ : Type) (α : Type) :=
  σ → Outcome σ α

namespace Action

def pure (x : α) : Action σ α :=
  fun s => ⟨.ok x, [], s⟩

def fail (f : Failure) : Action σ α :=
  fun s => ⟨.error f, [], s⟩

-- The state, as an action finds it.
def get : Action σ σ :=
  fun s => ⟨.ok s, [], s⟩

-- One action after another one, unless that fails.
def bind (a : Action σ α) (f : α → Action σ β) : Action σ β :=
  fun s =>
    let o := a s
    match o.result with
    | .ok x =>
      let o' := f x o.state
      { o' with entries := o.entries ++ o'.entries }
    | .error e => ⟨.error e, o.entries, o.state⟩

instance : Monad (Action σ) where
  pure := pure
  bind := bind

-- Runs an action and then, whatever came of it, closes what it worked on. The action's failure
-- counts more than that of the closing, which is only logged beside it.
def closing (close : Action σ Unit) (body : Action σ α) : Action σ α :=
  fun s =>
    let b := body s
    let c := close b.state
    let entries := b.entries ++ c.entries
    match b.result, c.result with
    | .ok x, .ok () => ⟨.ok x, entries, c.state⟩
    | .ok _, .error g => ⟨.error g, entries, c.state⟩
    | .error f, .ok () => ⟨.error f, entries, c.state⟩
    | .error f, .error g =>
      let entry := .event .warn "Failed to close sink after an aborted run" [("error", g.text)]
      ⟨.error f, entries ++ [entry], c.state⟩

end TableProfiling.Report.Action
