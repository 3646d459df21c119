import TableProfiling.Log.Config

namespace TableProfiling.Log

variable {messages : List String} {message : String} {fields : List (String × String)}

def Entry.message? : Entry → Option String
  | .event _ message _ => some message
  | .span .. => none

-- The events with one of some messages, in the order of the log.
def picked (messages : List String) (es : List Entry) : List Entry :=
  es.filter (·.message?.any (· ∈ messages))

@[simp]
theorem picked_nil : picked messages [] = [] :=
  rfl

@[simp]
theorem picked_append (es₁ es₂ : List Entry) :
    picked messages (es₁ ++ es₂) = picked messages es₁ ++ picked messages es₂ :=
  List.filter_append ..

@[simp]
theorem picked_flatMap (xs : List α) (f : α → List Entry) :
    picked messages (xs.flatMap f) = xs.flatMap fun x => picked messages (f x) :=
  List.filter_flatMap

@[simp]
theorem picked_event (es : List Entry) : picked messages (.event level message fields :: es) =
    if message ∈ messages then .event level message fields :: picked messages es
    else picked messages es := by
  simp [picked, List.filter_cons, Entry.message?]

@[simp]
theorem picked_span (es : List Entry) :
    picked messages (.span level name fields :: es) = picked messages es :=
  rfl

theorem picked_partition (c : Config) (fields : List (String × String)) :
    picked messages (c.partition message fields) =
      if message ∈ messages then c.partition message fields else [] := by
  simp only [Config.partition]
  split <;> simp

theorem picked_sinkWrite (c : Config) (fields : List (String × String)) :
    picked messages (c.sinkWrite message fields) =
      if message ∈ messages then c.sinkWrite message fields else [] := by
  simp only [Config.sinkWrite]
  split <;> simp

end TableProfiling.Log
