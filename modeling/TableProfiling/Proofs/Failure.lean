import Mathlib.Algebra.Ring.Nat
import Mathlib.Data.List.Induction
import TableProfiling.Failure
import TableProfiling.Proofs.Text.Occurrences

namespace TableProfiling.Failure

variable {α : Type} {m : Type → Type v}

-- The text that a failure comes down to. An internal one comes down to its message, which does not
-- say that it is internal.
inductive Base : Failure → String → Prop
  | internal : Base (.internal message) message
  | other (h : ∀ message, f ≠ .internal message) : Base f f.text

theorem base_iff : Base f s ↔ s = f.cause := by
  constructor
  case mp =>
    intro h
    cases h
    case internal => rfl
    case other h  =>
      cases f
      case internal message => exact absurd rfl <| h message
      all_goals rfl
  case mpr =>
    rintro rfl
    cases f
    case internal => exact .internal
    all_goals exact .other nofun

-- A context: a text, or what gives one when it is asked for it, be it with an effect.
inductive Context (m : Type → Type v)
  | given (message : String)
  | asked (message : m String)

def Context.message [Monad m] : Context m → m String
  | given message => pure message
  | asked message => message

-- Puts contexts before the failure of a result, one after the other.
def inContextsM [Monad m] (contexts : List (Context m)) (r : Except Failure α) :
    m (Except Failure α) :=
  contexts.foldlM (fun r c => inContextM c.message r) r

def inContexts (contexts : List (Unit → String)) (r : Except Failure α) : Except Failure α :=
  contexts.foldl (fun r c => inContext c r) r

-- A failure within some contexts, one after the other.
def nested (messages : List String) (f : Failure) : Failure :=
  messages.foldl (fun g message => g.within message) f

-- The messages of some contexts, the last one first, and then what they are the contexts of.
def sentence (messages : List String) (base : String) : String :=
  ": ".intercalate (messages.reverse ++ [base])

-- How often a text says that a failure is internal.
def labels (s : String) : Nat :=
  occurrences "Internal error: ".toList s.toList

@[simp]
theorem sentence_nil (base : String) : sentence [] base = base := by
  simp [sentence]

theorem sentence_concat (messages : List String) (message base : String) :
    sentence (messages ++ [message]) base = message ++ ": " ++ sentence messages base := by
  rw [sentence, List.reverse_concat, List.cons_append, String.intercalate_cons_of_ne_nil (by simp)]
  rfl

theorem infix_sentence (h : s ∈ base :: messages) :
    s.toList <:+: (sentence messages base).toList := by
  induction messages using List.reverseRecOn
  case nil => rw [List.mem_singleton.mp h, sentence_nil]
  case append_singleton messages message hi =>
    rw [sentence_concat, String.toList_append]
    rcases List.mem_append.mp (List.cons_append ▸ h) with h | h
    case inl => exact (hi h).trans <| List.suffix_append .. |>.isInfix
    case inr =>
      rw [List.mem_singleton.mp h, String.toList_append, List.append_assoc]
      exact List.prefix_append .. |>.isInfix

-- The only colon of a label is at its end, so that no label goes beyond the colon after a message.
theorem labels_separated (s t : String) : labels (s ++ ": " ++ t) = labels (s ++ ": ") + labels t := by
  have label : "Internal error: ".toList = 'I' :: "nternal error".toList ++ ':' :: [' '] := rfl
  have separator : ": ".toList = ':' :: [' '] := rfl
  simp only [labels, String.toList_append, label, separator]
  exact occurrences_separated (by decide) (by decide) (by decide) s.toList t.toList

theorem labels_sentence (messages : List String) (base : String) :
    labels (sentence messages base) =
      (messages.map fun s => labels (s ++ ": ")).sum + labels base := by
  induction messages using List.reverseRecOn
  case nil => simp
  case append_singleton messages message hi =>
    rw [sentence_concat, labels_separated, hi, List.map_append, List.sum_append, List.map_singleton,
      List.sum_singleton]
    omega

theorem labels_internal (message : String) : labels (internal message).text = 1 + labels message := by
  have one : labels ("Internal error" ++ ": ") = 1 := by decide
  rw [←one, ←labels_separated]
  rfl

theorem nested_cons : nested (message :: messages) f = nested messages (f.within message) :=
  rfl

theorem nested_concat : nested (messages ++ [message]) f = (nested messages f).within message :=
  List.foldl_concat ..

-- A context is put before what the failure has come down to until then.
theorem cause_nested (messages : List String) (f : Failure) :
    (nested messages f).cause = sentence messages f.cause := by
  induction messages using List.reverseRecOn
  case nil => rw [sentence_nil, nested, List.foldl_nil]
  case append_singleton messages message hi =>
    rw [nested_concat, sentence_concat, ←hi]
    rfl

theorem nested_eq_internal (h : messages ≠ []) (f : Failure) :
    nested messages f = .internal (sentence messages f.cause) := by
  obtain ⟨messages, message, rfl⟩ := List.eq_nil_or_concat' _ |>.resolve_left h
  rw [nested_concat, sentence_concat, ←cause_nested]
  rfl

theorem inContexts_ok (contexts : List (Unit → String)) (x : α) :
    inContexts contexts (.ok x) = .ok x := by
  induction contexts
  case nil         => rfl
  case cons _ _ hi => exact hi

theorem inContexts_error (contexts : List (Unit → String)) (f : Failure) :
    inContexts contexts (.error f : Except Failure α) =
      .error (nested (contexts.map (· ())) f) := by
  induction contexts generalizing f
  case nil         => rfl
  case cons c _ hi => exact hi <| f.within <| c ()

section

variable [Monad m]

theorem inContextsM_cons (c : Context m) (contexts : List (Context m)) (r : Except Failure α) :
    inContextsM (c :: contexts) r = inContextM c.message r >>= inContextsM contexts :=
  List.foldlM_cons

variable [LawfulMonad m]

theorem inContextsM_ok (contexts : List (Context m)) (x : α) :
    inContextsM contexts (.ok x) = pure (.ok x) := by
  induction contexts
  case nil                => rfl
  case cons c contexts hi => rw [inContextsM_cons, inContextM, pure_bind, hi]

-- The contexts are asked for their messages in order, each of them once.
theorem inContextsM_error (contexts : List (Context m)) (f : Failure) :
    inContextsM contexts (.error f : Except Failure α) = do
      let messages ← contexts.mapM Context.message
      return .error (nested messages f) := by
  induction contexts generalizing f
  case nil => simp [inContextsM, nested]
  case cons c contexts hi =>
    rw [inContextsM_cons, inContextM, List.mapM_cons]
    simp only [bind_assoc, pure_bind, hi, nested_cons]

-- A failure in contexts reads as their messages, the last one first, before the text that it comes
-- down to, and none of these is lost. It says once that it is internal, and otherwise only where its
-- parts say so. The contexts are asked for their messages in order, and only if there is a failure.
theorem contexts_flattened (f : Failure) :
    (∃ base, (∀ s, Base f s ↔ s = base) ∧
      (∀ contexts : List (Context m), contexts ≠ [] →
        inContextsM contexts (.error f : Except Failure α) = do
          let messages ← contexts.mapM Context.message
          return .error (.internal (sentence messages base))) ∧
      (∀ contexts : List (Unit → String), contexts ≠ [] →
        inContexts contexts (.error f : Except Failure α) =
          .error (.internal (sentence (contexts.map (· ())) base))) ∧
      ∀ messages,
        let text := (internal (sentence messages base)).text
        text = "Internal error: " ++ sentence messages base ∧
        (∀ s ∈ base :: messages, s.toList <:+: text.toList) ∧
        labels text = 1 + (messages.map fun s => labels (s ++ ": ")).sum + labels base) ∧
    (∀ (contexts : List (Context m)) (x : α), inContextsM contexts (.ok x) = pure (.ok x)) ∧
    ∀ (contexts : List (Unit → String)) (x : α), inContexts contexts (.ok x) = .ok x := by
  refine ⟨⟨f.cause, fun _ => base_iff, ?effects, ?pure, ?text⟩, inContextsM_ok, inContexts_ok⟩
  case effects =>
    intro contexts h
    obtain ⟨c, contexts, rfl⟩ := List.exists_cons_of_ne_nil h
    rw [inContextsM_error, List.mapM_cons]
    simp only [bind_assoc, pure_bind, nested_eq_internal (List.cons_ne_nil _ _)]
  case pure =>
    intro contexts h
    rw [inContexts_error, nested_eq_internal (by simpa using h)]
  case text =>
    intro messages text
    refine ⟨rfl, fun s hs => ?_, ?_⟩
    · exact (infix_sentence hs).trans <| String.toList_append ▸ List.suffix_append .. |>.isInfix
    · rw [labels_internal, labels_sentence, Nat.add_assoc]

end

-- The second context counts how often it is asked for its message.
theorem contexts_flattened_counted :
    let contexts : List (Context (StateM Nat)) :=
      [.given "While rendering", .asked do modify (· + 1); return "Run"]
    let f : Failure := .storage "/tmp/out.txt" (.other "denied")
    contexts ≠ [] ∧
    (inContextsM contexts (.error f : Except Failure Unit)).run 0 =
      (.error (.internal
        "Run: While rendering: Sink I/O error on '/tmp/out.txt': denied"), 1) ∧
    (inContextsM contexts (.ok () : Except Failure Unit)).run 0 = (.ok (), 0) := by
  intro contexts f
  have h : contexts ≠ [] := List.cons_ne_nil _ _
  obtain ⟨⟨base, determined, failed, _⟩, succeeded, _⟩ :=
    contexts_flattened (α := Unit) (m := StateM Nat) f
  obtain rfl : f.text = base := (determined _).mp <| .other nofun
  refine ⟨h, ?_, ?_⟩
  · rw [failed contexts h]
    rfl
  · rw [succeeded]
    rfl

end TableProfiling.Failure
