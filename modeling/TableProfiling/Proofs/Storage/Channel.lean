import TableProfiling.Proofs.Outcome
import TableProfiling.Storage.Channel

namespace TableProfiling.Storage

namespace Store

variable {s : Store}

@[simp]
theorem get?_put : (s.put l n).get? l = some n := by
  simp [get?, put]

theorem overwrite_size (content bytes : ByteArray) :
    overwrite content content.size bytes = content ++ bytes := by
  have gap : (⟨Array.replicate (content.size - content.size) 0⟩ : ByteArray) = .empty := by
    rw [Nat.sub_self]
    rfl
  have rest : content.extract (content.size + bytes.size) content.size = .empty := by
    simp
  rw [overwrite, gap, rest]
  simp

theorem writeAt_size (h : s.get? l = some (.file content)) (bytes : ByteArray) :
    ∃ s', s.writeAt l content.size bytes = .ok s' ∧
      s'.get? l = some (.file (content ++ bytes)) := by
  by_cases hb : bytes.isEmpty
  case pos =>
    have : bytes = .empty := by simpa [ByteArray.isEmpty] using hb
    exact ⟨s, by simp [writeAt, hb], by simp [h, this]⟩
  case neg =>
    exact ⟨_, by simp [writeAt, hb, h, overwrite_size]; rfl, get?_put⟩

-- A file that has just been opened is empty.
theorem createFile_empty (h : s.createFile p = .ok (l, s'))
    (hf : s'.get? l = some (.file content)) : content = .empty := by
  simp only [createFile, Outcome.bind_eq_ok_iff] at h
  have ⟨⟨l₀, last⟩, _, h⟩ := h
  cases last
  case none => cases h
  case some name =>
    simp only at h
    split at h
    case isTrue => cases h
    split at h
    case isTrue => cases h
    -- What can be opened is a device, which is not changed, or becomes a file with nothing in it.
    split at h <;> cases h
    all_goals simp_all

end Store

namespace Channel

variable {c : Channel} {l : Location} {s t : String}

-- A file has got some bytes, and the next ones will come behind them.
structure At (l : Location) (content : ByteArray) (c : Channel) : Prop where
  location : c.location = l
  file     : c.store.get? l = some (.file content)
  offset   : c.offset = content.size

-- A text has been written into the file, as far as it is not pending.
def Holds (l : Location) (text : String) (c : Channel) : Prop :=
  ∃ content, At l content c ∧ content ++ c.pending = text.toUTF8

theorem At.writeThrough (h : At l content c) (bytes : ByteArray) :
    ∃ c', c.writeThrough bytes = (.ok (), c') ∧ At l (content ++ bytes) c' ∧
      c'.pending = c.pending := by
  have ⟨store, hw, hf⟩ := Store.writeAt_size h.file bytes
  refine ⟨{ c with store, offset := c.offset + bytes.size }, ?_, ?_, rfl⟩
  · simp [Channel.writeThrough, h.location, h.offset, hw]
  · exact ⟨h.location, hf, by simp [h.offset]⟩

theorem Holds.flush (h : Holds l t c) :
    ∃ c', c.flush = (.ok (), c') ∧ At l t.toUTF8 c' ∧ c'.pending = .empty := by
  have ⟨content, hc, ht⟩ := h
  have ⟨c', hw, hc', _⟩ := hc.writeThrough c.pending
  refine ⟨{ c' with pending := .empty }, ?_, ?_, rfl⟩
  · simp [Channel.flush, hw]
  · exact ⟨hc'.location, ht ▸ hc'.file, ht ▸ hc'.offset⟩

theorem At.holds (h : At l t.toUTF8 c) (hp : c.pending = .empty) : Holds l t c :=
  ⟨_, h, by simp [hp]⟩

-- Too many bytes to be gathered go straight into the file. They must not overtake pending ones.
theorem Holds.gather (h : Holds l t c) (hp : capacity ≤ s.toUTF8.size → c.pending = .empty) :
    ∃ c', c.gather s.toUTF8 = (.ok (), c') ∧ Holds l (t ++ s) c' := by
  have ⟨content, hc, ht⟩ := h
  by_cases hs : s.toUTF8.size < capacity
  case pos =>
    refine ⟨{ c with pending := c.pending ++ s.toUTF8 }, ?_, content, ?_, ?_⟩
    · rw [Channel.gather, if_pos hs]
    · exact ⟨hc.location, hc.file, hc.offset⟩
    · simp [←ByteArray.append_assoc, ht]
  case neg =>
    have hp := hp (Nat.le_of_not_lt hs)
    have ⟨c', hw, hc', hp'⟩ := hc.writeThrough s.toUTF8
    refine ⟨c', by rw [Channel.gather, if_neg hs, hw], _, hc', ?_⟩
    simp_all

theorem Holds.write (h : Holds l t c) :
    ∃ c', c.write s = (.ok (), c') ∧ Holds l (t ++ s) c' := by
  by_cases hs : c.pending.size + s.toUTF8.size ≤ capacity
  case pos =>
    have hp : capacity ≤ s.toUTF8.size → c.pending = .empty := by
      intro hc
      have : c.pending.size = 0 := by omega
      simpa using this
    have ⟨c', hg, hc'⟩ := h.gather hp
    exact ⟨c', by simp only [Channel.write, hs, if_true, hg], hc'⟩
  case neg =>
    have ⟨c₁, hf, h₁, hp⟩ := h.flush
    have ⟨c₂, hg, h₂⟩ := (h₁.holds hp).gather (s := s) (fun _ => hp)
    exact ⟨c₂, by simp only [Channel.write, hs, if_false, hf, hg], h₂⟩

end Channel
end TableProfiling.Storage
