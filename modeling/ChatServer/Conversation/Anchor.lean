import ChatServer.Domain.ContextStrategy

/-!
# Where the anchor of a summary stands

A summary strategy remembers how far its summary reaches by the identifier of a
record, and searches for it whenever it needs the records since.
`SummaryStrategy.AnchoredAt` turns that into a position: the summary covers the
first `pos` records.  As long as identifiers are distinct the search and the
position agree (`recordsAfterAnchor_eq_drop`), appending keeps the position and
a summarisation moves it to the end.
-/

namespace SummaryStrategy

/-- The summary reaches up to a position in the records: to the start, when its
anchor is no record's identifier, or to just after the record it names. -/
inductive AnchoredAt (s : SummaryStrategy) : ℕ → Prop where
  | start (h : ∀ r ∈ s.records, s.summary.anchorId ≠ some r.id) : AnchoredAt s 0
  | after (covered : List MessageRecord) (last : MessageRecord) (rest : List MessageRecord)
      (hrecords : s.records = covered ++ last :: rest)
      (hanchor : s.summary.anchorId = some last.id) : AnchoredAt s (covered.length + 1)

/-- The identifiers of the records. -/
def ids (records : List MessageRecord) : List UUID := records.map (·.id)

@[simp] theorem ids_append (l l' : List MessageRecord) : ids (l ++ l') = ids l ++ ids l' :=
  List.map_append

/-- The search stops at the first record with the anchor's identifier. -/
theorem recordsAfterAnchor_eq_rest {s : SummaryStrategy} {covered rest : List MessageRecord}
    {last : MessageRecord} (hrecords : s.records = covered ++ last :: rest)
    (hne : ∀ r ∈ covered, r.id ≠ last.id) (hanchor : s.summary.anchorId = some last.id) :
    s.recordsAfterAnchor = rest := by
  have hidx : (s.records.findIdx? fun r ↦ r.id = last.id) = some covered.length := by
    rw [hrecords, List.findIdx?_append, List.findIdx?_eq_none_iff.mpr fun r hr ↦
      decide_eq_false (hne r hr)]
    simp [List.findIdx?_cons]
  rw [recordsAfterAnchor, hanchor]
  simp only [hidx]
  rw [hrecords, List.drop_length_add_append]
  rfl

/-- Without a record of the anchor's identifier the search takes all of them. -/
theorem recordsAfterAnchor_eq_records {s : SummaryStrategy}
    (h : ∀ r ∈ s.records, s.summary.anchorId ≠ some r.id) : s.recordsAfterAnchor = s.records := by
  unfold recordsAfterAnchor
  split
  · rfl
  · rename_i anchor ha
    have hnone : (s.records.findIdx? fun r ↦ r.id = anchor) = none := by
      refine List.findIdx?_eq_none_iff.mpr fun r hr ↦ decide_eq_false ?_
      rintro rfl
      exact h r hr ha
    rw [hnone]

/-- Searching for the anchor finds the position. -/
theorem recordsAfterAnchor_eq_drop {s : SummaryStrategy} {pos : ℕ} (h : s.AnchoredAt pos)
    (hnodup : (ids s.records).Nodup) : s.recordsAfterAnchor = s.records.drop pos := by
  cases h with
  | start h => exact recordsAfterAnchor_eq_records h
  | after covered last rest hrecords hanchor =>
      have hne : ∀ r ∈ covered, r.id ≠ last.id := by
        intro r hr he
        rw [hrecords, ids_append, ids, ids, List.map_cons] at hnodup
        exact List.disjoint_of_nodup_append hnodup (List.mem_map_of_mem hr)
          (he ▸ List.mem_cons_self)
      rw [recordsAfterAnchor_eq_rest hrecords hne hanchor, hrecords, List.drop_length_add_append]
      rfl

/-- When some record has the anchor's identifier, the records split at the first
one that does. -/
theorem exists_split_of_mem {s : SummaryStrategy} {a : UUID} (ha : s.summary.anchorId = some a)
    (hmem : a ∈ ids s.records) :
    ∃ covered last rest, s.records = covered ++ last :: rest ∧ last.id = a ∧
      (∀ r ∈ covered, r.id ≠ a) ∧ s.recordsAfterAnchor = rest := by
  obtain ⟨as, bs, hsplit, hnot⟩ := List.eq_append_cons_of_mem hmem
  obtain ⟨covered, l, hrecords, rfl, hl⟩ := List.map_eq_append_iff.mp hsplit
  obtain ⟨last, rest, rfl, rfl, rfl⟩ := List.map_eq_cons_iff.mp hl
  have hne : ∀ r ∈ covered, r.id ≠ last.id := fun r hr he ↦ hnot (he ▸ List.mem_map_of_mem hr)
  exact ⟨covered, last, rest, hrecords, rfl, hne, recordsAfterAnchor_eq_rest hrecords hne ha⟩

/-- The anchor always stands somewhere. -/
theorem exists_anchoredAt (s : SummaryStrategy) : ∃ pos, s.AnchoredAt pos := by
  by_cases h : ∃ r ∈ s.records, s.summary.anchorId = some r.id
  · obtain ⟨r, hr, ha⟩ := h
    obtain ⟨covered, last, rest, hrecords, hlast, -, -⟩ :=
      exists_split_of_mem ha (List.mem_map_of_mem hr)
    exact ⟨_, .after covered last rest hrecords (hlast ▸ ha)⟩
  · exact ⟨0, .start fun r hr ha ↦ h ⟨r, hr, ha⟩⟩

/-- The records after the anchor are the last ones. -/
theorem recordsAfterAnchor_suffix (s : SummaryStrategy) : s.recordsAfterAnchor <:+ s.records := by
  unfold recordsAfterAnchor
  split
  · exact List.suffix_rfl
  · split
    · exact List.drop_suffix _ _
    · exact List.suffix_rfl

/-- Appending a record with a new identifier keeps the position. -/
theorem AnchoredAt.append {s s' : SummaryStrategy} {pos : ℕ} (h : s.AnchoredAt pos)
    {r : MessageRecord} (hrecords' : s'.records = s.records ++ [r])
    (hsummary : s'.summary = s.summary) (hr : s.summary.anchorId ≠ some r.id) :
    s'.AnchoredAt pos := by
  cases h with
  | start h =>
      refine .start fun q hq ↦ ?_
      rw [hrecords'] at hq
      rw [hsummary]
      rcases List.mem_append.mp hq with hq | hq
      · exact h q hq
      · rw [List.mem_singleton.mp hq]
        exact hr
  | after covered last rest hrecords hanchor =>
      refine .after covered last (rest ++ [r]) ?_ (hsummary ▸ hanchor)
      rw [hrecords', hrecords, List.append_assoc]
      rfl

/-- Storing a summary moves the position to the end, and fails only on an empty
history. -/
theorem updateContextEnd_ok {s s' : SummaryStrategy} {text : String}
    (h : s.updateContextEnd text = .ok s') :
    ∃ init last, s.records = init ++ [last] ∧
      s' = { s with summary := ⟨text, some last.id⟩ } := by
  unfold updateContextEnd at h
  split at h
  · rename_i last hlast
    cases h
    obtain ⟨init, hinit⟩ := List.getLast?_eq_some_iff.mp hlast
    exact ⟨init, last, hinit, rfl⟩
  · cases h

theorem AnchoredAt.of_updateContextEnd {s s' : SummaryStrategy} {text : String}
    (h : s.updateContextEnd text = .ok s') : s'.AnchoredAt s'.records.length := by
  obtain ⟨init, last, hrecords, rfl⟩ := updateContextEnd_ok h
  have hafter : AnchoredAt { s with summary := ⟨text, some last.id⟩ } (init.length + 1) :=
    .after init last [] hrecords rfl
  simpa [hrecords] using hafter

/-- `update_context` asks its LLM exactly about a full window. -/
theorem lt_windowSize_of_skip [UnicodeData] {s : SummaryStrategy}
    (h : s.updateContextBegin = .ok none) : s.recordsAfterAnchor.length < s.windowSize := by
  by_contra hlen
  rw [updateContextBegin, if_pos (Nat.le_of_not_lt hlen)] at h
  obtain ⟨messages, -, h⟩ := Py.bind_eq_ok.mp h
  cases h

theorem windowSize_le_of_call [UnicodeData] {s : SummaryStrategy} {request : LlmRequest}
    (h : s.updateContextBegin = .ok (some request)) :
    s.windowSize ≤ s.recordsAfterAnchor.length := by
  unfold updateContextBegin at h
  split at h
  · rename_i hw
    exact hw
  · cases h

/-- A summary as a message, if it says anything. -/
def lead (text : String) : List Message :=
  if text ≠ "" then [Message.of "user" text] else []

/-- The context without an anchor, and with one. -/
theorem getContext_eq (s : SummaryStrategy) :
    s.getContext = match s.summary.anchorId with
      | none => s.records.map (·.message)
      | some _ => lead s.summary.text ++ s.recordsAfterAnchor.map (·.message) := by
  rw [getContext, lead]
  cases s.summary.anchorId with
  | none => rfl
  | some anchor => simp only; split <;> rfl

end SummaryStrategy
