import ChatServer.Conversation.RollingSummary
import ChatServer.Python.OneConversion

/-!
# What a summarisation prompt asks

`SummaryStrategy.__init__` accepts every prompt that is not empty.  `update_context` reads it as
a format, when the window is full, and gives it the rendering of the messages to be summarised.

So a prompt has to be text around one `%s` in which every other `%` is doubled.  A width is no
harm while the rendering is at least as long, nor a precision while it is at most as long.
-/

namespace SummaryStrategy

/-- `str(input_for_summarization)`. -/
def rendering [UnicodeData] (s : SummaryStrategy) : String :=
  Py.strMessages (s.inputForSummarization.map (·.entries))

/-- A text is the prompt, with the rendering in the place of one specifier. -/
def Inserts [UnicodeData] (s : SummaryStrategy) (content : String) : Prop :=
  ∃ before spec conv after, Py.Splits s.summarizationPrompt.toList before spec conv after ∧
    content.toList = before ++ s.rendering.toList ++ after

/-- What is asked of `update_context`: it raises only what the LLM raises, and its request ends
with a user message that is the prompt with the rendering in it. -/
structure Summarises [UnicodeData] (s : SummaryStrategy) : Prop where
  raises : ∀ stream e, s.updateContext stream = .error e → stream.raises = some e
  sends : ∃ request content, s.updateContextBegin = .ok (some request) ∧
    request.fullMessages.getLast? = some (Message.of "user" content) ∧ s.Inserts content

/-- The prompt is text around one `s` conversion that shows all of the rendering and nothing
else. -/
def PromptFits [UnicodeData] (s : SummaryStrategy) : Prop :=
  ∃ before spec after, Py.Splits s.summarizationPrompt.toList before spec 's' after ∧
    spec.width ≤ s.rendering.length ∧ ∀ p ∈ spec.precision, s.rendering.length ≤ p

section

variable [UnicodeData] {s : SummaryStrategy}

/-- A list is rendered in brackets. -/
theorem toList_rendering (s : SummaryStrategy) :
    ∃ mid, s.rendering.toList = '[' :: mid ++ [']'] := by
  rw [rendering, Py.strMessages, String.toList_ofList]
  exact ⟨_, rfl⟩

theorem updateContextBegin_of_full {content : String}
    (hfull : s.windowSize ≤ s.recordsAfterAnchor.length)
    (h : Py.percent s.summarizationPrompt s.rendering = .ok content) :
    ∃ request, s.updateContextBegin = .ok (some request) ∧
      request.fullMessages.getLast? = some (Message.of "user" content) := by
  rw [updateContextBegin, if_pos hfull, llmInput]
  rw [rendering] at h
  rw [h]
  exact ⟨_, rfl, List.getLast?_concat⟩

omit [UnicodeData] in
/-- There is a record to anchor the summary at. -/
theorem getLast?_records_of_full (hfull : s.windowSize ≤ s.recordsAfterAnchor.length) :
    ∃ last, s.records.getLast? = some last := by
  cases hlast : s.records.getLast? with
  | some last => exact ⟨last, rfl⟩
  | none =>
      have hnil : s.records = [] := List.getLast?_eq_none_iff.mp hlast
      have hle := s.recordsAfterAnchor_suffix.length_le
      rw [hnil, List.length_nil] at hle
      have hpos := s.windowSize_pos
      omega

/-- **A summarisation is asked for what it should be** exactly if the prompt fits. -/
theorem summarises_iff (hfull : s.windowSize ≤ s.recordsAfterAnchor.length) :
    s.Summarises ↔ s.PromptFits := by
  obtain ⟨mid, hmid⟩ := s.toList_rendering
  constructor
  · intro h
    obtain ⟨request, content, hrequest, hcontent, before, spec, conv, after, hsplits, hinserts⟩ :=
      h.sends
    obtain ⟨content', hpercent, hcontent'⟩ := sent_of_updateContextBegin hrequest
    have hmessage : Message.of "user" content = Message.of "user" content' :=
      Option.some.inj (hcontent.symm.trans hcontent')
    obtain rfl : content = content' := by
      have hget := congrArg (·.get? "content") hmessage
      rw [Message.get?_content_of, Message.get?_content_of] at hget
      exact Option.some.inj hget
    obtain ⟨before', spec', conv', after', shown, hsplits', hshown, hcontent''⟩ :=
      Py.percent_eq_ok.mp hpercent
    obtain ⟨rfl, rfl, rfl, rfl⟩ := hsplits.unique hsplits'
    obtain rfl : shown = s.rendering.toList := by
      rw [hcontent'', String.toList_ofList] at hinserts
      exact List.append_cancel_left (List.append_cancel_right hinserts)
    obtain ⟨rfl, hwidth, hprecision⟩ := (Py.convertStr_eq_self_iff hmid).mp hshown
    exact ⟨before, spec, after, hsplits, hwidth, hprecision⟩
  · rintro ⟨before, spec, after, hsplits, hwidth, hprecision⟩
    have hshown := (Py.convertStr_eq_self_iff hmid).mpr ⟨rfl, hwidth, hprecision⟩
    have hpercent : Py.percent s.summarizationPrompt s.rendering =
        .ok (String.ofList (before ++ s.rendering.toList ++ after)) :=
      Py.percent_eq_ok.mpr ⟨before, spec, 's', after, _, hsplits, hshown, rfl⟩
    obtain ⟨request, hrequest, hlast⟩ := updateContextBegin_of_full hfull hpercent
    constructor
    · intro stream e herror
      rw [updateContext, hrequest] at herror
      cases hraises : stream.raises with
      | some e' =>
          rw [hraises] at herror
          cases herror
          rfl
      | none =>
          obtain ⟨last, hlast⟩ := getLast?_records_of_full hfull
          rw [hraises] at herror
          simp only [updateContextEnd, hlast] at herror
          cases herror
    · refine ⟨request, _, hrequest, hlast, before, spec, 's', after, hsplits, ?_⟩
      rw [String.toList_ofList]

end

/-- A strategy with one question, whose window is full. -/
def sampleFull (prompt : String) (h : prompt ≠ "") : SummaryStrategy :=
  ⟨⟨.port "summariser", .sample, [⟨.ofNat 1, none, Message.of "user" "hi"⟩]⟩, 1, prompt, ⟨"", none⟩,
    Nat.succ_pos 0, h⟩

/-- A `%s` after some text, and the text of a percentage. -/
theorem summarises_sampleFull :
    @Summarises .asciiOnly (sampleFull "Summarise to 10%%: %s" (by decide)) := by
  refine (@summarises_iff .asciiOnly (sampleFull _ _) (by decide)).mpr ?_
  refine ⟨"Summarise to 10%: ".toList, {}, [], ⟨['s'], by decide, rfl⟩, Nat.zero_le _, ?_⟩
  intro p hp
  cases hp

/-- A prompt without a conversion is accepted, and raises when the window is full. -/
theorem not_summarises :
    @updateContextBegin .asciiOnly (sampleFull "Summarize this." (by decide)) =
        .error (.typeError "not all arguments converted during string formatting") ∧
      ¬ @Summarises .asciiOnly (sampleFull "Summarize this." (by decide)) := by
  have herror : @updateContextBegin .asciiOnly (sampleFull "Summarize this." (by decide)) =
      .error (.typeError "not all arguments converted during string formatting") := by decide
  refine ⟨herror, ?_⟩
  rintro ⟨-, request, content, hrequest, -⟩
  cases herror.symm.trans hrequest

end SummaryStrategy
