import ChatServer.Python.Format

/-!
# Formats with one conversion

A single text on the right of `%` has to be consumed by exactly one conversion.  So a format
that succeeds has one specifier, and around it text in which every `%` is doubled; the result
is the text, with what the specifier makes of the operand in its place (`Py.percent_eq_ok`).
There is only one way to cut a format like that (`Py.Splits.unique`).
-/

namespace Py

/-! ## Text in a format -/

/-- A text as it stands in a format: every `%` twice. -/
def doubled (s : List Char) : List Char := s.flatMap fun c ↦ if c = '%' then ['%', '%'] else [c]

@[simp] theorem doubled_nil : doubled [] = [] := rfl

@[simp] theorem doubled_percent (s : List Char) : doubled ('%' :: s) = '%' :: '%' :: doubled s :=
  rfl

theorem doubled_cons {c : Char} (hc : c ≠ '%') (s : List Char) :
    doubled (c :: s) = c :: doubled s := by
  rw [doubled, List.flatMap_cons, if_neg hc]
  rfl

theorem nil_eq_doubled {s : List Char} : [] = doubled s ↔ s = [] := by
  constructor
  · intro h
    cases s with
    | nil => rfl
    | cons c s =>
        by_cases hc : c = '%'
        · subst hc
          cases h
        · rw [doubled_cons hc] at h
          cases h
  · rintro rfl
    rfl

theorem percent_cons_eq_doubled {cs s : List Char} :
    '%' :: cs = doubled s ↔ ∃ s', cs = '%' :: doubled s' ∧ s = '%' :: s' := by
  constructor
  · intro h
    cases s with
    | nil => cases h
    | cons c s =>
        by_cases hc : c = '%'
        · subst hc
          cases h
          exact ⟨s, rfl, rfl⟩
        · rw [doubled_cons hc] at h
          cases h
          exact absurd rfl hc
  · rintro ⟨s', rfl, rfl⟩
    rfl

theorem cons_eq_doubled {c : Char} (hc : c ≠ '%') {cs s : List Char} :
    c :: cs = doubled s ↔ ∃ s', cs = doubled s' ∧ s = c :: s' := by
  constructor
  · intro h
    cases s with
    | nil => cases h
    | cons d s =>
        by_cases hd : d = '%'
        · subst hd
          cases h
          exact absurd rfl hc
        · rw [doubled_cons hd] at h
          cases h
          exact ⟨s, rfl, rfl⟩
  · rintro ⟨s', rfl, rfl⟩
    exact (doubled_cons hc s').symm

/-! ## A specifier -/

/-- What a specifier has collected, its conversion, and what follows it. -/
def FormatMode.specifier : FormatMode → List Char → Option ((FormatSpec × Char) × List Char)
  | _, [] => none
  | mode, c :: cs =>
      match mode.read c with
      | .more mode => mode.specifier cs
      | .convert spec conv => some ((spec, conv), cs)
      | _ => none

/-- In a specifier, past its first character. -/
def FormatMode.Inside : FormatMode → Prop
  | .text | .start => False
  | _ => True

theorem FormatMode.Inside.ne_text {mode : FormatMode} (h : mode.Inside) : mode ≠ .text := by
  rintro rfl
  exact h

theorem inside_of_flagStep {spec : FormatSpec} {c : Char} {mode : FormatMode}
    (h : flagStep spec c = .more mode) : mode.Inside := by
  simp only [flagStep, widthStep, precisionStep, lengthStep] at h
  repeat' split at h
  all_goals cases h
  all_goals trivial

theorem inside_of_precisionDigits {spec : FormatSpec} {p : ℕ} {c : Char} {mode : FormatMode}
    (h : precisionDigits spec p c = .more mode) : mode.Inside := by
  simp only [precisionDigits, lengthStep] at h
  repeat' split at h
  all_goals cases h
  all_goals trivial

theorem inside_of_read {mode mode' : FormatMode} {c : Char} (hmode : mode ≠ .text)
    (h : mode.read c = .more mode') : mode'.Inside := by
  cases mode with
  | text => exact absurd rfl hmode
  | start =>
      simp only [FormatMode.read] at h
      split at h
      · cases h
      · split at h
        · cases h
        · exact inside_of_flagStep h
  | flags spec => exact inside_of_flagStep h
  | width spec =>
      simp only [FormatMode.read, widthStep, precisionStep, lengthStep] at h
      repeat' split at h
      all_goals cases h
      all_goals trivial
  | dot spec =>
      simp only [FormatMode.read] at h
      split at h
      · cases h
      · exact inside_of_precisionDigits h
  | precision spec p => exact inside_of_precisionDigits h
  | conversion spec => cases h

theorem ne_percent_of_flagStep {spec : FormatSpec} {c : Char} : flagStep spec c ≠ .percent := by
  intro h
  simp only [flagStep, widthStep, precisionStep, lengthStep] at h
  repeat' split at h
  all_goals cases h

theorem ne_percent_of_precisionDigits {spec : FormatSpec} {p : ℕ} {c : Char} :
    precisionDigits spec p c ≠ .percent := by
  intro h
  simp only [precisionDigits, lengthStep] at h
  repeat' split at h
  all_goals cases h

/-- Only right after a `%` does another one stand for itself. -/
theorem read_ne_percent {mode : FormatMode} (hmode : mode.Inside) (c : Char) :
    mode.read c ≠ .percent := by
  cases mode with
  | text | start => cases hmode
  | flags spec => exact ne_percent_of_flagStep
  | width spec =>
      intro h
      simp only [FormatMode.read, widthStep, precisionStep, lengthStep] at h
      repeat' split at h
      all_goals cases h
  | dot spec =>
      intro h
      simp only [FormatMode.read] at h
      split at h
      · cases h
      · exact ne_percent_of_precisionDigits h
  | precision spec p => exact ne_percent_of_precisionDigits
  | conversion spec =>
      intro h
      cases h

theorem read_start_ne_percent {c : Char} (hc : c ≠ '%') :
    FormatMode.start.read c ≠ .percent := by
  simp only [FormatMode.read, if_neg hc]
  split
  · intro h
    cases h
  · exact ne_percent_of_flagStep

/-- A specifier does not begin with a second `%`. -/
theorem specifier_percent (cs : List Char) : FormatMode.start.specifier ('%' :: cs) = none := rfl

/-! ## The steps of the automaton -/

section

variable [UnicodeData] {arg : List Char} {mode : FormatMode} {used : Bool} {i : ℕ} {c : Char}
  {cs out : List Char}

theorem percentFrom_text_cons (hc : c ≠ '%') :
    percentFrom arg .text used i (c :: cs) =
      (percentFrom arg .text used (i + 1) cs).map (c :: ·) := by
  rw [percentFrom, if_neg hc]

/-- **One step** inside a specifier that leads to a result. -/
theorem percentFrom_cons_eq_ok (hmode : mode ≠ .text) :
    percentFrom arg mode used i (c :: cs) = .ok out ↔
      (∃ mode', mode.read c = .more mode' ∧ percentFrom arg mode' used (i + 1) cs = .ok out) ∨
      (mode.read c = .percent ∧
        ∃ rest, percentFrom arg .text used (i + 1) cs = .ok rest ∧ out = '%' :: rest) ∨
      (used = false ∧ ∃ spec conv shown rest, mode.read c = .convert spec conv ∧
        convertStr arg spec conv i = .ok shown ∧
        percentFrom arg .text true (i + 1) cs = .ok rest ∧ out = shown ++ rest) := by
  rw [percentFrom.eq_4 _ _ _ _ _ _ hmode]
  cases hread : mode.read c with
  | more mode' => simp
  | percent => simp [map_eq_ok]
  | star => cases used <;> simp
  | fail e => simp
  | convert spec conv =>
      cases used with
      | true => simp
      | false =>
          cases hconvert : convertStr arg spec conv i with
          | error e => simp [hconvert]
          | ok shown => simp [hconvert, map_eq_ok]

theorem percentFrom_nil_ne_ok (hmode : mode ≠ .text) :
    percentFrom arg mode used i [] ≠ .ok out := by
  rw [percentFrom.eq_3 _ _ _ _ hmode]
  intro h
  cases h

omit [UnicodeData] in
theorem start_ne_text : FormatMode.start ≠ .text := by
  intro h
  cases h

/-! ## After the operand has been consumed -/

/-- A further specifier finds nothing to consume. -/
theorem percentFrom_inside_used (hmode : mode.Inside) :
    percentFrom arg mode true i cs ≠ .ok out := by
  induction cs generalizing mode i with
  | nil => exact percentFrom_nil_ne_ok hmode.ne_text
  | cons c cs ih =>
      intro h
      rcases (percentFrom_cons_eq_ok hmode.ne_text).mp h with
        ⟨mode', hread, hrest⟩ | ⟨hread, -⟩ | ⟨hused, -⟩
      · exact ih (inside_of_read hmode.ne_text hread) hrest
      · exact read_ne_percent hmode c hread
      · cases hused

/-- What follows has to be text; right after a `%` it has to be a second one, and text. -/
theorem percentFrom_used (cs : List Char) :
    (∀ i out, percentFrom arg .text true i cs = .ok out ↔ cs = doubled out) ∧
      ∀ i out, percentFrom arg .start true i cs = .ok out ↔
        ∃ rest, cs = '%' :: doubled rest ∧ out = '%' :: rest := by
  induction cs with
  | nil =>
      constructor
      · intro i out
        rw [nil_eq_doubled]
        constructor
        · intro h
          cases h
          rfl
        · rintro rfl
          rfl
      · intro i out
        refine iff_of_false (percentFrom_nil_ne_ok start_ne_text) ?_
        rintro ⟨rest, h, -⟩
        cases h
  | cons c cs ih =>
      constructor
      · intro i out
        by_cases hc : c = '%'
        · subst hc
          rw [percent_cons_eq_doubled, ← ih.2 (i + 1) out]
          rfl
        · rw [percentFrom_text_cons hc, map_eq_ok, cons_eq_doubled hc]
          simp only [ih.1]
      · intro i out
        rw [percentFrom_cons_eq_ok start_ne_text]
        constructor
        · rintro (⟨mode', hread, hrest⟩ | ⟨hread, rest, hrest, rfl⟩ | ⟨hused, -⟩)
          · exact absurd hrest (percentFrom_inside_used (inside_of_read start_ne_text hread))
          · have hc : c = '%' := by
              by_contra hc
              exact read_start_ne_percent hc hread
            exact ⟨rest, by rw [hc, (ih.1 _ _).mp hrest], rfl⟩
          · cases hused
        · rintro ⟨rest, h, rfl⟩
          obtain ⟨rfl, rfl⟩ := List.cons.inj h
          exact .inr (.inl ⟨rfl, rest, (ih.1 _ _).mpr rfl, rfl⟩)

/-! ## The conversions -/

/-- The conversions a text can be given to. -/
theorem convertStr_eq_ok {spec : FormatSpec} {conv : Char} {shown : List Char} :
    convertStr arg spec conv i = .ok shown ↔
      (conv = 's' ∧ shown = spec.pad arg) ∨ (conv = 'r' ∧ shown = spec.pad (repr arg)) ∨
      (conv = 'a' ∧ shown = spec.pad (ascii arg)) ∨
      (conv = 'c' ∧ (∃ d, arg = [d]) ∧ shown = spec.pad arg) := by
  have hok : ∀ s : List Char, (.ok s : Except PyExc (List Char)) = .ok shown ↔ shown = s := by
    intro s
    rw [Except.ok.injEq, eq_comm]
  unfold convertStr
  by_cases hs : conv = 's'
  · subst hs
    simp [hok]
  by_cases hr : conv = 'r'
  · subst hr
    simp [hok]
  by_cases ha : conv = 'a'
  · subst ha
    simp [hok]
  by_cases hc : conv = 'c'
  · subst hc
    simp only [hs, hr, ha, if_true, if_false, false_and, true_and, false_or]
    split
    · rename_i d
      simp [hok]
    · rename_i hne
      refine iff_of_false (fun h ↦ by cases h) ?_
      rintro ⟨⟨d, rfl⟩, -⟩
      exact hne d rfl
  · simp only [hs, hr, ha, hc, if_false, false_and, or_false, iff_false]
    repeat' split
    all_goals
      intro h
      cases h

/-- What a specifier and the text after it make of the operand. -/
def Converts (arg : List Char) (mode : FormatMode) (cs out : List Char) : Prop :=
  ∃ spec conv shown after, mode.specifier cs = some ((spec, conv), doubled after) ∧
    convertStr arg spec conv 0 = .ok shown ∧ out = shown ++ after

/-- The first character of a specifier, when the rest of it is read rightly. -/
theorem percentFrom_cons_converts (hmode : mode ≠ .text) (hread : mode.read c ≠ .percent)
    (hrest : ∀ mode' : FormatMode, mode'.Inside → ∀ i,
      (percentFrom arg mode' false i cs = .ok out ↔ Converts arg mode' cs out)) :
    percentFrom arg mode false i (c :: cs) = .ok out ↔ Converts arg mode (c :: cs) out := by
  rw [percentFrom_cons_eq_ok hmode]
  constructor
  · rintro (⟨mode', hmore, hok⟩ | ⟨hpercent, -⟩ |
      ⟨-, spec, conv, shown, rest, hconv, hshown, hafter, rfl⟩)
    · obtain ⟨spec, conv, shown, after, hspecifier, hshown, rfl⟩ :=
        (hrest mode' (inside_of_read hmode hmore) _).mp hok
      refine ⟨spec, conv, shown, after, ?_, hshown, rfl⟩
      rw [FormatMode.specifier, hmore]
      exact hspecifier
    · exact absurd hpercent hread
    · refine ⟨spec, conv, shown, rest, ?_, convertStr_eq_ok.mpr (convertStr_eq_ok.mp hshown), rfl⟩
      rw [FormatMode.specifier, hconv, (percentFrom_used cs).1 _ _ |>.mp hafter]
  · rintro ⟨spec, conv, shown, after, hspecifier, hshown, rfl⟩
    rw [FormatMode.specifier] at hspecifier
    cases hstep : mode.read c with
    | more mode' =>
        rw [hstep] at hspecifier
        refine .inl ⟨mode', rfl, (hrest mode' (inside_of_read hmode hstep) _).mpr ?_⟩
        exact ⟨spec, conv, shown, after, hspecifier, hshown, rfl⟩
    | convert spec' conv' =>
        rw [hstep] at hspecifier
        cases hspecifier
        refine .inr (.inr ⟨rfl, spec, conv, shown, after, rfl, ?_, ?_, rfl⟩)
        · exact convertStr_eq_ok.mpr (convertStr_eq_ok.mp hshown)
        · exact ((percentFrom_used _).1 _ _).mpr rfl
    | _ =>
        rw [hstep] at hspecifier
        cases hspecifier

theorem percentFrom_inside (hmode : mode.Inside) :
    percentFrom arg mode false i cs = .ok out ↔ Converts arg mode cs out := by
  induction cs generalizing mode i with
  | nil =>
      refine iff_of_false (percentFrom_nil_ne_ok hmode.ne_text) ?_
      rintro ⟨spec, conv, shown, after, h, -⟩
      cases h
  | cons c cs ih =>
      exact percentFrom_cons_converts hmode.ne_text (read_ne_percent hmode c)
        fun mode' hmode' i ↦ ih hmode'

/-! ## Before the operand is consumed -/

/-- Text, then a specifier, then the text after it. -/
def Formats (arg cs out : List Char) : Prop :=
  ∃ before rest out', cs = doubled before ++ '%' :: rest ∧ Converts arg .start rest out' ∧
    out = before ++ out'

theorem not_formats_nil : ¬ Formats arg [] out := by
  rintro ⟨before, rest, out', h, -⟩
  cases before with
  | nil => cases h
  | cons d before =>
      by_cases hd : d = '%'
      · subst hd
        cases h
      · rw [doubled_cons hd] at h
        cases h

theorem formats_percent : Formats arg ('%' :: cs) out ↔
    Converts arg .start cs out ∨
      ∃ cs' out', cs = '%' :: cs' ∧ Formats arg cs' out' ∧ out = '%' :: out' := by
  constructor
  · rintro ⟨before, rest, out', h, hconverts, rfl⟩
    cases before with
    | nil =>
        cases h
        exact .inl hconverts
    | cons d before =>
        by_cases hd : d = '%'
        · subst hd
          cases h
          exact .inr ⟨_, _, rfl, ⟨before, rest, out', rfl, hconverts, rfl⟩, rfl⟩
        · rw [doubled_cons hd] at h
          cases h
          exact absurd rfl hd
  · rintro (hconverts | ⟨cs', out', rfl, ⟨before, rest, out'', rfl, hconverts, rfl⟩, rfl⟩)
    · exact ⟨[], cs, out, rfl, hconverts, rfl⟩
    · exact ⟨'%' :: before, rest, out'', rfl, hconverts, rfl⟩

theorem formats_cons (hc : c ≠ '%') : Formats arg (c :: cs) out ↔
    ∃ out', Formats arg cs out' ∧ out = c :: out' := by
  constructor
  · rintro ⟨before, rest, out', h, hconverts, rfl⟩
    cases before with
    | nil =>
        cases h
        exact absurd rfl hc
    | cons d before =>
        by_cases hd : d = '%'
        · subst hd
          cases h
          exact absurd rfl hc
        · rw [doubled_cons hd] at h
          cases h
          exact ⟨_, ⟨before, rest, out', rfl, hconverts, rfl⟩, rfl⟩
  · rintro ⟨out', ⟨before, rest, out'', rfl, hconverts, rfl⟩, rfl⟩
    exact ⟨c :: before, rest, out'', by rw [doubled_cons hc]; rfl, hconverts, rfl⟩

theorem percentFrom_unused (cs : List Char) :
    (∀ i out, percentFrom arg .text false i cs = .ok out ↔ Formats arg cs out) ∧
      ∀ i out, percentFrom arg .start false i cs = .ok out ↔ Formats arg ('%' :: cs) out := by
  induction cs with
  | nil =>
      constructor
      · intro i out
        refine iff_of_false ?_ not_formats_nil
        intro h
        cases h
      · intro i out
        refine iff_of_false (percentFrom_nil_ne_ok start_ne_text) ?_
        intro h
        rcases formats_percent.mp h with ⟨spec, conv, shown, after, hnone, -⟩ | ⟨_, _, h, -⟩
        · cases hnone
        · cases h
  | cons c cs ih =>
      constructor
      · intro i out
        by_cases hc : c = '%'
        · subst hc
          exact ih.2 (i + 1) out
        · rw [percentFrom_text_cons hc, map_eq_ok, formats_cons hc]
          simp only [ih.1]
      · intro i out
        rw [formats_percent]
        by_cases hc : c = '%'
        · subst hc
          have hnone : ¬ Converts arg .start ('%' :: cs) out := by
            rintro ⟨spec, conv, shown, after, h, -⟩
            cases (specifier_percent cs).symm.trans h
          have hpercent : percentFrom arg .start false i ('%' :: cs) =
              (percentFrom arg .text false (i + 1) cs).map ('%' :: ·) := rfl
          rw [hpercent, map_eq_ok, or_iff_right hnone]
          simp only [ih.1, List.cons.injEq, true_and, exists_and_left, exists_eq_left']
        · rw [percentFrom_cons_converts start_ne_text (read_start_ne_percent hc)
            fun mode' hmode' i ↦ percentFrom_inside hmode', or_iff_left]
          rintro ⟨cs', out', h, -⟩
          cases h
          exact hc rfl

/-! ## The operator -/

/-- A format is text around one specifier. -/
def Splits (format before : List Char) (spec : FormatSpec) (conv : Char) (after : List Char) :
    Prop :=
  ∃ rest, format = doubled before ++ '%' :: rest ∧
    FormatMode.start.specifier rest = some ((spec, conv), doubled after)

/-- **A format succeeds** when it is text around one specifier that can take the operand. -/
theorem percent_eq_ok {format arg content : String} :
    percent format arg = .ok content ↔
      ∃ before spec conv after shown, Splits format.toList before spec conv after ∧
        convertStr arg.toList spec conv 0 = .ok shown ∧
        content = String.ofList (before ++ shown ++ after) := by
  rw [percent, map_eq_ok]
  constructor
  · rintro ⟨out, hok, rfl⟩
    obtain ⟨before, rest, out', hformat, ⟨spec, conv, shown, after, hrest, hshown, rfl⟩, rfl⟩ :=
      ((percentFrom_unused _).1 _ _).mp hok
    exact ⟨before, spec, conv, after, shown, ⟨rest, hformat, hrest⟩, hshown,
      by rw [List.append_assoc]⟩
  · rintro ⟨before, spec, conv, after, shown, ⟨rest, hformat, hrest⟩, hshown, rfl⟩
    refine ⟨before ++ (shown ++ after), ((percentFrom_unused _).1 _ _).mpr ?_, ?_⟩
    · exact ⟨before, rest, _, hformat, ⟨spec, conv, shown, after, hrest, hshown, rfl⟩, rfl⟩
    · rw [List.append_assoc]

end

theorem doubled_injective {s t : List Char} (h : doubled s = doubled t) : s = t := by
  induction s generalizing t with
  | nil => exact (nil_eq_doubled.mp h).symm
  | cons c s ih =>
      by_cases hc : c = '%'
      · subst hc
        obtain ⟨t', ht, rfl⟩ := percent_cons_eq_doubled.mp h
        rw [ih (List.cons.inj ht).2]
      · rw [doubled_cons hc] at h
        obtain ⟨t', ht, rfl⟩ := (cons_eq_doubled hc).mp h
        rw [ih ht]

/-- Two texts before a specifier are the same. -/
theorem doubled_append_inj {s t rest rest' : List Char} {x x' : (FormatSpec × Char) × List Char}
    (hx : FormatMode.start.specifier rest = some x)
    (hx' : FormatMode.start.specifier rest' = some x')
    (h : doubled s ++ '%' :: rest = doubled t ++ '%' :: rest') : s = t ∧ rest = rest' := by
  have hpercent : ∀ {r x cs}, FormatMode.start.specifier r = some x → r ≠ '%' :: cs := by
    rintro r x cs hr rfl
    cases (specifier_percent cs).symm.trans hr
  induction s generalizing t with
  | nil =>
      cases t with
      | nil => exact ⟨rfl, (List.cons.inj h).2⟩
      | cons d t =>
          by_cases hd : d = '%'
          · subst hd
            exact absurd (List.cons.inj h).2 (hpercent hx)
          · rw [doubled_cons hd] at h
            exact absurd (List.cons.inj h).1.symm hd
  | cons c s ih =>
      by_cases hc : c = '%'
      · subst hc
        cases t with
        | nil => exact absurd (List.cons.inj h).2.symm (hpercent hx')
        | cons d t =>
            by_cases hd : d = '%'
            · subst hd
              obtain ⟨rfl, hrest⟩ := ih (List.cons.inj (List.cons.inj h).2).2
              exact ⟨rfl, hrest⟩
            · rw [doubled_cons hd] at h
              exact absurd (List.cons.inj h).1.symm hd
      · rw [doubled_cons hc] at h
        cases t with
        | nil => exact absurd (List.cons.inj h).1 hc
        | cons d t =>
            by_cases hd : d = '%'
            · subst hd
              exact absurd (List.cons.inj h).1 hc
            · rw [doubled_cons hd] at h
              obtain ⟨rfl, htail⟩ := List.cons.inj h
              obtain ⟨rfl, hrest⟩ := ih htail
              exact ⟨rfl, hrest⟩

/-- There is one way to cut a format. -/
theorem Splits.unique {format before before' after after' : List Char} {spec spec' : FormatSpec}
    {conv conv' : Char} (h : Splits format before spec conv after)
    (h' : Splits format before' spec' conv' after') :
    before = before' ∧ spec = spec' ∧ conv = conv' ∧ after = after' := by
  obtain ⟨rest, rfl, hrest⟩ := h
  obtain ⟨rest', hformat, hrest'⟩ := h'
  obtain ⟨rfl, rfl⟩ := doubled_append_inj hrest hrest' hformat
  have heq := Option.some.inj (hrest.symm.trans hrest')
  obtain ⟨hspec, hafter⟩ := Prod.mk.inj heq
  obtain ⟨rfl, rfl⟩ := Prod.mk.inj hspec
  exact ⟨rfl, rfl, rfl, doubled_injective hafter⟩

/-! ## When the operand is shown as it is -/

/-- What is left by a precision. -/
def FormatSpec.truncate (spec : FormatSpec) (s : List Char) : List Char :=
  match spec.precision with
  | some p => s.take p
  | none => s

theorem pad_eq (spec : FormatSpec) (s : List Char) :
    spec.pad s =
      if spec.left then
        spec.truncate s ++ List.replicate (spec.width - (spec.truncate s).length) ' '
      else List.replicate (spec.width - (spec.truncate s).length) ' ' ++ spec.truncate s := rfl

theorem truncate_eq_self_iff {spec : FormatSpec} {s : List Char} :
    spec.truncate s = s ↔ ∀ p ∈ spec.precision, s.length ≤ p := by
  rw [FormatSpec.truncate]
  cases spec.precision with
  | none => simp
  | some p =>
      simp only [Option.mem_def, Option.some.injEq, forall_eq']
      constructor
      · intro h
        rw [← h]
        exact List.length_take_le p s
      · intro h
        exact List.take_of_length_le h

theorem head?_truncate {spec : FormatSpec} {s : List Char} {c : Char}
    (h : (spec.truncate s).head? = some c) : s.head? = some c := by
  rw [FormatSpec.truncate] at h
  cases hp : spec.precision with
  | none =>
      rw [hp] at h
      exact h
  | some p =>
      rw [hp] at h
      dsimp only at h
      rw [List.head?_take] at h
      split at h
      · cases h
      · exact h

theorem head?_blanks {n : ℕ} {s : List Char} {c : Char}
    (h : (List.replicate n ' ' ++ s).head? = some c) : c = ' ' ∨ s.head? = some c := by
  cases n with
  | zero => exact .inr h
  | succ n => exact .inl (Option.some.inj h).symm

/-- Padding puts blanks in front, or nothing. -/
theorem head?_pad {spec : FormatSpec} {s : List Char} {c : Char}
    (h : (spec.pad s).head? = some c) : c = ' ' ∨ s.head? = some c := by
  rw [pad_eq] at h
  split at h
  · cases ht : spec.truncate s with
    | nil =>
        rw [ht, List.nil_append, ← List.append_nil (List.replicate _ ' ')] at h
        rcases head?_blanks h with hblank | h
        · exact .inl hblank
        · cases h
    | cons d t =>
        rw [ht] at h
        have hd : (spec.truncate s).head? = some c := by
          rw [ht]
          exact h
        exact .inr (head?_truncate hd)
  · exact (head?_blanks h).imp_right head?_truncate

/-- A text that neither begins nor ends with a blank is shown as it is exactly if it fits. -/
theorem pad_eq_self_iff {spec : FormatSpec} {s : List Char} (hhead : s.head? ≠ some ' ')
    (hlast : s.getLast? ≠ some ' ') :
    spec.pad s = s ↔ spec.width ≤ s.length ∧ ∀ p ∈ spec.precision, s.length ≤ p := by
  rw [← truncate_eq_self_iff, pad_eq]
  constructor
  · intro h
    cases hfill : spec.width - (spec.truncate s).length with
    | zero =>
        have hself : spec.truncate s = s := by
          rw [hfill] at h
          split at h
          · exact (List.append_nil _).symm.trans h
          · exact h
        rw [hself] at hfill
        exact ⟨Nat.le_of_sub_eq_zero hfill, hself⟩
    | succ n =>
        rw [hfill] at h
        split at h
        · rw [List.replicate_succ', ← List.append_assoc] at h
          rw [← h, List.getLast?_concat] at hlast
          exact absurd rfl hlast
        · rw [← h, List.replicate_succ] at hhead
          exact absurd rfl hhead
  · rintro ⟨hwidth, hself⟩
    rw [hself, Nat.sub_eq_zero_of_le hwidth, List.replicate_zero, List.append_nil, List.nil_append]
    exact ite_self s

/-- What `repr` and `ascii` show begins with a quote. -/
theorem head?_literal {printable : Char → Bool} {s : List Char} {c : Char}
    (h : (literal printable s).head? = some c) : c = '\'' ∨ c = '"' := by
  rw [literal] at h
  split at h
  · exact .inr (Option.some.inj h).symm
  · exact .inl (Option.some.inj h).symm

/-- A literal is not shown as a text that begins with a bracket. -/
theorem pad_literal_ne {spec : FormatSpec} {printable : Char → Bool} {s t : List Char} :
    '[' :: t ≠ spec.pad (literal printable s) := by
  intro h
  have hhead : (spec.pad (literal printable s)).head? = some '[' := by
    rw [← h]
    rfl
  rcases head?_pad hhead with hblank | hquote
  · exact absurd hblank (by decide)
  · rcases head?_literal hquote with h | h
    · exact absurd h (by decide)
    · exact absurd h (by decide)

/-- **The operand is shown as it is** exactly by an `s` it fits, when it stands in brackets. -/
theorem convertStr_eq_self_iff [UnicodeData] {spec : FormatSpec} {conv : Char}
    {s mid : List Char} (hs : s = '[' :: mid ++ [']']) :
    convertStr s spec conv 0 = .ok s ↔
      conv = 's' ∧ spec.width ≤ s.length ∧ ∀ p ∈ spec.precision, s.length ≤ p := by
  have hhead : s.head? ≠ some ' ' := by
    rw [hs]
    intro h
    cases h
  have hlast : s.getLast? ≠ some ' ' := by
    rw [hs, List.getLast?_concat]
    intro h
    cases h
  rw [← pad_eq_self_iff hhead hlast, convertStr_eq_ok]
  constructor
  · rintro (⟨hconv, h⟩ | ⟨-, h⟩ | ⟨-, h⟩ | ⟨-, ⟨d, h⟩, -⟩)
    · exact ⟨hconv, h.symm⟩
    · exact absurd (hs.symm.trans h) pad_literal_ne
    · exact absurd (hs.symm.trans h) pad_literal_ne
    · have hlength := congrArg List.length (hs.symm.trans h)
      rw [List.length_append, List.length_cons, List.length_singleton, List.length_singleton]
        at hlength
      omega
  · rintro ⟨rfl, h⟩
    exact .inl ⟨rfl, h.symm⟩

end Py
