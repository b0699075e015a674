import Mathlib.Data.List.Induction

/-!
# Machines that read inputs and emit observations

A `Mealy` machine is a partial step function: in a state it accepts some
inputs, moves to a new state and emits a finite list of observations.  A *run*
is a finite list of accepted inputs, and its *trace* is what was emitted on the
way.

Programs with suspension points are such machines: the state records where the
program is suspended, an input says how it is resumed, and everything the
program does up to its next suspension point is one step.

The rules of this file package the two inductions every safety proof needs: the
induction on a run from a fixed start (`Mealy.run_induction`) with its instance
for invariants (`Mealy.run_invariant`), and the passage from one machine to
another (`Mealy.run_refines`, `Mealy.run_lockstep`).
-/

universe u v w

/-- A partial step function from states and inputs to states and observations. -/
structure Mealy (σ : Type u) (ι : Type v) (ο : Type w) where
  /-- One step; `none` when the input is not accepted. -/
  step : σ → ι → Option (σ × List ο)

namespace Mealy

variable {σ σ' : Type u} {ι ι' : Type v} {ο ο' : Type w}

/-- Feed a list of inputs, collecting the observations. -/
def run (M : Mealy σ ι ο) : σ → List ι → Option (σ × List ο)
  | s, [] => some (s, [])
  | s, i :: is =>
      match M.step s i with
      | none => none
      | some (s₁, o₁) =>
          match M.run s₁ is with
          | none => none
          | some (s₂, o₂) => some (s₂, o₁ ++ o₂)

@[simp] theorem run_nil (M : Mealy σ ι ο) (s : σ) : M.run s [] = some (s, []) := rfl

theorem run_cons {M : Mealy σ ι ο} {s s₁ s₂ : σ} {i : ι} {is : List ι} {o₁ o₂ : List ο}
    (hs : M.step s i = some (s₁, o₁)) (hr : M.run s₁ is = some (s₂, o₂)) :
    M.run s (i :: is) = some (s₂, o₁ ++ o₂) := by
  rw [run, hs]
  simp only [hr]

theorem exists_of_run_cons {M : Mealy σ ι ο} {s s₂ : σ} {i : ι} {is : List ι} {o : List ο}
    (h : M.run s (i :: is) = some (s₂, o)) :
    ∃ s₁ o₁ o₂, M.step s i = some (s₁, o₁) ∧ M.run s₁ is = some (s₂, o₂) ∧ o = o₁ ++ o₂ := by
  rw [run] at h
  cases hs : M.step s i with
  | none =>
      rw [hs] at h
      cases h
  | some p =>
      obtain ⟨s₁, o₁⟩ := p
      simp only [hs] at h
      cases hr : M.run s₁ is with
      | none =>
          rw [hr] at h
          cases h
      | some q =>
          obtain ⟨s₃, o₃⟩ := q
          rw [hr] at h
          obtain ⟨rfl, rfl⟩ := Prod.mk.inj (Option.some.inj h)
          exact ⟨s₁, o₁, o₃, rfl, hr, rfl⟩

theorem run_append {M : Mealy σ ι ο} {s s₁ s₂ : σ} {is js : List ι} {o₁ o₂ : List ο}
    (h₁ : M.run s is = some (s₁, o₁)) (h₂ : M.run s₁ js = some (s₂, o₂)) :
    M.run s (is ++ js) = some (s₂, o₁ ++ o₂) := by
  induction is generalizing s o₁ with
  | nil =>
      obtain ⟨rfl, rfl⟩ := Prod.mk.inj (Option.some.inj h₁)
      exact h₂
  | cons i is ih =>
      obtain ⟨s₃, o₃, o₄, hs, hr, rfl⟩ := exists_of_run_cons h₁
      rw [List.append_assoc]
      exact run_cons hs (ih hr)

/-- A run over a concatenation is a run over the first part followed by a run
over the second. -/
theorem exists_of_run_append {M : Mealy σ ι ο} {s s₂ : σ} {is js : List ι} {o : List ο}
    (h : M.run s (is ++ js) = some (s₂, o)) :
    ∃ s₁ o₁ o₂, M.run s is = some (s₁, o₁) ∧ M.run s₁ js = some (s₂, o₂) ∧ o = o₁ ++ o₂ := by
  induction is generalizing s o with
  | nil => exact ⟨s, [], o, rfl, h, rfl⟩
  | cons i is ih =>
      obtain ⟨s₁, o₁, o₂, hs, hr, rfl⟩ := exists_of_run_cons h
      obtain ⟨s₃, o₃, o₄, hr₁, hr₂, rfl⟩ := ih hr
      exact ⟨s₃, o₁ ++ o₃, o₄, run_cons hs hr₁, hr₂, (List.append_assoc _ _ _).symm⟩

theorem exists_of_run_concat {M : Mealy σ ι ο} {s s₂ : σ} {is : List ι} {i : ι} {o : List ο}
    (h : M.run s (is ++ [i]) = some (s₂, o)) :
    ∃ s₁ o₁ o₂, M.run s is = some (s₁, o₁) ∧ M.step s₁ i = some (s₂, o₂) ∧ o = o₁ ++ o₂ := by
  obtain ⟨s₁, o₁, o₂, hr, hone, rfl⟩ := exists_of_run_append h
  obtain ⟨s₃, o₃, o₄, hs, hn, rfl⟩ := exists_of_run_cons hone
  obtain ⟨rfl, rfl⟩ := Prod.mk.inj (Option.some.inj hn)
  exact ⟨s₁, o₁, o₃, hr, hs, by rw [List.append_nil]⟩

theorem run_concat {M : Mealy σ ι ο} {s s₁ s₂ : σ} {is : List ι} {i : ι} {o₁ o₂ : List ο}
    (hr : M.run s is = some (s₁, o₁)) (hs : M.step s₁ i = some (s₂, o₂)) :
    M.run s (is ++ [i]) = some (s₂, o₁ ++ o₂) := by
  have hone : M.run s₁ [i] = some (s₂, o₂ ++ []) := run_cons hs rfl
  rw [List.append_nil] at hone
  exact run_append hr hone

/-- Induction on a run from a fixed start, newest input last. -/
theorem run_induction {M : Mealy σ ι ο} {s₀ : σ} {P : List ι → σ → List ο → Prop}
    (nil : P [] s₀ [])
    (snoc : ∀ is s o i s' o', P is s o → M.step s i = some (s', o') →
      P (is ++ [i]) s' (o ++ o')) :
    ∀ {is : List ι} {s : σ} {o : List ο}, M.run s₀ is = some (s, o) → P is s o := by
  intro is
  induction is using List.reverseRecOn with
  | nil =>
      intro s o h
      obtain ⟨rfl, rfl⟩ := Prod.mk.inj (Option.some.inj h)
      exact nil
  | append_singleton is i ih =>
      intro s o h
      obtain ⟨s₁, o₁, o₂, hr, hs, rfl⟩ := exists_of_run_concat h
      exact snoc is s₁ o₁ i s o₂ (ih hr) hs

/-- A property of states that every step keeps holds at the end of every run. -/
theorem run_invariant {M : Mealy σ ι ο} {P : σ → Prop}
    (step : ∀ s i s' o, P s → M.step s i = some (s', o) → P s')
    {s₀ s : σ} {is : List ι} {o : List ο} (h₀ : P s₀) (h : M.run s₀ is = some (s, o)) : P s :=
  run_induction (P := fun _ s _ ↦ P s) h₀ (fun _ s _ i s' o' hP hs ↦ step s i s' o' hP hs) h

/-- An input before which a list can be cut is one of its inputs. -/
theorem mem_of_concat_prefix {js is : List ι} {i : ι} (h : js ++ [i] <+: is) : i ∈ is :=
  h.subset (List.mem_append_right js (List.mem_singleton_self i))

/-- Induction on a run whose steps all meet a condition `Q`. -/
theorem run_induction_of_steps {M : Mealy σ ι ο} {s₀ : σ} {P : List ι → σ → List ο → Prop}
    {Q : σ → ι → Prop} (nil : P [] s₀ [])
    (snoc : ∀ is s o i s' o', P is s o → Q s i → M.step s i = some (s', o') →
      P (is ++ [i]) s' (o ++ o'))
    {is : List ι} {s : σ} {o : List ο} (h : M.run s₀ is = some (s, o))
    (hQ : ∀ js i s₁ o₁, js ++ [i] <+: is → M.run s₀ js = some (s₁, o₁) → Q s₁ i) : P is s o := by
  induction is using List.reverseRecOn generalizing s o with
  | nil =>
      obtain ⟨rfl, rfl⟩ := Prod.mk.inj (Option.some.inj h)
      exact nil
  | append_singleton is i ih =>
      obtain ⟨s₁, o₁, o₂, hr, hs, rfl⟩ := exists_of_run_concat h
      refine snoc is s₁ o₁ i s o₂ (ih hr ?_) (hQ is i s₁ o₁ List.prefix_rfl hr) hs
      exact fun js j s' o' hp ↦ hQ js j s' o' (hp.trans (List.prefix_append is [i]))

/-- A run can be cut at every prefix of its inputs. -/
theorem run_prefix {M : Mealy σ ι ο} {s₀ s : σ} {is js : List ι} {o : List ο}
    (h : M.run s₀ is = some (s, o)) (hp : js <+: is) : ∃ s₁ o₁, M.run s₀ js = some (s₁, o₁) := by
  obtain ⟨ks, rfl⟩ := hp
  obtain ⟨s₁, o₁, _, hr, _, _⟩ := exists_of_run_append h
  exact ⟨s₁, o₁, hr⟩

/-- Every step of a run is taken where `Q` holds of the state before it and of its
input. -/
def StepsMeet (M : Mealy σ ι ο) (Q : σ → ι → Prop) (s : σ) (is : List ι) : Prop :=
  ∀ js i s₁ o₁, js ++ [i] <+: is → M.run s js = some (s₁, o₁) → Q s₁ i

theorem StepsMeet.nil {M : Mealy σ ι ο} {Q : σ → ι → Prop} {s : σ} : M.StepsMeet Q s [] := by
  intro js i s₁ o₁ hp
  have hlength := hp.length_le
  rw [List.length_append, List.length_singleton, List.length_nil] at hlength
  omega

/-- A condition on the steps is checked step by step. -/
theorem StepsMeet.cons {M : Mealy σ ι ο} {Q : σ → ι → Prop} {s s' : σ} {i : ι} {is : List ι}
    {o : List ο} (hs : M.step s i = some (s', o)) (hi : Q s i) (his : M.StepsMeet Q s' is) :
    M.StepsMeet Q s (i :: is) := by
  intro js j s₁ o₁ hp hr
  cases js with
  | nil =>
      obtain ⟨rfl, -⟩ := List.cons_prefix_cons.mp hp
      obtain ⟨rfl, rfl⟩ := Prod.mk.inj (Option.some.inj hr)
      exact hi
  | cons i' js =>
      obtain ⟨rfl, htail⟩ := List.cons_prefix_cons.mp hp
      obtain ⟨s₂, o₂, o₃, hs', hr', rfl⟩ := exists_of_run_cons hr
      obtain ⟨rfl, rfl⟩ := Prod.mk.inj (Option.some.inj (hs.symm.trans hs'))
      exact his js j s₁ o₃ htail hr'

/-- Run a machine and check every step. -/
def checks (M : Mealy σ ι ο) (q : σ → ι → Bool) : σ → List ι → Bool
  | _, [] => true
  | s, i :: is =>
      match M.step s i with
      | none => false
      | some (s', _) => q s i && M.checks q s' is

theorem StepsMeet.of_checks {M : Mealy σ ι ο} {Q : σ → ι → Prop} [∀ s i, Decidable (Q s i)]
    {s : σ} {is : List ι} (h : M.checks (fun s i ↦ decide (Q s i)) s is) : M.StepsMeet Q s is := by
  induction is generalizing s with
  | nil => exact StepsMeet.nil
  | cons i is ih =>
      rw [checks] at h
      cases hs : M.step s i with
      | none =>
          rw [hs] at h
          cases h
      | some p =>
          obtain ⟨s', o⟩ := p
          rw [hs] at h
          obtain ⟨hi, his⟩ := Bool.and_eq_true_iff.mp h
          exact StepsMeet.cons hs (of_decide_eq_true hi) (ih his)

theorem StepsMeet.restrict {M : Mealy σ ι ο} {Q : σ → ι → Prop} {s : σ} {is js : List ι}
    (h : M.StepsMeet Q s is) (hp : js <+: is) : M.StepsMeet Q s js :=
  fun ks i s₁ o₁ hks ↦ h ks i s₁ o₁ (hks.trans hp)

/-- A condition on the steps of a run holds of those after a point of it. -/
theorem StepsMeet.drop {M : Mealy σ ι ο} {Q : σ → ι → Prop} {s s' : σ} {is js : List ι}
    {o : List ο} (hr : M.run s is = some (s', o)) (h : M.StepsMeet Q s (is ++ js)) :
    M.StepsMeet Q s' js := by
  intro ks i s₁ o₁ hp hks
  apply h (is ++ ks) i s₁ (o ++ o₁) ?_ (run_append hr hks)
  rw [List.append_assoc]
  exact (List.prefix_append_right_inj is).mpr hp

/-- When every step of a run goes up in a preorder, the run does. -/
theorem run_monotone {M : Mealy σ ι ο} {s₀ s : σ} {is : List ι} {o : List ο} {Q : σ → ι → Prop}
    {R : σ → σ → Prop} (refl : ∀ s, R s s) (trans : ∀ s s' s'', R s s' → R s' s'' → R s s'')
    (step : ∀ s i s' o, Q s i → M.step s i = some (s', o) → R s s')
    (h : M.run s₀ is = some (s, o)) (hQ : M.StepsMeet Q s₀ is) {js : List ι} {s₁ : σ}
    {o₁ : List ο} (hp : js <+: is) (hr : M.run s₀ js = some (s₁, o₁)) : R s₁ s := by
  induction is using List.reverseRecOn generalizing s o with
  | nil =>
      obtain rfl := List.prefix_nil.mp hp
      obtain ⟨rfl, rfl⟩ := Prod.mk.inj (Option.some.inj (hr.symm.trans h))
      exact refl s₁
  | append_singleton is i ih =>
      rcases List.prefix_concat_iff.mp hp with rfl | hp
      · obtain ⟨rfl, rfl⟩ := Prod.mk.inj (Option.some.inj (hr.symm.trans h))
        exact refl s₁
      · obtain ⟨s₂, o₂, o', hr₂, hs, rfl⟩ := exists_of_run_concat h
        have hle := ih hr₂ (hQ.restrict (List.prefix_append is [i])) hp
        exact trans _ _ _ hle (step s₂ i s o' (hQ is i s₂ o₂ List.prefix_rfl hr₂) hs)

/-- When, under an invariant `I` and on inputs with `A`, one step keeps `P` exactly if
`Q` holds before it, then `P` holds at every point of a run exactly if `Q` holds at
every step. -/
theorem forall_prefix_iff_stepsMeet {M : Mealy σ ι ο} {s₀ : σ} {I P : σ → List ο → Prop}
    {Q : σ → ι → Prop} {A : ι → Prop} (hI : I s₀ []) (hP : P s₀ [])
    (keep : ∀ s o i s' o', A i → I s o → M.step s i = some (s', o') → I s' (o ++ o'))
    (step : ∀ s o i s' o', A i → I s o → P s o → M.step s i = some (s', o') →
      (P s' (o ++ o') ↔ Q s i))
    {is : List ι} {s : σ} {o : List ο} (h : M.run s₀ is = some (s, o)) (hA : ∀ i ∈ is, A i) :
    (∀ js s₁ o₁, js <+: is → M.run s₀ js = some (s₁, o₁) → P s₁ o₁) ↔ M.StepsMeet Q s₀ is := by
  have hinv : ∀ js, js <+: is → ∀ s₁ o₁, M.run s₀ js = some (s₁, o₁) → I s₁ o₁ := by
    intro js hp s₁ o₁ hr
    refine run_induction_of_steps (P := fun _ s o ↦ I s o) (Q := fun _ i ↦ A i) hI ?_ hr ?_
    · exact fun _ s o i s' o' hs hi hstep ↦ keep s o i s' o' hi hs hstep
    · intro ks i _ _ hks _
      have hi : i ∈ is := mem_of_concat_prefix (hks.trans hp)
      exact hA i hi
  constructor
  · intro hall js i s₁ o₁ hp hr
    have hjs := (List.prefix_append js [i]).trans hp
    have hi : i ∈ is := mem_of_concat_prefix hp
    obtain ⟨s₂, o₂, hr₂⟩ := run_prefix h hp
    obtain ⟨s₁', o₁', o', hr', hs, rfl⟩ := exists_of_run_concat hr₂
    obtain ⟨rfl, rfl⟩ := Prod.mk.inj (Option.some.inj (hr'.symm.trans hr))
    refine (step _ _ i s₂ o' (hA i hi) (hinv js hjs _ _ hr)
      (hall js _ _ hjs hr) hs).mp ?_
    exact hall _ _ _ hp hr₂
  · intro hall js
    induction js using List.reverseRecOn with
    | nil =>
        intro s₁ o₁ _ hr
        obtain ⟨rfl, rfl⟩ := Prod.mk.inj (Option.some.inj hr)
        exact hP
    | append_singleton js i ih =>
        intro s₂ o₂ hp hr
        obtain ⟨s₁, o₁, o', hr₁, hs, rfl⟩ := exists_of_run_concat hr
        have hjs := (List.prefix_append js [i]).trans hp
        have hi : i ∈ is := mem_of_concat_prefix hp
        exact (step s₁ o₁ i s₂ o' (hA i hi) (hinv js hjs s₁ o₁ hr₁)
          (ih s₁ o₁ hjs hr₁) hs).mpr (hall js i s₁ o₁ hp hr₁)

/-- The rule for an invariant of the state alone and all inputs. -/
theorem run_forall_prefix_iff {M : Mealy σ ι ο} {s₀ : σ} {I : σ → Prop}
    {P : σ → List ο → Prop} {Q : σ → ι → Prop} (hI : I s₀) (hP : P s₀ [])
    (keep : ∀ s i s' o, I s → M.step s i = some (s', o) → I s')
    (step : ∀ s o i s' o', I s → P s o → M.step s i = some (s', o') →
      (P s' (o ++ o') ↔ Q s i))
    {is : List ι} {s : σ} {o : List ο} (h : M.run s₀ is = some (s, o)) :
    (∀ js s₁ o₁, js <+: is → M.run s₀ js = some (s₁, o₁) → P s₁ o₁) ↔
      ∀ js i s₁ o₁, js ++ [i] <+: is → M.run s₀ js = some (s₁, o₁) → Q s₁ i :=
  forall_prefix_iff_stepsMeet (I := fun s _ ↦ I s) (A := fun _ ↦ True) hI hP
    (fun s _ i s' o' _ hs hstep ↦ keep s i s' o' hs hstep)
    (fun s o i s' o' _ hs ho hstep ↦ step s o i s' o' hs ho hstep) h fun _ _ ↦ trivial

/-- Refinement.  `R` relates the states of two machines, `Q` is a condition on the
steps of the run, and `f`, `f'` say what an observation contributes to the
compared trace.  If every step of `M` under `Q` is matched by some run of `N`
contributing the same, every run of `M` under `Q` is. -/
theorem run_refines {α : Type*} {M : Mealy σ ι ο} {N : Mealy σ' ι' ο'} {R : σ → σ' → Prop}
    {Q : σ → ι → Prop} {f : ο → List α} {f' : ο' → List α}
    (step : ∀ s s' i s₁ o, R s s' → Q s i → M.step s i = some (s₁, o) →
      ∃ is' s₁' o', N.run s' is' = some (s₁', o') ∧ o.flatMap f = o'.flatMap f' ∧ R s₁ s₁')
    {is : List ι} {s s₁ : σ} {s' : σ'} {o : List ο} (hR : R s s')
    (h : M.run s is = some (s₁, o))
    (hQ : ∀ js i s₁ o₁, js ++ [i] <+: is → M.run s js = some (s₁, o₁) → Q s₁ i) :
    ∃ is' s₁' o', N.run s' is' = some (s₁', o') ∧ o.flatMap f = o'.flatMap f' ∧ R s₁ s₁' := by
  induction is using List.reverseRecOn generalizing s₁ o with
  | nil =>
      obtain ⟨rfl, rfl⟩ := Prod.mk.inj (Option.some.inj h)
      exact ⟨[], s', [], rfl, rfl, hR⟩
  | append_singleton is i ih =>
      obtain ⟨s₂, o₂, o₃, hr, hs, rfl⟩ := exists_of_run_concat h
      obtain ⟨is', s₂', o', hr', ho, hR₂⟩ := ih hr fun js j s o hp ↦
        hQ js j s o (hp.trans (List.prefix_append is [i]))
      obtain ⟨js', s₁', o'', hr'', ho', hR₁⟩ :=
        step s₂ s₂' i s₁ o₃ hR₂ (hQ is i s₂ o₂ List.prefix_rfl hr) hs
      exact ⟨is' ++ js', s₁', o' ++ o'', run_append hr' hr'',
        by rw [List.flatMap_append, List.flatMap_append, ho, ho'], hR₁⟩

/-- Lock-step simulation.  Here `R` also sees the inputs still to come, so it can
carry an assumption on them, and the matching inputs are fixed in advance: two
runs fed by related inputs contribute the same trace. -/
theorem run_lockstep {α : Type*} {M : Mealy σ ι ο} {N : Mealy σ' ι' ο'}
    {R : σ → List ι → σ' → List ι' → Prop} {f : ο → List α} {f' : ο' → List α}
    (nil : ∀ s s' is', R s [] s' is' → is' = [])
    (step : ∀ s i is s' is' s₁ o, R s (i :: is) s' is' → M.step s i = some (s₁, o) →
      ∃ i' is'' s₁' o', is' = i' :: is'' ∧ N.step s' i' = some (s₁', o') ∧
        o.flatMap f = o'.flatMap f' ∧ R s₁ is s₁' is'') :
    ∀ {is : List ι} {is' : List ι'} {s s₂ : σ} {s' : σ'} {o : List ο},
      R s is s' is' → M.run s is = some (s₂, o) →
        ∃ s₂' o', N.run s' is' = some (s₂', o') ∧ o.flatMap f = o'.flatMap f' ∧
          R s₂ [] s₂' [] := by
  intro is
  induction is with
  | nil =>
      intro is' s s₂ s' o hR h
      obtain ⟨rfl, rfl⟩ := Prod.mk.inj (Option.some.inj h)
      obtain rfl := nil s s' is' hR
      exact ⟨s', [], rfl, rfl, hR⟩
  | cons i is ih =>
      intro is' s s₂ s' o hR h
      obtain ⟨s₁, o₁, o₂, hs, hr, rfl⟩ := exists_of_run_cons h
      obtain ⟨i', is'', s₁', o₁', rfl, hs', ho, hR'⟩ := step s i is s' is' s₁ o₁ hR hs
      obtain ⟨s₂', o₂', hr', ho', hR''⟩ := ih hR' hr
      exact ⟨s₂', o₁' ++ o₂', run_cons hs' hr',
        by rw [List.flatMap_append, List.flatMap_append, ho, ho'], hR''⟩

end Mealy
