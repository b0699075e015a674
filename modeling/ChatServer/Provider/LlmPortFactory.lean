import ChatServer.Lib.Mealy
import ChatServer.Service.UseCases

/-!
# The cache of adapters

`LlmPortFactoryAdapter` makes an `LlmAdapter` for a session and a provider once and returns it
from then on; nothing is ever taken out of its cache.  The use cases see `ILlmPortFactory`,
which `ChatServer.Service.UseCases` has as a function of the session and the configuration.
Here is why it may: whatever is asked in whatever order, the cache answers as such a function
does (`LlmPortFactoryAdapter.plain_of_run`), and two answers are one adapter exactly when
session and provider are the same (`LlmPortFactoryAdapter.one_adapter_of_run`).

The constructor of `LlmAdapter` calls `AnyLLM.create`, which may raise; how it ends is an input.
-/

/-- `LlmPortFactoryAdapter`: its `_cache`.  An adapter is known by its number. -/
structure LlmPortFactoryAdapter where
  cache : OrderedDict String (OrderedDict String ℕ) := ∅
  /-- The providers of the adapters that were made, the newest last. -/
  adapters : List String := []

namespace LlmPortFactoryAdapter

/-- `create`; `made` is how `LlmAdapter(provider)` ends if it is called. -/
def create (f : LlmPortFactoryAdapter) (sessionId : String) (completionConfig : CompletionConfig)
    (made : Except PyExc Unit) : LlmPortFactoryAdapter × Except PyExc ℕ :=
  let provider := completionConfig.provider
  let sessionCache := (f.cache.get? sessionId).getD ∅
  -- `setdefault`, whose entry stays when the constructor raises
  let f := { f with cache := f.cache.set sessionId sessionCache }
  match sessionCache.get? provider with
  | some k => (f, .ok k)
  | none =>
      match made with
      | .error e => (f, .error e)
      | .ok () =>
          let k := f.adapters.length
          ({ cache := f.cache.set sessionId (sessionCache.set provider k),
             adapters := f.adapters ++ [provider] }, .ok k)

/-- A call of `create`. -/
structure Input where
  sessionId : String
  completionConfig : CompletionConfig
  made : Except PyExc Unit

/-- A call of `create` and what it returns or raises. -/
structure Obs where
  sessionId : String
  completionConfig : CompletionConfig
  result : Except PyExc ℕ

/-- One call. -/
def step (f : LlmPortFactoryAdapter) (i : Input) : Option (LlmPortFactoryAdapter × List Obs) :=
  let (f, result) := f.create i.sessionId i.completionConfig i.made
  some (f, [⟨i.sessionId, i.completionConfig, result⟩])

/-- The factory as a machine. -/
def machine : Mealy LlmPortFactoryAdapter Input Obs := ⟨step⟩

/-- `ILlmPortFactory` without a cache. -/
@[reducible] def plain (construct : String → Except PyExc Unit) (name : String → String → ℕ) :
    LlmPortFactory :=
  ⟨fun sessionId config ↦
    (construct config.provider).map fun _ ↦ toString (name sessionId config.provider)⟩

/-! ## What a call does -/

/-- What is cached for a session and a provider. -/
def find? (f : LlmPortFactoryAdapter) (sessionId provider : String) : Option ℕ :=
  ((f.cache.get? sessionId).getD ∅).get? provider

variable {f f' : LlmPortFactoryAdapter} {sessionId provider : String}

@[simp] theorem find?_set {cache : OrderedDict String (OrderedDict String ℕ)}
    {adapters : List String} {sessionCache : OrderedDict String ℕ} (s p : String) :
    find? ⟨cache.set sessionId sessionCache, adapters⟩ s p =
      if s = sessionId then sessionCache.get? p else find? ⟨cache, adapters⟩ s p := by
  split
  · rename_i heq
    rw [find?, heq, OrderedDict.get?_set_self, Option.getD_some]
  · rename_i hne
    rw [find?, OrderedDict.get?_set_of_ne _ _ (Ne.symm hne), find?]

/-- An adapter is found, or made, or cannot be made. -/
inductive Creates (f : LlmPortFactoryAdapter) (sessionId provider : String)
    (made : Except PyExc Unit) (f' : LlmPortFactoryAdapter) : Except PyExc ℕ → Prop where
  | found (k : ℕ) (hfind : f.find? sessionId provider = some k)
      (hsame : ∀ s p, f'.find? s p = f.find? s p) (hadapters : f'.adapters = f.adapters) :
      Creates f sessionId provider made f' (.ok k)
  | makes (hfind : f.find? sessionId provider = none) (hmade : made = .ok ())
      (hself : f'.find? sessionId provider = some f.adapters.length)
      (hother : ∀ s p, ¬ (s = sessionId ∧ p = provider) → f'.find? s p = f.find? s p)
      (hadapters : f'.adapters = f.adapters ++ [provider]) :
      Creates f sessionId provider made f' (.ok f.adapters.length)
  | fails (e : PyExc) (hfind : f.find? sessionId provider = none) (hmade : made = .error e)
      (hsame : ∀ s p, f'.find? s p = f.find? s p) (hadapters : f'.adapters = f.adapters) :
      Creates f sessionId provider made f' (.error e)

theorem creates_create (f : LlmPortFactoryAdapter) (sessionId : String) (config : CompletionConfig)
    (made : Except PyExc Unit) :
    Creates f sessionId config.provider made (f.create sessionId config made).1
      (f.create sessionId config made).2 := by
  have hsame : ∀ s p, find? ⟨f.cache.set sessionId ((f.cache.get? sessionId).getD ∅), f.adapters⟩
      s p = f.find? s p := by
    intro s p
    rw [find?_set]
    split
    · rename_i heq
      rw [heq, find?]
    · rfl
  simp only [create]
  split
  · rename_i k hfind
    exact .found k hfind hsame rfl
  · rename_i hfind
    split
    · rename_i e
      exact .fails e hfind rfl hsame rfl
    · refine .makes hfind rfl ?_ ?_ rfl
      · rw [find?_set, if_pos rfl, OrderedDict.get?_set_self]
      · intro s p hne
        rw [find?_set]
        split
        · rename_i heq
          have hp : config.provider ≠ p := fun hp ↦ hne ⟨heq, hp.symm⟩
          rw [OrderedDict.get?_set_of_ne _ _ hp, heq, find?]
        · exact hsame s p

/-! ## What a run does -/

/-- Every adapter in the cache is one of its provider, none is cached twice, and what was
returned is still there. -/
structure Caches (f : LlmPortFactoryAdapter) (o : List Obs) : Prop where
  provider : ∀ s p k, f.find? s p = some k → f.adapters[k]? = some p
  unique : ∀ s p s' p' k, f.find? s p = some k → f.find? s' p' = some k → s = s' ∧ p = p'
  told : ∀ ob ∈ o, ∀ k, ob.result = .ok k →
    f.find? ob.sessionId ob.completionConfig.provider = some k

theorem caches_empty : Caches {} [] where
  provider s p k h := by cases h
  unique s p s' p' k h := by cases h
  told ob hob := absurd hob List.not_mem_nil

/-- What is cached stays. -/
theorem Creates.mono {made : Except PyExc Unit} {result : Except PyExc ℕ}
    (h : Creates f sessionId provider made f' result) {s p : String} {k : ℕ}
    (hfind : f.find? s p = some k) : f'.find? s p = some k := by
  cases h with
  | found k' _ hsame hadapters => exact (hsame s p).trans hfind
  | fails e _ hmade hsame hadapters => exact (hsame s p).trans hfind
  | makes hnone hmade hself hother hadapters =>
      refine (hother s p ?_).trans hfind
      rintro ⟨rfl, rfl⟩
      rw [hnone] at hfind
      cases hfind

/-- What a call returns is cached. -/
theorem Creates.find? {made : Except PyExc Unit} {k : ℕ}
    (h : Creates f sessionId provider made f' (.ok k)) : f'.find? sessionId provider = some k := by
  cases h with
  | found _ hfind hsame hadapters => exact (hsame _ _).trans hfind
  | makes hfind hmade hself hother hadapters => exact hself

/-- **One call** keeps the cache. -/
theorem Caches.step {o : List Obs} (hf : Caches f o) {made : Except PyExc Unit}
    {config : CompletionConfig} {result : Except PyExc ℕ}
    (h : Creates f sessionId config.provider made f' result) :
    Caches f' (o ++ [⟨sessionId, config, result⟩]) where
  provider := by
    intro s p k hfind
    cases h with
    | found k' _ hsame hadapters =>
        rw [hadapters]
        exact hf.provider s p k ((hsame s p).symm.trans hfind)
    | fails e _ hmade hsame hadapters =>
        rw [hadapters]
        exact hf.provider s p k ((hsame s p).symm.trans hfind)
    | makes hnone hmade hself hother hadapters =>
        rw [hadapters]
        by_cases heq : s = sessionId ∧ p = config.provider
        · obtain ⟨rfl, rfl⟩ := heq
          obtain rfl : k = f.adapters.length := Option.some.inj (hfind.symm.trans hself)
          exact List.getElem?_concat_length
        · have hk := hf.provider s p k ((hother s p heq).symm.trans hfind)
          rw [List.getElem?_append_left (List.getElem?_eq_some_iff.mp hk).1, hk]
  unique := by
    intro s p s' p' k hfind hfind'
    cases h with
    | found k' _ hsame hadapters =>
        exact hf.unique s p s' p' k ((hsame s p).symm.trans hfind)
          ((hsame s' p').symm.trans hfind')
    | fails e _ hmade hsame hadapters =>
        exact hf.unique s p s' p' k ((hsame s p).symm.trans hfind)
          ((hsame s' p').symm.trans hfind')
    | makes hnone hmade hself hother hadapters =>
        -- the number of the new adapter is not that of an old one
        have hold : ∀ {s p}, ¬ (s = sessionId ∧ p = config.provider) → f'.find? s p = some k →
            k ≠ f.adapters.length := by
          intro s p hne hfind
          have hk := hf.provider s p k ((hother s p hne).symm.trans hfind)
          exact (List.getElem?_eq_some_iff.mp hk).1.ne
        have hnew : ∀ {s p}, s = sessionId ∧ p = config.provider → f'.find? s p = some k →
            k = f.adapters.length := by
          rintro s p ⟨rfl, rfl⟩ hfind
          exact Option.some.inj (hfind.symm.trans hself)
        by_cases heq : s = sessionId ∧ p = config.provider
        · by_cases heq' : s' = sessionId ∧ p' = config.provider
          · exact ⟨heq.1.trans heq'.1.symm, heq.2.trans heq'.2.symm⟩
          · exact absurd (hnew heq hfind) (hold heq' hfind')
        · by_cases heq' : s' = sessionId ∧ p' = config.provider
          · exact absurd (hnew heq' hfind') (hold heq hfind)
          · exact hf.unique s p s' p' k ((hother s p heq).symm.trans hfind)
              ((hother s' p' heq').symm.trans hfind')
  told := by
    intro ob hob k hk
    rcases List.mem_append.mp hob with hob | hob
    · exact h.mono (hf.told ob hob k hk)
    · obtain rfl := List.mem_singleton.mp hob
      obtain rfl : result = .ok k := hk
      exact h.find?

theorem caches_of_run {is : List Input} {o : List Obs} (h : machine.run {} is = some (f, o)) :
    Caches f o := by
  refine Mealy.run_induction (P := fun _ f o ↦ Caches f o) caches_empty ?_ h
  intro _ f o i f' o' hf hs
  obtain ⟨rfl, rfl⟩ := Prod.mk.inj (Option.some.inj hs)
  exact hf.step (creates_create f i.sessionId i.completionConfig i.made)

/-- In every run of calls two that return return the same adapter exactly when they are for one
session and one provider, and it is an adapter of that provider. -/
theorem one_adapter_of_run {is : List Input} {o : List Obs} (h : machine.run {} is = some (f, o))
    {ob ob' : Obs} (hob : ob ∈ o) (hob' : ob' ∈ o) {k k' : ℕ} (hk : ob.result = .ok k)
    (hk' : ob'.result = .ok k') :
    (k = k' ↔ ob.sessionId = ob'.sessionId ∧
      ob.completionConfig.provider = ob'.completionConfig.provider) ∧
        f.adapters[k]? = some ob.completionConfig.provider := by
  have hf : Caches f o := caches_of_run h
  have hfind := hf.told ob hob k hk
  have hfind' := hf.told ob' hob' k' hk'
  refine ⟨⟨?_, ?_⟩, hf.provider _ _ k hfind⟩
  · rintro rfl
    exact hf.unique _ _ _ _ k hfind hfind'
  · rintro ⟨hs, hp⟩
    rw [← hs, ← hp] at hfind'
    exact Option.some.inj (hfind.symm.trans hfind')

/-- A call raises what the constructor raises, and only that. -/
theorem raises_of_run {is : List Input} {o : List Obs} {construct : String → Except PyExc Unit}
    (h : machine.run {} is = some (f, o))
    (hmade : ∀ i ∈ is, i.made = construct i.completionConfig.provider) :
    (∀ s p k, f.find? s p = some k → construct p = .ok ()) ∧
      ∀ ob ∈ o, ∀ e, ob.result = .error e → construct ob.completionConfig.provider = .error e := by
  refine Mealy.run_induction (P := fun is f o ↦
    (∀ i ∈ is, i.made = construct i.completionConfig.provider) →
      (∀ s p k, f.find? s p = some k → construct p = .ok ()) ∧
        ∀ ob ∈ o, ∀ e, ob.result = .error e → construct ob.completionConfig.provider = .error e)
    ?_ ?_ h hmade
  · refine fun _ ↦ ⟨fun s p k hfind ↦ ?_, fun ob hob ↦ absurd hob List.not_mem_nil⟩
    cases hfind
  · intro is f o i f' o' ih hs hmade
    obtain ⟨hcached, hraised⟩ := ih fun j hj ↦ hmade j (List.mem_append_left _ hj)
    have hi := hmade i (List.mem_append_right _ (List.mem_singleton_self i))
    obtain ⟨rfl, rfl⟩ := Prod.mk.inj (Option.some.inj hs)
    have hcreates := creates_create f i.sessionId i.completionConfig i.made
    generalize hresult : (f.create i.sessionId i.completionConfig i.made).2 = result at hcreates
    constructor
    · intro s p k hfind
      cases hcreates with
      | found k' _ hsame hadapters => exact hcached s p k ((hsame s p).symm.trans hfind)
      | fails e _ he hsame hadapters => exact hcached s p k ((hsame s p).symm.trans hfind)
      | makes hnone hok hself hother hadapters =>
          by_cases heq : s = i.sessionId ∧ p = i.completionConfig.provider
          · rw [heq.2, ← hi]
            exact hok
          · exact hcached s p k ((hother s p heq).symm.trans hfind)
    · intro ob hob e he
      rcases List.mem_append.mp hob with hob | hob
      · exact hraised ob hob e he
      · obtain rfl := List.mem_singleton.mp hob
        obtain rfl : result = .error e := hresult.symm.trans he
        cases hcreates with
        | fails _ hnone hok hsame hadapters => exact hi.symm.trans hok

/-- **Refinement.**  When the constructor answers a provider always the same, the calls come to
what they would come to without a cache, under some naming of the adapters. -/
theorem plain_of_run {is : List Input} {o : List Obs} {construct : String → Except PyExc Unit}
    (h : machine.run {} is = some (f, o))
    (hmade : ∀ i ∈ is, i.made = construct i.completionConfig.provider) :
    ∃ name, ∀ ob ∈ o, (plain construct name).create ob.sessionId ob.completionConfig =
      ob.result.map toString := by
  obtain ⟨hcached, hraised⟩ := raises_of_run h hmade
  refine ⟨fun s p ↦ (f.find? s p).getD 0, fun ob hob ↦ ?_⟩
  cases hresult : ob.result with
  | ok k =>
      have hfind := (caches_of_run h).told ob hob k hresult
      show (construct _).map _ = _
      rw [hcached _ _ k hfind]
      show Except.ok (toString ((f.find? _ _).getD 0)) = _
      rw [hfind]
      rfl
  | error e =>
      show (construct _).map _ = _
      rw [hraised ob hob e hresult]
      rfl

/-! ## A run to evaluate -/

/-- A configuration of a provider for which there is no key. -/
def unknownConfig : CompletionConfig :=
  { CompletionConfig.sample with
    provider := "m"
    provider_ne := CompletionConfig.sample.model_ne }

/-- `AnyLLM.create` knows one provider. -/
def sampleConstruct (provider : String) : Except PyExc Unit :=
  if provider = "p" then .ok () else .error (.valueError "unknown provider")

/-- Two sessions are made and one is loaded again; then a provider is asked for in vain. -/
def sampleCalls : List Input :=
  [⟨"s", .sample, .ok ()⟩, ⟨"t", .sample, .ok ()⟩, ⟨"s", .sample, .ok ()⟩,
    ⟨"s", unknownConfig, .error (.valueError "unknown provider")⟩]

/-- What the calls come to. -/
def sampleResults : List Obs :=
  [⟨"s", .sample, .ok 0⟩, ⟨"t", .sample, .ok 1⟩, ⟨"s", .sample, .ok 0⟩,
    ⟨"s", unknownConfig, .error (.valueError "unknown provider")⟩]

theorem run_sampleCalls : ∃ f, machine.run {} sampleCalls = some (f, sampleResults) := ⟨_, rfl⟩

/-- The adapters of two sessions are two adapters of one provider. -/
theorem two_adapters_sampleCalls : ∃ f, machine.run {} sampleCalls = some (f, sampleResults) ∧
    ((0 = 1 ↔ "s" = "t" ∧ "p" = "p") ∧ f.adapters[0]? = some "p") := by
  obtain ⟨f, hrun⟩ := run_sampleCalls
  refine ⟨f, hrun, ?_⟩
  exact @one_adapter_of_run f sampleCalls sampleResults hrun ⟨"s", .sample, .ok 0⟩
    ⟨"t", .sample, .ok 1⟩ (by simp [sampleResults]) (by simp [sampleResults]) 0 1 rfl rfl

theorem plain_sampleCalls : ∃ f name, machine.run {} sampleCalls = some (f, sampleResults) ∧
    (plain sampleConstruct name).create "s" .sample = .ok "0" ∧
      (plain sampleConstruct name).create "t" .sample = .ok "1" := by
  obtain ⟨f, hrun⟩ := run_sampleCalls
  have hmade : ∀ i ∈ sampleCalls, i.made = sampleConstruct i.completionConfig.provider := by
    simp only [sampleCalls, List.forall_mem_cons]
    exact ⟨rfl, rfl, rfl, rfl, List.forall_mem_nil _⟩
  obtain ⟨name, hname⟩ := plain_of_run hrun hmade
  refine ⟨f, name, hrun, ?_, ?_⟩
  · exact hname ⟨"s", .sample, .ok 0⟩ (by simp [sampleResults])
  · exact hname ⟨"t", .sample, .ok 1⟩ (by simp [sampleResults])

end LlmPortFactoryAdapter
