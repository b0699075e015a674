import ChatServer.Accounting.Ledger
import ChatServer.Service.UseCases

/-!
# Every call at its own rate

A session is made under a price table, takes turns, is saved, and is loaded again
under the same table.  In all of that a pair of provider and model keeps exactly
the price of its tokens: whoever books a call looks the rate up under the
configuration the call was made with (`App.rates`), which is the pair the call is
booked under.

`App.life` runs the two use cases around the machine of a session.
-/

open FileTree Session

namespace App

/-- What can happen to a session that is kept in a store. -/
inductive Event where
  /-- A step of a turn. -/
  | turn (i : Session.Input)
  /-- `update_session`, between turns. -/
  | save (faults : List (Option Fault))
  /-- The session is dropped, at any point, and loaded again. -/
  | reload (ref : StatsRef)

/-- A session, and the tree it is saved in. -/
abbrev Life := (Session × Option Phase) × FileTree

section

variable [UnicodeData] [SessionCodec] [LlmPortFactory]

/-- One step. -/
def lifeStep (app : App) : Life → Event → Option (Life × List Session.Obs)
  | (c, t), .turn i => (Session.step c i).map fun r ↦ ((r.1, t), r.2)
  | ((s, none), t), .save faults =>
      match app.repository.updateSession t s faults with
      | (t', .ok ()) => some (((s, none), t'), [])
      | (_, .error _) => none
  | ((s, _), t), .reload ref =>
      match app.getSession t s.id ref with
      | .ok s' => some (((s', none), t), [])
      | .error _ => none
  | _, _ => none

/-- The machine of a session that is saved and loaded. -/
def life (app : App) : Mealy Life Event Session.Obs := ⟨app.lifeStep⟩

end

/-! ## The rates -/

/-- Each entry costs what the table charges for its tokens, and nothing is charged
for a pair the table does not price. -/
def Priced (app : App) (d : StatsData) : Prop :=
  ∀ p m stats, d.entry p m = some stats →
    stats.cost = (app.modelBillingFactory.create p m).map (·.estimateUsage stats.usage)

/-- Two statistics of one pair merge into the price of all their tokens. -/
theorem cost_merge {b : Option ModelBilling} {x y : ModelStats}
    (hx : x.cost = b.map (·.estimateUsage x.usage))
    (hy : y.cost = b.map (·.estimateUsage y.usage)) :
    (x.merge y).cost = b.map (·.estimateUsage (x.merge y).usage) := by
  rw [ModelStats.merge, hx, hy]
  cases b with
  | none => rfl
  | some b => exact congrArg some (b.estimateUsage_add x.usage y.usage).symm

theorem Priced.addStats {app : App} {acc : UsageStatsAccumulator} (h : app.Priced acc.data)
    (p m : String) (usage : TokensUsage) :
    app.Priced (acc.addStats p m usage
      ((app.modelBillingFactory.create p m).map (·.estimateUsage usage))).data := by
  intro p' m' stats hstats
  rw [UsageStatsAccumulator.entry_addStats] at hstats
  split at hstats
  · rename_i hpm
    obtain ⟨rfl, rfl⟩ := hpm
    cases hentry : acc.data.entry p m with
    | none =>
        rw [hentry] at hstats
        cases hstats
        rfl
    | some existing =>
        rw [hentry] at hstats
        cases hstats
        exact cost_merge (h p m existing hentry) rfl
  · exact h p' m' stats hstats

/-- The configuration one of the two LLMs is called with. -/
def configOf (s : Session) : Role → CompletionConfig
  | .main => s.completionConfig
  | .summary => s.messageContextStrategy.completionConfig

/-- An `LlmAdapter` reports the provider and model of the configuration it was
called with. -/
def Reports (c : Session × Option Phase) (i : Session.Input) : Prop :=
  ∀ r event, arrival c i = some r → r.event = .completionDone event →
    event.provider = (configOf c.1 r.role).provider ∧ event.model = (configOf c.1 r.role).model

theorem Built.wired [LlmPortFactory] {app : App} {sessionId : String} {s : Session}
    (h : app.Built sessionId s) : Wired (app.rates s) s := by
  obtain ⟨⟨main, -, hmain⟩, ⟨summary, -, hsummary⟩⟩ := h
  exact ⟨⟨.port main, hmain, rfl⟩, ⟨.port summary, hsummary, rfl⟩⟩

section

variable [UnicodeData]

/-- A step of a turn keeps the rates of a session. -/
theorem Built.step [LlmPortFactory] {app : App} {sessionId : String}
    {c c' : Session × Option Phase} {i : Session.Input} {o : List Session.Obs}
    (hb : app.Built sessionId c.1) (h : Step c i c' o)
    (hi : ∀ strategy, i ≠ .setStrategy strategy) : app.Built sessionId c'.1 := by
  obtain ⟨-, -, hconfig, href, hstats⟩ := h.frame
  obtain ⟨hllm, hstrategyConfig⟩ := h.strategy hi
  obtain ⟨⟨main, hmain, hmainLlm⟩, ⟨summary, hsummary, hsummaryLlm⟩⟩ := hb
  refine ⟨⟨main, by rw [hconfig]; exact hmain, ?_⟩,
    ⟨summary, by rw [hstrategyConfig]; exact hsummary, ?_⟩⟩
  · rw [hstats, hmainLlm, href, rates, rates, hconfig]
  · rw [hllm, hsummaryLlm, href, rates, rates, hstrategyConfig]

/-- A step of a turn books at the rates of the table. -/
theorem Priced.step [LlmPortFactory] {app : App} {sessionId : String}
    {c c' : Session × Option Phase} {i : Session.Input} {o : List Session.Obs}
    (hp : app.Priced c.1.usageStats.lifecycleTotalData) (hb : app.Built sessionId c.1)
    (h : Step c i c' o) (hreports : Reports c i) :
    app.Priced c'.1.usageStats.lifecycleTotalData := by
  have hstats : c'.1.usageStats.lifecycleTotal =
      c.1.usageStats.lifecycleTotal.addAll (contributions (app.rates c.1) o) := by
    rw [h.usageStats, hb.wired.billed h]
    split <;> rfl
  rw [SessionUsageStats.lifecycleTotalData, hstats, contributions, h.receipts]
  cases ha : arrival c i with
  | none => exact hp
  | some r =>
      rw [Option.toList_some, List.flatMap_singleton, contribution]
      cases hevent : r.event with
      | textChunk text => exact hp
      | completionDone event =>
          obtain ⟨hprovider, hmodel⟩ := hreports r event ha hevent
          have hrate : app.rates c.1 r.role =
              app.modelBillingFactory.create event.provider event.model := by
            rw [hprovider, hmodel]
            cases r.role <;> rfl
          rw [hrate]
          exact hp.addStats event.provider event.model event.tokensUsage

end

/-- What a step of a life may rely on: a turn installs no other strategy and its LLMs
are `LlmAdapter`s, and a session is saved in a form that can be decoded. -/
def Faithful [SessionCodec] (l : Life) : Event → Prop
  | .turn i => (∀ strategy, i ≠ .setStrategy strategy) ∧ Reports l.1 i
  | .save _ => SessionFileAdapter.RoundTrips l.1.1
  | .reload _ => True

/-- A turn is faithful when a final event names the configured model. -/
theorem faithful_turn [SessionCodec] {l : Life} {i : Session.Input}
    (hset : ∀ strategy, i ≠ .setStrategy strategy)
    (h : ∀ event, i = .event (.completionDone event) → ∀ role,
      event.provider = (configOf l.1.1 role).provider ∧
        event.model = (configOf l.1.1 role).model) : Faithful l (.turn i) := by
  refine ⟨hset, fun r event hr he ↦ ?_⟩
  rcases of_arrival hr with ⟨_, _, e, -, rfl, rfl⟩ | ⟨_, _, e, -, rfl, rfl⟩
  · exact h event (congrArg Session.Input.event he) .main
  · exact h event (congrArg Session.Input.event he) .summary

/-! ## Over a life -/

section

/-- What is priced in a session is priced in the tree it was written to. -/
theorem priced_of_written [SessionCodec] {app : App} {t : FileTree} {s : Session}
    (hround : SessionFileAdapter.RoundTrips s) (h : app.repository.Written t s)
    (hp : app.Priced s.usageStats.lifecycleTotalData) (state : SessionState)
    (hstate : app.repository.getSession t s.id = .ok state) :
    state.id = s.id ∧ app.Priced (state.statistics.getD ∅) := by
  obtain ⟨hid, hget⟩ := SessionFileAdapter.getSession_of_written hround h
  rw [hstate] at hget
  obtain ⟨c, -, hget⟩ := Py.bind_eq_ok.mp hget.symm
  obtain ⟨c', -, hget⟩ := Py.bind_eq_ok.mp hget
  cases hget
  refine ⟨rfl, ?_⟩
  rw [SessionFileAdapter.stateOf, StatsData.getD_orNone]
  exact hp

variable [SessionCodec] [LlmPortFactory]

/-- A session is billed at its own rates, its totals are priced, and so is whatever
the store would return for it. -/
structure Sound (app : App) (l : Life) : Prop where
  built : app.Built l.1.1.id l.1.1
  priced : app.Priced l.1.1.usageStats.lifecycleTotalData
  stored : ∀ state, app.repository.getSession l.2 l.1.1.id = .ok state →
    state.id = l.1.1.id ∧ app.Priced (state.statistics.getD ∅)

theorem Sound.step [UnicodeData] {app : App} {l l' : Life} {e : Event} {o : List Session.Obs}
    (hl : app.Sound l) (he : Faithful l e) (h : app.lifeStep l e = some (l', o)) :
    app.Sound l' := by
  obtain ⟨⟨s, p⟩, t⟩ := l
  cases e with
  | turn i =>
      obtain ⟨⟨c', o'⟩, hstep, h⟩ := Option.map_eq_some_iff.mp h
      cases h
      obtain ⟨hset, hreports⟩ := he
      have hs := Step.of_step hstep
      have hid : c'.1.id = s.id := hs.frame.id
      refine ⟨?_, hl.priced.step hl.built hs hreports, ?_⟩
      · rw [hid]
        exact hl.built.step hs hset
      · rw [hid]
        exact hl.stored
  | save faults =>
      cases p with
      | some p => cases h
      | none =>
          simp only [lifeStep] at h
          split at h
          · rename_i t' hupdate
            cases h
            exact ⟨hl.built, hl.priced,
              priced_of_written he (.of_updateSession hupdate) hl.priced⟩
          · cases h
  | reload ref =>
      simp only [lifeStep] at h
      split at h
      · rename_i s' hget
        cases h
        obtain ⟨state, hstate, hrestore⟩ := Py.bind_eq_ok.mp hget
        obtain ⟨hid, hpriced⟩ := hl.stored state hstate
        obtain ⟨hbuilt, hid', hstats⟩ := Built.of_restoreSession hrestore
        have hsame : s'.id = s.id := hid'.trans hid
        refine ⟨?_, ?_, ?_⟩
        · rw [hsame]
          exact hbuilt
        · rw [hstats]
          exact hpriced
        · rw [hsame]
          exact hl.stored
      · cases h

/-- After any turns, saves and reloads under one table, each pair of provider and
model in the totals of a session costs what the table charges for its tokens, or
`None` if the table does not price it. -/
theorem cost_of_life [UnicodeData] {app : App} {t₀ t₁ : FileTree} {sessionId : String}
    {now : Datetime} {ref : StatsRef} {faults : List (Option Fault)} {s₀ : Session} {l : Life}
    {events : List Event} {o : List Session.Obs}
    (hcreate : app.createSession t₀ sessionId now ref faults = (t₁, .ok s₀))
    (hround : SessionFileAdapter.RoundTrips s₀)
    (h : app.life.run ((s₀, none), t₁) events = some (l, o))
    (hfaithful : ∀ before e l' o', before ++ [e] <+: events →
      app.life.run ((s₀, none), t₁) before = some (l', o') → Faithful l' e) :
    ∀ p m stats, l.1.1.usageStats.lifecycleTotalData.entry p m = some stats →
      stats.cost = (app.modelBillingFactory.create p m).map (·.estimateUsage stats.usage) := by
  obtain ⟨hbuild, hwritten⟩ := createSession_ok hcreate
  obtain ⟨hbuilt, hid, -, hempty⟩ := Built.of_buildSession hbuild
  have hpriced : app.Priced s₀.usageStats.lifecycleTotalData := by
    intro p m stats hstats
    rw [hempty] at hstats
    cases hstats
  have hsound : app.Sound l :=
    Mealy.run_induction_of_steps (P := fun _ l _ ↦ app.Sound l) (Q := Faithful)
      ⟨hid ▸ hbuilt, hpriced, priced_of_written hround hwritten hpriced⟩
      (fun _ _ _ _ _ _ hl he hs ↦ hl.step he hs) h hfaithful
  exact hsound.priced

end

/-- The first call of the session `s`, saved and loaded again. -/
def sampleEvents : List Event := sampleCall.map .turn ++ [.save [], .reload ⟨1⟩]

/-- One token in and two tokens out cost the same after they have been stored. -/
theorem cost_of_life_sample :
    ∃ t₁ l o, @createSession sampleFactory sampleCodec sample sampleTree "s" ⟨0⟩ ⟨0⟩ [] =
        (t₁, .ok sampleSession) ∧
      (@life .asciiOnly sampleCodec sampleFactory sample).run ((sampleSession, none), t₁)
        sampleEvents = some (l, o) ∧
      l.1.1.usageStats.lifecycleTotalData.entry "p" "m" = some ⟨⟨1, 2⟩, some ⟨1 / 2, 2, 5 / 2⟩⟩ ∧
      some ⟨1 / 2, 2, 5 / 2⟩ =
        (sample.modelBillingFactory.create "p" "m").map (·.estimateUsage ⟨1, 2⟩) := by
  let t₁ := (@createSession sampleFactory sampleCodec sample sampleTree "s" ⟨0⟩ ⟨0⟩ []).1
  let M := @life .asciiOnly sampleCodec sampleFactory sample
  have hcreate : @createSession sampleFactory sampleCodec sample sampleTree "s" ⟨0⟩ ⟨0⟩ [] =
      (t₁, .ok sampleSession) := Prod.snd_eq_iff.mp (by decide +kernel)
  obtain ⟨⟨l, o⟩, hrun, hentry⟩ := Option.map_eq_some_iff.mp
    (show (M.run ((sampleSession, none), t₁) sampleEvents).map (fun r ↦
      r.1.1.1.usageStats.lifecycleTotalData.entry "p" "m") =
        some (some ⟨⟨1, 2⟩, some ⟨1 / 2, 2, 5 / 2⟩⟩) by decide +kernel)
  refine ⟨t₁, l, o, hcreate, hrun, hentry, ?_⟩
  refine @cost_of_life sampleCodec sampleFactory .asciiOnly sample sampleTree t₁ "s" ⟨0⟩ ⟨0⟩ []
    sampleSession l sampleEvents o hcreate (roundTrips_sample rfl rfl rfl rfl (Or.inl ⟨rfl, rfl⟩))
    hrun ?_ "p" "m" _ hentry
  rintro before e l' o' ⟨rest, hrest⟩ hr
  -- the final event arrives in the fourth step, and the seventh saves
  have hconfig : before = sampleEvents.take 3 →
      configOf l'.1.1 .main = .sample ∧ configOf l'.1.1 .summary = .sample := by
    rintro rfl
    have heval := congrArg (Option.map fun r ↦
      (configOf r.1.1.1 .main, configOf r.1.1.1 .summary)) hr
    rw [show (M.run ((sampleSession, none), t₁) (sampleEvents.take 3)).map _ =
      some (CompletionConfig.sample, CompletionConfig.sample) by decide +kernel] at heval
    obtain ⟨hm, hs⟩ := Prod.mk.inj (Option.some.inj heval)
    exact ⟨hm.symm, hs.symm⟩
  have hsaved : before = sampleEvents.take 6 → sampleTold = l'.1.1 := by
    rintro rfl
    have heval := congrArg (Option.map fun r ↦ r.1.1.1) hr
    rw [show (M.run ((sampleSession, none), t₁) (sampleEvents.take 6)).map _ =
      some sampleTold by decide +kernel] at heval
    exact Option.some.inj heval
  rw [List.append_assoc, List.singleton_append] at hrest
  rcases before with _ | ⟨e₁, _ | ⟨e₂, _ | ⟨e₃, _ | ⟨e₄, _ | ⟨e₅, _ | ⟨e₆, _ | ⟨e₇, before⟩⟩⟩⟩⟩⟩⟩
    <;> simp [sampleEvents, sampleCall] at hrest
  · obtain ⟨rfl, -⟩ := hrest
    exact @faithful_turn sampleCodec _ _ (by simp) (by simp)
  · obtain ⟨rfl, rfl, -⟩ := hrest
    exact @faithful_turn sampleCodec _ _ (by simp) (by simp)
  · obtain ⟨rfl, rfl, rfl, -⟩ := hrest
    exact @faithful_turn sampleCodec _ _ (by simp) (by simp)
  · obtain ⟨rfl, rfl, rfl, rfl, -⟩ := hrest
    obtain ⟨hm, hs⟩ := hconfig rfl
    refine @faithful_turn sampleCodec _ _ (by simp) ?_
    rintro _ ⟨⟩ (_ | _)
    · rw [hm]
      exact ⟨rfl, rfl⟩
    · rw [hs]
      exact ⟨rfl, rfl⟩
  · obtain ⟨rfl, rfl, rfl, rfl, rfl, -⟩ := hrest
    exact @faithful_turn sampleCodec _ _ (by simp) (by simp)
  · obtain ⟨rfl, rfl, rfl, rfl, rfl, rfl, -⟩ := hrest
    exact @faithful_turn sampleCodec _ _ (by simp) (by simp)
  · obtain ⟨rfl, rfl, rfl, rfl, rfl, rfl, rfl, -⟩ := hrest
    show @SessionFileAdapter.RoundTrips sampleCodec l'.1.1
    rw [← hsaved rfl]
    exact roundTrips_sample rfl rfl rfl rfl (Or.inr ⟨rfl, by decide +kernel⟩)
  · obtain ⟨-, -, -, -, -, -, -, hlast⟩ := hrest
    rcases List.append_eq_singleton_iff.mp hlast with ⟨-, h⟩ | ⟨-, h⟩
    · cases h
      trivial
    · cases h

end App
