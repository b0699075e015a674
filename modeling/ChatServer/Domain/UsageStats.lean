import ChatServer.Lib.OrderedDict
import ChatServer.Domain.Billing
import Mathlib.Algebra.BigOperators.Group.List.Basic
import Mathlib.Data.List.Induction

/-!
# Usage statistics

`domain/model/usage_stats.py`: the accumulator per provider and model
(`UsageStatsAccumulator`) and the pair of them a session owns
(`SessionUsageStats`).

The second half is the specification.  A `Contribution` is one call of
`add_stats`; `Contribution.total` says what a list of them amounts to for one
provider and model — the sum of the usages, and the sum of the costs with
`None` as zero unless every cost is `None`.  `entry_addAll` is the connection:
an accumulator fed with contributions holds exactly their total.
-/

/-- `ModelStats`. -/
@[ext]
structure ModelStats where
  usage : TokensUsage
  cost : Option TokensCost := none
deriving DecidableEq

/-- The cost of two calls together: `None` counts as zero, unless both are. -/
def addCost : Option TokensCost → Option TokensCost → Option TokensCost
  | none, none => none
  | ex, ev => some (ex.getD 0 + ev.getD 0)

/-- What `add_stats` stores for a pair that already has an entry. -/
def ModelStats.merge (existing new : ModelStats) : ModelStats :=
  ⟨existing.usage + new.usage, addCost existing.cost new.cost⟩

/-- Statistics per provider and model. -/
abbrev StatsData := OrderedDict String (OrderedDict String ModelStats)

/-- The entry of one provider and model. -/
def StatsData.entry (d : StatsData) (provider model : String) : Option ModelStats :=
  (d.get? provider).bind (·.get? model)

/-- The tokens one provider and model account for. -/
def StatsData.usage (d : StatsData) (provider model : String) : TokensUsage :=
  ((d.entry provider model).map (·.usage)).getD 0

/-- Their price, where it is known. -/
def StatsData.cost (d : StatsData) (provider model : String) : Option TokensCost :=
  (d.entry provider model).bind (·.cost)

/-- `UsageStatsAccumulator`. -/
structure UsageStatsAccumulator where
  data : StatsData := ∅
deriving DecidableEq

namespace UsageStatsAccumulator

/-- `zero`. -/
def zero (_ : UsageStatsAccumulator) : UsageStatsAccumulator := ⟨∅⟩

/-- `add_stats`. -/
def addStats (acc : UsageStatsAccumulator) (provider model : String) (usage : TokensUsage)
    (cost : Option TokensCost) : UsageStatsAccumulator :=
  let providerData := (acc.data.get? provider).getD ∅
  let entry :=
    match providerData.get? model with
    | none => ⟨usage, cost⟩
    | some existing => existing.merge ⟨usage, cost⟩
  ⟨acc.data.set provider (providerData.set model entry)⟩

end UsageStatsAccumulator

/-- `SessionUsageStats`: one accumulator for the session's life, one for the
current call. -/
structure SessionUsageStats where
  lifecycleTotal : UsageStatsAccumulator := {}
  currentInvocation : UsageStatsAccumulator := {}
deriving DecidableEq

namespace SessionUsageStats

/-- `SessionUsageStats.__init__`. -/
def init (data : Option StatsData) : SessionUsageStats := { lifecycleTotal := ⟨data.getD ∅⟩ }

/-- `add_stats`. -/
def addStats (s : SessionUsageStats) (provider model : String) (usage : TokensUsage)
    (cost : Option TokensCost) : SessionUsageStats where
  currentInvocation := s.currentInvocation.addStats provider model usage cost
  lifecycleTotal := s.lifecycleTotal.addStats provider model usage cost

/-- `begin_invocation`. -/
def beginInvocation (s : SessionUsageStats) : SessionUsageStats :=
  { s with currentInvocation := s.currentInvocation.zero }

/-- `current_invocation_data`. -/
def currentInvocationData (s : SessionUsageStats) : StatsData := s.currentInvocation.data

/-- `lifecycle_total_data`. -/
def lifecycleTotalData (s : SessionUsageStats) : StatsData := s.lifecycleTotal.data

@[simp] theorem lifecycleTotalData_init (data : Option StatsData) :
    (init data).lifecycleTotalData = data.getD ∅ := rfl

@[simp] theorem lifecycleTotalData_beginInvocation (s : SessionUsageStats) :
    s.beginInvocation.lifecycleTotalData = s.lifecycleTotalData := rfl

@[simp] theorem currentInvocationData_beginInvocation (s : SessionUsageStats) :
    s.beginInvocation.currentInvocationData = ∅ := rfl

end SessionUsageStats

/-- `data or None`: an empty statistics dictionary is stored as absent. -/
def StatsData.orNone (d : StatsData) : Option StatsData := if d.isEmpty then none else some d

@[simp] theorem StatsData.getD_orNone (d : StatsData) : d.orNone.getD ∅ = d := by
  unfold StatsData.orNone
  split
  · rename_i h
    exact (OrderedDict.isEmpty_iff.mp h).symm
  · rfl

/-! ## What a list of calls adds up to -/

/-- One call of `add_stats`. -/
structure Contribution where
  provider : String
  model : String
  stats : ModelStats
deriving DecidableEq

namespace Contribution

/-- Whether a contribution concerns this provider and model. -/
def For (provider model : String) (c : Contribution) : Prop :=
  c.provider = provider ∧ c.model = model

instance (provider model : String) : DecidablePred (For provider model) :=
  fun _ ↦ inferInstanceAs (Decidable (_ ∧ _))

/-- The statistics contributed to one provider and model. -/
def statsFor (cs : List Contribution) (provider model : String) : List ModelStats :=
  (cs.filter (For provider model)).map (·.stats)

/-- The sum of costs: `None` when all of them are, else the sum with `None` as
zero. -/
def totalCost (costs : List (Option TokensCost)) : Option TokensCost :=
  if ∀ c ∈ costs, c = none then none else some (costs.map (·.getD 0)).sum

/-- The sum of a list of statistics; `none` for the empty list. -/
def sumStats (xs : List ModelStats) : Option ModelStats :=
  if xs = [] then none else some ⟨(xs.map (·.usage)).sum, totalCost (xs.map (·.cost))⟩

/-- What the contributions amount to for one provider and model. -/
def total (cs : List Contribution) (provider model : String) : Option ModelStats :=
  sumStats (statsFor cs provider model)

/-- The tokens contributed to one provider and model. -/
def usageFor (cs : List Contribution) (provider model : String) : TokensUsage :=
  ((statsFor cs provider model).map (·.usage)).sum

@[simp] theorem statsFor_nil (p m : String) : statsFor [] p m = [] := rfl

@[simp] theorem statsFor_append (cs ds : List Contribution) (p m : String) :
    statsFor (cs ++ ds) p m = statsFor cs p m ++ statsFor ds p m := by
  simp [statsFor]

@[simp] theorem usageFor_nil (p m : String) : usageFor [] p m = 0 := rfl

@[simp] theorem usageFor_append (cs ds : List Contribution) (p m : String) :
    usageFor (cs ++ ds) p m = usageFor cs p m + usageFor ds p m := by
  simp [usageFor]

/-- The tokens of one pair, as a sum over all contributions. -/
theorem usageFor_eq_sum (cs : List Contribution) (p m : String) :
    usageFor cs p m =
      (cs.map fun c ↦ if c.provider = p ∧ c.model = m then c.stats.usage else 0).sum := by
  induction cs with
  | nil => rfl
  | cons c cs ih =>
      rw [List.map_cons, List.sum_cons, ← ih, ← List.singleton_append, usageFor_append]
      congr 1
      by_cases h : c.provider = p ∧ c.model = m
      · simp [usageFor, statsFor, For, h]
      · simp [usageFor, statsFor, For, h]

theorem totalCost_concat (costs : List (Option TokensCost)) (c : Option TokensCost) :
    totalCost (costs ++ [c]) = addCost (totalCost costs) c := by
  by_cases h : ∀ d ∈ costs, d = none
  · have hz : (costs.map (·.getD 0)).sum = (0 : TokensCost) := by
      refine List.sum_eq_zero fun x hx ↦ ?_
      obtain ⟨d, hd, rfl⟩ := List.mem_map.mp hx
      rw [h d hd]
      rfl
    have ht : totalCost costs = none := if_pos h
    cases c with
    | none =>
        have hall : ∀ d ∈ costs ++ [none], d = none := by
          intro d hd
          rcases List.mem_append.mp hd with hd | hd
          · exact h d hd
          · exact List.mem_singleton.mp hd
        rw [ht, totalCost, if_pos hall]
        rfl
    | some x =>
        have hnot : ¬ ∀ d ∈ costs ++ [some x], d = none := fun hall ↦
          Option.some_ne_none x (hall (some x) (by simp))
        rw [ht, totalCost, if_neg hnot, List.map_append, List.sum_append, hz]
        simp [addCost]
  · have hnot : ¬ ∀ d ∈ costs ++ [c], d = none := fun hall ↦
      h fun d hd ↦ hall d (List.mem_append_left _ hd)
    rw [totalCost, if_neg hnot, totalCost, if_neg h, List.map_append, List.sum_append]
    cases c <;> simp [addCost]

/-- One more contribution merges into the sum. -/
theorem sumStats_concat (xs : List ModelStats) (x : ModelStats) :
    sumStats (xs ++ [x]) =
      some (match sumStats xs with | none => x | some t => t.merge x) := by
  by_cases h : xs = []
  · subst h
    have hc : totalCost [x.cost] = x.cost := by
      cases hx : x.cost <;> simp [totalCost]
    simp [sumStats, hc]
  · simp [sumStats, h, ModelStats.merge, totalCost_concat]

end Contribution

/-! ## The accumulators compute the total -/

namespace UsageStatsAccumulator

/-- `add_stats` merges into the entry of its own pair and leaves the others. -/
theorem entry_addStats (acc : UsageStatsAccumulator) (provider model p m : String)
    (usage : TokensUsage) (cost : Option TokensCost) :
    (acc.addStats provider model usage cost).data.entry p m =
      if provider = p ∧ model = m then
        some (match acc.data.entry p m with
          | none => ⟨usage, cost⟩
          | some existing => existing.merge ⟨usage, cost⟩)
      else acc.data.entry p m := by
  have hget : ∀ q, (acc.data.get? p).bind (·.get? q) = ((acc.data.get? p).getD ∅).get? q := by
    intro q
    cases acc.data.get? p <;> rfl
  by_cases hp : provider = p
  · subst hp
    by_cases hm : model = m
    · subst hm
      simp only [StatsData.entry, addStats, OrderedDict.get?_set_self, Option.bind_some,
        and_self, if_true, hget]
    · simp only [StatsData.entry, addStats, OrderedDict.get?_set_self, Option.bind_some,
        OrderedDict.get?_set_of_ne _ _ hm, hm, and_false, if_false, hget]
  · simp only [StatsData.entry, addStats, OrderedDict.get?_set_of_ne _ _ hp, hp, false_and,
      if_false]

/-- Feed a list of contributions. -/
def addAll (acc : UsageStatsAccumulator) (cs : List Contribution) : UsageStatsAccumulator :=
  cs.foldl (fun acc c ↦ acc.addStats c.provider c.model c.stats.usage c.stats.cost) acc

/-- An accumulator that starts from a total holds the total of what it is fed
after it: feeding contributions is summing them. -/
theorem entry_addAll {acc : UsageStatsAccumulator} {p m : String} {xs : List ModelStats}
    (h : acc.data.entry p m = Contribution.sumStats xs) (cs : List Contribution) :
    (acc.addAll cs).data.entry p m =
      Contribution.sumStats (xs ++ Contribution.statsFor cs p m) := by
  induction cs using List.reverseRecOn with
  | nil => simpa [addAll] using h
  | append_singleton cs c ih =>
      rw [addAll, List.foldl_append, List.foldl_cons, List.foldl_nil, entry_addStats,
        Contribution.statsFor_append]
      rw [addAll] at ih
      by_cases hc : c.provider = p ∧ c.model = m
      · have hs : Contribution.statsFor [c] p m = [c.stats] := by
          simp [Contribution.statsFor, Contribution.For, hc]
        rw [if_pos hc, hs, ← List.append_assoc, Contribution.sumStats_concat, ih]
      · have hs : Contribution.statsFor [c] p m = [] := by
          simp [Contribution.statsFor, Contribution.For, hc]
        rw [if_neg hc, hs, List.append_nil, ih]

/-- The entry an accumulator starts with, as a list of one contribution or none. -/
theorem sumStats_toList (e : Option ModelStats) : Contribution.sumStats e.toList = e := by
  cases e with
  | none => rfl
  | some x => exact Contribution.sumStats_concat [] x

/-- From the empty accumulator, feeding contributions gives exactly their total. -/
theorem entry_addAll_empty (cs : List Contribution) (p m : String) :
    (UsageStatsAccumulator.addAll {} cs).data.entry p m = Contribution.total cs p m :=
  @entry_addAll {} p m [] rfl cs

/-- Feeding contributions adds their tokens to what was there. -/
theorem usage_addAll (acc : UsageStatsAccumulator) (cs : List Contribution) (p m : String) :
    (acc.addAll cs).data.usage p m = acc.data.usage p m + Contribution.usageFor cs p m := by
  have hsum : ∀ xs, ((Contribution.sumStats xs).map (·.usage)).getD 0 =
      (xs.map (·.usage)).sum := by
    intro xs
    unfold Contribution.sumStats
    split
    · rename_i h
      rw [h]
      rfl
    · rfl
  have hacc := sumStats_toList (acc.data.entry p m)
  rw [StatsData.usage, entry_addAll hacc.symm cs, hsum, List.map_append, List.sum_append,
    ← hsum, hacc]
  rfl

/-- A price that is known stays known, and what is fed is added to it. -/
theorem cost_addAll {acc : UsageStatsAccumulator} {p m : String} {cost : TokensCost}
    (h : acc.data.cost p m = some cost) (cs : List Contribution) :
    ∃ added, (acc.addAll cs).data.cost p m = some (cost + added) := by
  induction cs using List.reverseRecOn with
  | nil => exact ⟨0, by rwa [add_zero]⟩
  | append_singleton cs c ih =>
      obtain ⟨added, hadded⟩ := ih
      rw [addAll] at hadded
      rw [addAll, List.foldl_append, List.foldl_cons, List.foldl_nil, StatsData.cost,
        entry_addStats]
      by_cases hc : c.provider = p ∧ c.model = m
      · obtain ⟨existing, hentry, hcost⟩ := Option.bind_eq_some_iff.mp hadded
        refine ⟨added + c.stats.cost.getD 0, ?_⟩
        rw [if_pos hc, hentry, Option.bind_some, ← add_assoc]
        show addCost existing.cost c.stats.cost = _
        rw [hcost]
        rfl
      · rw [if_neg hc]
        exact ⟨added, hadded⟩

end UsageStatsAccumulator
