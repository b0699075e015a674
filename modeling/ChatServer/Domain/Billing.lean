import ChatServer.Python.Basic
import Mathlib.Algebra.Order.Field.Rat
import Mathlib.Data.NNRat.Defs
import Mathlib.Tactic.Ring

/-!
# Token usage and its price

`domain/model/model_billing.py` and the value objects of
`domain/model/usage_stats.py`.  Token counts are naturals and prices
non-negative rationals, which is what the `ge=0` bounds of the pydantic models
say; arithmetic is exact.
-/

/-- `TokensUsage`. -/
@[ext]
structure TokensUsage where
  promptTokens : ℕ := 0
  completionTokens : ℕ := 0
deriving DecidableEq, Repr

/-- `TokensCost`. -/
@[ext]
structure TokensCost where
  promptTokens : ℚ≥0 := 0
  completionTokens : ℚ≥0 := 0
  totalTokens : ℚ≥0 := 0
deriving DecidableEq

namespace TokensUsage

/-- The usage of two calls together. -/
instance instAdd : Add TokensUsage :=
  ⟨fun a b ↦ ⟨a.promptTokens + b.promptTokens, a.completionTokens + b.completionTokens⟩⟩

instance instZero : Zero TokensUsage := ⟨⟨0, 0⟩⟩

@[simp] theorem promptTokens_add (a b : TokensUsage) :
    (a + b).promptTokens = a.promptTokens + b.promptTokens := rfl

@[simp] theorem completionTokens_add (a b : TokensUsage) :
    (a + b).completionTokens = a.completionTokens + b.completionTokens := rfl

@[simp] theorem promptTokens_zero : (0 : TokensUsage).promptTokens = 0 := rfl

@[simp] theorem completionTokens_zero : (0 : TokensUsage).completionTokens = 0 := rfl

instance instAddCommMonoid : AddCommMonoid TokensUsage where
  add_assoc a b c := TokensUsage.ext (Nat.add_assoc _ _ _) (Nat.add_assoc _ _ _)
  zero_add a := TokensUsage.ext (Nat.zero_add _) (Nat.zero_add _)
  add_zero a := TokensUsage.ext (Nat.add_zero _) (Nat.add_zero _)
  add_comm a b := TokensUsage.ext (Nat.add_comm _ _) (Nat.add_comm _ _)
  nsmul := nsmulRec

end TokensUsage

namespace TokensCost

/-- The price of two calls together. -/
instance instAdd : Add TokensCost :=
  ⟨fun a b ↦ ⟨a.promptTokens + b.promptTokens, a.completionTokens + b.completionTokens,
    a.totalTokens + b.totalTokens⟩⟩

instance instZero : Zero TokensCost := ⟨⟨0, 0, 0⟩⟩

@[simp] theorem promptTokens_add (a b : TokensCost) :
    (a + b).promptTokens = a.promptTokens + b.promptTokens := rfl

@[simp] theorem completionTokens_add (a b : TokensCost) :
    (a + b).completionTokens = a.completionTokens + b.completionTokens := rfl

@[simp] theorem totalTokens_add (a b : TokensCost) :
    (a + b).totalTokens = a.totalTokens + b.totalTokens := rfl

instance instAddCommMonoid : AddCommMonoid TokensCost where
  add_assoc a b c := TokensCost.ext (add_assoc _ _ _) (add_assoc _ _ _) (add_assoc _ _ _)
  zero_add a := TokensCost.ext (zero_add _) (zero_add _) (zero_add _)
  add_zero a := TokensCost.ext (add_zero _) (add_zero _) (add_zero _)
  add_comm a b := TokensCost.ext (add_comm _ _) (add_comm _ _) (add_comm _ _)
  nsmul := nsmulRec

end TokensCost

/-- `ModelBilling`: the rates of one provider/model pair. -/
@[ext]
structure ModelBilling where
  tokensPerPrice : ℕ
  baseInputTokens : ℚ≥0
  outputTokens : ℚ≥0
  tokensPerPrice_pos : 1 ≤ tokensPerPrice

namespace ModelBilling

instance : DecidableEq ModelBilling := fun _ _ ↦ decidable_of_iff' _ ModelBilling.ext_iff

/-- `ModelBilling.__init__`. -/
def init (tokensPerPrice : ℤ) (baseInputTokens outputTokens : ℚ) : Except PyExc ModelBilling :=
  if ht : tokensPerPrice < 1 then
    .error (.valueError s!"tokens_per_price must be >= 1, got {tokensPerPrice}")
  else if hb : baseInputTokens < 0 then
    .error (.valueError s!"base_input_tokens must be >= 0, got {baseInputTokens}")
  else if ho : outputTokens < 0 then
    .error (.valueError s!"output_tokens must be >= 0, got {outputTokens}")
  else
    .ok ⟨tokensPerPrice.toNat, ⟨baseInputTokens, not_lt.mp hb⟩, ⟨outputTokens, not_lt.mp ho⟩,
      Py.one_le_toNat ht⟩

/-- `estimate`. -/
def estimate (b : ModelBilling) (baseInputTokens outputTokens : ℕ) : TokensCost :=
  let promptTokens : ℚ≥0 := baseInputTokens * b.baseInputTokens / b.tokensPerPrice
  let completionTokens : ℚ≥0 := outputTokens * b.outputTokens / b.tokensPerPrice
  ⟨promptTokens, completionTokens, promptTokens + completionTokens⟩

/-- The estimate of a call, from its usage. -/
def estimateUsage (b : ModelBilling) (u : TokensUsage) : TokensCost :=
  b.estimate u.promptTokens u.completionTokens

/-- Prices are additive in the usage. -/
theorem estimateUsage_add (b : ModelBilling) (u v : TokensUsage) :
    b.estimateUsage (u + v) = b.estimateUsage u + b.estimateUsage v := by
  have hp : ∀ (x y : ℕ) (r : ℚ≥0), ((x + y : ℕ) : ℚ≥0) * r / b.tokensPerPrice =
      x * r / b.tokensPerPrice + y * r / b.tokensPerPrice := by
    intro x y r
    rw [Nat.cast_add, add_mul, add_div]
  refine TokensCost.ext ?_ ?_ ?_
  · exact hp _ _ _
  · exact hp _ _ _
  · change _ / _ + _ / _ = (_ / _ + _ / _) + (_ / _ + _ / _)
    rw [TokensUsage.promptTokens_add, TokensUsage.completionTokens_add, hp, hp]
    exact add_add_add_comm _ _ _ _

end ModelBilling
