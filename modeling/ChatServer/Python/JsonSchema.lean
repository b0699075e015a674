import ChatServer.Python.Json
import Mathlib.Data.List.Nodup

/-!
# JSON schemas

Schemas made of `type`, `properties`, `items` and `required`, as JSON values, and the values they
describe.  A schema without `type` asks for nothing; any other keyword is passed over.

What the elements of an array are checked against is a parameter: with `id` it is the schema of
the items as it stands, and a validator that looks at part of it only is another instance.
-/

namespace JsonSchema

/-- The scalar types. -/
inductive Scalar where
  | string | integer | number | boolean
deriving DecidableEq, Repr

namespace Scalar

/-- The name of a type in a schema. -/
def name : Scalar → String
  | string => "string"
  | integer => "integer"
  | number => "number"
  | boolean => "boolean"

/-- The values of a type.  An integer is a number, a truth value is not. -/
def holds : Scalar → Json → Bool
  | string, .str _ => true
  | integer, .int _ => true
  | number, .int _ => true
  | number, .float _ => true
  | number, .infinity _ => true
  | number, .nan => true
  | boolean, .bool _ => true
  | _, _ => false

theorem name_injective : Function.Injective name := by
  intro t t' h
  cases t <;> cases t' <;> first | rfl | (exact absurd h (by decide))

theorem name_ne_array (t : Scalar) : t.name ≠ "array" := by
  cases t <;> decide

theorem name_ne_object (t : Scalar) : t.name ≠ "object" := by
  cases t <;> decide

/-- A value of a type. -/
def sample : Scalar → Json
  | string => .str ""
  | integer => .int 0
  | number => .int 0
  | boolean => .bool false

/-- A value that is not of a type. -/
def other : Scalar → Json
  | string => .int 0
  | integer => .str ""
  | number => .str ""
  | boolean => .int 0

@[simp] theorem holds_sample (t : Scalar) : t.holds t.sample = true := by cases t <;> rfl

@[simp] theorem holds_other (t : Scalar) : t.holds t.other = false := by cases t <;> rfl

@[simp] theorem holds_null (t : Scalar) : t.holds .null = false := by cases t <;> rfl

theorem other_ne_null (t : Scalar) : t.other ≠ .null := by
  cases t <;> (intro h; cases h)

end Scalar

/-! ## Schemas -/

/-- What a schema says at its root. -/
inductive Head where
  | any
  | scalar (t : Scalar)
  | array (items : Json)
  | object (properties : List (String × Json)) (required : List String)

/-- The root of a schema, read as `dict.get` reads it: without `items` or `properties` the
schema is that of the empty object, without `required` it is the empty list. -/
inductive Reads : Json → Head → Prop
  | any {entries : List (String × Json)} (type : entries.lookup "type" = none) :
      Reads (.obj entries) .any
  | scalar {entries : List (String × Json)} {t : Scalar}
      (type : entries.lookup "type" = some (.str t.name)) : Reads (.obj entries) (.scalar t)
  | array {entries : List (String × Json)} (type : entries.lookup "type" = some (.str "array")) :
      Reads (.obj entries) (.array ((entries.lookup "items").getD (.obj [])))
  | object {entries properties : List (String × Json)} {required : List String}
      (type : entries.lookup "type" = some (.str "object"))
      (hproperties : (entries.lookup "properties").getD (.obj []) = .obj properties)
      (hrequired : (entries.lookup "required").getD (.arr []) = .arr (required.map .str)) :
      Reads (.obj entries) (.object properties required)

/-- A schema is an object. -/
theorem Reads.entries {s : Json} {head : Head} (h : Reads s head) :
    ∃ entries, s = .obj entries := by
  cases h <;> exact ⟨_, rfl⟩

theorem str_injective : Function.Injective Json.str := fun _ _ h ↦ Json.str.inj h

/-- A schema says one thing. -/
theorem Reads.unique {s : Json} {head head' : Head} (h : Reads s head) (h' : Reads s head') :
    head = head' := by
  cases h with
  | any type =>
      cases h' with
      | any => rfl
      | scalar type' | array type' | object type' => cases type.symm.trans type'
  | scalar type =>
      cases h' with
      | any type' => cases type.symm.trans type'
      | scalar type' =>
          have hname := Json.str.inj (Option.some.inj (type.symm.trans type'))
          rw [Scalar.name_injective hname]
      | array type' =>
          exact absurd (Json.str.inj (Option.some.inj (type.symm.trans type')))
            (Scalar.name_ne_array _)
      | object type' =>
          exact absurd (Json.str.inj (Option.some.inj (type.symm.trans type')))
            (Scalar.name_ne_object _)
  | array type =>
      cases h' with
      | any type' => cases type.symm.trans type'
      | scalar type' =>
          exact absurd (Json.str.inj (Option.some.inj (type'.symm.trans type)))
            (Scalar.name_ne_array _)
      | array => rfl
      | object type' =>
          exact absurd (Json.str.inj (Option.some.inj (type.symm.trans type'))) (by decide)
  | object type hproperties hrequired =>
      cases h' with
      | any type' => cases type.symm.trans type'
      | scalar type' =>
          exact absurd (Json.str.inj (Option.some.inj (type'.symm.trans type)))
            (Scalar.name_ne_object _)
      | array type' =>
          exact absurd (Json.str.inj (Option.some.inj (type.symm.trans type'))) (by decide)
      | object type' hproperties' hrequired' =>
          cases hproperties.symm.trans hproperties'
          have hnames := Json.arr.inj (hrequired.symm.trans hrequired')
          rw [str_injective.list_map hnames]

/-- The schemas of the language: those of all items and properties belong to it, and an object
has every property once. -/
inductive IsSchema : Json → Prop
  | any {s : Json} (h : Reads s .any) : IsSchema s
  | scalar {s : Json} {t : Scalar} (h : Reads s (.scalar t)) : IsSchema s
  | array {s items : Json} (h : Reads s (.array items)) (hitems : IsSchema items) : IsSchema s
  | object {s : Json} {properties : List (String × Json)} {required : List String}
      (h : Reads s (.object properties required)) (nodup : (properties.map Prod.fst).Nodup)
      (hproperties : ∀ p ∈ properties, IsSchema p.2) : IsSchema s

theorem IsSchema.reads {s : Json} (h : IsSchema s) : ∃ head, Reads s head := by
  cases h with
  | any h | scalar h | array h | object h => exact ⟨_, h⟩

theorem IsSchema.items {s items : Json} (hs : IsSchema s) (h : Reads s (.array items)) :
    IsSchema items := by
  cases hs with
  | any h' | scalar h' | object h' => cases h.unique h'
  | array h' hitems =>
      cases h.unique h'
      exact hitems

theorem IsSchema.properties {s : Json} {properties : List (String × Json)}
    {required : List String} (hs : IsSchema s) (h : Reads s (.object properties required)) :
    ∀ p ∈ properties, IsSchema p.2 := by
  cases hs with
  | any h' | scalar h' | array h' => cases h.unique h'
  | object h' nodup hproperties =>
      cases h.unique h'
      exact hproperties

theorem IsSchema.nodup {s : Json} {properties : List (String × Json)} {required : List String}
    (hs : IsSchema s) (h : Reads s (.object properties required)) :
    (properties.map Prod.fst).Nodup := by
  cases hs with
  | any h' | scalar h' | array h' => cases h.unique h'
  | object h' nodup =>
      cases h.unique h'
      exact nodup

/-! ## Values -/

variable {element : Json → Json}

/-- A value is what a schema describes, at every depth.  A property that is not required may be
missing or null, and one that is not described may be anything. -/
inductive Fits (element : Json → Json) : Json → Json → Prop
  | any {s v : Json} (h : Reads s .any) : Fits element s v
  | scalar {s v : Json} {t : Scalar} (h : Reads s (.scalar t)) (holds : t.holds v) :
      Fits element s v
  | array {s items : Json} {vs : List Json} (h : Reads s (.array items))
      (elements : ∀ v ∈ vs, Fits element (element items) v) : Fits element s (.arr vs)
  | object {s : Json} {properties entries : List (String × Json)} {required : List String}
      (h : Reads s (.object properties required))
      (present : ∀ p ∈ properties, p.1 ∈ required → (entries.lookup p.1).isSome)
      (typed : ∀ p ∈ properties, ∀ v, entries.lookup p.1 = some v →
        (p.1 ∈ required ∨ v ≠ .null) → Fits element p.2 v) : Fits element s (.obj entries)

/-- A value conforms to a schema. -/
abbrev Conforms : Json → Json → Prop := Fits id

/-- A property of an object, which may be missing, is what its schema describes. -/
def PropertyFits (element : Json → Json) (required : List String) (p : String × Json) :
    Option Json → Prop
  | none => p.1 ∉ required
  | some v => p.1 ∉ required ∧ v = .null ∨ Fits element p.2 v

theorem Fits.reads {s v : Json} (h : Fits element s v) : ∃ head, Reads s head := by
  cases h with
  | any h | scalar h | array h | object h => exact ⟨_, h⟩

theorem fits_scalar_iff {s : Json} {t : Scalar} (h : Reads s (.scalar t)) {v : Json} :
    Fits element s v ↔ t.holds v := by
  constructor
  · intro hv
    cases hv with
    | any h' | array h' | object h' => cases h.unique h'
    | scalar h' holds =>
        cases h.unique h'
        exact holds
  · exact .scalar h

theorem fits_array_iff {s items : Json} (h : Reads s (.array items)) {v : Json} :
    Fits element s v ↔ ∃ vs, v = .arr vs ∧ ∀ w ∈ vs, Fits element (element items) w := by
  constructor
  · intro hv
    cases hv with
    | any h' | scalar h' | object h' => cases h.unique h'
    | array h' elements =>
        cases h.unique h'
        exact ⟨_, rfl, elements⟩
  · rintro ⟨vs, rfl, elements⟩
    exact .array h elements

theorem fits_object_iff {s : Json} {properties : List (String × Json)} {required : List String}
    (h : Reads s (.object properties required)) {v : Json} :
    Fits element s v ↔ ∃ entries, v = .obj entries ∧
      ∀ p ∈ properties, PropertyFits element required p (entries.lookup p.1) := by
  constructor
  · intro hv
    cases hv with
    | any h' | scalar h' | array h' => cases h.unique h'
    | object h' present typed =>
        cases h.unique h'
        refine ⟨_, rfl, ?_⟩
        intro p hp
        cases hlookup : List.lookup p.1 _ with
        | none =>
            intro hrequired
            have hsome := present p hp hrequired
            rw [hlookup] at hsome
            cases hsome
        | some v =>
            by_cases hv : p.1 ∉ required ∧ v = .null
            · exact .inl hv
            · exact .inr (typed p hp v hlookup (by tauto))
  · rintro ⟨entries, rfl, hfits⟩
    apply Fits.object h
    · intro p hp hrequired
      have hp := hfits p hp
      cases hlookup : entries.lookup p.1 with
      | none =>
          rw [hlookup] at hp
          exact absurd hrequired hp
      | some v => rfl
    · intro p hp v hlookup hv
      have hp := hfits p hp
      rw [hlookup] at hp
      rcases hp with ⟨hrequired, hnull⟩ | hp
      · rcases hv with hv | hv
        · exact absurd hv hrequired
        · exact absurd hnull hv
      · exact hp

/-! ## Values that fit and values that do not -/

/-- An object with one value for each name. -/
theorem lookup_map_of_nodup {α β : Type} {ps : List (String × α)} (f : String × α → β)
    (nodup : (ps.map Prod.fst).Nodup) {p : String × α} (hp : p ∈ ps) :
    (ps.map fun q ↦ (q.1, f q)).lookup p.1 = some (f p) := by
  induction ps with
  | nil => cases hp
  | cons q ps ih =>
      rw [List.map_cons, List.nodup_cons] at nodup
      rcases List.mem_cons.mp hp with rfl | hp
      · exact List.lookup_cons_self
      · have hne : p.1 ≠ q.1 := by
          intro heq
          exact nodup.1 (heq ▸ List.mem_map_of_mem hp)
        rw [List.map_cons, List.lookup_cons, beq_false_of_ne hne]
        exact ih nodup.2 hp

/-- An object of chosen values fits exactly if every value does. -/
theorem fits_map_iff {s : Json} {properties : List (String × Json)} {required : List String}
    (h : Reads s (.object properties required)) (nodup : (properties.map Prod.fst).Nodup)
    (f : String × Json → Json) :
    Fits element s (.obj (properties.map fun p ↦ (p.1, f p))) ↔
      ∀ p ∈ properties, PropertyFits element required p (some (f p)) := by
  rw [fits_object_iff h]
  constructor
  · rintro ⟨entries, hentries, hfits⟩ p hp
    cases hentries
    have hlookup := hfits p hp
    rwa [lookup_map_of_nodup f nodup hp] at hlookup
  · intro hfits
    refine ⟨_, rfl, ?_⟩
    intro p hp
    rw [lookup_map_of_nodup f nodup hp]
    exact hfits p hp

/-- A schema that asks for anything does not describe null. -/
theorem not_fits_null {s : Json} {head : Head} (h : Reads s head) (hhead : head ≠ .any) :
    ¬ Fits element s .null := by
  intro hnull
  cases hnull with
  | any h' => exact hhead (h.unique h')
  | scalar h' holds =>
      rw [Scalar.holds_null] at holds
      cases holds

/-- Every schema describes a value. -/
theorem IsSchema.exists_conforms {s : Json} (h : IsSchema s) : ∃ v, Conforms s v := by
  induction h with
  | any h => exact ⟨.null, .any h⟩
  | scalar h => exact ⟨_, .scalar h (Scalar.holds_sample _)⟩
  | array h => exact ⟨.arr [], .array h fun v hv ↦ by cases hv⟩
  | object h nodup _ ih =>
      choose! f hf using ih
      exact ⟨_, (fits_map_iff h nodup f).mpr fun p hp ↦ .inr (hf p hp)⟩

/-- One property of an object can have any value while the others conform. -/
theorem IsSchema.exists_object {s : Json} {properties : List (String × Json)}
    {required : List String} (hs : IsSchema s) (h : Reads s (.object properties required))
    {p : String × Json} (hp : p ∈ properties) (v : Json) :
    ∃ entries : List (String × Json), entries.lookup p.1 = some v ∧
      ∀ q ∈ properties, q ≠ p → ∃ w, entries.lookup q.1 = some w ∧ Conforms q.2 w := by
  classical
  choose! f hf using fun q hq ↦ (hs.properties h q hq).exists_conforms
  have hlookup : ∀ q ∈ properties, List.lookup q.1 (properties.map fun q ↦
      (q.1, Function.update f p v q)) = some (Function.update f p v q) := fun q hq ↦
    lookup_map_of_nodup _ (hs.nodup h) hq
  refine ⟨_, (hlookup p hp).trans (congrArg some (Function.update_self p v f)), ?_⟩
  intro q hq hne
  refine ⟨_, hlookup q hq, ?_⟩
  rw [Function.update_of_ne hne]
  exact hf q hq

/-- And unless it asks for nothing there is a value other than null that it does not. -/
theorem exists_not_fits {s : Json} {head : Head} (h : Reads s head) (hhead : head ≠ .any) :
    ∃ v, v ≠ .null ∧ ∀ element, ¬ Fits element s v := by
  cases head with
  | any => exact absurd rfl hhead
  | scalar t =>
      refine ⟨t.other, t.other_ne_null, fun element hother ↦ ?_⟩
      rw [fits_scalar_iff h, t.holds_other] at hother
      cases hother
  | array items =>
      refine ⟨.bool true, (fun h ↦ by cases h), fun element hother ↦ ?_⟩
      obtain ⟨vs, hvs, -⟩ := (fits_array_iff h).mp hother
      cases hvs
  | object properties required =>
      refine ⟨.bool true, (fun h ↦ by cases h), fun element hother ↦ ?_⟩
      obtain ⟨entries, hentries, -⟩ := (fits_object_iff h).mp hother
      cases hentries

end JsonSchema
