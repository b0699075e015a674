import ChatServer.Python.JsonSchema
import ChatServer.Storage.RawConfig
import Mathlib.Data.List.Forall2

/-!
# What a model from a schema accepts

`create_model_from_schema` turns a schema into annotations, and pydantic checks values against
these.  The annotations are those of the code; what a class does with a value is up to
`PydanticCodec`, which asks of it that each annotation is checked for what it says, without
coercion.

The items of an array keep their schema if they are objects.  Otherwise `_get_python_type` looks
at the name of their type alone, which is all there is to a scalar type, but forgets what is in
an array.
-/

open JsonSchema

/-! ## Validation -/

/-- `isinstance`, as pydantic checks it: an integer is taken for a float, and a truth value for
neither. -/
def PyType.holds : PyType → Json → Bool
  | str, .str _ => true
  | int, .int _ => true
  | float, .int _ => true
  | float, .float _ => true
  | float, .infinity _ => true
  | float, .nan => true
  | bool, .bool _ => true
  | list, .arr _ => true
  | dict, .obj _ => true
  | any, _ => true
  | _, _ => false

/-- What becomes of a value under an annotation, if it is accepted. -/
def Annotation.validate (model : OutputModel → Json → Option Json) :
    Annotation → Json → Option Json
  | type t, v => if t.holds v then some v else none
  | .model m, v => model m v
  | list item, .arr vs => (vs.mapM fun v ↦ item.validate model v).map .arr
  | list _, _ => none

/-- What becomes of a property, if it is accepted: `Field(...)` must be there, any other is
`T | None` and has its default if it is missing. -/
def FieldDefinition.validate (model : OutputModel → Json → Option Json) (f : FieldDefinition) :
    Option Json → Option Json
  | none => if f.isRequired then none else some f.default
  | some .null => if f.isRequired then f.annotation.validate model .null else some .null
  | some v => f.annotation.validate model v

/-- The dictionary of what becomes of the fields; what is not a field is ignored. -/
def validateFields (model : OutputModel → Json → Option Json) (fields : List FieldDefinition) :
    Json → Option Json
  | .obj entries =>
      (fields.mapM fun f : FieldDefinition ↦
        (f.validate model (entries.lookup f.name)).map (f.name, ·)).map .obj
  | _ => none

/-- `model_validate` of the classes that `create_model` makes. -/
class PydanticCodec extends SchemaCodec where
  /-- `cls.model_validate(v).model_dump()`, if the value is accepted. -/
  modelValidate : OutputModel → Json → Option Json
  modelValidate_eq {modelName : String} {fields : List FieldDefinition} {m : OutputModel}
    (h : createModel modelName fields = .ok m) (v : Json) :
    modelValidate m v = validateFields modelValidate fields v

/-- A class accepts a value. -/
def OutputModel.Accepts [PydanticCodec] (m : OutputModel) (v : Json) : Prop :=
  (PydanticCodec.modelValidate m v).isSome

section

variable {α β γ : Type} {R : α → β → Prop}

theorem isSome_mapM {f : α → Option β} {as : List α} :
    (as.mapM f).isSome ↔ ∀ a ∈ as, (f a).isSome := by
  induction as with
  | nil => simp
  | cons a as ih =>
      rw [List.mapM_cons, List.forall_mem_cons, ← ih]
      cases f a with
      | none => simp
      | some b => cases as.mapM f <;> simp

/-- A loop that goes through has gone through for every element. -/
theorem forall₂_of_mapM {f : α → Except γ β} {as : List α} {bs : List β}
    (h : as.mapM f = .ok bs) : List.Forall₂ (fun a b ↦ f a = .ok b) as bs := by
  induction as generalizing bs with
  | nil =>
      cases h
      exact .nil
  | cons a as ih =>
      rw [List.mapM_cons] at h
      obtain ⟨b, hb, h⟩ := Py.bind_eq_ok.mp h
      obtain ⟨bs', hbs, h⟩ := Py.bind_eq_ok.mp h
      cases h
      exact .cons hb (ih hbs)

theorem exists_mapM {f : α → Except γ β} {as : List α} (h : ∀ a ∈ as, ∃ b, f a = .ok b) :
    ∃ bs, as.mapM f = .ok bs := by
  induction as with
  | nil => exact ⟨[], rfl⟩
  | cons a as ih =>
      obtain ⟨b, hb⟩ := h a List.mem_cons_self
      obtain ⟨bs, hbs⟩ := ih fun a' ha' ↦ h a' (List.mem_cons_of_mem _ ha')
      refine ⟨b :: bs, ?_⟩
      rw [List.mapM_cons, hb, hbs]
      rfl

theorem mapM_eq_ok {f : α → Except γ β} {g : α → β} {as : List α}
    (h : ∀ a ∈ as, f a = .ok (g a)) : as.mapM f = .ok (as.map g) := by
  induction as with
  | nil => rfl
  | cons a as ih =>
      rw [List.forall_mem_cons] at h
      rw [List.mapM_cons, h.1, ih h.2]
      rfl

theorem exists_of_mem_left {as : List α} {bs : List β} (h : List.Forall₂ R as bs) {a : α}
    (ha : a ∈ as) : ∃ b ∈ bs, R a b := by
  induction h with
  | nil => cases ha
  | cons hab _ ih =>
      rcases List.mem_cons.mp ha with rfl | ha
      · exact ⟨_, List.mem_cons_self, hab⟩
      · obtain ⟨b, hb, hab⟩ := ih ha
        exact ⟨b, List.mem_cons_of_mem _ hb, hab⟩

theorem exists_of_mem_right {as : List α} {bs : List β} (h : List.Forall₂ R as bs) {b : β}
    (hb : b ∈ bs) : ∃ a ∈ as, R a b :=
  exists_of_mem_left h.flip hb

theorem forall_mem_iff_of_forall₂ {A : α → Prop} {B : β → Prop} {as : List α} {bs : List β}
    (h : List.Forall₂ R as bs) (hiff : ∀ a ∈ as, ∀ b, R a b → (A a ↔ B b)) :
    (∀ a ∈ as, A a) ↔ ∀ b ∈ bs, B b := by
  induction h with
  | nil => simp
  | cons hab _ ih =>
      rw [List.forall_mem_cons, List.forall_mem_cons]
      apply and_congr
      · exact hiff _ List.mem_cons_self _ hab
      · exact ih fun a ha ↦ hiff a (List.mem_cons_of_mem _ ha)

end

section

variable {model : OutputModel → Json → Option Json}

theorem isSome_validate_type (t : PyType) (v : Json) :
    (( Annotation.type t).validate model v).isSome = t.holds v := by
  rw [ Annotation.validate]
  cases t.holds v <;> rfl

theorem isSome_validate_list (item : Annotation) (v : Json) :
    (( Annotation.list item).validate model v).isSome ↔
      ∃ vs, v = .arr vs ∧ ∀ w ∈ vs, (item.validate model w).isSome := by
  cases v with
  | arr vs =>
      rw [ Annotation.validate, Option.isSome_map, isSome_mapM]
      constructor
      · intro h
        exact ⟨vs, rfl, h⟩
      · rintro ⟨vs', hvs, h⟩
        cases hvs
        exact h
  | _ =>
      apply iff_of_false
      · intro h
        cases h
      · rintro ⟨vs, hvs, -⟩
        cases hvs

theorem isSome_validateFields (fields : List FieldDefinition) (v : Json) :
    (validateFields model fields v).isSome ↔ ∃ entries, v = .obj entries ∧
      ∀ f ∈ fields, (f.validate model (entries.lookup f.name)).isSome := by
  cases v with
  | obj entries =>
      simp only [validateFields, Option.isSome_map, isSome_mapM, Json.obj.injEq,
        exists_eq_left']
  | _ =>
      apply iff_of_false
      · intro h
        cases h
      · rintro ⟨entries, hentries, -⟩
        cases hentries

end

/-! ### Which classes matter -/

/-- A class occurs in an annotation. -/
def Annotation.HasModel : Annotation → OutputModel → Prop
  | type _, _ => False
  | model m, m' => m' = m
  | list item, m' => item.HasModel m'

section

variable {model model' : OutputModel → Json → Option Json}

theorem validate_congr {a : Annotation} (h : ∀ m, a.HasModel m → model m = model' m) :
    a.validate model = a.validate model' := by
  induction a with
  | type t =>
      funext v
      rw [ Annotation.validate, Annotation.validate]
  | model m =>
      funext v
      rw [ Annotation.validate, Annotation.validate, h m rfl]
  | list item ih =>
      funext v
      cases v with
      | arr vs => rw [ Annotation.validate, Annotation.validate, ih h]
      | _ => rfl

theorem validate_field_congr {f : FieldDefinition}
    (h : ∀ m, f.annotation.HasModel m → model m = model' m) :
    f.validate model = f.validate model' := by
  funext v
  cases v with
  | none => rfl
  | some v => cases v <;> simp only [FieldDefinition.validate, validate_congr h]

/-- Fields of the same names that do the same. -/
theorem validateFields_eq {fields fields' : List FieldDefinition}
    (h : List.Forall₂ (fun f f' ↦ f.name = f'.name ∧ f.validate model = f'.validate model')
      fields fields') : validateFields model fields = validateFields model' fields' := by
  have hmap : ∀ entries : List (String × Json), (fields.mapM fun f : FieldDefinition ↦
      (f.validate model (entries.lookup f.name)).map (f.name, ·)) =
        fields'.mapM fun f : FieldDefinition ↦
          (f.validate model' (entries.lookup f.name)).map (f.name, ·) := by
    intro entries
    induction h with
    | nil => rfl
    | cons hf _ ih => rw [List.mapM_cons, List.mapM_cons, ih, hf.1, hf.2]
  funext v
  cases v with
  | obj entries => rw [validateFields, validateFields, hmap]
  | _ => rfl

/-- Only the classes in the annotations matter. -/
theorem validateFields_congr {fields : List FieldDefinition}
    (h : ∀ f ∈ fields, ∀ m, f.annotation.HasModel m → model m = model' m) :
    validateFields model fields = validateFields model' fields := by
  apply validateFields_eq
  apply List.forall₂_same.mpr
  intro f hf
  exact ⟨rfl, validate_field_congr (h f hf)⟩

end

/-! ## Annotations of schemas -/

/-- The type of `_get_python_type`. -/
def JsonSchema.Scalar.pyType : Scalar → PyType
  | string => .str
  | integer => .int
  | number => .float
  | boolean => .bool

theorem holds_pyType (t : Scalar) (v : Json) : t.pyType.holds v = t.holds v := by
  cases t <;> cases v <;> rfl

/-- What `create_model_from_schema` has of the schema of the items. -/
def itemSchema : Json → Json
  | .obj entries =>
      if isType "array" (entries.lookup "type") then .obj [("type", .str "array")]
      else .obj entries
  | v => v

theorem itemSchema_array {items inner : Json} (h : Reads items (.array inner)) :
    itemSchema items = .obj [("type", .str "array")] := by
  cases h with
  | array type =>
      rw [itemSchema, type]
      rfl

theorem itemSchema_of_ne {items : Json} {head : Head} (h : Reads items head)
    (hhead : ∀ inner, head ≠ .array inner) : itemSchema items = items := by
  cases h with
  | any type =>
      rw [itemSchema, type]
      rfl
  | @scalar _ t type =>
      have ht : isType "array" (some (.str t.name)) = false := decide_eq_false t.name_ne_array
      rw [itemSchema, type, ht]
      rfl
  | array type => exact absurd rfl (hhead _)
  | object type =>
      rw [itemSchema, type]
      rfl

/-- The bare `list` takes every array. -/
theorem fits_bareList {v : Json} :
    Fits itemSchema (.obj [("type", .str "array")]) v ↔ ∃ vs, v = .arr vs := by
  rw [fits_array_iff (.array rfl)]
  apply exists_congr
  intro vs
  exact and_iff_left fun w _ ↦ .any (.any rfl)

/-- What is an item of an array is one for the code. -/
theorem fits_item {s v : Json} (h : Fits itemSchema s v) :
    Fits itemSchema (itemSchema s) v := by
  obtain ⟨head, hr⟩ := h.reads
  by_cases harray : ∃ inner, head = .array inner
  · obtain ⟨inner, rfl⟩ := harray
    obtain ⟨vs, rfl, -⟩ := (fits_array_iff hr).mp h
    rw [itemSchema_array hr, fits_bareList]
    exact ⟨vs, rfl⟩
  · rw [itemSchema_of_ne hr (not_exists.mp harray)]
    exact h

/-- What conforms fits. -/
theorem fits_of_conforms {s v : Json} (h : Conforms s v) : Fits itemSchema s v := by
  induction h with
  | any h => exact .any h
  | scalar h holds => exact .scalar h holds
  | array h _ ih => exact .array h fun v hv ↦ fits_item (ih v hv)
  | object h present _ ih => exact .object h present ih

section

variable {create : Json → String → Except PyExc OutputModel} {modelName fieldName : String}
  {entries : List (String × Json)}

theorem getPythonType_scalar (t : Scalar) :
    getPythonType (some (.str t.name)) = .ok t.pyType := by
  cases t <;> rfl

theorem annotationOf_scalar (t : Scalar) :
    annotationOf create modelName fieldName (.obj entries) (some (.str t.name)) =
      .ok (.type t.pyType) := by
  cases t <;> rfl

theorem annotationOf_array {items : List (String × Json)}
    (hitems : (entries.lookup "items").getD (.obj []) = .obj items) :
    annotationOf create modelName fieldName (.obj entries) (some (.str "array")) =
      (if isType "object" (items.lookup "type") then
        (create (.obj items) s!"{modelName}_{fieldName}_item").map .model
      else (getPythonType (items.lookup "type")).map .type).map .list := by
  show (do
    let itemType ← ((entries.lookup "items").getD (.obj [])).get "type"
    if isType "object" itemType then
      (create ((entries.lookup "items").getD (.obj [])) s!"{modelName}_{fieldName}_item").map
        fun m ↦ Annotation.list (.model m)
    else (getPythonType itemType).map fun t ↦ .list (.type t)) = _
  rw [hitems]
  show (if isType "object" (items.lookup "type") then _ else _) = _
  split
  · cases create (.obj items) s!"{modelName}_{fieldName}_item" <;> rfl
  · cases getPythonType (items.lookup "type") <;> rfl

/-- The annotation of the items of an array, and of a property that is none. -/
inductive ItemAnnotates (create : Json → String → Except PyExc OutputModel) :
    Json → Annotation → Prop
  | any {s : Json} (h : Reads s .any) : ItemAnnotates create s (.type .any)
  | scalar {s : Json} {t : Scalar} (h : Reads s (.scalar t)) :
      ItemAnnotates create s (.type t.pyType)
  | array {s inner : Json} (h : Reads s (.array inner)) : ItemAnnotates create s (.type .list)
  | object {s : Json} {properties : List (String × Json)} {required : List String} {name : String}
      {m : OutputModel} (h : Reads s (.object properties required)) (hm : create s name = .ok m) :
      ItemAnnotates create s (.model m)

/-- The annotation of a property. -/
inductive Annotates (create : Json → String → Except PyExc OutputModel) :
    Json → Annotation → Prop
  | item {s : Json} {a : Annotation} (h : ItemAnnotates create s a)
      (harray : ∀ items, ¬ Reads s (.array items)) : Annotates create s a
  | array {s items : Json} {a : Annotation} (h : Reads s (.array items))
      (hitems : ItemAnnotates create items a) : Annotates create s (.list a)

theorem itemAnnotates_of_eq_ok {items : List (String × Json)} {head : Head}
    (hr : Reads (.obj items) head) {name : String} {a : Annotation}
    (h : (if isType "object" (items.lookup "type") then (create (.obj items) name).map .model
      else (getPythonType (items.lookup "type")).map .type) = .ok a) :
    ItemAnnotates create (.obj items) a := by
  cases hr with
  | any type =>
      rw [type] at h
      cases h
      exact .any (.any type)
  | @scalar _ t type =>
      have hobject : isType "object" (some (.str t.name)) = false :=
        decide_eq_false t.name_ne_object
      rw [type, hobject, getPythonType_scalar] at h
      cases h
      exact .scalar (.scalar type)
  | array type =>
      rw [type] at h
      cases h
      exact .array (.array type)
  | object type hproperties hrequired =>
      rw [type] at h
      obtain ⟨m, hm, rfl⟩ := Py.map_eq_ok.mp h
      exact .object (.object type hproperties hrequired) hm

theorem annotates_of_eq_ok (hs : IsSchema (.obj entries)) {a : Annotation}
    (h : annotationOf create modelName fieldName (.obj entries) (entries.lookup "type") =
      .ok a) : Annotates create (.obj entries) a := by
  obtain ⟨head, hr⟩ := hs.reads
  have hnot : (∀ items, head ≠ .array items) → ∀ items, ¬ Reads (.obj entries) (.array items) :=
    fun hhead items hr' ↦ hhead items (hr.unique hr')
  cases hr with
  | any type =>
      rw [type] at h
      cases h
      exact .item (.any (.any type)) (hnot fun items heq ↦ by cases heq)
  | scalar type =>
      rw [type, annotationOf_scalar] at h
      cases h
      exact .item (.scalar (.scalar type)) (hnot fun items heq ↦ by cases heq)
  | array type =>
      have hitems := hs.items (.array type)
      generalize hi : (entries.lookup "items").getD (.obj []) = items at hitems
      obtain ⟨head, hhead⟩ := hitems.reads
      obtain ⟨itemEntries, rfl⟩ := hhead.entries
      rw [type, annotationOf_array hi] at h
      obtain ⟨item, hitem, rfl⟩ := Py.map_eq_ok.mp h
      exact .array (hi ▸ .array type) (itemAnnotates_of_eq_ok hhead hitem)
  | object type hproperties hrequired =>
      rw [type] at h
      obtain ⟨m, hm, rfl⟩ := Py.map_eq_ok.mp h
      exact .item (.object (.object type hproperties hrequired) hm)
        (hnot fun items heq ↦ by cases heq)

variable [PydanticCodec]

/-- What a nested call does, if it returns a model. -/
def Builds (create : Json → String → Except PyExc OutputModel) : Prop :=
  ∀ s name m, IsSchema s → create s name = .ok m → ∀ v, m.Accepts v ↔ Fits itemSchema s v

theorem isSome_validate_item (hcreate : Builds create) {s : Json} (hs : IsSchema s)
    {a : Annotation} (h : ItemAnnotates create s a) (v : Json) :
    (a.validate PydanticCodec.modelValidate v).isSome ↔ Fits itemSchema (itemSchema s) v := by
  cases h with
  | any hr =>
      rw [itemSchema_of_ne hr fun inner heq ↦ by cases heq]
      exact iff_of_true rfl (.any hr)
  | scalar hr =>
      rw [itemSchema_of_ne hr (fun inner heq ↦ by cases heq), fits_scalar_iff hr,
        isSome_validate_type, holds_pyType]
  | array hr =>
      rw [itemSchema_array hr, fits_bareList, isSome_validate_type]
      cases v with
      | arr vs => exact iff_of_true rfl ⟨vs, rfl⟩
      | _ =>
          apply iff_of_false
          · intro h
            cases h
          · rintro ⟨vs, hvs⟩
            cases hvs
  | object hr hm =>
      rw [itemSchema_of_ne hr fun inner heq ↦ by cases heq]
      exact hcreate _ _ _ hs hm v

theorem isSome_validate (hcreate : Builds create) {s : Json} (hs : IsSchema s) {a : Annotation}
    (h : Annotates create s a) (v : Json) :
    (a.validate PydanticCodec.modelValidate v).isSome ↔ Fits itemSchema s v := by
  cases h with
  | item h harray =>
      obtain ⟨head, hr⟩ := hs.reads
      have hsame : itemSchema s = s := by
        apply itemSchema_of_ne hr
        rintro items rfl
        exact harray items hr
      rw [isSome_validate_item hcreate hs h, hsame]
  | array hr hitems =>
      rw [fits_array_iff hr, isSome_validate_list]
      apply exists_congr
      intro vs
      apply and_congr_right
      intro _
      exact forall₂_congr fun w _ ↦ isSome_validate_item hcreate (hs.items hr) hitems w

end

/-! ## The model of a schema -/

theorem any_isText (name : String) (required : List String) :
    (required.map .str).any (Json.isText name) = decide (name ∈ required) := by
  induction required with
  | nil => rfl
  | cons s required ih =>
      rw [List.map_cons, List.any_cons, ih]
      simp [Json.isText, eq_comm]

theorem fieldDefinition_obj {create : Json → String → Except PyExc OutputModel}
    {modelName : String} {required : List String} {name : String}
    {entries : List (String × Json)} :
    fieldDefinition create modelName (required.map .str) (name, .obj entries) =
      (annotationOf create modelName name (.obj entries) (entries.lookup "type")).map fun a ↦
        ⟨name, a, decide (name ∈ required), (entries.lookup "default").getD .null⟩ := by
  rw [← any_isText]
  show (annotationOf create modelName name (.obj entries) (entries.lookup "type") >>= _) = _
  cases annotationOf create modelName name (.obj entries) (entries.lookup "type") <;> rfl

/-- The field of a property. -/
theorem fieldDefinition_eq_ok {create : Json → String → Except PyExc OutputModel}
    {modelName : String} {required : List String} {p : String × Json} {f : FieldDefinition}
    (hp : IsSchema p.2) (h : fieldDefinition create modelName (required.map .str) p = .ok f) :
    Annotates create p.2 f.annotation ∧ f.name = p.1 ∧
      f.isRequired = decide (p.1 ∈ required) := by
  obtain ⟨name, s⟩ := p
  obtain ⟨head, hhead⟩ := hp.reads
  obtain ⟨entries, rfl⟩ := hhead.entries
  rw [fieldDefinition_obj] at h
  obtain ⟨a, ha, rfl⟩ := Py.map_eq_ok.mp h
  exact ⟨annotates_of_eq_ok hp ha, rfl, rfl⟩

/-- A field takes what its annotation takes, and if it is optional null as well. -/
theorem isSome_validate_some {model : OutputModel → Json → Option Json} (f : FieldDefinition)
    (v : Json) : (f.validate model (some v)).isSome ↔
      f.isRequired = false ∧ v = .null ∨ (f.annotation.validate model v).isSome := by
  cases v with
  | null =>
      rw [FieldDefinition.validate]
      cases f.isRequired <;> simp
  | _ => simp [FieldDefinition.validate]

theorem isSome_validate_none {model : OutputModel → Json → Option Json} (f : FieldDefinition) :
    (f.validate model none).isSome ↔ f.isRequired = false := by
  rw [FieldDefinition.validate]
  cases f.isRequired <;> simp

/-- Names can be put in a set. -/
theorem toSet_texts (names : List String) :
    (Json.arr (names.map .str)).toSet = .ok (names.map .str) := by
  have hnone : (names.map Json.str).find? (fun v ↦ !v.hashable) = none := by
    rw [List.find?_eq_none]
    intro v hv
    obtain ⟨name, -, rfl⟩ := List.mem_map.mp hv
    exact Bool.false_ne_true
  simp only [Json.toSet, Json.elements?, hnone]

theorem isType_object_iff {entries : List (String × Json)} {head : Head}
    (hr : Reads (.obj entries) head) : isType "object" (entries.lookup "type") ↔
      ∃ properties required, head = .object properties required := by
  cases hr with
  | any type | array type =>
      rw [type]
      exact iff_of_false Bool.false_ne_true (by rintro ⟨_, _, h⟩; cases h)
  | @scalar _ t type =>
      rw [type]
      refine iff_of_false ?_ (by rintro ⟨_, _, h⟩; cases h)
      intro h
      exact t.name_ne_object (of_decide_eq_true h)
  | object type =>
      rw [type]
      exact iff_of_true rfl ⟨_, _, rfl⟩

theorem createModelFromSchema_succ [SchemaCodec] (n : ℕ) (entries : List (String × Json))
    (modelName : String) : createModelFromSchema (n + 1) (.obj entries) modelName =
      if isType "object" (entries.lookup "type") then (do
        let required ← ((entries.lookup "required").getD (.arr [])).toSet
        let properties ← ((entries.lookup "properties").getD (.obj [])).items
        let fields ← properties.mapM
          (fieldDefinition (createModelFromSchema n) modelName required)
        SchemaCodec.createModel modelName fields)
      else .error (.valueError "Root schema must be of type 'object'") := rfl

/-- What `create_model_from_schema` does with an object schema. -/
theorem createModelFromSchema_of_reads [SchemaCodec] (n : ℕ) {s : Json}
    {properties : List (String × Json)} {required : List String}
    (hr : Reads s (.object properties required)) (modelName : String) :
    createModelFromSchema (n + 1) s modelName =
      properties.mapM (fieldDefinition (createModelFromSchema n) modelName (required.map .str)) >>=
        SchemaCodec.createModel modelName := by
  cases hr with
  | object type hproperties hrequired =>
      rw [createModelFromSchema_succ, type, hproperties, hrequired, toSet_texts]
      rfl

/-- It takes no other. -/
theorem createModelFromSchema_eq_ok [SchemaCodec] {n : ℕ} {s : Json} {modelName : String}
    {m : OutputModel} {head : Head} (hr : Reads s head)
    (h : createModelFromSchema n s modelName = .ok m) :
    ∃ n' properties required fields, n = n' + 1 ∧ head = .object properties required ∧
      List.Forall₂ (fun p f ↦ fieldDefinition (createModelFromSchema n') modelName
        (required.map .str) p = .ok f) properties fields ∧
      SchemaCodec.createModel modelName fields = .ok m := by
  cases n with
  | zero => cases h
  | succ n =>
      obtain ⟨entries, rfl⟩ := hr.entries
      by_cases hobject : isType "object" (entries.lookup "type")
      · obtain ⟨properties, required, rfl⟩ := (isType_object_iff hr).mp hobject
        rw [createModelFromSchema_of_reads n hr] at h
        obtain ⟨fields, hfields, hm⟩ := Py.bind_eq_ok.mp h
        exact ⟨n, properties, required, fields, rfl, rfl, forall₂_of_mapM hfields, hm⟩
      · rw [createModelFromSchema_succ, if_neg hobject] at h
        cases h

/-- The objects of a schema are nested at most so many deep, and their properties have names that
a class can have. -/
inductive Within (allowed : String → Prop) : ℕ → Json → Prop
  | any {n : ℕ} {s : Json} (h : Reads s .any) : Within allowed n s
  | scalar {n : ℕ} {s : Json} {t : Scalar} (h : Reads s (.scalar t)) : Within allowed n s
  | array {n : ℕ} {s items : Json} (h : Reads s (.array items)) (hitems : Within allowed n items) :
      Within allowed n s
  | object {n : ℕ} {s : Json} {properties : List (String × Json)} {required : List String}
      (h : Reads s (.object properties required)) (names : ∀ p ∈ properties, allowed p.1)
      (hproperties : ∀ p ∈ properties, Within allowed n p.2) : Within allowed (n + 1) s

theorem Within.reads {allowed : String → Prop} {n : ℕ} {s : Json} (h : Within allowed n s) :
    ∃ head, Reads s head := by
  cases h with
  | any h | scalar h | array h | object h => exact ⟨_, h⟩

theorem exists_getPythonType {entries : List (String × Json)} {head : Head}
    (hr : Reads (.obj entries) head) : ∃ t, getPythonType (entries.lookup "type") = .ok t := by
  cases hr with
  | any type | array type | object type =>
      rw [type]
      exact ⟨_, rfl⟩
  | scalar type =>
      rw [type]
      exact ⟨_, getPythonType_scalar _⟩

theorem exists_model_and_type [SchemaCodec] {allowed : String → Prop}
    (hcreate : ∀ modelName fields, (∀ f ∈ fields, allowed f.name) →
      ∃ m, SchemaCodec.createModel modelName fields = .ok m) {n : ℕ} {s : Json}
    (h : Within allowed n s) :
    (∀ properties required modelName, Reads s (.object properties required) →
      ∃ m, createModelFromSchema n s modelName = .ok m) ∧
    ∀ entries modelName fieldName, s = .obj entries → ∃ a,
      annotationOf (createModelFromSchema n) modelName fieldName s (entries.lookup "type") =
        .ok a := by
  induction h with
  | any hr =>
      constructor
      · intro properties required modelName hr'
        cases hr.unique hr'
      · rintro entries modelName fieldName rfl
        cases hr with
        | any type =>
            rw [type]
            exact ⟨_, rfl⟩
  | scalar hr =>
      constructor
      · intro properties required modelName hr'
        cases hr.unique hr'
      · rintro entries modelName fieldName rfl
        cases hr with
        | scalar type =>
            rw [type]
            exact ⟨_, annotationOf_scalar _⟩
  | array hr hitems ih =>
      constructor
      · intro properties required modelName hr'
        cases hr.unique hr'
      · rintro entries modelName fieldName rfl
        obtain ⟨head, hhead⟩ := hitems.reads
        cases hr with
        | array type =>
            generalize hi : (entries.lookup "items").getD (.obj []) = items at hhead ih
            obtain ⟨itemEntries, rfl⟩ := hhead.entries
            rw [type, annotationOf_array hi]
            split
            · rename_i hobject
              obtain ⟨properties, required, rfl⟩ := (isType_object_iff hhead).mp hobject
              obtain ⟨m, hm⟩ := ih.1 properties required _ hhead
              rw [hm]
              exact ⟨_, rfl⟩
            · obtain ⟨t, ht⟩ := exists_getPythonType hhead
              rw [ht]
              exact ⟨_, rfl⟩
  | @object n s properties required hr names hproperties ih =>
      have hmodel : ∀ modelName, ∃ m, createModelFromSchema (n + 1) s modelName = .ok m := by
        intro modelName
        have hfield : ∀ p ∈ properties, ∃ f, fieldDefinition (createModelFromSchema n) modelName
            (required.map .str) p = .ok f ∧ f.name = p.1 := by
          rintro ⟨name, s⟩ hp
          obtain ⟨head, hhead⟩ := (hproperties _ hp).reads
          obtain ⟨entries, rfl⟩ := hhead.entries
          obtain ⟨a, ha⟩ := (ih _ hp).2 entries modelName name rfl
          rw [fieldDefinition_obj, ha]
          exact ⟨_, rfl, rfl⟩
        obtain ⟨fields, hfields⟩ := exists_mapM fun p hp ↦ (hfield p hp).imp fun f ↦ And.left
        have hnames : ∀ f ∈ fields, allowed f.name := by
          refine (forall_mem_iff_of_forall₂ (forall₂_of_mapM hfields) ?_).mp names
          intro p hp f hf
          obtain ⟨f', hf', hname⟩ := hfield p hp
          obtain rfl := Except.ok.inj (hf.symm.trans hf')
          rw [hname]
        obtain ⟨m, hm⟩ := hcreate modelName fields hnames
        rw [createModelFromSchema_of_reads n hr, hfields]
        exact ⟨m, hm⟩
      constructor
      · intro _ _ modelName _
        exact hmodel modelName
      · rintro entries modelName fieldName rfl
        obtain ⟨m, hm⟩ := hmodel s!"{modelName}_{fieldName}"
        cases hr with
        | object type =>
            rw [type]
            refine ⟨.model m, ?_⟩
            show (createModelFromSchema (n + 1) _ _).map _ = _
            rw [hm]
            rfl

/-- **A model is returned** for every object schema, if as many calls are left as objects are
nested. -/
theorem exists_model [SchemaCodec] {allowed : String → Prop}
    (hcreate : ∀ modelName fields, (∀ f ∈ fields, allowed f.name) →
      ∃ m, SchemaCodec.createModel modelName fields = .ok m) {n : ℕ} {s : Json}
    (h : Within allowed n s) {properties : List (String × Json)} {required : List String}
    (hr : Reads s (.object properties required)) (modelName : String) :
    ∃ m, createModelFromSchema n s modelName = .ok m :=
  (exists_model_and_type hcreate h).1 properties required modelName hr

section

variable [PydanticCodec]

theorem isSome_validate_field {create : Json → String → Except PyExc OutputModel}
    (hcreate : Builds create) {modelName : String} {required : List String}
    {p : String × Json} {f : FieldDefinition} (hp : IsSchema p.2)
    (h : fieldDefinition create modelName (required.map .str) p = .ok f) (v : Option Json) :
    (f.validate PydanticCodec.modelValidate v).isSome ↔ PropertyFits itemSchema required p v := by
  obtain ⟨hannotates, -, hrequired⟩ := fieldDefinition_eq_ok hp h
  cases v with
  | none =>
      rw [isSome_validate_none, hrequired]
      exact decide_eq_false_iff_not
  | some v =>
      rw [isSome_validate_some, hrequired]
      apply or_congr
      · exact and_congr_left' decide_eq_false_iff_not
      · exact isSome_validate hcreate hp hannotates v

/-- **A model accepts what its schema describes**, with the items of arrays as the code has
them.  By induction on the calls that are left. -/
theorem accepts_iff_fits (n : ℕ) : Builds (createModelFromSchema n) := by
  induction n with
  | zero =>
      intro s name m _ h
      cases h
  | succ n ih =>
      intro s name m hs h v
      obtain ⟨head, hr⟩ := hs.reads
      obtain ⟨n', properties, required, fields, hn, rfl, hfields, hm⟩ :=
        createModelFromSchema_eq_ok hr h
      cases hn
      have hproperties := hs.properties hr
      rw [OutputModel.Accepts, PydanticCodec.modelValidate_eq hm, isSome_validateFields,
        fits_object_iff hr]
      apply exists_congr
      intro entries
      apply and_congr_right
      intro _
      apply Iff.symm
      apply forall_mem_iff_of_forall₂ hfields
      intro p hp f hf
      rw [(fieldDefinition_eq_ok (hproperties p hp) hf).2.1]
      exact (isSome_validate_field ih (hproperties p hp) hf _).symm

end
