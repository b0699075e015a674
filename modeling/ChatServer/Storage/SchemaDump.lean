import ChatServer.Storage.ConfigCycle
import ChatServer.Storage.SchemaModel

/-!
# Storing an output model

`serialize_completion_config` writes a class as the schema pydantic has for it, and
`resolve_completion_config` gives that schema to `create_model_from_schema`.  But pydantic says
more than the reader knows: a nested class stands under `$defs` and is referred to, and a field
that may be null is any of two schemas.  Where `type` is missing the reader takes `Any`.

So a stored class is that of a schema whose annotations have been replaced.  What is written is
ours after the documentation of pydantic; what is read is the code.

It does not come to that where the class cannot be dumped: `model_dump(mode="json")` stands before
the schema is written, and pydantic has no serializer for a class.
-/

open FileTree JsonSchema

/-! ## What is left of a class -/

/-- What is left of an annotation. -/
def Annotation.decoded : Annotation → Annotation
  | .model _ => .type .any
  | .list (.model _) => .list (.type .any)
  | a => a

/-- What is left of a field. -/
def FieldDefinition.decoded (f : FieldDefinition) : FieldDefinition where
  name := f.name
  annotation := if f.isRequired then f.annotation.decoded else .type .any
  isRequired := f.isRequired
  default := if f.isRequired then .null else f.default

/-! ## What is written -/

/-- The schema of an annotation; `ref` is the name of a class under `$defs`. -/
def Annotation.jsonSchema (ref : OutputModel → String) : Annotation → List (String × Json)
  | type .str => [("type", .str "string")]
  | type .int => [("type", .str "integer")]
  | type .float => [("type", .str "number")]
  | type .bool => [("type", .str "boolean")]
  | type .list => [("items", .obj []), ("type", .str "array")]
  | type .dict => [("additionalProperties", .bool true), ("type", .str "object")]
  | type .any => []
  | .model m => [("$ref", .str ("#/$defs/" ++ ref m))]
  | list item => [("items", .obj (item.jsonSchema ref)), ("type", .str "array")]

/-- The title of a field.  A class has its own. -/
def FieldDefinition.titleEntry (title : String → String) (f : FieldDefinition) :
    List (String × Json) :=
  match f.annotation with
  | .model _ => []
  | _ => [("title", .str (title f.name))]

/-- The schema of a field.  `T | None` is any of two. -/
def FieldDefinition.jsonSchema (ref : OutputModel → String) (title : String → String)
    (f : FieldDefinition) : List (String × Json) :=
  (if f.isRequired then f.annotation.jsonSchema ref
  else [("anyOf", .arr [.obj (f.annotation.jsonSchema ref), .obj [("type", .str "null")]]),
    ("default", f.default)]) ++ f.titleEntry title

/-- The names of the required fields. -/
def requiredNames (fields : List FieldDefinition) : List String :=
  (fields.filter (·.isRequired)).map (·.name)

/-- `model_json_schema()` of a class with such fields. -/
def modelJsonSchema (defs : List (String × Json)) (ref : OutputModel → String)
    (title : String → String) (modelName : String) (fields : List FieldDefinition) : Json :=
  .obj ((if defs.isEmpty then [] else [("$defs", .obj defs)]) ++
    [("properties", .obj (fields.map fun f ↦ (f.name, .obj (f.jsonSchema ref title))))] ++
    (if (requiredNames fields).isEmpty then []
      else [("required", .arr ((requiredNames fields).map .str))]) ++
    [("title", .str modelName), ("type", .str "object")])

/-- What the texts of classes are. -/
class SchemaDumpCodec extends PydanticCodec where
  /-- `$defs` in the schema of a class. -/
  defs : OutputModel → List (String × Json)
  /-- What a class is called in the schema of another. -/
  refName : OutputModel → OutputModel → String
  fieldTitle : String → String
  /-- `json.loads` reads what `json.dumps` has written. -/
  loads_schemaStr {modelName : String} {fields : List FieldDefinition} {m : OutputModel}
    (h : createModel modelName fields = .ok m) :
    loads m.schemaStr =
      .ok (modelJsonSchema (defs m) (refName m) fieldTitle modelName fields)
  /-- And that has no carriage returns. -/
  return_notMem {modelName : String} {fields : List FieldDefinition} {m : OutputModel}
    (h : createModel modelName fields = .ok m) : '\r' ∉ m.schemaStr.toList
  /-- `create_model` rejects names, not annotations. -/
  createModel_decoded {modelName : String} {fields : List FieldDefinition} {m : OutputModel}
    (h : createModel modelName fields = .ok m) :
    ∃ m', createModel modelName (fields.map (·.decoded)) = .ok m'

/-! ## What is read -/

section

variable {create create' : Json → String → Except PyExc OutputModel}
  {ref : OutputModel → String} {title : String → String}

theorem lookup_titleEntry {f : FieldDefinition} {key : String} (h : key ≠ "title") :
    (f.titleEntry title).lookup key = none := by
  rw [FieldDefinition.titleEntry]
  split
  · rfl
  · rw [List.lookup_cons, beq_false_of_ne h]
    rfl

theorem lookup_jsonSchema_default (a : Annotation) :
    (a.jsonSchema ref).lookup "default" = none := by
  cases a with
  | type t => cases t <;> rfl
  | model m => rfl
  | list item => rfl

/-- An annotation of `create_model_from_schema` is read as what is left of it. -/
theorem annotationOf_jsonSchema {s : Json} {a : Annotation} (h : Annotates create' s a)
    {modelName fieldName : String} {rest : List (String × Json)}
    (hrest : rest.lookup "type" = none) :
    annotationOf create modelName fieldName (.obj (a.jsonSchema ref ++ rest))
      ((a.jsonSchema ref ++ rest).lookup "type") = .ok a.decoded := by
  cases h with
  | item h harray =>
      cases h with
      | any =>
          show annotationOf create _ _ (.obj rest) (rest.lookup "type") = _
          rw [hrest]
          rfl
      | @scalar t => cases t <;> rfl
      | array h => exact absurd h (harray _)
      | object =>
          show annotationOf create _ _ _ (rest.lookup "type") = _
          rw [hrest]
          rfl
  | array h hitems =>
      cases hitems with
      | any => rfl
      | @scalar t => cases t <;> rfl
      | array => rfl
      | object => rfl

theorem mem_requiredNames {fields : List FieldDefinition}
    (hnodup : (fields.map (·.name)).Nodup) {f : FieldDefinition} (hf : f ∈ fields) :
    f.name ∈ requiredNames fields ↔ f.isRequired := by
  rw [requiredNames, List.mem_map]
  constructor
  · rintro ⟨f', hf', hname⟩
    obtain ⟨hmem, hrequired⟩ := List.mem_filter.mp hf'
    rwa [← List.inj_on_of_nodup_map hnodup hmem hf hname]
  · intro hrequired
    exact ⟨f, List.mem_filter.mpr ⟨hf, hrequired⟩, rfl⟩

/-- A field is read as what is left of it. -/
theorem fieldDefinition_jsonSchema {s : Json} {f : FieldDefinition}
    (h : Annotates create' s f.annotation) {modelName : String} {names : List String}
    (hnames : f.name ∈ names ↔ f.isRequired) :
    fieldDefinition create modelName (names.map .str)
      (f.name, .obj (f.jsonSchema ref title)) = .ok f.decoded := by
  have htype : (f.titleEntry title).lookup "type" = none := lookup_titleEntry (by decide)
  have hdefault : (f.titleEntry title).lookup "default" = none := lookup_titleEntry (by decide)
  have hrequired : decide (f.name ∈ names) = f.isRequired := by
    simp only [hnames, Bool.decide_eq_true]
  rw [fieldDefinition_obj, hrequired, FieldDefinition.decoded, FieldDefinition.jsonSchema]
  cases f.isRequired with
  | true =>
      rw [if_pos rfl, annotationOf_jsonSchema h htype, List.lookup_append,
        lookup_jsonSchema_default, hdefault]
      rfl
  | false =>
      change (annotationOf create modelName f.name _ ((f.titleEntry title).lookup "type")).map _ = _
      rw [htype]
      rfl

/-- The schema of a class is that of an object. -/
theorem reads_modelJsonSchema (defs : List (String × Json)) (modelName : String)
    (fields : List FieldDefinition) :
    Reads (modelJsonSchema defs ref title modelName fields)
      (.object (fields.map fun f ↦ (f.name, .obj (f.jsonSchema ref title)))
        (requiredNames fields)) := by
  rw [modelJsonSchema]
  by_cases hnames : (requiredNames fields).isEmpty
  · rw [if_pos hnames, List.isEmpty_iff.mp hnames]
    split
    · exact .object rfl rfl rfl
    · exact .object rfl rfl rfl
  · rw [if_neg hnames]
    split
    · exact .object rfl rfl rfl
    · exact .object rfl rfl rfl

/-- The class that is read has what is left of the fields. -/
theorem createModelFromSchema_modelJsonSchema [SchemaCodec] {n : ℕ}
    {defs : List (String × Json)} {modelName : String} {fields : List FieldDefinition}
    (hannotates : ∀ f ∈ fields, ∃ s, Annotates create' s f.annotation)
    (hnodup : (fields.map (·.name)).Nodup) :
    createModelFromSchema (n + 1) (modelJsonSchema defs ref title modelName fields) modelName =
      SchemaCodec.createModel modelName (fields.map (·.decoded)) := by
  have hfields : (fields.map fun f ↦ (f.name, Json.obj (f.jsonSchema ref title))).mapM
      (fieldDefinition (createModelFromSchema n) modelName ((requiredNames fields).map .str)) =
        .ok (fields.map (·.decoded)) := by
    rw [List.mapM_map]
    apply mapM_eq_ok
    intro f hf
    obtain ⟨s, hs⟩ := hannotates f hf
    exact fieldDefinition_jsonSchema hs (mem_requiredNames hnodup hf)
  rw [createModelFromSchema_of_reads n (reads_modelJsonSchema defs modelName fields), hfields]
  rfl

end

/-! ## What agrees -/

/-- Two classes accept the same objects and make the same of them. -/
def OutputModel.Agrees [PydanticCodec] (m m' : OutputModel) : Prop :=
  ∀ entries, PydanticCodec.modelValidate m (.obj entries) =
    PydanticCodec.modelValidate m' (.obj entries)

/-- A schema that is neither of an object nor of an array of objects. -/
def WithoutObjects (s : Json) : Prop :=
  (∀ properties required, ¬ Reads s (.object properties required)) ∧
    ∀ items, Reads s (.array items) → ∀ properties required,
      ¬ Reads items (.object properties required)

/-- Every property is required, and neither an object nor an array of objects, if it has a type
at all. -/
def Flat (s : Json) : Prop :=
  ∀ properties required, Reads s (.object properties required) → ∀ p ∈ properties,
    Reads p.2 .any ∨ p.1 ∈ required ∧ WithoutObjects p.2

section

variable {create : Json → String → Except PyExc OutputModel} {s : Json} {a : Annotation}
  {model : OutputModel → Json → Option Json} {f : FieldDefinition}

theorem withoutObjects_scalar {t : Scalar} (h : Reads s (.scalar t)) : WithoutObjects s := by
  constructor
  · intro properties required h'
    cases h.unique h'
  · intro items h'
    cases h.unique h'

theorem withoutObjects_array {items : Json} {head : Head} (h : Reads s (.array items))
    (hitems : Reads items head)
    (hhead : ∀ properties required, head ≠ .object properties required) : WithoutObjects s := by
  constructor
  · intro properties required h'
    cases h.unique h'
  · intro items' h' properties required hobject
    cases h.unique h'
    exact hhead properties required (hitems.unique hobject)

/-- Nothing of an annotation is lost where there are no objects. -/
theorem decoded_of_withoutObjects (h : Annotates create s a) (hs : WithoutObjects s) :
    a.decoded = a := by
  cases h with
  | item h =>
      cases h with
      | any | scalar | array => rfl
      | object hr => exact absurd hr (hs.1 _ _)
  | array hr hitems =>
      cases hitems with
      | any | scalar | array => rfl
      | object hr' => exact absurd hr' (hs.2 _ hr _ _)

theorem annotation_of_any (h : Annotates create s a) (hs : Reads s .any) : a = .type .any := by
  cases h with
  | item h =>
      cases h with
      | any => rfl
      | scalar hr | array hr | object hr => cases hs.unique hr
  | array hr => cases hs.unique hr

theorem isSome_validate_decoded_annotation (h : Annotates create s a) {v : Json}
    (hv : (a.validate model v).isSome) : (a.decoded.validate model v).isSome := by
  cases h with
  | item h =>
      cases h with
      | any | scalar | array => exact hv
      | object => rfl
  | array hr hitems =>
      cases hitems with
      | any | scalar | array => exact hv
      | object =>
          obtain ⟨vs, rfl, -⟩ := (isSome_validate_list _ v).mp hv
          exact (isSome_validate_list _ _).mpr ⟨vs, rfl, fun w _ ↦ rfl⟩

/-- What is left of a field accepts more. -/
theorem isSome_validate_decoded (h : Annotates create s f.annotation) {v : Option Json}
    (hv : (f.validate model v).isSome) : (f.decoded.validate model v).isSome := by
  cases v with
  | none =>
      rw [isSome_validate_none] at hv ⊢
      exact hv
  | some v =>
      rw [isSome_validate_some] at hv ⊢
      rcases hv with hv | hv
      · exact .inl hv
      · apply Or.inr
        rw [FieldDefinition.decoded]
        cases f.isRequired with
        | true => exact isSome_validate_decoded_annotation h hv
        | false => rfl

/-- And the same, if nothing is lost. -/
theorem validate_decoded (h : f.annotation = .type .any ∨
    f.isRequired = true ∧ f.annotation.decoded = f.annotation) :
    f.decoded.validate model = f.validate model := by
  obtain ⟨name, a, isRequired, default⟩ := f
  funext v
  rcases h with h | ⟨hrequired, hsame⟩
  · obtain rfl : a = .type .any := h
    cases isRequired with
    | true =>
        cases v with
        | none => rfl
        | some v => cases v <;> rfl
    | false =>
        cases v with
        | none => rfl
        | some v => cases v <;> rfl
  · obtain rfl : isRequired = true := hrequired
    have hdecoded : FieldDefinition.decoded ⟨name, a, true, default⟩ = ⟨name, a, true, .null⟩ := by
      change a.decoded = a at hsame
      show FieldDefinition.mk name a.decoded true .null = _
      rw [hsame]
    rw [hdecoded]
    cases v with
    | none => rfl
    | some v => cases v <;> rfl

/-- What is no longer checked of a property: a value that does not fit is accepted. -/
theorem exists_accepted {required : List String} {p : String × Json} (hp : IsSchema p.2)
    (h : Annotates create p.2 f.annotation) (hrequired : f.isRequired = decide (p.1 ∈ required))
    (hany : ¬ Reads p.2 .any) (hlost : ¬ (p.1 ∈ required ∧ WithoutObjects p.2)) :
    ∃ v, v ≠ .null ∧ ¬ Fits itemSchema p.2 v ∧ (f.decoded.validate model (some v)).isSome := by
  have hother : ∃ v, v ≠ .null ∧ ¬ Fits itemSchema p.2 v := by
    obtain ⟨head, hr⟩ := hp.reads
    obtain ⟨v, hv, hnot⟩ := exists_not_fits hr fun heq ↦ hany (heq ▸ hr)
    exact ⟨v, hv, hnot itemSchema⟩
  by_cases hmem : p.1 ∈ required
  · have hwithout : ¬ WithoutObjects p.2 := fun hwithout ↦ hlost ⟨hmem, hwithout⟩
    have hdecoded : f.decoded.annotation = f.annotation.decoded := by
      rw [FieldDefinition.decoded, hrequired, decide_eq_true hmem, if_pos rfl]
    simp only [isSome_validate_some, hdecoded]
    generalize f.annotation = a at h
    cases h with
    | item h harray =>
        cases h with
        | any hr => exact absurd hr hany
        | scalar hr => exact absurd (withoutObjects_scalar hr) hwithout
        | array hr => exact absurd hr (harray _)
        | object =>
            obtain ⟨v, hv, hnot⟩ := hother
            exact ⟨v, hv, hnot, .inr rfl⟩
    | array hr hitems =>
        cases hitems with
        | any hi | scalar hi | array hi =>
            refine absurd (withoutObjects_array hr hi ?_) hwithout
            intro properties required heq
            cases heq
        | object hi =>
            -- any array will do
            refine ⟨.arr [.null], (fun hv ↦ by cases hv), ?_, .inr rfl⟩
            intro hfits
            obtain ⟨vs, hvs, helements⟩ := (fits_array_iff hr).mp hfits
            cases hvs
            have hnull := helements .null List.mem_cons_self
            rw [itemSchema_of_ne hi (fun inner heq ↦ by cases heq)] at hnull
            exact not_fits_null hi (fun heq ↦ by cases heq) hnull
  · obtain ⟨v, hv, hnot⟩ := hother
    refine ⟨v, hv, hnot, (isSome_validate_some _ v).mpr (.inr ?_)⟩
    rw [FieldDefinition.decoded, hrequired, decide_eq_false hmem]
    rfl

end

section

variable [SchemaDumpCodec] {n : ℕ} {s : Json} {modelName : String} {m m' : OutputModel}
variable {properties : List (String × Json)} {required : List String}
variable {fields : List FieldDefinition} {p : String × Json}

/-- A class rejects every object with a property that does not fit. -/
theorem not_accepts_of_not_fits (hs : IsSchema s)
    (h : createModelFromSchema n s modelName = .ok m)
    (hr : Reads s (.object properties required)) (hp : p ∈ properties) {v : Json}
    (hnull : v ≠ .null) (hnot : ¬ Fits itemSchema p.2 v) {entries : List (String × Json)}
    (hlookup : entries.lookup p.1 = some v) : ¬ m.Accepts (.obj entries) := by
  intro haccepts
  have hfits := (accepts_iff_fits n s modelName m hs h _).mp haccepts
  obtain ⟨entries', hentries, hall⟩ := (fits_object_iff hr).mp hfits
  cases hentries
  have hp := hall p hp
  rw [hlookup] at hp
  rcases hp with ⟨-, hv⟩ | hv
  · exact hnull hv
  · exact hnot hv

/-- The class that is rebuilt accepts an object that conforms but for one property, when its
own field for that property does. -/
theorem accepts_decoded (hs : IsSchema s) (hr : Reads s (.object properties required))
    (hfields : List.Forall₂ (fun p f ↦ fieldDefinition (createModelFromSchema n) modelName
      (required.map .str) p = .ok f) properties fields)
    (hm' : SchemaCodec.createModel modelName (fields.map (·.decoded)) = .ok m')
    {f : FieldDefinition} (hpf : fieldDefinition (createModelFromSchema n) modelName
      (required.map .str) p = .ok f) {v : Json} {entries : List (String × Json)}
    (hlookup : entries.lookup p.1 = some v)
    (hv : (f.decoded.validate PydanticCodec.modelValidate (some v)).isSome)
    (hothers : ∀ q ∈ properties, q ≠ p → ∃ w, entries.lookup q.1 = some w ∧ Conforms q.2 w) :
    m'.Accepts (.obj entries) := by
  rw [OutputModel.Accepts, PydanticCodec.modelValidate_eq hm', isSome_validateFields]
  refine ⟨entries, rfl, ?_⟩
  rw [List.forall_mem_map]
  intro g hg
  obtain ⟨q, hq, hqg⟩ := exists_of_mem_right hfields hg
  obtain ⟨hannotates, hname, -⟩ := fieldDefinition_eq_ok (hs.properties hr q hq) hqg
  rw [show g.decoded.name = q.1 from hname]
  by_cases hqp : q = p
  · subst hqp
    obtain rfl := Except.ok.inj (hpf.symm.trans hqg)
    rw [hlookup]
    exact hv
  · obtain ⟨w, hw, hconforms⟩ := hothers q hq hqp
    rw [hw]
    apply isSome_validate_decoded hannotates
    rw [isSome_validate_field (accepts_iff_fits n) (hs.properties hr q hq) hqg]
    exact .inr (fits_of_conforms hconforms)

/-- Of a flat schema nothing is lost. -/
theorem agrees_of_flat (hs : IsSchema s) (hr : Reads s (.object properties required))
    (hfields : List.Forall₂ (fun p f ↦ fieldDefinition (createModelFromSchema n) modelName
      (required.map .str) p = .ok f) properties fields)
    (hm : SchemaCodec.createModel modelName fields = .ok m)
    (hm' : SchemaCodec.createModel modelName (fields.map (·.decoded)) = .ok m')
    (hflat : Flat s) : m.Agrees m' := by
  intro entries
  rw [PydanticCodec.modelValidate_eq hm, PydanticCodec.modelValidate_eq hm']
  refine congrFun (validateFields_eq ?_) _
  rw [List.forall₂_map_right_iff, List.forall₂_same]
  intro f hf
  obtain ⟨p, hp, hpf⟩ := exists_of_mem_right hfields hf
  obtain ⟨htype, -, hrequired⟩ := fieldDefinition_eq_ok (hs.properties hr p hp) hpf
  refine ⟨rfl, (validate_decoded ?_).symm⟩
  rcases hflat properties required hr p hp with hany | ⟨hmem, hwithout⟩
  · exact .inl (annotation_of_any htype hany)
  · rw [hrequired, decide_eq_true hmem]
    exact .inr ⟨rfl, decoded_of_withoutObjects htype hwithout⟩

theorem names_of_fields (hproperties : ∀ p ∈ properties, IsSchema p.2)
    (hfields : List.Forall₂ (fun p f ↦ fieldDefinition (createModelFromSchema n) modelName
      (required.map .str) p = .ok f) properties fields) :
    fields.map (·.name) = properties.map Prod.fst := by
  apply Eq.symm
  rw [← List.forall₂_eq_eq_eq, List.forall₂_map_left_iff, List.forall₂_map_right_iff]
  refine ((List.forall₂_and_left _ _).mpr ⟨hproperties, hfields⟩).imp ?_
  rintro p f ⟨hp, hpf⟩
  exact (fieldDefinition_eq_ok hp hpf).2.1.symm

end

/-- The class that is rebuilt from the text of another agrees with it exactly if the schema the
other comes from is flat. -/
theorem rebuilt_agrees_iff [SchemaDumpCodec] {n : ℕ} {s : Json} {modelName : String}
    {m : OutputModel} (hs : IsSchema s) (h : createModelFromSchema n s modelName = .ok m) :
    ∃ schema m', SchemaCodec.loads m.schemaStr = .ok schema ∧
      createModelFromSchema n schema modelName = .ok m' ∧ (m.Agrees m' ↔ Flat s) := by
  obtain ⟨head, hr⟩ := hs.reads
  obtain ⟨n', properties, required, fields, rfl, rfl, hfields, hm⟩ :=
    createModelFromSchema_eq_ok hr h
  have hproperties := hs.properties hr
  have hannotates : ∀ f ∈ fields, ∃ s, Annotates (createModelFromSchema n') s f.annotation := by
    intro f hf
    obtain ⟨p, hp, hpf⟩ := exists_of_mem_right hfields hf
    exact ⟨p.2, (fieldDefinition_eq_ok (hproperties p hp) hpf).1⟩
  have hnodup : (fields.map (·.name)).Nodup := by
    rw [names_of_fields hproperties hfields]
    exact hs.nodup hr
  obtain ⟨m', hm'⟩ := SchemaDumpCodec.createModel_decoded hm
  refine ⟨_, m', SchemaDumpCodec.loads_schemaStr hm,
    (createModelFromSchema_modelJsonSchema hannotates hnodup).trans hm', ?_⟩
  constructor
  · intro hagrees properties' required' hr' p hp
    cases hr.unique hr'
    by_contra hlost
    rw [not_or] at hlost
    obtain ⟨f, hf, hpf⟩ := exists_of_mem_left hfields hp
    obtain ⟨htype, -, hrequired⟩ := fieldDefinition_eq_ok (hproperties p hp) hpf
    -- a value that the old class rejects and the new one accepts
    obtain ⟨v, hnull, hnot, hv⟩ :=
      exists_accepted (hproperties p hp) htype hrequired hlost.1 hlost.2
    obtain ⟨entries, hlookup, hothers⟩ := hs.exists_object hr hp v
    have hrejects := not_accepts_of_not_fits hs h hr hp hnull hnot hlookup
    have haccepts := accepts_decoded hs hr hfields hm' hpf hlookup hv hothers
    rw [OutputModel.Accepts, hagrees entries] at hrejects
    exact hrejects haccepts
  · exact agrees_of_flat hs hr hfields hm hm'

/-! ## The store -/

/-- The dictionary that names one file. -/
theorem truthyItem_singleton (key : String) {file : String} (h : file ≠ "") :
    truthyItem [(.str key, .str file)] key = some (.str file) := by
  have hlast : Json.getLast [(.str key, .str file)] key = some (.str file) := by
    rw [Json.getLast, List.reverse_singleton, List.find?_cons_of_pos (by simp [Json.isText])]
    rfl
  rw [truthyItem, hlast, Option.filter_some]
  exact if_pos (decide_eq_true h)

section

variable [ConfigCodec] {c : CompletionConfig} {m : OutputModel} {t t' : FileTree}
  {dir : List String} {faults : List (Option Fault)} {raw : List (Json × Json)}

/-- The schema is written last. -/
theorem read_outputConfig (hc : c.outputConfig = some m)
    (h : t.exec (serializeActions c dir) faults = (t', none)) :
    t'.read (join dir (outputConfigFile c m.schemaStr)) = .ok m.schemaStr := by
  rw [serializeActions, resourceWrites, hc] at h
  obtain ⟨t₁, -, h⟩ := exec_cons_ok h
  obtain ⟨t₂, faults₂, -, h⟩ := exec_append_ok h
  obtain ⟨t₃, hrun, h⟩ := exec_cons_ok h
  cases h
  exact read_run_write hrun

theorem outputConfigFile_ne (c : CompletionConfig) (schemaStr : String) :
    outputConfigFile c schemaStr ≠ "" := by
  rw [outputConfigFile]
  cases hpath : truthyText c.outputConfigPath with
  | some file => exact ne_of_truthyText hpath
  | none => exact (plainName_hexDigits _ (by decide) (by decide) (by decide)).ne_empty

variable [SchemaDumpCodec]

/-- What is loaded from the file of a class. -/
theorem resolveOutputConfig_of_serialized {modelName : String} {fields : List FieldDefinition}
    (hm : SchemaCodec.createModel modelName fields = .ok m) (hc : c.outputConfig = some m)
    (h : t.exec (serializeActions c dir) faults = (t', none))
    (hraw : truthyItem raw "output_config_path" = some (.str (outputConfigFile c m.schemaStr)))
    {schema : Json} (hloads : SchemaCodec.loads m.schemaStr = .ok schema) :
    (Disk.ofTree t').resolveOutputConfig raw dir =
      (createModelFromSchema SchemaCodec.recursionLimit schema "OutputModel").map some := by
  have hread : Disk.ofTree t' (join dir (outputConfigFile c m.schemaStr)) =
      .text m.schemaStr := by
    rw [Disk.ofTree, read_outputConfig hc h]
    exact congrArg FileRead.text (asRead_eq_self_iff.mpr (SchemaDumpCodec.return_notMem hm))
  have hload : (Disk.ofTree t').loadResource (join dir (outputConfigFile c m.schemaStr))
      "output_config" = .ok m.schemaStr := by
    rw [Disk.loadResource, hread]
  simp only [Disk.resolveOutputConfig, hraw, osPathJoin, bind, Except.bind, hload, hloads]

/-- What is asked of the file of a class: the class that is resolved from it agrees. -/
def ModelSurvives (t : FileTree) (dir : List String) (raw : List (Json × Json))
    (m : OutputModel) : Prop :=
  ∃ m', (Disk.ofTree t).resolveOutputConfig raw dir = .ok (some m') ∧ m.Agrees m'

/-- A class whose file was written survives exactly if every property is required and neither an
object nor an array of objects. -/
theorem modelSurvives_iff {s : Json} (hs : IsSchema s)
    (hm : createModelFromSchema SchemaCodec.recursionLimit s "OutputModel" = .ok m)
    (hc : c.outputConfig = some m) (h : t.exec (serializeActions c dir) faults = (t', none))
    (hraw : truthyItem raw "output_config_path" = some (.str (outputConfigFile c m.schemaStr))) :
    ModelSurvives t' dir raw m ↔ Flat s := by
  obtain ⟨head, hr⟩ := hs.reads
  obtain ⟨n, properties, required, fields, -, -, -, hcreate⟩ := createModelFromSchema_eq_ok hr hm
  obtain ⟨schema, m', hloads, hm', hagrees⟩ := rebuilt_agrees_iff hs hm
  rw [ModelSurvives, resolveOutputConfig_of_serialized hcreate hc h hraw hloads, hm', ← hagrees]
  constructor
  · rintro ⟨m'', h'', hagrees⟩
    cases h''
    exact hagrees
  · intro hagrees
    exact ⟨m', rfl, hagrees⟩

/-- What is asked of storing a configuration: it is stored, and the class that is resolved from
the file it then names agrees. -/
def SchemaSurvives (t : FileTree) (c : CompletionConfig) (dir : List String)
    (faults : List (Option Fault)) (m : OutputModel) : Prop :=
  ∃ t' stored file, serializeCompletionConfig t c dir faults = (t', .ok stored) ∧
    stored.outputConfigPath = some file ∧
    ∀ raw, truthyItem raw "output_config_path" = some (.str file) → ModelSurvives t' dir raw m

/-- **Output schemas survive**, when the calls on the file system go through, exactly if the class
can be dumped, and every property is required and neither an object nor an array of objects. -/
theorem schemaSurvives_iff {s : Json} (hs : IsSchema s)
    (hm : createModelFromSchema SchemaCodec.recursionLimit s "OutputModel" = .ok m)
    (hc : c.outputConfig = some m) (h : (t.exec (serializeActions c dir) faults).2 = none) :
    SchemaSurvives t c dir faults m ↔ ConfigCodec.dumpModel m = .ok () ∧ Flat s := by
  have hdump : dumpConfig c = ConfigCodec.dumpModel m := by rw [dumpConfig, hc]
  have hstored : (serializedConfig c).outputConfigPath =
      some (outputConfigFile c m.schemaStr) := by
    rw [serializedConfig, hc]
  constructor
  · rintro ⟨t', stored, file, hserialized, hfile, hall⟩
    obtain ⟨hdumped, hexec, rfl⟩ := serializeCompletionConfig_eq_ok_iff.mp hserialized
    obtain rfl := Option.some.inj (hstored.symm.trans hfile)
    have hraw : truthyItem [(.str "output_config_path", .str (outputConfigFile c m.schemaStr))]
        "output_config_path" = some (.str (outputConfigFile c m.schemaStr)) :=
      truthyItem_singleton _ (outputConfigFile_ne c m.schemaStr)
    exact ⟨hdump.symm.trans hdumped, (modelSurvives_iff hs hm hc hexec hraw).mp (hall _ hraw)⟩
  · rintro ⟨hdumped, hflat⟩
    have hexec : t.exec (serializeActions c dir) faults =
        ((t.exec (serializeActions c dir) faults).1, none) := Prod.ext rfl h
    refine ⟨_, _, _, serializeCompletionConfig_eq_ok_iff.mpr ⟨hdump.trans hdumped, hexec, rfl⟩,
      hstored, ?_⟩
    intro raw hraw
    exact (modelSurvives_iff hs hm hc hexec hraw).mpr hflat

end

/-! ## Two classes -/

/-- The class of one field, and the text that is written for it. -/
def sampleField (t : PyType) (isRequired : Bool) : List FieldDefinition :=
  [⟨"a", .type t, isRequired, .null⟩]

def sampleFlatText : String := String.join [
  "\x7b\n",
  "  \"properties\": \x7b\n",
  "    \"a\": \x7b\n",
  "      \"title\": \"A\",\n",
  "      \"type\": \"string\"\n",
  "    \x7d\n",
  "  \x7d,\n",
  "  \"required\": [\n",
  "    \"a\"\n",
  "  ],\n",
  "  \"title\": \"OutputModel\",\n",
  "  \"type\": \"object\"\n",
  "\x7d"]

/-- The same for a field that may be missing. -/
def sampleOptionalText (item : String) : String := String.join [
  "\x7b\n",
  "  \"properties\": \x7b\n",
  "    \"a\": \x7b\n",
  "      \"anyOf\": [\n",
  "        \x7b",
  item,
  "\x7d,\n",
  "        \x7b\n",
  "          \"type\": \"null\"\n",
  "        \x7d\n",
  "      ],\n",
  "      \"default\": null,\n",
  "      \"title\": \"A\"\n",
  "    \x7d\n",
  "  \x7d,\n",
  "  \"title\": \"OutputModel\",\n",
  "  \"type\": \"object\"\n",
  "\x7d"]

def sampleStrText : String := sampleOptionalText "\n          \"type\": \"string\"\n        "

def sampleAnyText : String := sampleOptionalText ""

theorem return_notMem_join {lines : List String} (h : ∀ line ∈ lines, '\r' ∉ line.toList) :
    '\r' ∉ (String.join lines).toList := by
  rw [String.toList_join, List.mem_flatMap]
  rintro ⟨line, hline, hreturn⟩
  exact h line hline hreturn

theorem return_notMem_sampleFlat : '\r' ∉ sampleFlatText.toList := by
  apply return_notMem_join
  simp

theorem return_notMem_sampleOptional {item : String} (h : '\r' ∉ item.toList) :
    '\r' ∉ (sampleOptionalText item).toList := by
  apply return_notMem_join
  simp [h]

theorem sampleTexts_ne : sampleStrText ≠ sampleFlatText ∧ sampleAnyText ≠ sampleFlatText ∧
    sampleAnyText ≠ sampleStrText := by
  decide +kernel

def sampleDumpCreateModel (modelName : String) (fields : List FieldDefinition) :
    Except PyExc OutputModel :=
  match modelName, fields with
  | "OutputModel", [⟨"a", .type .str, true, .null⟩] => .ok ⟨sampleFlatText⟩
  | "OutputModel", [⟨"a", .type .str, false, .null⟩] => .ok ⟨sampleStrText⟩
  | "OutputModel", [⟨"a", .type .any, false, .null⟩] => .ok ⟨sampleAnyText⟩
  | _, _ => .error (.other "NotImplementedError" "")

/-- The fields of the class with a text. -/
def sampleFieldOf (text : String) : List FieldDefinition :=
  if text = sampleFlatText then sampleField .str true
  else if text = sampleStrText then sampleField .str false
  else sampleField .any false

theorem sampleFieldOf_text {modelName : String} {fields : List FieldDefinition} {m : OutputModel}
    (h : sampleDumpCreateModel modelName fields = .ok m) :
    modelName = "OutputModel" ∧ sampleFieldOf m.schemaStr = fields ∧
      (∀ f ∈ fields, ∀ m, ¬ f.annotation.HasModel m) ∧ '\r' ∉ m.schemaStr.toList ∧
      ∃ m', sampleDumpCreateModel modelName (fields.map (·.decoded)) = .ok m' := by
  obtain ⟨hstr, hany, hne⟩ := sampleTexts_ne
  unfold sampleDumpCreateModel at h
  split at h
  · cases h
    refine ⟨rfl, if_pos rfl, ?_, return_notMem_sampleFlat, _, rfl⟩
    intro f hf m
    rw [List.mem_singleton.mp hf]
    exact id
  · cases h
    refine ⟨rfl, (if_neg hstr).trans (if_pos rfl), ?_,
      return_notMem_sampleOptional (by simp), _, rfl⟩
    intro f hf m
    rw [List.mem_singleton.mp hf]
    exact id
  · cases h
    refine ⟨rfl, (if_neg hany).trans (if_neg hne), ?_,
      return_notMem_sampleOptional (by simp), _, rfl⟩
    intro f hf m
    rw [List.mem_singleton.mp hf]
    exact id
  · cases h

@[reducible] def sampleDumpCodec : SchemaDumpCodec where
  loads text := .ok (modelJsonSchema [] (·.schemaStr) (fun _ ↦ "A") "OutputModel"
    (sampleFieldOf text))
  createModel := sampleDumpCreateModel
  recursionLimit := 1000
  modelValidate m := validateFields (fun _ _ ↦ none) (sampleFieldOf m.schemaStr)
  modelValidate_eq h v := by
    obtain ⟨-, hfields, hmodels, -, -⟩ := sampleFieldOf_text h
    rw [hfields]
    exact congrFun (validateFields_congr fun f hf m hm ↦ absurd hm (hmodels f hf m)) v
  defs _ := []
  refName _ := (·.schemaStr)
  fieldTitle _ := "A"
  loads_schemaStr h := by
    obtain ⟨rfl, hfields, -⟩ := sampleFieldOf_text h
    rw [hfields]
  return_notMem h := (sampleFieldOf_text h).2.2.2.1
  createModel_decoded h := (sampleFieldOf_text h).2.2.2.2

/-- What pydantic raises for a class in `mode="json"`; a `PydanticSerializationError` is a
`ValueError`. -/
def notSerializable : PyExc := .valueError ("Unable to serialize unknown type: " ++
  "<class 'pydantic._internal._model_construction.ModelMetaclass'>")

/-- The digests of the texts. -/
@[reducible] def sampleDumpHashes : ConfigCodec where
  digest text :=
    if text = sampleFlatText then 0xf741398a
    else if text = sampleStrText then 0xca4762fa
    else 0
  loadSchema _ := .error (.valueError "Invalid JSON for output_config")
  dumpModel _ := .error notSerializable

/-- The schema of an object with one text. -/
def sampleTextSchema (required : List String) : Json := .obj [("type", .str "object"),
  ("properties", .obj [("a", .obj [("type", .str "string")])]),
  ("required", .arr (required.map .str))]

theorem reads_sampleTextSchema (required : List String) : Reads (sampleTextSchema required)
    (.object [("a", .obj [("type", .str "string")])] required) :=
  .object rfl rfl rfl

theorem isSchema_sampleTextSchema (required : List String) :
    IsSchema (sampleTextSchema required) := by
  refine .object (reads_sampleTextSchema required) (by decide) ?_
  intro p hp
  rw [List.mem_singleton.mp hp]
  exact .scalar (.scalar (t := .string) rfl)

/-- A configuration with a class. -/
def sampleModelConfig (text : String) : CompletionConfig :=
  { CompletionConfig.sample with outputConfig := some ⟨text⟩ }

/-- The tree it is to be written to. -/
def sampleModelTree : FileTree := ⟨(∅ : OrderedDict _ _).set ["d"] .dir⟩

/-- A class does not survive that cannot be dumped. -/
theorem not_schemaSurvives_sampleStr :
    ¬ @SchemaSurvives sampleDumpHashes sampleDumpCodec sampleModelTree
      (sampleModelConfig sampleStrText) ["d"] [] ⟨sampleStrText⟩ := by
  have hmodel : @createModelFromSchema sampleDumpCodec.toSchemaCodec 1000 (sampleTextSchema [])
      "OutputModel" = .ok ⟨sampleStrText⟩ := by decide +kernel
  intro hsurvives
  have hdumped := ((@schemaSurvives_iff sampleDumpHashes (sampleModelConfig sampleStrText)
    ⟨sampleStrText⟩ sampleModelTree ["d"] [] sampleDumpCodec _ (isSchema_sampleTextSchema [])
    hmodel rfl (by decide +kernel)).mp hsurvives).1
  cases hdumped

/-- Not even one with a required text: the configuration is not stored at all. -/
theorem not_schemaSurvives :
    IsSchema (sampleTextSchema ["a"]) ∧
      @createModelFromSchema sampleDumpCodec.toSchemaCodec 1000 (sampleTextSchema ["a"])
        "OutputModel" = .ok ⟨sampleFlatText⟩ ∧
      @serializeCompletionConfig sampleDumpHashes sampleModelTree
        (sampleModelConfig sampleFlatText) ["d"] [] = (sampleModelTree, .error notSerializable) ∧
      ¬ @SchemaSurvives sampleDumpHashes sampleDumpCodec sampleModelTree
        (sampleModelConfig sampleFlatText) ["d"] [] ⟨sampleFlatText⟩ := by
  have hmodel : @createModelFromSchema sampleDumpCodec.toSchemaCodec 1000
      (sampleTextSchema ["a"]) "OutputModel" = .ok ⟨sampleFlatText⟩ := by decide +kernel
  have hraises : @serializeCompletionConfig sampleDumpHashes sampleModelTree
      (sampleModelConfig sampleFlatText) ["d"] [] = (sampleModelTree, .error notSerializable) := rfl
  refine ⟨isSchema_sampleTextSchema ["a"], hmodel, hraises, ?_⟩
  rintro ⟨t', stored, file, hserialized, -⟩
  cases hraises.symm.trans hserialized
