import ChatServer.Storage.SchemaModel

/-!
# Arrays of arrays

`create_model_from_schema` recurses into the objects of a schema, and into those in an array.
Into an array in an array it does not: what a model accepts is what its schema describes, with
the schemas of such arrays left out.
-/

open JsonSchema

/-! ## What is lost -/

/-- Somewhere in a schema the items of an array are arrays that say what is in them. -/
inductive NestedArrays : Json → Prop
  | here {s items inner : Json} {head : Head} (h : Reads s (.array items))
      (hitems : Reads items (.array inner)) (hinner : Reads inner head) (ne : head ≠ .any) :
      NestedArrays s
  | items {s items : Json} (h : Reads s (.array items)) (hitems : NestedArrays items) :
      NestedArrays s
  | property {s : Json} {properties : List (String × Json)} {required : List String}
      (h : Reads s (.object properties required)) {p : String × Json} (hp : p ∈ properties)
      (hproperty : NestedArrays p.2) : NestedArrays s

theorem not_nestedArrays_scalar {s : Json} {t : Scalar} (h : Reads s (.scalar t)) :
    ¬ NestedArrays s := by
  intro hnested
  cases hnested with
  | here h' | items h' | property h' => cases h.unique h'

theorem nestedArrays_array_iff {s items : Json} (h : Reads s (.array items)) :
    NestedArrays s ↔ (∃ inner head, Reads items (.array inner) ∧ Reads inner head ∧ head ≠ .any) ∨
      NestedArrays items := by
  constructor
  · intro hnested
    cases hnested with
    | here h' hitems hinner ne =>
        cases h.unique h'
        exact .inl ⟨_, _, hitems, hinner, ne⟩
    | items h' hitems =>
        cases h.unique h'
        exact .inr hitems
    | property h' => cases h.unique h'
  · rintro (⟨inner, head, hitems, hinner, ne⟩ | hitems)
    · exact .here h hitems hinner ne
    · exact .items h hitems

theorem nestedArrays_object_iff {s : Json} {properties : List (String × Json)}
    {required : List String} (h : Reads s (.object properties required)) :
    NestedArrays s ↔ ∃ p ∈ properties, NestedArrays p.2 := by
  constructor
  · intro hnested
    cases hnested with
    | here h' | items h' => cases h.unique h'
    | property h' hp hproperty =>
        cases h.unique h'
        exact ⟨_, hp, hproperty⟩
  · rintro ⟨p, hp, hproperty⟩
    exact .property h hp hproperty

/-- Without arrays of arrays that say what is in them, what fits conforms. -/
theorem conforms_of_fits {s v : Json} (hs : IsSchema s) (hkeep : ¬ NestedArrays s)
    (h : Fits itemSchema s v) : Conforms s v := by
  induction h with
  | any h => exact .any h
  | scalar h holds => exact .scalar h holds
  | @array s items vs h elements ih =>
      have hitems := hs.items h
      apply Fits.array h
      intro v hv
      obtain ⟨head, hhead⟩ := hitems.reads
      by_cases harray : ∃ inner, head = .array inner
      · obtain ⟨inner, rfl⟩ := harray
        have hfits := elements v hv
        rw [itemSchema_array hhead, fits_bareList] at hfits
        obtain ⟨ws, rfl⟩ := hfits
        obtain ⟨head, hinner⟩ := (hitems.items hhead).reads
        by_cases hany : head = .any
        · subst hany
          exact .array hhead fun w _ ↦ .any hinner
        · exact absurd (.here h hhead hinner hany) hkeep
      · have hsame := itemSchema_of_ne hhead (not_exists.mp harray)
        rw [hsame] at ih
        exact ih v hv hitems fun hnested ↦ hkeep (.items h hnested)
  | object h present _ ih =>
      have hproperties := hs.properties h
      apply Fits.object h present
      intro p hp v hlookup hv
      exact ih p hp v hlookup hv (hproperties p hp) fun hnested ↦ hkeep (.property h hp hnested)

/-- With them, something fits that does not conform. -/
theorem exists_fits_not_conforms {s : Json} (hs : IsSchema s) (h : NestedArrays s) :
    ∃ v, v ≠ .null ∧ Fits itemSchema s v ∧ ¬ Conforms s v := by
  induction h with
  | here h hitems hinner ne =>
      -- the inner arrays are not looked into
      refine ⟨.arr [.arr [.null]], (fun hv ↦ by cases hv), ?_, ?_⟩
      · apply Fits.array h
        intro v hv
        rw [itemSchema_array hitems, fits_bareList]
        exact ⟨_, List.mem_singleton.mp hv⟩
      · intro hconforms
        obtain ⟨vs, hvs, helements⟩ := (fits_array_iff h).mp hconforms
        cases hvs
        obtain ⟨ws, hws, hnull⟩ := (fits_array_iff hitems).mp (helements _ List.mem_cons_self)
        cases hws
        exact not_fits_null hinner ne (hnull _ List.mem_cons_self)
  | items h _ ih =>
      obtain ⟨v, -, hfits, hnot⟩ := ih (hs.items h)
      refine ⟨.arr [v], (fun hv ↦ by cases hv), ?_, ?_⟩
      · apply Fits.array h
        intro w hw
        rw [List.mem_singleton.mp hw]
        exact fits_item hfits
      · intro hconforms
        obtain ⟨vs, hvs, helements⟩ := (fits_array_iff h).mp hconforms
        cases hvs
        exact hnot (helements _ List.mem_cons_self)
  | @property s properties required h p hp _ ih =>
      obtain ⟨v, hnull, hfits, hnot⟩ := ih (hs.properties h p hp)
      obtain ⟨entries, hlookup, hothers⟩ := hs.exists_object h hp v
      refine ⟨.obj entries, (fun hv ↦ by cases hv), ?_, ?_⟩
      · refine (fits_object_iff h).mpr ⟨entries, rfl, ?_⟩
        intro q hq
        by_cases hqp : q = p
        · rw [hqp, hlookup]
          exact .inr hfits
        · obtain ⟨w, hw, hconforms⟩ := hothers q hq hqp
          rw [hw]
          exact .inr (fits_of_conforms hconforms)
      · intro hconforms
        obtain ⟨entries', hentries, hproperties⟩ := (fits_object_iff h).mp hconforms
        cases hentries
        have hproperty := hproperties p hp
        rw [hlookup] at hproperty
        rcases hproperty with ⟨-, hv⟩ | hv
        · exact hnull hv
        · exact hnot hv

/-! ## The law -/

/-- What is asked of the model of a schema: among the objects it accepts those that conform. -/
def OutputModel.Implements [PydanticCodec] (m : OutputModel) (s : Json) : Prop :=
  ∀ entries, m.Accepts (.obj entries) ↔ Conforms s (.obj entries)

/-- **Every model accepts what its schema describes** exactly if no array of the schema has
arrays as its items that say what is in them. -/
theorem implements_iff [PydanticCodec] {n : ℕ} {s : Json} {modelName : String}
    {m : OutputModel} (hs : IsSchema s) (h : createModelFromSchema n s modelName = .ok m) :
    m.Implements s ↔ ¬ NestedArrays s := by
  have haccepts := accepts_iff_fits n s modelName m hs h
  constructor
  · intro hall hnested
    obtain ⟨v, -, hfits, hnot⟩ := exists_fits_not_conforms hs hnested
    obtain ⟨head, hr⟩ := hs.reads
    obtain ⟨n', properties, required, fields, -, rfl, -, -⟩ := createModelFromSchema_eq_ok hr h
    obtain ⟨entries, rfl, -⟩ := (fits_object_iff hr).mp hfits
    exact hnot ((hall entries).mp ((haccepts _).mpr hfits))
  · intro hkeep entries
    constructor
    · intro haccept
      exact conforms_of_fits hs hkeep ((haccepts _).mp haccept)
    · intro hconforms
      exact (haccepts _).mpr (fits_of_conforms hconforms)

/-! ## Two schemas -/

/-- `create_model` for the class of the items of an array, for a class that has such an array,
and for one with an array of arrays. -/
def sampleCreateModel (modelName : String) (fields : List FieldDefinition) :
    Except PyExc OutputModel :=
  match modelName, fields with
  | "M_a_item", [⟨"b", .type .int, true, .null⟩] => .ok ⟨"item"⟩
  | "M", [⟨"a", .list (.model ⟨"item"⟩), true, .null⟩, ⟨"c", .type .str, false, .null⟩] =>
      .ok ⟨"model"⟩
  | "M", [⟨"a", .list (.type .list), true, .null⟩] => .ok ⟨"nested"⟩
  | _, _ => .error (.other "NotImplementedError" "")

def sampleValidateItem (_ : OutputModel) : Json → Option Json :=
  validateFields (fun _ _ ↦ none) [⟨"b", .type .int, true, .null⟩]

def sampleValidate (m : OutputModel) : Json → Option Json :=
  if m = ⟨"item"⟩ then sampleValidateItem m
  else if m = ⟨"model"⟩ then validateFields sampleValidateItem
    [⟨"a", .list (.model ⟨"item"⟩), true, .null⟩, ⟨"c", .type .str, false, .null⟩]
  else validateFields sampleValidateItem [⟨"a", .list (.type .list), true, .null⟩]

@[reducible] def samplePydanticCodec : PydanticCodec where
  loads _ := .error (.decodeError "")
  createModel := sampleCreateModel
  recursionLimit := 1000
  modelValidate := sampleValidate
  modelValidate_eq {modelName fields m} h v := by
    unfold sampleCreateModel at h
    split at h
    · cases h
      refine congrFun (validateFields_congr ?_) v
      intro f hf m hm
      cases List.mem_singleton.mp hf
      cases hm
    · cases h
      refine congrFun (validateFields_congr ?_) v
      intro f hf m hm
      rcases List.mem_cons.mp hf with rfl | hf
      · cases hm
        rfl
      · cases List.mem_singleton.mp hf
        cases hm
    · cases h
      refine congrFun (validateFields_congr ?_) v
      intro f hf m hm
      cases List.mem_singleton.mp hf
      cases hm
    · cases h

/-- An object with a number, which must be there. -/
def sampleItem : Json := .obj [("type", .str "object"),
  ("properties", .obj [("b", .obj [("type", .str "integer")])]), ("required", .arr [.str "b"])]

/-- An object with an array of such objects, which must be there, and a text, which need not. -/
def sampleSchema : Json := .obj [("type", .str "object"), ("properties", .obj [
  ("a", .obj [("type", .str "array"), ("items", sampleItem)]),
  ("c", .obj [("type", .str "string")])]), ("required", .arr [.str "a"])]

/-- An object with an array of arrays of texts. -/
def sampleNestedSchema : Json := .obj [("type", .str "object"), ("properties", .obj [
  ("a", .obj [("type", .str "array"), ("items", .obj [("type", .str "array"),
    ("items", .obj [("type", .str "string")])])])]), ("required", .arr [.str "a"])]

theorem reads_sampleItem :
    Reads sampleItem (.object [("b", .obj [("type", .str "integer")])] ["b"]) :=
  .object rfl rfl rfl

theorem reads_sampleSchema : Reads sampleSchema (.object
    [("a", .obj [("type", .str "array"), ("items", sampleItem)]),
      ("c", .obj [("type", .str "string")])] ["a"]) :=
  .object rfl rfl rfl

theorem reads_sampleNestedSchema : Reads sampleNestedSchema (.object
    [("a", .obj [("type", .str "array"), ("items", .obj [("type", .str "array"),
      ("items", .obj [("type", .str "string")])])])] ["a"]) :=
  .object rfl rfl rfl

theorem isSchema_sampleSchema : IsSchema sampleSchema := by
  refine .object reads_sampleSchema (by decide) ?_
  intro p hp
  rcases List.mem_cons.mp hp with rfl | hp
  · refine .array (.array rfl) (.object reads_sampleItem (by decide) ?_)
    intro p hp
    rw [List.mem_singleton.mp hp]
    exact .scalar (.scalar (t := .integer) rfl)
  · rw [List.mem_singleton.mp hp]
    exact .scalar (.scalar (t := .string) rfl)

theorem not_nestedArrays_sampleSchema : ¬ NestedArrays sampleSchema := by
  rw [nestedArrays_object_iff reads_sampleSchema]
  rintro ⟨p, hp, hnested⟩
  rcases List.mem_cons.mp hp with rfl | hp
  · rcases (nestedArrays_array_iff (.array rfl)).mp hnested with ⟨inner, head, hitems, -⟩ | hnested
    · cases hitems.unique reads_sampleItem
    · obtain ⟨p, hp, hnested⟩ := (nestedArrays_object_iff reads_sampleItem).mp hnested
      rw [List.mem_singleton.mp hp] at hnested
      exact not_nestedArrays_scalar (.scalar (t := .integer) rfl) hnested
  · rw [List.mem_singleton.mp hp] at hnested
    exact not_nestedArrays_scalar (.scalar (t := .string) rfl) hnested

/-- An array of objects keeps what is in them. -/
theorem implements_sampleSchema :
    @OutputModel.Implements samplePydanticCodec ⟨"model"⟩ sampleSchema := by
  have hmodel : @createModelFromSchema samplePydanticCodec.toSchemaCodec 2 sampleSchema "M" =
      .ok ⟨"model"⟩ := by decide +kernel
  exact (@implements_iff samplePydanticCodec 2 sampleSchema "M" ⟨"model"⟩
    isSchema_sampleSchema hmodel).mpr not_nestedArrays_sampleSchema

/-- An array of arrays does not: numbers are taken for texts. -/
theorem not_implements :
    IsSchema sampleNestedSchema ∧
      @createModelFromSchema samplePydanticCodec.toSchemaCodec 1 sampleNestedSchema "M" =
        .ok ⟨"nested"⟩ ∧
      @OutputModel.Accepts samplePydanticCodec ⟨"nested"⟩
        (.obj [("a", .arr [.arr [.int 1]])]) ∧
      ¬ @OutputModel.Implements samplePydanticCodec ⟨"nested"⟩ sampleNestedSchema := by
  have haccepts : (sampleValidate ⟨"nested"⟩ (.obj [("a", .arr [.arr [.int 1]])])).isSome := by
    decide +kernel
  refine ⟨?_, by decide +kernel, haccepts, ?_⟩
  · refine .object reads_sampleNestedSchema (by decide) ?_
    intro p hp
    rw [List.mem_singleton.mp hp]
    exact .array (.array rfl) (.array (.array rfl) (.scalar (.scalar (t := .string) rfl)))
  intro himplements
  obtain ⟨entries, hentries, hproperties⟩ :=
    (fits_object_iff reads_sampleNestedSchema).mp ((himplements _).mp haccepts)
  cases hentries
  rcases hproperties _ List.mem_cons_self with ⟨-, hnull⟩ | ha
  · cases hnull
  · obtain ⟨vs, hvs, helements⟩ := (fits_array_iff (.array rfl)).mp ha
    cases hvs
    obtain ⟨ws, hws, hinner⟩ :=
      (fits_array_iff (.array rfl)).mp (helements _ List.mem_cons_self)
    cases hws
    have hscalar := (fits_scalar_iff (.scalar (t := .string) rfl)).mp
      (hinner _ List.mem_cons_self)
    cases hscalar
