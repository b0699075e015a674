import ChatServer.Python.Json
import ChatServer.Storage.ConfigLoader

/-!
# Configurations of any shape

`resolve_completion_config` runs before anything is validated, on whatever `json.load` has
found in the information file; `ConfigLoader` has it on configurations that are valid.  Here
it is with `_load_resource` and `create_model_from_schema` of `common/json_helpers.py` on
every JSON value, and on files that may be missing, unreadable or no text.

Beside each function stands the shape of its arguments on which it raises nothing but what
`handle_storage_errors` contains, and a theorem that the shape is exactly that.  What pydantic
and `json` do is up to the class `SchemaCodec`.
-/

open FileTree

/-- `FileNotFoundError`, which `handle_storage_errors` passes on, and what it turns into a
`StorageError`. -/
def PyExc.Contained : PyExc → Prop
  | fileNotFoundError _ | permissionError _ | osError _ | valueError _ => True
  | _ => False

/-! ## Files -/

/-- What opening a path and reading it as text comes to. -/
inductive FileRead where
  | text (content : String)
  | absent
  | denied
  /-- Any other `OSError`. -/
  | failed (message : String)
  /-- A `ValueError`: the file is no text, or the path is none. -/
  | undecodable (message : String)

/-- What every path can be read as. -/
abbrev Disk := List String → FileRead

/-- The files of a tree, none of which is unreadable. -/
def Disk.ofTree (t : FileTree) : Disk := fun p ↦
  match t.read p with
  | .ok content => .text (String.ofList (universalNewlines content.toList))
  | .error .notFound => .absent
  | .error .denied => .denied
  | .error _ => .failed (pathText p)

/-- `json.JSONDecodeError`, or what else `json.loads` may raise: for numbers or nestings
beyond the limits of the interpreter. -/
inductive JsonError where
  | decodeError (message : String)
  | other (e : PyExc)

/-! ## Model classes from JSON schemas -/

/-- The types of `_get_python_type`. -/
inductive PyType where
  | str | int | float | bool | list | dict | any
deriving DecidableEq, Repr

/-- The annotation of a field. -/
inductive Annotation where
  | type (t : PyType)
  | model (m : OutputModel)
  | list (item : Annotation)

/-- A field of a model class. -/
structure FieldDefinition where
  name : String
  annotation : Annotation
  isRequired : Bool
  default : Json

/-- What `json` and pydantic do, and how many calls deep the interpreter lets
`create_model_from_schema` go. -/
class SchemaCodec where
  /-- `json.loads`. -/
  loads : String → Except JsonError Json
  /-- `create_model`. -/
  createModel : String → List FieldDefinition → Except PyExc OutputModel
  recursionLimit : ℕ

/-- `schema_type == name`, for a value that may be missing. -/
def isType (name : String) (schemaType : Option Json) : Bool := schemaType.any (Json.isText name)

/-- `_get_python_type`. -/
def getPythonType (schemaType : Option Json) : Except PyExc PyType :=
  match schemaType.getD .null with
  | .str "string" => .ok .str
  | .str "integer" => .ok .int
  | .str "number" => .ok .float
  | .str "boolean" => .ok .bool
  | .str "array" => .ok .list
  | .str "object" => .ok .dict
  | v => if v.hashable then .ok .any else .error (.typeError s!"unhashable type: '{v.typeName}'")

/-- The annotation of one property; `create` builds the model of a nested schema. -/
def annotationOf (create : Json → String → Except PyExc OutputModel) (modelName : String)
    (fieldName : String) (fieldSchema : Json) (fieldType : Option Json) :
    Except PyExc Annotation :=
  if isType "object" fieldType then
    (create fieldSchema s!"{modelName}_{fieldName}").map .model
  else if isType "array" fieldType then do
    let itemsSchema ← fieldSchema.get "items"
    let itemsSchema := itemsSchema.getD (.obj [])
    let itemType ← itemsSchema.get "type"
    if isType "object" itemType then
      (create itemsSchema s!"{modelName}_{fieldName}_item").map fun m ↦ .list (.model m)
    else (getPythonType itemType).map fun t ↦ .list (.type t)
  else (getPythonType fieldType).map .type

/-- One turn of the loop of `create_model_from_schema`. -/
def fieldDefinition (create : Json → String → Except PyExc OutputModel) (modelName : String)
    (required : List Json) (field : String × Json) : Except PyExc FieldDefinition := do
  let fieldType ← field.2.get "type"
  let default ← field.2.get "default"
  let annotation ← annotationOf create modelName field.1 field.2 fieldType
  return { name := field.1, annotation, isRequired := required.any (Json.isText field.1),
           default := default.getD .null }

/-- `create_model_from_schema`, with the number of nested calls that are left. -/
def createModelFromSchema [SchemaCodec] : ℕ → Json → String → Except PyExc OutputModel
  | 0, _, _ => .error (.other "RecursionError" "maximum recursion depth exceeded")
  | n + 1, schema, modelName => do
      let schemaType ← schema.get "type"
      if isType "object" schemaType then do
        let properties ← schema.get "properties"
        let required ← schema.get "required"
        let required ← (required.getD (.arr [])).toSet
        let properties ← (properties.getD (.obj [])).items
        let fields ← properties.mapM (fieldDefinition (createModelFromSchema n) modelName required)
        SchemaCodec.createModel modelName fields
      else .error (.valueError "Root schema must be of type 'object'")

/-! ## Resolving -/

/-- `os.path.join(base_dir, v)`. -/
def osPathJoin (baseDir : List String) : Json → Except PyExc (List String)
  | .str s => .ok (join baseDir s)
  | v => .error (.typeError
      s!"join() argument must be str, bytes, or os.PathLike object, not '{v.typeName}'")

/-- `raw.get(key)` where it is truthy. -/
def truthyItem (raw : List (Json × Json)) (key : String) : Option Json :=
  (Json.getLast raw key).filter Json.truthy

/-- The dictionary `resolve_completion_config` returns: that of the file, with the texts and
the class that were put in. -/
structure RawConfig where
  entries : List (Json × Json)
  systemPrompt : Option String
  outputConfig : Option OutputModel

namespace Disk

/-- `_load_resource`. -/
def loadResource (disk : Disk) (path : List String) (resourceName : String) :
    Except PyExc String :=
  match disk path with
  | .text content => .ok content
  | .absent => .error (.systemExit s!"File with {resourceName} not found: '{pathText path}'")
  | .denied =>
      .error (.systemExit s!"Permission denied when reading {resourceName}: '{pathText path}'")
  | .failed message => .error (.osError message)
  | .undecodable message => .error (.valueError message)

variable [SchemaCodec]

/-- The first half of `resolve_completion_config`. -/
def resolveSystemPrompt (disk : Disk) (raw : List (Json × Json)) (baseDir : List String) :
    Except PyExc (Option String) :=
  match truthyItem raw "system_prompt_path" with
  | none => .ok none
  | some v => do
      let path ← osPathJoin baseDir v
      let text ← disk.loadResource path "system_prompt"
      return some text

/-- The second half of `resolve_completion_config`. -/
def resolveOutputConfig (disk : Disk) (raw : List (Json × Json)) (baseDir : List String) :
    Except PyExc (Option OutputModel) :=
  match truthyItem raw "output_config_path" with
  | none => .ok none
  | some v => do
      let path ← osPathJoin baseDir v
      let schemaText ← disk.loadResource path "output_config"
      match SchemaCodec.loads schemaText with
      | .error (.decodeError _) =>
          .error (.valueError s!"Invalid JSON for output_config in {pathText path}")
      | .error (.other e) => .error e
      | .ok schema =>
          (createModelFromSchema SchemaCodec.recursionLimit schema "OutputModel").map some

/-- `resolve_completion_config`. -/
def resolveCompletionConfig (disk : Disk) (raw : Json) (baseDir : List String) :
    Except PyExc RawConfig := do
  let raw ← raw.toDict
  let systemPrompt ← disk.resolveSystemPrompt raw baseDir
  let outputConfig ← disk.resolveOutputConfig raw baseDir
  return ⟨raw, systemPrompt, outputConfig⟩

end Disk

/-- On the files of a tree this is the `_load_resource` of `ConfigLoader`. -/
theorem loadResource_ofTree (t : FileTree) (path : List String) (resourceName : String) :
    (Disk.ofTree t).loadResource path resourceName = loadResource t path resourceName := by
  rw [Disk.loadResource, Disk.ofTree, loadResource]
  cases hread : t.read path with
  | ok content => rfl
  | error e =>
      cases e with
      | alreadyExists =>
          -- reading does not report this
          unfold FileTree.read at hread
          split at hread
          · rename_i e hresolve
            cases hread
            rcases walk_error hresolve with h | h <;> cases h
          · split at hread <;> cases hread
      | _ => rfl

/-! ## What they raise -/

namespace Json

/-- The value is an object, and its entries have a property. -/
def ObjectWith (Q : List (String × Json) → Prop) : Json → Prop
  | obj entries => Q entries
  | _ => False

/-- What `set` takes: a collection of possible keys. -/
def SetFits (v : Json) : Prop := ∃ items, v.elements? = some items ∧ ∀ item ∈ items, item.hashable

/-- What `dict` takes as an element, or rejects for its length. -/
def PairFits (v : Json) : Prop :=
  ∃ items, v.elements? = some items ∧ ∀ key value, items = [key, value] → key.hashable

/-- A sequence `dict` takes, or rejects for the length of an element. -/
def PairsFit (v : Json) : Prop :=
  ∃ items, v.elements? = some items ∧
    Py.EachReached (fun e ↦ toPair e.2 e.1) (fun e ↦ PairFits e.1) items.zipIdx

/-- What `dict` takes, or rejects for the length of an element. -/
def DictFits : Json → Prop
  | obj _ => True
  | v => v.PairsFit

theorem objectWith_congr {Q Q' : List (String × Json) → Prop}
    (h : ∀ entries, Q entries ↔ Q' entries) (v : Json) : v.ObjectWith Q ↔ v.ObjectWith Q' := by
  cases v with
  | obj entries => exact h entries
  | _ => exact Iff.rfl

end Json

section

open Py PyExc

variable {α : Type}

/-- What follows a `get` is reached for objects alone. -/
theorem raisesOnly_get {v : Json} {key : String} {f : Option Json → Except PyExc α} :
    RaisesOnly Contained (v.get key >>= f) ↔
      v.ObjectWith fun entries ↦ RaisesOnly Contained (f (entries.lookup key)) := by
  cases v with
  | obj entries => exact Iff.rfl
  | _ => exact raisesOnly_error

theorem raisesOnly_items {v : Json} {f : List (String × Json) → Except PyExc α} :
    RaisesOnly Contained (v.items >>= f) ↔
      v.ObjectWith fun entries ↦ RaisesOnly Contained (f entries) := by
  cases v with
  | obj entries => exact Iff.rfl
  | _ => exact raisesOnly_error

theorem raisesOnly_toSet (v : Json) : RaisesOnly Contained v.toSet ↔ v.SetFits := by
  rw [Json.toSet, Json.SetFits]
  cases v.elements? with
  | none =>
      refine raisesOnly_error.trans (iff_of_false id ?_)
      rintro ⟨items, h, -⟩
      cases h
  | some items =>
      simp only [Option.some.injEq, exists_eq_left']
      cases hfind : items.find? (!·.hashable) with
      | none =>
          refine iff_of_true (raisesOnly_ok items) ?_
          simpa using hfind
      | some item =>
          refine raisesOnly_error.trans (iff_of_false id ?_)
          intro h
          have hitem := List.find?_some hfind
          rw [h item (List.mem_of_find?_eq_some hfind)] at hitem
          cases hitem

theorem raisesOnly_toPair (i : ℕ) (v : Json) :
    RaisesOnly Contained (Json.toPair i v) ↔ v.PairFits := by
  rw [Json.toPair, Json.PairFits]
  split
  · rename_i hnone
    refine raisesOnly_error.trans (iff_of_false id ?_)
    rintro ⟨items, h, -⟩
    cases hnone.symm.trans h
  · rename_i key value hpair
    simp only [hpair, Option.some.injEq, exists_eq_left']
    split
    · rename_i hkey
      refine iff_of_true (raisesOnly_ok _) ?_
      rintro k x ⟨⟩
      exact hkey
    · rename_i hkey
      refine raisesOnly_error.trans (iff_of_false id ?_)
      intro h
      exact hkey (h key value rfl)
  · rename_i items hlength hitems
    refine raisesOnly_error.trans (iff_of_true trivial ⟨items, hitems, ?_⟩)
    intro key value h
    exact (hlength key value h).elim

theorem raisesOnly_pairsOf (v : Json) : RaisesOnly Contained v.pairsOf ↔ v.PairsFit := by
  rw [Json.pairsOf, Json.PairsFit]
  cases v.elements? with
  | none =>
      refine raisesOnly_error.trans (iff_of_false id ?_)
      rintro ⟨items, h, -⟩
      cases h
  | some items =>
      simp only [Option.some.injEq, exists_eq_left']
      exact raisesOnly_mapM (fun e : Json × ℕ ↦ raisesOnly_toPair e.2 e.1) _

theorem raisesOnly_toDict (v : Json) : RaisesOnly Contained v.toDict ↔ v.DictFits := by
  cases v with
  | obj entries => exact iff_of_true (raisesOnly_ok _) trivial
  | _ => simp only [Json.toDict, Json.DictFits, raisesOnly_pairsOf]

/-! ### Schemas -/

/-- The annotation of a property can be made: a nested schema fits, and any other type is
looked up by a possible key. -/
def AnnotationFits (fits : Json → String → Prop) (modelName fieldName : String)
    (fieldSchema : Json) (fieldType : Option Json) : Prop :=
  if isType "object" fieldType then fits fieldSchema s!"{modelName}_{fieldName}"
  else if isType "array" fieldType then
    fieldSchema.ObjectWith fun entries ↦
      ((entries.lookup "items").getD (.obj [])).ObjectWith fun itemsSchema ↦
        if isType "object" (itemsSchema.lookup "type") then
          fits ((entries.lookup "items").getD (.obj [])) s!"{modelName}_{fieldName}_item"
        else ((itemsSchema.lookup "type").getD .null).hashable
  else (fieldType.getD .null).hashable

/-- A property is described by an object. -/
def FieldFits (fits : Json → String → Prop) (modelName : String) (field : String × Json) : Prop :=
  field.2.ObjectWith fun entries ↦
    AnnotationFits fits modelName field.1 field.2 (entries.lookup "type")

/-- A schema `create_model_from_schema` can follow as far as pydantic lets it, or rejects:
an object which, if its type is `object`, names its required fields in a collection and
describes its properties in an object. -/
def SchemaFits [SchemaCodec] : ℕ → Json → String → Prop
  | 0, _, _ => False
  | n + 1, schema, modelName => schema.ObjectWith fun entries ↦
      isType "object" (entries.lookup "type") →
        ((entries.lookup "required").getD (.arr [])).SetFits ∧
        ∀ required, ((entries.lookup "required").getD (.arr [])).toSet = .ok required →
          ((entries.lookup "properties").getD (.obj [])).ObjectWith fun properties ↦
            EachReached (fieldDefinition (createModelFromSchema n) modelName required)
              (FieldFits (SchemaFits n) modelName) properties ∧
            ∀ fields, properties.mapM
                (fieldDefinition (createModelFromSchema n) modelName required) = .ok fields →
              RaisesOnly Contained (SchemaCodec.createModel modelName fields)

theorem raisesOnly_getPythonType (schemaType : Option Json) :
    RaisesOnly Contained (getPythonType schemaType) ↔ (schemaType.getD .null).hashable := by
  rw [getPythonType]
  generalize schemaType.getD .null = v
  split
  case h_7 =>
    split
    · rename_i hv
      exact iff_of_true (raisesOnly_ok _) hv
    · rename_i hv
      exact raisesOnly_error.trans (iff_of_false id hv)
  all_goals exact iff_of_true (raisesOnly_ok _) rfl

section

variable {create : Json → String → Except PyExc OutputModel} {fits : Json → String → Prop}

theorem raisesOnly_annotationOf (h : ∀ v name, RaisesOnly Contained (create v name) ↔ fits v name)
    (modelName fieldName : String) (fieldSchema : Json) (fieldType : Option Json) :
    RaisesOnly Contained (annotationOf create modelName fieldName fieldSchema fieldType) ↔
      AnnotationFits fits modelName fieldName fieldSchema fieldType := by
  rw [annotationOf, AnnotationFits]
  split
  · exact raisesOnly_map.trans (h _ _)
  · split
    · refine raisesOnly_get.trans (Json.objectWith_congr (fun entries ↦ ?_) _)
      refine raisesOnly_get.trans (Json.objectWith_congr (fun itemsSchema ↦ ?_) _)
      split
      · exact raisesOnly_map.trans (h _ _)
      · exact raisesOnly_map.trans (raisesOnly_getPythonType _)
    · exact raisesOnly_map.trans (raisesOnly_getPythonType _)

theorem raisesOnly_fieldDefinition
    (h : ∀ v name, RaisesOnly Contained (create v name) ↔ fits v name) (modelName : String)
    (required : List Json) (field : String × Json) :
    RaisesOnly Contained (fieldDefinition create modelName required field) ↔
      FieldFits fits modelName field := by
  obtain ⟨fieldName, fieldSchema⟩ := field
  refine raisesOnly_get.trans ?_
  cases fieldSchema with
  | obj entries =>
      refine Iff.trans raisesOnly_get (Iff.trans raisesOnly_bind ?_)
      refine Iff.trans (and_iff_left fun annotation _ ↦ raisesOnly_ok _) ?_
      exact raisesOnly_annotationOf h _ _ _ _
  | _ => exact Iff.rfl

end

/-- By induction on the calls that are left. -/
theorem raisesOnly_createModelFromSchema [SchemaCodec] (n : ℕ) (schema : Json)
    (modelName : String) :
    RaisesOnly Contained (createModelFromSchema n schema modelName) ↔
      SchemaFits n schema modelName := by
  induction n generalizing schema modelName with
  | zero => exact raisesOnly_error
  | succ n ih =>
      refine raisesOnly_get.trans ?_
      cases schema with
      | obj entries =>
          show RaisesOnly Contained (if _ then _ else _) ↔ (_ → _)
          split
          · rename_i htype
            refine Iff.trans ?_ (Iff.symm (forall_prop_of_true htype))
            refine Iff.trans raisesOnly_get (Iff.trans raisesOnly_get ?_)
            refine raisesOnly_bind.trans (and_congr (raisesOnly_toSet _) ?_)
            refine forall_congr' fun required ↦ forall_congr' fun _ ↦ ?_
            refine raisesOnly_items.trans (Json.objectWith_congr (fun properties ↦ ?_) _)
            refine raisesOnly_bind.trans (and_congr ?_ Iff.rfl)
            exact raisesOnly_mapM (raisesOnly_fieldDefinition ih modelName required) _
          · rename_i htype
            exact iff_of_true (raisesOnly_error.mpr trivial) fun h ↦ (htype h).elim
      | _ => exact Iff.rfl

/-! ### Resources -/

/-- A file `_load_resource` loads, with a property of its text, or cannot read for another
reason than that it is missing or denied. -/
def FileRead.LoadsWith (Q : String → Prop) : FileRead → Prop
  | .text content => Q content
  | .absent => False
  | .denied => False
  | .failed _ => True
  | .undecodable _ => True

/-- A value that names a path. -/
def Json.PathWith (Q : String → Prop) : Json → Prop
  | .str s => Q s
  | _ => False

/-- The resource a configuration names under a key, if it names any, can be loaded. -/
def ResourceFits (disk : Disk) (raw : List (Json × Json)) (baseDir : List String) (key : String)
    (Q : String → Prop) : Prop :=
  ∀ v ∈ truthyItem raw key, v.PathWith fun s ↦ (disk (join baseDir s)).LoadsWith Q

/-- A text that is not JSON, or a schema that fits. -/
def SchemaTextFits [SchemaCodec] (schemaText : String) : Prop :=
  match SchemaCodec.loads schemaText with
  | .error (.decodeError _) => True
  | .error (.other e) => e.Contained
  | .ok schema => SchemaFits SchemaCodec.recursionLimit schema "OutputModel"

/-- A value `resolve_completion_config` can resolve, or rejects with a `ValueError`. -/
def ConfigFits [SchemaCodec] (disk : Disk) (raw : Json) (baseDir : List String) : Prop :=
  raw.DictFits ∧ ∀ entries, raw.toDict = .ok entries →
    ResourceFits disk entries baseDir "system_prompt_path" (fun _ ↦ True) ∧
      ((∃ prompt, disk.resolveSystemPrompt entries baseDir = .ok prompt) →
        ResourceFits disk entries baseDir "output_config_path" SchemaTextFits)

/-- Loading the resource at a path and going on with its text. -/
theorem raisesOnly_resource {disk : Disk} {baseDir : List String} {resourceName : String}
    {f : List String → String → Except PyExc α} {Q : String → Prop}
    (hf : ∀ path content, RaisesOnly Contained (f path content) ↔ Q content) (v : Json) :
    RaisesOnly Contained (do
        let path ← osPathJoin baseDir v
        let content ← disk.loadResource path resourceName
        f path content) ↔
      v.PathWith fun s ↦ (disk (join baseDir s)).LoadsWith Q := by
  cases v with
  | str s =>
      show RaisesOnly Contained (disk.loadResource (join baseDir s) resourceName >>= _) ↔
        (disk (join baseDir s)).LoadsWith Q
      rw [Disk.loadResource]
      cases disk (join baseDir s) with
      | text content => exact hf _ _
      | absent => exact raisesOnly_error
      | denied => exact raisesOnly_error
      | failed message => exact raisesOnly_error
      | undecodable message => exact raisesOnly_error
  | _ => exact raisesOnly_error

section

variable (disk : Disk) (baseDir : List String)

theorem raisesOnly_resolveSystemPrompt (raw : List (Json × Json)) :
    RaisesOnly Contained (disk.resolveSystemPrompt raw baseDir) ↔
      ResourceFits disk raw baseDir "system_prompt_path" fun _ ↦ True := by
  rw [Disk.resolveSystemPrompt, ResourceFits]
  cases truthyItem raw "system_prompt_path" with
  | none => exact iff_of_true (raisesOnly_ok none) nofun
  | some v =>
      simp only [Option.mem_def, Option.some.injEq, forall_eq']
      refine raisesOnly_resource (fun path content ↦ ?_) v
      exact iff_of_true (raisesOnly_ok _) trivial

variable [SchemaCodec]

theorem raisesOnly_resolveOutputConfig (raw : List (Json × Json)) :
    RaisesOnly Contained (disk.resolveOutputConfig raw baseDir) ↔
      ResourceFits disk raw baseDir "output_config_path" SchemaTextFits := by
  rw [Disk.resolveOutputConfig, ResourceFits]
  cases truthyItem raw "output_config_path" with
  | none => exact iff_of_true (raisesOnly_ok none) nofun
  | some v =>
      simp only [Option.mem_def, Option.some.injEq, forall_eq']
      refine raisesOnly_resource (fun path content ↦ ?_) v
      rw [SchemaTextFits]
      cases SchemaCodec.loads content with
      | ok schema => exact raisesOnly_map.trans (raisesOnly_createModelFromSchema _ _ _)
      | error e =>
          cases e with
          | decodeError message => exact raisesOnly_error
          | other e => exact raisesOnly_error

/-- `resolve_completion_config` raises nothing but what is contained exactly on the values
that fit. -/
theorem raisesOnly_resolveCompletionConfig (raw : Json) :
    RaisesOnly Contained (disk.resolveCompletionConfig raw baseDir) ↔
      ConfigFits disk raw baseDir := by
  refine raisesOnly_bind.trans (and_congr (raisesOnly_toDict raw) ?_)
  refine forall_congr' fun entries ↦ forall_congr' fun _ ↦ ?_
  refine raisesOnly_bind.trans (and_congr (raisesOnly_resolveSystemPrompt disk baseDir entries) ?_)
  have hrest : ∀ prompt, RaisesOnly Contained (do
      let outputConfig ← disk.resolveOutputConfig entries baseDir
      return (⟨entries, prompt, outputConfig⟩ : RawConfig)) ↔
        ResourceFits disk entries baseDir "output_config_path" SchemaTextFits := by
    intro prompt
    have houtput := raisesOnly_resolveOutputConfig disk baseDir entries
    refine Iff.trans raisesOnly_bind (Iff.trans ?_ houtput)
    exact and_iff_left fun outputConfig _ ↦ raisesOnly_ok _
  constructor
  · rintro h ⟨prompt, hprompt⟩
    exact (hrest prompt).mp (h prompt hprompt)
  · intro h prompt hprompt
    exact (hrest prompt).mpr (h ⟨prompt, hprompt⟩)

end

end
