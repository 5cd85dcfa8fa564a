import WorkflowTemplates.Proofs.Json.Field
import WorkflowTemplates.Schema.Reading
import WorkflowTemplates.Schema.Written

/-!
# Written templates and steps read back

Every type of records is regular, and the fields that are written of a record fill it again, so each
part of a template or step decodes from the document that is written of it. A template is read with
its manifest set aside under the key of its kind.
-/

namespace WorkflowTemplates

open Json (Closing Field Node)
open Json (RecordType)
open Json.RecordType (Fills take)

variable {closing : Closing}

/-! ## Parameters -/

theorem ConfigMapKeySelector.regular : ConfigMapKeySelector.recordType.Regular where
  distinct := by decide
  independent := by simp [recordType, Field.text?, Field.independent_of]

theorem ValueFrom.regular : ValueFrom.recordType.Regular where
  distinct := by decide
  independent := by simp [recordType, Field.text?, Field.independent_of]

theorem Parameter.regular : Parameter.recordType.Regular where
  distinct := by decide
  independent := by simp [recordType, Field.text?, Field.texts?, Field.independent_of]

theorem parametersType_regular (name : String) : (parametersType name).Regular where
  distinct := by simp [parametersType]
  independent := List.pairwise_singleton _ _

/-- A `ConfigMapKeySelector` is read back from the document that is written of it. -/
theorem ConfigMapKeySelector.decode_toDocument (s : ConfigMapKeySelector)
    (hclosing : closing.error? = none) :
    recordType.decode (s.toDocument.toJson.toNode closing) = .ok s := by
  refine regular.decode_record (.of_append_nil ?_) hclosing
  simp only [List.append_assoc, List.cons_append]
  refine .always (Node.string_toNode _) (.text? rfl ?_)
  exact .optional (fun b _ => Node.bool_toNode b) (fun _ _ _ => nofun) rfl (.nil _)

/-- A `ValueFrom` is read back from the document that is written of it. -/
theorem ValueFrom.decode_toDocument (v : ValueFrom) (hclosing : closing.error? = none) :
    recordType.decode (v.toDocument.toJson.toNode closing) = .ok v := by
  refine regular.decode_record (.of_append_nil ?_) hclosing
  simp only [List.append_assoc]
  refine .optional (fun s _ => s.decode_toDocument hclosing) (fun _ _ _ => nofun) rfl ?_
  exact .text? rfl (.text? rfl (.text? rfl (.text? rfl (.text? rfl (.text? rfl
    (.text? rfl (.nil _)))))))

/-- A `Parameter` is read back from the document that is written of it. -/
theorem Parameter.decode_toDocument (p : Parameter) (hclosing : closing.error? = none) :
    recordType.decode (p.toDocument.toJson.toNode closing) = .ok p := by
  refine regular.decode_record (.of_append_nil ?_) hclosing
  simp only [List.append_assoc, List.cons_append]
  refine .always (Node.string_toNode _) (.text? rfl (.texts? hclosing rfl (.text? rfl ?_)))
  refine .optional (fun v _ => v.decode_toDocument hclosing) (fun _ _ _ => nofun) rfl ?_
  exact .text? rfl (.nil _)

/-- A record of parameters is read back, also if there are none and the record is empty. -/
theorem decode_parametersDocument (name : String) (parameters : List Parameter)
    (hclosing : closing.error? = none) :
    (parametersType name).decode ((parametersDocument parameters).toJson.toNode closing)
      = .ok parameters := by
  refine (parametersType_regular name).decode_record (.of_append_nil ?_) hclosing
  exact .defaulted (fun p _ => p.decode_toDocument hclosing) hclosing rfl (.nil _)

/-! ## Manifests -/

theorem EnvVar.regular : EnvVar.recordType.Regular where
  distinct := by decide
  independent := by simp [recordType, Field.text?, Field.independent_of]

theorem Container.regular : Container.recordType.Regular where
  distinct := by decide
  independent := by simp [recordType, Field.text?, Field.texts?, Field.independent_of]

theorem Script.regular : Script.recordType.Regular where
  distinct := by decide
  independent := by simp [recordType, Field.text?, Field.texts?, Field.independent_of]

theorem Resource.regular : Resource.recordType.Regular where
  distinct := by decide
  independent := by simp [recordType, Field.text?, Field.texts?, Field.independent_of]

/-- An `EnvVar` is read back from the document that is written of it. -/
theorem EnvVar.decode_toDocument (e : EnvVar) (hclosing : closing.error? = none) :
    recordType.decode (e.toDocument.toJson.toNode closing) = .ok e := by
  refine regular.decode_record (.of_append_nil ?_) hclosing
  exact .always (Node.string_toNode _) (.text? rfl (.nil _))

/-- What is written of a `Container` fills it, field by field (`Fills`). -/
theorem Container.fills (c : Container) (hclosing : closing.error? = none) :
    Fills closing recordType.fields c.toDocument.fields recordType.empty c := by
  refine .of_append_nil ?_
  simp only [toDocument, Document.fields, List.append_assoc]
  refine .text? rfl (.text? rfl (.texts? hclosing rfl (.texts? hclosing rfl (.text? rfl ?_))))
  exact .defaulted (fun e _ => e.decode_toDocument hclosing) hclosing rfl (.nil _)

/-- What is written of a `Script` fills it, field by field (`Fills`). -/
theorem Script.fills (s : Script) (hclosing : closing.error? = none) :
    Fills closing recordType.fields s.toDocument.fields recordType.empty s := by
  refine .of_append_nil ?_
  simp only [toDocument, Document.fields, List.append_assoc, List.cons_append]
  refine .always (Node.string_toNode _) (.texts? hclosing rfl ?_)
  refine .always (Node.string_toNode _) (.text? rfl ?_)
  exact .defaulted (fun e _ => e.decode_toDocument hclosing) hclosing rfl (.nil _)

/-- What is written of a `Resource` fills it, field by field (`Fills`). -/
theorem Resource.fills (r : Resource) (hclosing : closing.error? = none) :
    Fills closing recordType.fields r.toDocument.fields recordType.empty r := by
  refine .of_append_nil ?_
  simp only [toDocument, Document.fields, List.append_assoc, List.cons_append]
  refine .always (Node.variant_toNode r.action.lookup_name) (.text? rfl (.texts? hclosing rfl ?_))
  refine .optional (fun m _ => Node.variant_toNode m.lookup_name) (fun _ _ _ => nofun) rfl ?_
  refine .text? rfl (.text? rfl ?_)
  exact .optional (fun b _ => Node.bool_toNode b) (fun _ _ _ => nofun) rfl (.nil _)

/-- The content of a manifest is read back as a manifest of its kind (`ManifestKind.decodeBody`). -/
theorem Manifest.decodeBody_body (m : Manifest) (hclosing : closing.error? = none) :
    m.kind.decodeBody (m.body.toJson.toNode closing) = .ok m := by
  cases m with
  | container c =>
    have h := Container.regular.decode_record (c.fills hclosing) hclosing
    exact congrArg (Except.map container) h
  | script s =>
    have h := Script.regular.decode_record (s.fills hclosing) hclosing
    exact congrArg (Except.map script) h
  | resource r =>
    have h := Resource.regular.decode_record (r.fills hclosing) hclosing
    exact congrArg (Except.map resource) h

/-! ## Templates -/

namespace Template

/-- Takes a copy of a node without errors (`Node.detached`), as `Draft.setAside` does. -/
def Draft.decodeAside : Json.Decoder Node := fun n =>
  match n.firstError asideDepth with
  | some e => .error e.toDecodeError
  | none => .ok n.detached

/-- A member that is set aside under `key`, as a field that is stored in front of the members set
aside. -/
def Draft.asideField (key : String) : Json.Field Draft :=
  .of key .optional decodeAside fun n d => { d with others := (⟨.ok key, none⟩, n) :: d.others }

theorem Draft.setAside_eq (key : String) (n : Node) :
    setAside (⟨.ok key, none⟩, n) = (asideField key).store n := by
  funext d
  unfold setAside asideField Field.of decodeAside
  cases h : n.firstError asideDepth <;> simp [h, Except.map]

/-- A template whose manifest is set aside under `key`, as a record of three fields. -/
def Draft.keyedType (key : String) : RecordType Draft :=
  { Draft.recordType with fields := Draft.recordType.fields ++ [asideField key] }

theorem Draft.keyedType_regular (kind : ManifestKind) : (keyedType kind.key).Regular where
  distinct := by cases kind <;> decide
  independent := by
    simp [keyedType, recordType, asideField, Field.independent_of]

/-- The draft of the template `t`: its manifest is set aside under its key. -/
def draft (t : Template) : Draft where
  name := t.name
  inputs := t.inputs
  others := [(⟨.ok t.manifest.key, none⟩, t.manifest.body.toJson.toNode .setAside)]

/-- The fields that are written of the template `t`, in their order. -/
def written (t : Template) : List (String × Document) :=
  ("name", .string t.name)
    :: (if t.inputs.isEmpty then [] else [("inputs", parametersDocument t.inputs)])
    ++ [(t.manifest.key, t.manifest.body)]

/-- The names of the fields that are written of the template `t` (`written`). -/
def writtenNames (t : Template) : List String :=
  "name" :: (if t.inputs = [] then [] else ["inputs"]) ++ [t.manifest.key]

theorem map_written (t : Template) : t.written.map (·.1) = t.writtenNames := by
  unfold written writtenNames
  cases t.inputs <;> simp

/-- What is written of a template in memory fills its draft (`Draft.keyedType`). -/
theorem fills_draft (t : Template) :
    Fills .memory (Draft.keyedType t.manifest.key).fields t.written Draft.recordType.empty
      t.draft := by
  have haside : Draft.decodeAside (t.manifest.body.toJson.toNode .memory)
      = .ok (t.manifest.body.toJson.toNode .setAside) := by
    rw [Draft.decodeAside, Json.firstError_memory, Json.detached_toNode]
  refine .always (Node.string_toNode _) ?_
  cases hinputs : t.inputs with
  | nil =>
    refine .missing nofun (.always haside ?_)
    rw [draft, hinputs]
    exact .nil _
  | cons p rest =>
    refine .always (decode_parametersDocument _ _ rfl) (.always haside ?_)
    rw [draft, hinputs]
    exact .nil _

/-- The object of a template has the fields that are written of it, in the order of their names. -/
theorem toJson_toDocument (t : Template) :
    ∃ members, t.toDocument.toJson = .object members
      ∧ members.Perm (Document.toMembers t.written) :=
  (Draft.keyedType_regular t.manifest.kind).toJson_record t.fills_draft

/-- The manifest is found among the members of a draft (`manifestOf`), since only its key is that of
a kind. -/
theorem manifestOf_draft (t : Template) : manifestOf t.draft.others.reverse = .ok t.manifest := by
  have hbody := t.manifest.decodeBody_body Closing.error?_setAside
  rw [draft, List.reverse_singleton, manifestOf]
  have hreader : Manifest.readers.lookup t.manifest.key = some t.manifest.kind.decodeBody := by
    cases t.manifest <;> rfl
  simp [bind, Except.bind, hreader, hbody]

/-- A template is read back (`Template.decode`) from the object that is written of it. -/
theorem decode_toDocument (t : Template) :
    decode (Node.ofJson t.toDocument.toJson) = .ok t := by
  obtain ⟨members, hmembers, hperm⟩ := t.toJson_toDocument
  have hregular := Draft.keyedType_regular t.manifest.kind
  have htake : ∀ m ∈ Document.toMembers t.written,
      take .memory Draft.recordType.fields Draft.setAside m
        = take .memory (Draft.keyedType t.manifest.key).fields Draft.setAside m := by
    intro m hm
    refine RecordType.take_append_field (Draft.setAside_eq _ _) ?_
    refine t.fills_draft.names_sublist.subset ?_
    rw [← Document.names_toMembers]
    exact List.mem_map_of_mem hm
  have hdraft := hregular.decodeObject_perm (t := Draft.recordType) t.fills_draft
    (fun f hf => List.mem_append_left _ hf) htake hperm rfl
  have hmanifest := t.manifestOf_draft
  rw [hmembers, Json.ofJson_eq, Json.toNode, decode, hdraft]
  simp only [bind, Except.bind, hmanifest]
  rfl

end Template

/-! ## Steps -/

theorem Sequence.regular : Sequence.recordType.Regular where
  distinct := by decide
  independent := by simp [recordType, Field.text?, Field.independent_of]

theorem WorkflowStep.regular : WorkflowStep.recordType.Regular where
  distinct := by decide
  independent := by simp [recordType, Field.text?, Field.independent_of]

/-- A `Sequence` is read back from the document that is written of it. -/
theorem Sequence.decode_toDocument (s : Sequence) (hclosing : closing.error? = none) :
    recordType.decode (s.toDocument.toJson.toNode closing) = .ok s := by
  refine regular.decode_record (.of_append_nil ?_) hclosing
  simp only [List.append_assoc]
  refine .optional (fun i _ => Node.uint64_toNode i) (fun _ _ _ => nofun) rfl ?_
  refine .optional (fun i _ => Node.int64_toNode i) (fun _ _ _ => nofun) rfl ?_
  refine .optional (fun i _ => Node.int64_toNode i) (fun _ _ _ => nofun) rfl ?_
  exact .text? rfl (.nil _)

/-- A `WorkflowStep` is read back from memory, if the objects among the items of its loop are in
order. -/
theorem WorkflowStep.decode_toDocument (s : WorkflowStep)
    (hitems : ∀ items, s.withItems = some items → Json.OrderedItems items) :
    recordType.decode (Node.ofJson s.toDocument.toJson) = .ok s := by
  have hany : ∀ items, s.withItems = some items → Node.list Node.any
      ((Document.list (items.map .ofJson)).toJson.toNode .memory) = .ok items := by
    intro items h
    refine Node.list_toNode (fun v hv => ?_) rfl
    have hv := Json.ordered_of_mem (hitems items h) hv
    rw [Document.toJson_ofJson hv, Node.any_toNode hv]
  rw [Json.ofJson_eq]
  refine regular.decode_record (.of_append_nil ?_) rfl
  simp only [List.append_assoc, List.cons_append]
  refine .always (Node.string_toNode _) (.always (Node.string_toNode _) ?_)
  refine .optional (fun ps _ => decode_parametersDocument _ ps rfl) (fun _ _ _ => nofun) rfl ?_
  refine .optional hany (fun _ _ _ => nofun) rfl (.text? rfl ?_)
  refine .optional (fun q _ => q.decode_toDocument rfl) (fun _ _ _ => nofun) rfl ?_
  exact .text? rfl (.nil _)

/-! ## Schemas -/

/-- The keys of different kinds are different, and none of them is the name of another field, so a
written template has the key of its own kind only. -/
theorem ManifestKind.key_mem_writtenNames_iff (kind : ManifestKind) (t : Template) :
    kind.key ∈ t.writtenNames ↔ kind = t.manifest.kind := by
  have hname : kind.key ≠ "name" := by cases kind <;> decide
  have hinputs : kind.key ≠ "inputs" := by cases kind <;> decide
  have hkey : kind.key = t.manifest.key ↔ kind = t.manifest.kind := by
    unfold Manifest.key
    generalize t.manifest.kind = kind'
    cases kind <;> cases kind' <;> decide
  unfold Template.writtenNames
  split <;> simp [hname, hinputs, hkey]

/-- **Schemas read back.** Every template is written as an object of its name, of its inputs if it
has any, and of its manifest under the key of its kind, which is the only key of a kind that the
object has; and the template is read back from the object (`Template.decode`). Every step is read
back from what is written of it, whatever JSON values its loop goes over; their objects are in order
(`Json.OrderedItems`), as those of all values are. -/
theorem written_reads_back :
    (∀ t : Template, ∃ members, t.toDocument.toJson = .object members
        ∧ (members.map (·.1)).Perm
          ("name" :: (if t.inputs = [] then [] else ["inputs"]) ++ [t.manifest.key])
        ∧ (∀ kind : ManifestKind, kind.key ∈ members.map (·.1) ↔ kind = t.manifest.kind)
        ∧ Template.decode (Node.ofJson t.toDocument.toJson) = .ok t)
      ∧ ∀ s : WorkflowStep, (∀ items, s.withItems = some items → Json.OrderedItems items) →
        WorkflowStep.recordType.decode (Node.ofJson s.toDocument.toJson) = .ok s := by
  refine ⟨fun t => ?_, WorkflowStep.decode_toDocument⟩
  obtain ⟨members, hmembers, hperm⟩ := t.toJson_toDocument
  have hnames : (members.map (·.1)).Perm t.writtenNames := by
    rw [← t.map_written, ← Document.names_toMembers]
    exact hperm.map (·.1)
  refine ⟨members, hmembers, hnames, fun kind => ?_, t.decode_toDocument⟩
  rw [hnames.mem_iff, kind.key_mem_writtenNames_iff]

/-- A step without arguments in its call, which loops over values of several kinds and over a
sequence of which only the end is given. -/
def sweepStep : WorkflowStep where
  name := "sweep"
  template := "probe"
  arguments := some []
  withItems := some [.null, .array [], .object [("a", .ofInt64 (-1)), ("b", .string "x")]]
  withSequence := some { last := some (-3) }

/-- The `sweepStep` is read back, the empty call and the partial sequence included. -/
theorem sweepStep_reads_back :
    WorkflowStep.recordType.decode (Node.ofJson sweepStep.toDocument.toJson) = .ok sweepStep := by
  refine written_reads_back.2 sweepStep ?_
  rintro _ ⟨⟩
  simp only [Json.OrderedItems, Json.Ordered, Json.OrderedMembers, Json.ofInt64, and_true]
  decide

end WorkflowTemplates
