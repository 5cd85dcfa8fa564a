import WorkflowTemplates.Proofs.Schema.RoundTrip
import WorkflowTemplates.Template.Manifest

/-!
# Manifest documents resolve to their manifests

A manifest that was written as a document is found again, whether it stands under the key of its
kind or its content stands alone. Of a content only the names of its fields count, in any order
(`ManifestKind.classify_body`): no field of one kind of manifest tells another kind, and none is
the key of a kind. Containers without an image, a command and arguments have no telling field.
-/

namespace WorkflowTemplates

open Json (Node)

variable {names names' : List String} {members : List (String × Json)} {name other : String}

/-! ## The fields of a content -/

/-- The names of the fields that the content of a manifest of a kind may have, from the record type
of the kind. -/
def ManifestKind.fieldNames : ManifestKind → List String
  | container => Container.recordType.fields.map (·.name)
  | script => Script.recordType.fields.map (·.name)
  | resource => Resource.recordType.fields.map (·.name)

/-- The content of a manifest is an object of the fields that are written of it, in the order of
their names. -/
theorem Manifest.toJson_body (m : Manifest) :
    ∃ members, m.body.toJson = .object members
      ∧ members.Perm (Document.toMembers m.body.fields) := by
  cases m with
  | container c => exact Container.regular.toJson_record (c.fills Json.Closing.error?_memory)
  | script s => exact Script.regular.toJson_record (s.fills Json.Closing.error?_memory)
  | resource r => exact Resource.regular.toJson_record (r.fills Json.Closing.error?_memory)

/-- The written fields are fields of the kind (`ManifestKind.fieldNames`), in its order, as some are
left out. -/
theorem Manifest.names_sublist (m : Manifest) :
    (m.body.fields.map (·.1)).Sublist m.kind.fieldNames := by
  cases m with
  | container c => exact (c.fills Json.Closing.error?_memory).names_sublist
  | script s => exact (s.fills Json.Closing.error?_memory).names_sublist
  | resource r => exact (r.fills Json.Closing.error?_memory).names_sublist

/-- A field that is left out without a value (`Document.field?`) is written exactly with one. -/
theorem Document.mem_names_field? {value : Option Document} :
    name ∈ (Document.field? other value).map (·.1) ↔ name = other ∧ value.isSome := by
  cases value <;> simp [Document.field?]

/-- Variables are written exactly if there are any, under the name of the field `env`. -/
theorem mem_names_env? {env : List EnvVar} :
    name ∈ (env? env).map (·.1) ↔ name = "env" ∧ env ≠ [] := by
  cases env <;> simp [env?]

/-- The fields of a container tell its kind if one of image, command and arguments is there; the
others tell none. -/
theorem Container.ofFields?_names (c : Container) :
    ManifestKind.ofFields? (c.toDocument.fields.map (·.1))
      = if c.image.isSome ∨ c.command.isSome ∨ c.args.isSome then some .container else none := by
  simp only [toDocument, Document.fields, ManifestKind.ofFields?, List.map_append,
    List.mem_append, Document.text?, Document.texts?, Document.mem_names_field?, mem_names_env?]
  simp

/-- The source of a script tells its kind, and is always written. -/
theorem Script.ofFields?_names (s : Script) :
    ManifestKind.ofFields? (s.toDocument.fields.map (·.1)) = some .script := by
  simp [toDocument, Document.fields, ManifestKind.ofFields?]

/-- The action of a resource tells its kind, since no field of it is called `source`, which would be
told before. -/
theorem Resource.ofFields?_names (r : Resource) :
    ManifestKind.ofFields? (r.toDocument.fields.map (·.1)) = some .resource := by
  have hfields : "source" ∉ ManifestKind.resource.fieldNames := by decide
  have hsource : "source" ∉ r.toDocument.fields.map (·.1) := fun h =>
    hfields ((Manifest.resource r).names_sublist.subset h)
  have haction : "action" ∈ r.toDocument.fields.map (·.1) := by
    simp [toDocument, Document.fields]
  rw [ManifestKind.ofFields?, if_neg hsource, if_pos (.inl haction)]

/-! ## Classification -/

namespace ManifestKind

theorem ofKey?_key (kind : ManifestKind) : ofKey? kind.key = some kind := by
  cases kind <;> rfl

/-- No field of a manifest is called like a kind, so none is taken for the key of one. -/
theorem ofKey?_fieldNames {kind : ManifestKind} (h : name ∈ kind.fieldNames) :
    ofKey? name = none := by
  have hall : ∀ name ∈ kind.fieldNames, ofKey? name = none := by cases kind <;> decide
  exact hall name h

/-- The order of fields does not tell a kind: `ofFields?` only asks which ones there are. -/
theorem ofFields?_perm (h : names.Perm names') : ofFields? names = ofFields? names' := by
  simp only [ofFields?, h.mem_iff]

/-- An object that has no key of a kind is not taken at its word (`keyed?`). -/
theorem keyed?_eq_none (h : ∀ name ∈ members.map (·.1), ofKey? name = none) :
    keyed? members = none := by
  unfold keyed?
  split
  · next name _ => rw [h name (by simp), Option.map_none]
  · rfl

end ManifestKind

/-- The content of a manifest is an object that is not taken at its word (`keyed?`), by the names of
its fields. -/
theorem Manifest.exists_members (m : Manifest) :
    ∃ members, m.body.toJson = .object members
      ∧ (members.map (·.1)).Perm (m.body.fields.map (·.1))
      ∧ ManifestKind.keyed? members = none := by
  obtain ⟨members, hmembers, hperm⟩ := m.toJson_body
  have hnames : (members.map (·.1)).Perm (m.body.fields.map (·.1)) := by
    rw [← Document.names_toMembers]
    exact hperm.map (·.1)
  refine ⟨members, hmembers, hnames, ManifestKind.keyed?_eq_none fun name hname => ?_⟩
  exact ManifestKind.ofKey?_fieldNames (m.names_sublist.subset (hnames.mem_iff.1 hname))

namespace ManifestKind

variable {m : Manifest}

/-- The content of a manifest is of the kind that its fields tell (`ofFields?`). -/
theorem classify_body {kind : ManifestKind}
    (h : ofFields? (m.body.fields.map (·.1)) = some kind) :
    classify m.body.toJson = .ok kind := by
  obtain ⟨members, hmembers, hnames, hkeyed⟩ := m.exists_members
  simp only [hmembers, classify, hkeyed, ofFields?_perm hnames, h]

/-- The content of a manifest is of no known kind if its fields tell none; the error names them, in
the order of the object. -/
theorem classify_body_eq_error (h : ofFields? (m.body.fields.map (·.1)) = none) :
    ∃ names, names.Perm (m.body.fields.map (·.1))
      ∧ classify m.body.toJson = .error (.unknownManifestKind (.noKnownField names)) := by
  obtain ⟨members, hmembers, hnames, hkeyed⟩ := m.exists_members
  refine ⟨members.map (·.1), hnames, ?_⟩
  simp only [hmembers, classify, hkeyed, ofFields?_perm hnames, h]

end ManifestKind

/-! ## Resolution -/

namespace ManifestSpec

/-- The content of a manifest is its own content, since no kind is its only key. -/
theorem body_body (m : Manifest) : body m.body.toJson = m.body.toJson := by
  obtain ⟨members, hmembers, -, hkeyed⟩ := m.exists_members
  rw [hmembers, body, hkeyed]
  rfl

/-- The action of a resource is among the members of its content, where it is looked for. -/
theorem get?_action (r : Resource) : r.toDocument.toJson.get? "action" ≠ none := by
  obtain ⟨members, hmembers, hnames, -⟩ := (Manifest.resource r).exists_members
  have haction : "action" ∈ r.toDocument.fields.map (·.1) := by
    simp [Resource.toDocument, Document.fields]
  change (Manifest.resource r).body.toJson.get? "action" ≠ none
  rw [hmembers, Json.get?, Ne, lookup_eq_none_iff_notMem, not_not]
  exact hnames.mem_iff.2 haction

/-- A document that is of the kind of a manifest and has its content resolves to the manifest: what
is written of the content reads back. -/
theorem resolveRaw_eq_ok {document : Json} {m : Manifest}
    (hkind : ManifestKind.classify document = .ok m.kind)
    (hbody : body document = m.body.toJson) : resolveRaw document = .ok m := by
  have hdecode := m.decodeBody_body Json.Closing.error?_memory
  have haction : ¬(m.kind = .resource ∧ m.body.toJson.get? "action" = none) := by
    rintro ⟨hresource, hnone⟩
    cases m with
    | container c => cases hresource
    | script s => cases hresource
    | resource r => exact get?_action r hnone
  rw [resolveRaw, hkind]
  simp only [hbody, if_neg haction, Json.ofJson_eq, hdecode]

/-- A manifest under the key of its kind is taken at its word, and resolves to itself. -/
theorem resolveRaw_toDocument (m : Manifest) : resolveRaw m.toDocument.toJson = .ok m := by
  have hkeyed : m.toDocument.toJson = .object [(m.key, m.body.toJson)] := by
    rw [Manifest.toDocument, Document.toJson, Document.toMembers_eq_map]
    rfl
  have hkey : ManifestKind.ofKey? m.key = some m.kind := m.kind.ofKey?_key
  refine resolveRaw_eq_ok ?_ ?_
  · simp [hkeyed, ManifestKind.classify, ManifestKind.keyed?, hkey]
  · simp [hkeyed, body, ManifestKind.keyed?, hkey]

/-- The content of a manifest alone resolves to the manifest if its fields tell the kind. -/
theorem resolveRaw_body {m : Manifest}
    (h : ManifestKind.ofFields? (m.body.fields.map (·.1)) = some m.kind) :
    resolveRaw m.body.toJson = .ok m :=
  resolveRaw_eq_ok (ManifestKind.classify_body h) (body_body m)

/-- **Manifest documents resolve to their manifests.** A manifest under the key of its kind resolves
to itself. The content of a script or resource alone does so too, and that of a container if it has
an image, a command or arguments; a container that has none of them is of no known kind, and the
error names the fields that it has. -/
theorem resolve_raw :
    (∀ m : Manifest, (raw m.toDocument.toJson).resolve = .ok m)
      ∧ (∀ s : Script, (raw s.toDocument.toJson).resolve = .ok (.script s))
      ∧ (∀ r : Resource, (raw r.toDocument.toJson).resolve = .ok (.resource r))
      ∧ ∀ c : Container,
        (c.image.isSome ∨ c.command.isSome ∨ c.args.isSome →
          (raw c.toDocument.toJson).resolve = .ok (.container c))
        ∧ (c.image = none → c.command = none → c.args = none →
          ∃ names, names.Perm (c.toDocument.fields.map (·.1))
            ∧ ManifestKind.classify c.toDocument.toJson
              = .error (.unknownManifestKind (.noKnownField names))
            ∧ (raw c.toDocument.toJson).resolve
              = .error (.unknownManifestKind (.noKnownField names))) := by
  refine ⟨resolveRaw_toDocument, fun s => ?_, fun r => ?_, fun c => ⟨fun htold => ?_, ?_⟩⟩
  · exact resolveRaw_body (m := .script s) s.ofFields?_names
  · exact resolveRaw_body (m := .resource r) r.ofFields?_names
  · exact resolveRaw_body (m := .container c) (c.ofFields?_names.trans (if_pos htold))
  · intro himage hcommand hargs
    have hnone := c.ofFields?_names.trans (if_neg (by simp [himage, hcommand, hargs]))
    obtain ⟨names, hnames, hclassify⟩ :=
      ManifestKind.classify_body_eq_error (m := .container c) hnone
    refine ⟨names, hnames, hclassify, ?_⟩
    rw [resolve, resolveRaw]
    exact hclassify ▸ rfl

/-- An empty command is a command: it tells that its document is a container. -/
theorem resolve_empty_command :
    (raw (Container.toDocument { command := some [] }).toJson).resolve
      = .ok (.container { command := some [] }) :=
  (resolve_raw.2.2.2 { command := some [] }).1 (.inr (.inl rfl))

end ManifestSpec

end WorkflowTemplates
