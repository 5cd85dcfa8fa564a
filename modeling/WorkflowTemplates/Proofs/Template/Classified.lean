import WorkflowTemplates.Proofs.Outcome
import WorkflowTemplates.Proofs.Template.RawManifest

/-!
# Kinds and faults of manifest documents

Whatever a manifest document is, its kind foretells what becomes of it. A document has no kind
(`Unclassified`) exactly if it is no object, or an object without a telling field that has no kind
as its only key; such a document does not resolve, for that reason. A document of a kind resolves
to a manifest of that kind, or its content is not that of a manifest of the kind, or it is a
resource without an action (`resolve_by_kind`).
-/

namespace WorkflowTemplates

open Json (Node)

namespace ManifestKind

/-- The fields that tell the kind of a manifest, those of a script before those of a resource before
those of a container. -/
def tellingFields : List String :=
  ["source", "action", "manifest", "image", "command", "args"]

/-- Why a document has no kind: it is no object, or neither its only key nor any of its fields tells
one. The fault shows the document, or names its fields. -/
inductive Unclassified : Json → KindFault → Prop
  | notAnObject {document : Json} (h : ∀ members, document ≠ .object members) :
    Unclassified document (.notAnObject document.compact)
  | noKnownField {members : List (String × Json)}
      (unkeyed : ∀ kind inner, members ≠ [(key kind, inner)])
      (untold : ∀ name ∈ tellingFields, name ∉ members.map (·.1)) :
    Unclassified (.object members) (.noKnownField (members.map (·.1)))

end ManifestKind

variable {document : Json} {members : List (String × Json)} {names : List String}
  {name : String} {kind : ManifestKind} {m : Manifest} {e : Error}

namespace ManifestKind

/-- A kind is found by its key only (`ManifestKind.key`), so the keys are distinct. -/
theorem ofKey?_eq_some_iff : ofKey? name = some kind ↔ name = kind.key := by
  refine ⟨fun h => ?_, fun h => h ▸ ofKey?_key kind⟩
  unfold ofKey? at h
  split at h
  · next hname => cases h; exact hname
  split at h
  · next hname => cases h; exact hname
  split at h
  · next hname => cases h; exact hname
  · cases h

/-- An object is taken at its word if a kind is its only key, and then what stands under it is the
content. -/
theorem keyed?_eq_some_iff {inner : Json} :
    keyed? members = some (kind, inner) ↔ members = [(kind.key, inner)] := by
  constructor
  · intro h
    unfold keyed? at h
    split at h
    · next name v =>
      obtain ⟨kind', hkind, heq⟩ := Option.map_eq_some_iff.1 h
      cases heq
      rw [ofKey?_eq_some_iff.1 hkind]
    · cases h
  · rintro rfl
    simp [keyed?, ofKey?_key]

/-- An object is not taken at its word if no kind is its only key, be it among others or not there
at all. -/
theorem keyed?_eq_none_iff :
    keyed? members = none ↔ ∀ kind inner, members ≠ [(key kind, inner)] := by
  rw [Option.eq_none_iff_forall_ne_some]
  constructor
  · intro h kind inner hmembers
    exact h (kind, inner) (keyed?_eq_some_iff.2 hmembers)
  · rintro h ⟨kind, inner⟩ hkeyed
    exact h kind inner (keyed?_eq_some_iff.1 hkeyed)

/-- The fields of an object tell no kind if no telling field (`tellingFields`) is among them. -/
theorem ofFields?_eq_none_iff : ofFields? names = none ↔ ∀ name ∈ tellingFields, name ∉ names := by
  simp only [tellingFields, List.forall_mem_cons, List.not_mem_nil, false_imp_iff, implies_true,
    and_true]
  unfold ofFields?
  constructor
  · intro h
    split at h
    · cases h
    split at h
    · cases h
    split at h
    · cases h
    next hsource hresource hcontainer =>
    simp only [not_or] at hresource hcontainer
    exact ⟨hsource, hresource.1, hresource.2, hcontainer⟩
  · rintro ⟨hsource, haction, hmanifest, himage, hcommand, hargs⟩
    simp [*]

/-- **A document has no kind exactly for a reason** (`Unclassified`), and the reason is in the
error. -/
theorem classify_eq_error_iff :
    classify document = .error e
      ↔ ∃ fault, Unclassified document fault ∧ e = .unknownManifestKind fault := by
  constructor
  · intro h
    unfold classify at h
    split at h
    · next members =>
      split at h
      · cases h
      · cases h
      · next hkeyed hfields =>
        cases h
        exact ⟨_, .noKnownField (keyed?_eq_none_iff.1 hkeyed) (ofFields?_eq_none_iff.1 hfields), rfl⟩
    · next hobject =>
      cases h
      exact ⟨_, .notAnObject hobject, rfl⟩
  · rintro ⟨fault, hfault, rfl⟩
    cases hfault with
    | notAnObject hobject =>
      unfold classify
      split
      · next members => exact absurd rfl (hobject members)
      · rfl
    | noKnownField unkeyed untold =>
      rw [classify, keyed?_eq_none_iff.2 unkeyed, ofFields?_eq_none_iff.2 untold]

/-- What is read as the content of a manifest of a kind is a manifest of the kind, as each kind has
its own reader. -/
theorem kind_of_decodeBody {n : Node} (h : kind.decodeBody n = .ok m) : m.kind = kind := by
  cases kind with
  | container | script | resource =>
    obtain ⟨_, -, rfl⟩ := map_eq_ok.1 h
    rfl

end ManifestKind

open ManifestKind (classify Unclassified)

namespace ManifestSpec

/-- The content of a resource document: what stands under `resource`, if that is its only key, and
otherwise the whole document. -/
def resourceBody : Json → Json
  | .object [("resource", inner)] => inner
  | document => document

/-- A document whose only key is not `resource` is its own content as a resource. -/
theorem resourceBody_eq_self (h : ∀ inner, document ≠ .object [("resource", inner)]) :
    resourceBody document = document := by
  unfold resourceBody
  split
  · next inner => exact absurd rfl (h inner)
  · rfl

/-- The content of a document that is a resource (`resourceBody`), in which its action is looked
for. -/
theorem body_of_resource (h : classify document = .ok .resource) :
    body document = resourceBody document := by
  unfold classify at h
  split at h
  · next members =>
    split at h
    · next inner hkeyed =>
      cases h
      obtain rfl := ManifestKind.keyed?_eq_some_iff.1 hkeyed
      rw [body, hkeyed]
      rfl
    · next hkeyed _ =>
      have hunkeyed : ∀ inner, Json.object members ≠ .object [("resource", inner)] := by
        intro inner heq
        exact ManifestKind.keyed?_eq_none_iff.1 hkeyed .resource inner (Json.object.inj heq)
      rw [body, hkeyed, resourceBody_eq_self hunkeyed]
      rfl
    · cases h
  · cases h

/-- A document of a kind resolves unless it is a resource whose content has no action, and then its
content alone decides, by the reader of the kind (`decodeBody`). -/
theorem resolveRaw_of_classify (h : classify document = .ok kind) :
    resolveRaw document =
      if kind = .resource ∧ (resourceBody document).get? "action" = none then
        .error (.missingField "action")
      else match kind.decodeBody (Node.ofJson (body document)) with
        | .ok m => .ok m
        | .error e => .error (.invalidManifest kind e) := by
  have hbody : (kind = .resource ∧ (body document).get? "action" = none)
      ↔ kind = .resource ∧ (resourceBody document).get? "action" = none := by
    refine and_congr_right fun hkind => ?_
    rw [body_of_resource (hkind ▸ h)]
  rewrite [resolveRaw, h]
  exact if_congr hbody rfl rfl

/-- A document that resolves is of the kind of its manifest, so `classify` foretells it. -/
theorem classify_of_resolveRaw (h : resolveRaw document = .ok m) :
    classify document = .ok m.kind := by
  cases hkind : classify document with
  | error e =>
    rw [resolveRaw, hkind] at h
    cases h
  | ok kind =>
    rw [resolveRaw_of_classify hkind] at h
    split at h
    · cases h
    split at h
    · next hdecode =>
      cases h
      rw [ManifestKind.kind_of_decodeBody hdecode]
    · cases h

/-- A document that has no kind does not resolve, for the same reason and with the same error. -/
theorem resolveRaw_of_unclassified (h : classify document = .error e) :
    resolveRaw document = .error e := by
  rw [resolveRaw, h]

/-- What is wrong with a document of a kind that does not resolve: a resource has no action, or the
content is not that of a manifest of the kind. There is no third error. -/
theorem resolveRaw_eq_error_of_classify (hkind : classify document = .ok kind)
    (h : resolveRaw document = .error e) :
    (e = .missingField "action" ∧ kind = .resource ∧ (resourceBody document).get? "action" = none)
      ∨ ((∃ fault, e = .invalidManifest kind fault)
        ∧ ¬(kind = .resource ∧ (resourceBody document).get? "action" = none)) := by
  rw [resolveRaw_of_classify hkind] at h
  split at h
  · next haction =>
    cases h
    exact .inl ⟨rfl, haction⟩
  · next haction =>
    split at h
    · cases h
    · next fault _ =>
      cases h
      exact .inr ⟨⟨fault, rfl⟩, haction⟩

/-- **The kind of a document foretells what becomes of it**, whatever the document is. A document
that resolves is of the kind of its manifest. A document has no kind exactly for one of two reasons,
and then does not resolve for the same reason. If a document of a kind does not resolve, either its
content is not that of a manifest of the kind, or it is a resource without an action, and the latter
is said of resources whose content has no member `action` and of nothing else. -/
theorem resolve_by_kind (document : Json) :
    (∀ m, (raw document).resolve = .ok m → classify document = .ok m.kind)
      ∧ (∀ e, classify document = .error e
        ↔ ∃ fault, Unclassified document fault ∧ e = .unknownManifestKind fault)
      ∧ (∀ e, classify document = .error e → (raw document).resolve = .error e)
      ∧ (∀ kind e, classify document = .ok kind → (raw document).resolve = .error e →
        (∃ fault, e = .invalidManifest kind fault) ∨ e = .missingField "action")
      ∧ ((raw document).resolve = .error (.missingField "action")
        ↔ classify document = .ok .resource ∧ (resourceBody document).get? "action" = none) := by
  refine ⟨fun m => classify_of_resolveRaw, fun e => ManifestKind.classify_eq_error_iff,
    fun e => resolveRaw_of_unclassified, fun kind e hkind h => ?_, fun h => ?_, ?_⟩
  · obtain ⟨he, -⟩ | ⟨he, -⟩ := resolveRaw_eq_error_of_classify hkind h
    · exact .inr he
    · exact .inl he
  · cases hkind : classify document with
    | error e =>
      obtain ⟨fault, -, rfl⟩ := ManifestKind.classify_eq_error_iff.1 hkind
      cases h.symm.trans (resolveRaw_of_unclassified hkind)
    | ok kind =>
      obtain ⟨-, rfl, haction⟩ | ⟨⟨fault, hfault⟩, -⟩ := resolveRaw_eq_error_of_classify hkind h
      · exact ⟨rfl, haction⟩
      · cases hfault
  · rintro ⟨hkind, haction⟩
    rw [resolve, resolveRaw_of_classify hkind, if_pos ⟨rfl, haction⟩]

/-- A document that says no more than that it is a resource is one without an action, even if there
is no object under its key; a script whose image is a number is no script. -/
theorem resource_number_lacks_action :
    (raw (.object [("resource", .ofInt64 5)])).resolve = .error (.missingField "action")
      ∧ (∃ fault, (raw (.object [("image", .ofInt64 5), ("source", .string "")])).resolve
        = .error (.invalidManifest .script fault))
      ∧ (raw (.array [])).resolve = .error (.unknownManifestKind (.notAnObject "[]")) := by
  refine ⟨(resolve_by_kind _).2.2.2.2.2 ⟨rfl, rfl⟩, ?_, ?_⟩
  · have hkind : classify (.object [("image", .ofInt64 5), ("source", .string "")]) = .ok .script :=
      rfl
    cases h : (raw (.object [("image", .ofInt64 5), ("source", .string "")])).resolve with
    | ok m =>
      cases h
    | error e =>
      obtain ⟨fault, rfl⟩ | rfl := (resolve_by_kind _).2.2.2.1 _ _ hkind h
      · exact ⟨fault, rfl⟩
      · cases hkind.symm.trans ((resolve_by_kind _).2.2.2.2.1 h).1
  · refine (resolve_by_kind _).2.2.1 _ (((resolve_by_kind _).2.1 _).2 ⟨_, .notAnObject ?_, rfl⟩)
    intro members hmembers
    cases hmembers

end ManifestSpec

end WorkflowTemplates
