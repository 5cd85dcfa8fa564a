import WorkflowTemplates.Proofs.FirstFault
import WorkflowTemplates.Proofs.Template.Outcomes

/-!
# The phases of a compilation

A compilation goes through the declarations, the name, the manifest, the hooks and the validation,
and the first phase that fails is the error. `TemplateDefinition.Outcome` lists the results phase by
phase. Stock hooks change nothing but the manifest (`HookChain.apply_ofStock`), and the schema has
seen to what the validation asks of parameters, so that the validation only ever reports an empty
name of a parameter (`TemplateDefinition.compile_phases`).
-/

namespace WorkflowTemplates

variable {seen taken : List String} {d : Declaration} {ds before after : List Declaration}
  {ps inputs : List Parameter} {e : Error} {m : Manifest}

/-! ## The first offence of declarations -/

/-- Why a declaration has no input parameter behind others whose names are `taken`: its own name is
taken, or its default has no encoding. -/
inductive Declaration.Offends (taken : List String) (d : Declaration) : Error → Prop
  | duplicate (h : d.name ∈ taken) : Offends taken d (.duplicateParameter d.name)
  | encoding {e : EncodingError} (hnew : d.name ∉ taken) (h : d.encodeDefault = .error e) :
    Offends taken d (.encoding e)

/-- Declarations become input parameters, one by one and in their order (`buildParameter`), under
distinct names. -/
structure BuildsTo (ds : List Declaration) (ps : List Parameter) : Prop where
  distinct : (ds.map (·.name)).Nodup
  built : List.Forall₂ (fun d p => d.buildParameter = .ok p) ds ps

/-- The error of the first declaration that offends: those before it become input parameters
(`BuildsTo`), and what stands behind it does not matter. -/
def FirstOffence (ds : List Declaration) (e : Error) : Prop :=
  ∃ before d after, ds = before ++ d :: after ∧ (∃ ps, BuildsTo before ps)
    ∧ d.Offends (before.map (·.name)) e

theorem buildParameters_eq_ok : buildParameters ds = .ok ps ↔ BuildsTo ds ps := by
  rw [buildParameters, buildAfter_eq_ok]
  constructor
  · rintro ⟨-, hdistinct, hall⟩
    exact ⟨hdistinct, hall⟩
  · rintro ⟨hdistinct, hall⟩
    exact ⟨fun _ _ => List.not_mem_nil, hdistinct, hall⟩

/-- Only which names are taken counts for an offence, not their order (`Offends`). -/
theorem Declaration.Offends.congr {taken' : List String} (h : d.Offends taken e)
    (hmem : ∀ name, name ∈ taken ↔ name ∈ taken') : d.Offends taken' e := by
  cases h with
  | duplicate h => exact .duplicate ((hmem _).1 h)
  | encoding hnew h => exact .encoding (fun hm => hnew ((hmem _).2 hm)) h

/-- A declaration that offends is where the schema ends, whatever stands behind it (`Offends`). -/
theorem Declaration.Offends.buildAfter_eq (h : d.Offends seen e) :
    buildAfter seen (d :: after) = .error e := by
  cases h with
  | duplicate h => rw [buildAfter, if_pos h]
  | encoding hnew h =>
    rw [buildAfter, if_neg hnew, buildParameter, h]
    rfl

/-- A declaration of a new name whose default has an encoding does not offend, and no other
declaration does so (`Offends`). -/
theorem Declaration.not_offends_iff :
    (∀ e, ¬d.Offends taken e)
      ↔ d.name ∉ taken ∧ ∃ encoded, d.encodeDefault = .ok encoded := by
  rw [exists_ok_iff]
  constructor
  · intro h
    have hnew : d.name ∉ taken := fun htaken => h _ (.duplicate htaken)
    exact ⟨hnew, fun ⟨e, he⟩ => h _ (.encoding hnew he)⟩
  · rintro ⟨hnew, hencoded⟩ e h
    cases h with
    | duplicate h => exact hnew h
    | encoding _ h => exact hencoded ⟨_, h⟩

/-- The schema stops at the first declaration that offends, as `StopsAtFault` asks. -/
theorem stopsAtFault_buildAfter : StopsAtFault (·.name) Declaration.Offends buildAfter where
  congr hmem h := h.congr hmem
  nil _ := ⟨[], rfl⟩
  stops h := h.buildAfter_eq
  goes_on {taken d rest e} h := by
    obtain ⟨hnew, encoded, he⟩ := Declaration.not_offends_iff.1 h
    have hp : d.buildParameter = .ok (d.toParameter encoded) :=
      buildParameter_eq_ok.2 ⟨encoded, he, rfl⟩
    rw [buildAfter, if_neg hnew, hp]
    cases buildAfter (d.name :: taken) rest with
    | error e' => rfl
    | ok ps => constructor <;> rintro ⟨⟩

/-- **The schema fails for the first declaration that offends** (`FirstOffence`), and for no other.
-/
theorem buildParameters_eq_error : buildParameters ds = .error e ↔ FirstOffence ds e := by
  have hbuilt (before : List Declaration) :
      (∀ e', ¬FirstFault (·.name) Declaration.Offends before e') ↔ ∃ ps, BuildsTo before ps := by
    simp only [← stopsAtFault_buildAfter.eq_error_iff, ← buildParameters_eq_ok, exists_ok_iff,
      not_exists, buildParameters]
  rw [buildParameters, stopsAtFault_buildAfter.eq_error_iff, firstFault_iff_append]
  simp only [hbuilt, FirstOffence]

/-! ## Stock hooks -/

/-- The hooks that are in stock: a container or script gets another image or command, and a resource
stays as it is. -/
inductive StockHook
  | forceImage (image : String)
  | withCommand (command : List String)

namespace StockHook

/-- What a hook in stock does to a template, as a `Hook`. -/
def hook : StockHook → Hook
  | forceImage image => .forceImage image
  | withCommand command => .withCommand command

/-- What a hook in stock does to a manifest, which is all that it changes. -/
def change : StockHook → Manifest → Manifest
  | forceImage image => .withImage image
  | withCommand command => .withCommand command

/-- A stock hook changes nothing but the manifest, to which it does what `change` says. -/
theorem hook_apply (h : StockHook) (t : Template) :
    h.hook t = { t with manifest := h.change t.manifest } := by
  cases h <;> rfl

/-- What hooks in stock make of a manifest, one after the other. -/
def changeAll (hooks : List StockHook) (m : Manifest) : Manifest :=
  hooks.foldl (fun m h => h.change m) m

end StockHook

/-- A chain of stock hooks, in the order of the list. -/
def HookChain.ofStock (hooks : List StockHook) : HookChain :=
  ⟨hooks.map (·.hook)⟩

/-- Stock hooks change nothing but the manifest (`changeAll`), however many there are. -/
theorem HookChain.apply_ofStock (hooks : List StockHook) (t : Template) :
    (ofStock hooks).apply t = { t with manifest := StockHook.changeAll hooks t.manifest } := by
  unfold apply ofStock StockHook.changeAll
  induction hooks generalizing t with
  | nil => rfl
  | cons h rest ih =>
    rw [List.map_cons, List.foldl_cons, List.foldl_cons, ih, h.hook_apply]

/-! ## Outcomes -/

/-- A manifest document does not resolve for reasons of its own, not for those of a template, so a
template error comes from elsewhere. -/
theorem ManifestSpec.resolve_ne_template (spec : ManifestSpec) (e : TemplateError) :
    spec.resolve ≠ .error (.template e) := by
  cases spec with
  | typed m => nofun
  | raw document =>
    intro h
    rw [resolve, resolveRaw] at h
    split at h
    · next herror =>
      cases h
      unfold ManifestKind.classify at herror
      split at herror
      · split at herror <;> cases herror
      · cases herror
    · split at h
      · cases h
      · split at h <;> cases h

namespace TemplateDefinition

variable {t : TemplateDefinition} {hooks : List StockHook} {r : Except Error CompiledTemplate}

/-- Where the manifest of a definition comes from: one that is given goes before one that is
produced, and without either the manifest is missing. -/
inductive Supplies (t : TemplateDefinition) : Except Error Manifest → Prop
  | given {spec : ManifestSpec} (h : t.manifest = some spec) : Supplies t spec.resolve
  | produced {produced : Except Error Manifest} (h : t.manifest = none)
    (hproducer : t.producer = some produced) : Supplies t produced
  | missing (h : t.manifest = none) (hproducer : t.producer = none) :
    Supplies t (.error (.missingManifest t.name))

theorem supplies_iff {r : Except Error Manifest} : t.Supplies r ↔ t.resolveManifest = r := by
  constructor
  · rintro (h | ⟨h, hproducer⟩ | ⟨h, hproducer⟩) <;> simp [resolveManifest, *]
  · rintro rfl
    cases h : t.manifest with
    | some spec =>
      rw [resolveManifest, h]
      exact .given h
    | none =>
      cases hproducer : t.producer with
      | some produced =>
        rw [resolveManifest, h, hproducer]
        exact .produced h hproducer
      | none =>
        rw [resolveManifest, h, hproducer]
        exact .missing h hproducer

/-- The results of a compilation, phase by phase: every phase needs those before it to succeed. The
constructors say this with the hypotheses of the phases before, so no two of them apply together. -/
inductive Outcome (t : TemplateDefinition) (hooks : List StockHook) :
    Except Error CompiledTemplate → Prop
  | schema {e : Error} (h : FirstOffence t.parameters e) : Outcome t hooks (.error e)
  | name {inputs : List Parameter} (hinputs : BuildsTo t.parameters inputs)
    (h : Text.isBlankLine t.name.toList = true) : Outcome t hooks (.error (.missingField "name"))
  | manifest {inputs : List Parameter} {e : Error} (hinputs : BuildsTo t.parameters inputs)
    (hname : Text.isBlankLine t.name.toList = false) (h : t.Supplies (.error e)) :
    Outcome t hooks (.error e)
  | parameterName {inputs : List Parameter} {m : Manifest} (hinputs : BuildsTo t.parameters inputs)
    (hname : Text.isBlankLine t.name.toList = false) (hm : t.Supplies (.ok m))
    (h : ∃ d ∈ t.parameters, d.name = "") : Outcome t hooks (.error (.template .emptyParameterName))
  | compiled {inputs : List Parameter} {m : Manifest} (hinputs : BuildsTo t.parameters inputs)
    (hname : Text.isBlankLine t.name.toList = false) (hm : t.Supplies (.ok m))
    (h : ∀ d ∈ t.parameters, d.name ≠ "") :
    Outcome t hooks (.ok {
      template := { name := t.name, inputs, manifest := StockHook.changeAll hooks m }
      declarations := t.parameters })

/-- With parameters, a name and a manifest only an empty name of a parameter is left to fail: the
schema has seen to the other demands on parameters. -/
theorem compile_eq_changed (hhooks : t.hooks = .ofStock hooks)
    (hinputs : BuildsTo t.parameters inputs) (hname : Text.isBlankLine t.name.toList = false)
    (hm : t.Supplies (.ok m)) :
    t.compile = if "" ∈ t.parameters.map (·.name) then .error (.template .emptyParameterName)
      else .ok {
        template := { name := t.name, inputs, manifest := StockHook.changeAll hooks m }
        declarations := t.parameters } := by
  refine compile_eq_validated (buildParameters_eq_ok.2 hinputs) hname (supplies_iff.1 hm) ?_
  rw [hhooks, HookChain.apply_ofStock]

/-- What the phases say (`Outcome`) is what the compilation gives. -/
theorem Outcome.compile_eq (h : t.Outcome hooks r) (hhooks : t.hooks = .ofStock hooks) :
    t.compile = r := by
  cases h with
  | schema h =>
    rw [compile, buildParameters_eq_error.2 h]
    rfl
  | name hinputs h =>
    rw [compile, buildParameters_eq_ok.2 hinputs, checkName, if_pos h]
    rfl
  | manifest hinputs hname h =>
    rw [compile, buildParameters_eq_ok.2 hinputs, checkName, hname, supplies_iff.1 h]
    rfl
  | parameterName hinputs hname hm h =>
    rw [compile_eq_changed hhooks hinputs hname hm, if_pos (by simpa using h)]
  | compiled hinputs hname hm h =>
    rw [compile_eq_changed hhooks hinputs hname hm, if_neg (by simpa using h)]

/-- The phases always come to a result, so `Outcome` leaves no definition out. -/
theorem exists_outcome (t : TemplateDefinition) (hooks : List StockHook) :
    ∃ r, t.Outcome hooks r := by
  cases hbuild : buildParameters t.parameters with
  | error e => exact ⟨_, .schema (buildParameters_eq_error.1 hbuild)⟩
  | ok inputs =>
    have hinputs := buildParameters_eq_ok.1 hbuild
    cases hname : Text.isBlankLine t.name.toList with
    | true => exact ⟨_, .name hinputs hname⟩
    | false =>
      cases hm : t.resolveManifest with
      | error e => exact ⟨_, .manifest hinputs hname (supplies_iff.2 hm)⟩
      | ok m =>
        by_cases hempty : ∃ d ∈ t.parameters, d.name = ""
        · exact ⟨_, .parameterName hinputs hname (supplies_iff.2 hm) hempty⟩
        · exact ⟨_, .compiled hinputs hname (supplies_iff.2 hm) fun d hd he => hempty ⟨d, hd, he⟩⟩

/-- A template error other than that of an empty parameter name is what a producer reports, if no
manifest is given. -/
theorem Outcome.of_template {e : TemplateError} (h : t.Outcome hooks (.error (.template e))) :
    e = .emptyParameterName ∨ t.manifest = none ∧ t.producer = some (.error (.template e)) := by
  generalize hr : (.error (.template e) : Except Error CompiledTemplate) = r at h
  cases h with
  | schema h =>
    obtain ⟨before, d, after, -, -, hoffends⟩ := h
    cases hoffends <;> cases hr
  | name _ _ => cases hr
  | manifest _ _ h =>
    cases hr
    generalize hsupplied : (.error (.template e) : Except Error Manifest) = supplied at h
    cases h with
    | given _ => exact absurd hsupplied.symm (ManifestSpec.resolve_ne_template _ e)
    | produced h hproducer => exact .inr ⟨h, hsupplied ▸ hproducer⟩
    | missing _ _ => cases hsupplied
  | parameterName _ _ _ _ =>
    cases hr
    exact .inl rfl
  | compiled _ _ _ _ => cases hr

/-- **Compilations are decided phase by phase.** With stock hooks a compilation gives just what the
first phase that fails reports, or else the template of the name, of the input parameters and of the
manifest behind the hooks, together with the declarations. Of the errors of a validation only that
of an empty parameter name is ever reported, unless a producer of manifests has another one as its
own error; and where a manifest is given, the producer does not count. -/
theorem compile_phases (hhooks : t.hooks = .ofStock hooks) :
    (∀ r, t.compile = r ↔ t.Outcome hooks r)
      ∧ (∀ e, t.compile = .error (.template e) →
        e = .emptyParameterName ∨ t.manifest = none ∧ t.producer = some (.error (.template e)))
      ∧ (t.manifest.isSome → ∀ producer, { t with producer := producer }.compile = t.compile) := by
  have hiff : ∀ r, t.compile = r ↔ t.Outcome hooks r := by
    intro r
    constructor
    · rintro rfl
      obtain ⟨r, hr⟩ := t.exists_outcome hooks
      exact hr.compile_eq hhooks ▸ hr
    · exact fun hr => hr.compile_eq hhooks
  refine ⟨hiff, fun e he => ((hiff _).1 he).of_template, fun hgiven producer => ?_⟩
  obtain ⟨spec, hspec⟩ := Option.isSome_iff_exists.1 hgiven
  have hmanifest : ({ t with producer := producer } : TemplateDefinition).resolveManifest
      = t.resolveManifest := by
    simp only [resolveManifest, hspec]
  unfold compile
  rw [hmanifest]
  rfl

/-- A definition with a manifest, a producer that fails, and hooks of which the last one is the one
that settles the image. -/
def releaseDefinition : TemplateDefinition where
  name := "release"
  parameters := [{ name := "tag", default := some (.string "v1") }, { name := "notes" }]
  manifest := some (.typed (.container { image := some "alpine", args := some ["push"] }))
  producer := some (.error (.missingField "image"))
  hooks := .ofStock [.forceImage "busybox", .withCommand ["sh"], .forceImage "debian"]

/-- The definition goes through all phases, and its producer does not count, since a manifest is
given. -/
theorem releaseDefinition_compiles :
    releaseDefinition.compile = .ok {
        template := {
          name := "release"
          inputs := [{ name := "tag", default := some "v1" }, { name := "notes" }]
          manifest := .container {
            image := some "debian", command := some ["sh"], args := some ["push"] } }
        declarations := releaseDefinition.parameters }
      ∧ { releaseDefinition with producer := none }.compile = releaseDefinition.compile := by
  obtain ⟨hiff, -, hproducer⟩ := compile_phases (t := releaseDefinition) rfl
  have hinputs : BuildsTo releaseDefinition.parameters
      [{ name := "tag", default := some "v1" }, { name := "notes" }] :=
    ⟨by decide, .cons rfl (.cons rfl .nil)⟩
  refine ⟨(hiff _).2 ?_, hproducer rfl none⟩
  exact .compiled hinputs (by decide) (supplies_iff.2 rfl) (by decide)

end TemplateDefinition

end WorkflowTemplates
