import WorkflowTemplates.Proofs.Source.Accepted
import WorkflowTemplates.Proofs.Template.Outcomes
import WorkflowTemplates.Script.Definition

/-!
# Scripts from the source of a function

What is compiled when a script starts from the source of a function and is given an image
(`ScriptDefinition.compile_ofSource`). Reading the source has seen to the name of the template and
to the names of its parameters, so only a default without an encoding and an empty name of a
parameter are left to fail. Otherwise the template is what the function says
(`ScriptDefinition.CompilesTo`).
-/

namespace WorkflowTemplates.ScriptDefinition

variable {flavor : Flavor} {source image : String} {d : ScriptDefinition}

/-- A compiled template is what a function and an image say: the name of the function, its
parameters in their order (`Declaration.Becomes`), and the script of the function behind the lines
that bind them. -/
structure CompilesTo (flavor : Flavor) (f : Function) (image : String) (c : CompiledTemplate) :
    Prop where
  name : c.name = f.name
  inputs : List.Forall₂ Declaration.Becomes f.parameters c.template.inputs
  manifest : c.template.manifest = .script {
    image
    command := some [flavor.runtime {}]
    source := flavor.assemble f.parameters f.scriptText }

/-- A script starts from a source exactly if `Function.read` finds a function in the source, and
then from that function. -/
theorem ofSource_eq_ok :
    ofSource flavor source = .ok d ↔
      ∃ f, Function.read source = .ok f ∧ d = ofFunction flavor f := by
  unfold ofSource
  split
  · next f hf => simp [hf, eq_comm]
  · next e hf => simp [hf]

/-- With an image a function is the script of a template of its own name, which is not wrapped:
nothing but its name, parameters and text is set, and the defaults of `ScriptSettings` run no shell
around it. -/
theorem produce_ofFunction (himage : image ≠ "") (f : Function) :
    ((ofFunction flavor f).edit (.image image)).produce = .ok (.script {
      image
      command := some [flavor.runtime {}]
      source := flavor.assemble f.parameters f.scriptText }) := by
  have hwrapped : ((ofFunction flavor f).edit (.image image)).isWrapped = false := rfl
  rw [produce, hwrapped]
  exact if_neg himage

/-- **Scripts from sources.** Whatever source a script starts from (`ofSource`), its parameters have
distinct names, and with an image the compilation has one of three outcomes: some default has no
encoding, which is reported under the name of its parameter; all have one, but a parameter has an
empty name; or the template is what the function says (`CompilesTo`). -/
theorem compile_ofSource (h : ofSource flavor source = .ok d) (himage : image ≠ "") :
    ∃ f, Function.read source = .ok f ∧ (f.parameters.map (·.name)).Nodup
      ∧ ((∃ p ∈ f.parameters, ∃ e, p.encodeDefault = .error e ∧ e.parameter = p.name
            ∧ (d.edit (.image image)).compile = .error (.encoding e))
        ∨ (∀ p ∈ f.parameters, ∃ e, p.encodeDefault = .ok e)
          ∧ (((∃ p ∈ f.parameters, p.name = "")
              ∧ (d.edit (.image image)).compile = .error (.template .emptyParameterName))
            ∨ (∀ p ∈ f.parameters, p.name ≠ "")
              ∧ ∃ c, (d.edit (.image image)).compile = .ok c ∧ CompilesTo flavor f image c)) := by
  obtain ⟨f, hf, rfl⟩ := ofSource_eq_ok.1 h
  have haccepted := Function.accepted hf
  refine ⟨f, hf, haccepted.distinct, ?_⟩
  let t : TemplateDefinition :=
    { name := f.name
      parameters := f.parameters
      producer := some ((ofFunction flavor f).edit (.image image)).produce }
  have hcompile : ((ofFunction flavor f).edit (.image image)).compile = t.compile := rfl
  have hmanifest : t.resolveManifest = _ := produce_ofFunction himage f
  rw [hcompile]
  rcases t.compile_of_distinct rfl haccepted.isBlankLine_name haccepted.distinct hmanifest with
    ⟨p, hp, e, he, hc⟩ | ⟨inputs, hall, hc⟩
  · exact .inl ⟨p, hp, e, he, parameter_of_encodeDefault he, hc⟩
  refine .inr ⟨encodes_of_forall₂ hall, ?_⟩
  by_cases hempty : "" ∈ f.parameters.map (·.name)
  · exact .inl ⟨by simpa using hempty, hc.trans (if_pos hempty)⟩
  · refine .inr ⟨by simpa using hempty, _, hc.trans (if_neg hempty), ?_⟩
    exact ⟨rfl, hall.imp fun _ _ => becomes_of_buildParameter, rfl⟩

/-- A function with a closed set of texts, a default and a parameter without one, whose
documentation is its script. -/
def tintSource : String :=
  "def tint(name, hue: Literal[\"red\", \"blue\"] = \"red\", times=2):\n    \"\"\"echo\"\"\"\n"

/-- The function becomes a template of its name (`CompilesTo`), and only its first parameter must be
supplied. -/
theorem tintSource_compiles :
    ∃ d f c, ofSource .bash tintSource = .ok d ∧ Function.read tintSource = .ok f
      ∧ (d.edit (.image "alpine:3.20")).compile = .ok c ∧ CompilesTo .bash f "alpine:3.20" c
      ∧ c.requiredNames = ["name"] := by
  let compiled := ofSource .bash tintSource >>= fun d => (d.edit (.image "alpine:3.20")).compile
  have hrequired : compiled.toOption.map (·.requiredNames) = some ["name"] := by decide +kernel
  obtain ⟨c, hc, hnames⟩ := Option.map_eq_some_iff.1 hrequired
  obtain ⟨d, hd, hc⟩ := bind_eq_ok.1 (eq_ok_of_toOption hc)
  obtain ⟨f, hf, -, ⟨_, _, _, _, _, herror⟩ | ⟨-, ⟨-, herror⟩ | ⟨-, c', hc', hto⟩⟩⟩ :=
    compile_ofSource hd (by decide : "alpine:3.20" ≠ "")
  · cases hc.symm.trans herror
  · cases hc.symm.trans herror
  · cases hc.symm.trans hc'
    exact ⟨d, f, c, hd, hf, hc, hto, hnames⟩

end WorkflowTemplates.ScriptDefinition
