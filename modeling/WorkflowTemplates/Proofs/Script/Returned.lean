import WorkflowTemplates.Proofs.Script.FromSource
import WorkflowTemplates.Proofs.Source.Returned

/-!
# Scripts that are returned texts

A function that returns a literal has what the literal yields as its returned value, and a text that
it returns is its script (`ScriptDefinition.returned_literal_is_script`). Nothing on the way changes
a character of the text: it has no parameters, and so nothing that could be put in front of it.
-/

namespace WorkflowTemplates.ScriptDefinition

open WorkflowTemplates.Function (IsIndent returnText)
open Signature (isFunctionName)

/-- The source of a function without parameters is compiled with an image, and the source of the
script is what the function stands for (`Function.scriptText`): there is nothing to bind, so
`assemble` leaves it as it is in every flavor. -/
theorem compile_nullary {f : Function} {source image : String} (flavor : Flavor)
    (hread : Function.read source = .ok f) (hparameters : f.parameters = []) (himage : image ≠ "") :
    ∃ d c, ofSource flavor source = .ok d ∧ (d.edit (.image image)).compile = .ok c
      ∧ c.name = f.name ∧ c.template.manifest = .script {
        image
        command := some [flavor.runtime {}]
        source := flavor.assemble [] f.scriptText } := by
  let t : TemplateDefinition :=
    { name := f.name
      parameters := f.parameters
      producer := some ((ofFunction flavor f).edit (.image image)).produce }
  have hcompile : ((ofFunction flavor f).edit (.image image)).compile = t.compile := rfl
  have hmanifest : t.resolveManifest = _ := produce_ofFunction himage f
  have hname := (Function.accepted hread).isBlankLine_name
  have hnone : t.parameters = [] := hparameters
  have hdistinct : (t.parameters.map (·.name)).Nodup := by
    rw [hnone]
    exact List.nodup_nil
  rcases t.compile_of_distinct rfl hname hdistinct hmanifest with ⟨d, hd, -⟩ | ⟨inputs, hall, hc⟩
  · rw [hnone] at hd
    cases hd
  rw [hnone] at hall hc
  cases hall
  refine ⟨_, _, ofSource_eq_ok.2 ⟨f, hread, rfl⟩,
    hcompile.trans (hc.trans (if_neg List.not_mem_nil)), rfl, ?_⟩
  rw [hparameters]

/-- **A returned literal is the script.** A function that only returns a literal that reads back
(`Literal.Readable`) has no documentation, and its returned value is what the literal yields: a
string itself, no text for no value, the texts of integers and booleans, and lists and dictionaries
as they are written. So with an image, the plain script of a function that returns a text is exactly
the text. -/
theorem returned_literal_is_script {name : String} (hname : isFunctionName name.toList = true)
    {l : Literal} (h : l.Readable) {indent ending : List Char} (hindent : IsIndent indent)
    (hending : ending = [] ∨ ending = ['\n']) :
    (∃ f, Function.read (String.ofList (returnText name l indent ending)) = .ok f ∧ f.name = name
        ∧ f.parameters = [] ∧ f.docstring = "" ∧ l.Yields f.returnValue)
      ∧ ∀ s image, l = .string s → s ≠ "" → image ≠ "" →
        ∃ d c, ofSource .plain (String.ofList (returnText name l indent ending)) = .ok d
          ∧ (d.edit (.image image)).compile = .ok c ∧ c.name = name
          ∧ c.template.manifest = .script {
            image
            command := some [Flavor.plain.runtime {}]
            source := s } := by
  have hread := Function.read_returnText hname h hindent hending
  refine ⟨⟨_, hread, rfl, rfl, rfl, Literal.yields_returnedText? h⟩, ?_⟩
  rintro s image rfl hs himage
  exact compile_nullary .plain hread rfl himage

/-- A text with quotes, a number sign, backslashes, a carriage return and blanks at its end, all of
which a reader of lines might take for something else. -/
def awkwardText : String := "a'\"\"\" # \\n\\\r\n\t  "

/-- The text is, character by character, the script of a function that returns it, under a name with
a letter beyond ASCII. -/
theorem awkwardText_is_script :
    ∃ d c, ofSource .plain
        (String.ofList (returnText "größe_1" (.string awkwardText) ['\t', ' '] ['\n'])) = .ok d
      ∧ (d.edit (.image "alpine")).compile = .ok c ∧ c.name = "größe_1"
      ∧ c.template.manifest = .script {
        image := "alpine"
        command := some [Flavor.plain.runtime {}]
        source := awkwardText } := by
  have hname : isFunctionName "größe_1".toList = true := by decide +kernel
  have hindent : IsIndent ['\t', ' '] := ⟨by decide, Text.forall_mem_of_all (by decide)⟩
  have hreadable : (Literal.string awkwardText).Readable := trivial
  have hscript := returned_literal_is_script hname hreadable hindent (.inr rfl)
  exact hscript.2 awkwardText "alpine" rfl (by decide) (by decide)

end WorkflowTemplates.ScriptDefinition
