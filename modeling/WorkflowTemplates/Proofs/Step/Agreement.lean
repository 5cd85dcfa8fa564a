import WorkflowTemplates.Proofs.Template.Schema
import WorkflowTemplates.Step.TaskStep

/-!
# Defaults, calls and loop items agree

A value reaches a template as a declared default, as an argument of a call, or as an item of a
loop. All three encode it by the declared type, so they give the same text, or pass the same
reference; only a loop has no use for references and refuses them (`default_call_item_agree`).
-/

namespace WorkflowTemplates

/-- The input parameter of a declaration whose default has an encoding: a text is its default, and a
reference its source, as `Encoded.toArgument` has it. -/
theorem buildParameter_of_default {d : Declaration} {v : Value} {p : Parameter}
    (hv : d.default = some v) (h : d.buildParameter = .ok p) :
    ∃ e, encode d.name v (some d.type) = .ok e
      ∧ p.default = (e.toArgument d.name).value
      ∧ p.valueFrom = (e.toArgument d.name).valueFrom := by
  obtain ⟨o, ho, rfl⟩ := buildParameter_eq_ok.1 h
  rw [Declaration.encodeDefault, hv] at ho
  obtain ⟨e, he, rfl⟩ := map_eq_ok.1 ho
  refine ⟨e, he, ?_⟩
  cases e <;> exact ⟨rfl, rfl⟩

namespace CompiledTemplate

variable {c : CompiledTemplate} {name : String} {v : Value}

/-- A call that passes one value gives its encoding by the declared type, as one parameter of the
name. -/
theorem resolveArguments_single {e : Encoded} (h : encode name v (c.declaredType? name) = .ok e) :
    c.resolveArguments (.ofInserts [(name, v)]) = .ok [e.toArgument name] := by
  show resolveEntries c.declaredType? [(name, v)] = _
  rw [resolveEntries, h]
  rfl

/-- A loop over one item that passes one value gives an object of the value's text, under the name
of the value. -/
theorem encodeItems_literal {text : String}
    (h : encode name v (c.declaredType? name) = .ok (.literal text)) :
    encodeItems c.declaredType? [.ofInserts [(name, v)]]
      = .ok [.object [(name, .string text)]] := by
  rw [encodeItems]
  show (itemMembers c.declaredType? [(name, v)] >>= _) = _
  rw [itemMembers, h]
  rfl

/-- A loop over one item that passes a reference is refused under the name of the value: an item has
no place for the source of a value. -/
theorem encodeItems_reference {r : ValueFrom}
    (h : encode name v (c.declaredType? name) = .ok (.reference r)) :
    encodeItems c.declaredType? [.ofInserts [(name, v)]] = .error ⟨name, .referenceAsItem⟩ := by
  rw [encodeItems]
  show (itemMembers c.declaredType? [(name, v)] >>= _) = _
  rw [itemMembers, h]
  rfl

end CompiledTemplate

/-- A step whose own call, if it has one, resolves, and that loops over items, so that only the
items are left to fail. -/
structure TaskStep.Loops (s : TaskStep) (c : CompiledTemplate) (items : List Arguments) :
    Prop where
  template : s.template = c.name
  batch : s.batch = some (.items items)
  call : ∀ a, s.arguments = some a → ∃ ps, c.resolveArguments a = .ok ps

/-- A step over items whose call resolves (`Loops`) gives what the encoding of its items gives: the
objects, or the error. -/
theorem TaskStep.Loops.toWorkflowStep {s : TaskStep} {c : CompiledTemplate}
    {items : List Arguments} (h : s.Loops c items) :
    (∀ objects, encodeItems c.declaredType? items = .ok objects →
        ∃ w, s.toWorkflowStep c = .ok w ∧ w.withItems = some objects)
      ∧ ∀ e, encodeItems c.declaredType? items = .error e →
        s.toWorkflowStep c = .error (.encoding e) := by
  obtain ⟨ps, hps⟩ : ∃ ps, s.parameters c = .ok ps := by
    cases ha : s.arguments with
    | none => exact ⟨itemParameters items, by rw [TaskStep.parameters, ha, h.batch]⟩
    | some a =>
      obtain ⟨ps, hps⟩ := h.call a ha
      exact ⟨ps, by rw [TaskStep.parameters, ha]; exact hps⟩
  have hname : ¬c.name ≠ s.template := fun hne => hne h.template.symm
  refine ⟨fun objects ho => ?_, fun e he => ?_⟩
  · have hw : s.withItems c = .ok (some objects) := by
      rw [TaskStep.withItems, h.batch]
      show (encodeItems c.declaredType? items).map some = _
      rw [ho]
      rfl
    rw [TaskStep.toWorkflowStep, if_neg hname, TaskStep.encodeAgainst, hps, hw]
    exact ⟨_, rfl, rfl⟩
  · have hw : s.withItems c = .error e := by
      rw [TaskStep.withItems, h.batch]
      show (encodeItems c.declaredType? items).map some = _
      rw [he]
      rfl
    rw [TaskStep.toWorkflowStep, if_neg hname, TaskStep.encodeAgainst, hps, hw]
    rfl

/-- **Defaults, calls and loop items agree.** A declaration with a default `v` has exactly one
input parameter of its name. A call that passes `v` under that name gives one parameter, whose value
is the default of the input parameter and whose source is its source, of which exactly one is there.
A loop over an item that passes `v` under that name gives an object of the same text, and is refused
under that name exactly if the input parameter has a source. -/
theorem default_call_item_agree {t : TemplateDefinition} {c : CompiledTemplate} {d : Declaration}
    {v : Value} (hooks : t.hooks.hooks = []) (hc : t.compile = .ok c) (hd : d ∈ t.parameters)
    (hv : d.default = some v) :
    ∃ p q, c.template.inputs.filter (·.name = d.name) = [p]
      ∧ c.resolveArguments (.ofInserts [(d.name, v)]) = .ok [q]
      ∧ q.name = d.name ∧ q.value = p.default ∧ q.valueFrom = p.valueFrom
      ∧ (q.value.isSome ↔ q.valueFrom = none)
      ∧ ∀ s : TaskStep, s.Loops c [.ofInserts [(d.name, v)]] →
        (∀ text, q.value = some text →
          ∃ w, s.toWorkflowStep c = .ok w ∧ w.withItems = some [.object [(d.name, .string text)]])
        ∧ ((∃ e, s.toWorkflowStep c = .error e) ↔ p.valueFrom.isSome)
        ∧ ∀ e, s.toWorkflowStep c = .error e → ∃ fault, e = .encoding ⟨d.name, fault⟩ := by
  have hplain := t.compilesPlain hooks hc
  obtain ⟨p, hp, hfilter⟩ := filter_name_eq hplain.inputs hplain.distinct hd
  obtain ⟨e, he, hdefault, hsource⟩ := buildParameter_of_default hv hp
  have htype : c.declaredType? d.name = some d.type := by
    rw [CompiledTemplate.declaredType?, hplain.declarations, declaredType?_eq hplain.distinct hd]
  rw [← htype] at he
  refine ⟨p, e.toArgument d.name, hfilter, c.resolveArguments_single he, ?_, hdefault.symm,
    hsource.symm, ?_, fun s hs => ?_⟩
  · cases e <;> rfl
  · cases e <;> simp [Encoded.toArgument]
  obtain ⟨hok, herror⟩ := hs.toWorkflowStep
  -- A text is an item, and a reference is refused as one.
  cases e with
  | literal text =>
    obtain ⟨w, hw, hitems⟩ := hok _ (CompiledTemplate.encodeItems_literal he)
    have hp : p.valueFrom = none := hsource
    refine ⟨fun _ ht => ⟨w, hw, by cases ht; exact hitems⟩, ?_, ?_⟩
    · rw [hw, hp]
      refine ⟨?_, nofun⟩
      rintro ⟨_, ⟨⟩⟩
    · rw [hw]
      rintro _ ⟨⟩
  | reference r =>
    have hw := herror _ (CompiledTemplate.encodeItems_reference he)
    have hp : p.valueFrom = some r := hsource
    refine ⟨nofun, ?_, ?_⟩
    · rw [hw, hp]
      exact ⟨fun _ => rfl, fun _ => ⟨_, rfl⟩⟩
    · rw [hw]
      rintro _ ⟨⟩
      exact ⟨_, rfl⟩

/-- A definition whose second parameter has a whole number as the default of a floating-point
number, where the texts of the two types differ. -/
def echoDefinition : TemplateDefinition where
  name := "echo"
  parameters := [⟨"message", .string, none⟩, ⟨"count", .float, some (.integer 2)⟩]
  manifest := some (.typed (.container { image := some "alpine" }))

/-- A step that loops over a single count and has no call of its own. -/
def countStep : TaskStep where
  name := "count"
  template := "echo"
  batch := some (.items [.ofInserts [("count", .integer 2)]])

/-- The count of `echoDefinition` travels alike as a default, in a call and in a loop: as the text
of the whole number that it is. -/
theorem echo_count_agrees :
    ∃ c p q w, echoDefinition.compile = .ok c
      ∧ c.template.inputs.filter (·.name = "count") = [p]
      ∧ c.resolveArguments (.ofInserts [("count", .integer 2)]) = .ok [q]
      ∧ q.value = p.default ∧ q.value = some "2" ∧ countStep.toWorkflowStep c = .ok w
      ∧ w.withItems = some [.object [("count", .string "2")]] := by
  have hc : ∃ c, echoDefinition.compile = .ok c ∧ c.name = "echo"
      ∧ c.declaredType? "count" = some .float := ⟨_, rfl, rfl, rfl⟩
  obtain ⟨c, hc, hname, htype⟩ := hc
  obtain ⟨p, q, hp, hq, -, hvalue, -, -, hstep⟩ :=
    default_call_item_agree (t := echoDefinition) (d := ⟨"count", .float, some (.integer 2)⟩) rfl hc
      (by simp [echoDefinition]) rfl
  have he : encode "count" (.integer 2) (c.declaredType? "count") = .ok (.literal "2") := by
    rw [htype]
    rfl
  have htext : q.value = some "2" := by
    rw [c.resolveArguments_single he] at hq
    cases hq
    rfl
  have hloops : countStep.Loops c [.ofInserts [("count", .integer 2)]] := ⟨hname.symm, rfl, nofun⟩
  obtain ⟨w, hw, hitems⟩ := (hstep countStep hloops).1 _ htext
  exact ⟨c, p, q, w, hc, hp, hq, hvalue, htext, hw, hitems⟩

end WorkflowTemplates
