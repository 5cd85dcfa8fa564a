import WorkflowTemplates.Proofs.Source.Accepted
import WorkflowTemplates.Proofs.Source.Body

/-!
# Sources with lines behind them

What is read of a function does not depend on the lines behind it, if the text of the function ends
where a logical line may start and the first of the lines behind it, blank ones apart, is no comment
and indented no deeper than the definition (`Function.read_append`). Whatever the lines are, they
change neither the name nor the parameters, because the head of the function ends before the last
line of the source (`Function.Layout`), and a body is only prolonged. A comment, for one, does
prolong it (`Function.further_lines_prolong_body`).
-/

namespace WorkflowTemplates

open Source (EndsLine ScanState StartsOutside body? isBlankOrComment)
open Text (countBreaks dropReturn ended firstLine indentWidth isBlankLine joinLines trimEnd)

/-- A head ends at a colon outside brackets, whatever stands behind it: `breakHead` looks no
further. -/
theorem Signature.breakHead_eq_some {seen : Bool} {s : ScanState} {text head behind : List Char}
    (h : breakHead seen s text = some (head, behind)) :
    text = head ++ ':' :: behind ∧ (s.run head).isTop ':' = true
      ∧ ∀ other, breakHead seen s (head ++ ':' :: other) = some (head, other) := by
  induction text generalizing seen s head with
  | nil => cases h
  | cons c text ih =>
    rw [breakHead] at h
    dsimp only at h
    split at h
    · next hcolon =>
      cases h
      have hc : s.isTop c = true ∧ c = ':' := by
        simp only [Bool.and_eq_true, beq_iff_eq] at hcolon
        exact ⟨hcolon.1.2, hcolon.2⟩
      obtain ⟨htop, rfl⟩ := hc
      exact ⟨rfl, htop, fun other => if_pos hcolon⟩
    · next hcolon =>
      obtain ⟨⟨head, behind⟩, hrest, heq⟩ := Option.map_eq_some_iff.1 h
      cases heq
      obtain ⟨rfl, htop, hother⟩ := ih hrest
      refine ⟨rfl, htop, fun other => ?_⟩
      rw [List.cons_append, breakHead]
      dsimp only
      rw [if_neg hcolon, hother]
      rfl

namespace Function

variable {init rest : List (List Char)} {first last : List Char} {before : Nat} {f : Function}

/-! ## The first definition -/

/-- The line of a definition is not blank, since a keyword stands on it. -/
theorem isBlankLine_of_isDefinition (h : isDefinition first = true) :
    isBlankLine first = false := by
  cases hblank : isBlankLine first with
  | false => rfl
  | true =>
    rw [isDefinition, (Text.trimStart_eq_nil_iff first).2 hblank] at h
    cases h

/-- A definition may go on at the end of its line: `isDefinition` looks at its start only. -/
theorem isDefinition_append (h : isDefinition first = true) (more : List Char) :
    isDefinition (first ++ more) = true := by
  have hstart := Text.trimStart_append (isBlankLine_of_isDefinition h) more
  rw [isDefinition, Bool.or_eq_true, List.isPrefixOf_iff_prefix, List.isPrefixOf_iff_prefix] at h
  rw [isDefinition, hstart, Bool.or_eq_true, List.isPrefixOf_iff_prefix,
    List.isPrefixOf_iff_prefix]
  exact h.imp (·.trans (List.prefix_append _ more)) (·.trans (List.prefix_append _ more))

/-- What is at the end of the line of a definition does not indent it, so the width is that of the
line alone. -/
theorem indentWidth_append (h : isDefinition first = true) (more : List Char) :
    indentWidth (first ++ more) = indentWidth first := by
  have hleading := Text.takeWhile_isBlank_append (isBlankLine_of_isDefinition h) more
  rw [indentWidth, Text.leadingBlank, hleading, ← Text.leadingBlank, ← indentWidth]

/-- Lines behind the first definition follow it in what `findDefinition?` finds. -/
theorem findDefinition?_append (h : findDefinition? init = some (before, first, rest))
    (others : List (List Char)) :
    findDefinition? (init ++ others) = some (before, first, rest ++ others) := by
  induction init generalizing before with
  | nil => cases h
  | cons line init ih =>
    rw [List.cons_append]
    unfold findDefinition? at h ⊢
    split at h
    · next hline =>
      cases h
      exact if_pos hline
    · next hline =>
      obtain ⟨⟨n, first, rest⟩, hrest, heq⟩ := Option.map_eq_some_iff.1 h
      cases heq
      rw [if_neg hline, ih hrest]
      rfl

/-- The first definition is on the last line, or it is found before, and without that line. -/
theorem findDefinition?_concat
    (h : findDefinition? (init ++ [last]) = some (before, first, rest)) :
    rest = [] ∨ ∃ rest', findDefinition? init = some (before, first, rest') := by
  induction init generalizing before with
  | nil =>
    rw [List.nil_append, findDefinition?] at h
    split at h
    · cases h
      exact .inl rfl
    · cases h
  | cons line init ih =>
    rw [List.cons_append] at h
    unfold findDefinition? at h
    split at h
    · next hline =>
      cases h
      exact .inr ⟨init, if_pos hline⟩
    · next hline =>
      obtain ⟨⟨n, first, rest⟩, hrest, heq⟩ := Option.map_eq_some_iff.1 h
      cases heq
      refine (ih hrest).imp_right fun ⟨rest', hrest'⟩ => ⟨rest', ?_⟩
      unfold findDefinition?
      rw [if_neg hline, hrest']
      rfl

/-- The lines from the first definition on are lines of the source, so what holds of all of them
holds of these. -/
theorem subset_of_findDefinition? (h : findDefinition? init = some (before, first, rest)) :
    first :: rest ⊆ init := by
  induction init generalizing before with
  | nil => cases h
  | cons line init ih =>
    unfold findDefinition? at h
    split at h
    · cases h
      exact List.Subset.refl _
    · obtain ⟨⟨n, first, rest⟩, hrest, heq⟩ := Option.map_eq_some_iff.1 h
      cases heq
      exact List.subset_cons_of_subset line (ih hrest)

/-! ## Heads that end before the last line -/

/-- Lines on which a function is defined whose head ends on one of them: the first line of the
definition and those behind it, the head up to its colon, the rest of the line on which it ends, and
the text behind that line. Nothing in it depends on further lines, so it tells what they may change.
-/
structure Layout (init : List (List Char)) where
  before : Nat
  first : List Char
  rest : List (List Char)
  /-- The definition is the first one. -/
  found : findDefinition? init = some (before, first, rest)
  free : ∀ line ∈ first :: rest, '\n' ∉ line
  head : List Char
  line : List Char
  behind : List Char
  text : ended (first :: rest) = head ++ ':' :: (line ++ '\n' :: behind)
  /-- The head ends at the colon, whatever stands behind it. -/
  breaks : ∀ other, Signature.breakHead false .start (head ++ ':' :: other) = some (head, other)
  isTop : (ScanState.start.run head).isTop ':' = true
  newline : '\n' ∉ line
  blank : isBlankOrComment line = true
  signature : Signature
  signature_eq : Signature.ofHead head = .ok signature

namespace Layout

/-- The lines behind the head, from which the body is taken. -/
def lines (l : Layout init) : List (List Char) :=
  (l.first :: l.rest).drop (countBreaks l.head + 1)

/-- The head ends on one of the lines, not behind the last of them (`Layout`). -/
theorem countBreaks_lt (l : Layout init) : countBreaks l.head < (l.first :: l.rest).length := by
  rw [← Text.countBreaks_ended l.free, l.text, countBreaks, countBreaks, List.count_append,
    List.count_cons_of_ne (by decide), List.count_append, List.count_cons_self]
  omega

/-- The text behind the line on which the head ends is that of the lines behind the head
(`Layout.lines`). -/
theorem behind_eq (l : Layout init) : l.behind = ended l.lines := by
  have htext : ended (l.first :: l.rest) = (l.head ++ ':' :: l.line) ++ '\n' :: l.behind := by
    rw [l.text, List.append_assoc, List.cons_append]
  have hcount : countBreaks (l.head ++ ':' :: l.line) = countBreaks l.head := by
    rw [countBreaks, countBreaks, List.count_append, List.count_cons_of_ne (by decide),
      List.count_eq_zero.2 l.newline, Nat.add_zero]
  rw [lines, ← hcount]
  exact Text.ended_eq_append l.free htext

/-- Behind the line on which the head ends the scan starts anew: the head ends outside strings and
brackets, and so does its line (`Layout`). -/
theorem run_ended (l : Layout init) :
    ScanState.start.run (ended (l.first :: l.rest)) = ScanState.start.run (ended l.lines) := by
  have hquoted := Source.quoted_start
  have hcolon : (ScanState.start.run l.head).next ':' = .start :=
    Source.next_of_isTop (hquoted.run _) (by decide) l.isTop
  have hline : (ScanState.start.run l.line).next '\n' = .start :=
    Source.next_of_isTop (hquoted.run _) (by decide)
      (Source.isTop_of_isBlankOrComment l.blank l.newline)
  rw [l.text, ScanState.run_append, ScanState.run_cons, hcolon, ScanState.run_append,
    ScanState.run_cons, hline, l.behind_eq]

/-- With other lines behind them the lines define a function exactly if the lines behind the head
and the others have a body; the head says the same, and `ofBody` makes the function. -/
theorem ofLines_eq_ok_iff (l : Layout init) {others : List (List Char)} (h : others ≠ []) :
    ofLines (init ++ others) = .ok f ↔
      ∃ body, body? (indentWidth l.first) (l.lines ++ others) = some body
        ∧ f = ofBody l.signature body := by
  have hfound := findDefinition?_append l.found others
  have hhead : Signature.breakHead false .start (joinLines (l.first :: (l.rest ++ others)))
      = some (l.head, l.line ++ '\n' :: (l.behind ++ joinLines others)) := by
    rw [← List.cons_append, Text.joinLines_append h, l.text, List.append_assoc, List.cons_append,
      l.breaks, List.append_assoc, List.cons_append]
  have hfirst : firstLine (l.line ++ '\n' :: (l.behind ++ joinLines others)) = l.line :=
    Text.firstLine_append l.newline _
  have hdrop : (l.first :: (l.rest ++ others)).drop (countBreaks l.head + 1)
      = l.lines ++ others := by
    rw [← List.cons_append, List.drop_append_of_le_length l.countBreaks_lt, lines]
  rw [ofLines, hfound]
  dsimp only
  rw [hhead]
  dsimp only
  rw [hfirst, if_pos l.blank, ofParts_eq_ok, hdrop]
  constructor
  · rintro ⟨signature, body, hs, hbody, rfl⟩
    rw [l.signature_eq] at hs
    cases hs
    exact ⟨body, hbody, rfl⟩
  · rintro ⟨body, hbody, rfl⟩
    exact ⟨l.signature, body, l.signature_eq, hbody, rfl⟩

end Layout

/-- If lines define a function, its head ends before the last one, on which there is something of
the body (`Layout`). -/
theorem exists_layout (hfree : ∀ line ∈ init ++ [last], '\n' ∉ line)
    (h : ofLines (init ++ [last]) = .ok f) : Nonempty (Layout init) := by
  obtain ⟨before, first, rest, head, behind, hfound, hhead, hblank, hparts⟩ := ofLines_eq_ok.1 h
  obtain ⟨signature, body, hsignature, hbody, -⟩ := ofParts_eq_ok.1 hparts
  -- There is no body without lines behind the head.
  have hlines : countBreaks head < rest.length := by
    by_contra hge
    rw [List.drop_of_length_le (by simpa using hge)] at hbody
    cases hbody
  rcases findDefinition?_concat hfound with rfl | ⟨rest', hfound'⟩
  · exact absurd hlines (Nat.not_lt_zero _)
  have heq := hfound.symm.trans (findDefinition?_append hfound' [last])
  simp only [Option.some.injEq, Prod.mk.injEq, true_and] at heq
  subst heq
  have hfree' : ∀ line ∈ first :: rest', '\n' ∉ line := fun line hl =>
    hfree line (List.mem_append_left _ (subset_of_findDefinition? hfound' hl))
  have hlt : countBreaks head < (first :: rest').length := by simpa using hlines
  obtain ⟨htext, htop, hbreaks⟩ := Signature.breakHead_eq_some hhead
  rw [← List.cons_append, Text.joinLines_append (List.cons_ne_nil last [])] at htext
  obtain ⟨line, behind', hline, hended, rfl⟩ :=
    Text.exists_break_of_ended_append hfree' (by decide) htext hlt
  rw [Text.firstLine_append hline] at hblank
  exact ⟨{
    before, first, head, line, signature
    rest := rest'
    found := hfound'
    free := hfree'
    behind := behind'
    text := hended
    breaks := hbreaks
    isTop := htop
    newline := hline
    blank := hblank
    signature_eq := hsignature }⟩

/-! ## Lines behind the source -/

/-- **What is read depends only on the function.** Behind the source of a function there may be any
further lines: a function of the same name and the same parameters is read. If the text from the
definition on ends where a logical line may start, and the first of the further lines that is not
blank is no comment and indented no deeper than the definition, the function is the same. -/
theorem read_append {source : String} (h : read source = .ok f)
    (hdef : findDefinition? (Text.lines source.toList) = some (before, first, rest))
    (further : String) :
    (∃ g, read (source ++ "\n" ++ further) = .ok g ∧ g.name = f.name ∧ g.parameters = f.parameters)
      ∧ (EndsLine .start (dropReturn (joinLines (first :: rest))) →
        StartsOutside (indentWidth first) (Text.lines further.toList) →
        read (source ++ "\n" ++ further) = .ok f) := by
  rcases List.eq_nil_or_concat (Text.lines source.toList) with hnil | ⟨init, last, hlines⟩
  · rw [hnil] at hdef
    cases hdef
  rw [List.concat_eq_append] at hlines
  obtain ⟨last', gap, hlast, hgap, happend⟩ := Text.exists_lines_append hlines
  have htext : (source ++ "\n" ++ further).toList = source.toList ++ '\n' :: further.toList := by
    simp
  have hfree : ∀ line ∈ init ++ [last], '\n' ∉ line := fun line hl =>
    Text.newline_notMem_of_mem_lines (hlines ▸ hl)
  rw [read, hlines] at h
  obtain ⟨l⟩ := exists_layout hfree h
  rw [hlines, findDefinition?_append l.found] at hdef
  cases hdef
  rw [read, htext, happend, l.ofLines_eq_ok_iff (List.cons_ne_nil _ _)]
  obtain ⟨body, hbody, rfl⟩ := (l.ofLines_eq_ok_iff (List.cons_ne_nil last [])).1 h
  -- The last line may have lost a carriage return, which is trimmed away with the other blanks.
  have htrim : trimEnd last' = trimEnd last := by
    rcases hlast with rfl | rfl
    · rfl
    · exact Text.trimEnd_dropReturn last
  refine ⟨?_, fun hend hmore => ⟨body, ?_, rfl⟩⟩
  · obtain ⟨body', hbody'⟩ :=
      Source.exists_body?_append htrim hbody (gap ++ Text.lines further.toList)
    exact ⟨ofBody l.signature body',
      (l.ofLines_eq_ok_iff (List.cons_ne_nil _ _)).2 ⟨body', hbody', rfl⟩, rfl, rfl⟩
  · have hends : EndsLine (ScanState.start.run (ended l.lines)) (dropReturn last) := by
      rw [← List.cons_append, Text.joinLines_append (List.cons_ne_nil last []),
        Text.joinLines_singleton, Text.dropReturn_ended_append] at hend
      rw [← l.run_ended]
      exact hend.of_append
    have hends' : EndsLine (ScanState.start.run (ended l.lines)) last' := by
      rcases hlast with rfl | rfl
      · exact hends.of_dropReturn (Source.quoted_start.run _)
      · exact hends
    -- A line feed at the end of the source adds an empty line, which is blank.
    have hmore' : StartsOutside (indentWidth l.first) (gap ++ Text.lines further.toList) := by
      rcases hgap with rfl | rfl
      · exact hmore
      · exact fun line hline => hmore line hline
    rw [Source.body?_append htrim hends' hmore', hbody]

/-- A function with a parameter, a documentation and a returned text, which ends without a line
feed. -/
def greetSource : String := "def greet(name='you'):\n    '''hi'''\n    return 'hi'"

/-- A blank line and a decorated function behind a source do not matter: a decorator starts at the
column of the definition and ends the body. -/
theorem greetSource_read_alone :
    ∃ f, read greetSource = .ok f
      ∧ read (greetSource ++ "\n" ++ "\n@cached\ndef more():\n  pass") = .ok f := by
  obtain ⟨f, hf⟩ := exists_eq_ok (x := read greetSource) (by decide +kernel)
  have hdef : findDefinition? (Text.lines greetSource.toList)
      = some (0, "def greet(name='you'):".toList,
        ["    '''hi'''".toList, "    return 'hi'".toList]) := by decide +kernel
  have hfurther : (Text.lines "\n@cached\ndef more():\n  pass".toList).find? (!isBlankLine ·)
      = some "@cached".toList := by decide +kernel
  refine ⟨f, hf, (read_append hf hdef "\n@cached\ndef more():\n  pass").2 ?_ ?_⟩
  · exact ⟨by decide +kernel, by decide +kernel⟩
  · rintro line hline
    rw [hfurther] at hline
    cases hline
    exact ⟨by decide +kernel, by decide +kernel⟩

/-- Further lines that are not indented prolong the body of a function, although its source ends
outside strings and brackets. So `EndsLine` cannot be replaced by that weaker condition. -/
structure Prolongs (further source : String) : Prop where
  outside : (ScanState.start.run source.toList).isTop '\n' = true
  flush : ∀ line ∈ Text.lines further.toList, indentWidth line = 0
  differs : ∃ f g, read source = .ok f ∧ read (source ++ "\n" ++ further) = .ok g ∧ f.body ≠ g.body

/-- Two functions that are read are seen to have different bodies by the bodies alone, which can be
computed. -/
theorem exists_body_ne {s s' : String} {body body' : String}
    (h : (read s).toOption.map (·.body) = some body)
    (h' : (read s').toOption.map (·.body) = some body') (hne : body ≠ body') :
    ∃ f g, read s = .ok f ∧ read s' = .ok g ∧ f.body ≠ g.body := by
  obtain ⟨f, hf, rfl⟩ := exists_ok_of_map h
  obtain ⟨g, hg, rfl⟩ := exists_ok_of_map h'
  exact ⟨f, g, hf, hg, hne⟩

/-- A comment belongs to the body even if it is not indented, so it takes the margin away from the
lines before it. Neither does a line end the body behind a comment that ends with a backslash, nor
behind a string that is opened before the definition and closed in the body. -/
theorem further_lines_prolong_body :
    Prolongs "# note" "def f():\n    return 'x'"
      ∧ Prolongs "y = 2" "def f():\n    x = 1  # a \\"
      ∧ Prolongs "y = 2" "'''\ndef f():\n    pass'''" := by
  refine ⟨⟨by decide +kernel, by decide +kernel, ?_⟩, ⟨by decide +kernel, by decide +kernel, ?_⟩,
    ⟨by decide +kernel, by decide +kernel, ?_⟩⟩
  · have h : (read "def f():\n    return 'x'").toOption.map (·.body) = some "return 'x'\n" := by
      decide +kernel
    have h' : (read ("def f():\n    return 'x'" ++ "\n" ++ "# note")).toOption.map (·.body)
        = some "    return 'x'\n# note\n" := by decide +kernel
    exact exists_body_ne h h' (by decide +kernel)
  · have h : (read "def f():\n    x = 1  # a \\").toOption.map (·.body)
        = some "x = 1  # a \\\n" := by decide +kernel
    have h' : (read ("def f():\n    x = 1  # a \\" ++ "\n" ++ "y = 2")).toOption.map (·.body)
        = some "    x = 1  # a \\\ny = 2\n" := by decide +kernel
    exact exists_body_ne h h' (by decide +kernel)
  · have h : (read "'''\ndef f():\n    pass'''").toOption.map (·.body) = some "pass'''\n" := by
      decide +kernel
    have h' : (read ("'''\ndef f():\n    pass'''" ++ "\n" ++ "y = 2")).toOption.map (·.body)
        = some "    pass'''\ny = 2\n" := by decide +kernel
    exact exists_body_ne h h' (by decide +kernel)

end Function

end WorkflowTemplates
