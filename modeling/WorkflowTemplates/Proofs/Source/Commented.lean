import WorkflowTemplates.Proofs.Source.HeadComment

/-!
# Comments at line ends of a signature

A comment may be put at the end of any line of the head of a function, outside strings
(`HeadComment`). If the line ends in a default, or behind the parameter list, the comment is ignored
and the same function is read. If it ends in a type hint, at most the type of that parameter
changes. But if it ends in or before the name of a parameter, which it does behind every comma, the
comment becomes part of that name; and in front of the parameter list it is refused
(`Function.read_commented`).
-/

namespace WorkflowTemplates

open Source (IsComment ScanState body? isBlankOrComment quoted_start)
open Text (countBreaks ended firstLine indentWidth isBlank isBlankLine joinLines trim trimEnd
  trimStart)

/-- A line that is blank or holds only a comment may have another comment at its end, which is then
part of the first one (`IsComment`). -/
theorem Source.isBlankOrComment_append {line comment : List Char}
    (h : isBlankOrComment line = true) (hc : IsComment comment) :
    isBlankOrComment (line ++ comment) = true := by
  obtain ⟨-, gap, text, hgap, rfl⟩ := hc
  rw [isBlankOrComment, ← List.append_assoc, Text.trim_append_cons rfl]
  rcases trimStart_of_isBlankOrComment h with hend | ⟨rest, hrest⟩
  · have hblank : trimStart (line ++ gap) = [] := by
      rw [Text.trimStart_eq_nil_iff] at hend ⊢
      rw [Text.isBlankLine_append, hend, hgap, Bool.and_self]
    rw [hblank]
    rfl
  · have hline : isBlankLine line = false := Bool.eq_false_iff.2 fun hblank => by
      rw [(Text.trimStart_eq_nil_iff line).2 hblank] at hrest
      cases hrest
    rw [Text.trimStart_append hline, hrest]
    rfl

namespace Function

variable {f : Function} {first line comment : List Char} {upper lower : List (List Char)}

/-! ## The lines of the definition -/

/-- The first definition is found behind lines that start none, whatever it is (`other`) and
whatever stands behind it (`more`). -/
theorem exists_before_of_findDefinition? {lines rest : List (List Char)} {n : Nat}
    (h : findDefinition? lines = some (n, first, rest)) :
    isDefinition first = true ∧ ∃ before, before.length = n ∧ lines = before ++ first :: rest
      ∧ ∀ other more, isDefinition other = true →
        findDefinition? (before ++ other :: more) = some (n, other, more) := by
  induction lines generalizing n with
  | nil => cases h
  | cons line lines ih =>
    unfold findDefinition? at h
    split at h
    · next hline =>
      cases h
      exact ⟨hline, [], rfl, rfl, fun other more hother => if_pos hother⟩
    · next hline =>
      obtain ⟨⟨n, first, rest⟩, hrest, heq⟩ := Option.map_eq_some_iff.1 h
      cases heq
      obtain ⟨hfirst, before, rfl, rfl, hfound⟩ := ih hrest
      refine ⟨hfirst, line :: before, rfl, rfl, fun other more hother => ?_⟩
      rw [List.cons_append, findDefinition?, if_neg hline, hfound other more hother]
      rfl

/-- Lines that start with a definition that is indented so deep define a function: this is what
`ofLines` does with them, from the end of the head on. -/
def Defines (indent : Nat) (lines : List (List Char)) (f : Function) : Prop :=
  ∃ head behind signature body,
    Signature.breakHead false .start (joinLines lines) = some (head, behind)
      ∧ isBlankOrComment (firstLine behind) = true ∧ Signature.ofHead head = .ok signature
      ∧ body? indent (lines.drop (countBreaks head + 1)) = some body ∧ f = ofBody signature body

/-- The lines from the first definition on define (`Defines`) the function that is read, and nothing
else of the source matters. -/
theorem ofLines_eq_ok_iff_defines {lines rest : List (List Char)} {n : Nat}
    (hfound : findDefinition? lines = some (n, first, rest)) :
    ofLines lines = .ok f ↔ Defines (indentWidth first) (first :: rest) f := by
  rw [ofLines_eq_ok]
  constructor
  · rintro ⟨_, _, _, head, behind, hfound', hhead, hblank, hparts⟩
    cases hfound.symm.trans hfound'
    obtain ⟨signature, body, hsignature, hbody, hf⟩ := ofParts_eq_ok.1 hparts
    exact ⟨head, behind, signature, body, hhead, hblank, hsignature, hbody, hf⟩
  · rintro ⟨head, behind, signature, body, hhead, hblank, hsignature, hbody, hf⟩
    exact ⟨n, first, rest, head, behind, hfound, hhead, hblank,
      ofParts_eq_ok.2 ⟨signature, body, hsignature, hbody, hf⟩⟩

/-- The lines below a head that ends on or below the line on which its part `more` starts: the line
feeds in the head count the lines that it takes up. -/
theorem drop_countBreaks (hupper : ∀ line ∈ upper, '\n' ∉ line) (more : List Char) :
    (upper ++ line :: lower).drop (countBreaks (ended upper ++ more) + 1)
      = lower.drop (countBreaks more) := by
  have hcount : countBreaks (ended upper ++ more) + 1 = upper.length + (countBreaks more + 1) := by
    have hended := Text.countBreaks_ended hupper
    rw [countBreaks] at hended
    rw [countBreaks, List.count_append, hended, countBreaks, Nat.add_assoc]
  rw [hcount, List.drop_length_add_append, List.drop_succ_cons]

/-- The text of lines around a line that is not the last one: the lines above it are ended, and so
is the line itself. -/
theorem joinLines_append_cons (hlower : lower ≠ []) (upper : List (List Char)) (line : List Char) :
    joinLines (upper ++ line :: lower) = ended upper ++ (line ++ '\n' :: joinLines lower) := by
  have hline := Text.joinLines_append hlower [line]
  rw [List.singleton_append] at hline
  rw [Text.joinLines_append (List.cons_ne_nil line lower), hline]
  simp [ended]

/-- A comment at the end of a line adds no line, as there is no line feed in it (`IsComment`). -/
theorem countBreaks_comment (hc : IsComment comment) (line more : List Char) :
    countBreaks (line ++ (comment ++ '\n' :: more)) = countBreaks (line ++ '\n' :: more) := by
  rw [countBreaks, countBreaks, List.count_append, List.count_append, List.count_append,
    List.count_eq_zero.2 hc.newline, Nat.zero_add]

/-- Sources that are the same but for a comment at the end of a line to which the head of the first
definition goes on, outside strings. The fields say where the comment is and that no string is open
there. -/
structure HeadComment (source commented : String) where
  /-- The lines before the definition. -/
  before : List (List Char)
  /-- The lines of the definition above the comment. -/
  upper : List (List Char)
  line : List Char
  /-- The lines below. -/
  lower : List (List Char)
  comment : List Char
  isComment : IsComment comment
  lines_source : Text.lines source.toList = before ++ (upper ++ line :: lower)
  lines_commented :
    Text.lines commented.toList = before ++ (upper ++ (line ++ comment) :: lower)
  /-- The first definition starts behind the lines before it. -/
  found : (findDefinition? (Text.lines source.toList)).map (·.1) = some before.length
  /-- The head does not end on a line above. -/
  goesOn : Signature.breakHead false .start (ended upper) = none
  /-- The line ends outside strings. -/
  outside : (ScanState.start.run (ended upper ++ line)).isOutside = true

namespace HeadComment

variable {source commented : String}

/-- The text of the definition up to the comment, as far as the head can be told from it. -/
def text (c : HeadComment source commented) : List Char :=
  ended c.upper ++ c.line

/-- The place in the head at which the comment is put (`Signature.Place`), which decides what
becomes of it. -/
def place (c : HeadComment source commented) : Signature.Place :=
  Signature.Place.ofHead c.text

/-- No line of the source has a line feed: they are its `lines`. -/
theorem newline_notMem_source (c : HeadComment source commented) :
    ∀ line ∈ c.upper ++ c.line :: c.lower, '\n' ∉ line := fun _ hline =>
  Text.newline_notMem_of_mem_lines (c.lines_source ▸ List.mem_append_right c.before hline)

/-- The definition starts on the same line with and without the comment, and is indented as deep, so
both sources are read by `Defines`. -/
theorem exists_defines (c : HeadComment source commented) :
    isDefinition c.text = true
      ∧ ∃ indent, (∀ f, read source = .ok f ↔ Defines indent (c.upper ++ c.line :: c.lower) f)
        ∧ ∀ f, read commented = .ok f
          ↔ Defines indent (c.upper ++ (c.line ++ c.comment) :: c.lower) f := by
  obtain ⟨⟨n, first, rest⟩, hfound, hn⟩ := Option.map_eq_some_iff.1 c.found
  obtain ⟨hfirst, before, hlength, hlines, hothers⟩ := exists_before_of_findDefinition? hfound
  have hn : n = c.before.length := hn
  rw [c.lines_source] at hlines
  obtain ⟨rfl, hdefinition⟩ := List.append_inj hlines (hlength.trans hn).symm
  have hsource (f : Function) :
      read source = .ok f ↔ Defines (indentWidth first) (c.upper ++ c.line :: c.lower) f := by
    rw [read, ofLines_eq_ok_iff_defines hfound, hdefinition]
  unfold text
  cases hupper : c.upper with
  | nil =>
    rw [hupper] at hsource hdefinition
    obtain ⟨rfl, rfl⟩ := List.cons.inj hdefinition
    have hfirst' := isDefinition_append hfirst (c.comment)
    have hfound' := hothers _ c.lower hfirst'
    refine ⟨hfirst, _, hsource, fun f => ?_⟩
    rw [read, c.lines_commented, hupper, List.nil_append, ofLines_eq_ok_iff_defines hfound',
      indentWidth_append hfirst]
  | cons line upper =>
    rw [hupper] at hsource hdefinition
    obtain ⟨rfl, rfl⟩ := List.cons.inj hdefinition
    have hfound' := hothers _ (upper ++ (c.line ++ c.comment) :: c.lower) hfirst
    refine ⟨?_, _, hsource, fun f => ?_⟩
    · rw [Text.ended_cons, List.append_assoc]
      exact isDefinition_append hfirst _
    · rw [read, c.lines_commented, hupper, List.cons_append, ofLines_eq_ok_iff_defines hfound']

/-- No line above the comment has a line feed: they are lines of the source. -/
theorem newline_notMem_upper (c : HeadComment source commented) :
    ∀ line ∈ c.upper, '\n' ∉ line := fun line hline =>
  c.newline_notMem_source line (List.mem_append_left _ hline)

/-- The head ends behind the lines above the comment, and the lines below it are left for the body,
of which there is at least one. -/
theorem exists_below (c : HeadComment source commented) {head behind body : List Char}
    {indent : Nat}
    (hhead : Signature.breakHead false .start (joinLines (c.upper ++ c.line :: c.lower))
      = some (head, behind))
    (hbody : body? indent ((c.upper ++ c.line :: c.lower).drop (countBreaks head + 1))
      = some body) :
    c.lower ≠ [] ∧ ∃ part, head = ended c.upper ++ part := by
  obtain ⟨seen, happend⟩ := Signature.exists_breakHead_append c.goesOn
  rw [Text.joinLines_append (List.cons_ne_nil _ _), happend] at hhead
  obtain ⟨⟨part, behind'⟩, -, heq⟩ := Option.map_eq_some_iff.1 hhead
  obtain ⟨rfl, -⟩ := Prod.mk.inj heq
  refine ⟨fun hlower => ?_, part, rfl⟩
  rw [drop_countBreaks c.newline_notMem_upper, hlower, List.drop_nil] at hbody
  cases hbody

/-- A head that ends on the line of the comment ends there whatever stands behind that line
(`other`), and the rest of the line is behind it. -/
theorem exists_rest (c : HeadComment source commented) {head rest : List Char}
    (hopen : Signature.breakHead false .start c.text = some (head, rest)) :
    '\n' ∉ rest
      ∧ ∀ other, Signature.breakHead false .start (c.text ++ other)
        = some (head, rest ++ other) := by
  obtain ⟨htext, -, hother⟩ := Signature.breakHead_eq_some hopen
  refine ⟨fun hmem => ?_, fun other => ?_⟩
  · obtain ⟨seen, happend⟩ := Signature.exists_breakHead_append c.goesOn
    rw [text, happend] at hopen
    obtain ⟨⟨part, rest'⟩, hfound, heq⟩ := Option.map_eq_some_iff.1 hopen
    cases heq
    have hline := (Signature.breakHead_eq_some hfound).1
    refine c.newline_notMem_source c.line (List.mem_append_right _ List.mem_cons_self) ?_
    rw [hline]
    exact List.mem_append_right part (List.mem_cons_of_mem _ hmem)
  · rw [htext, List.append_assoc, List.cons_append, hother]

/-- The head with the comment ends where the head without it ends: on the line of the comment, or on
a line below, and then with the comment in it. -/
theorem exists_head (c : HeadComment source commented) {head behind body : List Char} {indent : Nat}
    (hhead : Signature.breakHead false .start (joinLines (c.upper ++ c.line :: c.lower))
      = some (head, behind))
    (hblank : isBlankOrComment (firstLine behind) = true)
    (hbody : body? indent ((c.upper ++ c.line :: c.lower).drop (countBreaks head + 1))
      = some body) :
    ∃ head' behind', Signature.breakHead false .start
        (joinLines (c.upper ++ (c.line ++ c.comment) :: c.lower)) = some (head', behind')
      ∧ isBlankOrComment (firstLine behind') = true
      ∧ body? indent ((c.upper ++ (c.line ++ c.comment) :: c.lower).drop
          (countBreaks head' + 1)) = some body
      ∧ (head' = head ∧ c.place = .behind
        ∨ Signature.breakHead false .start c.text = none ∧ ∃ more, head = c.text ++ '\n' :: more
          ∧ head' = c.text ++ (c.comment ++ '\n' :: more)) := by
  obtain ⟨hlower, part, hpart⟩ := c.exists_below hhead hbody
  have hcommented : joinLines (c.upper ++ (c.line ++ c.comment) :: c.lower)
      = c.text ++ (c.comment ++ '\n' :: joinLines c.lower) := by
    rw [joinLines_append_cons hlower, text, List.append_assoc, List.append_assoc]
  rw [joinLines_append_cons hlower, ← List.append_assoc, ← text] at hhead
  rw [hcommented]
  -- The head has ended on the line of the comment, or it goes on below that line.
  cases hopen : Signature.breakHead false .start c.text with
  | some found =>
    obtain ⟨head', rest⟩ := found
    obtain ⟨hrest, hother⟩ := c.exists_rest hopen
    rw [hother] at hhead
    cases hhead
    rw [Text.firstLine_append hrest] at hblank
    refine ⟨head, _, hother _, ?_, ?_, .inl ⟨rfl, ?_⟩⟩
    · have hrest' : '\n' ∉ rest ++ c.comment := by simp [hrest, c.isComment.newline]
      rw [← List.append_assoc, Text.firstLine_append hrest']
      exact Source.isBlankOrComment_append hblank c.isComment
    · rw [hpart, drop_countBreaks c.newline_notMem_upper] at hbody ⊢
      exact hbody
    · rw [place, Signature.Place.ofHead, hopen]
      rfl
  | none =>
    obtain ⟨found, hfound, hfound'⟩ :=
      Signature.exists_breakHead quoted_start hopen c.outside c.isComment (joinLines c.lower)
    rw [hfound] at hhead
    obtain ⟨⟨more, behind'⟩, rfl, heq⟩ := Option.map_eq_some_iff.1 hhead
    cases heq
    refine ⟨_, _, hfound', hblank, ?_, .inr ⟨rfl, more, rfl, rfl⟩⟩
    rw [text, List.append_assoc, drop_countBreaks c.newline_notMem_upper] at hbody ⊢
    rw [countBreaks_comment c.isComment]
    exact hbody

end HeadComment

/-- **A comment at the end of a line of a head** is ignored if the line ends in a default or behind
the parameter list. In a type hint it changes at most the type of that parameter. But in or before
the name of a parameter it becomes part of the name, and before the parameter list it is refused.
The place (`HeadComment.place`) tells the cases apart, and there are no others. -/
theorem read_commented {source commented : String} (h : read source = .ok f)
    (c : HeadComment source commented) :
    match c.place with
    | .default | .behind => read commented = .ok f
    | .hint => ∀ g, read commented = .ok g → ∃ i type,
        g = { f with parameters := f.parameters.modify i fun d => { d with type } }
    | .name => ∀ g, read commented = .ok g → ∃ d ∈ g.parameters, '#' ∈ d.name.toList
    | .opening => ∀ g, read commented ≠ .ok g := by
  obtain ⟨hdefinition, indent, hsource, hcommented⟩ := c.exists_defines
  obtain ⟨head, behind, signature, body, hhead, hblank, hsignature, hbody, rfl⟩ := (hsource f).1 h
  obtain ⟨head', behind', hhead', hblank', hbody', hplace⟩ := c.exists_head hhead hblank hbody
  have hiff (g : Function) : read commented = .ok g
      ↔ ∃ signature', Signature.ofHead head' = .ok signature' ∧ g = ofBody signature' body := by
    rw [hcommented]
    constructor
    · rintro ⟨_, _, signature', _, hhead₁, -, hsignature', hbody₁, rfl⟩
      cases hhead'.symm.trans hhead₁
      cases hbody'.symm.trans hbody₁
      exact ⟨signature', hsignature', rfl⟩
    · rintro ⟨signature', hsignature', rfl⟩
      exact ⟨head', behind', signature', body, hhead', hblank', hsignature', hbody', rfl⟩
  -- Either the head has ended before the comment, and then the head is the same, or it goes on
  -- below, with the comment in it.
  rcases hplace with ⟨rfl, hbehind⟩ | ⟨hopen, more, rfl, rfl⟩
  · rw [hbehind]
    exact (hiff _).2 ⟨signature, hsignature, rfl⟩
  obtain ⟨hallows, hignores⟩ :=
    Signature.ofHead_comment hdefinition hopen c.outside c.isComment hsignature
  rw [HeadComment.place]
  -- What a comment does is known for each place, so only the place itself is left to look at.
  generalize Signature.Place.ofHead c.text = p at hallows hignores
  cases p with
  | opening =>
    intro g hg
    obtain ⟨signature', hsignature', -⟩ := (hiff g).1 hg
    exact hallows signature' hsignature'
  | name =>
    intro g hg
    obtain ⟨signature', hsignature', rfl⟩ := (hiff g).1 hg
    exact hallows signature' hsignature'
  | hint =>
    intro g hg
    obtain ⟨signature', hsignature', rfl⟩ := (hiff g).1 hg
    obtain ⟨hname, i, type, hparameters⟩ := hallows signature' hsignature'
    refine ⟨i, type, ?_⟩
    rw [ofBody, hname, hparameters]
    rfl
  | default | behind => exact (hiff _).2 ⟨signature, hignores rfl, rfl⟩

/-- A comment in a list of texts that a parameter has as its default, with a quote and a bracket in
it that would both stay open. -/
def listComment : HeadComment
    "def f(\n    a,\n    b=[\n        'x)',\n        'y'\n    ]\n):\n    pass\n"
    "def f(\n    a,\n    b=[\n        'x)',  # \"(it's,\n        'y'\n    ]\n):\n    pass\n" where
  before := []
  upper := ["def f(".toList, "    a,".toList, "    b=[".toList]
  line := "        'x)',".toList
  lower := ["        'y'".toList, "    ]".toList, "):".toList, "    pass".toList]
  comment := "  # \"(it's,".toList
  isComment := ⟨by decide, "  ".toList, " \"(it's,".toList, rfl, rfl⟩
  lines_source := by decide +kernel
  lines_commented := by decide +kernel
  found := by decide +kernel
  goesOn := by decide +kernel
  outside := by decide +kernel

/-- The comment in the list is ignored: the default is the list of both texts. -/
theorem comment_in_list_ignored :
    ∃ f,
      read "def f(\n    a,\n    b=[\n        'x)',\n        'y'\n    ]\n):\n    pass\n" = .ok f
        ∧ f.parameters
          = [{ name := "a" },
            { name := "b", default := some (.json (.array [.string "x)", .string "y"])) }]
        ∧ read
          "def f(\n    a,\n    b=[\n        'x)',  # \"(it's,\n        'y'\n    ]\n):\n    pass\n"
          = .ok f := by
  have hplace : listComment.place = .default := by decide +kernel
  obtain ⟨f, hf, hparameters⟩ := exists_ok_of_map (f := Function.parameters)
    (x := read "def f(\n    a,\n    b=[\n        'x)',\n        'y'\n    ]\n):\n    pass\n")
    (b := [{ name := "a" },
      { name := "b", default := some (.json (.array [.string "x)", .string "y"])) }])
    (by decide +kernel)
  have hcommented := read_commented hf listComment
  rw [hplace] at hcommented
  exact ⟨f, hf, hparameters, hcommented⟩

/-- Two functions are read, and their parameters are seen, from what can be computed of both. -/
theorem exists_parameters {s s' : String} {ds ds' : List Declaration}
    (h : (read s).toOption.map (·.parameters) = some ds)
    (h' : (read s').toOption.map (·.parameters) = some ds') :
    ∃ f g, read s = .ok f ∧ read s' = .ok g ∧ f.parameters = ds ∧ g.parameters = ds' := by
  obtain ⟨f, hf, hds⟩ := exists_ok_of_map h
  obtain ⟨g, hg, hds'⟩ := exists_ok_of_map h'
  exact ⟨f, g, hf, hg, hds, hds'⟩

/-- A comment behind a comma is part of the name of the next parameter, and a comment behind a hint
is part of the hint, which then names a type of its own. -/
theorem comment_changes_parameters :
    (∃ f g, read "def f(\n    a,\n    b\n):\n    pass\n" = .ok f
        ∧ read "def f(\n    a, # first\n    b\n):\n    pass\n" = .ok g
        ∧ f.parameters = [{ name := "a" }, { name := "b" }]
        ∧ g.parameters = [{ name := "a" }, { name := "# first\n    b" }])
      ∧ ∃ f g, read "def f(\n    a: int\n):\n    pass\n" = .ok f
        ∧ read "def f(\n    a: int # count\n):\n    pass\n" = .ok g
        ∧ f.parameters = [{ name := "a", type := .integer }]
        ∧ g.parameters = [{ name := "a", type := .custom "int # count" }] :=
  ⟨exists_parameters (by decide +kernel) (by decide +kernel),
    exists_parameters (by decide +kernel) (by decide +kernel)⟩

end Function

end WorkflowTemplates
