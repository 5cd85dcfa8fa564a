import WorkflowTemplates.Proofs.Source.HeadLines
import WorkflowTemplates.Proofs.Source.LongString
import WorkflowTemplates.Proofs.Source.Returned

/-!
# Strings over several lines before a returned text

A body may assign a string over several lines to a name and then return a text. The lines of the
string are no logical ones, so both statements are in the body whatever the string holds
(`Source.body?_assigned`). But the margin of the body is taken from these lines, too: where one of
them is not indented like the statements, these are not in the first column once the margin is taken
away (`Source.exists_dedent_assigned`), and then there are no statements at all
(`Source.statements_assigned`). So the text is returned exactly if the lines of the string are
indented like the body (`Function.read_assignmentText`).
-/

namespace WorkflowTemplates

open Text (Stops Trimmed dropReturn ended indentWidth isBlank isBlankLine joinLines leadingBlank
  margin trim trimEnd withoutMargin)

namespace Source

variable {w m first : List Char} {more : List (List Char)} {indent : Nat}

/-- The text in front of the string that a name stands for: the name, an equals sign and three
quotes. -/
def assignOpening : List Char :=
  "x = ".toList ++ longQuotes

/-- It opens the string, behind any blanks `w`: the scanner is in a long string then, outside
brackets. -/
theorem run_assignOpening (hw : isBlankLine w = true) :
    ScanState.start.run (w ++ assignOpening) = ⟨0, .long '"' 0⟩ := by
  rw [ScanState.run_append, run_blank hw]
  rfl

/-- The first line of the statement goes on behind the name, wherever it ends. -/
theorem StringLines.exists_first (h : StringLines (w ++ assignOpening) first more) :
    ∃ t, first = w ++ 'x' :: ' ' :: t := by
  cases h with
  | single hline => exact ⟨_, List.append_assoc ..⟩
  | cons hline hls => exact ⟨_, List.append_assoc ..⟩

/-- The line that returns a literal, behind its indentation `w`. -/
def returnLine (w : List Char) (l : Literal) : List Char :=
  w ++ returnStatement l

variable {l : Literal}

theorem isBlankLine_returnLine (w : List Char) (l : Literal) :
    isBlankLine (returnLine w l) = false := by
  rw [returnLine, Text.isBlankLine_append]
  exact Bool.and_false _

theorem leadingBlank_returnLine (hw : isBlankLine w = true) (hl : l.Readable) :
    leadingBlank (returnLine w l) = w :=
  Text.leadingBlank_append hw (trimmed_returnStatement hl).start

theorem isBlankOrComment_returnLine (hw : isBlankLine w = true) (hl : l.Readable) :
    isBlankOrComment (returnLine w l) = false := by
  rw [isBlankOrComment, returnLine, Text.trim_append_left hw, ← isBlankOrComment,
    isBlankOrComment_returnStatement hl]

/-- Behind the line a logical one starts, since a literal that reads back leaves no string and no
bracket open (`EndsLine`). -/
theorem endsLine_returnLine (hw : isBlankLine w = true) (hl : l.Readable) :
    EndsLine .start (returnLine w l) := by
  obtain ⟨htop, hlast⟩ := endsLine_returnStatement hl
  refine ⟨?_, ?_⟩
  · rw [returnLine, ScanState.run_append, run_blank hw]
    exact htop
  · have hne : returnStatement l ≠ [] := List.cons_ne_nil _ _
    rw [returnLine, List.getLast?_append_of_ne_nil _ hne]
    exact hlast

theorem newline_notMem_returnLine (hw : '\n' ∉ w) (hl : l.Readable) : '\n' ∉ returnLine w l := by
  rw [returnLine, List.mem_append, not_or]
  exact ⟨hw, newline_notMem_returnStatement hl⟩

theorem dropReturn_returnLine (w : List Char) (hl : l.Readable) :
    dropReturn (returnLine w l) = returnLine w l :=
  (trimmed_returnStatement hl).dropReturn_append (List.cons_ne_nil _ _) w

/-! ## The lines -/

/-- The lines as they are read, without their carriage returns (`dropReturn`), are those of a
string, too. -/
theorem StringLines.map_dropReturn (h : StringLines (w ++ assignOpening) first more) :
    StringLines (w ++ assignOpening) (dropReturn first) (more.map dropReturn) := by
  have hquotes (line : List Char) : dropReturn (line ++ longQuotes) = line ++ longQuotes :=
    trimmed_longQuotes.dropReturn_append (by decide) line
  have hopening : (w ++ assignOpening).getLast? ≠ some '\r' := by
    rw [List.getLast?_append]
    exact fun h => by cases h
  have hfront (line : List Char) :
      dropReturn (w ++ assignOpening ++ line) = w ++ assignOpening ++ dropReturn line :=
    Text.dropReturn_append hopening line
  refine h.map (fun line => ⟨dropReturn line, Text.dropReturn_subset line, hfront line⟩) ?_
    Text.dropReturn_subset fun line _ => ⟨line, List.Subset.refl line, hquotes line⟩
  intro line
  rw [hfront, hquotes]

/-- The logical lines are the two statements: the lines `more` of the string start none. -/
theorem logicalLines_assigned (hw : isBlankLine w = true)
    (h : StringLines (w ++ assignOpening) first more) (hl : l.Readable) (rest : List (List Char)) :
    logicalLines (first :: (more ++ returnLine w l :: rest))
      = ⟨true, first⟩ :: (more.map (⟨false, ·⟩)
        ++ ⟨true, returnLine w l⟩ :: markLines .start true rest) := by
  rw [logicalLines, h.markLines_eq (run_assignOpening hw),
    markLines_of_endsLine quoted_start (endsLine_returnLine hw hl)]

/-! ## The body -/

/-- **Both statements are in the body**, whatever the string holds: a line of a string ends no body,
however little it is indented. -/
theorem body?_assigned (hw : isBlankLine w = true) (hindent : indent < w.length)
    (h : StringLines (w ++ assignOpening) first more) (hl : l.Readable) :
    body? indent (first :: more ++ [returnLine w l])
      = some (Text.dedent (first :: more ++ [returnLine w l])) := by
  refine body?_of_inside ?_ (isBlankLine_returnLine w l)
  have hdeeper {line : List Char} (hline : leadingBlank line = w) :
      Line.endsBody indent ⟨true, line⟩ = false := by
    rw [Line.endsBody, indentWidth, hline, decide_eq_false (by omega), Bool.and_false]
  intro line hmem
  rw [List.cons_append, logicalLines_assigned hw h hl []] at hmem
  rcases List.mem_cons.1 hmem with rfl | hmem
  · obtain ⟨t, rfl⟩ := h.exists_first
    exact hdeeper (Text.leadingBlank_append hw (Text.stops_cons rfl _))
  rcases List.mem_append.1 hmem with hmem | hmem
  · obtain ⟨line, -, rfl⟩ := List.mem_map.1 hmem
    rfl
  · rw [List.mem_singleton.1 hmem]
    exact hdeeper (leadingBlank_returnLine hw hl)

/-- **The statements of the body.** If they are indented they are none, because `statements` only
takes lines in the first column for the start of one. -/
theorem statements_assigned (hw : isBlankLine w = true)
    (h : StringLines (w ++ assignOpening) first more) (hl : l.Readable)
    (hfree : ∀ line ∈ first :: more ++ [returnLine w l], '\n' ∉ line) :
    statements (ended (first :: more ++ [returnLine w l]))
      = if w = [] then [first ++ more.flatMap ('\n' :: ·), returnStatement l] else [] := by
  obtain ⟨t, hfirst⟩ := h.exists_first
  have hcomment : isBlankOrComment first = false := by
    have hx : isBlank 'x' = false := rfl
    rw [isBlankOrComment, hfirst, Text.trim_append_cons hx]
    rw [show Text.trimStart w = [] from (Text.trimStart_eq_nil_iff w).2 hw]
    rfl
  have hwidth : indentWidth first = w.length := by
    rw [hfirst, indentWidth, Text.leadingBlank_append hw (Text.stops_cons rfl _)]
  have hcomment' := isBlankOrComment_returnLine hw hl
  have hwidth' : indentWidth (returnLine w l) = w.length := by
    rw [indentWidth, leadingBlank_returnLine hw hl]
  have hend (current : Option (List Char)) :
      statementsFrom current (markLines .start true [[]]) = current.toList := rfl
  rw [statements, Text.splitOn_ended hfree, List.append_assoc, List.cons_append,
    List.singleton_append, logicalLines_assigned hw h hl]
  split
  · next hnil =>
    have hzero : w.length = 0 := List.length_eq_zero_iff.2 hnil
    rw [statementsFrom_flush hcomment (hwidth.trans hzero), statementsFrom_within,
      statementsFrom_flush hcomment' (hwidth'.trans hzero), hend, returnLine, hnil]
    rfl
  · next hne =>
    have hpos := List.length_pos_iff.2 hne
    rw [statementsFrom_deeper hcomment (hwidth ▸ hpos), statementsFrom_within,
      statementsFrom_deeper hcomment' (hwidth' ▸ hpos), hend]
    rfl

/-! ## The margin -/

/-- Quotes at the end of a line are left behind its margin, which consists of blanks. -/
theorem withoutMargin_quotes (hm : isBlankLine m = true) {line : List Char}
    (h : m <+: line ++ longQuotes) :
    ∃ line' ⊆ line, withoutMargin m (line ++ longQuotes) = line' ++ longQuotes := by
  have hdrop (c : List Char) : withoutMargin m (m ++ c ++ longQuotes) = c ++ longQuotes := by
    rw [List.append_assoc, Text.withoutMargin_append rfl, trimmed_longQuotes.trimEnd_eq]
  obtain ⟨t, ht⟩ := h
  rcases List.append_eq_append_iff.1 ht with ⟨c, rfl, -⟩ | ⟨c, rfl, hquotes⟩
  · exact ⟨c, List.subset_append_right m c, hdrop c⟩
  -- A margin does not reach into the quotes.
  cases c with
  | nil =>
    have hnil := hdrop []
    rw [List.append_nil, List.append_nil] at hnil
    exact ⟨[], List.nil_subset line, by rw [List.append_nil, hnil]⟩
  | cons c rest =>
    have hc : c = '"' := (List.cons.inj hquotes).1.symm
    have hblank := List.all_eq_true.1 hm c (by simp)
    rw [hc] at hblank
    cases hblank

/-- The whole indentation is the margin exactly if the lines of the string behind the first one
start with it, the blank ones apart: `margin` is the longest indentation that all lines share. -/
theorem prefix_margin_assigned (hw : isBlankLine w = true)
    (h : StringLines (w ++ assignOpening) first more) (hl : l.Readable) :
    w <+: margin (first :: more ++ [returnLine w l])
      ↔ ∀ line ∈ more, isBlankLine line = false → w <+: leadingBlank line := by
  have hlast : returnLine w l ∈ first :: more ++ [returnLine w l] := by simp
  obtain ⟨t, hfirst⟩ := h.exists_first
  have hleading : leadingBlank first = w := by
    rw [hfirst, Text.leadingBlank_append hw (Text.stops_cons rfl _)]
  rw [Text.prefix_margin_iff hlast (isBlankLine_returnLine w l), List.cons_append,
    List.forall_mem_cons, List.forall_mem_append, List.forall_mem_singleton, hleading,
    leadingBlank_returnLine hw hl]
  exact ⟨fun hall => hall.2.1, fun hall => ⟨fun _ => List.prefix_refl w, hall,
    fun _ => List.prefix_refl w⟩⟩

/-- The line that opens the string keeps what is behind its margin `m`, and loses the blanks at its
end. -/
theorem withoutMargin_assignOpening (m w line : List Char) :
    withoutMargin m (m ++ w ++ assignOpening ++ line) = w ++ assignOpening ++ trimEnd line := by
  have hline : isBlankLine (assignOpening ++ line) = false := by
    rw [Text.isBlankLine_append, show isBlankLine assignOpening = false by decide, Bool.false_and]
  have htrim : trimEnd (assignOpening ++ line) = assignOpening ++ trimEnd line :=
    Text.trimEnd_append_cons (c := '"') rfl "x = \"\"".toList line
  rw [List.append_assoc, List.append_assoc, Text.withoutMargin_append hline, htrim,
    List.append_assoc]

/-- The line that returns keeps what is behind its margin `m`; there are no blanks at its end. -/
theorem withoutMargin_returnLine (m w : List Char) (hl : l.Readable) :
    withoutMargin m (returnLine (m ++ w) l) = returnLine w l := by
  have hblank : isBlankLine (returnStatement l) = false := rfl
  rw [returnLine, List.append_assoc, Text.withoutMargin_append hblank,
    (trimmed_returnStatement hl).trimEnd_eq, returnLine]

/-- **The body without its margin** is still the two statements, behind what is left of their
indentation: nothing, exactly if the lines of the string are indented like them
(`prefix_margin_assigned`). -/
theorem exists_dedent_assigned (hw : isBlankLine w = true)
    (h : StringLines (w ++ assignOpening) first more) (hl : l.Readable)
    (hfree : ∀ line ∈ first :: more ++ [returnLine w l], '\n' ∉ line) :
    ∃ w' first' more', isBlankLine w' = true
      ∧ (w' = [] ↔ ∀ line ∈ more, isBlankLine line = false → w <+: leadingBlank line)
      ∧ StringLines (w' ++ assignOpening) first' more'
      ∧ (∀ line ∈ first' :: more' ++ [returnLine w' l], '\n' ∉ line)
      ∧ Text.dedent (first :: more ++ [returnLine w l])
        = ended (first' :: more' ++ [returnLine w' l]) := by
  -- The margin is part of the indentation `w` of the statements; `w'` is what is left of it.
  let m := margin (first :: more ++ [returnLine w l])
  have hlast : returnLine w l ∈ first :: more ++ [returnLine w l] := by simp
  have hmargin : ∀ line ∈ first :: more ++ [returnLine w l], isBlankLine line = false →
      m <+: leadingBlank line :=
    (Text.prefix_margin_iff hlast (isBlankLine_returnLine w l)).1 (List.prefix_refl m)
  obtain ⟨w', hw'⟩ : m <+: w := by
    have hprefix := hmargin _ hlast (isBlankLine_returnLine w l)
    rwa [leadingBlank_returnLine hw hl] at hprefix
  obtain ⟨hm, hrest⟩ : isBlankLine m = true ∧ isBlankLine w' = true := by
    rwa [← hw', Text.isBlankLine_append, Bool.and_eq_true] at hw
  have hnil : w' = [] ↔ w <+: m := by
    have hprefix : m ++ w' <+: m ++ [] ↔ w' <+: [] := List.prefix_append_right_inj m
    rw [hw', List.append_nil, List.prefix_nil] at hprefix
    exact hprefix.symm
  have hdrop (line : List Char) : withoutMargin m (w ++ assignOpening ++ line)
      = w' ++ assignOpening ++ trimEnd line := hw' ▸ withoutMargin_assignOpening m w' line
  have hreturn : withoutMargin m (returnLine w l) = returnLine w' l :=
    hw' ▸ withoutMargin_returnLine m w' hl
  have hlines : (first :: more ++ [returnLine w l]).map (withoutMargin m)
      = withoutMargin m first :: more.map (withoutMargin m) ++ [returnLine w' l] := by
    rw [List.map_append, List.map_cons, List.map_singleton, hreturn]
  refine ⟨w', withoutMargin m first, more.map (withoutMargin m), hrest,
    hnil.trans (prefix_margin_assigned hw h hl), ?_, ?_, ?_⟩
  · refine h.map (fun line => ⟨trimEnd line, Text.trimEnd_subset line, hdrop line⟩) ?_
      (Text.withoutMargin_subset m) ?_
    · intro line
      rw [hdrop, Text.trimEnd_append_of_not_blank rfl, trimmed_longQuotes.trimEnd_eq]
    -- A line of the string keeps its quotes only because the margin, being blank, ends before them.
    · intro line hline
      have hblank : isBlankLine (line ++ longQuotes) = false := by
        rw [Text.isBlankLine_append]
        exact Bool.and_false _
      refine withoutMargin_quotes hm ((Text.prefix_leadingBlank_iff hm).1 (hmargin _ ?_ hblank))
      simp [hline]
  · rw [← hlines]
    exact List.forall_mem_map.2 fun line hline hm =>
      hfree line hline (Text.withoutMargin_subset m line hm)
  · rw [← hlines, Text.dedent, ended, List.flatMap_map]

end Source

namespace Function

open Source (ClosesBody StringLines Unquoted assignOpening longQuotes returnLine)

variable {head : List (List Char)} {w content ending : List Char} {s : String}

/-- A source that goes on behind the lines of a head with two statements: one assigns a string over
any lines (`content`) to a name, the other returns the text `s`. -/
def assignmentText (head : List (List Char)) (w content : List Char) (s : String)
    (ending : List Char) : List Char :=
  joinLines (head ++ [w ++ assignOpening ++ (content ++ longQuotes), returnLine w (.string s)])
    ++ ending

/-- Whether the lines of a string behind the one on which it is opened start with an indentation,
the blank ones apart; its last line goes up to the quotes. -/
def isIndentedBy (w content : List Char) : Bool :=
  ((content ++ longQuotes).splitOn '\n').tail.all fun line =>
    isBlankLine line || w.isPrefixOf line

section
variable {line : List Char} {more : List (List Char)}

/-- Carriage returns at the ends of lines make no difference to that, so `isIndentedBy` can be
decided on the text itself. -/
theorem isIndentedBy_iff (hw : isBlankLine w = true)
    (hpieces : (content ++ longQuotes).splitOn '\n' = line :: more) :
    isIndentedBy w content = true
      ↔ ∀ l ∈ more.map dropReturn, isBlankLine l = false → w <+: leadingBlank l := by
  rw [isIndentedBy, hpieces, List.tail_cons, List.all_eq_true, List.forall_mem_map]
  refine forall₂_congr fun l _ => ?_
  rw [Text.isBlankLine_dropReturn, Bool.or_eq_true, List.isPrefixOf_iff_prefix]
  cases hblank : isBlankLine l with
  | true => simp
  | false => simp [Text.leadingBlank_dropReturn hblank, Text.prefix_leadingBlank_iff hw]

/-- The lines of the statement that opens the string are those of the string, the first one behind
`assignOpening`. -/
theorem splitOn_assigned (hindent : IsIndent w)
    (hpieces : (content ++ longQuotes).splitOn '\n' = line :: more) :
    (w ++ assignOpening ++ (content ++ longQuotes)).splitOn '\n'
      = (w ++ assignOpening ++ line) :: more := by
  have hopening : '\n' ∉ w ++ assignOpening := by
    rw [List.mem_append, not_or]
    exact ⟨hindent.newline_notMem, by decide⟩
  rw [Text.splitOn_append hopening, hpieces]
  rfl

/-- The source consists of the lines of the head, of the string, and of the one that returns
(`returnLine`). -/
theorem assignmentText_eq (hindent : IsIndent w)
    (hpieces : (content ++ longQuotes).splitOn '\n' = line :: more) :
    assignmentText head w content s ending
      = joinLines (head ++ (w ++ assignOpening ++ line) :: more ++ [returnLine w (.string s)])
        ++ ending := by
  let last := returnLine w (.string s)
  have hended : ended [w ++ assignOpening ++ (content ++ longQuotes)]
      = ended ((w ++ assignOpening ++ line) :: more) := by
    rw [← splitOn_assigned hindent hpieces, Text.ended_splitOn]
    exact List.flatMap_singleton _ _
  rw [assignmentText, List.append_cons, Text.joinLines_append (List.cons_ne_nil last []),
    Text.joinLines_append (List.cons_ne_nil last []), ended, List.flatMap_append, ← ended,
    ← ended, hended, ended, ended, ended, ← List.flatMap_append]

end

/-- **A text is returned behind a string over several lines** exactly if the lines of the string are
indented like the body (`isIndentedBy`). The head may be any, and so may the string, without quotes
and backslashes (`Unquoted`), and what closes the body (`ClosesBody`). The function has no
documentation. -/
theorem read_assignmentText (p : Layout (head.map dropReturn)) (hlines : p.lines = [])
    (hhead : ∀ line ∈ head, '\n' ∉ line) (hindent : IsIndent w)
    (hdeeper : indentWidth p.first < w.length) (hcontent : Unquoted content) (s : String)
    (hending : ClosesBody (indentWidth p.first) ending) :
    ∃ f, read (String.ofList (assignmentText head w content s ending)) = .ok f
      ∧ f.name = p.signature.name ∧ f.parameters = p.signature.parameters ∧ f.docstring = ""
      ∧ f.returnValue = if isIndentedBy w content then some s else none := by
  have hl : (Literal.string s).Readable := trivial
  have hw := hindent.isBlankLine
  let last := returnLine w (.string s)
  -- The lines of the source.
  obtain ⟨line, more, hpieces, hstring⟩ := Source.exists_stringLines hcontent (w ++ assignOpening)
  let first := w ++ assignOpening ++ line
  have hfreeLast := Source.newline_notMem_returnLine hindent.newline_notMem hl
  have hfreeMore : ∀ piece ∈ first :: more, '\n' ∉ piece := by
    rw [← splitOn_assigned hindent hpieces]
    exact fun piece => Text.notMem_of_mem_splitOn
  have hfree : ∀ line ∈ head ++ first :: more ++ [last], '\n' ∉ line :=
    List.forall_mem_append.2 ⟨List.forall_mem_append.2 ⟨hhead, hfreeMore⟩,
      List.forall_mem_singleton.2 hfreeLast⟩
  -- The lines as they are read, and the body of them.
  have hstring' := hstring.map_dropReturn
  have hfree' : ∀ line ∈ dropReturn first :: more.map dropReturn ++ [last], '\n' ∉ line := by
    refine List.forall_mem_append.2 ⟨?_, List.forall_mem_singleton.2 hfreeLast⟩
    rw [← List.map_cons]
    exact List.forall_mem_map.2 fun line hline hm =>
      hfreeMore line hline (Text.dropReturn_subset line hm)
  have hbody := Source.body?_assigned hw hdeeper hstring' hl
  have hends : Source.EndsLine
      (Source.ScanState.start.run (ended (dropReturn first :: more.map dropReturn))) last := by
    rw [hstring'.run_ended (Source.run_assignOpening hw)]
    exact Source.endsLine_returnLine hw hl
  have hread := p.read_eq hlines hfree (List.append_ne_nil_of_right_ne_nil _ (List.cons_ne_nil _ _))
    (Source.dropReturn_returnLine w hl) hbody hends hending
  obtain ⟨w', first', more', hw', hnil, hstring'', hfree'', hdedent⟩ :=
    Source.exists_dedent_assigned hw hstring' hl hfree'
  rw [← isIndentedBy_iff hw hpieces] at hnil
  have hstatements := Source.statements_assigned hw' hstring'' hl hfree''
  rw [← hdedent] at hstatements
  rw [assignmentText_eq hindent hpieces]
  refine ⟨_, hread, rfl, rfl, ?_⟩
  rw [ofBody, hstatements]
  by_cases hempty : w' = []
  · obtain ⟨t, rfl⟩ := hstring''.exists_first
    rw [if_pos hempty, if_pos (hnil.1 hempty), hempty]
    refine ⟨?_, Source.returned?_returnStatement hl⟩
    exact congrArg String.ofList (Source.docstring_word rfl (Text.stops_cons rfl _))
  · rw [if_neg hempty, if_neg fun h => hempty (hnil.2 h)]
    exact ⟨rfl, rfl⟩

/-- A script with an indented line, an empty one and a line that looks like a statement. -/
def indentedScript : List Char :=
  "#!/bin/sh\n      echo 1\r\n\n    return 'b'\n    ".toList

/-- Its lines are indented like the body, so the text behind it is returned, although one of them
looks like the statement that returns. -/
theorem indentedScript_returns :
    ∃ f, read (String.ofList (assignmentText [nullaryLine 0 "f"] "    ".toList indentedScript "a"
        ['\n'])) = .ok f ∧ f.returnValue = some "a" := by
  have hname : Signature.isFunctionName "f".toList = true := by decide
  obtain ⟨p, hlines, hindent, -⟩ := exists_layout_nullary hname (List.forall_mem_nil _) 0
  have hhead : ∀ line ∈ [nullaryLine 0 "f"], '\n' ∉ line := by decide
  have hw : IsIndent "    ".toList := ⟨by decide, Text.forall_mem_of_all (by decide)⟩
  have hdeeper : indentWidth p.first < "    ".toList.length := by
    rw [hindent]
    decide
  have hcontent : Unquoted indentedScript := ⟨by decide, by decide⟩
  have hending : ClosesBody (indentWidth p.first) ['\n'] :=
    .inr ⟨[], rfl, fun line hline => by cases hline⟩
  obtain ⟨f, hread, -, -, -, hreturned⟩ :=
    read_assignmentText p hlines hhead hw hdeeper hcontent "a" hending
  have hindented : isIndentedBy "    ".toList indentedScript = true := by decide
  rw [if_pos hindented] at hreturned
  exact ⟨f, hread, hreturned⟩

/-- A line of the string in column zero hides the text that is returned behind it. -/
theorem flush_line_hides_returned_text :
    let source := "def f():\n    x = \"\"\"\nflush\n\"\"\"\n    return 'a'\n"
    source = String.ofList
        (assignmentText [nullaryLine 0 "f"] "    ".toList "\nflush\n".toList "a" ['\n'])
      ∧ Unquoted "\nflush\n".toList
      ∧ ∃ f, read source = .ok f ∧ f.returnValue = none := by
  refine ⟨by decide +kernel, ⟨by decide, by decide⟩, ?_⟩
  have hread : (read "def f():\n    x = \"\"\"\nflush\n\"\"\"\n    return 'a'\n").toOption.map
      (·.returnValue) = some none := by decide +kernel
  exact exists_ok_of_map hread

end Function

end WorkflowTemplates
