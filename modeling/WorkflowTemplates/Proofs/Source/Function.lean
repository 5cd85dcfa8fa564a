import WorkflowTemplates.Proofs.Source.Body
import WorkflowTemplates.Proofs.Source.Signature
import WorkflowTemplates.Proofs.Text.Lines
import WorkflowTemplates.Source.Function

/-!
# Reading written functions

A function definition whose head is written from parameters, with a body of one statement, is read
as the function of that name and with exactly these parameters (`read_definitionText`). Its head has
no line end in it and ends at its own colon, whatever the texts in hints and defaults are.
-/

namespace WorkflowTemplates

open Source (ScanState)
open Source.ScanState (Scans Visits isPlain)
open Text (isBlank isBlankLine isWordChar)

namespace Signature

variable {name : String} {ps : List Written}

/-- A parameter stays on its line: strings in hints and defaults are written with escapes for their
line feeds. -/
theorem newline_notMem_text {p : Written} (h : p.WellFormed) : '\n' ∉ p.text := by
  have hname := Text.newline_notMem_word h.name_word
  have hhead : '\n' ∉ p.head := by
    unfold Written.head
    split
    · exact hname
    · next hint hhint =>
      have hwritten := TypeHint.Written.newline_notMem_text (h.hint hint hhint)
      simp [hname, hwritten]
  unfold Written.text
  split
  · exact hhead
  · next l hl =>
    have hwritten := Literal.newline_notMem_written l (h.default l hl).readable
    simp [hhead, hwritten]

/-- A parameter list stays on its line, if each of its parameters does. -/
theorem newline_notMem_parametersText (h : ∀ p ∈ ps, p.WellFormed) :
    '\n' ∉ parametersText ps := by
  induction ps with
  | nil => exact List.not_mem_nil
  | cons p ps ih =>
    have hp := newline_notMem_text (h p List.mem_cons_self)
    have hps := ih fun q hq => h q (List.mem_cons_of_mem _ hq)
    cases ps with
    | nil => exact hp
    | cons q ps => simp [parametersText, hp, hps]

/-- A head stays on its line, so a definition has its head on the first one. -/
theorem newline_notMem_headText (hname : isFunctionName name.toList = true)
    (h : ∀ p ∈ ps, p.WellFormed) : '\n' ∉ headText name ps := by
  have hword := Text.newline_notMem_word (isWordChar_of_mem_functionName hname)
  have hps := newline_notMem_parametersText h
  simp [headText, hword, hps]

/-- No colon and no bracket stands in a head before its parenthesis: the name of a function is a
word. -/
theorem scans_functionName (hname : isFunctionName name.toList = true) :
    Scans (fun d c => d = 0 → c ≠ ':') 0 (['d', 'e', 'f', ' '] ++ name.toList) := by
  refine ScanState.Scans.plain_append ?_ (ScanState.scans_plain ?_)
  · exact Text.forall_mem_of_all (by decide)
  · intro c hc
    have hword := isWordChar_of_mem_functionName hname c hc
    exact ⟨(Literal.isPlain_of_isWordChar hword).1, fun _ => Text.ne_of_kind hword rfl⟩

/-- A head goes on behind its parenthesis, from which `breakHead` has seen one. -/
theorem breakHead_open {s : ScanState} (hs : s.Rests 0) (seen : Bool) {r head behind : List Char}
    (h : breakHead true ⟨1, .code⟩ r = some (head, behind)) :
    breakHead seen s ('(' :: r) = some ('(' :: head, behind) := by
  have hseen : (seen || (s.isCode '(' && '(' == '(')) = true := by
    rw [hs.isCode_eq]
    exact Bool.or_true seen
  have hnext : s.next '(' = ⟨1, .code⟩ := hs.next_eq rfl
  have hcolon : ¬(true && s.isTop '(' && '(' == ':') = true := by simp
  rw [breakHead, hseen, hnext, h]
  exact if_neg hcolon

/-- A head ends behind its parameters: no colon in them is outside their parentheses. -/
theorem breakHead_parametersText (h : ∀ p ∈ ps, p.WellFormed) (behind : List Char) :
    breakHead true ⟨1, .code⟩ (parametersText ps ++ ')' :: ':' :: behind)
      = some (parametersText ps ++ [')'], behind) := by
  have hlist := scans_parametersText h 1
  have hinside : Visits (fun d c => d = 0 → c ≠ ':') ⟨1, .code⟩ (parametersText ps) := by
    refine hlist.visits.mono ?_
    intro d c hc hd
    have hdepth := hc.1
    omega
  have hclose : (ScanState.run ⟨1, .code⟩ (parametersText ps)).next ')' = ⟨0, .code⟩ :=
    hlist.rests.next_eq rfl
  obtain ⟨seen, hseen, hbreak⟩ := breakHead_append hinside true (')' :: ':' :: behind)
  have hend : breakHead seen (ScanState.run ⟨1, .code⟩ (parametersText ps)) (')' :: ':' :: behind)
      = some ([')'], behind) := by
    rw [hseen rfl, breakHead]
    dsimp only
    rw [if_neg (by simp), hclose]
    rfl
  rw [hbreak, hend]
  rfl

/-- **A head ends at the colon behind it**, whatever stands `behind` that colon. -/
theorem breakHead_headText (hname : isFunctionName name.toList = true)
    (h : ∀ p ∈ ps, p.WellFormed) (behind : List Char) :
    breakHead false .start (headText name ps ++ ':' :: behind)
      = some (headText name ps, behind) := by
  have hbefore := scans_functionName hname
  obtain ⟨seen, -, hdef⟩ := breakHead_append hbefore.visits false
    ('(' :: (parametersText ps ++ ')' :: ':' :: behind))
  have htext : headText name ps ++ ':' :: behind
      = ['d', 'e', 'f', ' '] ++ name.toList
        ++ '(' :: (parametersText ps ++ ')' :: ':' :: behind) := by
    simp [headText]
  rw [breakHead_open hbefore.rests seen (breakHead_parametersText h behind)] at hdef
  rw [htext]
  refine hdef.trans ?_
  simp [headText]

end Signature

namespace Function

open Signature (Written headText isFunctionName isReceiver)

variable {name : String} {ps : List Written} {indent : List Char}

/-- The source of a function whose body is one statement that does nothing, behind an `indent` and
with the given `ending`. -/
def definitionText (name : String) (ps : List Written) (indent ending : List Char) : List Char :=
  headText name ps ++ ':' :: '\n' :: (indent ++ "pass".toList ++ ending)

/-- An indentation: at least one blank or tab, and nothing else. -/
structure IsIndent (indent : List Char) : Prop where
  ne_nil : indent ≠ []
  blank : ∀ c ∈ indent, c = ' ' ∨ c = '\t'

/-- An indentation is blank, so it is in the margin of a body (`IsIndent`). -/
theorem IsIndent.isBlankLine (h : IsIndent indent) : isBlankLine indent = true := by
  refine List.all_eq_true.2 fun c hc => ?_
  rcases h.blank c hc with rfl | rfl
  · rfl
  · rfl

/-- An indentation stays on its line, as spaces and tabs are no line feeds (`IsIndent`). -/
theorem IsIndent.newline_notMem (h : IsIndent indent) : '\n' ∉ indent := by
  intro hc
  rcases h.blank _ hc with heq | heq
  · cases heq
  · cases heq

/-- The statement of the body stays on its line, behind its indentation (`IsIndent`). -/
theorem newline_notMem_body (h : IsIndent indent) : '\n' ∉ indent ++ "pass".toList := by
  rw [List.mem_append, not_or]
  exact ⟨h.newline_notMem, by decide⟩

/-- A definition has two lines, whether or not a line end stands behind the second one (`hending`).
-/
theorem lines_definitionText (hname : isFunctionName name.toList = true)
    (h : ∀ p ∈ ps, p.WellFormed) (hindent : IsIndent indent) {ending : List Char}
    (hending : ending = [] ∨ ending = ['\n']) :
    Text.lines (definitionText name ps indent ending)
      = [headText name ps ++ [':'], indent ++ "pass".toList] := by
  have hhead : '\n' ∉ headText name ps ++ [':'] := by
    have := Signature.newline_notMem_headText hname h
    simp [this]
  have hbody := newline_notMem_body hindent
  have hne : indent ++ "pass".toList ≠ [] := List.append_ne_nil_of_right_ne_nil _ (by decide)
  have hlast : Text.dropReturn (indent ++ "pass".toList) = indent ++ "pass".toList := by
    have hconcat := Text.dropReturn_concat (c := 's') (by decide) (indent ++ "pas".toList)
    rwa [List.append_assoc] at hconcat
  have htext : definitionText name ps indent ending
      = headText name ps ++ [':'] ++ '\n' :: (indent ++ "pass".toList ++ ending) := by
    rw [List.append_assoc]
    rfl
  rw [htext, Text.lines_cons hhead, Text.dropReturn_concat (by decide)]
  rcases hending with rfl | rfl
  · rw [List.append_nil, Text.lines_single hbody hne]
  · rw [Text.lines_cons hbody, hlast]
    rfl

/-- A line that is indented deeper than the definition is its body, without the indentation and with
a line end (`IsIndent`). -/
theorem body?_line (h : IsIndent indent) {s : List Char} (hs : Text.Trimmed s) (hne : s ≠ []) :
    Source.body? 0 [indent ++ s] = some (s ++ ['\n']) := by
  have hmargin := Text.leadingBlank_append h.isBlankLine hs.start
  have hline : isBlankLine (indent ++ s) = false := by
    obtain ⟨c, t, rfl⟩ := List.exists_cons_of_ne_nil hne
    have hc : isBlank c = false := hs.start c t rfl
    simp [isBlankLine, hc]
  have hinside : ∀ l ∈ Source.logicalLines ([] ++ [indent ++ s]), l.endsBody 0 = false := by
    intro l hl
    cases List.mem_singleton.1 hl
    have hpos := List.length_pos_iff.2 h.ne_nil
    rw [Source.Line.endsBody, Text.indentWidth, hmargin, decide_eq_false hpos.not_ge,
      Bool.and_false]
  have hdedent : Text.dedent [indent ++ s] = s ++ ['\n'] := by
    have hcommon : Text.margin [indent ++ s] = indent := by
      simp [Text.margin, hline, hmargin]
    rw [Text.dedent, List.flatMap_singleton, hcommon, Text.withoutMargin, hline,
      List.drop_left, hs.trimEnd_eq]
    rfl
  exact (Source.body?_of_inside hinside hline).trans (congrArg some hdedent)

/-- The statement of the body is indented deeper than the definition, so there is a body
(`IsIndent`). -/
theorem body?_pass (h : IsIndent indent) :
    ∃ body, Source.body? 0 [indent ++ "pass".toList] = some body :=
  ⟨_, body?_line h (Text.trimmed_of_forall (Text.forall_mem_of_all (by decide))) (by decide)⟩

/-- The definition starts on the first line, at its margin, so no line is before it. -/
theorem findDefinition?_headText (name : String) (ps : List Written) (rest : List (List Char)) :
    findDefinition? ((headText name ps ++ [':']) :: rest)
        = some (0, headText name ps ++ [':'], rest)
      ∧ Text.indentWidth (headText name ps ++ [':']) = 0 := by
  have hstops : Text.Stops isBlank (headText name ps ++ [':']) := Text.stops_cons rfl _
  have hdefinition : isDefinition (headText name ps ++ [':']) = true := by
    rw [isDefinition, Text.trimStart, hstops.dropWhile]
    rfl
  rw [findDefinition?, hdefinition, if_pos rfl, Text.indentWidth, Text.leadingBlank,
    hstops.takeWhile]
  exact ⟨rfl, rfl⟩

/-- **A written function is read back**, with its name and exactly its parameters in their order,
each as it was written (`Written.Declares`). What is asked for is what Python asks for: distinct
names, and here no first parameter that is the object of a method. -/
theorem read_definitionText (hname : isFunctionName name.toList = true)
    (h : ∀ p ∈ ps, p.WellFormed) (hdistinct : (ps.map (·.name)).Nodup)
    (hfirst : ∀ p, ps.head? = some p → isReceiver p.name.toList = false)
    (hindent : IsIndent indent) {ending : List Char} (hending : ending = [] ∨ ending = ['\n']) :
    ∃ f, read (String.ofList (definitionText name ps indent ending)) = .ok f ∧ f.name = name
      ∧ List.Forall₂ Written.Declares ps f.parameters := by
  obtain ⟨ds, hsignature, hall⟩ := Signature.ofHead_headText hname h hdistinct hfirst
  obtain ⟨body, hbody⟩ := body?_pass hindent
  obtain ⟨hfind, hmargin⟩ :=
    findDefinition?_headText name ps [indent ++ "pass".toList]
  have hbreaks := Text.countBreaks_eq_zero (Signature.newline_notMem_headText hname h)
  have hjoin : Text.joinLines [headText name ps ++ [':'], indent ++ "pass".toList]
      = headText name ps ++ ':' :: '\n' :: (indent ++ "pass".toList) := by
    simp [Text.joinLines, List.intercalate]
  rw [read, String.toList_ofList, lines_definitionText hname h hindent hending, ofLines, hfind]
  dsimp only
  rw [hjoin, Signature.breakHead_headText hname h]
  dsimp only
  rw [if_pos (by rfl), hmargin, ofParts, hsignature]
  dsimp only
  rw [hbreaks]
  dsimp only [List.drop]
  rw [hbody]
  exact ⟨_, rfl, rfl, hall⟩

/-- Parameters with every kind of hint and default, whose texts hold quotes, brackets and
separators. -/
def greetParameters : List Written := [
  ⟨"name", some (.name "str".toList), some (.string "it's \"a, b\": (x=1) # no\n")⟩,
  ⟨"mode", some (.choices ["a|b", "']", ""]), some .nothing⟩,
  ⟨"größe", none, some (.dict [(.string "k:", .list [.integer (-2), .boolean true])])⟩,
  ⟨"last", some (.name "pkg.Type".toList), none⟩]

/-- The parameters are well-formed: their names are words, and their texts can be written. -/
theorem wellFormed_greetParameters : ∀ p ∈ greetParameters, p.WellFormed := by
  intro p hp
  simp only [greetParameters, List.mem_cons, List.not_mem_nil, or_false] at hp
  rcases hp with rfl | rfl | rfl | rfl
  · refine ⟨by decide, Text.forall_mem_of_all (by decide), ?_, ?_⟩
    · rintro _ ⟨⟩
      exact ⟨by decide, Text.forall_mem_of_all (by decide)⟩
    · rintro _ ⟨⟩
      trivial
  · refine ⟨by decide, Text.forall_mem_of_all (by decide), ?_, ?_⟩
    · rintro _ ⟨⟩
      trivial
    · rintro _ ⟨⟩
      trivial
  · refine ⟨by decide, Text.forall_mem_of_all (by decide +kernel), nofun, ?_⟩
    rintro _ ⟨⟩
    have hinteger : (-2 : Int64) ≠ Int64.minValue := by decide
    exact ⟨⟨_, rfl⟩, ⟨hinteger, trivial, trivial⟩, trivial⟩
  · refine ⟨by decide, Text.forall_mem_of_all (by decide), ?_, nofun⟩
    rintro _ ⟨⟩
    exact ⟨by decide, Text.forall_mem_of_all (by decide)⟩

/-- A function with these parameters is read back, in the order in which they are written. -/
theorem greet_reads :
    ∃ f, read (String.ofList (definitionText "greet" greetParameters [' ', '\t'] ['\n'])) = .ok f
      ∧ f.name = "greet" ∧ List.Forall₂ Written.Declares greetParameters f.parameters :=
  read_definitionText rfl wellFormed_greetParameters (by decide)
    (by rintro _ ⟨⟩; decide) ⟨by decide, Text.forall_mem_of_all (by decide)⟩ (.inr rfl)

end Function

end WorkflowTemplates
