import WorkflowTemplates.Proofs.Source.Indented

/-!
# Bodies behind a head

Behind the lines up to the end of its head a source goes on with the body of the function. What
stands behind the body, if anything does, are lines that start outside of it (`Source.ClosesBody`);
blank lines may come first (`Source.ClosesBody.exists_gap`). Then the function is what the head and
the lines of the body say (`Function.Layout.read_eq`). A head without parameters may be indented and
may stand behind any lines on which no definition starts (`Function.exists_layout_nullary`).
-/

namespace WorkflowTemplates

open Source (EndsLine ScanState StartsOutside body? isBlankOrComment)
open Text (dropReturn ended indentWidth isBlank isBlankLine joinLines)

namespace Source

variable {indent : Nat} {line last ending : List Char} {gap more : List (List Char)}

/-- What may stand behind the last line of a body, behind a definition that is indented so deep:
nothing, or a line feed and lines that start outside the body (`StartsOutside`). -/
def ClosesBody (indent : Nat) (ending : List Char) : Prop :=
  ending = [] ∨ ∃ further, ending = '\n' :: further ∧ StartsOutside indent (Text.lines further)

/-- Blank lines in front of lines that start outside a body make no difference: it is the first line
with a text that counts (`StartsOutside`). -/
theorem StartsOutside.append (h : StartsOutside indent more)
    (hgap : ∀ l ∈ gap, isBlankLine l = true) : StartsOutside indent (gap ++ more) := by
  intro l hl
  have hnone : gap.find? (!isBlankLine ·) = none :=
    List.find?_eq_none.2 fun l hl => by simp [hgap l hl]
  rw [List.find?_append, hnone, Option.none_or] at hl
  exact h l hl

/-- The last line of a body is a line of the source, and lines outside the body follow it, or none
do (`StartsOutside`). -/
theorem ClosesBody.exists_lines (h : ClosesBody indent ending) (hfree : '\n' ∉ last)
    (hne : last ≠ []) (hreturn : dropReturn last = last) :
    ∃ more, Text.lines (last ++ ending) = last :: more ∧ StartsOutside indent more := by
  rcases h with rfl | ⟨further, rfl, hfurther⟩
  · refine ⟨[], ?_, fun l hl => by cases hl⟩
    rw [List.append_nil, Text.lines_single hfree hne]
  · exact ⟨Text.lines further, by rw [Text.lines_cons hfree, hreturn], hfurther⟩

/-- Blank lines, and what closes a body (`ClosesBody`), are lines that start outside it. -/
theorem ClosesBody.startsOutside_gap (h : ClosesBody indent ending) (hne : gap ≠ [])
    (hgap : ∀ l ∈ gap, isBlankLine l = true ∧ '\n' ∉ l) :
    StartsOutside indent (Text.lines (joinLines gap ++ ending)) := by
  rcases List.eq_nil_or_concat gap with rfl | ⟨init, last, rfl⟩
  · exact absurd rfl hne
  rw [List.concat_eq_append] at hgap ⊢
  obtain ⟨hinit, hlast⟩ := List.forall_mem_append.1 hgap
  obtain ⟨hblank, hfree⟩ := hlast last List.mem_cons_self
  have hreturns : ∀ l ∈ init.map dropReturn, isBlankLine l = true :=
    List.forall_mem_map.2 fun l hl => (Text.isBlankLine_dropReturn l).trans (hinit l hl).1
  rw [Text.joinLines_append (List.cons_ne_nil last []), Text.joinLines_singleton,
    List.append_assoc, Text.lines_ended_append fun l hl => (hinit l hl).2]
  refine .append ?_ hreturns
  rcases h with rfl | ⟨further, rfl, hfurther⟩
  · -- An empty last line is none.
    rw [List.append_nil]
    rcases eq_or_ne last [] with rfl | hlast
    · exact fun l hl => by cases hl
    · rw [Text.lines_single hfree hlast]
      exact .append (fun l hl => by cases hl) (List.forall_mem_singleton.2 hblank)
  · rw [Text.lines_cons hfree]
    exact .append hfurther
      (List.forall_mem_singleton.2 ((Text.isBlankLine_dropReturn last).trans hblank))

/-- Blank lines behind a body belong to what closes it, so the body may be taken to end with a text
(`ClosesBody`). -/
theorem ClosesBody.exists_gap (h : ClosesBody indent ending)
    (hgap : ∀ l ∈ gap, isBlankLine l = true ∧ '\n' ∉ l) :
    ∃ ending', ClosesBody indent ending' ∧ ∀ ls last,
      joinLines (ls ++ last :: gap) ++ ending = joinLines (ls ++ [last]) ++ ending' := by
  cases gap with
  | nil => exact ⟨ending, h, fun _ _ => rfl⟩
  | cons line gap =>
    have houtside := h.startsOutside_gap (List.cons_ne_nil line gap) hgap
    refine ⟨'\n' :: (joinLines (line :: gap) ++ ending), .inr ⟨_, rfl, houtside⟩, ?_⟩
    intro ls last
    rw [List.append_cons, Text.joinLines_append (List.cons_ne_nil line gap),
      Text.joinLines_append (List.cons_ne_nil last []), Text.joinLines_singleton]
    simp [ended]

end Source

namespace Function

open Signature (headText isFunctionName)

variable {head ls above : List (List Char)} {last ending body : List Char} {name : String}

/-- **The function of a head and a body.** Behind lines up to the end of a head (`Layout`) there are
the lines of a body; the last one is not empty and ends a logical line, and what stands behind it
closes the body (`ClosesBody`). Carriage returns at line ends do not belong to the lines. -/
theorem Layout.read_eq (l : Layout (head.map dropReturn)) (hhead : l.lines = [])
    (hfree : ∀ line ∈ head ++ ls ++ [last], '\n' ∉ line) (hne : last ≠ [])
    (hreturn : dropReturn last = last)
    (hbody : body? (indentWidth l.first) (ls.map dropReturn ++ [last]) = some body)
    (hends : EndsLine (ScanState.start.run (ended (ls.map dropReturn))) last)
    (hending : Source.ClosesBody (indentWidth l.first) ending) :
    read (String.ofList (joinLines (head ++ ls ++ [last]) ++ ending))
      = .ok (ofBody l.signature body) := by
  have hlast : '\n' ∉ last := hfree last (by simp)
  have hfree' : ∀ line ∈ head ++ ls, '\n' ∉ line := fun line hl =>
    hfree line (List.mem_append_left _ hl)
  obtain ⟨more, hlines, hmore⟩ := hending.exists_lines hlast hne hreturn
  have hsource : Text.lines (joinLines (head ++ ls ++ [last]) ++ ending)
      = head.map dropReturn ++ (ls.map dropReturn ++ last :: more) := by
    rw [Text.joinLines_append (List.cons_ne_nil last []), Text.joinLines_singleton,
      List.append_assoc, Text.lines_ended_append hfree', hlines, List.map_append, List.append_assoc]
  rw [read, String.toList_ofList, hsource]
  refine (l.ofLines_eq_ok_iff ?_).2 ⟨body, ?_, rfl⟩
  · exact List.append_ne_nil_of_right_ne_nil _ (List.cons_ne_nil last more)
  · rw [hhead, List.nil_append, Source.body?_append rfl hends hmore, hbody]

/-! ## Heads without parameters -/

/-- Behind lines on which no definition starts a definition is the first one (`findDefinition?`). -/
theorem findDefinition?_above {first : List Char}
    (habove : ∀ line ∈ above, isDefinition line = false) (hfirst : isDefinition first = true)
    (rest : List (List Char)) :
    findDefinition? (above ++ first :: rest) = some (above.length, first, rest) := by
  induction above with
  | nil => exact if_pos hfirst
  | cons line above ih =>
    have hline : ¬isDefinition line = true := by simp [habove line List.mem_cons_self]
    rw [List.cons_append, findDefinition?, if_neg hline,
      ih fun l hl => habove l (List.mem_cons_of_mem _ hl)]
    rfl

/-- A definition that starts on a line without its carriage return starts on the line. -/
theorem isDefinition_of_dropReturn {line : List Char} (h : isDefinition (dropReturn line) = true) :
    isDefinition line = true := by
  unfold dropReturn at h
  split at h
  · next hreturn =>
    obtain ⟨init, rfl⟩ := List.getLast?_eq_some_iff.1 hreturn
    rw [List.dropLast_concat] at h
    exact isDefinition_append h ['\r']
  · exact h

/-- The line of a definition without parameters, indented by so many blanks and with nothing behind
its colon. -/
def nullaryLine (indent : Nat) (name : String) : List Char :=
  List.replicate indent ' ' ++ headText name [] ++ [':']

/-- A definition starts on the line, and it is indented by as many blanks as are put in front of it.
-/
theorem isDefinition_nullaryLine (indent : Nat) (name : String) :
    isDefinition (nullaryLine indent name) = true
      ∧ indentWidth (nullaryLine indent name) = indent := by
  have hstops : Text.Stops isBlank (headText name [] ++ [':']) := Text.stops_cons rfl _
  have hblanks : ∀ c ∈ List.replicate indent ' ', isBlank c = true := fun c hc =>
    Text.isBlank_of_mem_replicate hc
  rw [nullaryLine, List.append_assoc, isDefinition, Text.trimStart, hstops.dropWhile_run hblanks,
    indentWidth, Text.leadingBlank, hstops.takeWhile_run hblanks, List.length_replicate]
  exact ⟨rfl, rfl⟩

/-- The line of a definition stays on its line: the name of a function has no line feed. -/
theorem newline_notMem_nullaryLine (hname : isFunctionName name.toList = true) (indent : Nat) :
    '\n' ∉ nullaryLine indent name := by
  have hhead := Signature.newline_notMem_headText hname (List.forall_mem_nil _)
  simp [nullaryLine, hhead]

/-- **A definition without parameters is a head on one line** (`Layout`), behind any lines on which
no definition starts. -/
theorem exists_layout_nullary (hname : isFunctionName name.toList = true)
    (habove : ∀ line ∈ above, isDefinition line = false) (indent : Nat) :
    ∃ l : Layout ((above ++ [nullaryLine indent name]).map dropReturn), l.lines = []
      ∧ indentWidth l.first = indent ∧ l.signature = ⟨name, []⟩ := by
  have hreturn : dropReturn (nullaryLine indent name) = nullaryLine indent name :=
    Text.dropReturn_concat (by decide) _
  have habove' : ∀ line ∈ above.map dropReturn, isDefinition line = false :=
    List.forall_mem_map.2 fun line hl => Bool.eq_false_iff.2 fun h =>
      Bool.false_ne_true ((habove line hl).symm.trans (isDefinition_of_dropReturn h))
  rw [List.map_append, List.map_singleton, hreturn]
  let head := List.replicate indent ' ' ++ headText name []
  have hnone : ∀ p ∈ ([] : List Signature.Written), p.WellFormed := List.forall_mem_nil _
  obtain ⟨hdefinition, hindent⟩ := isDefinition_nullaryLine indent name
  have hfree := newline_notMem_nullaryLine hname indent
  -- The head is indented, but the blanks in front of it are neither read nor scanned.
  have hbreaks (other : List Char) :
      Signature.breakHead false .start (head ++ ':' :: other) = some (head, other) := by
    rw [List.append_assoc, Signature.breakHead_replicate, Signature.breakHead_headText hname hnone]
    rfl
  have hsignature : Signature.ofHead head = .ok ⟨name, []⟩ := by
    obtain ⟨ds, hds, hall⟩ := Signature.ofHead_headText hname hnone List.nodup_nil
      fun p hp => by cases hp
    cases hall
    rw [Signature.ofHead_replicate, hds]
  have hcount : Text.countBreaks head = 0 := by
    refine List.count_eq_zero.2 fun hm => hfree ?_
    exact List.mem_append_left _ hm
  refine ⟨{
    before := (above.map dropReturn).length
    first := nullaryLine indent name
    rest := []
    found := findDefinition?_above habove' hdefinition []
    free := List.forall_mem_singleton.2 hfree
    head
    line := []
    behind := []
    text := by simp [ended, head, nullaryLine]
    breaks := hbreaks
    isTop := (Signature.breakHead_eq_some (hbreaks [])).2.1
    newline := List.not_mem_nil
    blank := rfl
    signature := ⟨name, []⟩
    signature_eq := hsignature }, ?_, hindent, rfl⟩
  rw [Layout.lines, hcount]
  rfl

end Function

end WorkflowTemplates
