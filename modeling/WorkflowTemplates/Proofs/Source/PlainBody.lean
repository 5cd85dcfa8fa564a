import WorkflowTemplates.Proofs.Source.HeadLines

/-!
# Bodies of plain lines

Lines without strings, brackets, comments and backslashes each end a logical line
(`Source.endsLine_plain`), so only their indentation tells where a body ends. Behind a head without
parameters the body is then the block of deeper lines: the blank lines at its end are dropped and
what closes the body is not looked at (`Function.read_blockText`).
-/

namespace WorkflowTemplates

open Source (ClosesBody EndsLine ScanState body?)
open Text (BlockLine dropReturn ended indentWidth isBlankLine joinLines)

namespace Source

variable {line : List Char} {ls : List (List Char)} {block : List BlockLine}

/-- A text of characters that neither open nor close anything (`isPlain`), and without backslashes.
-/
def PlainText (text : List Char) : Prop :=
  ∀ c ∈ text, ScanState.isPlain c = true ∧ c ≠ '\\'

/-- The texts of a block are plain (`PlainText`), whatever their indentation. -/
def PlainBlock (block : List BlockLine) : Prop :=
  ∀ extra s, BlockLine.text extra s ∈ block → PlainText s

/-- Behind plain lines a plain line ends a logical one (`EndsLine`): none of them opens anything or
is continued. -/
theorem endsLine_plain (hls : ∀ l ∈ ls, PlainText l) (hline : PlainText line) :
    EndsLine (ScanState.start.run (ended ls)) line := by
  have hended : ∀ c ∈ ended ls, ScanState.isPlain c = true := by
    intro c hc
    obtain ⟨l, hl, hc⟩ := List.mem_flatMap.1 hc
    rcases List.mem_append.1 hc with hc | hc
    · exact (hls l hl c hc).1
    · rw [List.mem_singleton.1 hc]
      decide
  refine ⟨?_, fun hlast => (hline _ (List.mem_of_getLast? hlast)).2 rfl⟩
  rw [run_plain hended, run_plain fun c hc => (hline c hc).1]
  rfl

/-- Blanks are plain, so blank lines are plain texts (`PlainText`). -/
theorem plainText_blank (h : isBlankLine line = true) : PlainText line := by
  intro c hc
  have hblank := List.all_eq_true.1 h c hc
  refine ⟨isPlain_of_isBlank hblank, ?_⟩
  rintro rfl
  exact Bool.false_ne_true hblank

/-- The lines of a block are plain if its texts are, for any indentation `base`. -/
theorem PlainBlock.plainText_line (h : PlainBlock block) (hblock : ∀ l ∈ block, l.WellFormed)
    (base : Nat) : ∀ line ∈ block.map (BlockLine.line base), PlainText line := by
  refine List.forall_mem_map.2 fun l hl => ?_
  cases l with
  | blank w => exact plainText_blank (hblock _ hl).1
  | text extra s =>
    intro c hc
    rcases List.mem_append.1 hc with hc | hc
    · rw [(List.mem_replicate.1 hc).2]
      decide
    · exact h extra s hl c hc

/-- Without their carriage returns (`BlockLine.chomped`) the texts of a block are plain, too. -/
theorem PlainBlock.chomped (h : PlainBlock block) : PlainBlock (block.map BlockLine.chomped) := by
  intro extra s hs
  obtain ⟨l, hl, heq⟩ := List.mem_map.1 hs
  cases l with
  | blank w => cases heq
  | text extra' s' =>
    cases heq
    exact h _ _ hl

end Source

namespace Function

open Signature (isFunctionName)
open Source (PlainBlock)

variable {above head : List (List Char)} {indent base : Nat} {name : String}
  {block core : List BlockLine} {ending : List Char}

/-- **The function of a head and a block.** Behind lines up to the end of a head there is a block of
plain lines (`PlainBlock`) that is indented deeper than the definition and ends with a text. What
closes the body may be any text (`ClosesBody`). -/
theorem Layout.read_block (l : Layout (head.map dropReturn)) (hhead : l.lines = [])
    (hfree : ∀ line ∈ head, '\n' ∉ line) (hbase : indentWidth l.first < base)
    (hblock : ∀ l ∈ block, l.WellFormed) (hplain : PlainBlock block) {extra : Nat} {s : List Char}
    (hend : block = core ++ [BlockLine.text extra s])
    (hending : ClosesBody (indentWidth l.first) ending) :
    read (String.ofList (joinLines (head ++ block.map (BlockLine.line base)) ++ ending))
      = .ok (ofBody l.signature (ended (block.map (BlockLine.shown (BlockLine.least block))))) := by
  let last := BlockLine.text extra s
  have hwellFormed : ∀ l ∈ block.map BlockLine.chomped, l.WellFormed :=
    List.forall_mem_map.2 fun l hl => (hblock l hl).chomped
  have hshown : (block.map BlockLine.chomped).map (BlockLine.shown (BlockLine.least block))
      = block.map (BlockLine.shown (BlockLine.least block)) := by
    rw [List.map_map]
    exact List.map_congr_left fun l _ => BlockLine.shown_chomped _ l
  have hleast : BlockLine.least (block.map BlockLine.chomped) = BlockLine.least block :=
    BlockLine.least_map BlockLine.extra?_chomped block
  have hplain' := hplain.chomped.plainText_line hwellFormed base
  -- The lines as they are read end with the same text.
  have hchomped : block.map BlockLine.chomped = core.map BlockLine.chomped ++ [last] := by
    rw [hend, List.map_append]
    rfl
  rw [hchomped, List.map_append, List.map_singleton, List.forall_mem_append] at hplain'
  have hlast : last.WellFormed := hblock last (by simp [hend, last])
  have hbody : body? (indentWidth l.first) ((block.map BlockLine.chomped).map (BlockLine.line base))
      = some (ended (block.map (BlockLine.shown (BlockLine.least block)))) := by
    rw [← hshown, ← hleast, hchomped]
    exact Source.body?_block (hchomped ▸ hwellFormed) hbase
  have hlines : block.map (BlockLine.line base)
      = core.map (BlockLine.line base) ++ [last.line base] := by
    rw [hend, List.map_append, List.map_singleton]
  have hreturns : (core.map (BlockLine.line base)).map dropReturn
      = (core.map BlockLine.chomped).map (BlockLine.line base) :=
    BlockLine.map_dropReturn_block (fun l hl => hblock l (by simp [hend, hl])) base
  have hlinesFree : ∀ line ∈ block.map (BlockLine.line base), '\n' ∉ line :=
    List.forall_mem_map.2 fun l hl => BlockLine.newline_notMem_line (hblock l hl) base
  rw [hlines] at hlinesFree ⊢
  rw [← List.append_assoc]
  refine l.read_eq hhead ?_ ?_ (BlockLine.dropReturn_line hlast base) ?_ ?_ hending
  · rw [List.append_assoc]
    exact List.forall_mem_append.2 ⟨hfree, hlinesFree⟩
  · exact List.append_ne_nil_of_right_ne_nil _ hlast.1
  · rw [← hbody, hchomped, List.map_append, List.map_singleton, hreturns]
  · rw [hreturns]
    exact Source.endsLine_plain hplain'.1 (hplain'.2 _ List.mem_cons_self)

/-- A source with lines above the definition of a function without parameters, with a block of lines
behind it, and with what ends the source: all that is needed to tell the body. -/
def blockText (above : List (List Char)) (indent : Nat) (name : String) (base : Nat)
    (block : List BlockLine) (ending : List Char) : List Char :=
  joinLines (above ++ [nullaryLine indent name] ++ block.map (BlockLine.line base)) ++ ending

/-- **The body of a function is the block of deeper lines behind its definition.** The lines above
the definition may be any without a definition. The block is indented deeper than the definition;
its lines are blank or plain, and one of them has no further blanks. What closes the body may be any
text. Then the body is the block up to its last line that is not blank, without the indentation of
the block; blank lines are empty in it. -/
theorem read_blockText (hname : isFunctionName name.toList = true)
    (habove : ∀ line ∈ above, '\n' ∉ line ∧ isDefinition line = false) (hbase : indent < base)
    (hblock : ∀ l ∈ block, l.WellFormed) (hplain : PlainBlock block)
    (hflush : ∃ s, BlockLine.text 0 s ∈ block) (hending : ClosesBody indent ending) :
    ∃ f, read (String.ofList (blockText above indent name base block ending)) = .ok f
      ∧ f.name = name ∧ f.parameters = []
      ∧ f.body = String.ofList
          (ended ((block.rdropWhile BlockLine.isGap).map (BlockLine.shown 0))) := by
  obtain ⟨s, hs⟩ := hflush
  obtain ⟨core, extra, t, gap, hdrop, rfl, hgap⟩ := BlockLine.exists_rdropWhile hs
  let head := above ++ [nullaryLine indent name]
  -- The blank lines at the end of the block belong to what closes the body.
  have hgaps : ∀ line ∈ gap.map (BlockLine.line base), isBlankLine line = true ∧ '\n' ∉ line := by
    refine List.forall_mem_map.2 fun l hl => ?_
    have hline := hblock l (by simp [hl])
    cases l with
    | blank w => exact hline
    | text extra s => cases hgap _ hl
  obtain ⟨ending', hending', hjoin⟩ := hending.exists_gap hgaps
  let body := core ++ [BlockLine.text extra t]
  have htext : blockText above indent name base (core ++ BlockLine.text extra t :: gap) ending
      = joinLines (head ++ body.map (BlockLine.line base)) ++ ending' := by
    rw [blockText, List.map_append, List.map_cons, ← List.append_assoc, hjoin, List.map_append,
      List.map_singleton, ← List.append_assoc]
  obtain ⟨l, hlines, hindent, hsignature⟩ :=
    exists_layout_nullary hname (fun line hl => (habove line hl).2) indent
  have hfree : ∀ line ∈ head, '\n' ∉ line :=
    List.forall_mem_append.2 ⟨fun line hl => (habove line hl).1,
      List.forall_mem_singleton.2 (newline_notMem_nullaryLine hname indent)⟩
  have hsub : body ⊆ core ++ BlockLine.text extra t :: gap := by
    rw [List.append_cons]
    exact List.subset_append_left body gap
  have hread := l.read_block hlines hfree (hindent ▸ hbase) (fun l hl => hblock l (hsub hl))
    (fun extra s hs => hplain extra s (hsub hs)) rfl (hindent ▸ hending')
  -- The line without further blanks is no blank one, so it is still there.
  have hflush : BlockLine.text 0 s ∈ body := by
    rw [List.append_cons] at hs
    exact (List.mem_append.1 hs).resolve_right fun hs => by cases hgap _ hs
  rw [BlockLine.least_eq_zero hflush, hsignature, ← htext] at hread
  exact ⟨_, hread, rfl, rfl, by rw [hdrop]; rfl⟩

/-- Lines with blank ones between and behind them. -/
def stepsBlock : List BlockLine := [
  .blank "".toList,
  .text 0 "if ready:".toList,
  .blank "   \r".toList,
  .text 4 "done = 1".toList,
  .text 0 "pass".toList,
  .blank "\t".toList]

/-- An open bracket above the definition and another definition behind the body do not matter. -/
theorem stepsBlock_read :
    ∃ f, read (String.ofList (blockText ["items = [".toList, "@task\r".toList] 2 "run" 5 stepsBlock
        "\n  @task\n  def next():\n     go\n".toList)) = .ok f
      ∧ f.name = "run" ∧ f.parameters = [] ∧ f.body = "\nif ready:\n\n    done = 1\npass\n" := by
  have hrun : isFunctionName "run".toList = true := by decide
  have hdeeper : 2 < 5 := by decide
  have habove : ∀ line ∈ ["items = [".toList, "@task\r".toList],
      '\n' ∉ line ∧ isDefinition line = false := by decide
  have hwellFormed : ∀ l ∈ stepsBlock, l.WellFormed := by
    intro l hl
    simp only [stepsBlock, List.mem_cons, List.not_mem_nil, or_false] at hl
    rcases hl with rfl | rfl | rfl | rfl | rfl | rfl
    · exact ⟨by decide, by decide⟩
    · exact ⟨by decide, Text.trimmed_of_ends (by decide) (by decide), by decide⟩
    · exact ⟨by decide, by decide⟩
    · exact ⟨by decide, Text.trimmed_of_ends (by decide) (by decide), by decide⟩
    · exact ⟨by decide, Text.trimmed_of_ends (by decide) (by decide), by decide⟩
    · exact ⟨by decide, by decide⟩
  have hplain : PlainBlock stepsBlock := by
    intro extra s hs
    simp only [stepsBlock, List.mem_cons, List.not_mem_nil, or_false, BlockLine.text.injEq,
      reduceCtorEq, false_or] at hs
    rcases hs with ⟨-, rfl⟩ | ⟨-, rfl⟩ | ⟨-, rfl⟩ <;> exact Text.forall_mem_of_all (by decide)
  have hflush : ∃ s, BlockLine.text 0 s ∈ stepsBlock :=
    ⟨"pass".toList, by simp [stepsBlock]⟩
  have hending : ClosesBody 2 "\n  @task\n  def next():\n     go\n".toList := by
    refine .inr ⟨_, rfl, fun line hline => ?_⟩
    have hfound : (Text.lines "  @task\n  def next():\n     go\n".toList).find? (!isBlankLine ·)
        = some "  @task".toList := by decide +kernel
    cases hfound.symm.trans hline
    exact ⟨by decide, by decide⟩
  obtain ⟨f, hread, hname, hparameters, hbody⟩ :=
    read_blockText hrun habove hdeeper hwellFormed hplain hflush hending
  exact ⟨f, hread, hname, hparameters, hbody.trans (by decide +kernel)⟩

end Function

end WorkflowTemplates
