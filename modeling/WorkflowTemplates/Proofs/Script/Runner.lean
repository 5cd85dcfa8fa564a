import WorkflowTemplates.Proofs.Text.Lines
import WorkflowTemplates.Proofs.Text.Margin
import WorkflowTemplates.Script.Source

/-!
# What the runner writes

The runner hands its script over in a heredoc, whose lines go on until one of them is the delimiter
(`heredoc?`). Whatever is trimmed off the end of the runner is shell that stands behind the
delimiter (`toList_runner`), so the script is there with all of its lines. It arrives as it is
exactly if none of them is the delimiter, and then the shell behind it is the one that was asked for
(`runner_hands_over`).
-/

namespace WorkflowTemplates

open Text (joinLines trimEnd isBlankLine)

/-- The lines of a heredoc, as a shell reads them: up to the first that is the delimiter, and the
lines behind that one. A heredoc that never ends is `none`. -/
def heredoc? (delimiter : List Char) :
    List (List Char) → Option (List (List Char) × List (List Char))
  | [] => none
  | line :: rest =>
    if line = delimiter then some ([], rest)
    else (heredoc? delimiter rest).map fun (body, behind) => (line :: body, behind)

namespace Runner

variable {delimiter : List Char} {body behind : List (List Char)} {s : ScriptSettings}

/-- The line that opens the heredoc. The delimiter stands bare in it, so that the shell reads up to
a line that is `heredocDelimiter`. -/
def opening (s : ScriptSettings) : List Char :=
  ("cat > " ++ s.runnerPath ++ " << " ++ s.heredocDelimiter).toList

/-- The shell behind the heredoc: a failure ends it (`set -e`), and the script runs between the
shell before it and the shell after it. -/
def shell (runtime preRun postRun : String) (s : ScriptSettings) : List Char :=
  joinLines [[], "set -e".toList, [], preRun.toList, (runtime ++ " " ++ s.runnerPath).toList,
    postRun.toList]

/-! ## Heredocs -/

/-- A heredoc ends at the first line that is its delimiter, whatever lines stand `behind` it. -/
theorem heredoc?_append (h : delimiter ∉ body) :
    heredoc? delimiter (body ++ delimiter :: behind) = some (body, behind) := by
  induction body with
  | nil => rw [List.nil_append, heredoc?, if_pos rfl]
  | cons line body ih =>
    rw [List.mem_cons, not_or] at h
    rw [List.cons_append, heredoc?, if_neg (Ne.symm h.1), ih h.2]
    rfl

/-- The lines before one of the lines of a text are not the whole text, if that line is not empty:
they are shorter. -/
theorem joinLines_ne_of_split {source line : List Char} (hline : line ≠ [])
    (h : source.splitOn '\n' = body ++ line :: behind) : joinLines body ≠ source := by
  have hsource : joinLines (source.splitOn '\n') = source := List.intercalate_splitOn '\n'
  rintro rfl
  rcases eq_or_ne body [] with rfl | hbody
  · -- No lines and one empty line are the same text, so an empty delimiter would be an exception.
    rw [List.nil_append, show joinLines [] = [] from rfl, List.splitOn_nil] at h
    exact hline (List.cons.inj h).1.symm
  · have hfree : ∀ l ∈ body, '\n' ∉ l := fun l hl =>
      Text.notMem_of_mem_splitOn (h ▸ List.mem_append_left _ hl)
    rw [joinLines, List.splitOn_intercalate '\n' hfree hbody] at h
    have hlength := congrArg List.length h
    simp at hlength

/-- A text and the lines behind a delimiter: the heredoc has an end, and it hands over the text
exactly if no line of the text is the delimiter. Otherwise it ends too early, at the first such
line. -/
theorem exists_heredoc (hne : delimiter ≠ []) (source : List Char) (behind : List (List Char)) :
    ∃ body behind', heredoc? delimiter (source.splitOn '\n' ++ delimiter :: behind)
        = some (body, behind')
      ∧ (joinLines body = source ↔ delimiter ∉ source.splitOn '\n')
      ∧ (delimiter ∉ source.splitOn '\n' → behind' = behind) := by
  by_cases hmem : delimiter ∈ source.splitOn '\n'
  · obtain ⟨before, after, hsplit, hbefore⟩ := List.eq_append_cons_of_mem hmem
    refine ⟨before, after ++ delimiter :: behind, ?_, ?_, fun h => absurd hmem h⟩
    · rw [hsplit, List.append_assoc, List.cons_append, heredoc?_append hbefore]
    · exact iff_of_false (joinLines_ne_of_split hne hsplit) (not_not_intro hmem)
  · exact ⟨_, _, heredoc?_append hmem, iff_of_true (List.intercalate_splitOn '\n') hmem,
      fun _ => rfl⟩

/-! ## The text of the runner -/

/-- The shell behind the heredoc is never blank, since `set -e` stands in it whatever runs before
and after the script. -/
theorem isBlankLine_shell (runtime preRun postRun : String) (s : ScriptSettings) :
    isBlankLine (shell runtime preRun postRun s) = false := by
  refine List.all_eq_false.2 ⟨'s', ?_, by decide⟩
  simp [shell, joinLines, List.intercalate]

/-- Nothing is trimmed off the runner before the shell behind the heredoc: `trimEnd` stops in that
shell, which is not blank. -/
theorem toList_runner (source runtime preRun postRun : String) (s : ScriptSettings) :
    (runner source runtime preRun postRun s).toList
      = opening s ++ '\n' :: (source.toList ++ '\n' :: (s.heredocDelimiter.toList
        ++ '\n' :: trimEnd (shell runtime preRun postRun s))) := by
  let written := opening s ++ '\n' :: (source.toList ++ '\n' :: (s.heredocDelimiter.toList ++ ['\n']))
  have hstart (t : List Char) : Text.trimStart (written ++ t) = written ++ t := by
    have hwritten : written = 'c' :: written.tail := by
      simp [written, opening]
    rw [hwritten]
    exact (Text.stops_cons (by decide) (written.tail ++ t)).dropWhile
  have htext : (runner source runtime preRun postRun s).toList
      = Text.trim (written ++ shell runtime preRun postRun s) := by
    unfold runner
    rw [String.toList_ofList]
    refine congrArg Text.trim ?_
    simp [written, opening, shell, joinLines, List.intercalate]
  rw [htext, Text.trim, hstart,
    Text.trimEnd_append_of_not_blank (isBlankLine_shell runtime preRun postRun s)]
  simp [written]

/-- **The runner hands its script over.** The first line of the runner opens a heredoc that has an
end. All lines of the script are in it, the blank ones at the start and at the end included, and it
is handed over as it is exactly if none of its lines is the delimiter. In that case the lines behind
the heredoc are, up to blanks at the end, the shell that stops at failures and runs the script
between the other shell. -/
theorem runner_hands_over (source runtime preRun postRun : String)
    (hpath : '\n' ∉ s.runnerPath.toList) (hdelimiter : '\n' ∉ s.heredocDelimiter.toList)
    (hne : s.heredocDelimiter ≠ "") :
    ∃ rest body behind,
      (runner source runtime preRun postRun s).toList.splitOn '\n' = opening s :: rest
        ∧ source.toList.splitOn '\n' <+: rest
        ∧ heredoc? s.heredocDelimiter.toList rest = some (body, behind)
        ∧ (joinLines body = source.toList
          ↔ s.heredocDelimiter.toList ∉ source.toList.splitOn '\n')
        ∧ (s.heredocDelimiter.toList ∉ source.toList.splitOn '\n' →
          joinLines behind = trimEnd (shell runtime preRun postRun s)) := by
  have hopening : '\n' ∉ opening s := by
    simp only [opening, String.toList_append, List.mem_append, not_or]
    exact ⟨⟨⟨by decide, hpath⟩, by decide⟩, hdelimiter⟩
  have hnil : s.heredocDelimiter.toList ≠ [] := fun h => hne (String.toList_eq_nil_iff.1 h)
  let behind := (trimEnd (shell runtime preRun postRun s)).splitOn '\n'
  obtain ⟨body, behind', hheredoc, hsource, hbehind⟩ := exists_heredoc hnil source.toList behind
  refine ⟨_, body, behind', ?_, List.prefix_append _ _, hheredoc, hsource, fun hmem => ?_⟩
  · rw [toList_runner, List.splitOn_append_cons_self_of_not_mem hopening,
      List.splitOn_append_cons_self, List.splitOn_append_cons_self_of_not_mem hdelimiter]
  · rw [hbehind hmem]
    exact List.intercalate_splitOn '\n'

/-- A script with blank lines around it, and with lines that have the default delimiter in them
without being it. -/
def paddedSource : String := "\n  \necho EOL\n EOL\nEOL2\n\n"

/-- The script arrives with its blank lines, and blank shell behind it is trimmed away with the end
of the runner. -/
theorem paddedSource_handed_over :
    ∃ rest body behind,
      (runner paddedSource "sh" "" " \n" {}).toList.splitOn '\n' = "cat > /tmp/script << EOL".toList :: rest
        ∧ heredoc? "EOL".toList rest = some (body, behind)
        ∧ joinLines body = paddedSource.toList
        ∧ joinLines behind = "\nset -e\n\n\nsh /tmp/script".toList := by
  have hmem : "EOL".toList ∉ paddedSource.toList.splitOn '\n' := by decide +kernel
  obtain ⟨rest, body, behind, hlines, -, hheredoc, hsource, hbehind⟩ :=
    runner_hands_over paddedSource "sh" "" " \n" (s := {}) (by decide +kernel) (by decide +kernel)
      (by decide +kernel)
  refine ⟨rest, body, behind, hlines.trans ?_, hheredoc, hsource.2 hmem, (hbehind hmem).trans ?_⟩
  · exact congrArg (· :: rest) (by decide +kernel)
  · decide +kernel

-- A line that is the delimiter ends the script, and what is behind it runs as shell.
example :
    (heredoc? "EOL".toList ((runner "a\nEOL\nb" "sh" "" "" {}).toList.splitOn '\n').tail).map
      (fun (body, behind) => (body, behind.head?)) = some (["a".toList], some "b".toList) := by
  decide +kernel

end Runner

end WorkflowTemplates
