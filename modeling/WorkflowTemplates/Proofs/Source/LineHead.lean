import WorkflowTemplates.Proofs.Source.Appended
import WorkflowTemplates.Proofs.Source.Function

/-!
# Heads on one line

Most functions have a head that ends on the line on which it starts. Then the lines behind it are
the ones that the body is looked for in, and what is read is put together from that line and these
(`Function.ofLines_lineHead`). So a function without parameters is read as its name and its body
(`Function.read_nullaryText`).
-/

namespace WorkflowTemplates

open Source (ScanState body? isBlankOrComment)
open Text (countBreaks firstLine indentWidth joinLines)

namespace Text

variable {line : List Char}

/-- A line in front of others starts their text, and ends there or with a line feed. -/
theorem exists_joinLines_cons (line : List Char) (rest : List (List Char)) :
    ∃ more, joinLines (line :: rest) = line ++ more
      ∧ (more = [] ∨ ∃ behind, more = '\n' :: behind) := by
  cases rest with
  | nil => exact ⟨[], by simp [joinLines_singleton], .inl rfl⟩
  | cons next rest =>
    have happend := joinLines_append (List.cons_ne_nil next rest) [line]
    exact ⟨'\n' :: joinLines (next :: rest), by simpa [ended] using happend, .inr ⟨_, rfl⟩⟩

/-- The first line of a text is the one that it starts with, if what follows starts with a line feed
or is nothing. -/
theorem firstLine_of_more {more : List Char} (h : '\n' ∉ line)
    (hmore : more = [] ∨ ∃ behind, more = '\n' :: behind) : firstLine (line ++ more) = line := by
  rcases hmore with rfl | ⟨behind, rfl⟩
  · rw [List.append_nil, firstLine, List.takeWhile_eq_self_iff]
    intro c hc
    simpa using ne_of_mem_of_not_mem hc h
  · exact firstLine_append h behind

end Text

namespace Function

variable {lines rest : List (List Char)} {first head line : List Char} {before : Nat} {f : Function}

/-- **Lines whose head ends on the line of the definition define a function** exactly if nothing
more is on that line, the head has a signature, and the lines behind it have a body. The function is
then made of these two (`ofBody`). -/
theorem ofLines_lineHead (hfound : findDefinition? lines = some (before, first, rest))
    (hfree : '\n' ∉ first) (hhead : Signature.breakHead false .start first = some (head, line)) :
    ofLines lines = .ok f ↔ isBlankOrComment line = true
      ∧ ∃ signature body, Signature.ofHead head = .ok signature
        ∧ body? (indentWidth first) rest = some body ∧ f = ofBody signature body := by
  obtain ⟨hfirst, -, hbreaks⟩ := Signature.breakHead_eq_some hhead
  obtain ⟨more, hjoin, hmore⟩ := Text.exists_joinLines_cons first rest
  have hbehind : Signature.breakHead false .start (joinLines (first :: rest))
      = some (head, line ++ more) := by
    rw [hjoin, hfirst, List.append_assoc]
    exact hbreaks _
  have hnone : '\n' ∉ head ∧ '\n' ∉ line := by
    rw [hfirst] at hfree
    simp_all
  have hline : firstLine (line ++ more) = line := Text.firstLine_of_more hnone.2 hmore
  have hcount : countBreaks head = 0 := List.count_eq_zero.2 hnone.1
  rw [ofLines_eq_ok]
  constructor
  · rintro ⟨_, _, _, _, _, hfound', hhead', hblank, hparts⟩
    cases hfound.symm.trans hfound'
    cases hbehind.symm.trans hhead'
    obtain ⟨signature, body, hsignature, hbody, hf⟩ := ofParts_eq_ok.1 hparts
    rw [hcount] at hbody
    exact ⟨hline ▸ hblank, signature, body, hsignature, hbody, hf⟩
  · rintro ⟨hblank, signature, body, hsignature, hbody, hf⟩
    refine ⟨before, first, rest, head, _, hfound, hbehind, hline.symm ▸ hblank, ?_⟩
    exact ofParts_eq_ok.2 ⟨signature, body, hsignature, by rwa [hcount], hf⟩

/-! ## Functions without parameters -/

/-- The source of a function without parameters and with these lines of its `body`. -/
def nullaryText (name : String) (body : List (List Char)) (ending : List Char) : List Char :=
  joinLines ((Signature.headText name [] ++ [':']) :: body) ++ ending

/-- **A function without parameters is read as its name and its body.** Carriage returns at line
ends do not belong to the lines, except at the last one, which must have none (`hlast`). -/
theorem read_nullaryText {name : String} (hname : Signature.isFunctionName name.toList = true)
    {ls : List (List Char)} {last ending body : List Char}
    (hfree : ∀ line ∈ ls ++ [last], '\n' ∉ line) (hne : last ≠ [])
    (hlast : Text.dropReturn last = last) (hending : ending = [] ∨ ending = ['\n'])
    (hbody : body? 0 ((ls ++ [last]).map Text.dropReturn) = some body) :
    read (String.ofList (nullaryText name (ls ++ [last]) ending))
      = .ok (ofBody ⟨name, []⟩ body) := by
  let first := Signature.headText name [] ++ [':']
  have hnone : ∀ p ∈ ([] : List Signature.Written), p.WellFormed := List.forall_mem_nil _
  have hfirst : '\n' ∉ first := by
    have := Signature.newline_notMem_headText hname hnone
    simp [first, this]
  have hlines : Text.lines (nullaryText name (ls ++ [last]) ending)
      = first :: (ls ++ [last]).map Text.dropReturn := by
    have hall : ∀ line ∈ first :: ls ++ [last], '\n' ∉ line :=
      List.forall_mem_cons.2 ⟨hfirst, hfree⟩
    rw [nullaryText, ← List.cons_append, Text.lines_joinLines hall hne hlast hending,
      List.cons_append, List.map_cons, Text.dropReturn_concat (by decide)]
  have hsignature : Signature.ofHead (Signature.headText name []) = .ok ⟨name, []⟩ := by
    obtain ⟨ds, hds, hall⟩ := Signature.ofHead_headText hname hnone List.nodup_nil nofun
    cases hall
    exact hds
  obtain ⟨hfound, hmargin⟩ :=
    findDefinition?_headText name [] ((ls ++ [last]).map Text.dropReturn)
  rw [read, String.toList_ofList, hlines]
  refine (ofLines_lineHead hfound hfirst (Signature.breakHead_headText hname hnone [])).2 ?_
  exact ⟨rfl, _, body, hsignature, by rw [hmargin, hbody], rfl⟩

end Function

end WorkflowTemplates
