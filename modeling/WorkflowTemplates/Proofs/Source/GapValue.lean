import WorkflowTemplates.Proofs.Source.GapToken
import WorkflowTemplates.Proofs.Text.Margin

/-!
# Values in alike texts

Each reader of values takes the same off the front of alike texts, with any bound that is not lower
(`readValue_alike`). So a literal is the same in alike texts (`read_of_alike`), and a comment at the
end of one of its lines, outside strings, leaves it as it is (`read_comment`).
-/

namespace WorkflowTemplates.Literal

open Source (IsComment ScanState)
open Source.ScanState (Before isPlain)
open Text (Stops isBlank isBlankLine isDigit isWordChar trim trimEnd trimStart)

variable {x x' rest t t' : List Char} {c : Char} {l : Literal}

/-- Whether a number starts is the same in alike texts: it depends on the first character, and
behind a point on the second one (`Alike`). -/
theorem startsNumber_of_alike (h : Alike (ScanState.start.next c) t t') :
    startsNumber (c :: t) = startsNumber (c :: t') := by
  have himp {u u' : List Char} (hu : Alike .start u u')
      (hstarts : startsNumber ('.' :: u) = true) : startsNumber ('.' :: u') = true := by
    cases u with
    | nil => cases hstarts
    | cons d u =>
      have hd : isDigit d = true := hstarts
      obtain ⟨u'', rfl, -⟩ := hu.cons_kind isTokenKind_digit hd
      exact hd
  by_cases hc : c = '.'
  · subst hc
    have ht : Alike .start t t' := h.of_mode rfl
    exact Bool.eq_iff_iff.2 ⟨himp ht, himp ht.symm⟩
  · unfold startsNumber
    dsimp only
    rw [beq_eq_false_iff_ne.2 hc, Bool.false_and, Bool.false_and]

/-- What is expected is there in both or in neither of two alike texts, and they are alike behind it
(`Alike`). -/
theorem Alike.expect {expected : Char} (h : Alike .start x x')
    (hcode : (ScanState.start.next expected).mode = .code) (hx : expect expected x = .ok rest) :
    ∃ rest', Literal.expect expected x' = .ok rest' ∧ Alike .start rest rest' := by
  unfold Literal.expect at hx
  split at hx
  · cases hx
  next c t hskip =>
  split at hx
  · next heq =>
    cases hx
    subst heq
    obtain ⟨rest', hskip', hrest⟩ := h.token_code hskip hcode
    refine ⟨rest', ?_, hrest⟩
    rw [Literal.expect, hskip']
    exact if_pos rfl
  · cases hx

/-- What is read behind something expected is read alike, if it is so behind any alike rests
(`ReadsAlike`). -/
theorem Alike.expect_bind {α : Type} {expected : Char} (h : Alike .start x x')
    (hcode : (ScanState.start.next expected).mode = .code)
    {f f' : List Char → Except ReadFault (α × List Char)}
    (hf : ∀ rest rest', Alike .start rest rest' → ReadsAlike (f rest) (f' rest')) :
    ReadsAlike (Literal.expect expected x >>= f) (Literal.expect expected x' >>= f') := by
  intro a rest hread
  obtain ⟨middle, hmiddle, hrest⟩ := bind_eq_ok.1 hread
  obtain ⟨middle', hmiddle', halike⟩ := h.expect hcode hmiddle
  obtain ⟨rest', hrest', halike'⟩ := hf middle middle' halike a rest hrest
  exact ⟨rest', bind_eq_ok.2 ⟨middle', hmiddle', hrest'⟩, halike'⟩

/-- Alike texts have the same between two parts of a container: a comma, its closing bracket, or a
`fault`. -/
theorem Alike.behindPart (h : Alike .start x x') (close : Char) (fault : ReadFault) :
    ReadsAlike (behindPart close fault x) (behindPart close fault x') := by
  rw [Literal.behindPart, Literal.behindPart]
  cases hx : skip x with
  | nil => exact readsAlike_error _ _
  | cons c t =>
    have hskip : Alike .start (skip x) (skip x') := h.skipFrom rfl
    obtain ⟨t', hx', ht⟩ := h.token hx
    rw [hx, hx'] at hskip
    rw [hx']
    dsimp only
    split
    · next hcomma =>
      subst hcomma
      exact readsAlike_ok true (ht.of_mode rfl)
    split
    · exact readsAlike_ok false hskip
    · exact readsAlike_error _ _

/-- Behind the bracket that closes a container alike texts are alike, as code goes on there
(`Alike`). -/
theorem Alike.close (h : Alike .start x x') {close : Char}
    (hclose : (ScanState.start.next close).mode = .code) (hx : (skip x).head? = some close) :
    Alike .start (skip x).tail (skip x').tail := by
  obtain ⟨t, ht⟩ := List.head?_eq_some_iff.1 hx
  obtain ⟨t', ht', halike⟩ := h.token_code ht hclose
  rwa [ht, ht']

mutual

/-- **A value is the same in alike texts.** The induction is on the bound, together with names,
items, entries and arguments; the second bound may be higher, because a text with a gap is longer
(`ReadsAlike`). -/
theorem readValue_alike : ∀ (bound bound' : Nat) (x x' : List Char), bound ≤ bound' →
    Alike .start x x' → ReadsAlike (readValue bound x) (readValue bound' x')
  | 0, _, _, _, _, _ => readsAlike_error _ _
  | bound + 1, bound' + 1, x, x', hle, h => by
    have hle : bound ≤ bound' := Nat.le_of_succ_le_succ hle
    rw [readValue, readValue]
    cases hx : skip x with
    | nil => exact readsAlike_error _ _
    | cons c t =>
      have hskip : Alike .start (skip x) (skip x') := h.skipFrom rfl
      obtain ⟨t', hx', ht⟩ := h.token hx
      rw [hx, hx'] at hskip
      rw [hx']
      dsimp only
      rw [hskip.isSome_opensString?]
      split
      · exact (hskip.readStrings hle).map fun text =>
          ⟨string (String.ofList text), fun _ => rfl⟩
      split
      · next hc =>
        subst hc
        exact (readItems_alike bound bound' ']' t t' rfl hle (ht.of_mode rfl)).map
          fun items => ⟨list items.1, fun _ => rfl⟩
      split
      · next hc =>
        subst hc
        refine (readItems_alike bound bound' ')' t t' rfl hle (ht.of_mode rfl)).map ?_
        -- One item without a comma is the value in parentheses, and anything else a list.
        rintro ⟨items, comma⟩
        match items, comma with
        | [l], false => exact ⟨l, fun _ => rfl⟩
        | [l], true => exact ⟨list [l], fun _ => rfl⟩
        | [], comma => exact ⟨list [], fun _ => rfl⟩
        | l :: l' :: items, comma => exact ⟨list (l :: l' :: items), fun _ => rfl⟩
      split
      · next hc =>
        subst hc
        exact (readEntries_alike bound bound' t t' hle (ht.of_mode rfl)).map
          fun entries => ⟨dict entries, fun _ => rfl⟩
      rw [startsNumber_of_alike ht]
      split
      · exact hskip.readNumber
      split
      · exact readName_alike bound bound' (c :: t) (c :: t') hle hskip
      · exact readsAlike_error _ _

/-- A name and the arguments of a call are the same in alike texts, one bound below the value
(`ReadsAlike`). -/
theorem readName_alike : ∀ (bound bound' : Nat) (x x' : List Char), bound ≤ bound' →
    Alike .start x x' → ReadsAlike (readName bound x) (readName bound' x')
  | 0, _, _, _, _, _ => readsAlike_error _ _
  | bound + 1, bound' + 1, x, x', hle, h => by
    have hle : bound ≤ bound' := Nat.le_of_succ_le_succ hle
    obtain ⟨hname, hrest⟩ := h.span isTokenKind_name rfl
    rw [readName, readName]
    dsimp only
    rw [hname]
    cases named? (String.ofList (x'.takeWhile isNameChar)) with
    | some l => exact readsAlike_ok l hrest
    | none =>
      cases hx : skip (x.dropWhile isNameChar) with
      | nil => exact readsAlike_error _ _
      | cons c t =>
        obtain ⟨t', hx', ht⟩ := hrest.token hx
        rw [hx']
        by_cases hc : c = '('
        · subst hc
          exact (readArguments_alike bound bound' _ t t' hle (ht.of_mode rfl)).map
            fun arguments => ⟨call _ arguments, fun _ => rfl⟩
        · intro l rest hread
          split at hread
          · next hnamed => cases hnamed
          · next heq =>
            cases heq
            exact absurd rfl hc
          · cases hread

/-- Items are the same in alike texts, up to the bracket that closes their list or tuple
(`ReadsAlike`). -/
theorem readItems_alike : ∀ (bound bound' : Nat) (close : Char) (x x' : List Char),
    (ScanState.start.next close).mode = .code → bound ≤ bound' → Alike .start x x' →
    ReadsAlike (readItems bound close x) (readItems bound' close x')
  | 0, _, _, _, _, _, _, _ => readsAlike_error _ _
  | bound + 1, bound' + 1, close, x, x', hclose, hle, h => by
    have hle : bound ≤ bound' := Nat.le_of_succ_le_succ hle
    rw [readItems, readItems, ← h.head?_skip]
    split
    · next hhead => exact readsAlike_ok _ (h.close hclose hhead)
    refine (readValue_alike bound bound' x x' hle h).bind fun l rest rest' hrest => ?_
    refine (hrest.behindPart close _).bind fun comma rest rest' hrest => ?_
    refine (readItems_alike bound bound' close rest rest' hclose hle hrest).bind ?_
    exact fun items rest rest' hrest => readsAlike_ok _ hrest

/-- Entries are the same in alike texts: keys, colons and values (`ReadsAlike`). -/
theorem readEntries_alike : ∀ (bound bound' : Nat) (x x' : List Char), bound ≤ bound' →
    Alike .start x x' → ReadsAlike (readEntries bound x) (readEntries bound' x')
  | 0, _, _, _, _, _ => readsAlike_error _ _
  | bound + 1, bound' + 1, x, x', hle, h => by
    have hle : bound ≤ bound' := Nat.le_of_succ_le_succ hle
    rw [readEntries, readEntries, ← h.head?_skip]
    split
    · next hhead => exact readsAlike_ok _ (h.close rfl hhead)
    refine (readValue_alike bound bound' x x' hle h).bind fun key rest rest' hrest => ?_
    refine hrest.expect_bind rfl fun rest rest' hrest => ?_
    refine (readValue_alike bound bound' rest rest' hle hrest).bind fun l rest rest' hrest => ?_
    refine (hrest.behindPart '}' _).bind fun comma rest rest' hrest => ?_
    refine (readEntries_alike bound bound' rest rest' hle hrest).bind ?_
    exact fun entries rest rest' hrest => readsAlike_ok _ hrest

/-- Arguments are the same in alike texts, with the keywords in front of some of them
(`ReadsAlike`). -/
theorem readArguments_alike : ∀ (bound bound' : Nat) (name : String) (x x' : List Char),
    bound ≤ bound' → Alike .start x x' →
    ReadsAlike (readArguments bound name x) (readArguments bound' name x')
  | 0, _, _, _, _, _, _ => readsAlike_error _ _
  | bound + 1, bound' + 1, name, x, x', hle, h => by
    have hle : bound ≤ bound' := Nat.le_of_succ_le_succ hle
    rw [readArguments, readArguments, ← h.head?_skip]
    split
    · next hhead => exact readsAlike_ok _ (h.close rfl hhead)
    have hskip : Alike .start (skip x) (skip x') := h.skipFrom rfl
    obtain ⟨hkey, hbehind⟩ := hskip.span isTokenKind_word rfl
    dsimp only
    rw [hkey]
    cases (skip x').takeWhile isWordChar with
    | nil => exact readsAlike_error _ _
    | cons b key =>
      cases hequals : skip ((skip x).dropWhile isWordChar) with
      | nil => exact readsAlike_error _ _
      | cons c t =>
        obtain ⟨t', hequals', ht⟩ := hbehind.token hequals
        rw [hequals']
        by_cases hc : c = '='
        · subst hc
          refine (readValue_alike bound bound' t t' hle (ht.of_mode rfl)).bind ?_
          intro l rest rest' hrest
          refine (hrest.behindPart ')' _).bind fun comma rest rest' hrest => ?_
          refine (readArguments_alike bound bound' name rest rest' hle hrest).bind ?_
          exact fun arguments rest rest' hrest => readsAlike_ok _ hrest
        · intro arguments rest hread
          split at hread
          · next heq =>
            cases heq
            exact absurd rfl hc
          · cases hread

end

/-! ## Whole literals -/

/-- What is skipped in front of a value does not matter, since `readValue` skips it first. -/
theorem readValue_skip (bound : Nat) (x : List Char) :
    readValue bound (skip x) = readValue bound x := by
  cases bound with
  | zero => rfl
  | succ bound => rw [readValue, readValue, skip_skip]

/-- **A literal is the same in alike texts**, if the one in which it is read is not the longer one
(`hle`), so that the bound of the other is no lower. -/
theorem read_of_alike (h : Alike .start (skip x) (skip x')) (hle : x.length ≤ x'.length)
    (hx : read x = .ok l) : read x' = .ok l := by
  rw [read] at hx
  obtain ⟨⟨l', rest⟩, hvalue, hend⟩ := bind_eq_ok.1 hx
  have hbound : 2 * x.length + 2 ≤ 2 * x'.length + 2 := by omega
  rw [← readValue_skip] at hvalue
  obtain ⟨rest', hvalue', hrest⟩ := readValue_alike _ _ _ _ hbound h l' rest hvalue
  rw [readValue_skip] at hvalue'
  dsimp only at hend
  split at hend
  · next hempty =>
    cases hend
    rw [List.isEmpty_iff] at hempty
    refine bind_eq_ok.2 ⟨(l, rest'), hvalue', ?_⟩
    dsimp only
    rw [hrest.skip_eq_nil hempty]
    rfl
  · cases hend

/-- Behind a literal the scanner is in no string, as its brackets and strings are closed. -/
theorem isOutside_of_read (h : read x = .ok l) : (ScanState.start.run x).isOutside = true := by
  rw [read] at h
  obtain ⟨⟨l', rest⟩, hvalue, hend⟩ := bind_eq_ok.1 h
  have hskip : skip rest = [] := by
    dsimp only at hend
    split at hend
    · next hempty => exact List.isEmpty_iff.1 hempty
    · cases hend
  have hstart : ScanState.start.Before 0 x := ScanState.before_code 0 x
  obtain ⟨value, rfl, -, hbefore⟩ := readValue_passes _ x 0 hvalue _ hstart
  have hleads := (skipFrom_leads 0 rest).1 _ hbefore
  rw [show skipFrom false rest = [] from hskip] at hleads
  obtain ⟨skipped, hrest, -, hbehind⟩ := hleads
  rw [List.append_nil] at hrest
  subst hrest
  rw [ScanState.run_append]
  rcases hbehind with hbehind | ⟨-, hcomment⟩
  · exact hbehind.toRests.isOutside
  · rw [hcomment]
    rfl

/-- Blanks are skipped in front of a text by `skip`. -/
theorem skip_blanks_append {w : List Char} (hw : isBlankLine w = true) (x : List Char) :
    skip (w ++ x) = skip x := by
  induction w with
  | nil => rfl
  | cons c w ih =>
    rw [isBlankLine, List.all_cons, Bool.and_eq_true] at hw
    have hskip : skip (c :: (w ++ x)) = skip (w ++ x) := if_pos (by rw [hw.1, Bool.true_or])
    rw [List.cons_append, hskip]
    exact ih hw.2

/-- In a comment everything is skipped up to the end of the line, that is, up to its line feed. -/
theorem skipFrom_comment_append {comment : List Char} (h : '\n' ∉ comment) (x : List Char) :
    skipFrom true (comment ++ x) = skipFrom true x := by
  induction comment with
  | nil => rfl
  | cons c comment ih =>
    rw [List.mem_cons, not_or] at h
    rw [List.cons_append, skipFrom, if_neg (Ne.symm h.1), ih h.2]

/-- A comment starts behind blanks, which are skipped on the way to it. -/
theorem skipFrom_blanks_append {w : List Char} (hw : isBlankLine w = true) (comment : Bool)
    (x : List Char) : skipFrom comment (w ++ '#' :: x) = skipFrom true x := by
  induction w generalizing comment with
  | nil => cases comment <;> rfl
  | cons c w ih =>
    rw [isBlankLine, List.all_cons, Bool.and_eq_true] at hw
    cases comment with
    | false =>
      rw [List.cons_append, skipFrom, if_pos (by rw [hw.1, Bool.true_or])]
      exact ih hw.2 false
    | true =>
      rw [List.cons_append, skipFrom]
      split
      · exact ih hw.2 false
      · exact ih hw.2 true

/-- Comments are skipped, with the blanks before them, so they start with no token (`Stops`). -/
theorem stops_comment {w : List Char} (hw : isBlankLine w = true) (x : List Char) :
    Stops (!isGap ·) (w ++ '#' :: x) := by
  cases w with
  | nil => exact Text.stops_cons rfl _
  | cons c w =>
    rw [isBlankLine, List.all_cons, Bool.and_eq_true] at hw
    refine Text.stops_cons ?_ _
    rw [isGap, hw.1]
    rfl

/-- A comment at the end of a line is a gap: without it there is the line feed, which is skipped as
well (`Gap`). -/
theorem gap_comment {comment : List Char} (h : IsComment comment) (x : List Char) :
    Gap ('\n' :: x) (comment ++ '\n' :: x) := by
  obtain ⟨hfree, w, text, hw, rfl⟩ := h
  have htext : '\n' ∉ text := fun hmem => hfree (by simp [hmem])
  rw [List.append_assoc, List.cons_append]
  refine ⟨Text.stops_cons rfl _, stops_comment hw _, fun flag => ?_⟩
  have hbreak : skipFrom flag ('\n' :: x) = skipFrom false x := by cases flag <;> rfl
  rw [hbreak, skipFrom_blanks_append hw, skipFrom_comment_append htext]
  rfl

/-- A comment at the end of a text is a gap, with the blanks in front of it, as nothing is left of
either (`Gap`). -/
theorem gap_end {w comment : List Char} (hw : isBlankLine w = true) (h : IsComment comment) :
    Gap [] (w ++ comment) := by
  obtain ⟨hfree, w', text, hw', rfl⟩ := h
  have htext : '\n' ∉ text := fun hmem => hfree (by simp [hmem])
  have hblank : isBlankLine (w ++ w') = true := by
    rw [Text.isBlankLine_append, hw, hw', Bool.and_self]
  rw [← List.append_assoc]
  refine ⟨Text.stops_nil _, stops_comment hblank _, fun flag => ?_⟩
  have hcomment := skipFrom_comment_append htext []
  rw [List.append_nil] at hcomment
  rw [skipFrom_blanks_append hblank, hcomment]
  cases flag <;> rfl

/-- **A comment at the end of a line leaves a literal as it is**, if the line does not end in a
string (`hout`). -/
theorem read_comment {a comment b : List Char} (hout : (ScanState.start.run a).isOutside = true)
    (hc : IsComment comment) (h : read (trim (a ++ '\n' :: b)) = .ok l) :
    read (trim (a ++ (comment ++ '\n' :: b))) = .ok l := by
  have hsublist : (a ++ '\n' :: b).Sublist (a ++ (comment ++ '\n' :: b)) :=
    List.Sublist.append_left (List.sublist_append_right _ _) a
  have hskip (s : List Char) : skip (trim s) = skip (trimEnd s) := by
    obtain ⟨w, hw, hs⟩ := Text.exists_trimEnd_eq_append s
    rw [hs, skip_blanks_append hw]
  refine read_of_alike ?_ (Text.trim_sublist hsublist).length_le h
  rw [hskip, hskip]
  suffices halike : Alike .start (trimEnd (a ++ '\n' :: b))
      (trimEnd (a ++ (comment ++ '\n' :: b))) from halike.skipFrom rfl
  cases hb : isBlankLine b with
  | true =>
    -- The comment is the end of the text, and the blanks in front of it are no longer.
    have hend : isBlankLine ('\n' :: b) = true := hb
    obtain ⟨w, hw, ha⟩ := Text.exists_eq_trimEnd_append a
    have hrun : (ScanState.start.run (trimEnd a)).isOutside = true := by
      have htrim := isOutside_of_read h
      obtain ⟨w', hw', htrimEnd⟩ := Text.exists_trimEnd_eq_append (a ++ '\n' :: b)
      rw [Text.trimEnd_append hend] at htrimEnd
      rw [htrimEnd, ScanState.run_append, Source.run_blank hw']
      exact htrim
    have htrimmed : trimEnd (a ++ (comment ++ '\n' :: b)) = a ++ trimEnd comment := by
      rw [← List.append_assoc, Text.trimEnd_append hend, hc.trimEnd_append]
    rw [Text.trimEnd_append hend, htrimmed]
    have halike := Alike.append (trimEnd a) (.gap hrun (gap_end hw hc.trimEnd))
    rwa [List.append_nil, ← List.append_assoc, ← ha] at halike
  | false =>
    rw [Text.trimEnd_append_line hb, ← List.append_assoc, Text.trimEnd_append_line hb,
      List.append_assoc]
    exact .append a (.gap hout (gap_comment hc _))

end WorkflowTemplates.Literal
