import WorkflowTemplates.Proofs.Source.Appended
import WorkflowTemplates.Proofs.Source.CommentedPart

/-!
# Comments in heads

The text of a head up to the end of one of its lines ends at a place (`Place.ofHead`): before the
parameter list, in the name, the hint or the default of a parameter, or behind the list. The place
tells what a comment there does to the signature that is read (`ofHead_comment`). Before the list
the comment is taken for part of the name of the function, which is then refused (`ofHead_opening`);
in the list it changes the piece in which the line ends, and no other one (`ofParameters_comment`).
-/

namespace WorkflowTemplates

open Source (IsComment ScanState breakAt quoted_start run_plain splitTop)
open Text (Stops indentWidth isBlank isBlankLine trim trimEnd trimStart)

/-! ## Places -/

/-- The places in a head at which a line of it may end: before its parameter list, in the name, the
hint or the default of a parameter, or behind the list. They are all there are, by `Place.ofHead`.
-/
inductive Signature.Place
  | opening
  | name
  | hint
  | default
  | behind
  deriving DecidableEq

namespace Signature

variable {u comment more : List Char} {s : Signature} {c : Char}

/-- The place of a parameter at which its text so far ends: in its default behind an equals sign, in
its hint behind a colon, and otherwise in its name. -/
def Place.ofPiece (piece : List Char) : Place :=
  if (breakDefault none .start piece).isSome then .default
  else if ':' ∈ piece then .hint
  else .name

/-- Whether a closing parenthesis is one of a parameter list, that is, outside all brackets in the
list. -/
def closesList (depth : Nat) (c : Char) : Bool :=
  depth == 0 && c == ')'

/-- The place of a parameter list at which its text so far ends: behind the list if it is closed,
else in the last piece of it. -/
def Place.ofList (list : List Char) : Place :=
  if (breakAt closesList .start list).isSome then .behind
  else Place.ofPiece ((splitTop ',' list).getLast?.getD [])

/-- The place of a head at which its text so far ends: behind the list if the head has ended, and
before the list without a parenthesis. -/
def Place.ofHead (head : List Char) : Place :=
  if (breakHead false .start head).isSome then .behind
  else match cutAt '(' head with
    | none => .opening
    | some (_, list) => Place.ofList list

/-! ## The text before the parameter list -/

/-- Behind the word that starts a definition, and blanks, a head goes on: `behindDef` drops both. -/
theorem behindDef_eq {head rest : List Char}
    (h : trimStart head = "def ".toList ++ rest ∨ trimStart head = "async def ".toList ++ rest) :
    behindDef head = trimStart rest := by
  have hstart (s : List Char) : trimStart ('d' :: s) = 'd' :: s :=
    (Text.stops_cons rfl s).dropWhile
  have hdrop : trimStart (("def ".toList ++ rest).drop "def".toList.length) = trimStart rest := rfl
  rcases h with h | h
  · have hword : dropWord "async".toList head.length ("def ".toList ++ rest)
        = "def ".toList ++ rest := dropWord_eq rfl _
    rw [behindDef, h, hword]
    exact (congrArg (fun s => trimStart (s.drop 3)) (hstart _)).trans hdrop
  · obtain ⟨n, hn⟩ : ∃ n, head.length = n + 1 := by
      cases head with
      | nil => cases h
      | cons c head => exact ⟨head.length, rfl⟩
    have hword : dropWord "async".toList (n + 1) ("async def ".toList ++ rest)
        = ' ' :: ("def ".toList ++ rest) := by
      rw [dropWord, if_pos (by rfl)]
      exact dropWord_eq rfl n
    rw [behindDef, h, hn, hword]
    exact (congrArg (fun s => trimStart (s.drop 3)) (hstart _)).trans hdrop

/-- A head that starts a definition has plain characters (`lead`), and then the text behind `def`,
whatever follows it. -/
theorem exists_behindDef (h : Function.isDefinition u = true) :
    ∃ lead w, u = lead ++ w ∧ (∀ c ∈ lead, ScanState.isPlain c = true)
      ∧ ∀ c x, isBlank c = false → behindDef (u ++ c :: x) = w ++ c :: x := by
  have hblank {w : List Char} (hw : isBlankLine w = true) :
      ∀ c ∈ w, ScanState.isPlain c = true := fun c hc =>
    Source.isPlain_of_isBlank (List.all_eq_true.1 hw c hc)
  obtain ⟨word, rest, hword, hplain, hrest⟩ : ∃ word rest,
      (word = "def ".toList ∨ word = "async def ".toList)
        ∧ (∀ c ∈ word, ScanState.isPlain c = true) ∧ word ++ rest = trimStart u := by
    rw [Function.isDefinition, Bool.or_eq_true, List.isPrefixOf_iff_prefix,
      List.isPrefixOf_iff_prefix] at h
    rcases h with ⟨rest, hrest⟩ | ⟨rest, hrest⟩
    · exact ⟨_, rest, .inl rfl, Text.forall_mem_of_all (by decide), hrest⟩
    · exact ⟨_, rest, .inr rfl, Text.forall_mem_of_all (by decide), hrest⟩
  obtain ⟨blanks, hblanks, hu⟩ := Text.exists_eq_append_trimStart u
  obtain ⟨gap, hgap, hrest'⟩ := Text.exists_eq_append_trimStart rest
  refine ⟨blanks ++ word ++ gap, trimStart rest, ?_, ?_, fun c x hc => ?_⟩
  · rw [List.append_assoc, List.append_assoc, ← hrest', hrest, ← hu]
  · intro c hc
    rw [List.mem_append, List.mem_append] at hc
    rcases hc with (hc | hc) | hc
    · exact hblank hblanks c hc
    · exact hplain c hc
    · exact hblank hgap c hc
  · have hstops : Stops isBlank (c :: x) := Text.stops_cons hc x
    have hhead : trimStart (u ++ c :: x) = word ++ (rest ++ c :: x) := by
      rw [trimStart, hstops.dropWhile_append, ← trimStart, ← hrest, List.append_assoc]
    have hbehind : behindDef (u ++ c :: x) = trimStart (rest ++ c :: x) := by
      refine behindDef_eq (hword.imp ?_ ?_)
      · rintro rfl
        exact hhead
      · rintro rfl
        exact hhead
    rw [hbehind]
    exact hstops.dropWhile_append rest

/-- **A comment before the parameter list is refused**: it becomes part of the name of the function,
which is then no word (`IsComment`). -/
theorem ofHead_opening (hdef : Function.isDefinition u = true) (hparen : '(' ∉ u)
    (hc : IsComment comment) (below : List Char) : ofHead (u ++ (comment ++ below)) ≠ .ok s := by
  obtain ⟨-, gap, text, hgap, rfl⟩ := hc
  obtain ⟨lead, w, hu, -, hbehind⟩ := exists_behindDef (Function.isDefinition_append hdef gap)
  have hw : '(' ∉ w := fun hmem => by
    have hmem' : '(' ∈ u ++ gap := hu ▸ List.mem_append_right lead hmem
    rcases List.mem_append.1 hmem' with hmem' | hmem'
    · exact hparen hmem'
    · exact nomatch List.all_eq_true.1 hgap '(' hmem'
  intro h
  rw [List.append_assoc, List.cons_append, ← List.append_assoc, ofHead, hbehind '#' _ rfl] at h
  split at h
  · cases h
  next before list hlist =>
  have hmem : '#' ∈ trim before := Text.mem_trim (mem_of_cutAt hlist hw (by decide)) rfl
  have hname : isFunctionName (trim before) = false :=
    Bool.eq_false_iff.2 fun hname =>
      absurd (isWordChar_of_mem_functionName hname '#' hmem) (by decide)
  dsimp only at h
  rw [hname] at h
  cases h

/-- What starts a text before a character that it does not have is in front of that character. -/
theorem isPrefix_of_append {word a b : List Char} (h : word <+: a ++ c :: b) (hc : c ∉ word) :
    word <+: a := by
  obtain ⟨t, ht⟩ := h
  rcases List.append_eq_append_iff.1 ht with ⟨a', rfl, -⟩ | ⟨middle, rfl, hrest⟩
  · exact List.prefix_append word a'
  · cases middle with
    | nil => simp
    | cons d middle =>
      cases (List.cons.inj hrest).1
      exact absurd (List.mem_append_right a List.mem_cons_self) hc

/-- A definition starts in front of its parenthesis: none stands in the words at its start. -/
theorem isDefinition_of_append {a b : List Char}
    (h : Function.isDefinition (a ++ '(' :: b) = true) : Function.isDefinition a = true := by
  have hstart : trimStart (a ++ '(' :: b) = trimStart a ++ '(' :: b :=
    (Text.stops_cons rfl b).dropWhile_append a
  rw [Function.isDefinition, hstart, Bool.or_eq_true, List.isPrefixOf_iff_prefix,
    List.isPrefixOf_iff_prefix] at h
  rw [Function.isDefinition, Bool.or_eq_true, List.isPrefixOf_iff_prefix,
    List.isPrefixOf_iff_prefix]
  exact h.imp (isPrefix_of_append · (by decide)) (isPrefix_of_append · (by decide))

/-- The signature of a name and the text behind the parenthesis that opens a parameter list, which
is what `ofHead` does from there on. -/
def ofParameters (name list : List Char) : Except SignatureFault Signature :=
  match breakAt closesList .start list with
  | none => .error .unbalancedParameters
  | some (parameters, _) =>
    (declarations true [] (splitTop ',' parameters)).map (Signature.mk (String.ofList name))

/-- Behind its name the head of a definition goes on with its parameters (`ofParameters`), whatever
text `x` it goes on with. -/
theorem exists_ofHead_eq {before list : List Char} (hdef : Function.isDefinition u = true)
    (hcut : cutAt '(' u = some (before, list)) (h : ofHead (u ++ more) = .ok s) :
    ∃ name, ScanState.start.run before = .start
      ∧ ∀ x, ofHead (u ++ x) = ofParameters name (list ++ x) := by
  obtain ⟨rfl, hbefore⟩ := eq_of_cutAt hcut
  obtain ⟨lead, w, rfl, hlead, hbehind⟩ := exists_behindDef (isDefinition_of_append hdef)
  have hw : ∀ b ∈ w, b ≠ '(' := fun b hb =>
    ne_of_mem_of_not_mem (List.mem_append_right lead hb) hbefore
  have hofHead (x : List Char) : ofHead (lead ++ w ++ '(' :: list ++ x)
      = if !isFunctionName (trim w) then .error (.invalidName (String.ofList (trim w)))
        else ofParameters (trim w) (list ++ x) := by
    rw [List.append_assoc, List.cons_append, ofHead, hbehind '(' _ rfl, cutAt_append hw]
    rfl
  have hname : isFunctionName (trim w) = true := by
    rw [hofHead] at h
    split at h
    · cases h
    · next hname => simpa using hname
  refine ⟨trim w, run_plain fun c hc => ?_, fun x => ?_⟩
  · rcases List.mem_append.1 hc with hc | hc
    · exact hlead c hc
    cases hblank : isBlank c with
    | true => exact Source.isPlain_of_isBlank hblank
    | false =>
      have hword := isWordChar_of_mem_functionName hname c (Text.mem_trim hc hblank)
      exact (Literal.isPlain_of_isWordChar hword).1
  · rw [hofHead, hname]
    rfl

/-! ## The parameter list -/

/-- Behind the parenthesis that closes the list there are no parameters, so the text `x` there is
not looked at. -/
theorem ofParameters_append {name list x : List Char}
    (hclosed : (breakAt closesList .start list).isSome = true) :
    ofParameters name (list ++ x) = ofParameters name list := by
  obtain ⟨⟨parameters, behind⟩, hfound⟩ := Option.isSome_iff_exists.1 hclosed
  obtain ⟨c, rfl, hother⟩ := Source.breakAt_eq_some hfound
  rw [ofParameters, ofParameters, List.append_assoc, List.cons_append, hother, hother]

/-- A parameter list that goes on behind a line has the same pieces with and without a comment at
its end, but for the one in which the line ends. -/
theorem exists_pieces {list : List Char} (name : List Char)
    (hopen : breakAt closesList .start list = none)
    (hout : (ScanState.start.run list).isOutside = true) (hc : IsComment comment)
    (h : ofParameters name (list ++ '\n' :: more) = .ok s) :
    ∃ init last piece others, (splitTop ',' list).getLast? = some last
      ∧ (ScanState.start.run last).isOutside = true
      ∧ ofParameters name (list ++ '\n' :: more)
        = (declarations true [] (init ++ (last ++ '\n' :: piece) :: others)).map
            (Signature.mk (String.ofList name))
      ∧ ofParameters name (list ++ (comment ++ '\n' :: more))
        = (declarations true []
            (init ++ (last ++ (comment ++ '\n' :: piece)) :: others)).map
            (Signature.mk (String.ofList name)) := by
  have htest (d : Nat) (c : Char) (hblank : isBlank c = true) : closesList d c = false := by
    rw [closesList, beq_eq_false_iff_ne.2 (Text.ne_of_kind (d := ')') hblank rfl), Bool.and_false]
  obtain ⟨found, hfound, hfound'⟩ :=
    Source.exists_breakAt quoted_start hopen hout htest hc more
  cases found with
  | none =>
    rw [ofParameters, hfound] at h
    cases h
  | some found =>
    obtain ⟨parameters, behind⟩ := found
    have hsep : ScanState.isPlain ',' = true := rfl
    obtain ⟨init, last, piece, others, hlast, hrun, hpieces, hpieces'⟩ :=
      Source.exists_splitTop hsep rfl hout hc parameters
    refine ⟨init, last, piece, others, ?_, hrun ▸ hout, ?_, ?_⟩
    · rw [hlast, List.getLast?_concat]
    · rw [ofParameters, hfound]
      dsimp only [Option.map_some]
      rw [hpieces]
    · rw [ofParameters, hfound']
      dsimp only [Option.map_some]
      rw [hpieces']

/-- What may be read instead of a signature if a comment is put at the end of a line that ends at a
place of the head: nothing before the list, a name with a number sign in it, another type of one
parameter, or the same signature. -/
def Place.Allows : Place → Signature → Signature → Prop
  | .opening, _, _ => False
  | .name, _, s' => ∃ d ∈ s'.parameters, '#' ∈ d.name.toList
  | .hint, s, s' => s'.name = s.name
      ∧ ∃ i type, s'.parameters = s.parameters.modify i fun d => { d with type }
  | .default, s, s' | .behind, s, s' => s' = s

/-- The places at which a comment is ignored: in a default, which is read as a literal, and behind
the list. -/
def Place.ignores : Place → Bool
  | .opening | .name | .hint => false
  | .default | .behind => true

/-- What a comment does to a parameter list, by the place (`Place.ofList`) at which its line ends:
it changes what the place allows, and nothing where it is ignored. -/
theorem ofParameters_comment {name list : List Char}
    (hout : (ScanState.start.run list).isOutside = true) (hc : IsComment comment)
    (h : ofParameters name (list ++ '\n' :: more) = .ok s) :
    (∀ s', ofParameters name (list ++ (comment ++ '\n' :: more)) = .ok s' →
        (Place.ofList list).Allows s s')
      ∧ ((Place.ofList list).ignores = true →
        ofParameters name (list ++ (comment ++ '\n' :: more)) = .ok s) := by
  unfold Place.ofList
  cases hclosed : breakAt closesList .start list with
  | some found =>
    have hsome : (breakAt closesList .start list).isSome = true := by rw [hclosed]; rfl
    rw [ofParameters_append hsome] at h ⊢
    exact ⟨fun s' h' => Except.ok.inj (h'.symm.trans h), fun _ => h⟩
  | none =>
    obtain ⟨init, last, piece, others, hlast, hout', hpieces, hpieces'⟩ :=
      exists_pieces name hclosed hout hc h
    rw [hpieces] at h
    obtain ⟨ds, hds, rfl⟩ := map_eq_ok.1 h
    rw [hpieces', hlast, Option.isSome_none, if_neg Bool.false_ne_true, Option.getD_some,
      Place.ofPiece]
    -- The place is told by the piece in which the line ends: an equals sign, a colon, or neither.
    cases hdefault : breakDefault none .start last with
    | some found =>
      have hsame := declarations_default hdefault hout' hc hds
      rw [hsame]
      exact ⟨fun s' h' => (Except.ok.inj h').symm, fun _ => rfl⟩
    | none =>
      rw [Option.isSome_none, if_neg Bool.false_ne_true]
      split
      · next hcolon =>
        refine ⟨fun s' h' => ?_, nofun⟩
        obtain ⟨ds', hds', rfl⟩ := map_eq_ok.1 h'
        exact ⟨rfl, declarations_hint hdefault hcolon hout' hc hds hds'⟩
      · next hcolon =>
        refine ⟨fun s' h' => ?_, nofun⟩
        obtain ⟨ds', hds', rfl⟩ := map_eq_ok.1 h'
        exact declarations_name hdefault hcolon hout' hc hds'

/-- **What a comment does to a head**, by the place (`Place.ofHead`) at which its line ends. -/
theorem ofHead_comment (hdef : Function.isDefinition u = true)
    (hopen : breakHead false .start u = none) (hout : (ScanState.start.run u).isOutside = true)
    (hc : IsComment comment) (h : ofHead (u ++ '\n' :: more) = .ok s) :
    (∀ s', ofHead (u ++ (comment ++ '\n' :: more)) = .ok s' →
        (Place.ofHead u).Allows s s')
      ∧ ((Place.ofHead u).ignores = true →
        ofHead (u ++ (comment ++ '\n' :: more)) = .ok s) := by
  rw [Place.ofHead, hopen, Option.isSome_none, if_neg Bool.false_ne_true]
  cases hcut : cutAt '(' u with
  | none => exact ⟨fun s' h' => absurd h' (ofHead_opening hdef (notMem_of_cutAt hcut) hc _), nofun⟩
  | some cut =>
    obtain ⟨before, list⟩ := cut
    obtain ⟨name, hrun, heq⟩ := exists_ofHead_eq hdef hcut h
    have hout' : (ScanState.start.run list).isOutside = true := by
      rw [(eq_of_cutAt hcut).1, ScanState.run_append, hrun, ScanState.run_cons] at hout
      exact (ScanState.isOutside_run 1 0 .code list).symm.trans hout
    rw [heq] at h ⊢
    exact ofParameters_comment hout' hc h

end Signature

end WorkflowTemplates
