import WorkflowTemplates.Proofs.Source.Accepted
import WorkflowTemplates.Proofs.Source.GapValue

/-!
# Comments in parameters

A line of a parameter list ends in the name, in the type hint or in the default of a parameter. In
the default a comment at its end is skipped (`declarations_default`). In the hint it becomes part of
the hint, so it changes at most the type of the parameter (`declarations_hint`). In the name it
becomes part of the name, and a line that ends before the name is no exception
(`declarations_name`).
-/

namespace WorkflowTemplates.Signature

open Source (IsComment ScanState breakAt quoted_start)
open Text (Stops isBlank isBlankLine trim trimEnd trimStart)

variable {first : Bool} {seen : List String} {init more : List (List Char)}
  {piece last comment : List Char} {ds : List Declaration} {c : Char}

/-- No marker has another character than stars and slashes, so a text with one declares a parameter.
-/
theorem isMarker_of_mem {s : List Char} (hmem : c ∈ s) (hstar : c ≠ '*') (hslash : c ≠ '/') :
    isMarker s = false := by
  have hempty : s ≠ [] := List.ne_nil_of_mem hmem
  have hone {b : Char} (hb : c ≠ b) : s ≠ [b] := by
    rintro rfl
    exact hb (List.mem_singleton.1 hmem)
  simp [isMarker, hempty, hone hstar, hone hslash]

/-! ## One parameter after the other -/

/-- The declarations of a parameter and of the pieces behind it: none for the object of a method
(`receiver`), else one of a new name (`parameter`). They are the cases of `declarations` that give
no error. -/
inductive ReadsPart (first : Bool) (seen : List String) (p : Part) (more : List (List Char)) :
    List Declaration → Prop
  | receiver {ds : List Declaration} : (first && isReceiver p.name) = true →
    declarations false seen more = .ok ds → ReadsPart first seen p more ds
  | parameter {d : Declaration} {ds : List Declaration} : (first && isReceiver p.name) = false →
    String.ofList p.name ∉ seen → p.declaration = .ok d →
    declarations false (String.ofList p.name :: seen) more = .ok ds →
    ReadsPart first seen p more (d :: ds)

/-- A piece that is no marker declares its parameter, if no star stands in front of it, which would
collect arguments. -/
theorem declarations_cons_iff (hmarker : isMarker (trim piece) = false) :
    declarations first seen (piece :: more) = .ok ds
      ↔ (trim piece).head? ≠ some '*'
        ∧ ReadsPart first seen (Part.ofText (trim piece)) more ds := by
  rw [declarations]
  dsimp only
  rw [hmarker, if_neg Bool.false_ne_true]
  split
  -- The tests of `declarations` in their order: a star, the object of a method, a name that is
  -- taken.
  · next hstar => exact iff_of_false (by rintro ⟨⟩) fun h => h.1 hstar
  next hstar =>
  split
  · next hreceiver =>
    refine ⟨fun h => ⟨hstar, .receiver hreceiver h⟩, fun h => ?_⟩
    cases h.2 with
    | receiver _ h => exact h
    | parameter hno => exact absurd (hno.symm.trans hreceiver) Bool.false_ne_true
  next hreceiver =>
  rw [Bool.not_eq_true] at hreceiver
  split
  · next hseen =>
    refine iff_of_false (by rintro ⟨⟩) fun h => ?_
    cases h.2 with
    | receiver hyes => exact absurd (hreceiver.symm.trans hyes) Bool.false_ne_true
    | parameter _ hnew => exact absurd hseen hnew
  next hnew =>
  constructor
  · intro h
    obtain ⟨d, hd, h⟩ := bind_eq_ok.1 h
    obtain ⟨ds, hds, h⟩ := bind_eq_ok.1 h
    cases h
    exact ⟨hstar, .parameter hreceiver hnew hd hds⟩
  · rintro ⟨-, h⟩
    cases h with
    | receiver hyes => exact absurd (hreceiver.symm.trans hyes) Bool.false_ne_true
    | parameter _ _ hd hds => exact bind_eq_ok.2 ⟨_, hd, bind_eq_ok.2 ⟨_, hds, rfl⟩⟩

/-- The pieces in front of others declare what they declare (`before`), whatever the others are; the
others only see the names that were declared. -/
theorem exists_declarations_append {others : List (List Char)}
    (h : declarations first seen (init ++ others) = .ok ds) :
    ∃ first' seen' before, ∀ more, declarations first seen (init ++ more)
      = (declarations first' seen' more).map (before ++ ·) := by
  -- What is behind the pieces only sees which names were taken and whether a piece came first.
  induction init generalizing first seen ds with
  | nil =>
    refine ⟨first, seen, [], fun more => ?_⟩
    cases hmore : declarations first seen more <;> simp [Except.map, hmore]
  | cons piece init ih =>
    rw [List.cons_append, declarations] at h
    dsimp only at h
    split at h
    · next hmarker =>
      obtain ⟨first', seen', before, happend⟩ := ih h
      refine ⟨first', seen', before, fun more => ?_⟩
      rw [List.cons_append, declarations, if_pos hmarker, happend]
    next hmarker =>
    split at h
    · cases h
    next hstar =>
    split at h
    · next hreceiver =>
      obtain ⟨first', seen', before, happend⟩ := ih h
      refine ⟨first', seen', before, fun more => ?_⟩
      rw [List.cons_append, declarations]
      dsimp only
      rw [if_neg hmarker, if_neg hstar, if_pos hreceiver, happend]
    next hreceiver =>
    split at h
    · cases h
    next hnew =>
    obtain ⟨d, hd, h⟩ := bind_eq_ok.1 h
    obtain ⟨ds', hds, -⟩ := bind_eq_ok.1 h
    obtain ⟨first', seen', before, happend⟩ := ih hds
    refine ⟨first', seen', d :: before, fun more => ?_⟩
    rw [List.cons_append, declarations]
    dsimp only
    rw [if_neg hmarker, if_neg hstar, if_neg hreceiver, if_neg hnew, hd, happend]
    cases declarations first' seen' more <;> rfl

/-! ## Cuts -/

/-- A text that is cut at a character has it behind what is before it, where it is met for the first
time. -/
theorem eq_of_cutAt {a b text : List Char} (h : cutAt c text = some (a, b)) :
    text = a ++ c :: b ∧ c ∉ a := by
  unfold cutAt at h
  split at h
  · cases h
  next d behind hdrop =>
  cases h
  have hd : d = c := by
    have hhead := List.head?_dropWhile_not (· != c) text
    rw [hdrop] at hhead
    simpa using hhead
  refine ⟨?_, fun hmem => ?_⟩
  · rw [← hd, ← hdrop, hd, List.takeWhile_append_dropWhile]
  · simpa using List.mem_takeWhile_imp hmem

/-- A text that is not cut at a character does not have it, so `cutAt` fails for no other reason. -/
theorem notMem_of_cutAt {text : List Char} (h : cutAt c text = none) : c ∉ text := by
  intro hmem
  obtain ⟨a, b, rfl, hc⟩ := List.eq_append_cons_of_mem hmem
  rw [cutAt_append fun d hd => ne_of_mem_of_not_mem hd hc] at h
  cases h

/-- What stands before the place where a text is cut is in the first part, if it is not the
character itself. -/
theorem mem_of_cutAt {a b before behind : List Char} {d : Char}
    (h : cutAt d (a ++ c :: b) = some (before, behind)) (hd : d ∉ a) (hc : c ≠ d) :
    c ∈ before := by
  rcases List.append_eq_append_iff.1 (eq_of_cutAt h).1 with ⟨a', rfl, hrest⟩ | ⟨b', rfl, hrest⟩
  · cases a' with
    | nil => exact absurd (List.cons.inj hrest).1 hc
    | cons e a' =>
      rw [(List.cons.inj hrest).1]
      exact List.mem_append_right a List.mem_cons_self
  · cases b' with
    | nil => exact absurd (List.cons.inj hrest).1.symm hc
    | cons e b' =>
      rw [← (List.cons.inj hrest).1] at hd
      exact absurd (List.mem_append_right before List.mem_cons_self) hd

/-! ## Parts -/

/-- The name and the hint of a parameter, from its text before the default: the colon is between
them, if there is one. -/
def Part.ofHead (head : List Char) (default : Option (List Char)) : Part :=
  match cutAt ':' head with
  | some (name, hint) => ⟨trim name, some (trim hint), default⟩
  | none => ⟨head, none, default⟩

/-- A parameter with a default is made of the texts on the two sides of the equals sign, both
trimmed. -/
theorem ofText_of_some {parameter head behind : List Char}
    (h : breakDefault none .start parameter = some (head, behind)) :
    Part.ofText parameter = .ofHead (trim head) (some (trim behind)) := by
  rw [Part.ofText, h]
  rfl

/-- A parameter without a default is its text, cut into a name and a hint. -/
theorem ofText_of_none {parameter : List Char} (h : breakDefault none .start parameter = none) :
    Part.ofText parameter = .ofHead parameter none := by
  rw [Part.ofText, h]
  rfl

/-- The default is not looked for in what is before it, so `Part.ofHead` only passes it on. -/
theorem Part.default_ofHead (head : List Char) (default : Option (List Char)) :
    (Part.ofHead head default).default = default := by
  unfold Part.ofHead
  split <;> rfl

/-- The default is not part of the name or the hint, so these two are those of the part without it.
-/
theorem Part.ofHead_eq (head : List Char) (default : Option (List Char)) :
    Part.ofHead head default = { Part.ofHead head none with default } := by
  unfold Part.ofHead
  split <;> rfl

/-- Before a hint stands the name, up to the first colon. -/
theorem Part.name_ofHead {name : List Char} (h : ':' ∉ name) (hint : List Char)
    (default : Option (List Char)) :
    (Part.ofHead (name ++ ':' :: hint) default).name = trim name := by
  have hname : ∀ b ∈ name, b ≠ ':' := fun b hb => ne_of_mem_of_not_mem hb h
  rw [Part.ofHead, cutAt_append hname]

/-- What stands before a colon is part of the name, unless it is trimmed away as a blank. -/
theorem Part.mem_name_ofHead {a : List Char} (h : ':' ∉ a) (hc : isBlank c = false)
    (hcolon : c ≠ ':') (b : List Char) (default : Option (List Char)) :
    c ∈ (Part.ofHead (a ++ c :: b) default).name := by
  unfold Part.ofHead
  split
  · next hcut => exact Text.mem_trim (mem_of_cutAt hcut h hcolon) hc
  · exact List.mem_append_right a List.mem_cons_self

/-! ## Blanks in front of a parameter -/

/-- A blank before an equals sign does not make a comparison of it, so it does not matter to
`breakDefault`. -/
theorem breakDefault_of_blank {b : Char} (hb : isBlank b = true) (s : ScanState) (a : List Char) :
    breakDefault (some b) s a = breakDefault none s a := by
  have hcompares : ['=', '!', '<', '>'].contains b = false := by
    have hne (c : Char) (hc : isBlank c = false) : b ≠ c := Text.ne_of_kind hb hc
    simp [hne '=' rfl, hne '!' rfl, hne '<' rfl, hne '>' rfl]
  cases a with
  | nil => rfl
  | cons c a =>
    rw [breakDefault, breakDefault]
    dsimp only
    rw [Option.any_some, hcompares]
    rfl

/-- Blanks in front of a parameter do not belong to its default, but to what is before it. -/
theorem breakDefault_blanks {w : List Char} (hw : isBlankLine w = true) (a : List Char) :
    breakDefault none .start (w ++ a)
      = (breakDefault none .start a).map fun (head, behind) => (w ++ head, behind) := by
  induction w with
  | nil => cases ha : breakDefault none .start a <;> simp [ha]
  | cons c w ih =>
    rw [isBlankLine, List.all_cons, Bool.and_eq_true] at hw
    have hplain : ScanState.isPlain c = true :=
      (Literal.isPlain_of_skipped (by rw [hw.1, Bool.true_or])).1
    have hnext : ScanState.start.next c = .start := ScanState.nextInCode_plain hplain 0
    have hequals : (c == '=') = false := beq_eq_false_iff_ne.2 (Text.ne_of_kind hw.1 rfl)
    rw [List.cons_append, breakDefault]
    dsimp only
    rw [hequals, Bool.and_false, Bool.false_and, if_neg Bool.false_ne_true,
      breakDefault_of_blank hw.1, hnext, ih hw.2, Option.map_map]
    rfl

/-- Without a default a parameter has none when blanks in front of it are trimmed away, by
`breakDefault_blanks`. -/
theorem breakDefault_trimStart_of_none (h : breakDefault none .start last = none) :
    breakDefault none .start (trimStart last) = none := by
  obtain ⟨w, hw, hlast⟩ := Text.exists_eq_append_trimStart last
  rw [hlast, breakDefault_blanks hw] at h
  exact Option.map_eq_none_iff.1 h

/-! ## A line that ends in a default -/

/-- A parameter with a default on a line that goes on below has this part of its default, and what
is before it (`name`, `hint`) does not depend on what is `below`. -/
theorem exists_ofText_default {head behind : List Char}
    (h : breakDefault none .start last = some (head, behind)) :
    ∃ name hint start, ∀ below : List Char, below.head? ≠ some '=' →
      isMarker (trim (last ++ below)) = false ∧ (trim (last ++ below)).head? = start
        ∧ Part.ofText (trim (last ++ below)) = ⟨name, hint, some (trim (behind ++ below))⟩ := by
  obtain ⟨rfl, -, hbehind, -⟩ := breakDefault_eq_some h
  obtain ⟨w, hw, hhead⟩ := Text.exists_eq_append_trimStart head
  have hstart : ∀ other : List Char, other.head? ≠ some '=' →
      breakDefault none .start (trimStart head ++ '=' :: other) = some (trimStart head, other) := by
    rw [hhead, List.append_assoc, breakDefault_blanks hw] at h
    obtain ⟨⟨head', behind'⟩, hfound, heq⟩ := Option.map_eq_some_iff.1 h
    cases List.append_cancel_left (Prod.mk.inj heq).1
    exact (breakDefault_eq_some hfound).2.2.2
  let part := Part.ofHead (trim (trimStart head)) none
  refine ⟨part.name, part.hint, (trimStart head ++ ['=']).head?, fun below hbelow => ?_⟩
  have htrim : trim (head ++ '=' :: behind ++ below)
      = trimStart head ++ '=' :: trimEnd (behind ++ below) := by
    rw [List.append_assoc, List.cons_append, Text.trim_append_cons rfl]
  have hnext : (trimEnd (behind ++ below)).head? ≠ some '=' := by
    obtain ⟨w', -, hend⟩ := Text.exists_eq_trimEnd_append (behind ++ below)
    intro hhead
    obtain ⟨t, ht⟩ := List.head?_eq_some_iff.1 hhead
    rw [ht] at hend
    cases behind with
    | nil => exact hbelow (congrArg List.head? hend)
    | cons d behind => exact hbehind (congrArg List.head? hend)
  rw [htrim]
  refine ⟨?_, ?_, ?_⟩
  · exact isMarker_of_mem (List.mem_append_right _ List.mem_cons_self) (by decide) (by decide)
  · cases trimStart head <;> rfl
  · rw [ofText_of_some (hstart _ hnext), Text.trim_trimEnd]
    exact Part.ofHead_eq _ _

/-- A comment at the end of a line is skipped in a default, so the part declares the same: a literal
is the same with and without it (`Literal.read_comment`). -/
theorem Part.declaration_comment {name behind : List Char} {hint : Option (List Char)}
    {d : Declaration} (hout : (ScanState.start.run behind).isOutside = true)
    (hc : IsComment comment)
    (h : (Part.mk name hint (some (trim (behind ++ '\n' :: piece)))).declaration = .ok d) :
    (Part.mk name hint (some (trim (behind ++ (comment ++ '\n' :: piece))))).declaration
      = .ok d := by
  obtain ⟨type, htype, h⟩ := bind_eq_ok.1 h
  obtain ⟨default, hdefault, h⟩ := bind_eq_ok.1 h
  refine bind_eq_ok.2 ⟨type, htype, bind_eq_ok.2 ⟨default, ?_, h⟩⟩
  unfold Part.value Default.read at hdefault ⊢
  dsimp only at hdefault ⊢
  cases hread : Literal.read (trim (behind ++ '\n' :: piece)) with
  | error fault =>
    rw [hread] at hdefault
    cases hdefault
  | ok l =>
    rw [hread] at hdefault
    rw [Literal.read_comment hout hc hread]
    exact hdefault

/-- **A comment at the end of a line that ends in a default is ignored**: the pieces declare the
same parameters (`IsComment`). -/
theorem declarations_default {head behind : List Char}
    (hlast : breakDefault none .start last = some (head, behind))
    (hout : (ScanState.start.run last).isOutside = true) (hc : IsComment comment)
    (h : declarations first seen (init ++ (last ++ '\n' :: piece) :: more) = .ok ds) :
    declarations first seen (init ++ (last ++ (comment ++ '\n' :: piece)) :: more)
      = .ok ds := by
  obtain ⟨name, hint, start, htext⟩ := exists_ofText_default hlast
  obtain ⟨hmarker, hhead, hpart⟩ := htext ('\n' :: piece) (by simp)
  obtain ⟨hmarker', hhead', hpart'⟩ := htext (comment ++ '\n' :: piece) (hc.head?_append_ne _)
  have hbehind : (ScanState.start.run behind).isOutside = true := by
    obtain ⟨rfl, htop, -, -⟩ := breakDefault_eq_some hlast
    have hnext := Source.next_of_isTop (quoted_start.run head) rfl htop
    rwa [ScanState.run_append, ScanState.run_cons, hnext] at hout
  obtain ⟨first', seen', before, happend⟩ := exists_declarations_append h
  rw [happend] at h ⊢
  obtain ⟨ds', hread, hds⟩ := map_eq_ok.1 h
  obtain ⟨hstar, hreads⟩ := (declarations_cons_iff hmarker).1 hread
  refine map_eq_ok.2 ⟨ds', ?_, hds⟩
  refine (declarations_cons_iff hmarker').2 ⟨hhead'.trans hhead.symm ▸ hstar, ?_⟩
  rw [hpart] at hreads
  rw [hpart']
  cases hreads with
  | receiver hreceiver hmore => exact .receiver hreceiver hmore
  | parameter hreceiver hnew hd hmore =>
    exact .parameter hreceiver hnew (Part.declaration_comment hbehind hc hd) hmore

/-! ## A line that ends in a hint -/

/-- The default of a parameter is what stands behind its equals sign, trimmed. -/
theorem default_ofText (parameter : List Char) :
    (Part.ofText parameter).default
      = (breakDefault none .start parameter).map fun (_, behind) => trim behind := by
  cases h : breakDefault none .start parameter with
  | none => rw [ofText_of_none h, Part.default_ofHead, Option.map_none]
  | some found => rw [ofText_of_some h, Part.default_ofHead, Option.map_some]

/-- A text without a default has none either before one of its characters, if that is no equals
sign: the character might otherwise be the second one of a comparison. -/
theorem breakDefault_of_append {a b : List Char} {s : ScanState} {before : Option Char}
    (h : breakDefault before s (a ++ b) = none) (hb : b.head? ≠ some '=') :
    breakDefault before s a = none := by
  cases ha : breakDefault before s a with
  | none => rfl
  | some found =>
    obtain ⟨head, behind⟩ := found
    obtain ⟨rfl, -, hbehind, hother⟩ := breakDefault_eq_some ha
    have hnext : (behind ++ b).head? ≠ some '=' := by
      cases behind with
      | nil => exact hb
      | cons d behind => exact hbehind
    rw [List.append_assoc, List.cons_append, hother _ hnext] at h
    cases h

/-- A default that starts neither in a text nor at the character behind it has both before it, in
what is no part of the default. -/
theorem exists_of_breakDefault_append {a b head behind : List Char}
    (hnone : breakDefault none .start a = none) (hc : c ≠ '=')
    (h : breakDefault none .start (a ++ c :: b) = some (head, behind)) :
    ∃ head', head = a ++ c :: head' := by
  rw [breakDefault_append_of_none hnone, breakDefault] at h
  dsimp only at h
  rw [if_neg (by simp [hc]), Option.map_map] at h
  obtain ⟨⟨head', behind'⟩, -, heq⟩ := Option.map_eq_some_iff.1 h
  exact ⟨head', (Prod.mk.inj heq).1.symm⟩

/-- A parameter with a hint on a line that goes on below has a name that does not depend on what is
`below`: the colon behind the name is on the line. -/
theorem exists_ofText_hint (hnone : breakDefault none .start last = none) (hcolon : ':' ∈ last) :
    ∃ name start, ∀ below, isMarker (trim (last ++ below)) = false
      ∧ (trim (last ++ below)).head? = start
      ∧ (Part.ofText (trim (last ++ below))).name = name := by
  obtain ⟨name, hint, rfl, hname⟩ := List.eq_append_cons_of_mem hcolon
  have hstart : ':' ∉ trimStart name := fun hmem => hname (Text.trimStart_subset _ hmem)
  have htrimmed : trimStart (name ++ ':' :: hint) = trimStart name ++ ':' :: hint :=
    (Text.stops_cons rfl hint).dropWhile_append name
  have hnone' := breakDefault_trimStart_of_none hnone
  rw [htrimmed] at hnone'
  refine ⟨trim (trimStart name), (trimStart name ++ [':']).head?, fun below => ?_⟩
  rw [List.append_assoc, List.cons_append, Text.trim_append_cons rfl]
  refine ⟨?_, ?_, ?_⟩
  · exact isMarker_of_mem (List.mem_append_right _ List.mem_cons_self) (by decide) (by decide)
  · cases trimStart name <;> rfl
  cases hfound : breakDefault none .start (trimStart name ++ ':' :: trimEnd (hint ++ below)) with
  | none => rw [ofText_of_none hfound, Part.name_ofHead hstart]
  | some found =>
    obtain ⟨head, behind⟩ := found
    rw [ofText_of_some hfound]
    have hname' : breakDefault none .start (trimStart name) = none :=
      breakDefault_of_append hnone' (by simp)
    obtain ⟨head', rfl⟩ := exists_of_breakDefault_append hname' (by decide) hfound
    have hstart' : ':' ∉ trimStart (trimStart name) := fun hmem =>
      hstart (Text.trimStart_subset _ hmem)
    rw [Text.trim_append_cons rfl, Part.name_ofHead hstart', Text.trimStart_trimStart]

/-- No default starts in a comment: there is no code in it but blanks (`IsComment`). -/
theorem breakDefault_append_comment (hnone : breakDefault none .start last = none)
    (hout : (ScanState.start.run last).isOutside = true) (hc : IsComment comment) :
    breakDefault none .start (last ++ comment) = none := by
  obtain ⟨hvisits, -⟩ := ScanState.visits_comment (quoted_start.run last) hout hc
  have hnever := hvisits.mono fun d c (hblank : isBlank c = true) (_ : d = 0) =>
    Text.ne_of_kind (d := '=') hblank rfl
  have hcomment := breakDefault_append hnever last.getLast? []
  rw [List.append_nil] at hcomment
  rw [breakDefault_append_of_none hnone, Option.or_none, hcomment]
  rfl

/-- A comment at the end of a line that ends before the default leaves the default as it is, and at
most changes what is before it (`IsComment`). -/
theorem default_ofText_comment (hnone : breakDefault none .start last = none)
    (hblank : isBlankLine last = false) (hout : (ScanState.start.run last).isOutside = true)
    (hc : IsComment comment) (piece : List Char) :
    (Part.ofText (trim (last ++ (comment ++ '\n' :: piece)))).default
      = (Part.ofText (trim (last ++ '\n' :: piece))).default := by
  have hnone' := breakDefault_trimStart_of_none hnone
  have hout' : (ScanState.start.run (trimStart last)).isOutside = true := by
    obtain ⟨w, hw, hlast⟩ := Text.exists_eq_append_trimStart last
    rwa [hlast, ScanState.run_append, Source.run_blank hw] at hout
  have htrim (below : List Char) : trim (last ++ below) = trimEnd (trimStart last ++ below) :=
    congrArg trimEnd (Text.trimStart_append hblank below)
  rw [default_ofText, default_ofText, htrim, htrim]
  generalize trimStart last = a at hnone' hout'
  cases hpiece : isBlankLine piece with
  | true =>
    have hend : isBlankLine ('\n' :: piece) = true := hpiece
    obtain ⟨w, hw, ha⟩ := Text.exists_eq_trimEnd_append a
    have hleft : breakDefault none .start (trimEnd a) = none := by
      rw [ha] at hnone'
      refine breakDefault_of_append hnone' fun hhead => ?_
      have hblank := List.all_eq_true.1 hw '=' (List.mem_of_mem_head? hhead)
      cases hblank
    have hright := breakDefault_append_comment hnone' hout' hc.trimEnd
    rw [Text.trimEnd_append hend, ← List.append_assoc, Text.trimEnd_append hend,
      hc.trimEnd_append, hleft, hright]
  | false =>
    obtain ⟨found, hfound, hfound'⟩ :=
      exists_breakDefault quoted_start hnone' hout' hc (trimEnd piece)
    rw [Text.trimEnd_append_line hpiece, ← List.append_assoc, Text.trimEnd_append_line hpiece,
      List.append_assoc, hfound, hfound', Option.map_map, Option.map_map]
    rfl

/-- The default of a declaration is that of its part, read as a value (`Part.value`). -/
theorem Part.value_of_declaration {p : Part} {d : Declaration} (h : p.declaration = .ok d) :
    p.value = .ok d.default := by
  obtain ⟨type, -, h⟩ := bind_eq_ok.1 h
  obtain ⟨default, hdefault, h⟩ := bind_eq_ok.1 h
  cases h
  exact hdefault

/-- What a default is depends on its text and the name it is given to, which stands in the error;
the hint does not matter. -/
theorem Part.value_congr {p q : Part} (hname : p.name = q.name) (hdefault : p.default = q.default) :
    p.value = q.value := by
  rw [Part.value, Part.value, hname, hdefault]

/-- **A comment at the end of a line that ends in a hint changes at most the type** of the
parameter, provided that the pieces with it declare anything (`IsComment`). -/
theorem declarations_hint {ds' : List Declaration}
    (hnone : breakDefault none .start last = none) (hcolon : ':' ∈ last)
    (hout : (ScanState.start.run last).isOutside = true) (hc : IsComment comment)
    (h : declarations first seen (init ++ (last ++ '\n' :: piece) :: more) = .ok ds)
    (h' : declarations first seen (init ++ (last ++ (comment ++ '\n' :: piece)) :: more)
      = .ok ds') :
    ∃ i type, ds' = ds.modify i fun d => { d with type } := by
  obtain ⟨name, start, htext⟩ := exists_ofText_hint hnone hcolon
  obtain ⟨hmarker, -, hname⟩ := htext ('\n' :: piece)
  obtain ⟨hmarker', -, hname'⟩ := htext (comment ++ '\n' :: piece)
  have hblank : isBlankLine last = false :=
    Bool.eq_false_iff.2 fun hblank => nomatch List.all_eq_true.1 hblank ':' hcolon
  have hdefault := default_ofText_comment hnone hblank hout hc piece
  obtain ⟨first', seen', before, happend⟩ := exists_declarations_append h
  rw [happend] at h h'
  obtain ⟨ds₁, hds, rfl⟩ := map_eq_ok.1 h
  obtain ⟨ds₂, hds', rfl⟩ := map_eq_ok.1 h'
  obtain ⟨-, hreads⟩ := (declarations_cons_iff hmarker).1 hds
  obtain ⟨-, hreads'⟩ := (declarations_cons_iff hmarker').1 hds'
  -- The object of a method has no declaration, so nothing changes there. It is told by its name,
  -- which is the same with and without the comment.
  cases hreads with
  | receiver hreceiver hmore =>
    cases hreads' with
    | receiver _ hmore' =>
      rw [hmore] at hmore'
      cases hmore'
      exact ⟨(before ++ ds₁).length, .string, (List.modify_eq_self (Nat.le_refl _)).symm⟩
    | parameter hno =>
      rw [hname', ← hname, hreceiver] at hno
      cases hno
  | @parameter d _ hreceiver hnew hd hmore =>
    cases hreads' with
    | receiver hyes =>
      rw [hname', ← hname, hreceiver] at hyes
      cases hyes
    | @parameter d' _ _ _ hd' hmore' =>
      rw [hname', ← hname, hmore] at hmore'
      cases hmore'
      -- Name and default do not depend on the comment, so only the type is left to differ.
      have hsame : d'.default = d.default := by
        have hvalue := Part.value_of_declaration hd'
        rw [Part.value_congr (hname'.trans hname.symm) hdefault, Part.value_of_declaration hd]
          at hvalue
        exact (Except.ok.inj hvalue).symm
      have hnames : d'.name = d.name := by
        rw [Part.name_of_declaration hd, Part.name_of_declaration hd', hname, hname']
      refine ⟨before.length, d'.type, ?_⟩
      rw [List.modify_eq_take_drop, List.take_left, List.drop_left, List.modifyHead_cons, ← hnames,
      ← hsame]

/-! ## A line that ends in a name -/

/-- A comment at the end of a line that ends in or before a name becomes part of the name, as
everything up to the colon or the equals sign does. -/
theorem mem_name_ofText (hnone : breakDefault none .start last = none) (hcolon : ':' ∉ last)
    (below : List Char) : '#' ∈ (Part.ofText (trim (last ++ '#' :: below))).name := by
  have hstart : ':' ∉ trimStart last := fun hmem =>
    hcolon (Text.trimStart_subset _ hmem)
  have hnone' := breakDefault_trimStart_of_none hnone
  rw [Text.trim_append_cons rfl]
  cases hfound : breakDefault none .start (trimStart last ++ '#' :: trimEnd below) with
  | none =>
    rw [ofText_of_none hfound]
    exact Part.mem_name_ofHead hstart rfl (by decide) _ _
  | some found =>
    obtain ⟨head, behind⟩ := found
    rw [ofText_of_some hfound]
    obtain ⟨head', rfl⟩ := exists_of_breakDefault_append hnone' (by decide) hfound
    rw [Text.trim_append_cons rfl]
    refine Part.mem_name_ofHead (fun hmem => ?_) rfl (by decide) _ _
    exact hstart (Text.trimStart_subset _ hmem)

/-- **A comment at the end of a line that ends in or before a name is read as part of it**: one of
the declared names has its number sign (`IsComment`). -/
theorem declarations_name (hnone : breakDefault none .start last = none) (hcolon : ':' ∉ last)
    (hout : (ScanState.start.run last).isOutside = true) (hc : IsComment comment)
    {below : List Char}
    (h : declarations first seen (init ++ (last ++ (comment ++ below)) :: more) = .ok ds) :
    ∃ d ∈ ds, '#' ∈ d.name.toList := by
  have hnone' := breakDefault_append_comment hnone hout hc
  obtain ⟨-, w, text, hw, rfl⟩ := hc
  rw [← List.append_assoc] at hnone'
  have hblank := breakDefault_of_append hnone' (by simp)
  have hcolon' : ':' ∉ last ++ w := by
    rw [List.mem_append, not_or]
    exact ⟨hcolon, fun hmem => nomatch List.all_eq_true.1 hw ':' hmem⟩
  have hpiece : last ++ (w ++ '#' :: text ++ below) = last ++ w ++ '#' :: (text ++ below) := by
    simp
  rw [hpiece] at h
  have hmem := mem_name_ofText hblank hcolon' (text ++ below)
  have hmarker : isMarker (trim (last ++ w ++ '#' :: (text ++ below))) = false :=
    isMarker_of_mem (Text.mem_trim (List.mem_append_right _ List.mem_cons_self) rfl)
      (by decide) (by decide)
  obtain ⟨first', seen', before, happend⟩ := exists_declarations_append h
  rw [happend] at h
  obtain ⟨ds', hread, rfl⟩ := map_eq_ok.1 h
  obtain ⟨-, hreads⟩ := (declarations_cons_iff hmarker).1 hread
  -- The object of a method would have a name without a number sign.
  cases hreads with
  | receiver hreceiver =>
    rw [Bool.and_eq_true, isReceiver, Bool.or_eq_true, beq_iff_eq, beq_iff_eq] at hreceiver
    rcases hreceiver.2 with hname | hname
    · exact absurd (hname ▸ hmem) (by decide)
    · exact absurd (hname ▸ hmem) (by decide)
  | @parameter d _ _ _ hd =>
    refine ⟨d, List.mem_append_right before List.mem_cons_self, ?_⟩
    rw [Part.name_of_declaration hd, String.toList_ofList]
    exact hmem

end WorkflowTemplates.Signature
