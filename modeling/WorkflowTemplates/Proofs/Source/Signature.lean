import WorkflowTemplates.Proofs.Source.Default
import WorkflowTemplates.Proofs.Source.Hint
import WorkflowTemplates.Source.Signature

/-!
# Written signatures

A parameter is written as its name, perhaps a colon and a type hint, and perhaps an equals sign and
a default (`Written`). The scanners find each of these where it was written, because hints and
defaults scan as single tokens: the parts of a parameter (`ofText_text`), the parameters of a list
(`splitTop_parametersText`), and the list behind the name of the function (`ofHead_headText`).
-/

namespace WorkflowTemplates.Signature

open Literal (ValueAt isDelimiter)
open Source (ScanState isClosing isQuote)
open Source.ScanState (Scans Visits isPlain)
open Text (Stops Trimmed isBlank isWordChar trim)

/-! ## Looking for a colon and for an equals sign -/

section
variable {s : ScanState} {w : List Char}

/-- A head does not end in a text along which no colon stands outside brackets (`Visits`), so its
end is looked for behind. -/
theorem breakHead_append (h : Visits (fun d c => d = 0 → c ≠ ':') s w) (seen : Bool)
    (r : List Char) :
    ∃ seen', (seen = true → seen' = true) ∧
      breakHead seen s (w ++ r)
        = (breakHead seen' (s.run w) r).map fun (head, behind) => (w ++ head, behind) := by
  induction w generalizing s seen with
  | nil => exact ⟨seen, id, by cases hr : breakHead seen s r <;> simp [hr]⟩
  | cons c w ih =>
    obtain ⟨seen', hseen, hbreak⟩ := ih h.2 (seen || (s.isCode c && c == '('))
    refine ⟨seen', fun hs => hseen (by rw [hs, Bool.true_or]), ?_⟩
    have hcolon : ¬((seen || (s.isCode c && c == '(')) && s.isTop c && c == ':') = true := by
      simp only [ScanState.isTop, Bool.and_eq_true, beq_iff_eq]
      rintro ⟨⟨-, hdepth, hcode⟩, hc⟩
      exact h.1 hcode hdepth hc
    rw [List.cons_append, breakHead]
    dsimp only
    rw [if_neg hcolon, hbreak, ScanState.run_cons, Option.map_map]
    rfl

/-- No default starts in a text along which no equals sign stands outside brackets (`Visits`), so it
is looked for behind. -/
theorem breakDefault_append (h : Visits (fun d c => d = 0 → c ≠ '=') s w) (before : Option Char)
    (r : List Char) :
    breakDefault before s (w ++ r)
      = (breakDefault (w.getLast?.or before) (s.run w) r).map
          fun (head, behind) => (w ++ head, behind) := by
  induction w generalizing s before with
  | nil =>
    rw [List.getLast?_nil, Option.none_or]
    cases hr : breakDefault before s r <;> simp [hr]
  | cons c w ih =>
    have hequals (compares : Bool) : ¬(s.isTop c && c == '=' && compares) = true := by
      simp only [ScanState.isTop, Bool.and_eq_true, beq_iff_eq]
      rintro ⟨⟨⟨hdepth, hcode⟩, hc⟩, -⟩
      exact h.1 hcode hdepth hc
    have hlast : w.getLast?.or (some c) = (c :: w).getLast?.or before := by
      cases w with
      | nil => rfl
      | cons b w => rw [List.getLast?_cons_cons, List.getLast?_cons]; rfl
    rw [List.cons_append, breakDefault]
    dsimp only
    rw [if_neg (hequals _), ih h.2, ScanState.run_cons, hlast, Option.map_map]
    rfl

/-- A text is cut at a character that does not stand before, with what is `behind` it. -/
theorem cutAt_append {c : Char} (h : ∀ b ∈ w, b ≠ c) (behind : List Char) :
    cutAt c (w ++ c :: behind) = some (w, behind) := by
  have hstops : Stops (· != c) (c :: behind) := Text.stops_cons (by simp) behind
  have hrun : ∀ b ∈ w, (b != c) = true := fun b hb => bne_iff_ne.2 (h b hb)
  rw [cutAt, hstops.dropWhile_run hrun, hstops.takeWhile_run hrun]

/-- A text without a character is not cut at it (`cutAt`). -/
theorem cutAt_eq_none {c : Char} (h : ∀ b ∈ w, b ≠ c) : cutAt c w = none := by
  have hdrop := (Text.stops_nil (· != c)).dropWhile_run fun b hb => bne_iff_ne.2 (h b hb)
  rw [List.append_nil] at hdrop
  rw [cutAt, hdrop]

end

/-! ## Written parameters -/

/-- A parameter as it is written: its name, and perhaps a type hint and a default, as in a signature
of Python. -/
structure Written where
  name : String
  hint : Option TypeHint.Written
  default : Option Literal

namespace Written

/-- The text of a parameter before its default: the name, and the hint behind a colon. -/
def head (p : Written) : List Char :=
  match p.hint with
  | none => p.name.toList
  | some hint => p.name.toList ++ ':' :: ' ' :: hint.text

/-- The text of a parameter, with its default behind an equals sign between spaces. -/
def text (p : Written) : List Char :=
  match p.default with
  | none => p.head
  | some l => p.head ++ ' ' :: '=' :: ' ' :: l.written

/-- The name of a parameter is a word, its hint is well-formed, and its default is data
(`Literal.IsData`). -/
structure WellFormed (p : Written) : Prop where
  name_ne_nil : p.name.toList ≠ []
  name_word : ∀ c ∈ p.name.toList, isWordChar c = true
  hint : ∀ hint, p.hint = some hint → hint.WellFormed
  default : ∀ l, p.default = some l → l.IsData

/-- A parameter declares its name, the type that its hint is read as, a string without a hint and
the closed set of its texts for a closed set; and the default that its literal stands for
(`Default.ofLiteral`), none if it has no literal or one that stands for no value. -/
structure Declares (p : Written) (d : Declaration) : Prop where
  name : d.name = p.name
  type : match p.hint with
    | none => d.type = .string
    | some hint => TypeHint.read hint.text = .ok d.type
  choices : ∀ values, p.hint = some (.choices values) → d.type = .choice values
  default : match p.default with
    | none => d.default = none
    | some l => Default.ofLiteral l = .ok d.default
  absent : p.default = some .nothing → d.default = none

/-- What a scan meets in a parameter before its default: no fewer brackets are ever open than before
it, and where no more are, nothing stands that ends the parameter or starts the default. -/
def HeadAt (depth d : Nat) (c : Char) : Prop :=
  depth ≤ d ∧ (d = depth → isClosing c = false ∧ c ≠ ',' ∧ c ≠ '=')

/-- What a scan meets in a parameter: as `HeadAt`, but equals signs may stand there. -/
def PieceAt (depth d : Nat) (c : Char) : Prop :=
  depth ≤ d ∧ (d = depth → isClosing c = false ∧ c ≠ ',')

/-- What is met in a value (`ValueAt`) may be met in a parameter before its default, as a hint is.
-/
theorem headAt_of_valueAt {depth d : Nat} {c : Char} (h : ValueAt depth d c) :
    HeadAt depth d c := by
  refine ⟨h.1, fun hd => ?_⟩
  have hc := h.2 hd
  simp only [isDelimiter, Bool.or_eq_false_iff, beq_eq_false_iff_ne] at hc
  exact ⟨hc.2, hc.1.1.1.1, hc.1.2⟩

/-- What is met before the default (`HeadAt`) may be met in a parameter. -/
theorem pieceAt_of_headAt {depth d : Nat} {c : Char} (h : HeadAt depth d c) :
    PieceAt depth d c :=
  ⟨h.1, fun hd => ⟨(h.2 hd).1, (h.2 hd).2.1⟩⟩

section
variable {p : Written}

/-- A parameter before its default has a character, that of its name. -/
theorem head_ne_nil (h : p.WellFormed) : p.head ≠ [] := by
  unfold head
  split
  · exact h.name_ne_nil
  · exact List.append_ne_nil_of_left_ne_nil h.name_ne_nil _

/-- A parameter before its default neither starts nor ends with a blank (`Trimmed`). -/
theorem trimmed_head (h : p.WellFormed) : Trimmed p.head := by
  have hname := Text.trimmed_word h.name_word
  unfold head
  split
  · exact hname
  · next hint hhint =>
    have hwritten := h.hint hint hhint
    have haround := hname.around (TypeHint.Written.trimmed_text hwritten) h.name_ne_nil
      (TypeHint.Written.text_ne_nil hwritten) [':', ' ']
    rwa [List.append_assoc] at haround

/-- A parameter neither starts nor ends with a blank (`Trimmed`), so it is found as it was written.
-/
theorem trimmed_text (h : p.WellFormed) : Trimmed p.text := by
  unfold text
  split
  · exact trimmed_head h
  · next l hl =>
    have hl := (h.default l hl).readable
    have haround := (trimmed_head h).around (Literal.written_trimmed hl) (head_ne_nil h)
      (Literal.written_ne_nil hl) [' ', '=', ' ']
    rwa [List.append_assoc] at haround

/-- The characters of the name of a parameter are plain, and none of them ends the name. -/
theorem isPlain_of_mem_name (h : p.WellFormed) (d : Nat) :
    ∀ c ∈ p.name.toList, isPlain c = true ∧ HeadAt d d c := fun c hc =>
  have hplain := Literal.isPlain_of_isWordChar (h.name_word c hc)
  ⟨hplain.1, headAt_of_valueAt ⟨Nat.le_refl d, fun _ => hplain.2⟩⟩

/-- A parameter scans up to its default (`HeadAt`): name and hint are single tokens. -/
theorem scans_head (h : p.WellFormed) (d : Nat) : Scans (HeadAt d) d p.head := by
  have hname := ScanState.scans_plain (isPlain_of_mem_name h d)
  unfold head
  split
  · exact hname
  · next hint hhint =>
    have hhint := (TypeHint.Written.scans_text d (h.hint hint hhint)).mono
      fun e c (hc : ValueAt d e c) => headAt_of_valueAt hc
    exact hname.append_cons rfl ⟨Nat.le_refl d, fun _ => by decide⟩
      (hhint.cons rfl ⟨Nat.le_refl d, fun _ => by decide⟩)

/-- A parameter scans (`PieceAt`), with its default as one token behind the equals sign. -/
theorem scans_text (h : p.WellFormed) (d : Nat) : Scans (PieceAt d) d p.text := by
  have hhead := (scans_head h d).mono fun e c => pieceAt_of_headAt
  have hequals : PieceAt d d '=' := ⟨Nat.le_refl d, fun _ => by decide⟩
  have hblank : PieceAt d d ' ' := ⟨Nat.le_refl d, fun _ => by decide⟩
  unfold text
  split
  · exact hhead
  · next l hl =>
    have hl := (Literal.scans_written l (h.default l hl).readable d).mono fun e c hv =>
      pieceAt_of_headAt (headAt_of_valueAt hv)
    exact hhead.append_cons rfl hblank ((hl.cons rfl hblank).cons rfl hequals)

/-! ## The parts of a parameter -/

/-- No default is found in a parameter before its default (`breakDefault`). -/
theorem breakDefault_head (h : p.WellFormed) : breakDefault none .start p.head = none := by
  have hvisits : Visits (fun d c => d = 0 → c ≠ '=') .start p.head :=
    (scans_head h 0).visits.mono fun d c hc hd => (hc.2 hd).2.2
  have hbreak := breakDefault_append hvisits none []
  rwa [List.append_nil] at hbreak

/-- The default of a parameter is found behind its equals sign, whatever it is. -/
theorem breakDefault_text (h : p.WellFormed) (behind : List Char) :
    breakDefault none .start (p.head ++ ' ' :: '=' :: ' ' :: behind)
      = some (p.head ++ [' '], ' ' :: behind) := by
  have hscans : Scans (HeadAt 0) 0 (p.head ++ [' ']) :=
    (scans_head h 0).append_cons rfl ⟨Nat.le_refl 0, fun _ => by decide⟩ ScanState.scans_nil
  have hvisits : Visits (fun d c => d = 0 → c ≠ '=') .start (p.head ++ [' ']) :=
    hscans.visits.mono fun d c hc hd => (hc.2 hd).2.2
  have hrests : (ScanState.start.run (p.head ++ [' '])).Rests 0 := hscans.rests
  have htop : (ScanState.start.run (p.head ++ [' '])).isTop '=' = true := by
    rw [ScanState.isTop, hrests.depth, hrests.isCode_eq]
    rfl
  have htext : p.head ++ ' ' :: '=' :: ' ' :: behind = p.head ++ [' '] ++ '=' :: ' ' :: behind := by
    rw [List.append_assoc]
    rfl
  rw [htext, breakDefault_append hvisits, List.getLast?_concat, breakDefault, htop]
  dsimp only
  rw [if_pos (by rfl), Option.map_some]
  dsimp only
  rw [List.append_nil]

/-- The name and the hint of a parameter are found before its default, by the first colon there. -/
theorem cutAt_head (h : p.WellFormed) (default : Option (List Char)) :
    (match cutAt ':' p.head with
      | some (name, hint) => ⟨trim name, some (trim hint), default⟩
      | none => ⟨p.head, none, default⟩ : Part)
      = ⟨p.name.toList, p.hint.map (·.text), default⟩ := by
  have hname := Text.trimmed_word h.name_word
  have hcolon : ∀ c ∈ p.name.toList, c ≠ ':' := fun c hc =>
    Text.ne_of_kind (h.name_word c hc) rfl
  unfold head
  cases hhint : p.hint with
  | none =>
    dsimp only
    rw [cutAt_eq_none hcolon]
    rfl
  | some hint =>
    dsimp only
    rw [cutAt_append hcolon]
    dsimp only
    rw [hname.trim_eq, Text.trim_blank_cons,
      (TypeHint.Written.trimmed_text (h.hint hint hhint)).trim_eq]
    rfl

/-- **The parts of a parameter are found as they were written**: its name, the text of its hint, and
the text of its default. -/
theorem ofText_text (h : p.WellFormed) :
    Part.ofText p.text = ⟨p.name.toList, p.hint.map (·.text), p.default.map (·.written)⟩ := by
  unfold Part.ofText text
  cases hdefault : p.default with
  | none =>
    dsimp only
    rw [breakDefault_head h]
    exact cutAt_head h none
  | some l =>
    have hl := Literal.written_trimmed (h.default l hdefault).readable
    dsimp only
    rw [breakDefault_text h]
    dsimp only
    rw [(trimmed_head h).trim_append_blank (head_ne_nil h), Text.trim_blank_cons, hl.trim_eq]
    exact cutAt_head h (some l.written)

/-! ## Declarations -/

/-- A well-formed hint is read, and a closed set as the closed set of its texts, in their order. -/
theorem read_hint : ∀ {hint : TypeHint.Written}, hint.WellFormed → ∃ t,
    TypeHint.read hint.text = .ok t ∧ ∀ values, hint = .choices values → t = .choice values
  | .name s, h => ⟨_, TypeHint.read_name h.1 h.2, nofun⟩
  | .choices values, _ => by
    refine ⟨_, TypeHint.read_choices values, ?_⟩
    rintro _ ⟨⟩
    rfl

/-- The parts of a parameter declare it (`Declares`): hint and default are both read. -/
theorem declaration_eq_ok (h : p.WellFormed) :
    ∃ d, (Part.ofText p.text).declaration = .ok d ∧ p.Declares d := by
  have htype : ∃ t, (Part.ofText p.text).type = .ok t
      ∧ (match p.hint with
        | none => t = .string
        | some hint => TypeHint.read hint.text = .ok t)
      ∧ ∀ values, p.hint = some (.choices values) → t = .choice values := by
    rw [ofText_text h, Part.type]
    cases hhint : p.hint with
    | none => exact ⟨_, rfl, rfl, nofun⟩
    | some hint =>
      obtain ⟨t, ht, hchoices⟩ := read_hint (h.hint hint hhint)
      refine ⟨t, ?_, ht, fun values hv => hchoices values (Option.some.inj hv)⟩
      dsimp only [Option.map_some]
      rw [ht]
      rfl
  have hvalue : ∃ v, (Part.ofText p.text).value = .ok v
      ∧ (match p.default with
        | none => v = none
        | some l => Default.ofLiteral l = .ok v)
      ∧ (p.default = some .nothing → v = none) := by
    rw [ofText_text h, Part.value]
    cases hdefault : p.default with
    | none => exact ⟨_, rfl, rfl, nofun⟩
    | some l =>
      obtain ⟨v, hv, hread⟩ := Default.read_data (h.default l hdefault)
      refine ⟨v, ?_, hv, ?_⟩
      · dsimp only [Option.map_some]
        rw [hread]
        rfl
      · rintro ⟨⟩
        cases hv
        rfl
  obtain ⟨t, ht, hhint, hchoices⟩ := htype
  obtain ⟨v, hv, hdefault, habsent⟩ := hvalue
  have hname : String.ofList (Part.ofText p.text).name = p.name := by
    rw [ofText_text h, String.ofList_toList]
  exact ⟨⟨_, t, v⟩, bind_eq_ok.2 ⟨t, ht, bind_eq_ok.2 ⟨v, hv, rfl⟩⟩,
    ⟨hname, hhint, hchoices, hdefault, habsent⟩⟩

/-- A parameter starts with a character of its name, so it is no marker. -/
theorem text_start (h : p.WellFormed) : ∃ c t, p.text = c :: t ∧ isWordChar c = true := by
  obtain ⟨c, t, hc⟩ := List.exists_cons_of_ne_nil h.name_ne_nil
  have hword := h.name_word c (hc ▸ List.mem_cons_self)
  unfold text head
  rw [hc]
  split
  · split
    · exact ⟨c, _, rfl, hword⟩
    · exact ⟨c, _, rfl, hword⟩
  · split
    · exact ⟨c, _, rfl, hword⟩
    · exact ⟨c, _, rfl, hword⟩

end

end Written

/-- A piece that is a parameter is declared, and the pieces behind it are, with its name among those
seen (`Declares`). -/
theorem declarations_cons {p : Written} (h : p.WellFormed) {piece : List Char}
    (hpiece : trim piece = p.text) {first : Bool} {seen : List String}
    (hfirst : (first && isReceiver p.name.toList) = false) (hseen : p.name ∉ seen)
    {rest : List (List Char)} {ds : List Declaration}
    (hrest : declarations false (p.name :: seen) rest = .ok ds) :
    ∃ d, declarations first seen (piece :: rest) = .ok (d :: ds) ∧ p.Declares d := by
  obtain ⟨d, hd, hdeclares⟩ := Written.declaration_eq_ok h
  refine ⟨d, ?_, hdeclares⟩
  obtain ⟨c, t, hc, hword⟩ := Written.text_start h
  have hmarker : isMarker p.text = false := by
    have hstar : c ≠ '*' := Text.ne_of_kind hword rfl
    have hslash : c ≠ '/' := Text.ne_of_kind hword rfl
    simp [isMarker, hc, hstar, hslash]
  have hvariadic : ¬p.text.head? = some '*' := by
    rw [hc, List.head?_cons, Option.some.injEq]
    exact Text.ne_of_kind hword rfl
  have hname : (Part.ofText p.text).name = p.name.toList := by rw [Written.ofText_text h]
  rw [declarations, hpiece]
  dsimp only
  rw [hmarker, if_neg Bool.false_ne_true, if_neg hvariadic, hname, hfirst,
    if_neg Bool.false_ne_true, String.ofList_toList, if_neg hseen]
  exact bind_eq_ok.2 ⟨d, hd, bind_eq_ok.2 ⟨ds, hrest, rfl⟩⟩

/-- Pieces that are parameters of distinct names are declared one by one, by induction over them;
`hfirst` says that the first one is no object of a method. -/
theorem declarations_eq_ok {ps : List Written} (h : ∀ p ∈ ps, p.WellFormed)
    (hdistinct : (ps.map (·.name)).Nodup) {pieces : List (List Char)}
    (hpieces : pieces.map trim = ps.map (·.text)) {first : Bool} {seen : List String}
    (hfirst : ∀ p, ps.head? = some p → (first && isReceiver p.name.toList) = false)
    (hseen : ∀ p ∈ ps, p.name ∉ seen) :
    ∃ ds, declarations first seen pieces = .ok ds ∧ List.Forall₂ Written.Declares ps ds := by
  induction ps generalizing pieces first seen with
  | nil =>
    rw [List.map_nil, List.map_eq_nil_iff] at hpieces
    rw [hpieces]
    exact ⟨[], rfl, .nil⟩
  | cons p ps ih =>
    obtain ⟨piece, rest, rfl, hpiece, hrest⟩ := List.map_eq_cons_iff.1 hpieces
    rw [List.map_cons, List.nodup_cons] at hdistinct
    have hseen' : ∀ q ∈ ps, q.name ∉ p.name :: seen := by
      intro q hq hmem
      rcases List.mem_cons.1 hmem with heq | hmem
      · exact hdistinct.1 (heq ▸ List.mem_map_of_mem hq)
      · exact hseen q (List.mem_cons_of_mem _ hq) hmem
    have hlater : ∀ q, ps.head? = some q → (false && isReceiver q.name.toList) = false :=
      fun _ _ => Bool.false_and _
    obtain ⟨ds, hds, hall⟩ := ih (fun q hq => h q (List.mem_cons_of_mem _ hq)) hdistinct.2 hrest
      hlater hseen'
    obtain ⟨d, hd, hdeclares⟩ := declarations_cons (h p List.mem_cons_self) hpiece
      (hfirst p rfl) (hseen p List.mem_cons_self) hds
    exact ⟨d :: ds, hd, .cons hdeclares hall⟩

/-! ## Parameter lists -/

/-- The text of a parameter list, with a comma and a space between parameters. -/
def parametersText : List Written → List Char
  | [] => []
  | [p] => p.text
  | p :: ps => p.text ++ ',' :: ' ' :: parametersText ps

/-- What a scan meets in a parameter list: no fewer brackets are ever open than before it, and where
no more are, none closes. -/
def ListAt (depth d : Nat) (c : Char) : Prop :=
  depth ≤ d ∧ (d = depth → isClosing c = false)

/-- A parameter list scans (`ListAt`), by induction over the parameters. -/
theorem scans_parametersText {ps : List Written} (h : ∀ p ∈ ps, p.WellFormed) (d : Nat) :
    Scans (ListAt d) d (parametersText ps) := by
  induction ps with
  | nil => exact ScanState.scans_nil
  | cons p ps ih =>
    have hp := (Written.scans_text (h p List.mem_cons_self) d).mono
      fun e c (hc : Written.PieceAt d e c) => (⟨hc.1, fun hd => (hc.2 hd).1⟩ : ListAt d e c)
    cases ps with
    | nil => exact hp
    | cons q ps =>
      have hrest := ih fun q hq => h q (List.mem_cons_of_mem _ hq)
      have hcomma : ListAt d d ',' := ⟨Nat.le_refl d, fun _ => rfl⟩
      have hblank : ListAt d d ' ' := ⟨Nat.le_refl d, fun _ => rfl⟩
      exact hp.append_cons rfl hcomma (hrest.cons rfl hblank)

/-- Blanks and a parameter scan as one piece: no comma stands outside its brackets. -/
theorem scans_piece {p : Written} (h : p.WellFormed) {lead : List Char}
    (hlead : ∀ c ∈ lead, c = ' ') : Scans (fun d c => d = 0 → c ≠ ',') 0 (lead ++ p.text) := by
  refine .plain_append (fun c hc => ?_) ?_
  · rw [hlead c hc]
    exact ⟨rfl, fun _ => by decide⟩
  · exact (Written.scans_text h 0).mono fun d c hc hd => (hc.2 hd).2

/-- A parameter list ends at the parenthesis behind it, and at none inside of it. -/
theorem breakAt_parametersText {ps : List Written} (h : ∀ p ∈ ps, p.WellFormed) :
    Source.breakAt (fun depth c => depth == 0 && c == ')') .start (parametersText ps ++ [')'])
      = some (parametersText ps, []) := by
  have hscans := scans_parametersText h 0
  have hvisits : Visits (fun d c => (d == 0 && c == ')') = false) .start (parametersText ps) := by
    refine hscans.visits.mono ?_
    intro d c hc
    rw [Bool.and_eq_false_iff, beq_eq_false_iff_ne, beq_eq_false_iff_ne]
    rcases Nat.eq_zero_or_pos d with hd | hd
    · exact .inr (Text.ne_of_kind rfl (hc.2 hd)).symm
    · exact .inl (by omega)
  have hrests : (ScanState.start.run (parametersText ps)).Rests 0 := hscans.rests
  rw [Source.breakAt_append hvisits, Source.breakAt, hrests.isCode_eq, hrests.depth,
    if_pos (by decide), Option.map_some]
  dsimp only
  rw [List.append_nil]

/-- The pieces of a parameter list are its parameters, each but the first behind a blank; before the
first one there may be blanks (`lead`), which the induction needs. -/
theorem splitFrom_parametersText {p : Written} {ps : List Written}
    (h : ∀ q ∈ p :: ps, q.WellFormed) (lead : List Char) (hlead : ∀ c ∈ lead, c = ' ') :
    Source.splitFrom ',' .start (lead ++ parametersText (p :: ps))
      = (lead ++ p.text) :: ps.map (' ' :: ·.text) := by
  have hpiece := scans_piece (h p List.mem_cons_self) hlead
  induction ps generalizing p lead with
  | nil => exact Source.splitFrom_piece hpiece.visits
  | cons q ps ih =>
    have hq : ∀ r ∈ q :: ps, r.WellFormed := fun r hr => h r (List.mem_cons_of_mem _ hr)
    have hblank : ∀ c ∈ [' '], c = ' ' := fun c hc => List.mem_singleton.1 hc
    have hsplit := ih hq [' '] hblank (scans_piece (hq q List.mem_cons_self) hblank)
    rw [parametersText, ← List.append_assoc, Source.splitFrom_cons rfl hpiece]
    · exact congrArg _ hsplit
    · exact List.cons_ne_nil q ps

/-- **A parameter list is cut into its parameters**, once the pieces are trimmed. -/
theorem splitTop_parametersText {ps : List Written} (h : ∀ p ∈ ps, p.WellFormed)
    (hps : ps ≠ []) :
    (Source.splitTop ',' (parametersText ps)).map trim = ps.map (·.text) := by
  obtain ⟨p, ps, rfl⟩ := List.exists_cons_of_ne_nil hps
  have hsplit := splitFrom_parametersText h [] nofun
  rw [Source.splitTop]
  rw [List.nil_append, List.nil_append] at hsplit
  rw [hsplit, List.map_cons, List.map_cons, List.map_map,
    (Written.trimmed_text (h p List.mem_cons_self)).trim_eq]
  refine congrArg _ (List.map_congr_left fun q hq => ?_)
  have hq := h q (List.mem_cons_of_mem _ hq)
  exact (Text.trim_blank_cons q.text).trans (Written.trimmed_text hq).trim_eq

/-- The parameters of a written list are declared, each by its own declaration (`Declares`). -/
theorem declarations_parametersText {ps : List Written} (h : ∀ p ∈ ps, p.WellFormed)
    (hdistinct : (ps.map (·.name)).Nodup)
    (hfirst : ∀ p, ps.head? = some p → isReceiver p.name.toList = false) :
    ∃ ds, declarations true [] (Source.splitTop ',' (parametersText ps)) = .ok ds
      ∧ List.Forall₂ Written.Declares ps ds := by
  cases ps with
  | nil => exact ⟨[], rfl, .nil⟩
  | cons p ps =>
    exact declarations_eq_ok h hdistinct (splitTop_parametersText h (List.cons_ne_nil p ps))
      (fun q hq => (Bool.true_and _).trans (hfirst q hq)) (fun _ _ => List.not_mem_nil)

/-! ## Heads -/

/-- The head of a function definition, up to the parenthesis that closes its parameter list. -/
def headText (name : String) (ps : List Written) : List Char :=
  'd' :: 'e' :: 'f' :: ' ' :: (name.toList ++ '(' :: (parametersText ps ++ [')']))

/-- A word is not dropped from a text that does not start with it, whatever the `bound`. -/
theorem dropWord_eq {word s : List Char} (h : word.isPrefixOf s = false) (bound : Nat) :
    dropWord word bound s = s := by
  cases bound with
  | zero => rfl
  | succ bound => rw [dropWord, h, if_neg Bool.false_ne_true]

/-- The name of a function has a character, as it is a word. -/
theorem toList_ne_nil_of_isFunctionName {name : List Char} (h : isFunctionName name = true) :
    name ≠ [] := by
  rintro rfl
  cases h

/-- The characters of the name of a function are word characters, the first one being no digit. -/
theorem isWordChar_of_mem_functionName {name : List Char} (h : isFunctionName name = true) :
    ∀ c ∈ name, isWordChar c = true := by
  rw [isFunctionName, Bool.and_eq_true, List.all_eq_true] at h
  exact h.2

/-- The name of a function stands behind `def`, with its parameter list behind it. -/
theorem behindDef_headText {name : String} (hname : isFunctionName name.toList = true)
    (ps : List Written) :
    behindDef (headText name ps) = name.toList ++ '(' :: (parametersText ps ++ [')']) := by
  obtain ⟨c, t, hc⟩ := List.exists_cons_of_ne_nil (toList_ne_nil_of_isFunctionName hname)
  have hblank : isBlank c = false :=
    Text.isBlank_of_isWordChar (isWordChar_of_mem_functionName hname c (hc ▸ List.mem_cons_self))
  have hstart (s : List Char) : Text.trimStart ('d' :: s) = 'd' :: s :=
    (Text.stops_cons rfl s).dropWhile
  have hname' (s : List Char) : Text.trimStart (' ' :: (name.toList ++ s)) = name.toList ++ s := by
    rw [hc]
    exact (Text.stops_cons hblank (t ++ s)).dropWhile
  rw [behindDef, headText, hstart, dropWord_eq (by rfl), hstart]
  exact hname' _

/-- **A head is read as it was written**: its name, and a declaration for each parameter
(`Declares`). -/
theorem ofHead_headText {name : String} (hname : isFunctionName name.toList = true)
    {ps : List Written} (h : ∀ p ∈ ps, p.WellFormed) (hdistinct : (ps.map (·.name)).Nodup)
    (hfirst : ∀ p, ps.head? = some p → isReceiver p.name.toList = false) :
    ∃ ds, ofHead (headText name ps) = .ok ⟨name, ds⟩ ∧ List.Forall₂ Written.Declares ps ds := by
  obtain ⟨ds, hds, hall⟩ := declarations_parametersText h hdistinct hfirst
  refine ⟨ds, ?_, hall⟩
  have hword := isWordChar_of_mem_functionName hname
  have hopen : ∀ c ∈ name.toList, c ≠ '(' := fun c hc => Text.ne_of_kind (hword c hc) rfl
  have hcut := cutAt_append hopen (parametersText ps ++ [')'])
  have htrim := Text.trimmed_word hword
  have hbreak := breakAt_parametersText h
  rw [ofHead, behindDef_headText hname, hcut]
  dsimp only
  rw [htrim.trim_eq, hname, Bool.not_true, if_neg Bool.false_ne_true, hbreak, String.ofList_toList]
  exact bind_eq_ok.2 ⟨ds, hds, rfl⟩

end WorkflowTemplates.Signature
