import WorkflowTemplates.Proofs.Source.Comment
import WorkflowTemplates.Proofs.Source.ValueScan

/-!
# Blanks and comments between tokens

Two texts may differ in what is skipped between two tokens (`Gap`). Then they are alike (`Alike`):
the same up to a place outside strings where only one of them may have blanks or a comment. Each
reader of literals takes the same off the front of alike texts and leaves alike rests
(`ReadsAlike`). So blanks and comments between tokens do not change what literal a text is
(`read_of_alike`), nor does a comment at the end of one of its lines (`read_comment`).
-/

namespace WorkflowTemplates.Literal

open Source (Mode ScanState isQuote)
open Source.ScanState (Before Skips isPlain)
open Text (Stops isBlank isDigit isWordChar)

variable {x x' rest t : List Char} {c quote : Char} {s : ScanState} {d : Nat}

/-! ## Gaps -/

/-- The characters with which what is skipped between tokens may start, apart from a backslash:
blanks, and the number sign of a comment. -/
def isGap (c : Char) : Bool :=
  isBlank c || c == '#'

/-- Two texts that start no token and are the same behind what is skipped, whether or not a comment
is open before them. -/
structure Gap (x x' : List Char) : Prop where
  left : Stops (!isGap ·) x
  right : Stops (!isGap ·) x'
  skip : ∀ comment, skipFrom comment x = skipFrom comment x'

/-- Gaps have no direction: either text may be the one with more to skip (`Gap`). -/
theorem Gap.symm (h : Gap x x') : Gap x' x :=
  ⟨h.right, h.left, fun comment => (h.skip comment).symm⟩

/-- Two texts that are scanned from a state on are the same up to a place outside strings, and from
there on but for a gap (`Gap`). There may be no such place, and then they are the same. -/
inductive Alike : ScanState → List Char → List Char → Prop
  | same (s : ScanState) (x : List Char) : Alike s x x
  | gap {s : ScanState} {x x' : List Char} : s.isOutside = true → Gap x x' → Alike s x x'
  | char {s : ScanState} {c : Char} {x x' : List Char} :
    Alike (s.next c) x x' → Alike s (c :: x) (c :: x')

/-- Texts are alike in both directions, by induction up to the gap (`Alike`). -/
theorem Alike.symm (h : Alike s x x') : Alike s x' x := by
  induction h with
  | same s x => exact .same s x
  | gap hout hgap => exact .gap hout hgap.symm
  | char _ ih => exact .char ih

/-- Behind the same text `u` texts are alike if they are so from the state behind it on. -/
theorem Alike.append (u : List Char) (h : Alike (s.run u) x x') : Alike s (u ++ x) (u ++ x') := by
  induction u generalizing s with
  | nil => exact h
  | cons c u ih => exact .char (ih h)

/-- The mode behind a character depends on the mode before it only, not on the brackets that are
open. -/
theorem mode_next_of_mode {s' : ScanState} (h : s.mode = s'.mode) (c : Char) :
    (s.next c).mode = (s'.next c).mode := by
  obtain ⟨d, m⟩ := s
  obtain ⟨d', m'⟩ := s'
  cases (h : m = m')
  exact ScanState.mode_next d d' m c

/-- Whether texts are alike does not depend on the brackets that are open, but on the mode alone
(`Alike`). -/
theorem Alike.of_mode {s' : ScanState} (h : Alike s x x') (hmode : s.mode = s'.mode) :
    Alike s' x x' := by
  induction h generalizing s' with
  | same s x => exact .same s' x
  | gap hout hgap =>
    rw [ScanState.isOutside, hmode] at hout
    exact .gap hout hgap
  | char _ ih => exact .char (ih (mode_next_of_mode hmode _))

/-- Texts that are alike between tokens (`Before`) are so from the start on. -/
theorem Alike.of_before (h : Alike s x x') (hs : s.Before d x) : Alike .start x x' := by
  cases h with
  | same => exact .same _ _
  | gap _ hgap => exact .gap rfl hgap
  | char h =>
    rw [hs.next_eq] at h
    exact .char (h.of_mode (ScanState.mode_next d 0 .code _))

/-- A text that is alike to one that starts with a token starts with its first character, so the gap
is not there. -/
theorem Alike.cons (h : Alike s (c :: x) x') (hc : isGap c = false) :
    ∃ t, x' = c :: t ∧ Alike (s.next c) x t := by
  cases h with
  | same => exact ⟨x, rfl, .same _ _⟩
  | gap _ hgap =>
    have hgap : (!isGap c) = false := hgap.left c x rfl
    rw [hc] at hgap
    cases hgap
  | char h => exact ⟨_, rfl, h⟩

/-- Texts that are alike and start with the same character are alike behind it from the start on, if
code goes on behind that character (`hcode`). -/
theorem Alike.cons_code (h : Alike .start (c :: x) x') (hc : isGap c = false)
    (hcode : (ScanState.start.next c).mode = .code) : ∃ t, x' = c :: t ∧ Alike .start x t := by
  obtain ⟨t, rfl, ht⟩ := h.cons hc
  exact ⟨t, rfl, ht.of_mode hcode⟩

/-- A plain character (`isPlain`) is one behind which code goes on: it opens neither a string nor a
comment. -/
theorem mode_next_plain (hs : s.mode = .code) (hc : isPlain c = true) :
    (s.next c).mode = .code := by
  obtain ⟨d, m⟩ := s
  cases (hs : m = .code)
  exact congrArg ScanState.mode (ScanState.nextInCode_plain hc d)

/-! ## Between tokens -/

/-- The mode of the scanner where a comment is open, or none is, as the reader of gaps keeps it in a
flag. -/
def skipMode (comment : Bool) : Mode :=
  if comment then .comment else .code

/-- Behind what is skipped alike texts are alike, by cases: either the gap is still ahead, or it is
skipped with the rest. -/
theorem Alike.skipFrom (h : Alike s x x') {comment : Bool} (hs : s.mode = skipMode comment) :
    Alike .start (skipFrom comment x) (skipFrom comment x') := by
  induction h generalizing comment with
  | same => exact .same _ _
  | gap _ hgap =>
    rw [hgap.skip comment]
    exact .same _ _
  | @char s c x x' h ih =>
    obtain ⟨d, m⟩ := s
    cases (hs : m = _)
    cases comment with
    | false =>
      rw [Literal.skipFrom, Literal.skipFrom]
      split
      · next hskip => exact ih (mode_next_plain rfl (isPlain_of_skipped hskip).1)
      split
      · next hcomment =>
        subst hcomment
        exact ih rfl
      · exact .char (h.of_mode (ScanState.mode_next d 0 .code c))
    | true =>
      rw [Literal.skipFrom, Literal.skipFrom]
      split
      · next hbreak =>
        subst hbreak
        exact ih rfl
      · next hbreak =>
        have hnext : ScanState.next ⟨d, .comment⟩ c = ⟨d, .comment⟩ := if_neg hbreak
        exact ih (congrArg ScanState.mode hnext)

/-- What is left of a text by `skipFrom` starts with neither a blank nor a comment. -/
theorem isGap_of_skipFrom {comment : Bool} (h : skipFrom comment x = c :: t) : isGap c = false := by
  induction x generalizing comment with
  | nil => cases comment <;> cases h
  | cons b x ih =>
    cases comment with
    | false =>
      rw [skipFrom] at h
      split at h
      · exact ih h
      next hskip =>
      split at h
      · exact ih h
      next hcomment =>
      cases h
      rw [Bool.or_eq_true, not_or] at hskip
      rw [isGap, Bool.eq_false_iff.2 hskip.1, Bool.false_or]
      exact beq_eq_false_iff_ne.2 hcomment
    | true =>
      rw [skipFrom] at h
      split at h <;> exact ih h

/-- Nothing is skipped where nothing is to be skipped, so `skip` is idempotent. -/
theorem skip_skip (x : List Char) : skip (skip x) = skip x := by
  have hskip (comment : Bool) : skipFrom false (skipFrom comment x) = skipFrom comment x := by
    induction x generalizing comment with
    | nil => cases comment <;> rfl
    | cons c x ih =>
      cases comment with
      | false =>
        rw [skipFrom]
        split
        · exact ih false
        next hskip =>
        split
        · exact ih true
        next hcomment => rw [skipFrom, if_neg hskip, if_neg hcomment]
      | true =>
        rw [skipFrom]
        split
        · exact ih false
        · exact ih true
  exact hskip false

/-- Alike texts have the same next token, or at least its first character `c`. -/
theorem Alike.token (h : Alike .start x x') (hx : skip x = c :: t) :
    ∃ t', skip x' = c :: t' ∧ Alike (ScanState.start.next c) t t' := by
  have hskip : Alike .start (skip x) (skip x') := h.skipFrom rfl
  rw [hx] at hskip
  exact hskip.cons (isGap_of_skipFrom hx)

/-- The texts behind the next token are alike, if it is a single character behind which code goes on
(`Alike`). -/
theorem Alike.token_code (h : Alike .start x x') (hx : skip x = c :: t)
    (hcode : (ScanState.start.next c).mode = .code) :
    ∃ t', skip x' = c :: t' ∧ Alike .start t t' := by
  obtain ⟨t', hx', ht⟩ := h.token hx
  exact ⟨t', hx', ht.of_mode hcode⟩

/-- Alike texts end together: what is left of both may be skipped (`Alike`). -/
theorem Alike.skip_eq_nil (h : Alike .start x x') (hx : skip x = []) : skip x' = [] := by
  cases hx' : skip x' with
  | nil => rfl
  | cons c t =>
    obtain ⟨t', ht', -⟩ := h.symm.token hx'
    rw [hx] at ht'
    cases ht'

/-- Alike texts have the same first character behind what is skipped, or both have none (`Alike`).
-/
theorem Alike.head?_skip (h : Alike .start x x') : (skip x).head? = (skip x').head? := by
  cases hx : skip x with
  | nil => rw [h.skip_eq_nil hx]
  | cons c t =>
    obtain ⟨t', ht', -⟩ := h.token hx
    rw [ht']
    rfl

/-! ## Readers -/

/-- Where the first computation reads a value, the second one reads it too, and leaves an alike rest
(`Alike`). Nothing is said where the first one fails, so the relation has a direction. -/
def ReadsAlike {α : Type} (r r' : Except ReadFault (α × List Char)) : Prop :=
  ∀ a rest, r = .ok (a, rest) → ∃ rest', r' = .ok (a, rest') ∧ Alike .start rest rest'

section
variable {α β : Type} {r r' : Except ReadFault (α × List Char)}

/-- The same value with alike rests is read alike, which is where readers end (`ReadsAlike`). -/
theorem readsAlike_ok (a : α) (h : Alike .start x x') : ReadsAlike (.ok (a, x)) (.ok (a, x')) := by
  rintro _ _ ⟨⟩
  exact ⟨x', rfl, h⟩

/-- Where no value is read there is none to be the same, so an error is read alike to anything
(`ReadsAlike`). -/
theorem readsAlike_error (fault : ReadFault) (r' : Except ReadFault (α × List Char)) :
    ReadsAlike (.error fault) r' := nofun

/-- A value that does not depend on the rest (`hf`) may be computed from the one that is read. -/
theorem ReadsAlike.map (h : ReadsAlike r r') {f : α × List Char → β × List Char}
    (hf : ∀ a, ∃ b, ∀ rest, f (a, rest) = (b, rest)) : ReadsAlike (r.map f) (r'.map f) := by
  rintro b rest hr
  cases r with
  | error e => cases hr
  | ok result =>
    obtain ⟨a, middle⟩ := result
    obtain ⟨middle', hr', halike⟩ := h a middle rfl
    obtain ⟨b', hb'⟩ := hf a
    have hfound : f (a, middle) = (b, rest) := Except.ok.inj hr
    rw [hb'] at hfound
    cases hfound
    refine ⟨middle', ?_, halike⟩
    rw [hr', Except.map, hb']

/-- One reader behind another one reads alike, if both do (`ReadsAlike`). -/
theorem ReadsAlike.bind (h : ReadsAlike r r')
    {f f' : α × List Char → Except ReadFault (β × List Char)}
    (hf : ∀ a rest rest', Alike .start rest rest' → ReadsAlike (f (a, rest)) (f' (a, rest'))) :
    ReadsAlike (r >>= f) (r' >>= f') := by
  rintro b rest hr
  obtain ⟨⟨a, middle⟩, hmiddle, hrest⟩ := bind_eq_ok.1 hr
  obtain ⟨middle', hr', halike⟩ := h a middle hmiddle
  obtain ⟨rest', hf', halike'⟩ := hf a middle middle' halike b rest hrest
  exact ⟨rest', bind_eq_ok.2 ⟨_, hr', hf'⟩, halike'⟩

end

/-! ## Spans -/

/-- A kind of characters that belong to tokens and are plain, so that a span of them is neither cut
by a gap nor by the scanner. -/
def IsTokenKind (kind : Char → Bool) : Prop :=
  ∀ c, kind c = true → isGap c = false ∧ isPlain c = true

/-- Where a gap may start there is no character of such a kind, so a span has ended (`IsTokenKind`).
-/
theorem Gap.stops {kind : Char → Bool} (hkind : IsTokenKind kind) (h : Gap x x') :
    Stops kind x := by
  rintro c t rfl
  have hgap : (!isGap c) = false := h.left c t rfl
  cases hc : kind c with
  | false => rfl
  | true =>
    rw [(hkind c hc).1] at hgap
    cases hgap

/-- Alike texts start with the same span of such a kind, and are alike behind it, by induction over
the first one (`IsTokenKind`). -/
theorem Alike.span {kind : Char → Bool} (hkind : IsTokenKind kind) (h : Alike s x x')
    (hs : s.mode = .code) :
    x.takeWhile kind = x'.takeWhile kind ∧ Alike .start (x.dropWhile kind) (x'.dropWhile kind) := by
  induction h with
  | same => exact ⟨rfl, .same _ _⟩
  | gap _ hgap =>
    have hstops := hgap.stops hkind
    have hstops' := hgap.symm.stops hkind
    rw [hstops.takeWhile, hstops'.takeWhile, hstops.dropWhile, hstops'.dropWhile]
    exact ⟨rfl, .gap rfl hgap⟩
  | @char s c x x' h ih =>
    cases hc : kind c with
    | false =>
      rw [List.takeWhile_cons, List.takeWhile_cons, List.dropWhile_cons, List.dropWhile_cons, hc]
      exact ⟨rfl, .of_mode (.char h) hs⟩
    | true =>
      rw [List.takeWhile_cons, List.takeWhile_cons, List.dropWhile_cons, List.dropWhile_cons, hc]
      obtain ⟨htake, hdrop⟩ := ih (mode_next_plain hs (hkind c hc).2)
      exact ⟨congrArg (c :: ·) htake, hdrop⟩

/-- A text that does not start with such a kind is alike to none that does, as the first characters
are the same or a gap (`IsTokenKind`). -/
theorem Alike.stops {kind : Char → Bool} (hkind : IsTokenKind kind) (h : Alike .start x x')
    (hx : Stops kind x) : Stops kind x' := by
  rintro c t rfl
  cases hc : kind c with
  | false => rfl
  | true =>
    obtain ⟨t', rfl, -⟩ := h.symm.cons (hkind c hc).1
    exact hc.symm.trans (hx c t' rfl)

/-- A character of such a kind starts both of two alike texts if it starts one, and the texts behind
it are alike (`IsTokenKind`). -/
theorem Alike.cons_kind {kind : Char → Bool} (hkind : IsTokenKind kind)
    (h : Alike .start (c :: x) x') (hc : kind c = true) :
    ∃ t, x' = c :: t ∧ Alike .start x t :=
  h.cons_code (hkind c hc).1 (mode_next_plain rfl (hkind c hc).2)

/-- A character of words belongs to a token: it is neither a blank nor a number sign. -/
theorem isGap_of_isWordChar (h : isWordChar c = true) : isGap c = false := by
  rw [isGap, Text.isBlank_of_isWordChar h, Bool.false_or]
  exact beq_eq_false_iff_ne.2 (Text.ne_of_kind h rfl)

/-- Words are spans of a kind of characters (`isWordChar`). -/
theorem isTokenKind_word : IsTokenKind isWordChar := fun _ hc =>
  ⟨isGap_of_isWordChar hc, (isPlain_of_isWordChar hc).1⟩

/-- Names are spans of a kind of characters (`isNameChar`), in which dots stand, too. -/
theorem isTokenKind_name : IsTokenKind isNameChar := by
  intro c hc
  refine ⟨?_, (isPlain_of_isNameChar hc).1⟩
  rw [isNameChar, Bool.or_eq_true, beq_iff_eq] at hc
  rcases hc with hc | rfl
  · exact isGap_of_isWordChar hc
  · rfl

/-- Digits are spans of a kind of characters (`isDigit`). -/
theorem isTokenKind_digit : IsTokenKind isDigit := fun c hc =>
  isTokenKind_word c (isWordChar_of_isDigit hc)

end WorkflowTemplates.Literal
