import WorkflowTemplates.Proofs.Source.Gap

/-!
# Strings and numbers in alike texts

What is read of a string is read off its own characters (`exists_isContent`), and the scanner is in
a string all along, where there are no gaps; so alike texts have the same strings
(`Alike.readString`). The characters of a number are plain and belong to a token, and between its
signs gaps are skipped; so alike texts have the same numbers (`Alike.readNumber`).
-/

namespace WorkflowTemplates.Literal

open Source (ScanState isQuote)
open Source.ScanState (Skips isPlain)
open Text (Stops isBlank isDigit isWordChar)

variable {x x' rest t : List Char} {c quote : Char} {s : ScanState} {d : Nat}

/-! ## Strings -/

/-- No quote starts a gap, so the quote of a string is in the same place in alike texts. -/
theorem isGap_of_isQuote (h : isQuote quote = true) : isGap quote = false := by
  rw [isQuote, Bool.or_eq_true, beq_iff_eq, beq_iff_eq] at h
  rcases h with rfl | rfl <;> rfl

/-- A string that opens one of two alike texts opens the other one, with the same prefix and the
same quote. -/
theorem Alike.opensString? {raw : Bool} (h : Alike .start x x')
    (hx : opensString? x = some (raw, quote, t)) :
    ∃ t', Literal.opensString? x' = some (raw, quote, t') ∧ Alike ⟨0, .opening quote⟩ t t' := by
  have hopening {u u' : List Char} (hquote : isQuote quote = true)
      (hu : Alike .start (quote :: u) u') :
      ∃ t', u' = quote :: t' ∧ Alike ⟨0, .opening quote⟩ u t' := by
    have hnext : ScanState.start.next quote = ⟨0, .opening quote⟩ := by
      rw [isQuote, Bool.or_eq_true, beq_iff_eq, beq_iff_eq] at hquote
      rcases hquote with rfl | rfl <;> rfl
    rw [← hnext]
    exact hu.cons (isGap_of_isQuote hquote)
  obtain ⟨hquote, rfl | ⟨c, hc, rfl⟩⟩ := opensString?_eq_some hx
  · obtain ⟨t', rfl, ht⟩ := hopening hquote h
    rw [opensString?_quote hquote] at hx ⊢
    cases hx
    exact ⟨t', rfl, ht⟩
  · have hgap : isGap c = false := by
      simp only [isStringPrefix, Bool.or_eq_true, beq_iff_eq] at hc
      rcases hc with ((rfl | rfl) | rfl) | rfl <;> rfl
    obtain ⟨u, rfl, hu⟩ := h.cons_code hgap (mode_next_plain rfl (isPlain_of_isStringPrefix hc).1)
    obtain ⟨t', rfl, ht⟩ := hopening hquote hu
    rw [opensString?_cons_quote hc hquote] at hx ⊢
    cases hx
    exact ⟨t', rfl, ht⟩

/-- A string opens both or neither of two alike texts (`opensString?`). -/
theorem Alike.isSome_opensString? (h : Alike .start x x') :
    (Literal.opensString? x).isSome = (Literal.opensString? x').isSome := by
  have himp {y y' : List Char} (hy : Alike .start y y')
      (hsome : (Literal.opensString? y).isSome = true) :
      (Literal.opensString? y').isSome = true := by
    obtain ⟨⟨raw, quote, t⟩, ht⟩ := Option.isSome_iff_exists.1 hsome
    obtain ⟨t', ht', -⟩ := hy.opensString? ht
    rw [ht']
    rfl
  exact Bool.eq_iff_iff.2 ⟨himp h, himp h.symm⟩

/-- What belongs to a string (`Skips`) is the same in alike texts, since there are no gaps in it. -/
theorem Alike.skips (h : Alike s x x') (hskips : Skips d s x rest) :
    ∃ token rest', x = token ++ rest ∧ x' = token ++ rest' ∧ Alike .start rest rest' := by
  induction hskips generalizing x' with
  | closed hbefore => exact ⟨[], x', rfl, rfl, h.of_before hbefore⟩
  | @inside s c text rest hin hquote _ ih =>
    have hchar : ∃ text', x' = c :: text' ∧ Alike (s.next c) text text' := by
      cases h with
      | same => exact ⟨text, rfl, .same _ _⟩
      | char h => exact ⟨_, rfl, h⟩
      | gap hout hgap =>
        -- Outside strings only the third quote of a long one belongs to a string.
        obtain ⟨depth, mode⟩ := s
        cases mode with
        | openingTwo quote =>
          obtain rfl : c = quote := beq_iff_eq.1 hin
          have hstart : (!isGap c) = false := hgap.left c text rfl
          rw [isGap_of_isQuote (hquote c rfl)] at hstart
          cases hstart
        | code | comment => cases hin
        | opening | short | shortEscape | long | longEscape => cases hout
    obtain ⟨text', rfl, htext⟩ := hchar
    obtain ⟨token, rest', rfl, rfl, hrest⟩ := ih htext
    exact ⟨c :: token, rest', rfl, rfl, hrest⟩

/-- Whether two quotes follow is decided by the next two characters, so the rest `r` behind a longer
token does not matter. -/
theorem behindTwo?_append {token : List Char} (h : 2 ≤ token.length) (quote : Char)
    (r : List Char) :
    (behindTwo? quote (token ++ r)).isSome = (behindTwo? quote token).isSome := by
  match token, h with
  | a :: b :: token, _ =>
    rw [List.cons_append, List.cons_append, behindTwo?, behindTwo?]
    split <;> rfl

/-- The content of a string is read off a token, whatever follows it; the token of a long string has
three quotes at least. -/
structure IsContent (q : Quoting) (state : StringState) (token text : List Char) : Prop where
  length : q.long = true → 3 ≤ token.length
  ne_nil : token ≠ []
  read : ∀ r, readContent q state (token ++ r) = .ok (text, r)

section
variable {q : Quoting} {state state' : StringState} {token chars text y : List Char}

/-- The token of a string decides whether a character before it closes the string, whatever stands
behind the token (`IsContent`). -/
theorem IsContent.closesAt_append (h : IsContent q state token text) (r : List Char)
    (hcloses : ClosesAt q c (token ++ r)) (rest : List Char) : ClosesAt q c (token ++ rest) := by
  refine ⟨hcloses.1, fun hlong => ?_⟩
  have htwo : 2 ≤ token.length := Nat.le_of_succ_le (h.length hlong)
  rw [behindTwo?_append htwo, ← behindTwo?_append htwo q.quote r]
  exact hcloses.2 hlong

/-- One more character in front of the content of a string, which the reader takes (`Takes`) from
`state` to `state'`. -/
theorem IsContent.takes (h : IsContent q state' token text)
    (htakes : Takes q state c (token ++ rest) chars state') :
    IsContent q state (c :: token) (chars ++ text) where
  length hlong := Nat.le_succ_of_le (h.length hlong)
  ne_nil := List.cons_ne_nil _ _
  read r := by
    have htakes' : Takes q state c (token ++ r) chars state' :=
      htakes.of_closesAt_imp fun hcloses => h.closesAt_append r hcloses rest
    rw [List.cons_append, htakes'.readContent_eq, h.read]
    rfl

/-- The quotes that close a string are the last of its characters: one, or three in a long string
(`IsContent`). -/
theorem exists_isContent_of_closesAt (h : ClosesAt q c x) :
    ∃ token, c :: x = token ++ behindClosing q x ∧ IsContent q .plain token [] := by
  have hread (r : List Char) (hr : q.long = true → r = q.quote :: q.quote :: r.drop 2) :
      readContent q .plain (c :: r) = .ok ([], behindClosing q r) := by
    refine ClosesAt.readContent_eq ⟨h.1, fun hlong => ?_⟩
    rw [hr hlong, behindTwo?, if_pos ⟨rfl, rfl⟩]
    rfl
  cases hlong : q.long with
  | false =>
    refine ⟨[c], by simp [behindClosing, hlong], by simp [hlong], List.cons_ne_nil _ _, fun r => ?_⟩
    exact (hread r (by simp [hlong])).trans (by simp [behindClosing, hlong])
  | true =>
    obtain ⟨t, ht⟩ := Option.isSome_iff_exists.1 (h.2 hlong)
    obtain rfl := behindTwo?_eq_some ht
    refine ⟨[c, q.quote, q.quote], by simp [behindClosing, hlong], fun _ => Nat.le_refl 3,
      List.cons_ne_nil _ _, fun r => ?_⟩
    exact (hread (q.quote :: q.quote :: r) fun _ => rfl).trans (by simp [behindClosing, hlong])

/-- **What is read of a string is read off its own characters**, up to its closing quotes, by
induction over the text with one case for each step of the reader (`IsContent`). -/
theorem exists_isContent (h : readContent q state x = .ok (y, rest)) :
    ∃ token, x = token ++ rest ∧ IsContent q state token y := by
  induction x generalizing state y with
  | nil => cases state <;> cases h
  | cons c x ih =>
    obtain ⟨rfl, hcloses, rfl, rfl⟩ | ⟨chars, state', y, htakes, hy, rfl⟩ := readContent_cons_eq_ok h
    · exact exists_isContent_of_closesAt hcloses
    · obtain ⟨token, rfl, hcontent⟩ := ih hy
      exact ⟨c :: token, rfl, hcontent.takes htakes⟩

/-- A string is read off its own characters if no quote is added behind them (`r.head?`): an empty
string would become the start of a long one. -/
theorem exists_token_of_readString {raw : Bool} (h : readString raw quote x = .ok (y, rest)) :
    ∃ token, x = token ++ rest ∧ ∀ r, (r.head? = some quote → rest.head? = some quote) →
      readString raw quote (token ++ r) = .ok (y, r) := by
  rw [readString] at h
  split at h
  · next t htwo =>
    obtain rfl := behindTwo?_eq_some htwo
    obtain ⟨token, rfl, hcontent⟩ := exists_isContent h
    refine ⟨quote :: quote :: token, rfl, fun r _ => ?_⟩
    have htwo' : behindTwo? quote (quote :: quote :: (token ++ r)) = some (token ++ r) :=
      if_pos ⟨rfl, rfl⟩
    rw [List.cons_append, List.cons_append, readString, htwo']
    exact hcontent.read r
  · next hnone =>
    obtain ⟨token, rfl, hcontent⟩ := exists_isContent h
    refine ⟨token, rfl, fun r hr => ?_⟩
    -- A short string does not become a long one: its token has two characters, which are no two
    -- quotes, or it is the single quote of an empty string, behind which no quote may come.
    have hnone' : behindTwo? quote (token ++ r) = none := by
      obtain ⟨a, token, rfl⟩ := List.exists_cons_of_ne_nil hcontent.ne_nil
      cases token with
      | nil =>
        cases r with
        | nil => rfl
        | cons b r =>
          refine if_neg ?_
          rintro ⟨rfl, rfl⟩
          obtain ⟨rest', rfl⟩ := List.head?_eq_some_iff.1 (hr rfl)
          exact Option.some_ne_none _ ((if_pos ⟨rfl, rfl⟩).symm.trans hnone)
      | cons b token =>
        have hlength : 2 ≤ (a :: b :: token).length := Nat.le_add_left 2 _
        have hsome := behindTwo?_append hlength quote
        rw [← Option.not_isSome_iff_eq_none, hsome, ← hsome rest, hnone]
        exact Bool.false_ne_true
    rw [readString, hnone']
    exact hcontent.read r

end

/-- **Strings are the same in alike texts**, because what is read of one is read off the token that
both have (`ReadsAlike`). -/
theorem Alike.readString {raw : Bool} (hquote : isQuote quote = true)
    (h : Alike ⟨0, .opening quote⟩ x x') :
    ReadsAlike (readString raw quote x) (readString raw quote x') := by
  intro y rest hread
  obtain ⟨token, rest', rfl, rfl, hrest⟩ := h.skips (readString_skips (d := 0) hquote hread)
  obtain ⟨token', htoken, hread'⟩ := exists_token_of_readString hread
  obtain rfl := List.append_cancel_right htoken
  refine ⟨rest', hread' rest' fun hhead => ?_, hrest⟩
  obtain ⟨r, rfl⟩ := List.head?_eq_some_iff.1 hhead
  obtain ⟨r', rfl, -⟩ := hrest.symm.cons (isGap_of_isQuote hquote)
  rfl

/-- Strings side by side are the same in alike texts, with any bound that is not lower, by induction
over the bound (`ReadsAlike`). -/
theorem Alike.readStrings {bound bound' : Nat} (h : Alike .start x x') (hle : bound ≤ bound') :
    ReadsAlike (readStrings bound x) (readStrings bound' x') := by
  induction bound generalizing bound' x x' with
  | zero => exact readsAlike_error _ _
  | succ bound ih =>
    obtain ⟨bound', rfl⟩ := Nat.exists_eq_add_of_le' (Nat.le_trans (Nat.le_add_left 1 bound) hle)
    rw [Literal.readStrings, Literal.readStrings]
    cases hopens : Literal.opensString? x with
    | none => exact readsAlike_error _ _
    | some opened =>
      obtain ⟨raw, quote, t⟩ := opened
      obtain ⟨t', hopens', ht⟩ := h.opensString? hopens
      rw [hopens']
      refine (ht.readString (opensString?_eq_some hopens).1).bind fun text rest rest' hrest => ?_
      have hskip : Alike .start (skip rest) (skip rest') := hrest.skipFrom rfl
      dsimp only
      rw [hskip.isSome_opensString?]
      split
      · exact (ih hskip (Nat.le_of_succ_le_succ hle)).map fun text' => ⟨_, fun _ => rfl⟩
      · exact readsAlike_ok text hrest

/-! ## Numbers -/

/-- The characters with which a number goes on, behind the mark of an exponent or not: behind it a
sign may stand. -/
def goesOn (afterMark : Bool) (c : Char) : Bool :=
  isDigit c || c == '_' || c == '.' || (c == 'e' || c == 'E') || afterMark && (c == '+' || c == '-')

/-- The characters of a number belong to a token, so its characters are a span (`IsTokenKind`). -/
theorem isTokenKind_goesOn (afterMark : Bool) : IsTokenKind (goesOn afterMark) := by
  intro c hc
  simp only [goesOn, Bool.or_eq_true, Bool.and_eq_true, beq_iff_eq] at hc
  rcases hc with (((hc | rfl) | rfl) | (rfl | rfl)) | ⟨-, (rfl | rfl)⟩
  · exact isTokenKind_digit c hc
  all_goals exact ⟨rfl, rfl⟩

/-- A number goes on with one character after the other, as long as `goesOn` holds. -/
theorem numeralRun_cons (afterMark : Bool) (c : Char) (x : List Char) :
    numeralRun afterMark (c :: x)
      = if goesOn afterMark c then
          (c :: (numeralRun (c == 'e' || c == 'E') x).1, (numeralRun (c == 'e' || c == 'E') x).2)
        else ([], c :: x) := by
  rw [numeralRun]
  cases hplain : isDigit c || c == '_' || c == '.' with
  | true =>
    have hmark : (c == 'e' || c == 'E') = false := by
      simp only [Bool.or_eq_true, beq_iff_eq] at hplain
      rcases hplain with (hdigit | rfl) | rfl
      · rw [beq_eq_false_iff_ne.2 (Text.ne_of_kind hdigit rfl),
          beq_eq_false_iff_ne.2 (Text.ne_of_kind hdigit rfl)]
        rfl
      · rfl
      · rfl
    rw [goesOn, hplain, hmark]
    rfl
  | false =>
    cases hmark : c == 'e' || c == 'E' with
    | true =>
      rw [goesOn, hplain, hmark]
      rfl
    | false =>
      rw [goesOn, hplain, hmark, Bool.false_or, Bool.false_or, if_neg Bool.false_ne_true,
        if_neg Bool.false_ne_true]

/-- No number goes on with a gap, so at a gap nothing is left of it (`Gap`). -/
theorem Gap.numeralRun_eq (h : Gap x x') (afterMark : Bool) :
    Literal.numeralRun afterMark x = ([], x) := by
  cases x with
  | nil => rfl
  | cons c x =>
    have hstops : goesOn afterMark c = false := h.stops (isTokenKind_goesOn afterMark) c x rfl
    rw [numeralRun_cons, hstops, if_neg Bool.false_ne_true]

/-- Alike texts start with the same characters of a number (`numeralRun`), and are alike behind
them. -/
theorem Alike.numeralRun (h : Alike s x x') (hs : s.mode = .code) (afterMark : Bool) :
    (numeralRun afterMark x).1 = (numeralRun afterMark x').1
      ∧ Alike .start (numeralRun afterMark x).2 (numeralRun afterMark x').2 := by
  induction h generalizing afterMark with
  | same => exact ⟨rfl, .same _ _⟩
  | gap _ hgap =>
    rw [hgap.numeralRun_eq, hgap.symm.numeralRun_eq]
    exact ⟨rfl, .gap rfl hgap⟩
  | @char s c x x' h ih =>
    rw [numeralRun_cons, numeralRun_cons]
    split
    · next hc =>
      obtain ⟨hrun, hrest⟩ := ih (mode_next_plain hs (isTokenKind_goesOn afterMark c hc).2) _
      exact ⟨congrArg (c :: ·) hrun, hrest⟩
    · exact ⟨rfl, .of_mode (.char h) hs⟩

/-- Whether a character marks an imaginary number, in either case. -/
def isImaginaryMark (c : Char) : Bool :=
  c == 'j' || c == 'J'

/-- A number in front of an imaginary mark is imaginary: it is read as a floating-point number, or
refused as one. -/
theorem ofNumeral_imaginary (hc : isImaginaryMark c = true) (digits t : List Char) :
    ofNumeral digits (c :: t) = match Decimal.readFloat digits with
      | .ok x => .ok (complex ⟨.zero false, x⟩, t)
      | .error e => .error (.imaginary (String.ofList digits) e) := by
  rw [isImaginaryMark, Bool.or_eq_true, beq_iff_eq, beq_iff_eq] at hc
  rcases hc with rfl | rfl <;> rfl

/-- Without such a mark a number is real, and its rest is left as it is, whatever it is. -/
theorem exists_ofNumeral_real (digits : List Char) :
    ∃ r : Except ReadFault Literal, ∀ x, Stops isImaginaryMark x →
      ofNumeral digits x = r.map (·, x) := by
  refine ⟨if digits.any fun c => c == '.' || c == 'e' || c == 'E' then
      ((Decimal.readFloat digits).mapError (.float (String.ofList digits))).map float
    else
      ((Decimal.readInteger 10 digits).mapError (.decimalInteger (String.ofList digits))).map
        integer, fun x hx => ?_⟩
  unfold ofNumeral
  dsimp only
  split
  · cases hx 'j' _ rfl
  · cases hx 'J' _ rfl
  split
  · cases Decimal.readFloat digits <;> rfl
  · cases Decimal.readInteger 10 digits <;> rfl

/-- An imaginary mark belongs to a token, so it is in the same place in alike texts. -/
theorem isTokenKind_imaginaryMark : IsTokenKind isImaginaryMark := by
  intro c hc
  rw [isImaginaryMark, Bool.or_eq_true, beq_iff_eq, beq_iff_eq] at hc
  rcases hc with rfl | rfl <;> exact ⟨rfl, rfl⟩

/-- A number has the same value in front of alike texts, imaginary or real (`ReadsAlike`). -/
theorem Alike.ofNumeral (h : Alike .start x x') (digits : List Char) :
    ReadsAlike (ofNumeral digits x) (ofNumeral digits x') := by
  have hreal (hx : Stops isImaginaryMark x) :
      ReadsAlike (Literal.ofNumeral digits x) (Literal.ofNumeral digits x') := by
    obtain ⟨r, hr⟩ := exists_ofNumeral_real digits
    rw [hr x hx, hr x' (h.stops isTokenKind_imaginaryMark hx)]
    cases r with
    | error e => exact readsAlike_error _ _
    | ok l => exact readsAlike_ok l h
  cases x with
  | nil => exact hreal (Text.stops_nil _)
  | cons c t =>
    cases hc : isImaginaryMark c with
    | false => exact hreal (Text.stops_cons hc t)
    | true =>
      obtain ⟨t', rfl, ht⟩ := h.cons_kind isTokenKind_imaginaryMark hc
      rw [ofNumeral_imaginary hc, ofNumeral_imaginary hc]
      split
      · exact readsAlike_ok _ ht
      · exact readsAlike_error _ _

/-- No radix mark starts a gap: it is a letter. -/
theorem isGap_of_radix? {radix : Nat} (h : radix? c = some radix) : isGap c = false := by
  unfold radix? at h
  simp only [Bool.or_eq_true, beq_iff_eq] at h
  split at h
  · next hc => rcases hc with rfl | rfl <;> rfl
  split at h
  · next hc => rcases hc with rfl | rfl <;> rfl
  split at h
  · next hc => rcases hc with rfl | rfl <;> rfl
  · cases h

/-- A number with a radix mark starts both or neither of two alike texts (`Alike`). -/
theorem Alike.takeRadix? {radix : Nat} (h : Alike .start x x')
    (hx : takeRadix? x = some (radix, t)) :
    ∃ t', Literal.takeRadix? x' = some (radix, t') ∧ Alike .start t t' := by
  unfold Literal.takeRadix? at hx
  split at hx
  · next c u =>
    obtain ⟨radix', hc, heq⟩ := Option.map_eq_some_iff.1 hx
    cases heq
    obtain ⟨u', rfl, hu⟩ := h.cons_code rfl rfl
    obtain ⟨t', rfl, ht⟩ := hu.cons_code (isGap_of_radix? hc)
      (mode_next_plain rfl (isPlain_of_radix? hc).1)
    refine ⟨t', ?_, ht⟩
    rw [Literal.takeRadix?, hc]
    rfl
  · cases hx

/-- The parts of a number with a radix mark are a span: digits, ASCII letters and underscores
(`IsTokenKind`). -/
theorem isTokenKind_radixDigit :
    IsTokenKind fun c => isDigit c || Text.isAsciiLetter c || c == '_' := fun _ hc =>
  ⟨isGap_of_isWordChar (isWordChar_of_radixDigit hc), (isPlain_of_radixDigit hc).1⟩

/-- **Numbers without sign are the same in alike texts**, with a radix mark, as real or as imaginary
ones (`ReadsAlike`). -/
theorem Alike.readUnsigned (h : Alike .start x x') :
    ReadsAlike (readUnsigned x) (readUnsigned x') := by
  rw [Literal.readUnsigned, Literal.readUnsigned]
  cases hx : Literal.takeRadix? x with
  | some taken =>
    obtain ⟨radix, t⟩ := taken
    obtain ⟨t', hx', ht⟩ := h.takeRadix? hx
    rw [hx']
    obtain ⟨htake, hdrop⟩ := ht.span isTokenKind_radixDigit rfl
    dsimp only [readRadix]
    rw [htake]
    split
    · exact readsAlike_ok _ hdrop
    · exact readsAlike_error _ _
  | none =>
    have hx' : Literal.takeRadix? x' = none := by
      cases hx' : Literal.takeRadix? x' with
      | none => rfl
      | some taken =>
        obtain ⟨t, ht, -⟩ := h.symm.takeRadix? hx'
        rw [hx] at ht
        cases ht
    obtain ⟨hrun, hrest⟩ := h.numeralRun rfl false
    rw [hx']
    dsimp only
    rw [hrun]
    split
    · exact readsAlike_error _ _
    · exact hrest.ofNumeral _

/-- Behind signs goes on what is skipped in front of them (`skipFrom`), as without it, so gaps
between signs do not matter. -/
theorem takeSigns_skipFrom (comment negative : Bool) (x : List Char) :
    takeSigns comment negative x = takeSigns false negative (skipFrom comment x) := by
  induction x generalizing comment with
  | nil => cases comment <;> rfl
  | cons c x ih =>
    cases comment with
    | false =>
      rw [skipFrom]
      split
      · next hskip =>
        have hne {b : Char} (hb : (isBlank b || b == '\\') = false) : c ≠ b := by
          rintro rfl
          exact Bool.false_ne_true (hb.symm.trans hskip)
        rw [takeSigns, if_neg (hne rfl), if_neg (hne rfl), if_pos hskip]
        exact ih false
      next hskip =>
      split
      · next hcomment =>
        subst hcomment
        exact ih true
      · rfl
    | true =>
      rw [skipFrom, takeSigns]
      by_cases hbreak : c = '\n'
      · subst hbreak
        exact ih false
      · rw [if_neg hbreak, bne_iff_ne.2 hbreak]
        exact ih true

/-- Signs are the same in alike texts: what they come to is, and the texts behind them are alike. -/
theorem Alike.takeSigns (h : Alike s x x') {comment : Bool} (hs : s.mode = skipMode comment)
    (negative : Bool) :
    (takeSigns comment negative x).1 = (takeSigns comment negative x').1
      ∧ Alike .start (takeSigns comment negative x).2 (takeSigns comment negative x').2 := by
  -- At a gap both texts are skipped alike; a common character is taken or skipped in both, and may
  -- open or end a comment.
  induction h generalizing comment negative with
  | same => exact ⟨rfl, .same _ _⟩
  | gap _ hgap =>
    rw [takeSigns_skipFrom, hgap.skip comment, ← takeSigns_skipFrom]
    exact ⟨rfl, .same _ _⟩
  | @char s c x x' h ih =>
    obtain ⟨d, m⟩ := s
    cases (hs : m = _)
    cases comment with
    | false =>
      rw [Literal.takeSigns, Literal.takeSigns]
      split
      · next hminus =>
        subst hminus
        exact ih rfl _
      split
      · next hplus =>
        subst hplus
        exact ih rfl _
      split
      · next hskip => exact ih (mode_next_plain rfl (isPlain_of_skipped hskip).1) _
      split
      · next hcomment =>
        subst hcomment
        exact ih rfl _
      · exact ⟨rfl, .of_mode (.char h) rfl⟩
    | true =>
      rw [Literal.takeSigns, Literal.takeSigns]
      by_cases hbreak : c = '\n'
      · subst hbreak
        exact ih rfl _
      · have hnext : ScanState.next ⟨d, .comment⟩ c = ⟨d, .comment⟩ := if_neg hbreak
        have hmode : (ScanState.next ⟨d, .comment⟩ c).mode = skipMode true :=
          congrArg ScanState.mode hnext
        rw [bne_iff_ne.2 hbreak]
        exact ih hmode _

/-- Numbers behind signs are the same in alike texts, as their signs and their digits are
(`ReadsAlike`). -/
theorem Alike.readSigned (h : Alike .start x x') : ReadsAlike (readSigned x) (readSigned x') := by
  have hstart : ScanState.start.mode = skipMode false := rfl
  obtain ⟨hsign, hrest⟩ := h.takeSigns hstart false
  rw [Literal.readSigned, Literal.readSigned]
  dsimp only
  rw [hsign]
  exact hrest.readUnsigned.map fun l =>
    ⟨if (Literal.takeSigns false false x').1 then negated l else l, fun _ => rfl⟩

/-- An imaginary part that follows one of two alike texts follows the other one, and the same value
is read for it (`Alike`). -/
theorem Alike.imaginaryPart? (h : Alike .start x x') {im : Binary64}
    (hx : imaginaryPart? x = some (im, rest)) :
    ∃ rest', Literal.imaginaryPart? x' = some (im, rest') ∧ Alike .start rest rest' := by
  unfold Literal.imaginaryPart? at hx
  split at hx
  · next c t hskip =>
    split at hx
    · next hsign =>
      split at hx
      · next z behind hread =>
        cases hx
        have hcode : (ScanState.start.next c).mode = .code := by
          simp only [Bool.or_eq_true, decide_eq_true_eq] at hsign
          rcases hsign with rfl | rfl <;> rfl
        obtain ⟨t', hskip', ht⟩ := h.token_code hskip hcode
        obtain ⟨behind', hread', hbehind⟩ := (ht.skipFrom rfl).readUnsigned _ _ hread
        refine ⟨behind', ?_, hbehind⟩
        unfold Literal.imaginaryPart?
        rw [hskip']
        dsimp only
        rw [if_pos hsign, show Literal.readUnsigned (skip t') = _ from hread']
      · cases hx
    · cases hx
  · cases hx

/-- **Numbers are the same in alike texts**, be they real or complex (`ReadsAlike`). -/
theorem Alike.readNumber (h : Alike .start x x') : ReadsAlike (readNumber x) (readNumber x') := by
  rw [Literal.readNumber, Literal.readNumber]
  refine h.readSigned.bind fun l middle middle' hmiddle => ?_
  dsimp only
  cases hreal : realPart? l with
  | none => exact readsAlike_ok l hmiddle
  | some re =>
    cases him : Literal.imaginaryPart? middle with
    | some part =>
      obtain ⟨im, behind⟩ := part
      obtain ⟨behind', him', hbehind⟩ := hmiddle.imaginaryPart? him
      rw [him']
      exact readsAlike_ok _ hbehind
    | none =>
      have him' : Literal.imaginaryPart? middle' = none := by
        cases him' : Literal.imaginaryPart? middle' with
        | none => rfl
        | some part =>
          obtain ⟨behind, hbehind, -⟩ := hmiddle.symm.imaginaryPart? him'
          rw [him] at hbehind
          cases hbehind
      rw [him']
      exact readsAlike_ok l hmiddle

end WorkflowTemplates.Literal
