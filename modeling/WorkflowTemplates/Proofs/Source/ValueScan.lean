import Mathlib.Data.List.TakeWhile
import WorkflowTemplates.Proofs.Outcome
import WorkflowTemplates.Proofs.Source.Literal
import WorkflowTemplates.Proofs.Source.StringScan

/-!
# Literals that are read are scanned as one token

The reader of literals and the scanner of brackets and strings agree on every text that the reader
takes. Each reader takes what the scanner passes over: a value at the depth at which it stands, and
the parts of a container inside its brackets (`readValue_passes`). So whatever follows a literal on
the next line, the scanner is in code and outside all brackets there, and no delimiter of the
literal was outside brackets and strings (`read_scans_as_token`).
-/

namespace WorkflowTemplates.Literal

open Source (ScanState isClosing isOpening isQuote splitTop)
open Source.ScanState (Before Leads Passes Visits behindString before_code isPlain leads_refl
  passes_closing passes_opening passes_plain passes_run)
open Text (isBlank isDigit isLetter isWordChar)

variable {bound d : Nat} {s t rest x : List Char} {c : Char} {l : Literal}

/-! ## Characters of values -/

/-- A character of a value that is neither special nor a delimiter is passed over, at the depth `d`
of the value. -/
theorem passes_char (h : isPlain c = true ∧ isDelimiter c = false) :
    Passes (ValueAt d) d d (c :: rest) rest :=
  passes_plain h.1 ⟨Nat.le_refl d, fun _ => h.2⟩

/-- A run of characters that are neither special nor delimiters is passed over. -/
theorem passes_chars {run : List Char} (h : ∀ c ∈ run, isPlain c = true ∧ isDelimiter c = false) :
    Passes (ValueAt d) d d (run ++ rest) rest :=
  passes_run fun c hc => ⟨(h c hc).1, Nat.le_refl d, fun _ => (h c hc).2⟩

/-- What is taken off a text while its characters are neither special nor delimiters is passed over,
as readers take words and digits. -/
theorem passes_dropWhile {kind : Char → Bool}
    (h : ∀ c, kind c = true → isPlain c = true ∧ isDelimiter c = false) (s : List Char) :
    Passes (ValueAt d) d d s (s.dropWhile kind) := by
  have hrun : Passes (ValueAt d) d d (s.takeWhile kind ++ s.dropWhile kind) (s.dropWhile kind) :=
    passes_chars fun c hc => h c (List.mem_takeWhile_imp hc)
  rwa [List.takeWhile_append_dropWhile] at hrun

/-- Between brackets any value may stand, as delimiters may stand there (`ValueAt`). -/
theorem passes_inside (h : Passes (ValueAt d) d d s rest) :
    Passes (fun e _ => d ≤ e) d d s rest :=
  h.mono fun _ _ he => he.1

/-- What is passed over up to the closing bracket is part of the value outside, behind its opening
one. -/
theorem passes_enclosed (hc : isOpening c = true) (hd : isDelimiter c = false)
    (h : Passes (fun e _ => d + 1 ≤ e) (d + 1) d s rest) :
    Passes (ValueAt d) d d (c :: s) rest :=
  (passes_opening hc ⟨Nat.le_refl d, fun _ => hd⟩).trans
    (h.mono fun e _ he => ⟨by omega, fun hed => by omega⟩)

/-! ## Between tokens -/

/-- Blanks and backslashes are neither special nor delimiters, so what is skipped is passed over. -/
theorem isPlain_of_skipped (h : (isBlank c || c == '\\') = true) :
    isPlain c = true ∧ isDelimiter c = false := by
  have hall : ∀ c ∈ Text.blanks, isPlain c = true ∧ isDelimiter c = false :=
    Text.forall_mem_of_all (by decide)
  rw [Bool.or_eq_true, beq_iff_eq] at h
  rcases h with h | rfl
  · exact hall c (Text.mem_blanks h)
  · exact ⟨rfl, rfl⟩

/-- Behind what is skipped the scanner is between tokens (`Before`), or in a comment that ends the
text. -/
def BehindSkipped (d : Nat) (rest : List Char) (s : ScanState) : Prop :=
  s.Before d rest ∨ rest = [] ∧ s = ⟨d, .comment⟩

/-- What is skipped is scanned as blanks and comments. The two halves are for a start in code and in
a comment, and the induction over the text needs both. -/
theorem skipFrom_leads (d : Nat) (text : List Char) :
    (∀ s : ScanState, s.Before d text →
        Leads (ValueAt d) s text (skipFrom false text) (BehindSkipped d (skipFrom false text)))
      ∧ Leads (ValueAt d) ⟨d, .comment⟩ text (skipFrom true text)
        (BehindSkipped d (skipFrom true text)) := by
  -- Each mode leads into the other one, at a number sign and at the end of a line.
  induction text with
  | nil => exact ⟨fun _ hs => leads_refl (.inl hs), leads_refl (.inr ⟨rfl, rfl⟩)⟩
  | cons c text ih =>
    constructor
    · intro s hs
      rw [skipFrom]
      split
      · next hskip => exact (passes_char (isPlain_of_skipped hskip) s hs).trans ih.1
      split
      · next hcomment =>
        subst hcomment
        refine .cons (fun hcode => ?_) ?_
        · rw [hs.isCode_eq] at hcode
          cases hcode
        · rw [hs.next_eq]
          exact ih.2
      · exact leads_refl (.inl hs)
    · rw [skipFrom]
      split
      · next hbreak =>
        subst hbreak
        exact .cons (fun _ => ⟨Nat.le_refl d, fun _ => rfl⟩) (ih.1 _ (before_code d text))
      · next hbreak =>
        have hnext : ScanState.next ⟨d, .comment⟩ c = ⟨d, .comment⟩ := if_neg hbreak
        refine .cons (fun hcode => absurd (beq_iff_eq.1 hcode) hbreak) ?_
        rw [hnext]
        exact ih.2

/-- What is skipped in front of a token is passed over, if there is one: a comment has then ended
(`Passes`). -/
theorem passes_skip (h : skip s ≠ []) : Passes (ValueAt d) d d s (skip s) := by
  intro st hst
  refine ((skipFrom_leads d s).1 st hst).trans ?_
  rintro st' (hst' | ⟨hnil, -⟩)
  · exact leads_refl hst'
  · exact absurd hnil h

/-- What is skipped in front of a token that is known (`c`) is passed over. -/
theorem passes_skip_cons (h : skip s = c :: t) : Passes (ValueAt d) d d s (c :: t) :=
  h ▸ passes_skip (h ▸ List.cons_ne_nil c t)

/-- Behind the end of the line the scanner is in code, if nothing but what is skipped is before it
(`Before`). -/
theorem skip_end (h : skip s = []) {st : ScanState} (hst : st.Before d s) :
    Visits (ValueAt d) st s ∧ (st.run s).next '\n' = ⟨d, .code⟩ := by
  have hleads := (skipFrom_leads d s).1 st hst
  rw [show skipFrom false s = [] from h] at hleads
  obtain ⟨read, htext, hvisits, hbehind⟩ := hleads
  rw [List.append_nil] at htext
  subst htext
  refine ⟨hvisits, ?_⟩
  rcases hbehind with hbefore | ⟨-, hcomment⟩
  · exact hbefore.toRests.next_plain rfl
  · rw [hcomment]
    rfl

/-! ## Strings -/

/-- A string opens at a quote, behind at most one prefix, which is a single letter. -/
theorem opensString?_eq_some {raw : Bool} {quote : Char}
    (h : opensString? s = some (raw, quote, t)) :
    isQuote quote = true
      ∧ (s = quote :: t ∨ ∃ c, isStringPrefix c = true ∧ s = c :: quote :: t) := by
  unfold opensString? at h
  split at h
  · cases h
  split at h
  · next hquote =>
    cases h
    exact ⟨hquote, .inl rfl⟩
  split at h
  · next hprefix =>
    split at h
    · split at h
      · next hquote =>
        cases h
        exact ⟨hquote, .inr ⟨_, hprefix, rfl⟩⟩
      · cases h
    · cases h
  · cases h

/-- The prefixes of strings are letters, so they are neither special nor delimiters. -/
theorem isPlain_of_isStringPrefix (h : isStringPrefix c = true) :
    isPlain c = true ∧ isDelimiter c = false := by
  simp only [isStringPrefix, Bool.or_eq_true, beq_iff_eq] at h
  rcases h with ((rfl | rfl) | rfl) | rfl <;> exact ⟨rfl, rfl⟩

/-- A quote without a prefix opens a string that is not raw. -/
theorem opensString?_quote {quote : Char} (h : isQuote quote = true) (t : List Char) :
    opensString? (quote :: t) = some (false, quote, t) := if_pos h

/-- A quote behind a prefix opens a string, which is raw for one letter in either case. -/
theorem opensString?_cons_quote {quote : Char} (hc : isStringPrefix c = true)
    (h : isQuote quote = true) (t : List Char) :
    opensString? (c :: quote :: t) = some (c == 'r' || c == 'R', quote, t) := by
  have hquote : ¬isQuote c = true := by
    rw [ScanState.isQuote_of_isPlain (isPlain_of_isStringPrefix hc).1]
    exact Bool.false_ne_true
  rw [opensString?, if_neg hquote, if_pos hc]
  exact if_pos h

/-- A string is passed over with its prefix and its quotes, by `readString_skips`. -/
theorem readString_passes {raw : Bool} {quote : Char}
    (hopens : opensString? s = some (raw, quote, t))
    (h : readString raw quote t = .ok (x, rest)) : Passes (ValueAt d) d d s rest := by
  obtain ⟨hquote, rfl | ⟨c, hc, rfl⟩⟩ := opensString?_eq_some hopens
  · exact (readString_skips hquote h).passes hquote
  · exact (passes_char (isPlain_of_isStringPrefix hc)).trans
      ((readString_skips hquote h).passes hquote)

/-- Strings side by side are passed over, one after the other with what is skipped between them
(`Passes`). -/
theorem readStrings_passes (h : readStrings bound s = .ok (x, rest)) :
    Passes (ValueAt d) d d s rest := by
  induction bound generalizing s x with
  | zero => cases h
  | succ bound ih =>
    rw [readStrings] at h
    cases hopens : opensString? s with
    | none =>
      rw [hopens] at h
      cases h
    | some opened =>
      obtain ⟨raw, quote, t⟩ := opened
      rw [hopens] at h
      obtain ⟨⟨y, middle⟩, hread, h⟩ := bind_eq_ok.1 h
      have hstring := readString_passes (d := d) hopens hread
      dsimp only at h
      split at h
      · next hnext =>
        obtain ⟨z, hz, -⟩ := exists_of_prepend h
        have hne : skip middle ≠ [] := by
          intro hnil
          rw [hnil] at hnext
          cases hnext
        exact (hstring.trans (passes_skip hne)).trans (ih hz)
      · cases h
        exact hstring

/-! ## Numbers -/

/-- Digits are neither special nor delimiters (`isPlain`, `isDelimiter`). -/
theorem isPlain_of_isDigit (h : isDigit c = true) : isPlain c = true ∧ isDelimiter c = false :=
  isPlain_of_isWordChar (isWordChar_of_isDigit h)

/-- The characters of a number are neither special nor delimiters, and its rest is what is behind
them. -/
theorem numeralRun_eq (afterMark : Bool) (s : List Char) :
    s = (numeralRun afterMark s).1 ++ (numeralRun afterMark s).2
      ∧ ∀ c ∈ (numeralRun afterMark s).1, isPlain c = true ∧ isDelimiter c = false := by
  induction s generalizing afterMark with
  | nil => exact ⟨rfl, nofun⟩
  | cons c s ih =>
    have htake (mark : Bool) (hc : isPlain c = true ∧ isDelimiter c = false) :
        c :: s = (c :: (numeralRun mark s).1) ++ (numeralRun mark s).2
          ∧ ∀ b ∈ c :: (numeralRun mark s).1, isPlain b = true ∧ isDelimiter b = false :=
      ⟨congrArg (c :: ·) (ih mark).1, List.forall_mem_cons.2 ⟨hc, (ih mark).2⟩⟩
    rw [numeralRun]
    split
    · next hdigit =>
      simp only [Bool.or_eq_true, beq_iff_eq] at hdigit
      refine htake false ?_
      rcases hdigit with (hdigit | rfl) | rfl
      · exact isPlain_of_isDigit hdigit
      · exact ⟨rfl, rfl⟩
      · exact ⟨rfl, rfl⟩
    split
    · next hmark =>
      simp only [Bool.or_eq_true, beq_iff_eq] at hmark
      refine htake true ?_
      rcases hmark with rfl | rfl <;> exact ⟨rfl, rfl⟩
    split
    · next hsign =>
      simp only [Bool.and_eq_true, Bool.or_eq_true, beq_iff_eq] at hsign
      refine htake false ?_
      rcases hsign.2 with rfl | rfl <;> exact ⟨rfl, rfl⟩
    · exact ⟨rfl, nofun⟩

/-- Behind its digits a number has at most an imaginary mark, which is read with it. -/
theorem ofNumeral_rest {digits : List Char} (h : ofNumeral digits s = .ok (l, rest)) :
    rest = s ∨ s = 'j' :: rest ∨ s = 'J' :: rest := by
  unfold ofNumeral at h
  dsimp only at h
  split at h
  · split at h
    · cases h
      exact .inr (.inl rfl)
    · cases h
  · split at h
    · cases h
      exact .inr (.inr rfl)
    · cases h
  · split at h <;> split at h <;> cases h <;> exact .inl rfl

/-- A radix mark is a letter, so it is neither special nor a delimiter. -/
theorem isPlain_of_radix? {radix : Nat} (h : radix? c = some radix) :
    isPlain c = true ∧ isDelimiter c = false := by
  unfold radix? at h
  simp only [Bool.or_eq_true, beq_iff_eq] at h
  split at h
  · next hc => rcases hc with rfl | rfl <;> exact ⟨rfl, rfl⟩
  split at h
  · next hc => rcases hc with rfl | rfl <;> exact ⟨rfl, rfl⟩
  split at h
  · next hc => rcases hc with rfl | rfl <;> exact ⟨rfl, rfl⟩
  · cases h

/-- Letters and digits of ASCII are characters of words, and so is the underscore. -/
theorem isWordChar_of_radixDigit (h : (isDigit c || Text.isAsciiLetter c || c == '_') = true) :
    isWordChar c = true := by
  rw [Bool.or_eq_true, Bool.or_eq_true] at h
  rcases h with (h | h) | h
  · exact isWordChar_of_isDigit h
  · have hascii : c.toNat < 0x80 := by
      simp only [Text.isAsciiLetter, Bool.or_eq_true, Bool.and_eq_true, decide_eq_true_eq] at h
      rcases h with ⟨-, hu⟩ | ⟨-, hu⟩
      · have hu : c.toNat ≤ 0x5a := hu
        omega
      · have hu : c.toNat ≤ 0x7a := hu
        omega
    rw [isWordChar, isLetter, if_pos hascii, h]
    rfl
  · rw [isWordChar, h, Bool.or_true]

/-- Letters and digits of ASCII and underscores are neither special nor delimiters, being characters
of words. -/
theorem isPlain_of_radixDigit (h : (isDigit c || Text.isAsciiLetter c || c == '_') = true) :
    isPlain c = true ∧ isDelimiter c = false :=
  isPlain_of_isWordChar (isWordChar_of_radixDigit h)

/-- A number without sign is passed over, with its radix mark or its imaginary mark (`Passes`). -/
theorem readUnsigned_passes (h : readUnsigned s = .ok (l, rest)) :
    Passes (ValueAt d) d d s rest := by
  unfold readUnsigned at h
  cases hradix : takeRadix? s with
  | some taken =>
    obtain ⟨radix, t⟩ := taken
    rw [hradix] at h
    unfold takeRadix? at hradix
    split at hradix
    · next c t' =>
      obtain ⟨radix', hc, heq⟩ := Option.map_eq_some_iff.1 hradix
      cases heq
      have hrest : rest = t.dropWhile fun c => isDigit c || Text.isAsciiLetter c || c == '_' := by
        dsimp only [readRadix] at h
        split at h
        · cases h
          rfl
        · cases h
      rw [hrest]
      exact ((passes_char ⟨rfl, rfl⟩).trans (passes_char (isPlain_of_radix? hc))).trans
        (passes_dropWhile (fun _ => isPlain_of_radixDigit) t)
    · cases hradix
  | none =>
    rw [hradix] at h
    obtain ⟨hs, hplain⟩ := numeralRun_eq false s
    dsimp only at h
    split at h
    · cases h
    · rw [hs]
      refine (passes_chars hplain).trans ?_
      -- The mark of an imaginary number belongs to the number, but is not among its digits.
      rcases ofNumeral_rest h with hrest | hrest | hrest
      · rw [hrest]
        exact ScanState.passes_refl d _
      · rw [hrest]
        exact passes_char ⟨rfl, rfl⟩
      · rw [hrest]
        exact passes_char ⟨rfl, rfl⟩

/-- A number has a character, so something is left behind its signs. -/
theorem ne_nil_of_readUnsigned (h : readUnsigned s = .ok (l, rest)) : s ≠ [] := by
  rintro rfl
  cases h

/-- Signs, and what is skipped between them, are scanned as blanks and comments in front of the
number. As in `skipFrom_leads`, the two halves are for a start in code and in a comment. -/
theorem takeSigns_leads (text : List Char) :
    (∀ (negative : Bool) (s : ScanState), s.Before d text →
        (takeSigns false negative text).2 ≠ [] →
        Leads (ValueAt d) s text (takeSigns false negative text).2
          (Before · d (takeSigns false negative text).2))
      ∧ ∀ negative : Bool, (takeSigns true negative text).2 ≠ [] →
        Leads (ValueAt d) ⟨d, .comment⟩ text (takeSigns true negative text).2
          (Before · d (takeSigns true negative text).2) := by
  -- A comment may start and end between signs, so the induction goes over both modes at once.
  induction text with
  | nil => exact ⟨fun _ _ _ h => absurd rfl h, fun _ h => absurd rfl h⟩
  | cons c text ih =>
    constructor
    · intro negative s hs
      rw [takeSigns]
      split
      · next hminus =>
        subst hminus
        exact fun h => (passes_char ⟨rfl, rfl⟩ s hs).trans fun s' hs' => ih.1 _ s' hs' h
      split
      · next hplus =>
        subst hplus
        exact fun h => (passes_char ⟨rfl, rfl⟩ s hs).trans fun s' hs' => ih.1 _ s' hs' h
      split
      · next hskip =>
        exact fun h => (passes_char (isPlain_of_skipped hskip) s hs).trans
          fun s' hs' => ih.1 _ s' hs' h
      split
      · next hcomment =>
        subst hcomment
        intro h
        refine .cons (fun hcode => ?_) ?_
        · rw [hs.isCode_eq] at hcode
          cases hcode
        · rw [hs.next_eq]
          exact ih.2 _ h
      · exact fun _ => leads_refl hs
    · intro negative
      rw [takeSigns]
      by_cases hbreak : c = '\n'
      · subst hbreak
        exact fun h => .cons (fun _ => ⟨Nat.le_refl d, fun _ => rfl⟩)
          (ih.1 _ _ (before_code d text) h)
      · have hnext : ScanState.next ⟨d, .comment⟩ c = ⟨d, .comment⟩ := if_neg hbreak
        rw [bne_iff_ne.2 hbreak]
        intro h
        refine .cons (fun hcode => absurd (beq_iff_eq.1 hcode) hbreak) ?_
        rw [hnext]
        exact ih.2 _ h

/-- A number behind signs is passed over, with its signs (`Passes`). -/
theorem readSigned_passes (h : readSigned s = .ok (l, rest)) : Passes (ValueAt d) d d s rest := by
  rw [readSigned] at h
  dsimp only at h
  cases hread : readUnsigned (takeSigns false false s).2 with
  | error e =>
    rw [hread] at h
    cases h
  | ok result =>
    obtain ⟨l', rest'⟩ := result
    rw [hread] at h
    cases h
    have hsigns : Passes (ValueAt d) d d s (takeSigns false false s).2 := fun st hst =>
      (takeSigns_leads s).1 false st hst (ne_nil_of_readUnsigned hread)
    exact hsigns.trans (readUnsigned_passes hread)

/-- A signed imaginary number behind a real one is passed over, as the second part of a complex
number (`Passes`). -/
theorem imaginaryPart?_passes {im : Binary64} (h : imaginaryPart? s = some (im, rest)) :
    Passes (ValueAt d) d d s rest := by
  unfold imaginaryPart? at h
  split at h
  · next c t hskip =>
    split at h
    · next hsign =>
      split at h
      · next z behind hread =>
        cases h
        have hplain : isPlain c = true ∧ isDelimiter c = false := by
          simp only [Bool.or_eq_true, decide_eq_true_eq] at hsign
          rcases hsign with rfl | rfl <;> exact ⟨rfl, rfl⟩
        exact (((passes_skip_cons hskip).trans (passes_char hplain)).trans
          (passes_skip (ne_nil_of_readUnsigned hread))).trans (readUnsigned_passes hread)
      · cases h
    · cases h
  · cases h

/-- A number is passed over, with its imaginary part if it has one (`Passes`). -/
theorem readNumber_passes (h : readNumber s = .ok (l, rest)) : Passes (ValueAt d) d d s rest := by
  rw [readNumber] at h
  obtain ⟨⟨l', middle⟩, hsigned, h⟩ := bind_eq_ok.1 h
  have hreal := readSigned_passes (d := d) hsigned
  dsimp only at h
  split at h
  · next him =>
    cases h
    exact hreal.trans (imaginaryPart?_passes him)
  · cases h
    exact hreal

/-! ## Values -/

/-- What is expected behind a value is passed over, with what is skipped before it (`Passes`). -/
theorem expect_passes {expected : Char} (hc : isPlain expected = true)
    (h : expect expected s = .ok rest) : Passes (fun e _ => d ≤ e) d d s rest := by
  unfold expect at h
  split at h
  · cases h
  · next c t hskip =>
    split at h
    · next heq =>
      cases h
      subst heq
      exact (passes_inside (passes_skip_cons hskip)).trans (passes_plain hc (Nat.le_refl d))
    · cases h

/-- A comma behind a part is passed over, and the bracket that closes the container is left
(`Passes`). -/
theorem behindPart_passes {close : Char} {fault : ReadFault} {comma : Bool}
    (h : behindPart close fault s = .ok (comma, rest)) : Passes (fun e _ => d ≤ e) d d s rest := by
  unfold behindPart at h
  split at h
  · cases h
  · next c t hskip =>
    have htoken := passes_inside (passes_skip_cons (d := d) hskip)
    split at h
    · next heq =>
      cases h
      subst heq
      exact htoken.trans (passes_plain rfl (Nat.le_refl d))
    split at h
    · cases h
      exact htoken
    · cases h

/-- The bracket that closes a container is passed over, with what is skipped before it (`Passes`).
-/
theorem close_passes {close : Char} (hclose : isClosing close = true)
    (h : (skip s).head? = some close) :
    Passes (fun e _ => d + 1 ≤ e) (d + 1) d s (skip s).tail := by
  obtain ⟨t, ht⟩ := List.head?_eq_some_iff.1 h
  rw [ht]
  exact (passes_inside (passes_skip_cons ht)).trans (passes_closing hclose (Nat.le_refl _))

mutual

/-- **A value is passed over** at the depth at which it stands (`Passes`). The induction is on the
bound, along the mutual recursion of the readers, with one case for each kind of value. -/
theorem readValue_passes :
    ∀ (bound : Nat) (s : List Char) {l : Literal} {rest : List Char} (d : Nat),
    readValue bound s = .ok (l, rest) → Passes (ValueAt d) d d s rest
  | 0, _, _, _, _, h => nomatch h
  | bound + 1, s, l, rest, d, h => by
    rw [readValue] at h
    split at h
    · cases h
    next c t hskip =>
    -- Behind what is skipped the cases are those of the reader, in its order: a string, a list, a
    -- tuple or a value in parentheses, a dictionary, a number, a name.
    refine (passes_skip_cons hskip).trans ?_
    split at h
    · obtain ⟨⟨text, _⟩, hread, ⟨⟩⟩ := map_eq_ok.1 h
      exact readStrings_passes hread
    split at h
    · next hc =>
      subst hc
      obtain ⟨⟨_, _⟩, hread, ⟨⟩⟩ := map_eq_ok.1 h
      exact passes_enclosed rfl rfl (readItems_passes bound ']' t d rfl hread)
    split at h
    · next hc =>
      subst hc
      obtain ⟨⟨⟨items, comma⟩, rest'⟩, hread, h⟩ := map_eq_ok.1 h
      have hitems := passes_enclosed (c := '(') rfl rfl
        (readItems_passes bound ')' t d rfl hread)
      have hrest : rest' = rest := by
        dsimp only at h
        split at h <;> exact (Prod.mk.inj h).2
      exact hrest ▸ hitems
    split at h
    · next hc =>
      subst hc
      obtain ⟨⟨entries, _⟩, hread, ⟨⟩⟩ := map_eq_ok.1 h
      exact passes_enclosed rfl rfl (readEntries_passes bound t d hread)
    split at h
    · exact readNumber_passes h
    split at h
    · exact readName_passes bound (c :: t) d h
    · cases h

/-- A name and the arguments of a call are passed over, the arguments inside their parentheses
(`Passes`). -/
theorem readName_passes :
    ∀ (bound : Nat) (s : List Char) {l : Literal} {rest : List Char} (d : Nat),
    readName bound s = .ok (l, rest) → Passes (ValueAt d) d d s rest
  | 0, _, _, _, _, h => nomatch h
  | bound + 1, s, l, rest, d, h => by
    rw [readName] at h
    refine (passes_dropWhile (fun _ => isPlain_of_isNameChar) s).trans ?_
    dsimp only at h
    split at h
    · cases h
      exact ScanState.passes_refl d _
    · next t _ hskip =>
      refine (passes_skip_cons hskip).trans ?_
      obtain ⟨⟨arguments, _⟩, hread, ⟨⟩⟩ := map_eq_ok.1 h
      exact passes_enclosed rfl rfl (readArguments_passes bound _ t d hread)
    · cases h

/-- Items are passed over with the bracket that closes them, which is open before (`Passes`). -/
theorem readItems_passes : ∀ (bound : Nat) (close : Char) (s : List Char)
    {items : List Literal × Bool} {rest : List Char} (d : Nat), isClosing close = true →
    readItems bound close s = .ok (items, rest) → Passes (fun e _ => d + 1 ≤ e) (d + 1) d s rest
  | 0, _, _, _, _, _, _, h => nomatch h
  | bound + 1, close, s, items, rest, d, hclose, h => by
    rw [readItems] at h
    split at h
    · next hhead =>
      cases h
      exact close_passes hclose hhead
    · obtain ⟨⟨l, afterValue⟩, hvalue, h⟩ := bind_eq_ok.1 h
      obtain ⟨⟨comma, afterPart⟩, hpart, h⟩ := bind_eq_ok.1 h
      obtain ⟨⟨rest', afterItems⟩, hitems, h⟩ := bind_eq_ok.1 h
      cases h
      exact ((passes_inside (readValue_passes bound s (d + 1) hvalue)).trans
        (behindPart_passes hpart)).trans (readItems_passes bound close afterPart d hclose hitems)

/-- Entries are passed over with the brace that closes them, colons and commas included (`Passes`).
-/
theorem readEntries_passes : ∀ (bound : Nat) (s : List Char)
    {entries : List (Literal × Literal)} {rest : List Char} (d : Nat),
    readEntries bound s = .ok (entries, rest) → Passes (fun e _ => d + 1 ≤ e) (d + 1) d s rest
  | 0, _, _, _, _, h => nomatch h
  | bound + 1, s, entries, rest, d, h => by
    rw [readEntries] at h
    split at h
    · next hhead =>
      cases h
      exact close_passes rfl hhead
    · obtain ⟨⟨key, afterKey⟩, hkey, h⟩ := bind_eq_ok.1 h
      obtain ⟨afterColon, hcolon, h⟩ := bind_eq_ok.1 h
      obtain ⟨⟨l, afterValue⟩, hvalue, h⟩ := bind_eq_ok.1 h
      obtain ⟨⟨comma, afterPart⟩, hpart, h⟩ := bind_eq_ok.1 h
      obtain ⟨⟨entries', afterEntries⟩, hentries, h⟩ := bind_eq_ok.1 h
      cases h
      exact ((((passes_inside (readValue_passes bound s (d + 1) hkey)).trans
        (expect_passes rfl hcolon)).trans
        (passes_inside (readValue_passes bound afterColon (d + 1) hvalue))).trans
        (behindPart_passes hpart)).trans (readEntries_passes bound afterPart d hentries)

/-- Arguments are passed over with the parenthesis that closes them, their names and equals signs
included (`Passes`). -/
theorem readArguments_passes : ∀ (bound : Nat) (name : String) (s : List Char)
    {arguments : List (String × Literal)} {rest : List Char} (d : Nat),
    readArguments bound name s = .ok (arguments, rest) →
      Passes (fun e _ => d + 1 ≤ e) (d + 1) d s rest
  | 0, _, _, _, _, _, h => nomatch h
  | bound + 1, name, s, arguments, rest, d, h => by
    rw [readArguments] at h
    split at h
    · next hhead =>
      cases h
      exact close_passes rfl hhead
    dsimp only at h
    split at h
    · next b key t hkey hequals =>
      obtain ⟨⟨l, afterValue⟩, hvalue, h⟩ := bind_eq_ok.1 h
      obtain ⟨⟨comma, afterPart⟩, hpart, h⟩ := bind_eq_ok.1 h
      obtain ⟨⟨arguments', afterArguments⟩, harguments, h⟩ := bind_eq_ok.1 h
      cases h
      have hne : skip s ≠ [] := by
        intro hnil
        rw [hnil] at hkey
        cases hkey
      have hname : Passes (ValueAt (d + 1)) (d + 1) (d + 1) s ('=' :: t) :=
        ((passes_skip hne).trans
          (passes_dropWhile (fun _ => isPlain_of_isWordChar) (skip s))).trans
          (passes_skip_cons hequals)
      exact ((((passes_inside hname).trans (passes_plain rfl (Nat.le_refl _))).trans
        (passes_inside (readValue_passes bound t (d + 1) hvalue))).trans
        (behindPart_passes hpart)).trans (readArguments_passes bound name afterPart d harguments)
    · cases h

end

/-! ## Whole literals -/

/-- A text that is a literal is scanned as one value (`ValueAt`), and behind the end of its line
there is code outside all brackets. -/
theorem scan_of_read (h : read s = .ok l) :
    Visits (ValueAt 0) .start s ∧ ScanState.start.run (s ++ ['\n']) = .start := by
  rw [read] at h
  obtain ⟨⟨l', rest⟩, hvalue, h⟩ := bind_eq_ok.1 h
  have hend : skip rest = [] := by
    dsimp only at h
    split at h
    · next hempty => exact List.isEmpty_iff.1 hempty
    · cases h
  obtain ⟨read, rfl, hvisits, hbefore⟩ := readValue_passes _ s 0 hvalue _ (before_code 0 s)
  obtain ⟨hvisits', hbreak⟩ := skip_end hend hbefore
  refine ⟨ScanState.visits_append.2 ⟨hvisits, hvisits'⟩, ?_⟩
  rw [ScanState.run_append, ScanState.run_append, ScanState.run_cons, ScanState.run_nil]
  exact hbreak

/-- **Literals are scanned as one token.** Whatever text the reader takes as a literal, a scan of it
meets no delimiter and no closing bracket outside all brackets, and behind the end of its line is in
code outside all brackets; so a comma there ends a first piece, which is the line of the literal.
Strings are closed for the scanner exactly where they are for the reader. -/
theorem read_scans_as_token :
    (∀ (s : List Char) (l : Literal), read s = .ok l →
      Visits (fun depth c => depth = 0 → isDelimiter c = false) .start s
        ∧ ScanState.start.run (s ++ ['\n']) = .start
        ∧ ∀ rest, splitTop ',' (s ++ '\n' :: ',' :: rest) = (s ++ ['\n']) :: splitTop ',' rest)
      ∧ ∀ (raw : Bool) (quote : Char) (s x rest : List Char), isQuote quote = true →
        readString raw quote s = .ok (x, rest) →
        ∀ depth, behindString ⟨depth, .opening quote⟩ s = rest := by
  refine ⟨fun s l h => ?_, fun raw quote s x rest hquote h depth =>
    (readString_skips hquote h).behindString_eq⟩
  obtain ⟨hvisits, hend⟩ := scan_of_read h
  have htop : Visits (fun depth c => depth = 0 → isDelimiter c = false) .start s :=
    hvisits.mono fun depth c hc => hc.2
  refine ⟨htop, hend, fun rest => ?_⟩
  have hbreak : '\n' ≠ ',' := by decide
  have hline : Visits (fun depth c => depth = 0 → c ≠ ',') .start (s ++ ['\n']) :=
    ScanState.visits_append.2 ⟨htop.mono fun depth c hc hd => by
      rintro rfl
      exact absurd (hc hd) (by decide), fun _ _ => hbreak, trivial⟩
  have hsplit := Source.splitFrom_append hline (',' :: rest)
  rw [hend, List.append_assoc] at hsplit
  refine hsplit.trans ?_
  rw [Source.splitFrom, if_pos (by decide), List.modifyHead_cons, List.append_nil]
  rfl

/-- A literal with a raw string, a long one over two lines, delimiters in strings and in a comment,
and signs and brackets of every kind. -/
def recipe : List Char :=
  "\x7b'k': [r'\\'', \"\"\"a\n\"b\"\"\"], \"):\": f(x=-1)\x7d # c, d".toList

/-- The recipe is scanned as one token, and a string with an escaped quote ends at its own. -/
theorem recipe_scans_as_token :
    (∃ l, read recipe = .ok l)
      ∧ Visits (fun depth c => depth = 0 → isDelimiter c = false) .start recipe
      ∧ splitTop ',' (recipe ++ '\n' :: ',' :: "x=1".toList)
        = (recipe ++ ['\n']) :: splitTop ',' "x=1".toList
      ∧ readString false '"' "a\\\"b\", c".toList = .ok ("a\"b".toList, ", c".toList)
      ∧ behindString ⟨1, .opening '"'⟩ "a\\\"b\", c".toList = ", c".toList := by
  obtain ⟨hvalues, hstrings⟩ := read_scans_as_token
  obtain ⟨l, hl⟩ : ∃ l, read recipe = .ok l := exists_eq_ok (by decide +kernel)
  obtain ⟨hvisits, -, hsplit⟩ := hvalues recipe l hl
  have hread : readString false '"' "a\\\"b\", c".toList = .ok ("a\"b".toList, ", c".toList) := rfl
  exact ⟨⟨l, hl⟩, hvisits, hsplit _, hread, hstrings _ _ _ _ _ rfl hread 1⟩

end WorkflowTemplates.Literal
