import WorkflowTemplates.Proofs.Outcome
import WorkflowTemplates.Proofs.Source.Signature
import WorkflowTemplates.Source.Function

/-!
# Functions that are read

What the source of a function says when it is read, phase by phase: the lines of the definition are
found, its head is cut off, the head has a signature and the lines behind it have a body
(`Function.ofLines_eq_ok`, `Function.ofParts_eq_ok`). The name of the function is a word and the
names of its parameters are distinct (`Function.accepted`).
-/

namespace WorkflowTemplates

/-- What holds of every signature that is read: the name is a word, and no two parameters share a
name. -/
structure Signature.Accepted (s : Signature) : Prop where
  word : Signature.isFunctionName s.name.toList = true
  distinct : (s.parameters.map (·.name)).Nodup

/-- A name that is a word (`isFunctionName`) is not blank, so it passes the check for the name of a
template. -/
theorem Signature.Accepted.isBlankLine_name {s : Signature} (h : s.Accepted) :
    Text.isBlankLine s.name.toList = false := by
  obtain ⟨c, name, hname⟩ :=
    List.exists_cons_of_ne_nil (Signature.toList_ne_nil_of_isFunctionName h.word)
  have hc : c ∈ s.name.toList := hname ▸ List.mem_cons_self
  have hblank := Text.isBlank_of_isWordChar (Signature.isWordChar_of_mem_functionName h.word c hc)
  rw [Text.isBlankLine, hname, List.all_cons, hblank, Bool.false_and]

namespace Signature

variable {first : Bool} {seen : List String} {pieces : List (List Char)} {ds : List Declaration}

/-- A declaration has the name of its part, whatever hint and default the part has. -/
theorem Part.name_of_declaration {p : Part} {d : Declaration} (h : p.declaration = .ok d) :
    d.name = String.ofList p.name := by
  obtain ⟨type, -, h⟩ := bind_eq_ok.1 h
  obtain ⟨default, -, h⟩ := bind_eq_ok.1 h
  cases h
  rfl

/-- The declarations of a parameter list have distinct names, and none of those in `seen`, which is
what the invariant of the recursion over the pieces has to say. -/
theorem declarations_distinct (h : declarations first seen pieces = .ok ds) :
    (∀ d ∈ ds, d.name ∉ seen) ∧ (ds.map (·.name)).Nodup := by
  induction pieces generalizing first seen ds with
  | nil =>
    cases h
    exact ⟨List.forall_mem_nil _, .nil⟩
  | cons piece rest ih =>
    rw [declarations] at h
    split at h
    · exact ih h
    split at h
    · cases h
    dsimp only at h
    split at h
    · exact ih h
    split at h
    · cases h
    next hnew =>
    obtain ⟨d, hd, h⟩ := bind_eq_ok.1 h
    obtain ⟨ds, hds, h⟩ := bind_eq_ok.1 h
    cases h
    rw [← Part.name_of_declaration hd] at hnew hds
    obtain ⟨hseen, hdistinct⟩ := ih hds
    refine ⟨?_, List.nodup_cons.2 ⟨?_, hdistinct⟩⟩
    · intro e he
      rcases List.mem_cons.1 he with rfl | he
      · exact hnew
      · exact fun hm => hseen e he (List.mem_cons_of_mem _ hm)
    · intro hm
      obtain ⟨e, he, hname⟩ := List.mem_map.1 hm
      exact hseen e he (hname ▸ List.mem_cons_self)

/-- A signature that is read has a word for its name, and parameters of distinct names
(`Signature.Accepted`). -/
theorem accepted_of_ofHead {head : List Char} {s : Signature} (h : ofHead head = .ok s) :
    s.Accepted := by
  unfold ofHead at h
  split at h
  · cases h
  next before behind _ =>
  dsimp only at h
  split at h
  · cases h
  next hname =>
  split at h
  · cases h
  obtain ⟨ds, hds, h⟩ := bind_eq_ok.1 h
  cases h
  exact ⟨by simpa using hname, (declarations_distinct hds).2⟩

end Signature

namespace Function

/-- The function of a signature and a body: its documentation is read off the first statement of the
body, its returned value off the last one. -/
def ofBody (s : Signature) (body : List Char) : Function where
  name := s.name
  parameters := s.parameters
  docstring := String.ofList (((Source.statements body).head?.map Source.docstring).getD [])
  body := String.ofList body
  returnValue := (Source.statements body).getLast?.bind Source.returned?

variable {lines : List (List Char)} {f : Function}

/-- A head and the lines from the definition on define a function exactly if the head has a
signature and the lines behind it have a body; the function is then made of these two (`ofBody`). -/
theorem ofParts_eq_ok {line indent : Nat} {head : List Char} :
    ofParts line indent head lines = .ok f ↔
      ∃ signature body, Signature.ofHead head = .ok signature
        ∧ Source.body? indent (lines.drop (Text.countBreaks head + 1)) = some body
        ∧ f = ofBody signature body := by
  unfold ofParts
  split
  · next hs => simp [hs]
  next signature hs =>
  dsimp only
  split
  · next hb => simp [hs, hb]
  next body hb =>
  simp only [hs, hb, Except.ok.injEq, Option.some.injEq, exists_and_left, exists_eq_left']
  exact eq_comm

/-- Lines define a function exactly if a definition starts on one of them (`findDefinition?`), its
head ends on a line that holds nothing more, and the head and the lines from the definition on
define the function. -/
theorem ofLines_eq_ok :
    ofLines lines = .ok f ↔
      ∃ before first rest head behind, findDefinition? lines = some (before, first, rest)
        ∧ Signature.breakHead false .start (Text.joinLines (first :: rest)) = some (head, behind)
        ∧ Source.isBlankOrComment (Text.firstLine behind) = true
        ∧ ofParts (before + 1) (Text.indentWidth first) head (first :: rest) = .ok f := by
  unfold ofLines
  split
  · next hd => simp [hd]
  next before first rest hd =>
  dsimp only
  split
  · next hh => simp [hd, hh]
  next head behind hh =>
  constructor
  · intro h
    split at h
    · next hb => exact ⟨before, first, rest, head, behind, hd, hh, hb, h⟩
    · cases h
  · rintro ⟨_, _, _, _, _, hd', hh', hb, h⟩
    rw [hd] at hd'
    cases hd'
    rw [hh] at hh'
    cases hh'
    rw [if_pos hb, h]

/-- **What a function that is read guarantees**: its name is a word, and the names of its parameters
are distinct (`Signature.Accepted`). -/
theorem accepted {source : String} (h : read source = .ok f) :
    (Signature.mk f.name f.parameters).Accepted := by
  obtain ⟨_, _, _, _, _, -, -, -, h⟩ := ofLines_eq_ok.1 h
  obtain ⟨signature, body, hs, -, rfl⟩ := ofParts_eq_ok.1 h
  exact Signature.accepted_of_ofHead hs

end Function

end WorkflowTemplates
