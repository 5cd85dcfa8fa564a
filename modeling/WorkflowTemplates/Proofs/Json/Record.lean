import Mathlib.Data.List.Pairwise
import WorkflowTemplates.Json.Decode
import WorkflowTemplates.Proofs.Json.Memory
import WorkflowTemplates.Proofs.Names
import WorkflowTemplates.Proofs.Outcome

/-!
# Reading records in any order

The members of an object stand in the order of their names, the fields of a record in an order of
their own. A record type is `Regular` if its fields have distinct names and store what they find
into different places; its members may then be read in any order (`takeAll_perm`). So what was
written field by field in the order of the type (`Fills`) is read back from the object of the fields
(`RecordType.Regular.decode_record`).
-/

namespace WorkflowTemplates.Json

variable {ρ : Type} {closing : Closing} {r x : ρ}

/-- A name whose text has a value is that text, for the simplifier. -/
@[simp]
theorem Name.get_ok (text : String) (behind : Option Position) :
    Name.get ⟨.ok text, behind⟩ = .ok text := rfl

/-! ## Steps that commute -/

/-- The changes `f` and `g` of a record may fail, and give the same record in either order if they
do not. -/
def Commute (f g : ρ → Except DecodeError ρ) : Prop :=
  ∀ r x, f r >>= g = .ok x ↔ g r >>= f = .ok x

theorem Commute.symm {f g : ρ → Except DecodeError ρ} (h : Commute f g) : Commute g f :=
  fun r x => (h r x).symm

/-- The fields `f` and `g` store what they find into different places, whatever nodes they find. -/
def Field.Independent (f g : Field ρ) : Prop :=
  ∀ n m, Commute (f.store n) (g.store m)

instance : Std.Symm (Field.Independent (ρ := ρ)) where
  symm _ _ h n m := (h m n).symm

/-- Fields are independent if what `put` and `put'` store stands side by side: the order does not
matter. Their decoders do not look at the record. -/
theorem Field.independent_of {α β : Type} {name name' : String} {need need' : Need}
    {decode : Decoder α} {decode' : Decoder β} {put : α → ρ → ρ} {put' : β → ρ → ρ}
    (h : ∀ v w r, put' w (put v r) = put v (put' w r)) :
    (Field.of name need decode put).Independent (.of name' need' decode' put') := by
  intro n m r x
  simp only [Field.of]
  cases decode n <;> cases decode' m <;> simp [Except.map, bind, Except.bind, h]

namespace RecordType

/-- The fields of the record type `t` have distinct names and store what they find into different
places. -/
structure Regular (t : RecordType ρ) : Prop where
  distinct : (t.fields.map (·.name)).Nodup
  independent : t.fields.Pairwise Field.Independent

/-- What the member `m`, whose name was not seen, does to the record `r`: its field stores its
value, or `other` takes it. -/
def take (closing : Closing) (fields : List (Field ρ)) (other : Member → ρ → Except DecodeError ρ)
    (m : String × Json) (r : ρ) : Except DecodeError ρ :=
  match fields.find? (·.name = m.1) with
  | none => other (⟨.ok m.1, none⟩, m.2.toNode closing) r
  | some field => field.store (m.2.toNode closing) r

/-- What `members` do to the record `r`, one after the other (`take`). -/
def takeAll (closing : Closing) (fields : List (Field ρ))
    (other : Member → ρ → Except DecodeError ρ) (members : List (String × Json)) (r : ρ) :
    Except DecodeError ρ :=
  members.foldlM (fun r m => take closing fields other m r) r

variable {fields : List (Field ρ)} {other : Member → ρ → Except DecodeError ρ}
  {members members' : List (String × Json)}

theorem takeAll_nil : takeAll closing fields other [] r = .ok r := rfl

theorem takeAll_cons {m : String × Json} :
    takeAll closing fields other (m :: members) r
      = take closing fields other m r >>= takeAll closing fields other members := by
  rw [takeAll, List.foldlM_cons]
  rfl

/-- Members of one unknown name act like a further field `g`, if `other` does with them what `g`
stores. -/
theorem take_append_field {g : Field ρ} {m : String × Json}
    (hother : other (⟨.ok g.name, none⟩, m.2.toNode closing) = g.store (m.2.toNode closing))
    (hm : m.1 ∈ (fields ++ [g]).map (·.name)) :
    take closing fields other m = take closing (fields ++ [g]) other m := by
  funext r
  rw [take, take, List.find?_append]
  cases hfind : fields.find? (·.name = m.1) with
  | some f => rfl
  | none =>
    have hg : g.name = m.1 := by
      simp only [List.map_append, List.mem_append, List.mem_map, List.mem_singleton] at hm
      rcases hm with ⟨f, hf, hname⟩ | ⟨f, rfl, hname⟩
      · exact absurd hname (by simpa using List.find?_eq_none.1 hfind f hf)
      · exact hname
    simp [hg, ← hother]

/-- Members that do the same one by one do the same together, whatever fields are behind it. -/
theorem takeAll_congr {fields' : List (Field ρ)}
    (h : ∀ m ∈ members, take closing fields other m = take closing fields' other m) :
    takeAll closing fields other members r = takeAll closing fields' other members r := by
  induction members generalizing r with
  | nil => rfl
  | cons m rest ih =>
    rw [takeAll_cons, takeAll_cons, h m List.mem_cons_self]
    refine bind_congr fun r₁ => ?_
    exact ih fun n hn => h n (List.mem_cons_of_mem _ hn)

/-- Members that commute with each other (`Commute`) may be taken in any order. The induction is on
the permutation. -/
theorem takeAll_perm (hperm : members.Perm members')
    (hdistinct : (members.map (·.1)).Nodup)
    (hcommute : ∀ a ∈ members, ∀ b ∈ members, a.1 ≠ b.1 →
      Commute (take closing fields other a) (take closing fields other b))
    (h : takeAll closing fields other members r = .ok x) :
    takeAll closing fields other members' r = .ok x := by
  induction hperm generalizing r with
  | nil => exact h
  | cons a _ ih =>
    rw [takeAll_cons, bind_eq_ok] at h ⊢
    obtain ⟨r₁, hr₁, h⟩ := h
    refine ⟨r₁, hr₁, ih (List.nodup_cons.1 hdistinct).2 ?_ h⟩
    intro b hb d hd
    exact hcommute b (List.mem_cons_of_mem _ hb) d (List.mem_cons_of_mem _ hd)
  | swap a b rest =>
    have hne : b.1 ≠ a.1 := by
      simp only [List.map_cons, List.nodup_cons, List.mem_cons, not_or] at hdistinct
      exact hdistinct.1.1
    have hcomm := hcommute b (by simp) a (by simp) hne
    obtain ⟨r₁, hb, h⟩ := bind_eq_ok.1 (takeAll_cons ▸ h)
    obtain ⟨r₂, ha, h⟩ := bind_eq_ok.1 (takeAll_cons ▸ h)
    obtain ⟨r₃, ha', hb'⟩ := bind_eq_ok.1 ((hcomm r r₂).1 (bind_eq_ok.2 ⟨r₁, hb, ha⟩))
    rw [takeAll_cons, bind_eq_ok]
    refine ⟨r₃, ha', ?_⟩
    rw [takeAll_cons, bind_eq_ok]
    exact ⟨r₂, hb', h⟩
  | trans hfirst _ ih₁ ih₂ =>
    refine ih₂ ((hfirst.map _).nodup_iff.1 hdistinct) ?_ (ih₁ hdistinct hcommute h)
    intro a ha b hb
    exact hcommute a (hfirst.mem_iff.2 ha) b (hfirst.mem_iff.2 hb)

/-- Members of distinct and new names are read one after the other (`takeAll`), and their known
names are noted among `seen`. -/
theorem readMembers_memberNodes {seen : List String} (hdistinct : (members.map (·.1)).Nodup)
    (hnew : ∀ m ∈ members, m.1 ∉ seen) (h : takeAll closing fields other members r = .ok x) :
    ∃ seen', readMembers fields other seen r (memberNodes closing members) = .ok (seen', x)
      ∧ (∀ name ∈ seen, name ∈ seen')
      ∧ ∀ f ∈ fields, f.name ∈ members.map (·.1) → f.name ∈ seen' := by
  induction members generalizing seen r with
  | nil =>
    rw [takeAll_nil] at h
    cases h
    exact ⟨seen, by rw [memberNodes, readMembers], fun _ h => h, by simp⟩
  | cons m rest ih =>
    obtain ⟨name, v⟩ := m
    rw [List.map_cons, List.nodup_cons] at hdistinct
    obtain ⟨r₁, hr₁, h⟩ := bind_eq_ok.1 (takeAll_cons ▸ h)
    have hrest : ∀ n ∈ rest, n.1 ∉ seen := fun n hn => hnew n (List.mem_cons_of_mem _ hn)
    have hname : name ∉ seen := hnew (name, v) List.mem_cons_self
    rw [memberNodes, readMembers]
    cases hfind : fields.find? (·.name = name) with
    | none =>
      rw [take, hfind] at hr₁
      obtain ⟨seen', hread, hmono, hknown⟩ := ih hdistinct.2 hrest h
      refine ⟨seen', ?_, hmono, ?_⟩
      · simp [hfind, hr₁, bind, Except.bind, hread]
      · intro f hf hmem
        rcases List.mem_cons.1 (List.map_cons ▸ hmem) with heq | hmem
        · exact absurd heq (by simpa using List.find?_eq_none.1 hfind f hf)
        · exact hknown f hf hmem
    | some field =>
      rw [take, hfind] at hr₁
      obtain ⟨seen', hread, hmono, hknown⟩ :=
        ih hdistinct.2 (name_notMem_cons hnew hdistinct.1) h
      refine ⟨seen', ?_, fun n hn => hmono n (List.mem_cons_of_mem _ hn), ?_⟩
      · simp [hfind, hname, hr₁, bind, Except.bind, hread]
      · intro f hf hmem
        rcases List.mem_cons.1 (List.map_cons ▸ hmem) with heq | hmem
        · exact heq ▸ hmono name List.mem_cons_self
        · exact hknown f hf hmem

/-! ## Fields in the order of the type -/

/-- What was written of a record: `fields` in the order of the type, some of which are missing.
Stored into a first record one after the other they give `x`. -/
inductive Fills (closing : Closing) :
    List (Field ρ) → List (String × Document) → ρ → ρ → Prop
  | nil (r : ρ) : Fills closing [] [] r r
  | written {f fields d written r r₁ x} (h : f.store (d.toJson.toNode closing) r = .ok r₁)
      (rest : Fills closing fields written r₁ x) :
      Fills closing (f :: fields) ((f.name, d) :: written) r x
  | missing {f fields written r x} (h : f.need ≠ .required)
      (rest : Fills closing fields written r x) : Fills closing (f :: fields) written r x

namespace Fills

variable {all : List (Field ρ)} {f : Field ρ} {written : List (String × Document)}

/-- The written names are names of the fields, in their order. -/
theorem names_sublist (h : Fills closing fields written r x) :
    (written.map (·.1)).Sublist (fields.map (·.name)) := by
  induction h with
  | nil => exact .slnil
  | written _ _ ih => exact ih.cons_cons _
  | missing _ _ ih => exact ih.cons _

/-- A field that is required was written, under its name. -/
theorem mem_of_required (h : Fills closing fields written r x) (hf : f ∈ fields)
    (hneed : f.need = .required) : f.name ∈ written.map (·.1) := by
  induction h with
  | nil => cases hf
  | written _ _ ih =>
    rcases List.mem_cons.1 hf with rfl | hf
    · exact List.mem_cons_self
    · exact List.mem_cons_of_mem _ (ih hf)
  | missing hmissing _ ih =>
    rcases List.mem_cons.1 hf with rfl | hf
    · exact absurd hneed hmissing
    · exact ih hf

/-- What was written is taken field by field (`takeAll`), also among all fields of a type, whose
names are distinct. -/
theorem takeAll_eq (h : Fills closing fields written r x)
    (hdistinct : (all.map (·.name)).Nodup) (hsub : ∀ f ∈ fields, f ∈ all) :
    takeAll closing all other (Document.toMembers written) r = .ok x := by
  induction h with
  | nil => rw [Document.toMembers, takeAll_nil]
  | @written f _ _ _ _ r₁ _ hstore _ ih =>
    have hfind := find?_name_eq hdistinct (hsub f List.mem_cons_self)
    rw [Document.toMembers, takeAll_cons, take, hfind, bind_eq_ok]
    exact ⟨r₁, hstore, ih fun g hg => hsub g (List.mem_cons_of_mem _ hg)⟩
  | missing _ _ ih => exact ih fun g hg => hsub g (List.mem_cons_of_mem _ hg)

end Fills

namespace Regular

variable {t : RecordType ρ} {written : List (String × Document)}

/-- Members of different names that are fields of a regular type commute, since their fields are
independent (`Commute`). -/
theorem commute_take (ht : t.Regular) {a b : String × Json} (hne : a.1 ≠ b.1)
    (ha : a.1 ∈ t.fields.map (·.name)) (hb : b.1 ∈ t.fields.map (·.name)) :
    Commute (take closing t.fields other a) (take closing t.fields other b) := by
  obtain ⟨f, hf, hfa⟩ := List.mem_map.1 ha
  obtain ⟨g, hg, hgb⟩ := List.mem_map.1 hb
  have hfg : f ≠ g := by
    rintro rfl
    exact hne (hfa.symm.trans hgb)
  have hindependent := ht.independent.forall hf hg hfg
  have htake : ∀ {m : String × Json} {f}, f ∈ t.fields → f.name = m.1 →
      take closing t.fields other m = f.store (m.2.toNode closing) := by
    intro m f hf hname
    funext r
    rw [take, ← hname, find?_name_eq ht.distinct hf]
  rw [htake hf hfa, htake hg hgb]
  exact hindependent _ _

/-- The members that were written are read back from an object, in whatever order they stand there.
Members of unknown names may act like further fields: those of the type `t'` that `t` lacks. -/
theorem decodeObject_perm {t' : RecordType ρ} (ht : t'.Regular)
    (h : Fills closing t'.fields written t.empty x) (hfields : ∀ f ∈ t.fields, f ∈ t'.fields)
    (htake : ∀ m ∈ Document.toMembers written,
      take closing t.fields other m = take closing t'.fields other m)
    {members : List (String × Json)} (hperm : members.Perm (Document.toMembers written))
    (hclosing : closing.error? = none) :
    t.decodeObject other (memberNodes closing members) closing = .ok x := by
  have hnames := Document.names_toMembers written
  have hmem : ∀ m ∈ Document.toMembers written, m.1 ∈ t'.fields.map (·.name) := fun m hm =>
    h.names_sublist.subset (hnames ▸ List.mem_map_of_mem hm)
  have hdistinct : ((Document.toMembers written).map (·.1)).Nodup :=
    hnames ▸ h.names_sublist.nodup ht.distinct
  have htaken : takeAll closing t.fields other members t.empty = .ok x := by
    rw [takeAll_congr fun m hm => htake m (hperm.mem_iff.1 hm)]
    exact takeAll_perm hperm.symm hdistinct
      (fun a ha b hb hne => ht.commute_take hne (hmem a ha) (hmem b hb))
      (h.takeAll_eq ht.distinct fun _ hf => hf)
  have hnew : ∀ m ∈ members, m.1 ∉ ([] : List String) := fun _ _ => List.not_mem_nil
  obtain ⟨seen, hread, -, hknown⟩ :=
    readMembers_memberNodes ((hperm.map _).nodup_iff.2 hdistinct) hnew htaken
  have hmissing : missing? t.fields seen = none := by
    rw [missing?, Option.map_eq_none_iff, List.find?_eq_none]
    intro f hf hneed
    simp only [Bool.and_eq_true, decide_eq_true_eq, Bool.not_eq_true', List.contains_eq_mem,
      decide_eq_false_iff_not] at hneed
    refine hneed.2 (hknown f hf ?_)
    rw [(hperm.map (·.1)).mem_iff, hnames]
    exact h.mem_of_required (hfields f hf) hneed.1
  rw [decodeObject, hread]
  simp [bind, Except.bind, hclosing, hmissing]

/-- A record is the object of the members that were written (`Fills`), in the order of their names.
-/
theorem toJson_record (ht : t.Regular) (h : Fills closing t.fields written r x) :
    ∃ members, (Document.record written).toJson = .object members
      ∧ members.Perm (Document.toMembers written) := by
  rw [Document.toJson]
  refine ofMembers_perm ?_
  rw [Document.names_toMembers]
  exact h.names_sublist.nodup ht.distinct

/-- What was written of a record of a regular type decodes to the record: its members may be read in
any order (`takeAll_perm`). -/
theorem decode_record (ht : t.Regular) (h : Fills closing t.fields written t.empty x)
    (hclosing : closing.error? = none) :
    t.decode ((Document.record written).toJson.toNode closing) = .ok x := by
  obtain ⟨members, hmembers, hperm⟩ := ht.toJson_record h
  rw [hmembers, toNode, decode]
  exact ht.decodeObject_perm h (fun _ hf => hf) (fun _ _ => rfl) hperm hclosing

end Regular

end RecordType

end WorkflowTemplates.Json
