import Mathlib.Data.List.Induction
import WorkflowTemplates.Proofs.Names
import WorkflowTemplates.Proofs.Traversal
import WorkflowTemplates.Value.Encoding

/-!
# Arguments that are inserted

Insertions leave every name once, in the order in which the names first came
(`names_ofInserts`), with the value that was last inserted under it (`get?_ofInserts`). Arguments
are settled by their names and by what stands under them (`ext_get?`), so a value that is replaced
leaves no trace (`ofInserts_replaced`). A call resolves them entry by entry (`resolve_ofInserts`).
-/

namespace WorkflowTemplates

variable {inserts before after : List (String × Value)} {name : String} {v w : Value}
  {a b : Arguments}

namespace Arguments

/-! ## Arguments by their names -/

/-- The value of an entry is the one under its name, and there is no other entry of the name. -/
theorem mem_entries_iff : (name, v) ∈ a.entries ↔ a.get? name = some v := by
  rw [get?, List.lookup_eq_some_iff]
  constructor
  · intro h
    obtain ⟨before, after, hentries⟩ := List.append_of_mem h
    refine ⟨before, after, hentries, fun other hother => ?_⟩
    have hdistinct := a.distinct
    rw [hentries, List.map_append, List.map_cons, List.nodup_append] at hdistinct
    have hne := hdistinct.2.2 _ (List.mem_map_of_mem hother) _ List.mem_cons_self
    simpa using hne.symm
  · rintro ⟨before, after, hentries, -⟩
    rw [hentries]
    exact List.mem_append_right _ List.mem_cons_self

/-- The entries are the names and what stands under them (`get?`), in the order of the names. -/
theorem map_entries (a : Arguments) :
    a.entries.map (fun entry => (entry.1, some entry.2)) = a.names.map fun n => (n, a.get? n) := by
  rw [names, List.map_map]
  refine List.map_congr_left fun entry hentry => ?_
  rw [Function.comp_apply, mem_entries_iff.1 hentry]

/-- Arguments are settled by their names and by what stands under them, so two ways of insertion
that agree on both are the same. -/
theorem ext_get? (hnames : a.names = b.names) (hvalues : ∀ n, a.get? n = b.get? n) : a = b := by
  have hentries : a.entries = b.entries := by
    have hinjective : Function.Injective
        fun entry : String × Value => (entry.1, some entry.2) := by
      rintro ⟨n, v⟩ ⟨m, w⟩ h
      simpa using h
    refine List.map_injective_iff.2 hinjective ?_
    rw [map_entries, map_entries, hnames]
    simp only [hvalues]
  cases a
  cases b
  cases hentries
  rfl

/-! ## Insertions -/

theorem ofInserts_concat (inserts : List (String × Value)) (name : String) (v : Value) :
    ofInserts (inserts ++ [(name, v)]) = (ofInserts inserts).insert name v := by
  rw [ofInserts, List.foldl_append]
  rfl

/-- The names stand in the order in which they first came, each once (`List.eraseDups`). -/
theorem names_ofInserts (inserts : List (String × Value)) :
    (ofInserts inserts).names = (inserts.map (·.1)).eraseDups := by
  induction inserts using List.reverseRecOn with
  | nil => rfl
  | append_singleton inserts entry ih =>
    obtain ⟨name, v⟩ := entry
    rw [ofInserts_concat, names_insert, ih, List.map_append, List.map_cons, List.map_nil,
      eraseDups_concat]
    simp only [List.mem_eraseDups]

/-- Under a name stands the value that was last inserted under it (`lastUnder`). -/
theorem get?_ofInserts (inserts : List (String × Value)) (name : String) :
    (ofInserts inserts).get? name = lastUnder name inserts := by
  induction inserts using List.reverseRecOn with
  | nil => rfl
  | append_singleton inserts entry ih =>
    obtain ⟨other, v⟩ := entry
    rw [ofInserts_concat, get?_insert, ih, lastUnder_append, lastUnder_cons, lastUnder_nil,
      Option.none_or]
    split <;> rfl

/-- **A value that is replaced leaves no trace**, if its name is inserted again later (`h`). -/
theorem ofInserts_replaced (before : List (String × Value)) (v w : Value)
    (h : name ∈ after.map (·.1)) :
    ofInserts (before ++ (name, v) :: after) = ofInserts (before ++ (name, w) :: after) := by
  refine ext_get? ?_ fun n => ?_
  · simp only [names_ofInserts, List.map_append, List.map_cons]
  · rw [get?_ofInserts, get?_ofInserts, lastUnder_append, lastUnder_append, lastUnder_cons,
      lastUnder_cons]
    by_cases hn : n = name
    · subst hn
      obtain ⟨last, hlast⟩ := exists_lastUnder h
      simp only [hlast, Option.some_or]
    · rw [if_neg hn, if_neg hn]

/-! ## Calls -/

/-- A call passes an entry as a parameter of the entry's name, which carries the encoding of the
value by the type that is `declared` for the name: a text as its value, a reference as the source of
its value, and nothing else. -/
inductive Passes (declared : String → Option TypeTag) : String × Value → Parameter → Prop
  | text {name text : String} {v : Value}
      (h : encode name v (declared name) = .ok (.literal text)) :
      Passes declared (name, v) { name, value := some text }
  | reference {name : String} {source : ValueFrom} {v : Value}
      (h : encode name v (declared name) = .ok (.reference source)) :
      Passes declared (name, v) { name, valueFrom := some source }

/-- The parameter that passes an entry, if its value has an encoding by the `declared` type of its
name. -/
def passed (declared : String → Option TypeTag) (entry : String × Value) :
    Except EncodingError Parameter :=
  (encode entry.1 entry.2 (declared entry.1)).map (·.toArgument entry.1)

theorem passed_eq_ok {declared : String → Option TypeTag} {entry : String × Value} {p : Parameter} :
    passed declared entry = .ok p ↔ Passes declared entry p := by
  obtain ⟨name, v⟩ := entry
  rw [passed, map_eq_ok]
  constructor
  · rintro ⟨_ | _, hencode, rfl⟩
    · exact .text hencode
    · exact .reference hencode
  · rintro (hencode | hencode)
    · exact ⟨_, hencode, rfl⟩
    · exact ⟨_, hencode, rfl⟩

/-- Arguments are resolved entry by entry, in the order of the entries (`passed`). -/
theorem resolve_eq (a : Arguments) (declared : String → Option TypeTag) :
    a.resolve declared = a.entries.mapM (passed declared) := by
  rw [resolve]
  induction a.entries with
  | nil => rfl
  | cons entry rest ih =>
    obtain ⟨name, v⟩ := entry
    rw [List.mapM_cons, resolveEntries, ih, passed]
    cases encode name v (declared name) <;> rfl

/-- **A call passes what was last inserted under each name.** Whatever is inserted, the names stand
in the order in which they first came, each once, and under each stands the value that was last
inserted under it. The call then passes one parameter for each name, with the encoding of that value
by the type that is declared for the name; or some of these values has no encoding, and the first
such name is the error. A value that was replaced makes no difference to the arguments. -/
theorem resolve_ofInserts (inserts : List (String × Value))
    (declared : String → Option TypeTag) :
    (∀ n, n ∈ (ofInserts inserts).names ↔ n ∈ inserts.map (·.1))
      ∧ ((ofInserts inserts).names.Pairwise fun m n =>
        (inserts.map (·.1)).idxOf m < (inserts.map (·.1)).idxOf n)
      ∧ (∀ n, (ofInserts inserts).get? n = lastUnder n inserts)
      ∧ (∀ n v, (n, v) ∈ (ofInserts inserts).entries ↔ lastUnder n inserts = some v)
      ∧ (∀ ps, (ofInserts inserts).resolve declared = .ok ps
        ↔ List.Forall₂ (Passes declared) (ofInserts inserts).entries ps)
      ∧ (∀ e, (ofInserts inserts).resolve declared = .error e
        ↔ ∃ before n v after, (ofInserts inserts).entries = before ++ (n, v) :: after
          ∧ (∀ entry ∈ before, ∃ e', encode entry.1 entry.2 (declared entry.1) = .ok e')
          ∧ encode n v (declared n) = .error e)
      ∧ ((∃ e, (ofInserts inserts).resolve declared = .error e)
        ↔ ∃ n v e, lastUnder n inserts = some v ∧ encode n v (declared n) = .error e)
      ∧ ∀ before n v w after, inserts = before ++ (n, v) :: after → n ∈ after.map (·.1) →
        ofInserts inserts = ofInserts (before ++ (n, w) :: after) := by
  have hentries (n : String) (v : Value) :
      (n, v) ∈ (ofInserts inserts).entries ↔ lastUnder n inserts = some v := by
    rw [mem_entries_iff, get?_ofInserts]
  -- The first entry without an encoding stops the traversal, so the errors are those of
  -- `FirstFails`.
  have herror (e : EncodingError) : (ofInserts inserts).resolve declared = .error e
      ↔ FirstFails (passed declared) (ofInserts inserts).entries e := by
    rw [resolve_eq, mapM_eq_error]
  refine ⟨fun n => ?_, ?_, get?_ofInserts inserts, hentries, fun ps => ?_, fun e => ?_, ?_, ?_⟩
  · rw [names_ofInserts, List.mem_eraseDups]
  · rw [names_ofInserts]
    exact eraseDups_pairwise _
  · rw [resolve_eq, mapM_eq_ok]
    simp only [passed_eq_ok]
  · rw [herror]
    constructor
    · rintro ⟨before, ⟨n, v⟩, after, hall, hbefore, he⟩
      refine ⟨before, n, v, after, hall, fun entry hentry => ?_, map_eq_error.1 he⟩
      obtain ⟨p, hp⟩ := hbefore entry hentry
      obtain ⟨e', he', -⟩ := map_eq_ok.1 hp
      exact ⟨e', he'⟩
    · rintro ⟨before, n, v, after, hall, hbefore, he⟩
      refine ⟨before, (n, v), after, hall, fun entry hentry => ?_, map_eq_error.2 he⟩
      obtain ⟨e', he'⟩ := hbefore entry hentry
      exact ⟨_, map_eq_ok.2 ⟨e', he', rfl⟩⟩
  · simp only [herror, exists_firstFails_iff, Prod.exists, hentries, passed, map_eq_error]
    constructor
    · rintro ⟨n, v, hv, e, he⟩
      exact ⟨n, v, e, hv, he⟩
    · rintro ⟨n, v, e, hv, he⟩
      exact ⟨n, v, hv, e, he⟩
  · rintro before n v w after rfl h
    exact ofInserts_replaced before v w h

/-- A count that is inserted twice, and a flag and a reference in between. -/
def countedInserts : List (String × Value) := [
  ("count", .integer 1), ("flag", .boolean true),
  ("source", .reference (.ofConfigMap "settings" "source")), ("count", .integer 3)]

/-- A flag is declared as a list, and nothing else is declared. -/
def flagType : String → Option TypeTag
  | "flag" => some (.custom "list")
  | _ => none

/-- The count is passed first, where it was first inserted, with the value that was inserted last;
its first value could be any other. -/
theorem countedInserts_resolved :
    (ofInserts countedInserts).names = ["count", "flag", "source"]
      ∧ (ofInserts countedInserts).get? "count" = some (.integer 3)
      ∧ (ofInserts countedInserts).resolve flagType = .ok [
        { name := "count", value := some "3" },
        { name := "flag", value := some "74727565" },
        { name := "source", valueFrom := some (.ofConfigMap "settings" "source") }]
      ∧ ofInserts countedInserts = ofInserts (("count", .string "none") :: countedInserts.tail) := by
  obtain ⟨-, -, hget, -, hresolve, -, -, hreplaced⟩ := resolve_ofInserts countedInserts flagType
  refine ⟨rfl, hget "count", ?_, hreplaced [] "count" (.integer 1) _ _ rfl (by decide)⟩
  exact (hresolve _).2 (.cons (.text rfl) (.cons (.text rfl) (.cons (.reference rfl) .nil)))

end Arguments

end WorkflowTemplates
