import WorkflowTemplates.Proofs.Source.ReadBack
import WorkflowTemplates.Source.Default

/-!
# Written defaults

Literals of data (`IsData`) are strings, integers, truth values, no value, lists, and dictionaries
under strings. They read back, and each of them is a default (`ofLiteral_data`), so what is written
for one is read as the default that it stands for (`read_data`).
-/

namespace WorkflowTemplates

namespace Literal

mutual

/-- A literal of data: no floating-point or complex number, no call, and only strings as keys. The
least integer is left out, since its digits without the sign are out of range. -/
def IsData : Literal → Prop
  | string _ | boolean _ | nothing => True
  | integer i => i ≠ Int64.minValue
  | list items => IsDataItems items
  | dict entries => IsDataEntries entries
  | float _ | complex _ | call .. => False

/-- `IsData` of every item of a list, by recursion over the list. -/
def IsDataItems : List Literal → Prop
  | [] => True
  | l :: rest => IsData l ∧ IsDataItems rest

/-- `IsData` of every value of a dictionary, under strings, by recursion over the entries. -/
def IsDataEntries : List (Literal × Literal) → Prop
  | [] => True
  | (k, v) :: rest => (∃ s, k = string s) ∧ IsData v ∧ IsDataEntries rest

end

mutual

/-- Data (`IsData`) reads back, by induction over the literal together with the items and the
entries in it. -/
theorem IsData.readable : ∀ {l : Literal}, l.IsData → l.Readable
  | string _, _ | boolean _, _ | nothing, _ => trivial
  | integer _, h => h
  | list _, h => readableItems_of_data h
  | dict _, h => readableEntries_of_data h
  | float _, h | complex _, h | call .., h => nomatch h

/-- Items of data read back, each of them by `IsData.readable`. -/
theorem readableItems_of_data : ∀ {items : List Literal}, IsDataItems items → ReadableItems items
  | [], _ => trivial
  | _ :: _, h => ⟨h.1.readable, readableItems_of_data h.2⟩

/-- Entries of data read back: their keys are strings, their values data (`IsDataEntries`). -/
theorem readableEntries_of_data : ∀ {entries : List (Literal × Literal)},
    IsDataEntries entries → ReadableEntries entries
  | [], _ => trivial
  | (_, _) :: _, ⟨⟨_, hk⟩, hv, hrest⟩ =>
    ⟨hk ▸ trivial, hv.readable, readableEntries_of_data hrest⟩

end

mutual

/-- Data has a JSON value, by induction over the literal: what has none, such as a call, is no data
(`IsData`). -/
theorem toJson_data : ∀ {l : Literal}, l.IsData → ∃ v, l.toJson = .ok v
  | string _, _ | boolean _, _ | nothing, _ | integer _, _ => ⟨_, rfl⟩
  | list items, h => by
    obtain ⟨values, hvalues⟩ := itemsToJson_data items h
    rw [toJson, hvalues]
    exact ⟨_, rfl⟩
  | dict entries, h => by
    obtain ⟨members, hmembers⟩ := entriesToJson_data entries h
    rw [toJson, hmembers]
    exact ⟨_, rfl⟩
  | float _, h | complex _, h | call .., h => nomatch h

/-- Items of data have JSON values, in the order of the list (`IsDataItems`). -/
theorem itemsToJson_data : ∀ (items : List Literal), IsDataItems items →
    ∃ values, itemsToJson items = .ok values
  | [], _ => ⟨[], rfl⟩
  | _ :: items, h => by
    obtain ⟨v, hv⟩ := toJson_data h.1
    obtain ⟨values, hvalues⟩ := itemsToJson_data items h.2
    exact ⟨v :: values, bind_eq_ok.2 ⟨_, hv, bind_eq_ok.2 ⟨_, hvalues, rfl⟩⟩⟩

/-- Entries of data are members of a JSON object, under the strings that are their keys
(`IsDataEntries`). -/
theorem entriesToJson_data : ∀ (entries : List (Literal × Literal)), IsDataEntries entries →
    ∃ members, entriesToJson entries = .ok members
  | [], _ => ⟨[], rfl⟩
  | (_, _) :: entries, ⟨⟨s, hk⟩, hv, hrest⟩ => by
    obtain ⟨v, hv⟩ := toJson_data hv
    obtain ⟨members, hmembers⟩ := entriesToJson_data entries hrest
    subst hk
    exact ⟨(s, v) :: members, bind_eq_ok.2 ⟨_, hv, bind_eq_ok.2 ⟨_, hmembers, rfl⟩⟩⟩

end

end Literal

namespace Default

open Literal (IsData toJson_data)

/-- Data is a default, or no default, which the literal of no value stands for; `ofLiteral` refuses
none of it. -/
theorem ofLiteral_data {l : Literal} (h : l.IsData) : ∃ v, ofLiteral l = .ok v := by
  obtain ⟨v, hv⟩ := toJson_data h
  cases l with
  | string _ | integer _ | boolean _ | nothing => exact ⟨_, rfl⟩
  | list _ | dict _ =>
    unfold ofLiteral
    dsimp only
    rw [hv]
    exact ⟨_, rfl⟩
  | float _ | complex _ | call _ _ => cases h

/-- **Written data is read as the default that it stands for** (`ofLiteral`), since its text reads
back as the literal. -/
theorem read_data {l : Literal} (h : l.IsData) :
    ∃ v, ofLiteral l = .ok v ∧ read l.written = .ok v := by
  obtain ⟨v, hv⟩ := ofLiteral_data h
  refine ⟨v, hv, ?_⟩
  rw [read, Literal.read_written h.readable]
  exact hv

end Default

end WorkflowTemplates
