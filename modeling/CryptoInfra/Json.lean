import Mathlib.Data.List.InsertIdx
import Mathlib.Tactic.Common

/-!
# JSON documents

The values of a document and the accesses of a reader which reports errors instead of throwing
them: a field, a text and the elements of what may itself be an error. Iterating over anything but
an array yields one error. The second half changes one field or element of a document and says what
a loop over its elements makes of the change.
-/

/-- A JSON value. -/
inductive Json where
  | null
  | bool (value : Bool)
  | number (literal : String)
  | string (text : String)
  | array (elements : List Json)
  | object (fields : List (String × Json))

namespace Json

/-! ## Access -/

/-- The value of a key. -/
def field (key : String) : Option Json → Option Json
  | some (.object fields) => fields.lookup key
  | _ => none

/-- The text of a string. -/
def text : Option Json → Option String
  | some (.string text) => some text
  | _ => none

/-- What a loop over the elements sees; without an array, one error. -/
def elements : Option Json → List (Option Json)
  | some (.array elements) => elements.map some
  | _ => [none]

/-- The element at an index. -/
def element (index : ℕ) : Option Json → Option Json
  | some (.array elements) => elements[index]?
  | _ => none

theorem text_eq_some_iff {value : Option Json} {characters : String} :
    text value = some characters ↔ value = some (.string characters) := by
  unfold text
  split <;> simp_all

theorem getElem?_elements {value : Option Json} {index : ℕ} {found : Json}
    (at_index : element index value = some found) :
    (elements value)[index]? = some (some found) := by
  unfold element at at_index
  split at at_index
  · rw [elements, List.getElem?_map, at_index, Option.map_some]
  · exact nomatch at_index

/-! ## Changes -/

/-- Change the value of the first occurrence of a key. -/
def modifyKey (key : String) (change : Json → Json) : List (String × Json) → List (String × Json)
  | [] => []
  | (name, value) :: fields =>
      if key = name then (name, change value) :: fields
      else (name, value) :: modifyKey key change fields

/-- Change the value of a key. -/
def mapField (key : String) (change : Json → Json) : Json → Json
  | .object fields => .object (modifyKey key change fields)
  | value => value

/-- Change the element at an index. -/
def mapElement (index : ℕ) (change : Json → Json) : Json → Json
  | .array elements => .array (elements.modify index change)
  | value => value

/-- Remove the element at an index. -/
def eraseElement (index : ℕ) : Json → Json
  | .array elements => .array (elements.eraseIdx index)
  | value => value

theorem lookup_modifyKey (key other : String) (change : Json → Json)
    (fields : List (String × Json)) :
    (modifyKey key change fields).lookup other =
      if other = key then (fields.lookup other).map change else fields.lookup other := by
  induction fields with
  | nil => simp [modifyKey]
  | cons entry fields induction =>
      obtain ⟨name, value⟩ := entry
      rw [modifyKey]
      by_cases found : other = name
      · subst found
        by_cases here : key = other
        · simp [here]
        · simp [here, Ne.symm here]
      · have passed : (other == name) = false := beq_false_of_ne found
        by_cases here : key = name
        · subst here
          simp [List.lookup_cons, passed, found]
        · simp [here, List.lookup_cons, passed, induction]

theorem field_mapField_self (key : String) (change : Json → Json) (value : Option Json) :
    field key (value.map (mapField key change)) = (field key value).map change := by
  cases value with
  | none => rfl
  | some value => cases value <;> simp [field, mapField, lookup_modifyKey]

theorem field_mapField_of_ne {key other : String} (different : other ≠ key)
    (change : Json → Json) (value : Option Json) :
    field other (value.map (mapField key change)) = field other value := by
  cases value with
  | none => rfl
  | some value => cases value <;> simp [field, mapField, lookup_modifyKey, different]

theorem elements_mapElement (index : ℕ) (change : Json → Json) (value : Option Json) :
    elements (value.map (mapElement index change)) =
      (elements value).modify index (Option.map change) := by
  have no_array : ∀ index, [none].modify index (Option.map change) = [none] := by
    intro index
    cases index <;> simp
  cases value with
  | none => exact (no_array index).symm
  | some value =>
      cases value with
      | array items =>
          simp only [Option.map_some, mapElement, elements]
          apply List.ext_getElem?
          intro other
          rw [List.getElem?_map, List.getElem?_modify, List.getElem?_modify, List.getElem?_map]
          split <;> cases items[other]? <;> rfl
      | _ => exact (no_array index).symm

theorem elements_eraseElement {index : ℕ} {value : Option Json} {found : Json}
    (at_index : element index value = some found) :
    elements (value.map (eraseElement index)) = (elements value).eraseIdx index := by
  unfold element at at_index
  split at at_index
  · simp only [Option.map_some, eraseElement, elements, List.eraseIdx_map]
  · exact nomatch at_index

/-! ## Loops over elements -/

section Loops

variable {α β : Type*} {items : List α} {index : ℕ} {item : α}

theorem exists_split (found : items[index]? = some item) :
    ∃ front rest, items = front ++ item :: rest ∧ front.length = index := by
  obtain ⟨inside, rfl⟩ := List.getElem?_eq_some_iff.mp found
  refine ⟨items.take index, items.drop (index + 1), ?_,
    List.length_take_of_le (Nat.le_of_lt inside)⟩
  rw [← List.drop_eq_getElem_cons inside, List.take_append_drop]

/-- A change of one item changes what a loop collects exactly if it changes what the loop collects
from this item. -/
theorem flatMap_modify_eq_iff (collect : α → List β) (change : α → α)
    (found : items[index]? = some item) :
    (items.modify index change).flatMap collect = items.flatMap collect ↔
      collect (change item) = collect item := by
  obtain ⟨front, rest, rfl, rfl⟩ := exists_split found
  have changed : (front ++ item :: rest).modify front.length change =
      front ++ change item :: rest := by
    rw [List.modify_eq_take_cons_drop (by simp)]
    simp
  rw [changed]
  simp

/-- Removing an item leaves what a loop selects alone exactly if the loop rejects this item. -/
theorem filterMap_eraseIdx_eq_iff (select : α → Option β) (found : items[index]? = some item) :
    (items.eraseIdx index).filterMap select = items.filterMap select ↔ select item = none := by
  obtain ⟨front, rest, rfl, rfl⟩ := exists_split found
  rw [List.eraseIdx_append_of_length_le (Nat.le_refl _), Nat.sub_self, List.eraseIdx_cons_zero]
  cases selected : select item <;> simp [selected]

theorem map_filterMap_eraseIdx_eq_iff {γ : Type*} (select : α → Option β) (convert : β → γ)
    (found : items[index]? = some item) :
    ((items.eraseIdx index).filterMap select).map convert = (items.filterMap select).map convert ↔
      select item = none := by
  rw [List.map_filterMap, List.map_filterMap, filterMap_eraseIdx_eq_iff _ found,
    Option.map_eq_none_iff]

variable {γ : Type*} {related : α → γ → Prop} {outcomes : List γ}

theorem filterMap_of_forall₂ {select : α → Option β} {value : γ → β}
    (each : List.Forall₂ related items outcomes)
    (read : ∀ item outcome, related item outcome → select item = some (value outcome)) :
    items.filterMap select = outcomes.map value := by
  induction each with
  | nil => rfl
  | cons first rest induction =>
      rw [List.filterMap_cons_some (read _ _ first), induction, List.map_cons]

theorem flatMap_of_forall₂ {collect : α → List β} {value : γ → List β}
    (each : List.Forall₂ related items outcomes)
    (read : ∀ item outcome, related item outcome → collect item = value outcome) :
    items.flatMap collect = outcomes.flatMap value := by
  induction each with
  | nil => rfl
  | cons first rest induction =>
      rw [List.flatMap_cons, read _ _ first, induction, List.flatMap_cons]

end Loops

end Json
