import Latchgate.Json.Decode
import Mathlib.Data.List.Nodup

namespace Json

mutual

/-- Every object as the map that a parser fills: sorted by key, and of several
fields under one key the last. -/
def sorted : Json → Json
  | null => null
  | bool b => bool b
  | number n => number n
  | string s => string s
  | array items => array (sortedItems items)
  | object fields => ofFields (sortedFields fields)

def sortedItems : List Json → List Json
  | [] => []
  | v :: rest => sorted v :: sortedItems rest

def sortedFields : List (String × Json) → List (String × Json)
  | [] => []
  | (k, v) :: rest => (k, sorted v) :: sortedFields rest

end

theorem sortedItems_eq_map (items : List Json) : sortedItems items = items.map sorted := by
  induction items with
  | nil => rfl
  | cons v rest ih => rw [sortedItems, ih, List.map_cons]

theorem lookup_sortedFields (name : String) (fields : List (String × Json)) :
    (sortedFields fields).lookup name = (fields.lookup name).map sorted := by
  induction fields with
  | nil => rfl
  | cons field rest ih =>
    obtain ⟨key, v⟩ := field
    by_cases found : name = key
    · simp [sortedFields, List.lookup_cons, found]
    · have other : (name == key) = false := by simpa using found
      simp [sortedFields, List.lookup_cons, other, ih]

theorem map_fst_sortedFields (fields : List (String × Json)) :
    (sortedFields fields).map Prod.fst = fields.map Prod.fst := by
  induction fields with
  | nil => rfl
  | cons field rest ih => simp [sortedFields, ih]

theorem lookup_insertField (name key : String) (value : Json) (map : List (String × Json)) :
    (insertField key value map).lookup name = if name = key then some value else map.lookup name := by
  induction map with
  | nil =>
    by_cases found : name = key
    · simp [insertField, List.lookup_cons, found]
    · have other : (name == key) = false := by simpa using found
      simp [insertField, List.lookup_cons, other, found]
  | cons field rest ih =>
    obtain ⟨k, v⟩ := field
    unfold insertField
    by_cases found : name = key
    · subst found
      rw [if_pos rfl] at ih ⊢
      by_cases same : name = k
      · simp [same, List.lookup_cons]
      · have other : (name == k) = false := by simpa using same
        rw [if_neg same]
        split_ifs
        · simp [List.lookup_cons]
        · rw [List.lookup_cons, other, ih]
    · have other : (name == key) = false := by simpa using found
      rw [if_neg found] at ih ⊢
      split_ifs with same
      · subst same
        simp [List.lookup_cons, other]
      · simp [List.lookup_cons, other]
      · simp only [List.lookup_cons, ih]

/-- With no key twice, a map has the fields that were put in. -/
theorem lookup_foldl_insertField (name : String) {fields : List (String × Json)} (map : List (String × Json))
    (distinct : (fields.map Prod.fst).Nodup) :
    (fields.foldl (fun map field => insertField field.1 field.2 map) map).lookup name =
      (fields.lookup name).or (map.lookup name) := by
  induction fields generalizing map with
  | nil => rfl
  | cons field rest ih =>
    obtain ⟨key, v⟩ := field
    obtain ⟨fresh, others⟩ := List.nodup_cons.mp distinct
    rw [List.foldl_cons, ih _ others, lookup_insertField, List.lookup_cons]
    by_cases found : name = key
    · subst found
      have absent : rest.lookup name = none := by
        refine List.lookup_eq_none_iff.mpr ?_
        intro entry member
        have differs : name ≠ entry.1 := by
          intro same
          exact fresh (List.mem_map.mpr ⟨entry, member, same.symm⟩)
        simpa using differs
      simp [absent]
    · have other : (name == key) = false := by simpa using found
      simp [other, found]

theorem get?_ofFields (name : String) {fields : List (String × Json)} (distinct : (fields.map Prod.fst).Nodup) :
    (ofFields fields).get? name = fields.lookup name := by
  unfold ofFields get?
  simpa using lookup_foldl_insertField name [] distinct

theorem get?_sorted_object (name : String) {fields : List (String × Json)} (distinct : (fields.map Prod.fst).Nodup) :
    (sorted (object fields)).get? name = (fields.lookup name).map sorted := by
  rw [sorted, get?_ofFields name (by rwa [map_fst_sortedFields]), lookup_sortedFields]

theorem map_fst_reparseFields {read : FloatText → Except String FloatText} {fields others : List (String × Json)}
    (reparsed : reparseFields read fields = .ok others) : others.map Prod.fst = fields.map Prod.fst := by
  induction fields generalizing others with
  | nil =>
    cases reparsed
    rfl
  | cons field rest ih =>
    obtain ⟨key, v⟩ := field
    obtain ⟨w, more, -, tail, rfl⟩ := reparseFields_cons.1 reparsed
    simp [ih tail]

end Json
