import Latchgate.Json.Sorted

namespace Json

mutual

/-- Two documents with the same data: they differ at most in numbers that
`print` prints alike. -/
def Same (print : JsonNumber → String) : Json → Json → Prop
  | null, null => True
  | bool a, bool b => a = b
  | number m, number n => print m = print n
  | string s, string t => s = t
  | array items, array others => SameItems print items others
  | object fields, object others => SameFields print fields others
  | _, _ => False

def SameItems (print : JsonNumber → String) : List Json → List Json → Prop
  | [], [] => True
  | v :: rest, w :: others => Same print v w ∧ SameItems print rest others
  | _, _ => False

def SameFields (print : JsonNumber → String) : List (String × Json) → List (String × Json) → Prop
  | [], [] => True
  | (k, v) :: rest, (l, w) :: others => k = l ∧ Same print v w ∧ SameFields print rest others
  | _, _ => False

end

mutual

/-- The doubles of a document. -/
def floats : Json → List FloatText
  | number (.float t) => [t]
  | array items => floatsItems items
  | object fields => floatsFields fields
  | _ => []

def floatsItems : List Json → List FloatText
  | [] => []
  | v :: rest => floats v ++ floatsItems rest

def floatsFields : List (String × Json) → List FloatText
  | [] => []
  | (_, v) :: rest => floats v ++ floatsFields rest

end

variable {print : JsonNumber → String} {read : FloatText → Except String FloatText}

mutual

theorem Same.refl : ∀ v : Json, Same print v v
  | null => trivial
  | bool _ => rfl
  | number _ => rfl
  | string _ => rfl
  | array items => by rw [Same]; exact SameItems.refl items
  | object fields => by rw [Same]; exact SameFields.refl fields

theorem SameItems.refl : ∀ items : List Json, SameItems print items items
  | [] => trivial
  | v :: rest => ⟨Same.refl v, SameItems.refl rest⟩

theorem SameFields.refl : ∀ fields : List (String × Json), SameFields print fields fields
  | [] => trivial
  | (_, v) :: rest => ⟨rfl, Same.refl v, SameFields.refl rest⟩

end

mutual

/-- When no two numbers are printed alike, documents with the same data are
the same. -/
theorem Same.eq (distinct : Function.Injective print) : ∀ {v w : Json}, Same print v w → v = w
  | null, null, _ => rfl
  | bool _, bool _, same => congrArg bool same
  | number _, number _, same => congrArg number (distinct same)
  | string _, string _, same => congrArg string same
  | array _, array _, same => by
    rw [Same] at same
    exact congrArg array (SameItems.eq distinct same)
  | object _, object _, same => by
    rw [Same] at same
    exact congrArg object (SameFields.eq distinct same)

theorem SameItems.eq (distinct : Function.Injective print) : ∀ {items others : List Json},
    SameItems print items others → items = others
  | [], [], _ => rfl
  | _ :: _, _ :: _, same => congrArg₂ List.cons (Same.eq distinct same.1) (SameItems.eq distinct same.2)

theorem SameFields.eq (distinct : Function.Injective print) : ∀ {fields others : List (String × Json)},
    SameFields print fields others → fields = others
  | [], [], _ => rfl
  | (_, _) :: _, (_, _) :: _, same =>
    congrArg₂ List.cons (Prod.ext same.1 (Same.eq distinct same.2.1)) (SameFields.eq distinct same.2.2)

end

theorem same_string {s t : String} : Same print (string s) (string t) ↔ s = t := Iff.rfl

theorem same_array {items others : List Json} :
    Same print (array items) (array others) ↔ SameItems print items others := by
  rw [Same]

theorem same_object {fields others : List (String × Json)} :
    Same print (object fields) (object others) ↔ SameFields print fields others := by
  rw [Same]

theorem sameFields_nil : SameFields print [] [] ↔ True := Iff.rfl

theorem sameFields_nil_cons {field : String × Json} {fields : List (String × Json)} :
    SameFields print [] (field :: fields) ↔ False := Iff.rfl

theorem sameFields_cons_nil {field : String × Json} {fields : List (String × Json)} :
    SameFields print (field :: fields) [] ↔ False := by
  simp [SameFields]

theorem sameFields_cons {k l : String} {v w : Json} {fields others : List (String × Json)} :
    SameFields print ((k, v) :: fields) ((l, w) :: others) ↔ k = l ∧ Same print v w ∧ SameFields print fields others :=
  Iff.rfl

theorem SameFields.lookup {fields others : List (String × Json)} (same : SameFields print fields others) (name : String) :
    (fields.lookup name = none ∧ others.lookup name = none) ∨
      ∃ v w, fields.lookup name = some v ∧ others.lookup name = some w ∧ Same print v w := by
  induction fields generalizing others with
  | nil =>
    cases others with
    | nil => exact .inl ⟨rfl, rfl⟩
    | cons _ _ => exact absurd same (by simp [SameFields])
  | cons field rest ih =>
    obtain ⟨key, v⟩ := field
    cases others with
    | nil => exact absurd same (by simp [SameFields])
    | cons other others =>
      obtain ⟨key', w⟩ := other
      obtain ⟨rfl, head, tail⟩ := same
      by_cases found : name = key
      · subst found
        exact .inr ⟨v, w, by simp, by simp, head⟩
      · have differs : (name == key) = false := by simpa using found
        simpa only [List.lookup_cons, differs] using ih tail

/-- Documents with the same data have the same members. -/
theorem Same.get? {v w : Json} (same : Same print v w) {name : String} {a b : Json} (first : v.get? name = some a)
    (second : w.get? name = some b) : Same print a b := by
  cases v <;> cases w <;> simp only [Json.get?, reduceCtorEq] at first second
  obtain ⟨absent, -⟩ | ⟨a', b', found, found', inner⟩ := SameFields.lookup (by simpa [Same] using same) name
  · rw [absent] at first
    cases first
  · rw [found] at first
    rw [found'] at second
    cases first
    cases second
    exact inner

theorem SameFields.insertField {map map' : List (String × Json)} (same : SameFields print map map') (key : String)
    {v w : Json} (value : Same print v w) :
    SameFields print (Json.insertField key v map) (Json.insertField key w map') := by
  induction map generalizing map' with
  | nil =>
    cases map' with
    | nil => exact ⟨rfl, value, trivial⟩
    | cons _ _ => exact absurd same (by simp [SameFields])
  | cons field rest ih =>
    obtain ⟨k, a⟩ := field
    cases map' with
    | nil => exact absurd same (by simp [SameFields])
    | cons other others =>
      obtain ⟨k', b⟩ := other
      obtain ⟨rfl, head, tail⟩ := same
      unfold Json.insertField
      split_ifs with here before
      · exact ⟨rfl, value, tail⟩
      · exact ⟨rfl, value, rfl, head, tail⟩
      · exact ⟨rfl, head, ih tail⟩

theorem SameFields.foldl {fields others map map' : List (String × Json)} (same : SameFields print fields others)
    (start : SameFields print map map') :
    SameFields print (fields.foldl (fun map field => Json.insertField field.1 field.2 map) map)
      (others.foldl (fun map field => Json.insertField field.1 field.2 map) map') := by
  induction fields generalizing others map map' with
  | nil =>
    cases others with
    | nil => exact start
    | cons _ _ => exact absurd same (by simp [SameFields])
  | cons field rest ih =>
    obtain ⟨k, a⟩ := field
    cases others with
    | nil => exact absurd same (by simp [SameFields])
    | cons other others =>
      obtain ⟨k', b⟩ := other
      obtain ⟨rfl, head, tail⟩ := same
      have step := ih tail (start.insertField k head)
      exact step

mutual

/-- Filling maps keeps what is the same. -/
theorem Same.sorted : ∀ {v w : Json}, Same print v w → Same print v.sorted w.sorted
  | null, null, _ => trivial
  | bool _, bool _, same => same
  | number _, number _, same => same
  | string _, string _, same => same
  | array _, array _, same => by
    rw [Same] at same
    rw [Json.sorted, Json.sorted, Same]
    exact SameItems.sorted same
  | object _, object _, same => by
    rw [Same] at same
    rw [Json.sorted, Json.sorted, ofFields, ofFields, Same]
    exact SameFields.foldl (SameFields.sorted same) trivial

theorem SameItems.sorted : ∀ {items others : List Json}, SameItems print items others →
    SameItems print (sortedItems items) (sortedItems others)
  | [], [], _ => trivial
  | _ :: _, _ :: _, same => ⟨Same.sorted same.1, SameItems.sorted same.2⟩

theorem SameFields.sorted : ∀ {fields others : List (String × Json)}, SameFields print fields others →
    SameFields print (sortedFields fields) (sortedFields others)
  | [], [], _ => trivial
  | (_, _) :: _, (_, _) :: _, same => ⟨same.1, Same.sorted same.2.1, SameFields.sorted same.2.2⟩

end

/-- A reader takes a double for one that is printed alike. -/
def Keeps (print : JsonNumber → String) (read : FloatText → Except String FloatText) (t : FloatText) : Prop :=
  ∃ u, read t = .ok u ∧ print (.float t) = print (.float u)

theorem reparse_same_leaf {v : Json} (kept : v.reparse read = .ok v) (none : v.floats = []) :
    (∃ w, v.reparse read = .ok w ∧ Same print v w) ↔ ∀ t ∈ v.floats, Keeps print read t := by
  rw [none]
  exact iff_of_true ⟨v, kept, Same.refl v⟩ (by simp)

theorem reparse_same_float (t : FloatText) :
    (∃ w, (number (.float t)).reparse read = .ok w ∧ Same print (number (.float t)) w) ↔
      ∀ u ∈ (number (.float t)).floats, Keeps print read u := by
  simp only [reparse, floats, List.mem_singleton, forall_eq, Keeps]
  constructor
  · rintro ⟨w, back, same⟩
    obtain ⟨u, known, rfl⟩ := Except.map_eq_ok.1 back
    exact ⟨u, known, same⟩
  · rintro ⟨u, known, same⟩
    exact ⟨_, Except.map_eq_ok.2 ⟨u, known, rfl⟩, same⟩

theorem reparse_same_array {items : List Json}
    (inside : (∃ others, reparseItems read items = .ok others ∧ SameItems print items others) ↔
      ∀ t ∈ floatsItems items, Keeps print read t) :
    (∃ w, (array items).reparse read = .ok w ∧ Same print (array items) w) ↔
      ∀ t ∈ (array items).floats, Keeps print read t := by
  rw [floats, ← inside]
  constructor
  · rintro ⟨w, back, same⟩
    obtain ⟨others, inner, rfl⟩ := Except.map_eq_ok.1 back
    exact ⟨others, inner, by rwa [Same] at same⟩
  · rintro ⟨others, inner, same⟩
    exact ⟨_, Except.map_eq_ok.2 ⟨others, inner, rfl⟩, by rwa [Same]⟩

theorem reparse_same_object {fields : List (String × Json)}
    (inside : (∃ others, reparseFields read fields = .ok others ∧ SameFields print fields others) ↔
      ∀ t ∈ floatsFields fields, Keeps print read t) :
    (∃ w, (object fields).reparse read = .ok w ∧ Same print (object fields) w) ↔
      ∀ t ∈ (object fields).floats, Keeps print read t := by
  rw [floats, ← inside]
  constructor
  · rintro ⟨w, back, same⟩
    obtain ⟨others, inner, rfl⟩ := Except.map_eq_ok.1 back
    exact ⟨others, inner, by rwa [Same] at same⟩
  · rintro ⟨others, inner, same⟩
    exact ⟨_, Except.map_eq_ok.2 ⟨others, inner, rfl⟩, by rwa [Same]⟩

theorem reparseItems_same_cons {v : Json} {rest : List Json}
    (here : (∃ w, v.reparse read = .ok w ∧ Same print v w) ↔ ∀ t ∈ v.floats, Keeps print read t)
    (later : (∃ others, reparseItems read rest = .ok others ∧ SameItems print rest others) ↔
      ∀ t ∈ floatsItems rest, Keeps print read t) :
    (∃ others, reparseItems read (v :: rest) = .ok others ∧ SameItems print (v :: rest) others) ↔
      ∀ t ∈ floatsItems (v :: rest), Keeps print read t := by
  rw [floatsItems, List.forall_mem_append, ← here, ← later]
  constructor
  · rintro ⟨others, back, same⟩
    obtain ⟨w, more, head, tail, rfl⟩ := reparseItems_cons.1 back
    exact ⟨⟨w, head, same.1⟩, more, tail, same.2⟩
  · rintro ⟨⟨w, head, first⟩, more, tail, second⟩
    exact ⟨w :: more, reparseItems_cons.2 ⟨w, more, head, tail, rfl⟩, first, second⟩

theorem reparseFields_same_cons {k : String} {v : Json} {rest : List (String × Json)}
    (here : (∃ w, v.reparse read = .ok w ∧ Same print v w) ↔ ∀ t ∈ v.floats, Keeps print read t)
    (later : (∃ others, reparseFields read rest = .ok others ∧ SameFields print rest others) ↔
      ∀ t ∈ floatsFields rest, Keeps print read t) :
    (∃ others, reparseFields read ((k, v) :: rest) = .ok others ∧ SameFields print ((k, v) :: rest) others) ↔
      ∀ t ∈ floatsFields ((k, v) :: rest), Keeps print read t := by
  rw [floatsFields, List.forall_mem_append, ← here, ← later]
  constructor
  · rintro ⟨others, back, same⟩
    obtain ⟨w, more, head, tail, rfl⟩ := reparseFields_cons.1 back
    exact ⟨⟨w, head, same.2.1⟩, more, tail, same.2.2⟩
  · rintro ⟨⟨w, head, first⟩, more, tail, second⟩
    exact ⟨(k, w) :: more, reparseFields_cons.2 ⟨w, more, head, tail, rfl⟩, rfl, first, second⟩

mutual

/-- A document is read back with the same data exactly when every double in it
is. -/
theorem reparse_same_iff : ∀ v : Json,
    (∃ w, v.reparse read = .ok w ∧ Same print v w) ↔ ∀ t ∈ v.floats, Keeps print read t
  | null => reparse_same_leaf rfl rfl
  | bool _ => reparse_same_leaf rfl rfl
  | number (.int _) => reparse_same_leaf rfl rfl
  | number (.float t) => reparse_same_float t
  | string _ => reparse_same_leaf rfl rfl
  | array items => reparse_same_array (reparseItems_same_iff items)
  | object fields => reparse_same_object (reparseFields_same_iff fields)

theorem reparseItems_same_iff : ∀ items : List Json,
    (∃ others, reparseItems read items = .ok others ∧ SameItems print items others) ↔
      ∀ t ∈ floatsItems items, Keeps print read t
  | [] => by simp [reparseItems, SameItems, floatsItems]
  | v :: rest => reparseItems_same_cons (reparse_same_iff v) (reparseItems_same_iff rest)

theorem reparseFields_same_iff : ∀ fields : List (String × Json),
    (∃ others, reparseFields read fields = .ok others ∧ SameFields print fields others) ↔
      ∀ t ∈ floatsFields fields, Keeps print read t
  | [] => by simp [reparseFields, SameFields, floatsFields]
  | (_, v) :: rest => reparseFields_same_cons (reparse_same_iff v) (reparseFields_same_iff rest)

end

theorem reparseFields_insertField (key : String) {v w : Json} (value : v.reparse read = .ok w)
    {map map' : List (String × Json)} (reparsed : reparseFields read map = .ok map') :
    reparseFields read (insertField key v map) = .ok (insertField key w map') := by
  induction map generalizing map' with
  | nil =>
    cases reparsed
    exact reparseFields_cons.2 ⟨w, [], value, rfl, rfl⟩
  | cons field rest ih =>
    obtain ⟨k, a⟩ := field
    obtain ⟨b, more, head, tail, rfl⟩ := reparseFields_cons.1 reparsed
    unfold insertField
    split_ifs with here before
    · exact reparseFields_cons.2 ⟨w, more, value, tail, rfl⟩
    · exact reparseFields_cons.2 ⟨w, _, value, reparsed, rfl⟩
    · exact reparseFields_cons.2 ⟨b, _, head, ih tail, rfl⟩

theorem reparseFields_foldl {fields others map map' : List (String × Json)}
    (reparsed : reparseFields read fields = .ok others) (start : reparseFields read map = .ok map') :
    reparseFields read (fields.foldl (fun map field => insertField field.1 field.2 map) map) =
      .ok (others.foldl (fun map field => insertField field.1 field.2 map) map') := by
  induction fields generalizing others map map' with
  | nil =>
    cases reparsed
    exact start
  | cons field rest ih =>
    obtain ⟨k, a⟩ := field
    obtain ⟨b, more, head, tail, rfl⟩ := reparseFields_cons.1 reparsed
    have step := ih tail (reparseFields_insertField k head start)
    exact step

mutual

/-- Reading a printed map gives the map of what is read. -/
theorem reparse_sorted : ∀ {v w : Json}, v.reparse read = .ok w → v.sorted.reparse read = .ok w.sorted
  | null, _, rfl => rfl
  | bool _, _, rfl => rfl
  | number (.int _), _, rfl => rfl
  | number (.float t), w, reparsed => by
    obtain ⟨u, _, rfl⟩ := Except.map_eq_ok.1 reparsed
    exact reparsed
  | string _, _, rfl => rfl
  | array items, w, reparsed => by
    obtain ⟨others, inner, rfl⟩ := Except.map_eq_ok.1 reparsed
    exact Except.map_eq_ok.2 ⟨_, reparseItems_sorted inner, by rw [sorted]⟩
  | object fields, w, reparsed => by
    obtain ⟨others, inner, rfl⟩ := Except.map_eq_ok.1 reparsed
    exact Except.map_eq_ok.2
      ⟨_, reparseFields_foldl (reparseFields_sorted inner) rfl, by rw [sorted, ofFields]⟩

theorem reparseItems_sorted : ∀ {items others : List Json}, reparseItems read items = .ok others →
    reparseItems read (sortedItems items) = .ok (sortedItems others)
  | [], _, rfl => rfl
  | v :: rest, others, reparsed => by
    obtain ⟨w, more, head, tail, rfl⟩ := reparseItems_cons.1 reparsed
    exact reparseItems_cons.2 ⟨_, _, reparse_sorted head, reparseItems_sorted tail, rfl⟩

theorem reparseFields_sorted : ∀ {fields others : List (String × Json)}, reparseFields read fields = .ok others →
    reparseFields read (sortedFields fields) = .ok (sortedFields others)
  | [], _, rfl => rfl
  | (_, v) :: rest, others, reparsed => by
    obtain ⟨w, more, head, tail, rfl⟩ := reparseFields_cons.1 reparsed
    exact reparseFields_cons.2 ⟨_, _, reparse_sorted head, reparseFields_sorted tail, rfl⟩

end

/-- What was printed as a map is read as one. -/
theorem sorted_of_reparse {v w : Json} (map : v.sorted = v) (reparsed : v.reparse read = .ok w) : w.sorted = w := by
  have back := reparse_sorted reparsed
  rw [map, reparsed] at back
  exact (Except.ok.inj back).symm

/-! Filling a map a second time changes nothing. -/

/-- The keys of a map rise. -/
def Rising (map : List (String × Json)) : Prop :=
  map.Pairwise fun a b => a.1 < b.1

theorem mem_insertField {key : String} {v : Json} {map : List (String × Json)} {entry : String × Json}
    (member : entry ∈ insertField key v map) : entry = (key, v) ∨ entry ∈ map := by
  induction map with
  | nil => simpa [insertField] using member
  | cons field rest ih =>
    obtain ⟨k, a⟩ := field
    unfold insertField at member
    split_ifs at member with here before
    · rcases List.mem_cons.mp member with same | old
      · exact .inl same
      · exact .inr (List.mem_cons_of_mem _ old)
    · exact List.mem_cons.mp member
    · rcases List.mem_cons.mp member with same | old
      · exact .inr (same ▸ List.mem_cons_self)
      · exact (ih old).imp id (List.mem_cons_of_mem _)

theorem mem_foldl_insertField {fields map : List (String × Json)} {entry : String × Json}
    (member : entry ∈ fields.foldl (fun map field => insertField field.1 field.2 map) map) :
    entry ∈ fields ∨ entry ∈ map := by
  induction fields generalizing map with
  | nil => exact .inr member
  | cons field rest ih =>
    rcases ih member with later | inserted
    · exact .inl (List.mem_cons_of_mem _ later)
    · rcases mem_insertField inserted with same | old
      · exact .inl (same ▸ List.mem_cons_self)
      · exact .inr old

theorem Rising.insertField {map : List (String × Json)} (rising : Rising map) (key : String) (v : Json) :
    Rising (Json.insertField key v map) := by
  induction map with
  | nil => simp [Json.insertField, Rising]
  | cons field rest ih =>
    obtain ⟨k, a⟩ := field
    obtain ⟨first, later⟩ := List.pairwise_cons.mp rising
    unfold Json.insertField
    split_ifs with here before
    · subst here
      exact List.pairwise_cons.mpr ⟨first, later⟩
    · refine List.pairwise_cons.mpr ⟨?_, rising⟩
      intro entry member
      rcases List.mem_cons.mp member with same | old
      · exact same ▸ before
      · exact String.lt_trans before (first entry old)
    · refine List.pairwise_cons.mpr ⟨?_, ih later⟩
      intro entry member
      rcases mem_insertField member with same | old
      · subst same
        -- neither equal nor below, so above
        rcases String.le_total key k with below | above
        · have reached : k ≤ key := String.not_lt.mp before
          exact absurd (String.le_antisymm below reached) here
        · rw [← String.not_le]
          intro below
          exact here (String.le_antisymm below above)
      · exact first entry old

theorem rising_foldl {fields map : List (String × Json)} (rising : Rising map) :
    Rising (fields.foldl (fun map field => insertField field.1 field.2 map) map) := by
  induction fields generalizing map with
  | nil => exact rising
  | cons field rest ih => exact ih (rising.insertField field.1 field.2)

theorem insertField_last {key : String} {v : Json} {map : List (String × Json)} (above : ∀ entry ∈ map, entry.1 < key) :
    insertField key v map = map ++ [(key, v)] := by
  induction map with
  | nil => rfl
  | cons field rest ih =>
    obtain ⟨k, a⟩ := field
    have below : k < key := above (k, a) List.mem_cons_self
    have differs : key ≠ k := by
      rintro rfl
      exact String.lt_irrefl key below
    unfold insertField
    rw [if_neg differs, if_neg (String.lt_asymm below), ih fun entry member => above entry (List.mem_cons_of_mem _ member)]
    rfl

theorem foldl_insertField_rising {fields map : List (String × Json)} (rising : Rising (map ++ fields)) :
    fields.foldl (fun map field => insertField field.1 field.2 map) map = map ++ fields := by
  induction fields generalizing map with
  | nil => simp
  | cons field rest ih =>
    obtain ⟨k, a⟩ := field
    have above : ∀ entry ∈ map, entry.1 < k :=
      fun entry member => (List.pairwise_append.mp rising).2.2 entry member (k, a) List.mem_cons_self
    have regrouped : map ++ (k, a) :: rest = (map ++ [(k, a)]) ++ rest := by simp
    rw [List.foldl_cons, insertField_last above, regrouped]
    exact ih (by rwa [← regrouped])

theorem sortedFields_eq_map (fields : List (String × Json)) :
    sortedFields fields = fields.map fun field => (field.1, field.2.sorted) := by
  induction fields with
  | nil => rfl
  | cons field rest ih => rw [sortedFields, ih, List.map_cons]

/-- What stands in a filled map was put in. -/
theorem mem_ofFields_sortedFields {fields : List (String × Json)} {entry : String × Json}
    (member : entry ∈ (sortedFields fields).foldl (fun map field => insertField field.1 field.2 map) []) :
    ∃ field ∈ fields, entry = (field.1, field.2.sorted) := by
  rcases mem_foldl_insertField member with given | absent
  · rw [sortedFields_eq_map] at given
    obtain ⟨field, known, same⟩ := List.mem_map.mp given
    exact ⟨field, known, same.symm⟩
  · cases absent

theorem sorted_object_of {fields : List (String × Json)} (inner : ∀ field ∈ fields, field.2.sorted.sorted = field.2.sorted) :
    (object fields).sorted.sorted = (object fields).sorted := by
  rw [sorted, ofFields, sorted, ofFields]
  have kept : ∀ entry ∈ (sortedFields fields).foldl (fun map field => insertField field.1 field.2 map) [],
      (fun field : String × Json => (field.1, field.2.sorted)) entry = entry := by
    intro entry member
    obtain ⟨field, known, rfl⟩ := mem_ofFields_sortedFields member
    exact Prod.ext rfl (inner field known)
  rw [sortedFields_eq_map, List.map_congr_left kept, List.map_id']
  exact congrArg object (foldl_insertField_rising (by simpa using rising_foldl List.Pairwise.nil))

theorem sorted_array_of {items : List Json} (inner : ∀ v ∈ items, v.sorted.sorted = v.sorted) :
    (array items).sorted.sorted = (array items).sorted := by
  rw [sorted, sorted, sortedItems_eq_map, sortedItems_eq_map, List.map_map]
  exact congrArg array (List.map_congr_left inner)

mutual

theorem sorted_sorted : ∀ v : Json, v.sorted.sorted = v.sorted
  | null => rfl
  | bool _ => rfl
  | number _ => rfl
  | string _ => rfl
  | array items => sorted_array_of (sorted_sorted_items items)
  | object fields => sorted_object_of (sorted_sorted_fields fields)

theorem sorted_sorted_items : ∀ items : List Json, ∀ v ∈ items, v.sorted.sorted = v.sorted
  | [], _, member => nomatch member
  | w :: rest, v, member => by
    rcases List.mem_cons.mp member with same | old
    · exact same ▸ sorted_sorted w
    · exact sorted_sorted_items rest v old

theorem sorted_sorted_fields : ∀ fields : List (String × Json), ∀ field ∈ fields,
    field.2.sorted.sorted = field.2.sorted
  | [], _, member => nomatch member
  | (_, w) :: rest, field, member => by
    rcases List.mem_cons.mp member with same | old
    · exact same ▸ sorted_sorted w
    · exact sorted_sorted_fields rest field old

end

/-- What stands in a map is a map. -/
theorem sorted_of_mem_object {fields : List (String × Json)} (map : (object fields).sorted = object fields)
    {field : String × Json} (member : field ∈ fields) : field.2.sorted = field.2 := by
  have filled : (sortedFields fields).foldl (fun map field => insertField field.1 field.2 map) [] = fields := by
    rw [sorted, ofFields] at map
    exact Json.object.inj map
  rw [← filled] at member
  obtain ⟨source, -, rfl⟩ := mem_ofFields_sortedFields member
  exact sorted_sorted source.2

theorem sorted_of_mem_array {items : List Json} (map : (array items).sorted = array items) {v : Json}
    (member : v ∈ items) : v.sorted = v := by
  have same : items.map sorted = items := by
    rw [sorted, sortedItems_eq_map] at map
    exact Json.array.inj map
  rw [← same] at member
  obtain ⟨w, -, rfl⟩ := List.mem_map.mp member
  exact sorted_sorted w

end Json
