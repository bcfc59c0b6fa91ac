import Latchgate.Json.Compact
import Latchgate.Json.Extent
import Latchgate.Json.Same

namespace Json
open Encoding (utf8 utf8_append)

/-! The text of a document by RFC 8785. A number has the text that ECMAScript
gives it, `es`, and the fields of an object stand in the order of the UTF-16
units of their keys. -/

def utf16 (s : String) : List Nat :=
  s.toList.flatMap fun c =>
    if c.toNat < 0x10000 then [c.toNat]
    else [0xD800 + (c.toNat - 0x10000) / 0x400, 0xDC00 + (c.toNat - 0x10000) % 0x400]

def canonicalField (field : String × List Char) : List Char :=
  quote field.1 ++ ':' :: field.2

section Text
variable (es : JsonNumber → String)

mutual

def canonical : Json → List Char
  | null => ['n', 'u', 'l', 'l']
  | bool true => ['t', 'r', 'u', 'e']
  | bool false => ['f', 'a', 'l', 's', 'e']
  | number n => (es n).toList
  | string s => quote s
  | array items => '[' :: (List.intercalate [','] (canonicalItems items) ++ [']'])
  | object fields =>
    let sorted := (canonicalFields fields).mergeSort fun a b => utf16 a.1 ≤ utf16 b.1
    '\x7b' :: (List.intercalate [','] (sorted.map canonicalField) ++ ['\x7d'])

def canonicalItems : List Json → List (List Char)
  | [] => []
  | v :: rest => canonical v :: canonicalItems rest

def canonicalFields : List (String × Json) → List (String × List Char)
  | [] => []
  | (k, v) :: rest => (k, canonical v) :: canonicalFields rest

end

mutual

/-- What the numbers of a document take in a text. -/
def numberBytes : Json → Nat
  | number n => (utf8 (es n).toList).length
  | array items => numberBytesItems items
  | object fields => numberBytesFields fields
  | _ => 0

def numberBytesItems : List Json → Nat
  | [] => 0
  | v :: rest => numberBytes v + numberBytesItems rest

def numberBytesFields : List (String × Json) → Nat
  | [] => 0
  | (_, v) :: rest => numberBytes v + numberBytesFields rest

end

theorem length_intercalate (texts : List (List Char)) :
    (utf8 (List.intercalate [','] texts)).length = (texts.map fun text => (utf8 text).length).sum + (texts.length - 1) := by
  induction texts with
  | nil => rfl
  | cons text texts ih =>
    cases texts with
    | nil =>
      rw [List.intercalate_singleton]
      rfl
    | cons other texts =>
      rw [List.intercalate_cons_cons, utf8_append, utf8_append, List.length_append, List.length_append, ih]
      have comma : (utf8 [',']).length = 1 := rfl
      simp only [List.map_cons, List.sum_cons, List.length_cons, comma]
      omega

theorem length_canonicalItems (items : List Json) : (canonicalItems es items).length = items.length := by
  induction items with
  | nil => rfl
  | cons v rest ih => rw [canonicalItems, List.length_cons, ih, List.length_cons]

theorem length_canonicalFields (fields : List (String × Json)) : (canonicalFields es fields).length = fields.length := by
  induction fields with
  | nil => rfl
  | cons field rest ih => rw [canonicalFields, List.length_cons, ih, List.length_cons]

theorem length_canonicalField (key : String) (text : List Char) :
    (utf8 (canonicalField (key, text))).length = 2 + escapedByteLen key + 1 + (utf8 text).length := by
  rw [canonicalField, utf8_append, List.length_append, length_quote, length_utf8_cons (by decide)]
  dsimp only
  omega

mutual

/-- The canonical text and the compact text differ in the numbers alone, up to
the order of fields. -/
theorem length_canonical : ∀ v : Json,
    (utf8 (canonical es v)).length + numberBytes JsonNumber.text v = v.compactByteLen + numberBytes es v
  | null => rfl
  | bool true => rfl
  | bool false => rfl
  | number n => Nat.add_comm _ _
  | string s => by rw [canonical, length_quote, compactByteLen]; rfl
  | array items => by
    have inner := length_canonicalItems_sum items
    rw [canonical, length_utf8_cons (by decide), utf8_append, List.length_append, length_intercalate,
      length_canonicalItems, numberBytes, compactByteLen, numberBytes]
    change _ + _ + 1 + 1 + _ = _
    omega
  | object fields => by
    have inner := length_canonicalFields_sum fields
    have sorted := ((List.mergeSort_perm (canonicalFields es fields) fun a b => utf16 a.1 ≤ utf16 b.1).map
      fun field => (utf8 (canonicalField field)).length).sum_nat
    rw [canonical, length_utf8_cons (by decide), utf8_append, List.length_append, length_intercalate, List.map_map,
      List.length_map, List.length_mergeSort, length_canonicalFields, numberBytes, compactByteLen, numberBytes]
    change _ + _ + 1 + 1 + _ = _
    rw [Function.comp_def, sorted]
    omega

theorem length_canonicalItems_sum : ∀ items : List Json,
    ((canonicalItems es items).map fun text => (utf8 text).length).sum + numberBytesItems JsonNumber.text items =
      compactByteLenItems items + numberBytesItems es items
  | [] => rfl
  | v :: rest => by
    have first := length_canonical v
    have others := length_canonicalItems_sum rest
    rw [canonicalItems, List.map_cons, List.sum_cons, numberBytesItems, compactByteLenItems, numberBytesItems]
    omega

theorem length_canonicalFields_sum : ∀ fields : List (String × Json),
    ((canonicalFields es fields).map fun field => (utf8 (canonicalField field)).length).sum +
      numberBytesFields JsonNumber.text fields = compactByteLenFields fields + numberBytesFields es fields
  | [] => rfl
  | (k, v) :: rest => by
    have first := length_canonical v
    have others := length_canonicalFields_sum rest
    rw [canonicalFields, List.map_cons, List.sum_cons, length_canonicalField, numberBytesFields, compactByteLenFields,
      numberBytesFields]
    omega

end

end Text

/-! The canonical text tells a document. -/

/-- A number of the canonical text is a number of JSON again. -/
def Spells (es : JsonNumber → String) (spell : JsonNumber → JsonNumber) : Prop :=
  ∀ n, (spell n).text = es n

section Arranged
variable (spell : JsonNumber → JsonNumber)

mutual

/-- The document that the canonical text of a document is the compact text of. -/
def arranged : Json → Json
  | null => null
  | bool b => bool b
  | number n => number (spell n)
  | string s => string s
  | array items => array (arrangedItems items)
  | object fields => object ((arrangedFields fields).mergeSort fun a b => utf16 a.1 ≤ utf16 b.1)

def arrangedItems : List Json → List Json
  | [] => []
  | v :: rest => arranged v :: arrangedItems rest

def arrangedFields : List (String × Json) → List (String × Json)
  | [] => []
  | (k, v) :: rest => (k, arranged v) :: arrangedFields rest

end

end Arranged

theorem compact_array (items : List Json) :
    compact (array items) = '[' :: (List.intercalate [','] (items.map compact) ++ [']']) := by
  have tail : ∀ (v : Json) (rest : List Json),
      compact v ++ compactItems rest = List.intercalate [','] ((v :: rest).map compact) ++ [']'] := by
    intro v rest
    induction rest generalizing v with
    | nil => simp [compactItems]
    | cons w rest ih =>
      rw [compactItems, ih w]
      simp [List.intercalate_cons_cons]
  cases items with
  | nil => rfl
  | cons v rest => rw [compact, tail]

theorem compact_object (fields : List (String × Json)) :
    compact (object fields) =
      '\x7b' :: (List.intercalate [','] (fields.map fun field => canonicalField (field.1, compact field.2)) ++ ['\x7d']) := by
  have tail : ∀ (k : String) (v : Json) (rest : List (String × Json)),
      quote k ++ ':' :: (compact v ++ compactFields rest) =
        List.intercalate [','] (((k, v) :: rest).map fun field => canonicalField (field.1, compact field.2)) ++ ['\x7d'] := by
    intro k v rest
    induction rest generalizing k v with
    | nil => simp [compactFields, canonicalField]
    | cons field rest ih =>
      obtain ⟨l, w⟩ := field
      rw [compactFields, ih l w]
      simp [canonicalField, List.intercalate_cons_cons]
  cases fields with
  | nil => rfl
  | cons field rest =>
    obtain ⟨k, v⟩ := field
    rw [compact, tail]

section Text
variable {es : JsonNumber → String} {spell : JsonNumber → JsonNumber}

mutual

theorem compact_arranged (spells : Spells es spell) : ∀ v : Json, compact (arranged spell v) = canonical es v
  | null => rfl
  | bool true => rfl
  | bool false => rfl
  | number n => congrArg String.toList (spells n)
  | string s => rfl
  | array items => by rw [arranged, compact_array, compact_arrangedItems spells items, canonical]
  | object fields => by
    have texts := compact_arrangedFields spells fields
    have sorts : ((arrangedFields spell fields).mergeSort fun a b => utf16 a.1 ≤ utf16 b.1).map
        (fun field => (field.1, compact field.2)) =
          (canonicalFields es fields).mergeSort fun a b => utf16 a.1 ≤ utf16 b.1 := by
      rw [← texts]
      exact List.map_mergeSort fun a _ b _ => rfl
    rw [arranged, compact_object, canonical, ← sorts, List.map_map]
    rfl

theorem compact_arrangedItems (spells : Spells es spell) : ∀ items : List Json,
    (arrangedItems spell items).map compact = canonicalItems es items
  | [] => rfl
  | v :: rest => by
    rw [arrangedItems, List.map_cons, compact_arranged spells v, compact_arrangedItems spells rest, canonicalItems]

theorem compact_arrangedFields (spells : Spells es spell) : ∀ fields : List (String × Json),
    (arrangedFields spell fields).map (fun field => (field.1, compact field.2)) = canonicalFields es fields
  | [] => rfl
  | (k, v) :: rest => by
    rw [arrangedFields, List.map_cons, compact_arranged spells v, compact_arrangedFields spells rest, canonicalFields]

end

theorem map_fst_arrangedFields (fields : List (String × Json)) :
    (arrangedFields spell fields).map Prod.fst = fields.map Prod.fst := by
  induction fields with
  | nil => rfl
  | cons field rest ih => rw [arrangedFields, List.map_cons, List.map_cons, ih]

theorem rising_iff {map : List (String × Json)} : Rising map ↔ (map.map Prod.fst).Pairwise (· < ·) := by
  rw [List.pairwise_map]
  rfl

theorem rising_of_sorted {fields : List (String × Json)} (map : (object fields).sorted = object fields) : Rising fields := by
  rw [sorted, ofFields] at map
  rw [← Json.object.inj map]
  exact rising_foldl List.Pairwise.nil

/-- What sorting by another order leaves of a map tells the map. -/
theorem arrangedFields_inj {fields others : List (String × Json)} (rises : Rising fields) (otherRises : Rising others)
    (same : arranged spell (object fields) = arranged spell (object others)) :
    arrangedFields spell fields = arrangedFields spell others := by
  have lists := Json.object.inj same
  have permuted : (arrangedFields spell fields).Perm (arrangedFields spell others) := by
    have first := List.mergeSort_perm (arrangedFields spell fields) fun a b => utf16 a.1 ≤ utf16 b.1
    have second := List.mergeSort_perm (arrangedFields spell others) fun a b => utf16 a.1 ≤ utf16 b.1
    exact first.symm.trans (lists ▸ second)
  have rises' : Rising (arrangedFields spell fields) := by
    rw [rising_iff, map_fst_arrangedFields]
    exact rising_iff.1 rises
  have otherRises' : Rising (arrangedFields spell others) := by
    rw [rising_iff, map_fst_arrangedFields]
    exact rising_iff.1 otherRises
  exact permuted.eq_of_pairwise (fun a b _ _ below above => absurd above (String.lt_asymm below)) rises' otherRises'

mutual

/-- Two maps that are arranged alike have the same data. -/
theorem same_of_arranged (spells : Spells es spell) : ∀ {v w : Json}, v.sorted = v → w.sorted = w →
    arranged spell v = arranged spell w → Same es v w
  | null, null, _, _, _ => trivial
  | bool _, bool _, _, _, same => Json.bool.inj same
  | number m, number n, _, _, same => by
    have numbers : spell m = spell n := Json.number.inj same
    have texts := congrArg JsonNumber.text numbers
    rwa [spells m, spells n] at texts
  | string _, string _, _, _, same => Json.string.inj same
  | array items, array others, map, otherMap, same => by
    rw [Same]
    exact sameItems_of_arranged spells (fun _ => sorted_of_mem_array map) (fun _ => sorted_of_mem_array otherMap)
      (Json.array.inj same)
  | object fields, object others, map, otherMap, same => by
    rw [Same]
    exact sameFields_of_arranged spells (fun _ => sorted_of_mem_object map) (fun _ => sorted_of_mem_object otherMap)
      (arrangedFields_inj (rising_of_sorted map) (rising_of_sorted otherMap) same)

theorem sameItems_of_arranged (spells : Spells es spell) : ∀ {items others : List Json},
    (∀ v ∈ items, v.sorted = v) → (∀ v ∈ others, v.sorted = v) →
    arrangedItems spell items = arrangedItems spell others → SameItems es items others
  | [], [], _, _, _ => trivial
  | v :: rest, w :: others, maps, otherMaps, same => by
    obtain ⟨first, later⟩ := List.cons.inj same
    obtain ⟨map, maps⟩ := List.forall_mem_cons.mp maps
    obtain ⟨otherMap, otherMaps⟩ := List.forall_mem_cons.mp otherMaps
    exact ⟨same_of_arranged spells map otherMap first, sameItems_of_arranged spells maps otherMaps later⟩

theorem sameFields_of_arranged (spells : Spells es spell) : ∀ {fields others : List (String × Json)},
    (∀ field ∈ fields, field.2.sorted = field.2) → (∀ field ∈ others, field.2.sorted = field.2) →
    arrangedFields spell fields = arrangedFields spell others → SameFields es fields others
  | [], [], _, _, _ => trivial
  | (k, v) :: rest, (l, w) :: others, maps, otherMaps, same => by
    obtain ⟨first, later⟩ := List.cons.inj same
    obtain ⟨map, maps⟩ := List.forall_mem_cons.mp maps
    obtain ⟨otherMap, otherMaps⟩ := List.forall_mem_cons.mp otherMaps
    obtain ⟨keys, values⟩ := Prod.mk.inj first
    exact ⟨keys, same_of_arranged spells map otherMap values, sameFields_of_arranged spells maps otherMaps later⟩

end

mutual

theorem Same.arranged (spells : Spells es spell) : ∀ {v w : Json}, Same es v w → arranged spell v = arranged spell w
  | null, null, _ => rfl
  | bool _, bool _, same => congrArg bool same
  | number m, number n, same => by
    have texts : (spell m).text = (spell n).text := (spells m).trans (same.trans (spells n).symm)
    exact congrArg number (numberText_inj texts)
  | string _, string _, same => congrArg string same
  | array items, array others, same => by
    rw [Same] at same
    rw [Json.arranged, Json.arranged, SameItems.arranged spells same]
  | object fields, object others, same => by
    rw [Same] at same
    rw [Json.arranged, Json.arranged, SameFields.arranged spells same]

theorem SameItems.arranged (spells : Spells es spell) : ∀ {items others : List Json}, SameItems es items others →
    arrangedItems spell items = arrangedItems spell others
  | [], [], _ => rfl
  | _ :: _, _ :: _, same =>
    congrArg₂ List.cons (Same.arranged spells same.1) (SameItems.arranged spells same.2)

theorem SameFields.arranged (spells : Spells es spell) : ∀ {fields others : List (String × Json)},
    SameFields es fields others → arrangedFields spell fields = arrangedFields spell others
  | [], [], _ => rfl
  | (_, _) :: _, (_, _) :: _, same =>
    congrArg₂ List.cons (Prod.ext same.1 (Same.arranged spells same.2.1)) (SameFields.arranged spells same.2.2)

end

/-- The canonical text of a map tells its data. -/
theorem canonical_eq_iff (spells : Spells es spell) {v w : Json} (map : v.sorted = v) (otherMap : w.sorted = w) :
    canonical es v = canonical es w ↔ Same es v w := by
  rw [← compact_arranged spells v, ← compact_arranged spells w]
  constructor
  · intro texts
    exact same_of_arranged spells map otherMap (toCompactString_injective (congrArg String.ofList texts))
  · intro same
    rw [same.arranged spells]

end Text

mutual

/-- Every number of a document has a property. -/
def Numbers (p : JsonNumber → Prop) : Json → Prop
  | number n => p n
  | array items => NumbersItems p items
  | object fields => NumbersFields p fields
  | _ => True

def NumbersItems (p : JsonNumber → Prop) : List Json → Prop
  | [] => True
  | v :: rest => Numbers p v ∧ NumbersItems p rest

def NumbersFields (p : JsonNumber → Prop) : List (String × Json) → Prop
  | [] => True
  | (_, v) :: rest => Numbers p v ∧ NumbersFields p rest

end

section Numbers
variable {es : JsonNumber → String} {p : JsonNumber → Prop}

mutual

/-- Documents with the same data are the same if their numbers are printed
apart. -/
theorem Same.eq_of_numbers (distinct : ∀ m n, p m → p n → es m = es n → m = n) : ∀ {v w : Json}, Numbers p v →
    Numbers p w → Same es v w → v = w
  | null, null, _, _, _ => rfl
  | bool _, bool _, _, _, same => congrArg bool same
  | number _, number _, first, second, same => congrArg number (distinct _ _ first second same)
  | string _, string _, _, _, same => congrArg string same
  | array _, array _, first, second, same => by
    rw [Same] at same
    rw [Numbers] at first second
    exact congrArg array (SameItems.eq_of_numbers distinct first second same)
  | object _, object _, first, second, same => by
    rw [Same] at same
    rw [Numbers] at first second
    exact congrArg object (SameFields.eq_of_numbers distinct first second same)

theorem SameItems.eq_of_numbers (distinct : ∀ m n, p m → p n → es m = es n → m = n) : ∀ {items others : List Json},
    NumbersItems p items → NumbersItems p others → SameItems es items others → items = others
  | [], [], _, _, _ => rfl
  | _ :: _, _ :: _, first, second, same =>
    congrArg₂ List.cons (Same.eq_of_numbers distinct first.1 second.1 same.1)
      (SameItems.eq_of_numbers distinct first.2 second.2 same.2)

theorem SameFields.eq_of_numbers (distinct : ∀ m n, p m → p n → es m = es n → m = n) :
    ∀ {fields others : List (String × Json)}, NumbersFields p fields → NumbersFields p others →
      SameFields es fields others → fields = others
  | [], [], _, _, _ => rfl
  | (_, _) :: _, (_, _) :: _, first, second, same =>
    congrArg₂ List.cons (Prod.ext same.1 (Same.eq_of_numbers distinct first.1 second.1 same.2.1))
      (SameFields.eq_of_numbers distinct first.2 second.2 same.2.2)

end

end Numbers

end Json
