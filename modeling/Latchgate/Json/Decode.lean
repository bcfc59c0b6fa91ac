import Latchgate.Json.Reparse

namespace Json

/-- How the members of a record are found: by name in an object, by position
in an array that is not longer than the record. -/
def members (names : List String) : Json → Option (String → Option Json)
  | object fields => some fun name => fields.lookup name
  | array items =>
    if items.length ≤ names.length then some fun name => items[names.idxOf name]? else none
  | _ => none

def decodeRequired {α : Type} (decode : Json → Option α) : Option Json → Option α
  | none => none
  | some v => decode v

def decodeOr {α : Type} (default : α) (decode : Json → Option α) : Option Json → Option α
  | none => some default
  | some v => decode v

@[simp] theorem decodeRequired_some {α : Type} (decode : Json → Option α) (v : Json) :
    decodeRequired decode (some v) = decode v := rfl

@[simp] theorem decodeOr_some {α : Type} (default : α) (decode : Json → Option α) (v : Json) :
    decodeOr default decode (some v) = decode v := rfl

def decodeList {α : Type} (decode : Json → Option α) : Json → Option (List α)
  | array items => items.mapM decode
  | _ => none

def decodeNullable {α : Type} (decode : Json → Option α) : Json → Option (Option α)
  | null => some none
  | v => (decode v).map some

def decodeU64 : Json → Option UInt64
  | number (.int (.ofNat n)) => if n < UInt64.size then some (.ofNat n) else none
  | _ => none

/-- The name of a variant without data. -/
def variantName : Json → Option String
  | string s => some s
  | object [(name, null)] => some name
  | _ => none

def decodeVariant {α : Type} (variants : List (String × α)) (v : Json) : Option α :=
  (variantName v).bind fun name => variants.lookup name

/-- A decoder that does not look at doubles: what it makes of a document it
makes of the document that is read back from its text. -/
def Stable {α : Type} (decode : Json → Option α) : Prop :=
  ∀ (read : FloatText → Except String FloatText) (v w : Json), v.reparse read = .ok w →
    decode w = decode v

/-- A member of a document beside the same member of the reparsed one. -/
inductive Reread (read : FloatText → Except String FloatText) : Option Json → Option Json → Prop
  | absent : Reread read none none
  | present {v w : Json} (reparsed : v.reparse read = .ok w) : Reread read (some v) (some w)

variable {read : FloatText → Except String FloatText} {α : Type}

theorem reparseItems_cons {v : Json} {items others : List Json} :
    reparseItems read (v :: items) = .ok others ↔
      ∃ w rest, v.reparse read = .ok w ∧ reparseItems read items = .ok rest ∧ others = w :: rest := by
  simp only [reparseItems, Except.bind_eq_ok, Except.ok.injEq]
  constructor
  · rintro ⟨w, first, rest, second, rfl⟩
    exact ⟨w, rest, first, second, rfl⟩
  · rintro ⟨w, rest, first, second, rfl⟩
    exact ⟨w, first, rest, second, rfl⟩

theorem reparseFields_cons {key : String} {v : Json} {fields others : List (String × Json)} :
    reparseFields read ((key, v) :: fields) = .ok others ↔
      ∃ w rest, v.reparse read = .ok w ∧ reparseFields read fields = .ok rest ∧
        others = (key, w) :: rest := by
  simp only [reparseFields, Except.bind_eq_ok, Except.ok.injEq]
  constructor
  · rintro ⟨w, first, rest, second, rfl⟩
    exact ⟨w, rest, first, second, rfl⟩
  · rintro ⟨w, rest, first, second, rfl⟩
    exact ⟨w, first, rest, second, rfl⟩

theorem reparseItems_length {items others : List Json}
    (reparsed : reparseItems read items = .ok others) : others.length = items.length := by
  induction items generalizing others with
  | nil => cases reparsed; rfl
  | cons v items ih =>
    obtain ⟨w, rest, _, tail, rfl⟩ := reparseItems_cons.1 reparsed
    simp [ih tail]

theorem reparseItems_getElem? {items others : List Json}
    (reparsed : reparseItems read items = .ok others) (i : Nat) :
    Reread read items[i]? others[i]? := by
  induction items generalizing others i with
  | nil =>
    cases reparsed
    simpa using Reread.absent
  | cons v items ih =>
    obtain ⟨w, rest, head, tail, rfl⟩ := reparseItems_cons.1 reparsed
    cases i with
    | zero => simpa using Reread.present head
    | succ i => simpa using ih tail i

theorem reparseFields_lookup {fields others : List (String × Json)}
    (reparsed : reparseFields read fields = .ok others) (name : String) :
    Reread read (fields.lookup name) (others.lookup name) := by
  induction fields generalizing others with
  | nil => cases reparsed; exact .absent
  | cons field fields ih =>
    obtain ⟨key, v⟩ := field
    obtain ⟨w, rest, head, tail, rfl⟩ := reparseFields_cons.1 reparsed
    by_cases found : name = key
    · subst found
      simpa using Reread.present head
    · have other : (name == key) = false := by simpa using found
      simpa only [List.lookup_cons, other] using ih tail

/-- Reparsing keeps the form of a document and finds every member again. -/
theorem members_reparse (names : List String) {v w : Json} (reparsed : v.reparse read = .ok w) :
    (v.members names = none ∧ w.members names = none) ∨
      ∃ m n, v.members names = some m ∧ w.members names = some n ∧
        ∀ name, Reread read (m name) (n name) := by
  cases v with
  | object fields =>
    obtain ⟨others, inner, rfl⟩ := Except.map_eq_ok.1 reparsed
    exact .inr ⟨_, _, rfl, rfl, reparseFields_lookup inner⟩
  | array items =>
    obtain ⟨others, inner, rfl⟩ := Except.map_eq_ok.1 reparsed
    by_cases fits : items.length ≤ names.length
    · refine .inr ⟨fun name => items[names.idxOf name]?, fun name => others[names.idxOf name]?, ?_, ?_,
        fun name => reparseItems_getElem? inner _⟩
      · simp [members, fits]
      · simp [members, reparseItems_length inner, fits]
    · exact .inl (by simp [members, reparseItems_length inner, fits])
  | number n =>
    cases n with
    | int z => cases reparsed; exact .inl ⟨rfl, rfl⟩
    | float t =>
      obtain ⟨u, _, rfl⟩ := Except.map_eq_ok.1 reparsed
      exact .inl ⟨rfl, rfl⟩
  | null => cases reparsed; exact .inl ⟨rfl, rfl⟩
  | bool b => cases reparsed; exact .inl ⟨rfl, rfl⟩
  | string s => cases reparsed; exact .inl ⟨rfl, rfl⟩

theorem get?_reparse (name : String) {v w : Json} (reparsed : v.reparse read = .ok w) :
    Reread read (v.get? name) (w.get? name) := by
  cases v with
  | object fields =>
    obtain ⟨others, inner, rfl⟩ := Except.map_eq_ok.1 reparsed
    exact reparseFields_lookup inner name
  | array items =>
    obtain ⟨others, inner, rfl⟩ := Except.map_eq_ok.1 reparsed
    exact .absent
  | number n =>
    cases n with
    | int z => cases reparsed; exact .absent
    | float t =>
      obtain ⟨u, _, rfl⟩ := Except.map_eq_ok.1 reparsed
      exact .absent
  | null => cases reparsed; exact .absent
  | bool b => cases reparsed; exact .absent
  | string s => cases reparsed; exact .absent

theorem Stable.record {names : List String} {build : (String → Option Json) → Option α}
    (congr : ∀ {read : FloatText → Except String FloatText} {m n : String → Option Json},
      (∀ name, Reread read (m name) (n name)) → build n = build m) :
    Stable fun v => (v.members names).bind build := by
  intro read v w reparsed
  obtain ⟨before, after⟩ | ⟨m, n, before, after, alike⟩ := members_reparse names reparsed
  · simp only [before, after]
  · simp only [before, after, Option.bind_some]
    exact congr alike

theorem Stable.required {decode : Json → Option α} (stable : Stable decode) {m n : Option Json}
    (alike : Reread read m n) : decodeRequired decode n = decodeRequired decode m := by
  cases alike with
  | absent => rfl
  | present reparsed => exact stable _ _ _ reparsed

theorem Stable.or {decode : Json → Option α} (stable : Stable decode) (default : α)
    {m n : Option Json} (alike : Reread read m n) :
    decodeOr default decode n = decodeOr default decode m := by
  cases alike with
  | absent => rfl
  | present reparsed => exact stable _ _ _ reparsed

/-- Only the form of a scalar and its double can change, so a decoder that
turns doubles away is stable on scalars. -/
theorem stable_of_scalar {decode : Json → Option α}
    (floats : ∀ t, decode (number (.float t)) = none)
    (arrays : ∀ {read : FloatText → Except String FloatText} {items others},
      reparseItems read items = .ok others → decode (array others) = decode (array items))
    (objects : ∀ {read : FloatText → Except String FloatText} {fields others},
      reparseFields read fields = .ok others → decode (object others) = decode (object fields)) :
    Stable decode := by
  intro read v w reparsed
  cases v with
  | object fields =>
    obtain ⟨others, inner, rfl⟩ := Except.map_eq_ok.1 reparsed
    exact objects inner
  | array items =>
    obtain ⟨others, inner, rfl⟩ := Except.map_eq_ok.1 reparsed
    exact arrays inner
  | number n =>
    cases n with
    | int z => cases reparsed; rfl
    | float t =>
      obtain ⟨u, _, rfl⟩ := Except.map_eq_ok.1 reparsed
      rw [floats, floats]
  | null => cases reparsed; rfl
  | bool b => cases reparsed; rfl
  | string s => cases reparsed; rfl

theorem stable_asStr? : Stable asStr? :=
  stable_of_scalar (fun _ => rfl) (fun _ => rfl) (fun _ => rfl)

/-- The texts of an array are read back. -/
theorem stable_texts : Stable fun v => v.asArray?.map (List.filterMap asStr?) := by
  refine stable_of_scalar (fun _ => rfl) ?_ (fun _ => rfl)
  intro read items others reparsed
  simp only [asArray?, Option.map_some]
  induction items generalizing others with
  | nil => cases reparsed; rfl
  | cons v items ih =>
    obtain ⟨w, rest, head, tail, rfl⟩ := reparseItems_cons.1 reparsed
    simp only [List.filterMap_cons, stable_asStr? _ _ _ head, Option.some.inj (ih tail)]

theorem stable_decodeU64 : Stable decodeU64 :=
  stable_of_scalar (fun _ => rfl) (fun _ => rfl) (fun _ => rfl)

/-- Nothing but `null` is read back as `null`. -/
theorem reparse_null {v : Json} : v.reparse read = .ok null ↔ v = null := by
  constructor
  · intro reparsed
    cases v with
    | null => rfl
    | number n =>
      cases n with
      | int z => cases reparsed
      | float t =>
        obtain ⟨u, _, back⟩ := Except.map_eq_ok.1 reparsed
        cases back
    | array items =>
      obtain ⟨others, _, back⟩ := Except.map_eq_ok.1 reparsed
      cases back
    | object fields =>
      obtain ⟨others, _, back⟩ := Except.map_eq_ok.1 reparsed
      cases back
    | bool b => cases reparsed
    | string s => cases reparsed
  · rintro rfl
    rfl

theorem stable_variantName : Stable variantName := by
  refine stable_of_scalar (fun _ => rfl) (fun _ => rfl) ?_
  intro read fields others reparsed
  match fields, reparsed with
  | [], reparsed => cases reparsed; rfl
  | [(key, v)], reparsed =>
    obtain ⟨w, rest, head, tail, rfl⟩ := reparseFields_cons.1 reparsed
    cases tail
    by_cases void : v = null
    · subst void
      cases head
      rfl
    · have kept : w ≠ null := fun back => void (reparse_null.1 (back ▸ head))
      simp [variantName, void, kept]
  | (key, v) :: second :: fields, reparsed =>
    obtain ⟨w, rest, _, tail, rfl⟩ := reparseFields_cons.1 reparsed
    obtain ⟨_, _, _, _, rfl⟩ := reparseFields_cons.1 tail
    simp [variantName]

theorem stable_decodeVariant (variants : List (String × α)) : Stable (decodeVariant variants) := by
  intro read v w reparsed
  simp only [decodeVariant, stable_variantName _ _ _ reparsed]

theorem Stable.nullable {decode : Json → Option α} (stable : Stable decode) :
    Stable (decodeNullable decode) := by
  intro read v w reparsed
  by_cases void : v = null
  · subst void
    cases reparsed
    rfl
  · have kept : w ≠ null := fun back => void (reparse_null.1 (back ▸ reparsed))
    simp only [decodeNullable, stable _ _ _ reparsed]

theorem Stable.list {decode : Json → Option α} (stable : Stable decode) :
    Stable (decodeList decode) := by
  refine stable_of_scalar (fun _ => rfl) ?_ (fun _ => rfl)
  intro read items others reparsed
  simp only [decodeList]
  induction items generalizing others with
  | nil => cases reparsed; rfl
  | cons v items ih =>
    obtain ⟨w, rest, head, tail, rfl⟩ := reparseItems_cons.1 reparsed
    simp only [List.mapM_cons, stable _ _ _ head, ih tail]

theorem decodeList_map {encode : α → Json} {decode : Json → Option α}
    (inverse : ∀ a, decode (encode a) = some a) (items : List α) :
    decodeList decode (array (items.map encode)) = some items := by
  simp only [decodeList]
  induction items with
  | nil => rfl
  | cons a items ih => simp [inverse, ih]

theorem decodeU64_toNat (n : UInt64) : decodeU64 (number (.int n.toNat)) = some n := by
  have bound : n.toNat < UInt64.size := n.toNat_lt_size
  have read : decodeU64 (number (.int n.toNat)) =
      if n.toNat < UInt64.size then some (.ofNat n.toNat) else none := rfl
  rw [read, if_pos bound, UInt64.ofNat_toNat]

end Json
