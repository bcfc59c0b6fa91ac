import Mathlib.Data.List.Basic
import Mathlib.Algebra.Order.Group.Nat

namespace Encoding
variable {α β γ : Type*}

/-- The code of an admitted value ends where its own elements say: two codes
with any continuations are alike only when the values and the continuations are. -/
def Delimited (ok : α → Prop) (code : α → List β) : Prop :=
  ∀ a b : α, ok a → ok b → ∀ rest tail : List β, code a ++ rest = code b ++ tail → a = b ∧ rest = tail

/-- The second text starts with the first one, and a separator stands behind it. -/
def Continues (sep : β) (first second : List β) : Prop :=
  ∃ more, second = first ++ sep :: more

/-- Neither text continues the other behind the separator. -/
def Clear (sep : β) (first second : List β) : Prop :=
  ¬ Continues sep first second ∧ ¬ Continues sep second first

def terminated (sep : β) (text : List β) : List β :=
  text ++ [sep]

/-- The lowest bytes of a number, least significant first. -/
def leBytes : Nat → Nat → List UInt8
  | 0, _ => []
  | width + 1, n => UInt8.ofNat n :: leBytes width (n / 256)

/-- A value under the number of its elements. -/
def prefixed (width : Nat) (bytes : List UInt8) : List UInt8 :=
  leBytes width bytes.length ++ bytes

def counted (width : Nat) (item : α → List UInt8) (items : List α) : List UInt8 :=
  leBytes width items.length ++ items.flatMap item

/-- An absent value is a lone separator. -/
def optional (sep : β) (code : α → List β) : Option α → List β
  | none => [sep]
  | some a => code a

theorem Delimited.injective {ok : α → Prop} {code : α → List β} (delimited : Delimited ok code)
    {a b : α} (first : ok a) (second : ok b) (same : code a = code b) : a = b :=
  (delimited a b first second [] [] (by rw [same])).1

theorem Delimited.mono {ok strict : α → Prop} {code : α → List β} (delimited : Delimited ok code)
    (weaker : ∀ a, strict a → ok a) : Delimited strict code :=
  fun a b first second => delimited a b (weaker a first) (weaker b second)

theorem Delimited.comp {ok : α → Prop} {code : α → List β} (delimited : Delimited ok code)
    {f : γ → α} (injective : Function.Injective f) : Delimited (fun c => ok (f c)) (fun c => code (f c)) := by
  intro a b first second rest tail same
  obtain ⟨values, rests⟩ := delimited _ _ first second rest tail same
  exact ⟨injective values, rests⟩

theorem append_cons_inj {sep : β} {s t rest tail : List β} (clear : Clear sep s t)
    (same : s ++ sep :: rest = t ++ sep :: tail) : s = t ∧ rest = tail := by
  rcases List.append_eq_append_iff.mp same with ⟨more, longer, left⟩ | ⟨more, longer, right⟩
  · cases more with
    | nil =>
      rw [List.nil_append, List.cons.injEq] at left
      exact ⟨by rw [longer, List.append_nil], left.2⟩
    | cons c more =>
      rw [List.cons_append, List.cons.injEq] at left
      refine absurd ⟨more, ?_⟩ clear.1
      rw [longer, left.1]
  · cases more with
    | nil =>
      rw [List.nil_append, List.cons.injEq] at right
      exact ⟨by rw [longer, List.append_nil], right.2.symm⟩
    | cons c more =>
      rw [List.cons_append, List.cons.injEq] at right
      refine absurd ⟨more, ?_⟩ clear.2
      rw [longer, right.1]

theorem terminated_append_inj {sep : β} {s t rest tail : List β} (clear : Clear sep s t)
    (same : terminated sep s ++ rest = terminated sep t ++ tail) : s = t ∧ rest = tail := by
  simp only [terminated, List.append_assoc, List.cons_append, List.nil_append] at same
  exact append_cons_inj clear same

theorem clear_of_notMem {sep : β} {s t : List β} (first : sep ∉ s) (second : sep ∉ t) : Clear sep s t := by
  constructor
  · rintro ⟨more, equal⟩
    exact second (by simp [equal])
  · rintro ⟨more, equal⟩
    exact first (by simp [equal])

theorem clear_of_count_eq [DecidableEq β] {sep : β} {s t : List β} (same : s.count sep = t.count sep) :
    Clear sep s t := by
  constructor
  · rintro ⟨more, equal⟩
    have longer : t.count sep = s.count sep + (more.count sep + 1) := by simp [equal]
    omega
  · rintro ⟨more, equal⟩
    have longer : s.count sep = t.count sep + (more.count sep + 1) := by simp [equal]
    omega

theorem Clear.refl (sep : β) (s : List β) : Clear sep s s := by
  have never : ¬ Continues sep s s := by
    rintro ⟨more, equal⟩
    have lengths := congrArg List.length equal
    simp at lengths
  exact ⟨never, never⟩

theorem Clear.symm {sep : β} {s t : List β} (clear : Clear sep s t) : Clear sep t s :=
  ⟨clear.2, clear.1⟩

theorem delimited_terminated (sep : β) : Delimited (fun s => sep ∉ s) (terminated sep) :=
  fun _ _ first second _ _ same => terminated_append_inj (clear_of_notMem first second) same

/-- Two texts that a delimited code spells out alike, up to what follows, are
one text and a continuation of it. -/
theorem flatMap_append_inj {code : α → List β} (delimited : Delimited (fun _ => True) code) :
    ∀ {s t : List α} {rest tail : List β}, s.flatMap code ++ rest = t.flatMap code ++ tail →
      (∃ more, t = s ++ more ∧ rest = more.flatMap code ++ tail) ∨
        (∃ more, s = t ++ more ∧ tail = more.flatMap code ++ rest)
  | [], t, rest, tail, same => .inl ⟨t, rfl, same⟩
  | s, [], rest, tail, same => .inr ⟨s, rfl, same.symm⟩
  | a :: s, b :: t, rest, tail, same => by
    simp only [List.flatMap_cons, List.append_assoc] at same
    obtain ⟨rfl, later⟩ := delimited a b trivial trivial _ _ same
    rcases flatMap_append_inj delimited later with ⟨more, longer, left⟩ | ⟨more, longer, right⟩
    · exact .inl ⟨more, by rw [longer, List.cons_append], left⟩
    · exact .inr ⟨more, by rw [longer, List.cons_append], right⟩

/-- Two texts neither of which is a proper start of the other. -/
def Separated (s t : List β) : Prop :=
  ∀ rest tail : List β, s ++ rest = t ++ tail → s = t ∧ rest = tail

theorem Separated.flatMap {s t : List γ} {inner : γ → List β} (letters : Delimited (fun _ => True) inner)
    (separated : Separated s t) {rest tail : List β}
    (same : s.flatMap inner ++ rest = t.flatMap inner ++ tail) : s = t ∧ rest = tail := by
  rcases flatMap_append_inj letters same with ⟨more, longer, left⟩ | ⟨more, longer, right⟩
  · obtain ⟨texts, empty⟩ := separated more [] (by rw [List.append_nil, longer])
    subst empty
    exact ⟨texts, by simpa using left⟩
  · obtain ⟨texts, empty⟩ := separated [] more (by rw [List.append_nil, longer])
    subst empty
    exact ⟨texts, by simpa using right.symm⟩

theorem Delimited.separated {ok : α → Prop} {code : α → List β} (delimited : Delimited ok code)
    {a b : α} (first : ok a) (second : ok b) : Separated (code a) (code b) := by
  intro rest tail same
  obtain ⟨values, rests⟩ := delimited a b first second rest tail same
  exact ⟨by rw [values], rests⟩

/-- A delimited code stays delimited when its elements are spelled out by another. -/
theorem Delimited.flatMap {ok : α → Prop} {outer : α → List γ} {inner : γ → List β}
    (delimited : Delimited ok outer) (letters : Delimited (fun _ => True) inner) :
    Delimited ok (fun a => (outer a).flatMap inner) := by
  intro a b first second rest tail same
  obtain ⟨codes, rests⟩ := (delimited.separated first second).flatMap letters same
  exact ⟨delimited.injective first second codes, rests⟩

theorem separated_terminated {sep : β} {s t : List β} (clear : Clear sep s t) :
    Separated (terminated sep s) (terminated sep t) := by
  intro rest tail same
  obtain ⟨texts, rests⟩ := terminated_append_inj clear same
  exact ⟨by rw [texts], rests⟩

@[simp] theorem length_leBytes (width n : Nat) : (leBytes width n).length = width := by
  induction width generalizing n with
  | zero => rfl
  | succ width ih => simp [leBytes, ih]

theorem leBytes_inj {width n m : Nat} (first : n < 256 ^ width) (second : m < 256 ^ width)
    (same : leBytes width n = leBytes width m) : n = m := by
  induction width generalizing n m with
  | zero =>
    simp only [Nat.pow_zero] at first second
    omega
  | succ width ih =>
    simp only [leBytes, List.cons.injEq] at same
    have low : n % 256 = m % 256 := by
      have bytes := congrArg UInt8.toNat same.1
      simpa [UInt8.toNat_ofNat'] using bytes
    rw [Nat.pow_succ] at first second
    have high : n / 256 = m / 256 :=
      ih (Nat.div_lt_of_lt_mul (by omega)) (Nat.div_lt_of_lt_mul (by omega)) same.2
    omega

theorem delimited_leBytes (width : Nat) : Delimited (· < 256 ^ width) (leBytes width) := by
  intro n m first second rest tail same
  obtain ⟨bytes, rests⟩ := List.append_inj same (by simp)
  exact ⟨leBytes_inj first second bytes, rests⟩

theorem delimited_prefixed (width : Nat) :
    Delimited (fun bytes => bytes.length < 256 ^ width) (prefixed width) := by
  intro s t first second rest tail same
  simp only [prefixed, List.append_assoc] at same
  obtain ⟨lengths, later⟩ := delimited_leBytes width _ _ first second _ _ same
  exact List.append_inj later lengths

theorem delimited_counted {ok : α → Prop} {item : α → List UInt8} (width : Nat) (delimited : Delimited ok item) :
    Delimited (fun items => items.length < 256 ^ width ∧ ∀ a ∈ items, ok a) (counted width item) := by
  have items : ∀ (s t : List α), (∀ a ∈ s, ok a) → (∀ a ∈ t, ok a) → s.length = t.length →
      ∀ rest tail, s.flatMap item ++ rest = t.flatMap item ++ tail → s = t ∧ rest = tail := by
    intro s
    induction s with
    | nil =>
      intro t _ _ lengths rest tail same
      obtain rfl : t = [] := List.eq_nil_of_length_eq_zero lengths.symm
      exact ⟨rfl, by simpa using same⟩
    | cons a s ih =>
      intro t first second lengths rest tail same
      cases t with
      | nil => simp at lengths
      | cons b t =>
        simp only [List.flatMap_cons, List.append_assoc] at same
        obtain ⟨rfl, later⟩ := delimited a b (first a (by simp)) (second b (by simp)) _ _ same
        obtain ⟨rfl, rests⟩ := ih t (fun c member => first c (by simp [member]))
          (fun c member => second c (by simp [member])) (by simpa using lengths) rest tail later
        exact ⟨rfl, rests⟩
  intro s t first second rest tail same
  simp only [counted, List.append_assoc] at same
  obtain ⟨lengths, later⟩ := delimited_leBytes width _ _ first.1 second.1 _ _ same
  exact items s t first.2 second.2 lengths rest tail later

/-- A present value is told apart by its first element. -/
theorem delimited_optional {ok : α → Prop} {code : α → List β} {sep : β} (delimited : Delimited ok code)
    (present : ∀ a, ok a → ∃ c more, code a = c :: more ∧ c ≠ sep) :
    Delimited (fun value => ∀ a ∈ value, ok a) (optional sep code) := by
  intro first second firstOk secondOk rest tail same
  cases first with
  | none =>
    cases second with
    | none => exact ⟨rfl, by simpa [optional] using same⟩
    | some b =>
      obtain ⟨c, more, text, differs⟩ := present b (secondOk b rfl)
      simp only [optional, text, List.cons_append, List.cons.injEq] at same
      exact absurd same.1.symm differs
  | some a =>
    cases second with
    | none =>
      obtain ⟨c, more, text, differs⟩ := present a (firstOk a rfl)
      simp only [optional, text, List.cons_append, List.cons.injEq] at same
      exact absurd same.1 differs
    | some b =>
      obtain ⟨values, rests⟩ := delimited a b (firstOk a rfl) (secondOk b rfl) rest tail same
      exact ⟨by rw [values], rests⟩

/-- The bytes of a text. -/
def utf8 (text : List Char) : List UInt8 :=
  text.flatMap String.utf8EncodeChar

theorem utf8_append (s t : List Char) : utf8 (s ++ t) = utf8 s ++ utf8 t :=
  List.flatMap_append

theorem utf8ByteSize_ofList (text : List Char) : (String.ofList text).utf8ByteSize = (utf8 text).length := by
  rw [← String.size_toByteArray, String.toByteArray_ofList, List.utf8Encode]
  exact List.size_toByteArray

theorem delimited_utf8EncodeChar : Delimited (fun _ => True) String.utf8EncodeChar := by
  intro c d _ _ rest tail same
  have decode : ∀ (e : Char) (more : List UInt8),
      ((String.utf8EncodeChar e ++ more).toByteArray).utf8DecodeChar? 0 = some e := by
    intro e more
    rw [List.toByteArray_append]
    exact ByteArray.utf8DecodeChar?_utf8EncodeChar_append
  have chars : c = d := by
    have read := decode c rest
    rw [same, decode d tail, Option.some.injEq] at read
    exact read.symm
  subst chars
  exact ⟨rfl, List.append_cancel_left same⟩

theorem Delimited.utf8 {ok : α → Prop} {code : α → List Char} (delimited : Delimited ok code) :
    Delimited ok (fun a => utf8 (code a)) :=
  delimited.flatMap delimited_utf8EncodeChar

/-- Texts behind which a separator stands are read apart when neither
continues the other. -/
theorem utf8_terminated_append_inj {sep : Char} {s t : List Char} {rest tail : List UInt8} (clear : Clear sep s t)
    (same : utf8 (terminated sep s) ++ rest = utf8 (terminated sep t) ++ tail) : s = t ∧ rest = tail := by
  obtain ⟨texts, rests⟩ := (separated_terminated clear).flatMap delimited_utf8EncodeChar same
  exact ⟨List.append_cancel_right texts, rests⟩

theorem utf8_injective : Function.Injective utf8 := by
  intro s t same
  have spelled : s.flatMap String.utf8EncodeChar ++ [] = t.flatMap String.utf8EncodeChar ++ [] := by
    simpa [utf8] using same
  rcases flatMap_append_inj delimited_utf8EncodeChar spelled with ⟨more, longer, left⟩ | ⟨more, longer, right⟩
  · cases more with
    | nil => simpa using longer.symm
    | cons c more => simp [String.utf8EncodeChar_ne_nil] at left
  · cases more with
    | nil => simpa using longer
    | cons c more => simp [String.utf8EncodeChar_ne_nil] at right

end Encoding
