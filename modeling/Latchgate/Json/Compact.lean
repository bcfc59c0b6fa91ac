import Mathlib
import Latchgate.Json.Value

namespace Json

def hexValue (c : Char) : Nat :=
  if c.isDigit then c.toNat - 48 else c.toNat - 87

/-- Reads one character of a printed string back. -/
def readChar : List Char → Option (Char × List Char)
  | '\\' :: 'u' :: '0' :: '0' :: h :: l :: rest =>
    some (Char.ofNat (16 * hexValue h + hexValue l), rest)
  | '\\' :: '"' :: rest => some ('"', rest)
  | '\\' :: '\\' :: rest => some ('\\', rest)
  | '\\' :: 'b' :: rest => some ('\x08', rest)
  | '\\' :: 'f' :: rest => some ('\x0c', rest)
  | '\\' :: 'n' :: rest => some ('\n', rest)
  | '\\' :: 'r' :: rest => some ('\r', rest)
  | '\\' :: 't' :: rest => some ('\t', rest)
  | '\\' :: _ => none
  | '"' :: _ => none
  | c :: rest => some (c, rest)
  | [] => none

theorem hexValue_hexDigit : ∀ d < 16, hexValue (hexDigit d) = d := by
  decide

theorem readChar_escapeChar (c : Char) (rest : List Char) :
    readChar (escapeChar c ++ rest) = some (c, rest) := by
  unfold escapeChar
  split_ifs with quoted slash back feed line carriage tab control
  · subst c
    rfl
  · subst c
    rfl
  · subst c
    rfl
  · subst c
    rfl
  · subst c
    rfl
  · subst c
    rfl
  · subst c
    rfl
  · have high := hexValue_hexDigit (c.toNat / 16) (by omega)
    have low := hexValue_hexDigit (c.toNat % 16) (by omega)
    simp only [List.cons_append, List.nil_append, readChar, high, low, Option.some.injEq, Prod.mk.injEq,
      and_true]
    rw [Nat.div_add_mod]
    exact Char.ofNat_toNat c
  · simp only [List.cons_append, List.nil_append]
    unfold readChar
    split <;> simp_all

/-- The closing quote of a printed string is the first unescaped one. -/
theorem escape_append_inj {s t rest tail : List Char}
    (same : escape s ++ '"' :: rest = escape t ++ '"' :: tail) : s = t ∧ rest = tail := by
  have stop : ∀ (c : Char) (more ending : List Char), escapeChar c ++ more ≠ '"' :: ending := by
    intro c more ending equal
    have read := readChar_escapeChar c more
    rw [equal] at read
    simp [readChar] at read
  induction s generalizing t with
  | nil =>
    cases t with
    | nil => simpa [escape] using same
    | cons d t =>
      rw [escape, escape, List.flatMap_nil, List.flatMap_cons, List.append_assoc] at same
      exact absurd same.symm (stop d _ _)
  | cons c s ih =>
    cases t with
    | nil =>
      rw [escape, escape, List.flatMap_nil, List.flatMap_cons, List.append_assoc] at same
      exact absurd same (stop c _ _)
    | cons d t =>
      rw [escape, escape, List.flatMap_cons, List.flatMap_cons, List.append_assoc, List.append_assoc] at same
      have read := readChar_escapeChar c (escape s ++ '"' :: rest)
      have other := readChar_escapeChar d (escape t ++ '"' :: tail)
      unfold escape at read other
      rw [same, other] at read
      obtain ⟨rfl, more⟩ := Prod.mk.inj (Option.some.inj read)
      obtain ⟨rfl, ending⟩ := ih more.symm
      exact ⟨rfl, ending⟩

theorem quote_append_inj {s t : String} {rest tail : List Char}
    (same : quote s ++ rest = quote t ++ tail) : s = t ∧ rest = tail := by
  simp only [quote, List.cons_append, List.append_assoc, List.nil_append, List.cons.injEq, true_and] at same
  obtain ⟨chars, ending⟩ := escape_append_inj same
  exact ⟨String.toList_injective chars, ending⟩

def isNumberChar (c : Char) : Bool :=
  c.isDigit || c ∈ ['-', '+', '.', 'e']

theorem numberText_plain (n : JsonNumber) : ∀ c ∈ n.text.toList, isNumberChar c := by
  intro c member
  cases n with
  | float t =>
    have plain := t.plain c member
    simpa [isNumberChar] using plain
  | int z =>
    rw [JsonNumber.text, Int.repr_eq_if] at member
    have digit : ∀ k : Nat, c ∈ k.repr.toList → isNumberChar c := by
      intro k inside
      rw [Nat.toList_repr] at inside
      simp [isNumberChar, Nat.isDigit_of_mem_toDigits (by decide) (by decide) inside]
    split_ifs at member with sign
    · exact digit _ member
    · rw [String.toList_append] at member
      rcases List.mem_append.mp member with minus | inside
      · have single : c = '-' := by simpa using minus
        subst c
        rfl
      · exact digit _ inside

theorem numberText_ne_nil (n : JsonNumber) : n.text.toList ≠ [] := by
  cases n with
  | float t =>
    obtain ⟨c, member, -⟩ := t.marked
    exact List.ne_nil_of_mem member
  | int z =>
    rw [JsonNumber.text, Int.repr_eq_if]
    split_ifs <;> simp

theorem intText_unmarked (z : Int) : ∀ c ∈ z.repr.toList, c ∉ ['.', 'e'] := by
  intro c member marked
  rw [Int.repr_eq_if] at member
  have digit : ∀ k : Nat, c ∉ k.repr.toList := by
    intro k inside
    rw [Nat.toList_repr] at inside
    have isDigit := Nat.isDigit_of_mem_toDigits (by decide) (by decide) inside
    rcases List.mem_pair.mp marked with rfl | rfl
    · exact absurd isDigit (by decide)
    · exact absurd isDigit (by decide)
  split_ifs at member with sign
  · exact digit _ member
  · rw [String.toList_append] at member
    rcases List.mem_append.mp member with minus | inside
    · have single : c = '-' := by simpa using minus
      subst c
      exact absurd marked (by decide)
    · exact digit _ inside

theorem numberText_inj {n m : JsonNumber} (same : n.text = m.text) : n = m := by
  cases n with
  | int z =>
    cases m with
    | int w => exact congrArg JsonNumber.int (Int.repr_injective same)
    | float t =>
      obtain ⟨c, member, marked⟩ := t.marked
      have text : z.repr = t.text := same
      exact absurd marked (intText_unmarked z c (text ▸ member))
  | float t =>
    cases m with
    | int w =>
      obtain ⟨c, member, marked⟩ := t.marked
      have text : t.text = w.repr := same
      exact absurd marked (intText_unmarked w c (text ▸ member))
    | float u =>
      obtain ⟨text, _, _⟩ := t
      obtain ⟨other, _, _⟩ := u
      obtain rfl : text = other := same
      rfl

/-- What may follow a printed value: nothing, or a character no number has. -/
def Delimited (rest : List Char) : Prop :=
  ∀ c ∈ rest.head?, isNumberChar c = false

theorem compactItems_delimited (items : List Json) (rest : List Char) :
    Delimited (compactItems items ++ rest) := by
  cases items <;> simp [Delimited, compactItems] <;> rfl

theorem compactFields_delimited (fields : List (String × Json)) (rest : List Char) :
    Delimited (compactFields fields ++ rest) := by
  cases fields <;> simp [Delimited, compactFields] <;> rfl

theorem number_append_inj {n m : JsonNumber} {rest tail : List Char} (ended : Delimited rest)
    (stopped : Delimited tail) (same : n.text.toList ++ rest = m.text.toList ++ tail) :
    n = m ∧ rest = tail := by
  have split : ∀ (k : JsonNumber) (more : List Char), Delimited more →
      (k.text.toList ++ more).span isNumberChar = (k.text.toList, more) := by
    intro k more delimited
    rw [List.span_eq_takeWhile_dropWhile, List.takeWhile_append_of_pos (numberText_plain k),
      List.dropWhile_append_of_pos (numberText_plain k)]
    cases more with
    | nil => simp
    | cons c more =>
      have stop := delimited c (by simp)
      simp [stop]
  have left := split n rest ended
  rw [same, split m tail stopped] at left
  obtain ⟨text, ending⟩ := Prod.mk.inj left
  exact ⟨numberText_inj (String.toList_injective text.symm), ending.symm⟩

/-- The first character of a value tells its kind. -/
inductive Kind where
  | null
  | bool (b : Bool)
  | number
  | string
  | array
  | object

def kind : Json → Kind
  | null => .null
  | bool b => .bool b
  | number _ => .number
  | string _ => .string
  | array _ => .array
  | object _ => .object

def kindOfChar (c : Char) : Kind :=
  if c = 'n' then .null
  else if c = 't' then .bool true
  else if c = 'f' then .bool false
  else if c = '"' then .string
  else if c = '[' then .array
  else if c = '\x7b' then .object
  else .number

theorem kindOfChar_number {c : Char} (plain : isNumberChar c) : kindOfChar c = .number := by
  have different : ∀ d ∈ ['n', 't', 'f', '"', '[', '\x7b'], c ≠ d := by
    intro d member equal
    subst d
    fin_cases member <;> exact absurd plain (by decide)
  simp only [List.mem_cons, List.not_mem_nil, or_false, forall_eq_or_imp, forall_eq] at different
  simp [kindOfChar, different]

theorem compact_head (v : Json) :
    ∃ c rest, compact v = c :: rest ∧ kindOfChar c = kind v ∧ c ≠ ']' := by
  cases v with
  | null => exact ⟨_, _, by rw [compact], rfl, by decide⟩
  | bool b => cases b <;> exact ⟨_, _, by rw [compact], rfl, by decide⟩
  | string s => exact ⟨_, _, by rw [compact, quote], rfl, by decide⟩
  | array items => cases items <;> exact ⟨_, _, by rw [compact], rfl, by decide⟩
  | object fields =>
    cases fields with
    | nil => exact ⟨_, _, by rw [compact], rfl, by decide⟩
    | cons field rest =>
      obtain ⟨k, v⟩ := field
      exact ⟨_, _, by rw [compact], rfl, by decide⟩
  | number n =>
    obtain ⟨c, rest, text⟩ := List.exists_cons_of_ne_nil (numberText_ne_nil n)
    have plain : isNumberChar c := numberText_plain n c (by simp [text])
    refine ⟨c, rest, by rw [compact, text], kindOfChar_number plain, ?_⟩
    intro bracket
    subst c
    exact absurd plain (by decide)

theorem kind_eq_of_append {v w : Json} {rest tail : List Char}
    (same : compact v ++ rest = compact w ++ tail) : kind v = kind w := by
  obtain ⟨c, more, text, first, -⟩ := compact_head v
  obtain ⟨d, others, printed, second, -⟩ := compact_head w
  rw [text, printed] at same
  rw [← first, ← second, (List.cons.inj same).1]

theorem compact_append_ne_bracket (v : Json) (rest tail : List Char) :
    compact v ++ rest ≠ ']' :: tail := by
  intro same
  obtain ⟨c, more, text, -, notBracket⟩ := compact_head v
  rw [text] at same
  exact notBracket (List.cons.inj same).1

mutual

/-- A printed value ends where its text says: two documents with delimited
continuations that print alike are one document. -/
theorem compact_append_inj : ∀ (v w : Json) {rest tail : List Char}, Delimited rest → Delimited tail →
    compact v ++ rest = compact w ++ tail → v = w ∧ rest = tail
  | v, w, rest, tail, ended, stopped, same => by
    have kinds := kind_eq_of_append same
    match v, w with
    | null, null => exact ⟨rfl, by simpa [compact] using same⟩
    | bool b, bool c =>
      obtain rfl : b = c := by simpa [kind] using kinds
      cases b <;> exact ⟨rfl, by simpa [compact] using same⟩
    | number n, number m =>
      rw [compact, compact] at same
      obtain ⟨rfl, ending⟩ := number_append_inj ended stopped same
      exact ⟨rfl, ending⟩
    | string s, string t =>
      rw [compact, compact] at same
      obtain ⟨rfl, ending⟩ := quote_append_inj same
      exact ⟨rfl, ending⟩
    | array items, array others =>
      match items, others with
      | [], [] => exact ⟨rfl, by simpa [compact] using same⟩
      | [], w :: others =>
        simp only [compact, List.cons_append, List.nil_append, List.append_assoc, List.cons.injEq,
          true_and] at same
        exact absurd same.symm (compact_append_ne_bracket w _ _)
      | v :: rest, [] =>
        simp only [compact, List.cons_append, List.nil_append, List.append_assoc, List.cons.injEq,
          true_and] at same
        exact absurd same (compact_append_ne_bracket v _ _)
      | v :: rest, w :: others =>
        simp only [compact, List.cons_append, List.append_assoc, List.cons.injEq, true_and] at same
        obtain ⟨rfl, following⟩ := compact_append_inj v w (compactItems_delimited _ _)
          (compactItems_delimited _ _) same
        obtain ⟨rfl, ending⟩ := compactItems_append_inj rest others following
        exact ⟨rfl, ending⟩
    | object fields, object others =>
      match fields, others with
      | [], [] => exact ⟨rfl, by simpa [compact] using same⟩
      | [], (k, v) :: rest => simp [compact, quote] at same
      | (k, v) :: rest, [] => simp [compact, quote] at same
      | (k, v) :: rest, (l, w) :: others =>
        simp only [compact, List.cons_append, List.append_assoc, List.cons.injEq, true_and] at same
        obtain ⟨rfl, colon⟩ := quote_append_inj same
        simp only [List.cons.injEq, true_and] at colon
        obtain ⟨rfl, following⟩ := compact_append_inj v w (compactFields_delimited _ _)
          (compactFields_delimited _ _) colon
        obtain ⟨rfl, ending⟩ := compactFields_append_inj rest others following
        exact ⟨rfl, ending⟩

theorem compactItems_append_inj : ∀ (items others : List Json) {rest tail : List Char},
    compactItems items ++ rest = compactItems others ++ tail → items = others ∧ rest = tail
  | [], [], rest, tail, same => ⟨rfl, by simpa [compactItems] using same⟩
  | [], _ :: _, rest, tail, same => by simp [compactItems] at same
  | _ :: _, [], rest, tail, same => by simp [compactItems] at same
  | v :: items, w :: others, rest, tail, same => by
    simp only [compactItems, List.cons_append, List.append_assoc, List.cons.injEq, true_and] at same
    obtain ⟨rfl, following⟩ := compact_append_inj v w (compactItems_delimited _ _)
      (compactItems_delimited _ _) same
    obtain ⟨rfl, ending⟩ := compactItems_append_inj items others following
    exact ⟨rfl, ending⟩

theorem compactFields_append_inj : ∀ (fields others : List (String × Json)) {rest tail : List Char},
    compactFields fields ++ rest = compactFields others ++ tail → fields = others ∧ rest = tail
  | [], [], rest, tail, same => ⟨rfl, by simpa [compactFields] using same⟩
  | [], (_, _) :: _, rest, tail, same => by simp [compactFields] at same
  | (_, _) :: _, [], rest, tail, same => by simp [compactFields] at same
  | (k, v) :: fields, (l, w) :: others, rest, tail, same => by
    simp only [compactFields, List.cons_append, List.append_assoc, List.cons.injEq, true_and] at same
    obtain ⟨rfl, colon⟩ := quote_append_inj same
    simp only [List.cons.injEq, true_and] at colon
    obtain ⟨rfl, following⟩ := compact_append_inj v w (compactFields_delimited _ _)
      (compactFields_delimited _ _) colon
    obtain ⟨rfl, ending⟩ := compactFields_append_inj fields others following
    exact ⟨rfl, ending⟩

end

/-- No two documents have the same compact text. -/
theorem toCompactString_injective : Function.Injective toCompactString := by
  intro v w same
  have text : compact v = compact w := String.ofList_injective same
  have ended : Delimited [] := by simp [Delimited]
  exact (compact_append_inj v w ended ended (by rw [text])).1

end Json
