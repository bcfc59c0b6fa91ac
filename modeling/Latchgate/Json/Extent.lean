import Latchgate.Core.Canonical
import Latchgate.Encoding.Ascii
import Mathlib.Algebra.GroupWithZero.Nat
import Mathlib.Order.Bounds.Basic

namespace Json
open Encoding (utf8 utf8_append utf8_cons)

/-! The length of a compact text, counted without the text. -/

/-- What a byte of a string takes in the printed string. -/
def escapedUnit (b : UInt8) : Nat :=
  if b = 34 ∨ b = 92 then 2
  else if b = 10 ∨ b = 13 ∨ b = 9 ∨ b = 0x08 ∨ b = 0x0c then 2
  else if b < 0x20 then 6
  else 1

def escapedByteLen (s : String) : Nat :=
  ((utf8 s.toList).map escapedUnit).sum

mutual

/-- `json_compact_byte_len` -/
def compactByteLen : Json → Nat
  | null => 4
  | bool true => 4
  | bool false => 5
  | number n => (utf8 n.text.toList).length
  | string s => 2 + escapedByteLen s
  | array items => 2 + compactByteLenItems items + (items.length - 1)
  | object fields => 2 + compactByteLenFields fields + (fields.length - 1)

def compactByteLenItems : List Json → Nat
  | [] => 0
  | v :: rest => compactByteLen v + compactByteLenItems rest

def compactByteLenFields : List (String × Json) → Nat
  | [] => 0
  | (k, v) :: rest => 2 + escapedByteLen k + 1 + compactByteLen v + compactByteLenFields rest

end

/-- The characters that have an escape of their own. -/
def named : List Char := ['"', '\\', '\x08', '\x0c', '\n', '\r', '\t']

theorem named_small : ∀ d ∈ named, d.toNat < 128 := by
  have all : (named.all fun d => d.toNat < 128) = true := by decide
  exact fun d member => of_decide_eq_true (List.all_eq_true.mp all d member)

theorem escapeChar_control {c : Char} (absent : c ∉ named) (control : c.toNat < 32) :
    escapeChar c = ['\\', 'u', '0', '0', hexDigit (c.toNat / 16), hexDigit (c.toNat % 16)] := by
  simp only [named, List.mem_cons, List.not_mem_nil, or_false, not_or] at absent
  obtain ⟨quotes, backslash, backspace, feed, line, carriage, tab⟩ := absent
  rw [escapeChar, if_neg quotes, if_neg backslash, if_neg backspace, if_neg feed, if_neg line, if_neg carriage, if_neg tab,
    if_pos control]

theorem escapeChar_plain {c : Char} (absent : c ∉ named) (printed : ¬c.toNat < 32) : escapeChar c = [c] := by
  simp only [named, List.mem_cons, List.not_mem_nil, or_false, not_or] at absent
  obtain ⟨quotes, backslash, backspace, feed, line, carriage, tab⟩ := absent
  rw [escapeChar, if_neg quotes, if_neg backslash, if_neg backspace, if_neg feed, if_neg line, if_neg carriage, if_neg tab,
    if_neg printed]

theorem escapedUnit_unnamed {c : Char} (absent : c ∉ named) (ascii : c.toNat < 128) :
    escapedUnit (UInt8.ofNat c.toNat) = if c.toNat < 32 then 6 else 1 := by
  have number : (UInt8.ofNat c.toNat).toNat = c.toNat := by
    rw [UInt8.toNat_ofNat']
    omega
  have other : ∀ d ∈ named, UInt8.ofNat c.toNat ≠ UInt8.ofNat d.toNat := by
    intro d member same
    have small := named_small d member
    have equal : c.toNat = d.toNat := by
      rw [← number, same, UInt8.toNat_ofNat']
      omega
    exact absent (Char.toNat_inj.mp equal ▸ member)
  have first : ¬(UInt8.ofNat c.toNat = 34 ∨ UInt8.ofNat c.toNat = 92) :=
    not_or.mpr ⟨other '"' (by decide), other '\\' (by decide)⟩
  have second : ¬(UInt8.ofNat c.toNat = 10 ∨ UInt8.ofNat c.toNat = 13 ∨ UInt8.ofNat c.toNat = 9 ∨
      UInt8.ofNat c.toNat = 0x08 ∨ UInt8.ofNat c.toNat = 0x0c) :=
    not_or.mpr ⟨other '\n' (by decide), not_or.mpr ⟨other '\r' (by decide), not_or.mpr ⟨other '\t' (by decide),
      not_or.mpr ⟨other '\x08' (by decide), other '\x0c' (by decide)⟩⟩⟩⟩
  have control : UInt8.ofNat c.toNat < 0x20 ↔ c.toNat < 32 := by
    rw [UInt8.lt_iff_toNat_lt, number]
    rfl
  rw [escapedUnit, if_neg first, if_neg second]
  simp only [control]

/-- A byte that is no character of its own counts once. -/
theorem escapedUnit_high {b : UInt8} (high : 128 ≤ b.toNat) : escapedUnit b = 1 := by
  have other (d : UInt8) (low : d.toNat < 128) : b ≠ d := by
    rintro rfl
    omega
  have printed : ¬b < 0x20 := by
    rw [UInt8.lt_iff_toNat_lt]
    exact Nat.not_lt.mpr (Nat.le_trans (by decide) high)
  have first : ¬(b = 34 ∨ b = 92) := not_or.mpr ⟨other _ (by decide), other _ (by decide)⟩
  have second : ¬(b = 10 ∨ b = 13 ∨ b = 9 ∨ b = 0x08 ∨ b = 0x0c) :=
    not_or.mpr ⟨other _ (by decide), not_or.mpr ⟨other _ (by decide), not_or.mpr ⟨other _ (by decide),
      not_or.mpr ⟨other _ (by decide), other _ (by decide)⟩⟩⟩⟩
  rw [escapedUnit, if_neg first, if_neg second, if_neg printed]

/-- The bytes of a character count as much as its escape is long. -/
theorem length_escapeChar (c : Char) :
    (utf8 (escapeChar c)).length = ((String.utf8EncodeChar c).map escapedUnit).sum := by
  by_cases ascii : c.toNat < 128
  · rw [Encoding.utf8EncodeChar_ascii ascii, List.map_singleton, List.sum_singleton]
    by_cases absent : c ∉ named
    · rw [escapedUnit_unnamed absent ascii]
      by_cases control : c.toNat < 32
      · have digit : ∀ d < 16, (hexDigit d).toNat < 128 := by decide
        have high := digit (c.toNat / 16) (by omega)
        have low := digit (c.toNat % 16) (by omega)
        have small : ∀ d ∈ ['\\', 'u', '0', '0', hexDigit (c.toNat / 16), hexDigit (c.toNat % 16)], d.toNat < 128 := by
          intro d member
          simp only [List.mem_cons, List.not_mem_nil, or_false] at member
          rcases member with rfl | rfl | rfl | rfl | rfl | rfl
          all_goals first | assumption | decide
        rw [escapeChar_control absent control, Encoding.utf8_ascii small, if_pos control]
        rfl
      · rw [escapeChar_plain absent control, if_neg control, utf8_cons, Encoding.utf8EncodeChar_ascii ascii]
        rfl
    · have short : (named.all fun d => (utf8 (escapeChar d)).length = escapedUnit (UInt8.ofNat d.toNat)) = true := by decide
      exact of_decide_eq_true (List.all_eq_true.mp short c (not_not.mp absent))
  · have absent : c ∉ named := fun member => ascii (named_small c member)
    have single : utf8 [c] = String.utf8EncodeChar c := by rw [utf8_cons]; exact List.append_nil _
    have once : ∀ n ∈ (String.utf8EncodeChar c).map escapedUnit, n = 1 := by
      intro n member
      obtain ⟨b, inside, rfl⟩ := List.mem_map.mp member
      refine escapedUnit_high (Nat.not_lt.mp fun low => ascii ?_)
      rw [Encoding.toNat_eq_of_mem_utf8EncodeChar inside low]
      exact low
    rw [escapeChar_plain absent (by omega), single, List.eq_replicate_of_mem once, List.sum_replicate_nat, List.length_map,
      Nat.mul_one]

theorem length_escape (text : List Char) : (utf8 (escape text)).length = ((utf8 text).map escapedUnit).sum := by
  induction text with
  | nil => rfl
  | cons c text ih =>
    rw [escape, List.flatMap_cons, utf8_append, List.length_append, length_escapeChar, utf8_cons, List.map_append,
      List.sum_append, ← ih]
    rfl

theorem length_utf8_cons {c : Char} (ascii : c.toNat < 128) (text : List Char) :
    (utf8 (c :: text)).length = (utf8 text).length + 1 := by
  rw [utf8_cons, Encoding.utf8EncodeChar_ascii ascii]
  rfl

theorem length_quote (s : String) : (utf8 (quote s)).length = 2 + escapedByteLen s := by
  rw [quote, length_utf8_cons (by decide), utf8_append, List.length_append, length_escape, length_utf8_cons (by decide)]
  change _ + 1 + 1 = _
  rw [escapedByteLen]
  omega

mutual

/-- The count is the number of bytes of the printed document. -/
theorem length_compact : ∀ v : Json, (utf8 v.compact).length = v.compactByteLen
  | null => rfl
  | bool true => rfl
  | bool false => rfl
  | number _ => rfl
  | string s => by rw [compact, length_quote, compactByteLen]
  | array [] => rfl
  | array (v :: rest) => by
    rw [compact, length_utf8_cons (by decide), utf8_append, List.length_append, length_compact v, length_compactItems rest,
      compactByteLen, compactByteLenItems, List.length_cons]
    omega
  | object [] => rfl
  | object ((k, v) :: rest) => by
    rw [compact, length_utf8_cons (by decide), utf8_append, List.length_append, length_quote,
      length_utf8_cons (by decide), utf8_append, List.length_append, length_compact v, length_compactFields rest,
      compactByteLen, compactByteLenFields, List.length_cons]
    omega

theorem length_compactItems : ∀ items : List Json,
    (utf8 (compactItems items)).length = compactByteLenItems items + items.length + 1
  | [] => rfl
  | v :: rest => by
    rw [compactItems, length_utf8_cons (by decide), utf8_append, List.length_append, length_compact v,
      length_compactItems rest, compactByteLenItems, List.length_cons]
    omega

theorem length_compactFields : ∀ fields : List (String × Json),
    (utf8 (compactFields fields)).length = compactByteLenFields fields + fields.length + 1
  | [] => rfl
  | (k, v) :: rest => by
    rw [compactFields, length_utf8_cons (by decide), utf8_append, List.length_append, length_quote,
      length_utf8_cons (by decide), utf8_append, List.length_append, length_compact v, length_compactFields rest,
      compactByteLenFields, List.length_cons]
    omega

end

/-! What the depth and the longest array are of. -/

/-- A value is reached in a document through a number of arrays and objects. -/
inductive Reaches : Nat → Json → Json → Prop
  | here (v : Json) : Reaches 0 v v
  | item {n : Nat} {items : List Json} {v w : Json} : v ∈ items → Reaches n v w → Reaches (n + 1) (array items) w
  | field {n : Nat} {fields : List (String × Json)} {k : String} {v w : Json} :
    (k, v) ∈ fields → Reaches n v w → Reaches (n + 1) (object fields) w

/-- A number of arrays and objects that stand within each other in a document. -/
def Nested (v : Json) (n : Nat) : Prop :=
  n = 0 ∨ ∃ m, n = m + 1 ∧ ((∃ items, Reaches m v (array items)) ∨ ∃ fields, Reaches m v (object fields))

/-- The length of an array that stands in a document. -/
def ArrayLen (v : Json) (n : Nat) : Prop :=
  ∃ m items, Reaches m v (array items) ∧ items.length = n

theorem nested_array {items : List Json} {n : Nat} :
    Nested (array items) n ↔ n = 0 ∨ ∃ m, n = m + 1 ∧ (m = 0 ∨ ∃ v ∈ items, Nested v m) := by
  constructor
  · rintro (zero | ⟨m, rfl, ⟨inner, reached⟩ | ⟨inner, reached⟩⟩)
    · exact .inl zero
    · cases reached with
      | here => exact .inr ⟨0, rfl, .inl rfl⟩
      | item member inside => exact .inr ⟨_, rfl, .inr ⟨_, member, .inr ⟨_, rfl, .inl ⟨inner, inside⟩⟩⟩⟩
    · cases reached with
      | item member inside => exact .inr ⟨_, rfl, .inr ⟨_, member, .inr ⟨_, rfl, .inr ⟨inner, inside⟩⟩⟩⟩
  · have here : Nested (array items) 1 := .inr ⟨0, rfl, .inl ⟨items, .here _⟩⟩
    rintro (zero | ⟨m, rfl, rfl | ⟨v, member, rfl | ⟨k, rfl, ⟨inner, inside⟩ | ⟨inner, inside⟩⟩⟩⟩)
    · exact .inl zero
    · exact here
    · exact here
    · exact .inr ⟨k + 1, rfl, .inl ⟨inner, .item member inside⟩⟩
    · exact .inr ⟨k + 1, rfl, .inr ⟨inner, .item member inside⟩⟩

theorem nested_object {fields : List (String × Json)} {n : Nat} :
    Nested (object fields) n ↔ n = 0 ∨ ∃ m, n = m + 1 ∧ (m = 0 ∨ ∃ v ∈ fields.map Prod.snd, Nested v m) := by
  constructor
  · rintro (zero | ⟨m, rfl, ⟨inner, reached⟩ | ⟨inner, reached⟩⟩)
    · exact .inl zero
    · cases reached with
      | field member inside =>
        exact .inr ⟨_, rfl, .inr ⟨_, List.mem_map_of_mem member, .inr ⟨_, rfl, .inl ⟨inner, inside⟩⟩⟩⟩
    · cases reached with
      | here => exact .inr ⟨0, rfl, .inl rfl⟩
      | field member inside =>
        exact .inr ⟨_, rfl, .inr ⟨_, List.mem_map_of_mem member, .inr ⟨_, rfl, .inr ⟨inner, inside⟩⟩⟩⟩
  · have here : Nested (object fields) 1 := .inr ⟨0, rfl, .inr ⟨fields, .here _⟩⟩
    rintro (zero | ⟨m, rfl, rfl | ⟨v, inMap, rfl | ⟨k, rfl, inside⟩⟩⟩)
    · exact .inl zero
    · exact here
    · exact here
    · obtain ⟨⟨key, _⟩, member, rfl⟩ := List.mem_map.mp inMap
      rcases inside with ⟨inner, inside⟩ | ⟨inner, inside⟩
      · exact .inr ⟨k + 1, rfl, .inl ⟨inner, .field member inside⟩⟩
      · exact .inr ⟨k + 1, rfl, .inr ⟨inner, .field member inside⟩⟩

theorem isGreatest_scalar {v : Json} (noArray : ∀ items, v ≠ array items) (noObject : ∀ fields, v ≠ object fields) :
    IsGreatest {n | Nested v n} 0 := by
  refine ⟨.inl rfl, ?_⟩
  rintro n (zero | ⟨m, rfl, ⟨inner, reached⟩ | ⟨inner, reached⟩⟩)
  · exact zero.le
  all_goals
    cases reached with
    | here => first | exact absurd rfl (noArray _) | exact absurd rfl (noObject _)
    | item => exact absurd rfl (noArray _)
    | field => exact absurd rfl (noObject _)

/-- The greatest of what the members of a list have. -/
theorem isGreatest_cons {α : Type} {has : α → Nat → Prop} {v : α} {rest : List α} {m n : Nat}
    (first : IsGreatest {k | has v k} m) (others : IsGreatest {k | k = 0 ∨ ∃ w ∈ rest, has w k} n) :
    IsGreatest {k | k = 0 ∨ ∃ w ∈ v :: rest, has w k} (max m n) := by
  have split : {k | k = 0 ∨ ∃ w ∈ v :: rest, has w k} = {k | has v k} ∪ {k | k = 0 ∨ ∃ w ∈ rest, has w k} := by
    ext k
    simp only [List.exists_mem_cons_iff, Set.mem_ofPred_eq, Set.mem_union]
    exact or_left_comm
  rw [split]
  exact first.union others

theorem isGreatest_level {levels : Nat → Prop} {m : Nat} (inner : IsGreatest {k | k = 0 ∨ levels k} m) :
    IsGreatest {n | n = 0 ∨ ∃ k, n = k + 1 ∧ (k = 0 ∨ levels k)} (1 + m) := by
  refine ⟨.inr ⟨m, Nat.add_comm 1 m, inner.1⟩, ?_⟩
  rintro n (rfl | ⟨k, rfl, within⟩)
  · exact Nat.zero_le _
  · have bound := inner.2 within
    omega

mutual

theorem depth_isGreatest : ∀ v : Json, IsGreatest {n | Nested v n} v.depth
  | null => isGreatest_scalar nofun nofun
  | bool _ => isGreatest_scalar nofun nofun
  | number _ => isGreatest_scalar nofun nofun
  | string _ => isGreatest_scalar nofun nofun
  | array items => by
    simp only [nested_array]
    exact isGreatest_level (depthItems_isGreatest items)
  | object fields => by
    simp only [nested_object]
    exact isGreatest_level (depthFields_isGreatest fields)

theorem depthItems_isGreatest : ∀ items : List Json, IsGreatest {n | n = 0 ∨ ∃ v ∈ items, Nested v n} (depthItems items)
  | [] => ⟨.inl rfl, by rintro n (rfl | ⟨_, member, _⟩); exacts [le_rfl, absurd member List.not_mem_nil]⟩
  | v :: rest => isGreatest_cons (depth_isGreatest v) (depthItems_isGreatest rest)

theorem depthFields_isGreatest : ∀ fields : List (String × Json),
    IsGreatest {n | n = 0 ∨ ∃ v ∈ fields.map Prod.snd, Nested v n} (depthFields fields)
  | [] => ⟨.inl rfl, by rintro n (rfl | ⟨_, member, _⟩); exacts [le_rfl, absurd member List.not_mem_nil]⟩
  | (_, v) :: rest => isGreatest_cons (depth_isGreatest v) (depthFields_isGreatest rest)

end

theorem arrayLen_array {items : List Json} {n : Nat} :
    ArrayLen (array items) n ↔ n = items.length ∨ ∃ v ∈ items, ArrayLen v n := by
  constructor
  · rintro ⟨m, inner, reached, rfl⟩
    cases reached with
    | here => exact .inl rfl
    | item member inside => exact .inr ⟨_, member, _, inner, inside, rfl⟩
  · rintro (rfl | ⟨v, member, m, inner, inside, rfl⟩)
    · exact ⟨0, items, .here _, rfl⟩
    · exact ⟨m + 1, inner, .item member inside, rfl⟩

theorem arrayLen_object {fields : List (String × Json)} {n : Nat} :
    ArrayLen (object fields) n ↔ ∃ v ∈ fields.map Prod.snd, ArrayLen v n := by
  constructor
  · rintro ⟨m, inner, reached, rfl⟩
    cases reached with
    | field member inside => exact ⟨_, List.mem_map_of_mem member, _, inner, inside, rfl⟩
  · rintro ⟨v, inMap, m, inner, inside, rfl⟩
    obtain ⟨⟨key, _⟩, member, rfl⟩ := List.mem_map.mp inMap
    exact ⟨m + 1, inner, .field member inside, rfl⟩

/-- The greatest number with a property, none if there is no such number. -/
def Greatest (has : Nat → Prop) (o : Option Nat) : Prop :=
  (o = none → ∀ n, ¬has n) ∧ ∀ m, o = some m → IsGreatest {n | has n} m

theorem Greatest.empty : Greatest (fun _ => False) none :=
  ⟨fun _ _ => id, fun _ known => nomatch known⟩

theorem Greatest.congr {has other : Nat → Prop} {o : Option Nat} (greatest : Greatest has o)
    (same : ∀ n, other n ↔ has n) : Greatest other o := by
  rwa [show other = has from funext fun n => propext (same n)]

theorem Greatest.larger {first second : Nat → Prop} {o p : Option Nat} (left : Greatest first o) (right : Greatest second p) :
    Greatest (fun n => first n ∨ second n) (Json.larger o p) := by
  have both : {n | first n ∨ second n} = {n | first n} ∪ {n | second n} := rfl
  cases o with
  | none =>
    have same (n : Nat) : first n ∨ second n ↔ second n := or_iff_right (left.1 rfl n)
    exact right.congr same
  | some m =>
    cases p with
    | none =>
      have same (n : Nat) : first n ∨ second n ↔ first n := or_iff_left (right.1 rfl n)
      exact left.congr same
    | some k =>
      refine ⟨nofun, fun greatest known => ?_⟩
      cases known
      rw [both]
      exact (left.2 m rfl).union (right.2 k rfl)

theorem Greatest.cons {has : Json → Nat → Prop} {v : Json} {rest : List Json} {o p : Option Nat}
    (first : Greatest (has v) o) (others : Greatest (fun n => ∃ w ∈ rest, has w n) p) :
    Greatest (fun n => ∃ w ∈ v :: rest, has w n) (Json.larger o p) :=
  (first.larger others).congr fun _ => List.exists_mem_cons_iff ..

theorem Greatest.own {has : Nat → Prop} {o : Option Nat} (inner : Greatest has o) (length : Nat) :
    Greatest (fun n => n = length ∨ has n) (some (max length (o.getD 0))) := by
  refine ⟨nofun, fun greatest known => ?_⟩
  cases known
  cases o with
  | none =>
    refine ⟨.inl (Nat.max_zero length), ?_⟩
    rintro n (rfl | inside)
    · exact le_max_left _ _
    · exact absurd inside (inner.1 rfl n)
  | some m =>
    have both : {n | n = length ∨ has n} = {n | n = length} ∪ {n | has n} := rfl
    rw [both]
    exact IsGreatest.union ⟨rfl, fun n here => here.le⟩ (inner.2 m rfl)

mutual

theorem maxArrayLen_greatest : ∀ v : Json, Greatest (ArrayLen v) v.maxArrayLen
  | null => (Greatest.empty).congr fun _ => iff_false_intro fun ⟨_, _, reached, _⟩ => nomatch reached
  | bool _ => (Greatest.empty).congr fun _ => iff_false_intro fun ⟨_, _, reached, _⟩ => nomatch reached
  | number _ => (Greatest.empty).congr fun _ => iff_false_intro fun ⟨_, _, reached, _⟩ => nomatch reached
  | string _ => (Greatest.empty).congr fun _ => iff_false_intro fun ⟨_, _, reached, _⟩ => nomatch reached
  | array items => ((maxArrayLenItems_greatest items).own items.length).congr fun _ => arrayLen_array
  | object fields => (maxArrayLenFields_greatest fields).congr fun _ => arrayLen_object

theorem maxArrayLenItems_greatest : ∀ items : List Json,
    Greatest (fun n => ∃ v ∈ items, ArrayLen v n) (maxArrayLenItems items)
  | [] => (Greatest.empty).congr fun _ => iff_false_intro fun ⟨_, member, _⟩ => nomatch member
  | v :: rest => (maxArrayLen_greatest v).cons (maxArrayLenItems_greatest rest)

theorem maxArrayLenFields_greatest : ∀ fields : List (String × Json),
    Greatest (fun n => ∃ v ∈ fields.map Prod.snd, ArrayLen v n) (maxArrayLenFields fields)
  | [] => (Greatest.empty).congr fun _ => iff_false_intro fun ⟨_, member, _⟩ => nomatch member
  | (_, v) :: rest => (maxArrayLen_greatest v).cons (maxArrayLenFields_greatest rest)

end

theorem toCompactString_size (v : Json) : v.toCompactString.utf8ByteSize = v.compactByteLen := by
  rw [toCompactString, Encoding.utf8ByteSize_ofList, length_compact]

/-- The measures of a document are those of its text and of its parts. -/
theorem extent_spec (v : Json) :
    v.compactByteLen = v.toCompactString.utf8ByteSize ∧ IsGreatest {n | Nested v n} v.depth ∧
      (v.maxArrayLen = none → ∀ n, ¬ArrayLen v n) ∧ ∀ m, v.maxArrayLen = some m → IsGreatest {n | ArrayLen v n} m :=
  ⟨v.toCompactString_size.symm, v.depth_isGreatest, v.maxArrayLen_greatest⟩

end Json
