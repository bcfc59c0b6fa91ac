import Mathlib.Data.List.Basic
import Mathlib.Algebra.Order.Group.Nat

/-! String literals, read by the whole grammar of strings. -/

namespace Json

/-- A character as it stands, or a code unit from an escape. -/
inductive Piece where
  | char (c : Char)
  | unit (n : Nat)

def hexDigitValue (c : Char) : Option Nat :=
  if '0' ≤ c ∧ c ≤ '9' then some (c.toNat - '0'.toNat)
  else if 'a' ≤ c ∧ c ≤ 'f' then some (c.toNat - 'a'.toNat + 10)
  else if 'A' ≤ c ∧ c ≤ 'F' then some (c.toNat - 'A'.toNat + 10)
  else none

def hexUnit (a b c d : Char) : Option Nat := do
  let a ← hexDigitValue a
  let b ← hexDigitValue b
  let c ← hexDigitValue c
  let d ← hexDigitValue d
  some (((a * 16 + b) * 16 + c) * 16 + d)

/-- What the letter behind a backslash stands for. -/
def shortEscape : Char → Option Char
  | '"' => some '"'
  | '\\' => some '\\'
  | '/' => some '/'
  | 'b' => some '\x08'
  | 'f' => some '\x0c'
  | 'n' => some '\n'
  | 'r' => some '\r'
  | 't' => some '\t'
  | _ => none

/-- The pieces up to the closing quote, and what stands behind it. -/
def readPieces : List Char → Option (List Piece × List Char)
  | [] => none
  | '"' :: rest => some ([], rest)
  | ['\\'] => none
  | '\\' :: 'u' :: a :: b :: c :: d :: rest =>
    (hexUnit a b c d).bind fun n => (readPieces rest).map fun read => (.unit n :: read.1, read.2)
  | '\\' :: letter :: rest =>
    (shortEscape letter).bind fun c => (readPieces rest).map fun read => (.char c :: read.1, read.2)
  | c :: rest =>
    if c.toNat < 0x20 then none else (readPieces rest).map fun read => (.char c :: read.1, read.2)

def isHighSurrogate (n : Nat) : Bool :=
  0xD800 ≤ n && n < 0xDC00

def isLowSurrogate (n : Nat) : Bool :=
  0xDC00 ≤ n && n < 0xE000

/-- Two surrogates are one character, and one of them is none. -/
def joinPieces : List Piece → Option (List Char)
  | [] => some []
  | .char c :: rest => (joinPieces rest).map (c :: ·)
  | .unit high :: .unit low :: rest =>
    if isHighSurrogate high then
      if isLowSurrogate low then
        (joinPieces rest).map (Char.ofNat (0x10000 + (high - 0xD800) * 0x400 + (low - 0xDC00)) :: ·)
      else none
    else if isLowSurrogate high then none
    else (joinPieces (.unit low :: rest)).map (Char.ofNat high :: ·)
  | .unit n :: rest =>
    if isHighSurrogate n || isLowSurrogate n then none else (joinPieces rest).map (Char.ofNat n :: ·)

/-- The string that a text begins with, and the rest of the text. -/
def readLiteral : List Char → Option (List Char × List Char)
  | '"' :: text => do
    let (pieces, rest) ← readPieces text
    let content ← joinPieces pieces
    some (content, rest)
  | _ => none

/-- A code that is read as a piece, whatever comes behind it. -/
def ReadAs (code : List Char) (p : Piece) : Prop :=
  ∀ rest, readPieces (code ++ rest) = (readPieces rest).map fun read => (p :: read.1, read.2)

/-- A piece that is a character by itself. -/
def Piece.Is (p : Piece) (c : Char) : Prop :=
  p = .char c ∨ p = .unit c.toNat ∧ c.toNat < 0xD800

theorem readAs_char {c : Char} (printed : 0x20 ≤ c.toNat) (quotes : c ≠ '"') (backslash : c ≠ '\\') :
    ReadAs [c] (.char c) := by
  intro rest
  rw [List.singleton_append, readPieces.eq_def]
  split
  · next same => cases same
  · next same => exact absurd (List.cons.inj same).1 quotes
  · next same => exact absurd (List.cons.inj same).1 backslash
  · next same => exact absurd (List.cons.inj same).1 backslash
  · next same => exact absurd (List.cons.inj same).1 backslash
  · next same =>
    obtain ⟨rfl, rfl⟩ := List.cons.inj same
    rw [if_neg (Nat.not_lt.mpr printed)]

theorem readAs_escape {letter c : Char} (escapes : shortEscape letter = some c) : ReadAs ['\\', letter] (.char c) := by
  intro rest
  have other : letter ≠ 'u' := by
    rintro rfl
    cases escapes
  rw [List.cons_append, List.singleton_append, readPieces.eq_def]
  split
  · next same => cases same
  · next same => exact absurd (List.cons.inj same).1 (by decide)
  · next same => cases (List.cons.inj same).2
  · next same => exact absurd (List.cons.inj (List.cons.inj same).2).1 other
  · next same =>
    obtain ⟨rfl, rfl⟩ := List.cons.inj (List.cons.inj same).2
    rw [escapes, Option.bind_some]
  · next apart same =>
    obtain ⟨rfl, rfl⟩ := List.cons.inj same
    exact absurd rfl (apart _ _ rfl)

theorem readAs_unit {a b c d : Char} {n : Nat} (value : hexUnit a b c d = some n) : ReadAs ['\\', 'u', a, b, c, d] (.unit n) := by
  intro rest
  simp only [List.cons_append, List.nil_append]
  rw [readPieces, value, Option.bind_some]

theorem joinPieces_unit {n : Nat} (small : n < 0xD800) (rest : List Piece) :
    joinPieces (.unit n :: rest) = (joinPieces rest).map (Char.ofNat n :: ·) := by
  have high : isHighSurrogate n = false := by
    simp only [isHighSurrogate, Bool.and_eq_false_iff, decide_eq_false_iff_not]
    omega
  have low : isLowSurrogate n = false := by
    simp only [isLowSurrogate, Bool.and_eq_false_iff, decide_eq_false_iff_not]
    omega
  cases rest with
  | nil => simp only [joinPieces, high, low, Bool.or_self, Bool.false_eq_true, if_false]
  | cons p rest =>
    cases p with
    | char => simp only [joinPieces, high, low, Bool.or_self, Bool.false_eq_true, if_false]
    | unit => simp only [joinPieces, high, low, Bool.false_eq_true, if_false]

theorem Piece.Is.join {p : Piece} {c : Char} (is : p.Is c) (rest : List Piece) :
    joinPieces (p :: rest) = (joinPieces rest).map (c :: ·) := by
  rcases is with rfl | ⟨rfl, small⟩
  · rw [joinPieces]
  · rw [joinPieces_unit small, Char.ofNat_toNat]

/-- Codes that are read one by one are read behind each other, up to the quote. -/
theorem readLiteral_flatMap {code : Char → List Char} {text : List Char}
    (each : ∀ c ∈ text, ∃ p : Piece, ReadAs (code c) p ∧ p.Is c) (rest : List Char) :
    readLiteral ('"' :: (text.flatMap code ++ '"' :: rest)) = some (text, rest) := by
  have whole : ∃ pieces, readPieces (text.flatMap code ++ '"' :: rest) = some (pieces, rest) ∧ joinPieces pieces = some text := by
    induction text with
    | nil => exact ⟨[], by rw [List.flatMap_nil, List.nil_append, readPieces], rfl⟩
    | cons c text ih =>
      obtain ⟨pieces, read, joined⟩ := ih fun d member => each d (List.mem_cons_of_mem c member)
      obtain ⟨p, here, is⟩ := each c List.mem_cons_self
      refine ⟨p :: pieces, ?_, by rw [is.join, joined, Option.map_some]⟩
      rw [List.flatMap_cons, List.append_assoc, here, read, Option.map_some]
  obtain ⟨pieces, read, joined⟩ := whole
  simp only [readLiteral, read, joined, Option.bind_eq_bind, Option.bind_some]

example : readLiteral "\"\\ud83d\\ude00\\/\"".toList = some (['😀', '/'], []) ∧ (readLiteral "\"\\ud83d\"".toList).isSome = false := by
  decide

end Json
