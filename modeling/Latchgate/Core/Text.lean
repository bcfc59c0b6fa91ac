import Mathlib.Data.List.DropRight

namespace Latchgate

/-! Texts. -/

def isWhitespace (c : Char) : Bool :=
  (9 ≤ c.toNat && c.toNat ≤ 13) || c.toNat ∈ [0x20, 0x85, 0xA0, 0x1680, 0x2028, 0x2029, 0x202F, 0x205F, 0x3000] ||
    (0x2000 ≤ c.toNat && c.toNat ≤ 0x200A)

def trimEnd (text : List Char) : List Char :=
  text.rdropWhile isWhitespace

def trim (text : List Char) : List Char :=
  (text.dropWhile isWhitespace).rdropWhile isWhitespace

def splitWhitespace (text : List Char) : List (List Char) :=
  (text.splitOnP isWhitespace).filter fun word => word ≠ []

/-- The pieces between line feeds; nothing stands after the last one. -/
def splitLines : List Char → List (List Char)
  | [] => []
  | c :: rest =>
    if c = '\n' then [] :: splitLines rest
    else match splitLines rest with
      | [] => [[c]]
      | line :: lines => (c :: line) :: lines

def stripCr (line : List Char) : List Char :=
  if line.getLast? = some '\r' then line.dropLast else line

/-- `str::lines`. -/
def lines (text : List Char) : List (List Char) :=
  (splitLines text).map stripCr

def splitOnce (sep : Char) : List Char → Option (List Char × List Char)
  | [] => none
  | c :: rest =>
    if c = sep then some ([], rest)
    else do
      let (first, tail) ← splitOnce sep rest
      some (c :: first, tail)

def lowerText (text : List Char) : List Char :=
  text.map Char.toLower

def isContinuation (b : UInt8) : Bool :=
  0x80 ≤ b && b ≤ 0xBF

/-- Which second bytes the first byte of a sequence of three or four allows. -/
def secondAllowed (b c : UInt8) : Bool :=
  if b = 0xE0 then 0xA0 ≤ c && c ≤ 0xBF
  else if b = 0xED then 0x80 ≤ c && c ≤ 0x9F
  else if b = 0xF0 then 0x90 ≤ c && c ≤ 0xBF
  else if b = 0xF4 then 0x80 ≤ c && c ≤ 0x8F
  else isContinuation c

def replacementCharacter : Char :=
  Char.ofNat 0xFFFD

/-- Every longest start of a sequence that cannot be completed becomes one
replacement character. -/
def lossyFrom : Nat → List UInt8 → List Char
  | 0, _ => []
  | _, [] => []
  | fuel + 1, b :: rest =>
    if b < 0x80 then Char.ofNat b.toNat :: lossyFrom fuel rest
    else if 0xC2 ≤ b ∧ b ≤ 0xDF then
      match rest with
      | c :: tail =>
        if isContinuation c then Char.ofNat ((b.toNat - 0xC0) * 64 + (c.toNat - 0x80)) :: lossyFrom fuel tail
        else replacementCharacter :: lossyFrom fuel rest
      | [] => [replacementCharacter]
    else if 0xE0 ≤ b ∧ b ≤ 0xEF then
      match rest with
      | c :: d :: tail =>
        if secondAllowed b c = false then replacementCharacter :: lossyFrom fuel rest
        else if isContinuation d = false then replacementCharacter :: lossyFrom fuel (d :: tail)
        else Char.ofNat (((b.toNat - 0xE0) * 64 + (c.toNat - 0x80)) * 64 + (d.toNat - 0x80)) :: lossyFrom fuel tail
      | [c] =>
        if secondAllowed b c = false then replacementCharacter :: lossyFrom fuel rest else [replacementCharacter]
      | [] => [replacementCharacter]
    else if 0xF0 ≤ b ∧ b ≤ 0xF4 then
      match rest with
      | c :: d :: e :: tail =>
        if secondAllowed b c = false then replacementCharacter :: lossyFrom fuel rest
        else if isContinuation d = false then replacementCharacter :: lossyFrom fuel (d :: e :: tail)
        else if isContinuation e = false then replacementCharacter :: lossyFrom fuel (e :: tail)
        else Char.ofNat ((((b.toNat - 0xF0) * 64 + (c.toNat - 0x80)) * 64 + (d.toNat - 0x80)) * 64 + (e.toNat - 0x80)) ::
          lossyFrom fuel tail
      | [c, d] =>
        if secondAllowed b c = false then replacementCharacter :: lossyFrom fuel rest
        else if isContinuation d = false then replacementCharacter :: lossyFrom fuel [d]
        else [replacementCharacter]
      | [c] =>
        if secondAllowed b c = false then replacementCharacter :: lossyFrom fuel rest else [replacementCharacter]
      | [] => [replacementCharacter]
    else replacementCharacter :: lossyFrom fuel rest

def fromUtf8Lossy (bytes : List UInt8) : List Char :=
  lossyFrom bytes.length bytes

/-- An unsigned number, with or without a plus sign. -/
def parseUnsigned (bound : Nat) (text : List Char) : Option Nat :=
  let digits := match text with
    | '+' :: rest => rest
    | _ => text
  if digits ≠ [] ∧ digits.all Char.isDigit then
    let n := digits.foldl (fun n c => n * 10 + (c.toNat - 48)) 0
    if n < bound then some n else none
  else none

/-! What cutting, trimming and lowering keep. -/

theorem splitOnce_eq_some {sep : Char} {text first rest : List Char} (found : splitOnce sep text = some (first, rest)) :
    text = first ++ sep :: rest ∧ sep ∉ first := by
  induction text generalizing first with
  | nil => cases found
  | cons c text ih =>
    rw [splitOnce] at found
    split_ifs at found with same
    · cases found
      exact ⟨by rw [same]; rfl, by simp⟩
    · obtain ⟨⟨inner, tail⟩, here, equal⟩ := Option.bind_eq_some_iff.mp found
      cases equal
      obtain ⟨rfl, clean⟩ := ih here
      refine ⟨rfl, ?_⟩
      simp only [List.mem_cons, not_or]
      exact ⟨fun equal => same equal.symm, clean⟩

theorem splitOnce_eq_none {sep : Char} {text : List Char} (absent : sep ∉ text) : splitOnce sep text = none := by
  induction text with
  | nil => rfl
  | cons c text ih =>
    rw [List.mem_cons, not_or] at absent
    rw [splitOnce, if_neg fun same => absent.1 same.symm, ih absent.2]
    rfl

theorem splitOnce_append {sep : Char} {first rest : List Char} (absent : sep ∉ first) :
    splitOnce sep (first ++ sep :: rest) = some (first, rest) := by
  induction first with
  | nil => rw [List.nil_append, splitOnce, if_pos rfl]
  | cons c first ih =>
    rw [List.mem_cons, not_or] at absent
    rw [List.cons_append, splitOnce, if_neg fun same => absent.1 same.symm, ih absent.2]
    rfl

theorem splitLines_oneLine (text : List Char) : ∀ line ∈ splitLines text, '\n' ∉ line := by
  induction text with
  | nil => simp [splitLines]
  | cons c text ih =>
    rw [splitLines]
    split_ifs with feed
    · intro line member
      rcases List.mem_cons.mp member with rfl | later
      · simp
      · exact ih line later
    · intro line member
      split at member
      · simp only [List.mem_cons, List.not_mem_nil, or_false] at member
        subst member
        simpa using fun same => feed same.symm
      · rename_i first others split
        rw [split] at ih
        rcases List.mem_cons.mp member with rfl | later
        · simp only [List.mem_cons, not_or]
          exact ⟨fun same => feed same.symm, ih first List.mem_cons_self⟩
        · exact ih line (List.mem_cons_of_mem _ later)

theorem lines_oneLine (text : List Char) : ∀ line ∈ lines text, '\n' ∉ line := by
  intro line member
  obtain ⟨piece, known, rfl⟩ := List.mem_map.mp member
  intro feed
  apply splitLines_oneLine text piece known
  unfold stripCr at feed
  split_ifs at feed
  · exact List.dropLast_subset _ feed
  · exact feed

theorem mem_of_mem_trim {c : Char} {text : List Char} (member : c ∈ trim text) : c ∈ text :=
  (List.dropWhile_sublist _).subset ((List.rdropWhile_prefix _ _).subset member)

theorem mem_of_mem_trimEnd {c : Char} {text : List Char} (member : c ∈ trimEnd text) : c ∈ text :=
  (List.rdropWhile_prefix _ _).subset member

theorem toLower_cases (c : Char) :
    (65 ≤ c.toNat ∧ c.toNat ≤ 90 ∧ c.toLower.toNat = c.toNat + 32) ∨
      (¬(65 ≤ c.toNat ∧ c.toNat ≤ 90) ∧ c.toLower = c) := by
  have value : c.toNat = c.val.toNat := rfl
  by_cases upper : c.val ≥ 'A'.val ∧ c.val ≤ 'Z'.val
  · left
    have range : 65 ≤ c.val.toNat ∧ c.val.toNat ≤ 90 := by
      simpa [UInt32.le_iff_toNat_le] using upper
    refine ⟨range.1, range.2, ?_⟩
    have moved : c.toLower.toNat = (c.val + ('a'.val - 'A'.val)).toNat := congrArg Char.toNat (dif_pos upper)
    rw [moved, UInt32.toNat_add]
    have step : ('a'.val - 'A'.val).toNat = 32 := by decide
    omega
  · right
    refine ⟨?_, dif_neg upper⟩
    intro range
    apply upper
    simpa [UInt32.le_iff_toNat_le] using range

/-- Lowering brings in nothing but letters. -/
theorem mem_of_mem_lowerText {c : Char} {text : List Char} (plain : c.toNat < 97) (member : c ∈ lowerText text) :
    c ∈ text := by
  obtain ⟨d, known, rfl⟩ := List.mem_map.mp member
  rcases toLower_cases d with ⟨low, _, moved⟩ | ⟨-, kept⟩
  · omega
  · rw [kept]
    exact known

theorem lowerText_lowerText (text : List Char) : lowerText (lowerText text) = lowerText text := by
  rw [lowerText, lowerText, List.map_map]
  apply List.map_congr_left
  intro c _
  rcases toLower_cases c with ⟨low, high, moved⟩ | ⟨-, kept⟩
  · rcases toLower_cases c.toLower with ⟨low', high', -⟩ | ⟨-, kept'⟩
    · omega
    · exact kept'
  · simp only [Function.comp_apply, kept]

end Latchgate
