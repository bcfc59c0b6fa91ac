import Latchgate.Json.Literal
import Latchgate.Json.Extent

namespace Latchgate
open Encoding (utf8 utf8_append)
open Json (escapeChar escape escapedByteLen readLiteral ReadAs Piece)

/-! Strings that are put into the text of an answer. -/

/-- `char::is_control` -/
def isControlChar (c : Char) : Bool :=
  c.toNat < 0x20 || (0x7F ≤ c.toNat && c.toNat < 0xA0)

/-- A number in at least four hexadecimal digits. -/
def hexPadded (n : Nat) : List Char :=
  List.leftpad 4 '0' (Nat.toDigits 16 n)

def jsonEscaped (ch : Char) : List Char :=
  if ch = '"' then ['\\', '"']
  else if ch = '\\' then ['\\', '\\']
  else if ch = '\n' then ['\\', 'n']
  else if ch = '\r' then ['\\', 'r']
  else if ch = '\t' then ['\\', 't']
  else if isControlChar ch then '\\' :: 'u' :: hexPadded ch.toNat
  else [ch]

def jsonEscapeInto (buf s : String) : String :=
  s.toList.foldl (fun buf ch => buf ++ String.ofList (jsonEscaped ch)) buf

theorem jsonEscapeInto_eq (buf s : String) : jsonEscapeInto buf s = buf ++ String.ofList (s.toList.flatMap jsonEscaped) := by
  unfold jsonEscapeInto
  generalize s.toList = text
  induction text generalizing buf with
  | nil => simp
  | cons c text ih => rw [List.foldl_cons, ih, List.flatMap_cons, String.ofList_append, String.append_assoc]

section Escapes
variable {c : Char}

theorem hexPadded_byte {n : Nat} (byte : n < 256) :
    hexPadded n = ['0', '0', Nat.digitChar (n / 16), Nat.digitChar (n % 16)] := by
  rcases Nat.lt_or_ge n 16 with single | two
  · rw [hexPadded, Nat.toDigits_of_lt_base single, Nat.div_eq_of_lt single, Nat.mod_eq_of_lt single]
    rfl
  · have high : n / 16 < 16 := by omega
    rw [hexPadded, Nat.toDigits_of_base_le (by decide) two, Nat.toDigits_of_lt_base high]
    rfl

theorem hexUnit_byte {n : Nat} (byte : n < 256) :
    Json.hexUnit '0' '0' (Nat.digitChar (n / 16)) (Nat.digitChar (n % 16)) = some n := by
  have digit : ∀ d : Fin 16, Json.hexDigitValue (Nat.digitChar d) = some d.val := by decide
  have high := digit ⟨n / 16, by omega⟩
  have low := digit ⟨n % 16, by omega⟩
  have zero := digit 0
  simp only [Json.hexUnit] at *
  rw [high, low]
  change some (((0 * 16 + 0) * 16 + n / 16) * 16 + n % 16) = some n
  congr 1
  omega

theorem isControlChar_lt (control : isControlChar c = true) : c.toNat < 0xA0 := by
  simp only [isControlChar, Bool.or_eq_true, Bool.and_eq_true, decide_eq_true_eq] at control
  omega

/-- Each escape is read as the character that it is of. -/
theorem readAs_jsonEscaped (c : Char) : ∃ p : Piece, ReadAs (jsonEscaped c) p ∧ p.Is c := by
  unfold jsonEscaped
  split_ifs with quotes backslash line carriage tab control
  · exact ⟨.char '"', Json.readAs_escape rfl, .inl (by rw [quotes])⟩
  · exact ⟨.char '\\', Json.readAs_escape rfl, .inl (by rw [backslash])⟩
  · exact ⟨.char '\n', Json.readAs_escape rfl, .inl (by rw [line])⟩
  · exact ⟨.char '\r', Json.readAs_escape rfl, .inl (by rw [carriage])⟩
  · exact ⟨.char '\t', Json.readAs_escape rfl, .inl (by rw [tab])⟩
  · have small := isControlChar_lt control
    rw [hexPadded_byte (by omega)]
    exact ⟨.unit c.toNat, Json.readAs_unit (hexUnit_byte (by omega)), .inr ⟨rfl, by omega⟩⟩
  · have printed : 0x20 ≤ c.toNat := by
      simp only [isControlChar, Bool.or_eq_true, decide_eq_true_eq] at control
      omega
    exact ⟨.char c, Json.readAs_char printed quotes backslash, .inl rfl⟩

/-- What the table of the byte count has no number of its own for, or a shorter
one. -/
def SharedEscape (c : Char) : Prop :=
  c ≠ '\x08' ∧ c ≠ '\x0c' ∧ ¬(0x7F ≤ c.toNat ∧ c.toNat ≤ 0x9F)

theorem length_unit {n : Nat} (byte : n < 256) : (utf8 ('\\' :: 'u' :: hexPadded n)).length = 6 := by
  have digit : ∀ d : Fin 16, (Nat.digitChar d).toNat < 128 := by decide
  have high := digit ⟨n / 16, by omega⟩
  have low := digit ⟨n % 16, by omega⟩
  rw [hexPadded_byte byte, Encoding.utf8_ascii]
  · rfl
  · intro d member
    simp only [List.mem_cons, List.not_mem_nil, or_false] at member
    rcases member with rfl | rfl | rfl | rfl | rfl | rfl
    all_goals first | assumption | decide

/-- A character has the same escape in both tables, or a longer one in the
escaper. -/
theorem jsonEscaped_cases (c : Char) :
    jsonEscaped c = escapeChar c ∧ SharedEscape c ∨
      (utf8 (escapeChar c)).length < (utf8 (jsonEscaped c)).length ∧ ¬SharedEscape c := by
  by_cases common : c ∈ ['"', '\\', '\n', '\r', '\t']
  · simp only [List.mem_cons, List.not_mem_nil, or_false] at common
    rcases common with rfl | rfl | rfl | rfl | rfl
    all_goals exact .inl ⟨rfl, by decide, by decide, by decide⟩
  · simp only [List.mem_cons, List.not_mem_nil, or_false, not_or] at common
    obtain ⟨quotes, backslash, line, carriage, tab⟩ := common
    have escaped : jsonEscaped c = if isControlChar c then '\\' :: 'u' :: hexPadded c.toNat else [c] := by
      rw [jsonEscaped, if_neg quotes, if_neg backslash, if_neg line, if_neg carriage, if_neg tab]
    by_cases letter : c = '\x08' ∨ c = '\x0c'
    · rcases letter with rfl | rfl
      · exact .inr ⟨by decide, fun shared => shared.1 rfl⟩
      · exact .inr ⟨by decide, fun shared => shared.2.1 rfl⟩
    · obtain ⟨backspace, feed⟩ := not_or.mp letter
      have absent : c ∉ Json.named := by
        simp only [Json.named, List.mem_cons, List.not_mem_nil, or_false, not_or]
        exact ⟨quotes, backslash, backspace, feed, line, carriage, tab⟩
      by_cases low : c.toNat < 32
      · have control : isControlChar c = true := by simp [isControlChar, low]
        have digit : ∀ d : Fin 16, Nat.digitChar d = Json.hexDigit d := by decide
        have high := digit ⟨c.toNat / 16, by omega⟩
        have last := digit ⟨c.toNat % 16, by omega⟩
        refine .inl ⟨?_, backspace, feed, by omega⟩
        rw [escaped, if_pos control, hexPadded_byte (by omega), Json.escapeChar_control absent low]
        exact congrArg₂ (fun h l => ['\\', 'u', '0', '0', h, l]) high last
      · rw [Json.escapeChar_plain absent low]
        by_cases upper : 0x7F ≤ c.toNat ∧ c.toNat ≤ 0x9F
        · have control : isControlChar c = true := by
            simp only [isControlChar, Bool.or_eq_true, Bool.and_eq_true, decide_eq_true_eq]
            omega
          have short : (utf8 [c]).length ≤ 4 := by
            rw [Encoding.utf8_cons, List.length_append, String.length_utf8EncodeChar]
            exact c.utf8Size_le_four
          rw [escaped, if_pos control, length_unit (by omega)]
          exact .inr ⟨by omega, fun shared => shared.2.2 upper⟩
        · have printed : isControlChar c = false := by
            simp only [isControlChar, Bool.or_eq_false_iff, Bool.and_eq_false_iff, decide_eq_false_iff_not]
            omega
          rw [escaped, printed]
          exact .inl ⟨rfl, backspace, feed, upper⟩

theorem jsonEscaped_eq_iff : jsonEscaped c = escapeChar c ↔ SharedEscape c := by
  rcases jsonEscaped_cases c with ⟨same, shared⟩ | ⟨longer, differs⟩
  · exact iff_of_true same shared
  · refine iff_of_false (fun same => ?_) differs
    rw [same] at longer
    exact Nat.lt_irrefl _ longer

/-- The count falls short of what is appended by what the escaper writes longer. -/
theorem length_flatMap_jsonEscaped (text : List Char) :
    (utf8 (escape text)).length ≤ (utf8 (text.flatMap jsonEscaped)).length ∧
      ((utf8 (text.flatMap jsonEscaped)).length = (utf8 (escape text)).length ↔ ∀ c ∈ text, SharedEscape c) := by
  induction text with
  | nil => exact ⟨Nat.le_refl _, iff_of_true rfl (by simp)⟩
  | cons c text ih =>
    rw [escape, List.flatMap_cons, List.flatMap_cons, utf8_append, utf8_append, List.length_append, List.length_append,
      List.forall_mem_cons, ← ih.2]
    have rest := ih.1
    rw [escape] at rest ⊢
    rcases jsonEscaped_cases c with ⟨same, shared⟩ | ⟨longer, differs⟩
    · rw [same, and_iff_right shared]
      exact ⟨Nat.add_le_add_left rest _, Nat.add_left_cancel_iff⟩
    · refine ⟨by omega, iff_of_false (by omega) fun both => differs both.1⟩

end Escapes

/-- What is appended is the inside of a literal that stands for the string, and
takes the bytes that are counted just where the string has no character that the
tables write differently. -/
theorem jsonEscapeInto_spec (buf s : String) :
    ∃ t : String, jsonEscapeInto buf s = buf ++ t ∧
      (∀ rest, readLiteral ('"' :: (t.toList ++ '"' :: rest)) = some (s.toList, rest)) ∧
      (t.utf8ByteSize = escapedByteLen s ↔ ∀ c ∈ s.toList, jsonEscaped c = escapeChar c) ∧
      ∀ c, jsonEscaped c = escapeChar c ↔ c ≠ '\x08' ∧ c ≠ '\x0c' ∧ ¬(0x7F ≤ c.toNat ∧ c.toNat ≤ 0x9F) := by
  refine ⟨String.ofList (s.toList.flatMap jsonEscaped), jsonEscapeInto_eq buf s, ?_, ?_, fun c => jsonEscaped_eq_iff⟩
  · intro rest
    rw [String.toList_ofList]
    exact Json.readLiteral_flatMap (fun c _ => readAs_jsonEscaped c) rest
  · rw [Encoding.utf8ByteSize_ofList, escapedByteLen, ← Json.length_escape, (length_flatMap_jsonEscaped s.toList).2]
    exact forall₂_congr fun c _ => (jsonEscaped_eq_iff).symm

example : jsonEscapeInto "\x7b\"error\":\"" "a\"\x08é" = "\x7b\"error\":\"a\\\"\\u0008é" := by decide

end Latchgate
