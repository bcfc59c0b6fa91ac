import Mathlib.Data.List.DropRight
import Latchgate.Encoding.Delimited

/-! Bytes below 128 in the bytes of a text stand for themselves. -/

namespace Encoding

theorem utf8_cons (c : Char) (text : List Char) : utf8 (c :: text) = String.utf8EncodeChar c ++ utf8 text :=
  List.flatMap_cons

theorem utf8EncodeChar_ascii {c : Char} (ascii : c.toNat < 128) :
    String.utf8EncodeChar c = [UInt8.ofNat c.toNat] := by
  have small : c.val.toNat ≤ 0x7f := Nat.le_of_lt_succ ascii
  simp only [String.utf8EncodeChar, if_pos small]
  rfl

/-- A byte below 128 comes from the character of that number. -/
theorem toNat_eq_of_mem_utf8EncodeChar {c : Char} {b : UInt8} (member : b ∈ String.utf8EncodeChar c)
    (ascii : b.toNat < 128) : c.toNat = b.toNat := by
  have value : c.toNat = c.val.toNat := rfl
  unfold String.utf8EncodeChar at member
  dsimp only at member
  split_ifs at member with one two three
  all_goals simp only [List.mem_cons, List.not_mem_nil, or_false] at member
  · subst member
    rw [UInt8.toNat_ofNat']
    omega
  · rcases member with rfl | rfl
    all_goals
      rw [UInt8.toNat_ofNat'] at ascii
      omega
  · rcases member with rfl | rfl | rfl
    all_goals
      rw [UInt8.toNat_ofNat'] at ascii
      omega
  · rcases member with rfl | rfl | rfl | rfl
    all_goals
      rw [UInt8.toNat_ofNat'] at ascii
      omega

theorem mem_of_mem_utf8 {text : List Char} {b : UInt8} (member : b ∈ utf8 text) (ascii : b.toNat < 128) :
    ∃ c ∈ text, c.toNat = b.toNat := by
  obtain ⟨c, known, inside⟩ := List.mem_flatMap.mp member
  exact ⟨c, known, toNat_eq_of_mem_utf8EncodeChar inside ascii⟩

/-- The bytes of a text do not hold a character that the text does not hold. -/
theorem notMem_utf8 {text : List Char} {c : Char} (absent : c ∉ text) (ascii : c.toNat < 128) :
    UInt8.ofNat c.toNat ∉ utf8 text := by
  have number : (UInt8.ofNat c.toNat).toNat = c.toNat := by
    rw [UInt8.toNat_ofNat']
    omega
  intro member
  obtain ⟨d, known, same⟩ := mem_of_mem_utf8 member (by omega)
  have equal : d = c := Char.toNat_inj.mp (same.trans number)
  exact absent (equal ▸ known)

theorem utf8_ascii {text : List Char} (ascii : ∀ c ∈ text, c.toNat < 128) :
    utf8 text = text.map fun c => UInt8.ofNat c.toNat := by
  induction text with
  | nil => rfl
  | cons c text ih =>
    have first := utf8EncodeChar_ascii (ascii c List.mem_cons_self)
    rw [utf8_cons, first, ih fun d member => ascii d (List.mem_cons_of_mem _ member)]
    rfl

/-- A byte test that fails above 127 and on what a character test refuses
fails at the front of the text's bytes when it is refused there. -/
theorem dropWhile_utf8 {p : UInt8 → Bool} {blank : Char → Bool} {text : List Char}
    (within : ∀ b, p b = true → b.toNat < 128 ∧ ∀ c : Char, c.toNat = b.toNat → blank c = true)
    (trimmed : text.dropWhile blank = text) : (utf8 text).dropWhile p = utf8 text := by
  cases text with
  | nil => rfl
  | cons c text =>
    have refused : blank c ≠ true := by
      intro held
      have shorter := congrArg List.length trimmed
      rw [List.dropWhile_cons_of_pos held, List.length_cons] at shorter
      have bound := (List.dropWhile_sublist blank (l := text)).length_le
      omega
    rw [utf8_cons]
    cases bytes : String.utf8EncodeChar c with
    | nil => exact absurd bytes String.utf8EncodeChar_ne_nil
    | cons b more =>
      rw [List.cons_append, List.dropWhile_cons_of_neg]
      intro held
      obtain ⟨ascii, read⟩ := within b held
      have member : b ∈ String.utf8EncodeChar c := bytes ▸ List.mem_cons_self
      exact refused (read c (toNat_eq_of_mem_utf8EncodeChar member ascii))

theorem rdropWhile_utf8 {p : UInt8 → Bool} {blank : Char → Bool} {text : List Char}
    (within : ∀ b, p b = true → b.toNat < 128 ∧ ∀ c : Char, c.toNat = b.toNat → blank c = true)
    (trimmed : text.rdropWhile blank = text) : (utf8 text).rdropWhile p = utf8 text := by
  rw [List.rdropWhile_eq_self_iff] at trimmed ⊢
  intro present held
  rcases List.eq_nil_or_concat' text with rfl | ⟨front, c, rfl⟩
  · exact present rfl
  · have last : (utf8 (front ++ [c])).getLast present ∈ String.utf8EncodeChar c := by
      have split : utf8 (front ++ [c]) = utf8 front ++ String.utf8EncodeChar c := by
        simp [utf8]
      have kept : (utf8 front ++ String.utf8EncodeChar c).getLast (split ▸ present) =
          (String.utf8EncodeChar c).getLast String.utf8EncodeChar_ne_nil :=
        List.getLast_append_of_right_ne_nil _ _ String.utf8EncodeChar_ne_nil
      simp only [split, kept]
      exact List.getLast_mem _
    obtain ⟨ascii, read⟩ := within _ held
    have blanked := read c (toNat_eq_of_mem_utf8EncodeChar last ascii)
    exact trimmed (by simp) (by simpa using blanked)

end Encoding
