import Latchgate.Encoding.Fit
import Latchgate.Encoding.Delimited

namespace Latchgate

/-! Texts of strangers in logs, audit events, metrics and answers. -/

/-- The input itself, or a copy. -/
inductive CowStr where
  | borrowed (text : String)
  | owned (text : String)
  deriving DecidableEq

def CowStr.text : CowStr → String
  | .borrowed text => text
  | .owned text => text

def isControlOrDel (ch : Char) : Bool :=
  (0x00 ≤ ch.toNat && ch.toNat ≤ 0x1F) || (0x7F ≤ ch.toNat && ch.toNat ≤ 0x9F)

def logReplacement (ch : Char) : Char :=
  if isControlOrDel ch then ' ' else ch

/-- The loop that copies, with what it has copied. -/
def sanitizeInto (maxLenBytes : Nat) : List Char → String → String
  | [], out => out
  | ch :: rest, out =>
    if maxLenBytes < out.utf8ByteSize + (logReplacement ch).utf8Size then out
    else sanitizeInto maxLenBytes rest (out.push (logReplacement ch))

def sanitizeForLog (s : String) (maxLenBytes : Nat) : CowStr :=
  if s.utf8ByteSize ≤ maxLenBytes ∧ s.toList.any isControlOrDel = false then .borrowed s
  else .owned (sanitizeInto maxLenBytes s.toList "")

section Sanitize
open Encoding

variable {s : String} {n : Nat}

theorem utf8ByteSize_eq_weigh (s : String) : s.utf8ByteSize = weigh Char.utf8Size s.toList := by
  have size := utf8ByteSize_ofList s.toList
  rw [String.ofList_toList, utf8, List.length_flatMap] at size
  rw [size, weigh]
  congr 1
  exact List.map_congr_left fun c _ => String.length_utf8EncodeChar c

/-- The loop appends what there is room for. -/
theorem toList_sanitizeInto (chars : List Char) (out : String) (within : out.utf8ByteSize ≤ n) :
    (sanitizeInto n chars out).toList =
      out.toList ++ fitting Char.utf8Size (n - out.utf8ByteSize) (chars.map logReplacement) := by
  induction chars generalizing out with
  | nil => rw [sanitizeInto, List.map_nil, fitting, List.append_nil]
  | cons ch rest ih =>
    rw [sanitizeInto, List.map_cons, fitting]
    by_cases full : n < out.utf8ByteSize + (logReplacement ch).utf8Size
    · rw [if_pos full, if_neg (by omega), List.append_nil]
    · have longer : (out.push (logReplacement ch)).utf8ByteSize = out.utf8ByteSize + (logReplacement ch).utf8Size :=
        String.utf8ByteSize_push
      rw [if_neg full, if_pos (by omega), ih _ (by omega), longer, String.toList_push, List.append_assoc, List.singleton_append,
        Nat.sub_sub]

theorem logReplacement_eq_self {c : Char} (clean : isControlOrDel c = false) : logReplacement c = c := by
  rw [logReplacement, clean]
  rfl

theorem isControlOrDel_logReplacement (c : Char) : isControlOrDel (logReplacement c) = false := by
  rw [logReplacement]
  split
  · rfl
  · next clean => exact Bool.eq_false_iff.mpr clean

theorem map_logReplacement_eq_self {chars : List Char} (clean : chars.any isControlOrDel = false) :
    chars.map logReplacement = chars := by
  rw [List.any_eq_false] at clean
  conv_rhs => rw [← List.map_id chars]
  exact List.map_congr_left fun c member => logReplacement_eq_self (Bool.eq_false_iff.mpr (clean c member))

/-- Both ways give the longest start of the replaced text. -/
theorem sanitizeForLog_longest (s : String) (n : Nat) :
    LongestFit Char.utf8Size n (s.toList.map logReplacement) (sanitizeForLog s n).text.toList := by
  rw [sanitizeForLog]
  split
  · next clean =>
    rw [map_logReplacement_eq_self clean.2, CowStr.text]
    exact longestFit_self (by rw [← utf8ByteSize_eq_weigh]; exact clean.1)
  · rw [CowStr.text, toList_sanitizeInto _ _ (Nat.zero_le n)]
    exact fitting_longest n _

theorem sanitizeForLog_size (s : String) (n : Nat) : (sanitizeForLog s n).text.utf8ByteSize ≤ n := by
  rw [utf8ByteSize_eq_weigh]
  exact (sanitizeForLog_longest s n).fits

theorem sanitizeForLog_clean {c : Char} (member : c ∈ (sanitizeForLog s n).text.toList) : isControlOrDel c = false := by
  obtain ⟨d, -, rfl⟩ := List.mem_map.mp ((sanitizeForLog_longest s n).starts.subset member)
  exact isControlOrDel_logReplacement d

/-- What is clean and within the bound is lent as it is. -/
theorem sanitizeForLog_borrows (within : s.utf8ByteSize ≤ n) (clean : ∀ c ∈ s.toList, isControlOrDel c = false) :
    sanitizeForLog s n = .borrowed s := by
  rw [sanitizeForLog, if_pos]
  exact ⟨within, List.any_eq_false.mpr fun c member => Bool.eq_false_iff.mp (clean c member)⟩

/-- No control character is left, the bytes are UTF-8 within the bound and the
most there could be, and a second time nothing is copied. -/
theorem sanitizeForLog_spec (s : String) (n : Nat) :
    (∀ c ∈ (sanitizeForLog s n).text.toList, ¬c.toNat ≤ 0x1F ∧ c.toNat ≠ 0x7F ∧ ¬(0x80 ≤ c.toNat ∧ c.toNat ≤ 0x9F)) ∧
    (sanitizeForLog s n).text.utf8ByteSize ≤ n ∧ (sanitizeForLog s n).text.toByteArray.IsValidUTF8 ∧
    LongestFit Char.utf8Size n (s.toList.map logReplacement) (sanitizeForLog s n).text.toList ∧
    sanitizeForLog (sanitizeForLog s n).text n = .borrowed (sanitizeForLog s n).text := by
  refine ⟨?_, sanitizeForLog_size s n, (sanitizeForLog s n).text.isValidUTF8, sanitizeForLog_longest s n, ?_⟩
  · intro c member
    have clean := sanitizeForLog_clean member
    simp only [isControlOrDel, Bool.or_eq_false_iff, Bool.and_eq_false_iff, decide_eq_false_iff_not] at clean
    omega
  · exact sanitizeForLog_borrows (sanitizeForLog_size s n) fun c => sanitizeForLog_clean

example : sanitizeForLog "a\u0085é" 3 = .owned "a " ∧ sanitizeForLog "a\u0085é" 4 = .owned "a é" := by decide

end Sanitize

end Latchgate
