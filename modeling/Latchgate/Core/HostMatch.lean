import Latchgate.Core.Egress
import Latchgate.Encoding.Ascii

namespace Encoding

/-- A character below 128 is found in the bytes of a text where it stands in
the text. -/
theorem utf8_split {c : Char} (ascii : c.toNat < 128) {text suffix : List Char} {pre : List UInt8}
    (same : utf8 text = pre ++ UInt8.ofNat c.toNat :: utf8 suffix) : ∃ front, text = front ++ c :: suffix ∧ utf8 front = pre := by
  have number : (UInt8.ofNat c.toNat).toNat = c.toNat := by
    rw [UInt8.toNat_ofNat']
    omega
  induction text generalizing pre with
  | nil => cases pre <;> cases same
  | cons d text ih =>
    rw [utf8_cons] at same
    rcases List.append_eq_append_iff.mp same with ⟨more, front, rest⟩ | ⟨more, front, rest⟩
    · obtain ⟨tail, rfl, below⟩ := ih rest
      exact ⟨d :: tail, rfl, by rw [utf8_cons, below, front]⟩
    · cases more with
      | nil =>
        rw [List.append_nil] at front
        obtain ⟨tail, rfl, below⟩ := @ih [] rest.symm
        exact ⟨d :: tail, rfl, by rw [utf8_cons, below, front, List.append_nil]⟩
      | cons b more =>
        obtain ⟨rfl, rests⟩ := List.cons.inj rest
        have inside : UInt8.ofNat c.toNat ∈ String.utf8EncodeChar d := by
          rw [front]
          exact List.mem_append_right _ List.mem_cons_self
        have equal : d = c := Char.toNat_inj.mp ((toNat_eq_of_mem_utf8EncodeChar inside (by omega)).trans number)
        subst equal
        rw [utf8EncodeChar_ascii ascii] at front
        rcases List.append_eq_cons_iff.mp front.symm with ⟨rfl, here⟩ | ⟨_, rfl, here⟩
        · obtain ⟨-, rfl⟩ := List.cons.inj here
          exact ⟨[], by rw [utf8_injective rests]; rfl, rfl⟩
        · cases (List.append_eq_nil_iff.mp here.symm).2

end Encoding

namespace Latchgate
namespace Egress

open Encoding (utf8)

/-! The comparison on bytes. An answer is missing where an index is out of
range or a difference is negative. -/

def checkedSub (a b : Nat) : Option Nat :=
  if b ≤ a then some (a - b) else none

def endsBelow (host suffix : List UInt8) : Option Bool :=
  if suffix.length + 1 < host.length then do
    let i ← checkedSub host.length suffix.length
    let i ← checkedSub i 1
    let b ← host[i]?
    some (b = UInt8.ofNat '.'.toNat ∧ suffix.isSuffixOf host)
  else some false

def entryMatchesBytes (hostLower entryLower : String) : Option Bool :=
  match stripText "*." entryLower with
  | some suffix => if suffix = "" then some false else endsBelow (utf8 hostLower.toList) (utf8 suffix.toList)
  | none =>
    if hostLower = entryLower then some true else endsBelow (utf8 hostLower.toList) (utf8 entryLower.toList)

def searchEntries (hostLower : String) : List String → Option (Option String)
  | [] => some none
  | entry :: rest => do if ← entryMatchesBytes hostLower entry then some (some entry) else searchEntries hostLower rest

def findMatchingEntryBytes (host : String) (allowlistLower : List String) : Option (Option String) :=
  searchEntries (toAsciiLowercase host) allowlistLower

/-! Names as lists of labels. -/

def labels (name : List Char) : List (List Char) :=
  name.splitOn '.'

/-- A name stands below another. The text in front of it is not empty. -/
def ProperSubdomain (host name : List Char) : Prop :=
  ∃ front, front ≠ [] ∧ labels host = labels front ++ labels name

/-- An entry matches by its labels. -/
def Matches (host entry : String) : Prop :=
  match stripText "*." entry with
  | some suffix => suffix ≠ "" ∧ ProperSubdomain host.toList suffix.toList
  | none => host = entry ∨ ProperSubdomain host.toList entry.toList

theorem labels_append (front name : List Char) : labels (front ++ '.' :: name) = labels front ++ labels name :=
  List.splitOn_append_cons_of_beq _ _ (by decide)

theorem labels_injective : Function.Injective labels := by
  intro first second same
  calc
    first = ['.'].intercalate (labels first) := (List.intercalate_splitOn '.').symm
    _ = ['.'].intercalate (labels second) := by rw [same]
    _ = second := List.intercalate_splitOn '.'

theorem properSubdomain_iff {host name : List Char} :
    ProperSubdomain host name ↔ ∃ front, front ≠ [] ∧ host = front ++ '.' :: name := by
  refine exists_congr fun front => and_congr_right fun _ => ?_
  rw [← labels_append, (labels_injective).eq_iff]

theorem getElem?_before {α : Type} (front suffix : List α) (b : α) :
    (front ++ b :: suffix)[(front ++ b :: suffix).length - suffix.length - 1]? = some b := by
  have index : (front ++ b :: suffix).length - suffix.length - 1 = front.length := by
    rw [List.length_append, List.length_cons]
    omega
  rw [index, List.getElem?_append_right le_rfl, Nat.sub_self]
  rfl

/-- The comparison never leaves the host, and it finds the suffix behind a dot
that is not the first byte. -/
theorem endsBelow_spec (host suffix : List UInt8) :
    ∃ found, endsBelow host suffix = some found ∧
      (found = true ↔ ∃ front, front ≠ [] ∧ host = front ++ UInt8.ofNat '.'.toNat :: suffix) := by
  unfold endsBelow checkedSub
  by_cases longer : suffix.length + 1 < host.length
  · have inside : host.length - suffix.length - 1 < host.length := by omega
    have found := List.getElem?_eq_getElem inside
    rw [if_pos longer, if_pos (by omega)]
    simp only [Option.bind_eq_bind, Option.bind_some]
    rw [if_pos (by omega), Option.bind_some, found, Option.bind_some]
    refine ⟨_, rfl, ?_⟩
    rw [decide_eq_true_iff, List.isSuffixOf_iff_suffix]
    constructor
    · rintro ⟨dot, rest, whole⟩
      rw [dot] at found
      rcases List.eq_nil_or_concat rest with rfl | ⟨front, b, rfl⟩
      · rw [← whole, List.nil_append] at longer
        omega
      · rw [List.concat_append] at whole
        rw [← whole, getElem?_before, Option.some.injEq] at found
        refine ⟨front, ?_, by rw [← whole, found]⟩
        rintro rfl
        rw [← whole, List.nil_append, List.length_cons] at longer
        omega
    · rintro ⟨front, some_, rfl⟩
      rw [getElem?_before, Option.some.injEq] at found
      exact ⟨found.symm, front ++ [UInt8.ofNat '.'.toNat], List.append_assoc _ _ _⟩
  · rw [if_neg longer]
    refine ⟨false, rfl, iff_of_false Bool.false_ne_true ?_⟩
    rintro ⟨front, some_, rfl⟩
    apply longer
    have positive := List.length_pos_iff.mpr some_
    rw [List.length_append, List.length_cons]
    omega

theorem endsBelow_utf8 (host suffix : List Char) :
    ∃ found, endsBelow (utf8 host) (utf8 suffix) = some found ∧ (found = true ↔ ProperSubdomain host suffix) := by
  obtain ⟨found, ends, spec⟩ := endsBelow_spec (utf8 host) (utf8 suffix)
  refine ⟨found, ends, spec.trans ?_⟩
  rw [properSubdomain_iff]
  constructor
  · rintro ⟨pre, some_, same⟩
    obtain ⟨front, rfl, below⟩ := Encoding.utf8_split (by decide) same
    refine ⟨front, ?_, rfl⟩
    rintro rfl
    exact some_ below.symm
  · rintro ⟨front, some_, rfl⟩
    refine ⟨utf8 front, ?_, ?_⟩
    · intro empty
      exact some_ (Encoding.utf8_injective empty)
    · rw [Encoding.utf8_append, Encoding.utf8_cons, Encoding.utf8EncodeChar_ascii (by decide)]
      rfl

theorem entryMatchesBytes_spec (host entry : String) :
    ∃ found, entryMatchesBytes host entry = some found ∧ (found = true ↔ Matches host entry) := by
  unfold entryMatchesBytes Matches
  cases stripText "*." entry with
  | some suffix =>
    dsimp only
    by_cases empty : suffix = ""
    · rw [if_pos empty]
      exact ⟨false, rfl, iff_of_false Bool.false_ne_true fun matched => matched.1 empty⟩
    · rw [if_neg empty]
      obtain ⟨found, ends, spec⟩ := endsBelow_utf8 host.toList suffix.toList
      exact ⟨found, ends, spec.trans (and_iff_right empty).symm⟩
  | none =>
    dsimp only
    by_cases same : host = entry
    · rw [if_pos same]
      exact ⟨true, rfl, iff_of_true rfl (.inl same)⟩
    · rw [if_neg same]
      obtain ⟨found, ends, spec⟩ := endsBelow_utf8 host.toList entry.toList
      exact ⟨found, ends, spec.trans (or_iff_right same).symm⟩

/-- The search never leaves the host either, and answers with the first entry
that matches. -/
theorem searchEntries_spec (host : String) (entries : List String) :
    ∃ found, searchEntries host entries = some found ∧
      (found = none ↔ ∀ entry ∈ entries, ¬Matches host entry) ∧
      ∀ entry, found = some entry ↔
        ∃ before after, entries = before ++ entry :: after ∧ Matches host entry ∧ ∀ other ∈ before, ¬Matches host other := by
  induction entries with
  | nil =>
    refine ⟨none, rfl, by simp, fun entry => iff_of_false nofun ?_⟩
    rintro ⟨before, after, split, -⟩
    cases before <;> cases split
  | cons first rest ih =>
    obtain ⟨hit, compared, spec⟩ := entryMatchesBytes_spec host first
    rw [searchEntries, compared]
    cases hit with
    | true =>
      have matched : Matches host first := spec.mp rfl
      refine ⟨some first, rfl, iff_of_false nofun fun none => none first List.mem_cons_self matched, fun entry => ?_⟩
      constructor
      · rintro ⟨⟩
        exact ⟨[], rest, rfl, matched, by simp⟩
      · rintro ⟨before, after, split, -, others⟩
        cases before with
        | nil => cases split; rfl
        | cons other before =>
          cases split
          exact absurd matched (others _ List.mem_cons_self)
    | false =>
      have missed : ¬Matches host first := fun matched => Bool.false_ne_true (spec.mpr matched)
      obtain ⟨found, searched, none, some_⟩ := ih
      refine ⟨found, searched, ?_, fun entry => ?_⟩
      · rw [none, List.forall_mem_cons]
        exact (and_iff_right missed).symm
      · rw [some_ entry]
        constructor
        · rintro ⟨before, after, rfl, matched, others⟩
          exact ⟨first :: before, after, rfl, matched, List.forall_mem_cons.mpr ⟨missed, others⟩⟩
        · rintro ⟨before, after, split, matched, others⟩
          cases before with
          | nil => cases split; exact absurd matched missed
          | cons other before =>
            cases split
            exact ⟨before, after, rfl, matched, (List.forall_mem_cons.mp others).2⟩

/-- For every host and allowlist the search stays within the host, and gives
the first entry that matches, if there is one, whatever the case of either. A
wildcard has a suffix. -/
theorem findMatchingEntry_spec (host : String) (allowlist : List String) :
    ∃ found, findMatchingEntryBytes host (lowercaseAllowlist allowlist) = some found ∧
      (found = none ↔ ∀ entry ∈ allowlist, ¬Matches (toAsciiLowercase host) (toAsciiLowercase entry)) ∧
      ∀ entry, found = some entry ↔
        ∃ before after, lowercaseAllowlist allowlist = before ++ entry :: after ∧ Matches (toAsciiLowercase host) entry ∧
          ∀ other ∈ before, ¬Matches (toAsciiLowercase host) other := by
  obtain ⟨found, searched, none, first⟩ := searchEntries_spec (toAsciiLowercase host) (lowercaseAllowlist allowlist)
  refine ⟨found, searched, none.trans ?_, first⟩
  rw [lowercaseAllowlist, List.forall_mem_map]

/-- The labels of an entry are the last ones of a host. -/
def LabelsMatch (host entry : String) : Prop :=
  match stripText "*." entry with
  | some suffix => ∃ extra, extra ≠ [] ∧ labels host.toList = extra ++ labels suffix.toList
  | none => ∃ extra, labels host.toList = extra ++ labels entry.toList

/-- An empty label in front of an entry, and a wildcard without a suffix. -/
theorem empty_labels_unmatched :
    (LabelsMatch ".api.com" "api.com" ∧ findMatchingEntryBytes ".api.com" ["api.com"] = some none) ∧
      LabelsMatch "a." "*." ∧ findMatchingEntryBytes "a." ["*."] = some none := by
  refine ⟨⟨⟨[[]], by decide⟩, by decide⟩, ⟨["a".toList], by decide, by decide⟩, by decide⟩

/-! The search on texts. -/

theorem below_iff {host suffix : List Char} : below host suffix = true ↔ ProperSubdomain host suffix := by
  rw [properSubdomain_iff, below, decide_eq_true_iff, List.isSuffixOf_iff_suffix]
  constructor
  · rintro ⟨longer, dot, rest, rfl⟩
    rcases List.eq_nil_or_concat rest with rfl | ⟨front, c, rfl⟩
    · rw [List.nil_append] at longer
      omega
    · rw [List.concat_append, getElem?_before, Option.some.injEq] at dot
      refine ⟨front, ?_, by rw [List.concat_append, dot]⟩
      rintro rfl
      rw [List.concat_append, List.nil_append, List.length_cons] at longer
      omega
  · rintro ⟨front, some_, rfl⟩
    have positive := List.length_pos_iff.mpr some_
    refine ⟨?_, getElem?_before _ _ _, front ++ ['.'], List.append_assoc _ _ _⟩
    rw [List.length_append, List.length_cons]
    omega

theorem entryMatches_iff {host entry : String} : entryMatches host entry = true ↔ Matches host entry := by
  unfold entryMatches Matches
  cases stripText "*." entry with
  | some suffix => rw [decide_eq_true_iff, below_iff]
  | none => rw [decide_eq_true_iff, below_iff]

/-- It is the search on bytes. -/
theorem findMatchingEntryBytes_eq (host : String) (allowlistLower : List String) :
    findMatchingEntryBytes host allowlistLower = some (findMatchingEntry host allowlistLower) := by
  unfold findMatchingEntryBytes findMatchingEntry
  induction allowlistLower with
  | nil => rfl
  | cons entry rest ih =>
    obtain ⟨hit, compared, spec⟩ := entryMatchesBytes_spec (toAsciiLowercase host) entry
    have alike : entryMatches (toAsciiLowercase host) entry = hit := by
      rw [Bool.eq_iff_iff, entryMatches_iff, spec]
    rw [searchEntries, compared, List.find?_cons, alike]
    cases hit with
    | true => rfl
    | false => exact ih

def domainInAllowlist (domain : String) (allowlist : List String) : Bool :=
  hostMatchesAllowlistLower domain (lowercaseAllowlist allowlist)

theorem isSome_findMatchingEntry {host : String} {allowlistLower : List String} :
    (findMatchingEntry host allowlistLower).isSome = true ↔ ∃ entry ∈ allowlistLower, Matches (toAsciiLowercase host) entry := by
  simp only [findMatchingEntry, List.find?_isSome, entryMatches_iff]

theorem domainInAllowlist_iff {domain : String} {allowlist : List String} :
    domainInAllowlist domain allowlist = true ↔
      ∃ entry ∈ allowlist, Matches (toAsciiLowercase domain) (toAsciiLowercase entry) := by
  rw [domainInAllowlist, hostMatchesAllowlistLower, isSome_findMatchingEntry, lowercaseAllowlist]
  simp only [List.mem_map, exists_exists_and_eq_and]

end Egress
end Latchgate
