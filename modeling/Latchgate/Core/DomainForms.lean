import Latchgate.Core.Domain
import Latchgate.Core.HostMatch

namespace Latchgate
open Encoding (utf8)

/-- The form of a domain in a manifest. -/
def validateManifestDomainEntry (domain : String) : Except DomainValidationError String := do
  let (normalized, wildcard) ← normalizeAndValidateSyntax domain
  if wildcard then .ok normalized
  else if (parseIp (ipCandidate normalized)).isSome then .ok normalized
  else if '.' ∈ normalized.toList then do
    validateDomainLabels normalized.toList
    .ok normalized
  else .ok normalized

/-! What the labels of an accepted name are. -/

structure DnsName (name : List Char) : Prop where
  length : name.length ≤ 253
  labels : ∀ label ∈ Egress.labels name, label ≠ [] ∧ label.length ≤ 63 ∧ ∀ c ∈ label, c.isAlphanum = true ∨ c = '-'

theorem length_le_utf8 (text : List Char) : text.length ≤ (utf8 text).length := by
  induction text with
  | nil => exact le_rfl
  | cons c text ih =>
    have size : 1 ≤ (String.utf8EncodeChar c).length := by
      rw [String.length_utf8EncodeChar]
      exact c.utf8Size_pos
    rw [Encoding.utf8_cons, List.length_append, List.length_cons]
    omega

theorem validateLabel_eq_ok {label : List Char} {u : Unit} (ok : validateLabel label = .ok u) :
    label ≠ [] ∧ label.length ≤ 63 ∧ ∀ c ∈ label, c.isAlphanum = true ∨ c = '-' := by
  unfold validateLabel at ok
  split_ifs at ok with empty long
  have short := length_le_utf8 label
  refine ⟨empty, by omega, ?_⟩
  cases found : label.find? fun c => !c.isAlphanum && c ≠ '-' with
  | some c => rw [found] at ok; cases ok
  | none =>
    intro c member
    have plain := List.find?_eq_none.mp found c member
    by_cases letter : c.isAlphanum = true
    · exact .inl letter
    · exact .inr (by simpa [letter] using plain)

theorem dnsName_of_validated {name : List Char} {u : Unit} (ok : validateDomainLabels name = .ok u) : DnsName name := by
  unfold validateDomainLabels at ok
  split_ifs at ok with long
  have short := length_le_utf8 name
  exact ⟨by omega, fun label member => validateLabel_eq_ok (Except.forM_eq_ok.1 ok label member)⟩

theorem DnsName.getLast? {name : List Char} (dns : DnsName name) : name.getLast? ≠ some '.' := by
  intro last
  obtain ⟨front, rfl⟩ := List.getLast?_eq_some_iff.mp last
  have empty : [] ∈ Egress.labels (front ++ ['.']) := by
    rw [Egress.labels_append]
    exact List.mem_append_right _ (by decide)
  exact (dns.labels [] empty).1 rfl

/-! No address ends in a dot. -/

theorem splitOn_dot (sep : Char) (front : List Char) (other : '.' ≠ sep) :
    ∃ pieces last, (front ++ ['.']).splitOn sep = pieces ++ [last ++ ['.']] := by
  by_cases inside : sep ∈ front
  · obtain ⟨last, before, turned, clean⟩ := List.eq_append_cons_of_mem (List.mem_reverse.mpr inside)
    have whole : front = before.reverse ++ sep :: last.reverse := by
      rw [← List.reverse_reverse front, turned, List.reverse_append, List.reverse_cons, List.append_assoc, List.singleton_append]
    have single : (last.reverse ++ ['.']).splitOn sep = [last.reverse ++ ['.']] := by
      rw [List.splitOn_eq_singleton]
      intro member
      rcases List.mem_append.mp member with known | dot
      · exact clean (List.mem_reverse.mp known)
      · exact other (List.mem_singleton.mp dot).symm
    refine ⟨before.reverse.splitOn sep, last.reverse, ?_⟩
    rw [whole, List.append_assoc, List.cons_append, List.splitOn_append_cons_self, single]
  · refine ⟨[], front, ?_⟩
    rw [List.nil_append, List.splitOn_eq_singleton]
    intro member
    rcases List.mem_append.mp member with known | dot
    · exact inside known
    · exact other (List.mem_singleton.mp dot).symm

theorem parseIpv4_dot (front : List Char) : parseIpv4 (front ++ ['.']) = none := by
  have ends : (front ++ ['.']).splitOn '.' = front.splitOn '.' ++ [[]] := Egress.labels_append front []
  rw [parseIpv4, ends]
  split
  · rename_i a b c d split
    have last := congrArg List.getLast? split
    rw [List.getLast?_append, List.getLast?_singleton] at last
    simp only [Option.some_or, List.getLast?_cons_cons, List.getLast?_singleton, Option.some.injEq] at last
    subst last
    cases parseOctet a <;> cases parseOctet b <;> cases parseOctet c <;> rfl
  · rfl

theorem parseHexGroup_dot (front : List Char) : parseHexGroup (front ++ ['.']) = none := by
  have dot : hexDigit '.' = none := by decide
  unfold parseHexGroup
  split_ifs
  · rfl
  · rw [List.mapM_append, List.mapM_cons, dot]
    cases front.mapM hexDigit <;> rfl

theorem parseGroups_dot (pieces : List (List Char)) (last : List Char) (embedded : Bool) :
    parseGroups embedded (pieces ++ [last ++ ['.']]) = none := by
  induction pieces with
  | nil =>
    rw [List.nil_append, parseGroups, parseHexGroup_dot, parseIpv4_dot]
    cases embedded <;> rfl
  | cons piece pieces ih =>
    have some_ : ∀ first rest, pieces ++ [last ++ ['.']] = first :: rest → parseGroups embedded (piece :: first :: rest) =
        (parseHexGroup piece).bind fun group => (parseGroups embedded (first :: rest)).bind fun more => some (group :: more) :=
      fun _ _ _ => rfl
    obtain ⟨first, rest, split⟩ := List.exists_cons_of_ne_nil (List.append_ne_nil_of_right_ne_nil pieces (List.cons_ne_nil (last ++ ['.']) []))
    rw [List.cons_append, split, some_ first rest split, ← split, ih]
    cases parseHexGroup piece <;> rfl

theorem groupsOf_dot (front : List Char) (embedded : Bool) : groupsOf embedded (front ++ ['.']) = none := by
  obtain ⟨pieces, last, split⟩ := splitOn_dot ':' front (by decide)
  rw [groupsOf, if_neg (by simp), split, parseGroups_dot]

theorem splitGap_eq_some {text first rest : List Char} (found : splitGap text = some (first, rest)) :
    text = first ++ ':' :: ':' :: rest := by
  induction text using splitGap.induct generalizing first with
  | case1 tail =>
    cases found
    rfl
  | case2 c tail other ih =>
    rw [splitGap.eq_2 c tail other] at found
    obtain ⟨⟨before, after⟩, split, parts⟩ := Option.map_eq_some_iff.mp found
    cases parts
    rw [ih split, List.cons_append]
  | case3 => cases found

/-- An address of either kind. -/
theorem parseIp_getLast? {text : List Char} {ip : IpAddr} (parsed : parseIp text = some ip) : text.getLast? ≠ some '.' := by
  intro last
  obtain ⟨front, rfl⟩ := List.getLast?_eq_some_iff.mp last
  rw [parseIp, parseIpv4_dot] at parsed
  dsimp only at parsed
  rw [parseIpv6] at parsed
  cases gap : splitGap (front ++ ['.']) with
  | none => 
    rw [gap] at parsed
    simp only [groupsOf_dot] at parsed
    cases parsed
  | some parts =>
    obtain ⟨head, tail⟩ := parts
    have whole := splitGap_eq_some gap
    have shorter : ∃ more, tail = more ++ ['.'] := by
      rcases List.eq_nil_or_concat tail with rfl | ⟨more, c, rfl⟩
      · have ends := congrArg List.getLast? whole
        rw [List.getLast?_concat, List.getLast?_append] at ends
        cases ends
      · have ends := congrArg List.getLast? whole
        rw [List.getLast?_concat, List.concat_eq_append, ← List.cons_append, ← List.cons_append, ← List.append_assoc, List.getLast?_concat] at ends
        exact ⟨more, by rw [Option.some.inj ends, List.concat_eq_append]⟩
    obtain ⟨more, rfl⟩ := shorter
    rw [gap] at parsed
    dsimp only at parsed
    rw [groupsOf_dot] at parsed
    obtain ⟨_, -, rest⟩ := Option.bind_eq_some_iff.mp parsed
    cases rest

theorem ipCandidate_getLast? {domain : String} {ip : IpAddr} (parsed : parseIp (ipCandidate domain) = some ip) :
    domain.toList.getLast? ≠ some '.' := by
  unfold ipCandidate at parsed
  split at parsed
  · rename_i rest bracket
    rw [bracket]
    split_ifs at parsed with closed
    · obtain ⟨inner, rfl⟩ := List.getLast?_eq_some_iff.mp closed
      rw [← List.cons_append, List.getLast?_concat]
      exact fun same => absurd (Option.some.inj same) (by decide)
    · rw [bracket] at parsed
      exact parseIp_getLast? parsed
  · exact parseIp_getLast? parsed

/-! The normal form is normal. -/

theorem isWhitespace_toLower {c : Char} (visible : isWhitespace c = false) : isWhitespace c.toLower = false := by
  rcases toLower_cases c with ⟨low, high, moved⟩ | ⟨-, kept⟩
  · simp only [isWhitespace, moved, List.mem_cons, List.not_mem_nil, or_false]
    simp only [Bool.or_eq_false_iff, Bool.and_eq_false_iff, decide_eq_false_iff_not]
    omega
  · rw [kept]
    exact visible

theorem trim_visible {text : List Char} (visible : ∀ c ∈ text, isWhitespace c = false) : trim text = text := by
  have front : text.dropWhile isWhitespace = text := by
    cases text with
    | nil => rfl
    | cons c text => rw [List.dropWhile_cons_of_neg (by rw [visible c List.mem_cons_self]; exact Bool.false_ne_true)]
  rw [trim, front, List.rdropWhile_eq_self_iff]
  intro some_
  rw [visible _ (List.getLast_mem some_)]
  exact Bool.false_ne_true

theorem lowerText_normalizeDomain (domain : List Char) : lowerText (normalizeDomain domain) = normalizeDomain domain := by
  unfold normalizeDomain
  dsimp only
  split_ifs
  · rw [lowerText, List.map_dropLast]
    exact congrArg List.dropLast (lowerText_lowerText _)
  · exact lowerText_lowerText _

theorem mem_lowerText_of_normalizeDomain {domain : List Char} {c : Char} (member : c ∈ normalizeDomain domain) :
    c ∈ lowerText (trim domain) := by
  unfold normalizeDomain at member
  dsimp only at member
  split_ifs at member
  · exact List.dropLast_subset _ member
  · exact member

/-- What is accepted as the syntax of a text is accepted of its normal form,
unless that ends in a dot once more. -/
theorem read_again {domain text : String} {wildcard : Bool} (ok : normalizeAndValidateSyntax domain = .ok (text, wildcard))
    (ends : text.toList.getLast? ≠ some '.') : normalizeAndValidateSyntax text = .ok (text, wildcard) := by
  have same := normalizeAndValidateSyntax_eq_ok ok
  subst same
  rw [String.toList_ofList] at ends
  simp only [normalizeAndValidateSyntax] at ok
  split at ok
  · cases ok
  split at ok
  · cases ok
  split at ok
  · cases ok
  rename_i visible some_
  have clean : ∀ c ∈ normalizeDomain domain.toList, isWhitespace c = false := by
    intro c member
    obtain ⟨d, known, rfl⟩ := List.mem_map.mp (mem_lowerText_of_normalizeDomain member)
    refine isWhitespace_toLower (Bool.eq_false_iff.mpr fun space => visible ?_)
    exact List.any_eq_true.mpr ⟨d, known, space⟩
  have settled : normalizeDomain (normalizeDomain domain.toList) = normalizeDomain domain.toList := by
    rw [normalizeDomain, trim_visible clean, lowerText_normalizeDomain]
    exact if_neg ends
  have noSpace : (normalizeDomain domain.toList).any isWhitespace = false := by
    rw [List.any_eq_false]
    exact fun c member => Bool.eq_false_iff.mp (clean c member)
  simp only [normalizeAndValidateSyntax, String.toList_ofList, trim_visible clean, settled]
  rw [if_neg some_, if_neg (by rw [noSpace]; exact Bool.false_ne_true), if_neg some_]
  exact ok

/-- A wildcard has a suffix of several labels that are checked. -/
theorem wildcard_of_read {domain text : String} (ok : normalizeAndValidateSyntax domain = .ok (text, true)) :
    ∃ suffix, stripText "*." text = some suffix ∧ '.' ∈ suffix.toList ∧ DnsName suffix.toList := by
  have same := normalizeAndValidateSyntax_eq_ok ok
  subst same
  simp only [normalizeAndValidateSyntax] at ok
  split at ok
  · cases ok
  split at ok
  · cases ok
  split at ok
  · cases ok
  split at ok
  · rename_i suffix found
    split_ifs at ok with star empty dot
    obtain ⟨_, checked, -⟩ := Except.bind_eq_ok.1 ok
    exact ⟨suffix, found, by simpa using dot, dnsName_of_validated checked⟩
  · split_ifs at ok
    cases ok

theorem plain_of_read {domain text : String} (ok : normalizeAndValidateSyntax domain = .ok (text, false)) :
    stripText "*." text = none ∧ '*' ∉ text.toList := by
  have same := normalizeAndValidateSyntax_eq_ok ok
  subst same
  simp only [normalizeAndValidateSyntax] at ok
  split at ok
  · cases ok
  split at ok
  · cases ok
  split at ok
  · cases ok
  split at ok
  · split_ifs at ok
    obtain ⟨_, -, wild⟩ := Except.bind_eq_ok.1 ok
    have flag : true = false := congrArg Prod.snd (Except.ok.inj wild)
    cases flag
  · rename_i none
    split_ifs at ok with star
    rw [String.toList_ofList]
    exact ⟨none, star⟩

/-! What an entry matches when it stands alone. -/

namespace Egress

theorem findMatchingEntry_singleton {host entry : String} :
    findMatchingEntry host [entry] = some entry ↔ Matches (toAsciiLowercase host) entry := by
  rw [findMatchingEntry, List.find?_singleton, ← entryMatches_iff]
  cases entryMatches (toAsciiLowercase host) entry <;> simp

theorem findMatchingEntry_wildcard {host entry suffix : String} (wildcard : stripText "*." entry = some suffix)
    (some_ : suffix ≠ "") :
    findMatchingEntry host [entry] = some entry ↔ ProperSubdomain (toAsciiLowercase host).toList suffix.toList := by
  rw [findMatchingEntry_singleton, Matches, wildcard]
  exact and_iff_right some_

theorem findMatchingEntry_exact {host entry : String} (plain : stripText "*." entry = none) :
    findMatchingEntry host [entry] = some entry ↔
      toAsciiLowercase host = entry ∨ ProperSubdomain (toAsciiLowercase host).toList entry.toList := by
  rw [findMatchingEntry_singleton, Matches, plain]

end Egress

/-- An entry that stands for all names below another. -/
def WildcardEntry (entry : String) : Prop :=
  ∃ suffix, entry = "*." ++ suffix ∧ '.' ∈ suffix.toList ∧ DnsName suffix.toList ∧
    ∀ host, Egress.findMatchingEntry host [entry] = some entry ↔
      Egress.ProperSubdomain (toAsciiLowercase host).toList suffix.toList

/-- An entry that stands for a name and for all below it. -/
def ExactEntry (entry : String) : Prop :=
  '*' ∉ entry.toList ∧
    ∀ host, Egress.findMatchingEntry host [entry] = some entry ↔
      toAsciiLowercase host = entry ∨ Egress.ProperSubdomain (toAsciiLowercase host).toList entry.toList

theorem wildcardEntry_of_read {domain text : String} (ok : normalizeAndValidateSyntax domain = .ok (text, true)) :
    WildcardEntry text := by
  obtain ⟨suffix, found, dot, dns⟩ := wildcard_of_read ok
  refine ⟨suffix, (stripText_eq_some_iff.1 found), dot, dns, fun host => Egress.findMatchingEntry_wildcard found ?_⟩
  rintro rfl
  exact absurd dot (by decide)

theorem exactEntry_of_read {domain text : String} (ok : normalizeAndValidateSyntax domain = .ok (text, false)) :
    ExactEntry text := by
  obtain ⟨plain, star⟩ := plain_of_read ok
  exact ⟨star, fun host => Egress.findMatchingEntry_exact plain⟩

theorem WildcardEntry.getLast? {entry : String} (wildcard : WildcardEntry entry) : entry.toList.getLast? ≠ some '.' := by
  obtain ⟨suffix, rfl, dot, dns, -⟩ := wildcard
  have some_ : suffix.toList ≠ [] := List.ne_nil_of_mem dot
  rw [String.toList_append, List.getLast?_append_of_ne_nil _ some_]
  exact dns.getLast?

/-- What is accepted of a text is accepted of what it became. -/
theorem accepted_again {domain text : String} {wildcard : Bool}
    (ok : normalizeAndValidateSyntax domain = .ok (text, wildcard))
    (plain : wildcard = false → text.toList.getLast? ≠ some '.') :
    normalizeAndValidateSyntax text = .ok (text, wildcard) := by
  cases wildcard with
  | true => exact read_again ok (wildcardEntry_of_read ok).getLast?
  | false => exact read_again ok (plain rfl)

/-- A manifest entry stays as it is when it is read again, and stands for a
wildcard of well-formed labels, for an address or for a name of well-formed
labels. Nothing is said of the characters of a name without dots. -/
theorem validateManifestDomainEntry_forms {domain entry : String} (ok : validateManifestDomainEntry domain = .ok entry) :
    validateManifestDomainEntry entry = .ok entry ∧
      (WildcardEntry entry ∨
        ExactEntry entry ∧
          ((∃ ip, parseIp (ipCandidate entry) = some ip) ∨ ('.' ∈ entry.toList → DnsName entry.toList))) := by
  obtain ⟨⟨text, wildcard⟩, syntaxOk, rest⟩ := Except.bind_eq_ok.1 ok
  cases wildcard with
  | true =>
    cases rest
    exact ⟨Except.bind_eq_ok.2 ⟨_, accepted_again syntaxOk nofun, rfl⟩, .inl (wildcardEntry_of_read syntaxOk)⟩
  | false =>
    have exact_ := exactEntry_of_read syntaxOk
    have again (ends : text.toList.getLast? ≠ some '.') : validateManifestDomainEntry text = .ok entry :=
      Except.bind_eq_ok.2 ⟨_, accepted_again syntaxOk fun _ => ends, rest⟩
    simp only [Bool.false_eq_true, if_false] at rest
    split_ifs at rest with address dot
    · cases rest
      obtain ⟨ip, parsed⟩ := Option.isSome_iff_exists.mp address
      exact ⟨again (ipCandidate_getLast? parsed), .inr ⟨exact_, .inl ⟨ip, parsed⟩⟩⟩
    · obtain ⟨_, checked, same⟩ := Except.bind_eq_ok.1 rest
      cases same
      have dns := dnsName_of_validated checked
      exact ⟨again dns.getLast?, .inr ⟨exact_, .inr fun _ => dns⟩⟩
    · cases rest
      exact ⟨again fun last => dot (List.mem_of_getLast? last), .inr ⟨exact_, .inr fun inside => absurd inside dot⟩⟩

/-- A learned domain stays as it is when it is read again, also as a manifest
entry, and stands for a wildcard of well-formed labels, for a public address or
for a name of several well-formed labels. -/
theorem validateDomainEntry_forms {domain entry : String} {allowUnsafeWildcard : Bool}
    (ok : validateDomainEntry domain allowUnsafeWildcard = .ok entry) :
    validateDomainEntry entry allowUnsafeWildcard = .ok entry ∧ validateManifestDomainEntry entry = .ok entry ∧
      (WildcardEntry entry ∨
        ExactEntry entry ∧ entry ≠ "localhost" ∧
          ((∃ ip, parseIp (ipCandidate entry) = some ip ∧ isPrivateIp ip = false) ∨
            parseIp (ipCandidate entry) = none ∧ '.' ∈ entry.toList ∧ DnsName entry.toList)) := by
  obtain ⟨⟨text, wildcard⟩, syntaxOk, rest⟩ := Except.bind_eq_ok.1 ok
  cases wildcard with
  | true =>
    have same : text = entry := by
      simp only [if_true] at rest
      split at rest
      · split_ifs at rest
        exact Except.ok.inj rest
      · exact Except.ok.inj rest
    subst same
    have again := accepted_again syntaxOk nofun
    exact ⟨Except.bind_eq_ok.2 ⟨_, again, rest⟩, Except.bind_eq_ok.2 ⟨_, again, rfl⟩,
      .inl (wildcardEntry_of_read syntaxOk)⟩
  | false =>
    have exact_ := exactEntry_of_read syntaxOk
    have twice (ends : text.toList.getLast? ≠ some '.') := accepted_again syntaxOk fun _ => ends
    have judged := rest
    simp only [Bool.false_eq_true, if_false] at rest
    by_cases named : text = "localhost"
    · rw [if_pos named] at rest
      cases rest
    rw [if_neg named] at rest
    split at rest
    · rename_i ip parsed
      split_ifs at rest with hidden
      cases rest
      have ends := ipCandidate_getLast? parsed
      refine ⟨Except.bind_eq_ok.2 ⟨_, twice ends, judged⟩, Except.bind_eq_ok.2 ⟨_, twice ends, ?_⟩,
        .inr ⟨exact_, named, .inl ⟨ip, parsed, Bool.eq_false_iff.mpr hidden⟩⟩⟩
      simp only [parsed, Option.isSome_some, Bool.false_eq_true, if_false, if_true]
    · rename_i unparsed
      split_ifs at rest with dot
      obtain ⟨_, checked, same⟩ := Except.bind_eq_ok.1 rest
      cases same
      have dns := dnsName_of_validated checked
      refine ⟨Except.bind_eq_ok.2 ⟨_, twice dns.getLast?, judged⟩, Except.bind_eq_ok.2 ⟨_, twice dns.getLast?, ?_⟩,
        .inr ⟨exact_, named, .inr ⟨unparsed, dot, dns⟩⟩⟩
      simp only [unparsed, Option.isSome_none, Bool.false_eq_true, if_false, if_pos dot]
      exact Except.bind_eq_ok.2 ⟨_, checked, rfl⟩

/-- Letters in both cases, blanks and a dot at the end. -/
theorem api_forms :
    validateDomainEntry " API.Example.com. " false = .ok "api.example.com" ∧
      validateDomainEntry "api.example.com" false = .ok "api.example.com" := by
  have ok : validateDomainEntry " API.Example.com. " false = .ok "api.example.com" := by decide
  exact ⟨ok, (validateDomainEntry_forms ok).1⟩

/-- A public address is learned. -/
theorem public_address_learned :
    validateDomainEntry "8.8.8.8" false = .ok "8.8.8.8" ∧ parseIp "8.8.8.8".toList = some (.v4 8 8 8 8) := by
  decide

/-- Services on the host itself, as a manifest names them. -/
theorem loopback_forms :
    validateManifestDomainEntry "LOCALHOST" = .ok "localhost" ∧ validateManifestDomainEntry "localhost" = .ok "localhost" := by
  have ok : validateManifestDomainEntry "LOCALHOST" = .ok "localhost" := by decide
  exact ⟨ok, (validateManifestDomainEntry_forms ok).1⟩

/-- An address is no name of labels, and a label may begin with a hyphen. -/
theorem loopback_address_accepted :
    (validateManifestDomainEntry "[::1]" = .ok "[::1]" ∧ ¬∀ c ∈ "[::1]".toList, c.isAlphanum = true ∨ c = '-' ∨ c = '.') ∧
      validateManifestDomainEntry "-a.com" = .ok "-a.com" := by
  refine ⟨⟨by decide, fun plain => ?_⟩, by decide⟩
  have colon := plain ':' (by decide)
  exact absurd colon (by decide)

end Latchgate
