import Latchgate.Core.DomainForms

namespace Latchgate

/-! What an accepted domain is spelled with. -/

def Ascii (text : List Char) : Prop :=
  ∀ c ∈ text, c.toNat < 128

theorem Ascii.nil : Ascii [] := nofun

theorem Ascii.cons {c : Char} {text : List Char} (low : c.toNat < 128) (ascii : Ascii text) : Ascii (c :: text) :=
  List.forall_mem_cons.mpr ⟨low, ascii⟩

theorem Ascii.append {text more : List Char} (first : Ascii text) (second : Ascii more) : Ascii (text ++ more) :=
  List.forall_mem_append.mpr ⟨first, second⟩

theorem isDigit_ascii {c : Char} (digit : c.isDigit = true) : c.toNat < 128 := by
  simp only [Char.isDigit, Bool.and_eq_true, decide_eq_true_eq, UInt32.le_iff_toNat_le] at digit
  have top : c.val.toNat ≤ 57 := digit.2
  have same : c.toNat = c.val.toNat := rfl
  omega

theorem isAlphanum_ascii {c : Char} (letter : c.isAlphanum = true) : c.toNat < 128 := by
  rcases Bool.or_eq_true_iff.mp letter with alpha | digit
  · rcases Bool.or_eq_true_iff.mp alpha with upper | lower
    · delta Char.isUpper at upper
      simp only [decide_eq_true_eq, UInt32.le_iff_toNat_le] at upper
      have top : c.val.toNat ≤ 90 := upper.2
      have same : c.toNat = c.val.toNat := rfl
      omega
    · delta Char.isLower at lower
      simp only [Bool.and_eq_true, decide_eq_true_eq, UInt32.le_iff_toNat_le] at lower
      have top : c.val.toNat ≤ 122 := lower.2
      have same : c.toNat = c.val.toNat := rfl
      omega
  · exact isDigit_ascii digit

theorem hexDigit_ascii {c : Char} {value : Nat} (hex : hexDigit c = some value) : c.toNat < 128 := by
  unfold hexDigit at hex
  split_ifs at hex with digit lower upper
  · exact isDigit_ascii digit
  · have top : c.toNat ≤ 'f'.toNat := lower.2
    exact Nat.lt_of_le_of_lt top (by decide)
  · have top : c.toNat ≤ 'F'.toNat := upper.2
    exact Nat.lt_of_le_of_lt top (by decide)

/-! Texts in parts. -/

theorem Ascii.intercalate {separator : List Char} {parts : List (List Char)} (between : Ascii separator)
    (ascii : ∀ part ∈ parts, Ascii part) : Ascii (separator.intercalate parts) := by
  induction parts with
  | nil => exact Ascii.nil
  | cons part rest ih =>
    obtain ⟨first, others⟩ := List.forall_mem_cons.mp ascii
    cases rest with
    | nil => simpa using first
    | cons next rest =>
      rw [List.intercalate_cons_cons]
      exact (first.append between).append (ih others)

theorem Ascii.of_splitOn (separator : Char) {text : List Char} (low : separator.toNat < 128)
    (ascii : ∀ part ∈ text.splitOn separator, Ascii part) : Ascii text := by
  have joined := Ascii.intercalate (Ascii.nil.cons low) ascii
  rwa [List.intercalate_splitOn] at joined

theorem parseOctet_ascii {text : List Char} {value : UInt8} (parsed : parseOctet text = some value) : Ascii text := by
  unfold parseOctet at parsed
  dsimp only at parsed
  split_ifs at parsed with octet
  exact fun c member => isDigit_ascii (List.all_eq_true.mp octet.2.2.1 c member)

theorem parseIpv4_ascii {text : List Char} {address : UInt8 × UInt8 × UInt8 × UInt8}
    (parsed : parseIpv4 text = some address) : Ascii text := by
  unfold parseIpv4 at parsed
  split at parsed
  · rename_i a b c d split
    obtain ⟨_, first, rest⟩ := Option.bind_eq_some_iff.mp parsed
    obtain ⟨_, second, rest⟩ := Option.bind_eq_some_iff.mp rest
    obtain ⟨_, third, rest⟩ := Option.bind_eq_some_iff.mp rest
    obtain ⟨_, fourth, -⟩ := Option.bind_eq_some_iff.mp rest
    refine Ascii.of_splitOn '.' (by decide) ?_
    rw [split]
    simp only [List.mem_cons, List.not_mem_nil, or_false, forall_eq_or_imp, forall_eq]
    exact ⟨parseOctet_ascii first, parseOctet_ascii second, parseOctet_ascii third, parseOctet_ascii fourth⟩
  · cases parsed

theorem mapM_hexDigit_ascii {text : List Char} {digits : List Nat} (read : text.mapM hexDigit = some digits) : Ascii text := by
  induction text generalizing digits with
  | nil => exact Ascii.nil
  | cons c text ih =>
    rw [List.mapM_cons] at read
    obtain ⟨digit, hex, rest⟩ := Option.bind_eq_some_iff.mp read
    obtain ⟨more, later, -⟩ := Option.bind_eq_some_iff.mp rest
    exact (ih later).cons (hexDigit_ascii hex)

theorem parseHexGroup_ascii {text : List Char} {value : UInt16} (parsed : parseHexGroup text = some value) : Ascii text := by
  unfold parseHexGroup at parsed
  split_ifs at parsed
  obtain ⟨digits, read, -⟩ := Option.map_eq_some_iff.mp parsed
  exact mapM_hexDigit_ascii read

theorem parseGroups_ascii {embedded : Bool} {parts : List (List Char)} {groups : List UInt16}
    (parsed : parseGroups embedded parts = some groups) : ∀ part ∈ parts, Ascii part := by
  induction parts generalizing groups with
  | nil => nofun
  | cons part rest ih =>
    cases rest with
    | nil =>
      rw [parseGroups] at parsed
      refine List.forall_mem_singleton.mpr ?_
      split at parsed
      · rename_i group hex
        exact parseHexGroup_ascii hex
      · split_ifs at parsed
        obtain ⟨address, read, -⟩ := Option.bind_eq_some_iff.mp parsed
        exact parseIpv4_ascii read
    | cons next rest =>
      obtain ⟨group, hex, others⟩ := Option.bind_eq_some_iff.mp parsed
      obtain ⟨more, later, -⟩ := Option.bind_eq_some_iff.mp others
      exact List.forall_mem_cons.mpr ⟨parseHexGroup_ascii hex, ih later⟩

theorem groupsOf_ascii {embedded : Bool} {text : List Char} {groups : List UInt16}
    (parsed : groupsOf embedded text = some groups) : Ascii text := by
  unfold groupsOf at parsed
  split_ifs at parsed with empty
  · exact empty ▸ Ascii.nil
  · exact Ascii.of_splitOn ':' (by decide) (parseGroups_ascii parsed)

theorem parseIpv6_ascii {text : List Char} {address : IpAddr} (parsed : parseIpv6 text = some address) : Ascii text := by
  rw [parseIpv6] at parsed
  cases gap : splitGap text with
  | none =>
    rw [gap] at parsed
    obtain ⟨groups, read, -⟩ := Option.bind_eq_some_iff.mp parsed
    exact groupsOf_ascii read
  | some parts =>
    obtain ⟨head, tail⟩ := parts
    rw [gap] at parsed
    obtain ⟨first, before, rest⟩ := Option.bind_eq_some_iff.mp parsed
    obtain ⟨last, after, -⟩ := Option.bind_eq_some_iff.mp rest
    rw [splitGap_eq_some gap]
    exact (groupsOf_ascii before).append (((groupsOf_ascii after).cons (by decide)).cons (by decide))

theorem parseIp_ascii {text : List Char} {address : IpAddr} (parsed : parseIp text = some address) : Ascii text := by
  unfold parseIp at parsed
  split at parsed
  · rename_i read
    exact parseIpv4_ascii read
  · exact parseIpv6_ascii parsed

theorem ipCandidate_ascii {domain : String} (ascii : Ascii (ipCandidate domain)) : Ascii domain.toList := by
  unfold ipCandidate at ascii
  split at ascii
  · rename_i inside bracket
    split_ifs at ascii with closed
    · obtain ⟨address, rfl⟩ := List.getLast?_eq_some_iff.mp closed
      rw [List.dropLast_concat] at ascii
      rw [bracket]
      exact (ascii.append (Ascii.nil.cons (by decide))).cons (by decide)
    · exact ascii
  · exact ascii

theorem DnsName.ascii {name : List Char} (dns : DnsName name) : Ascii name := by
  refine Ascii.of_splitOn '.' (by decide) fun label member c inside => ?_
  rcases (dns.labels label member).2.2 c inside with letter | rfl
  · exact isAlphanum_ascii letter
  · decide

/-- How a learned domain was read. -/
theorem validateDomainEntry_read {domain entry : String} {allowUnsafeWildcard : Bool}
    (ok : validateDomainEntry domain allowUnsafeWildcard = .ok entry) :
    normalizeAndValidateSyntax domain = .ok (entry, true) ∨
      normalizeAndValidateSyntax domain = .ok (entry, false) ∧
        ((∃ ip, parseIp (ipCandidate entry) = some ip) ∨ DnsName entry.toList) := by
  obtain ⟨⟨text, wildcard⟩, syntaxOk, rest⟩ := Except.bind_eq_ok.1 ok
  cases wildcard with
  | true =>
    left
    simp only [if_true] at rest
    split at rest
    · split_ifs at rest
      obtain rfl := Except.ok.inj rest
      exact syntaxOk
    · obtain rfl := Except.ok.inj rest
      exact syntaxOk
  | false =>
    right
    simp only [Bool.false_eq_true, if_false] at rest
    by_cases named : text = "localhost"
    · rw [if_pos named] at rest
      cases rest
    rw [if_neg named] at rest
    split at rest
    · rename_i ip parsed
      split_ifs at rest
      obtain rfl := Except.ok.inj rest
      exact ⟨syntaxOk, .inl ⟨ip, parsed⟩⟩
    · split_ifs at rest
      obtain ⟨_, checked, same⟩ := Except.bind_eq_ok.1 rest
      obtain rfl := Except.ok.inj same
      exact ⟨syntaxOk, .inr (dnsName_of_validated checked)⟩

/-- A learned domain is in lower case and has only characters below 128. -/
theorem validateDomainEntry_spelling {domain entry : String} {allowUnsafeWildcard : Bool}
    (ok : validateDomainEntry domain allowUnsafeWildcard = .ok entry) :
    Ascii entry.toList ∧ lowerText entry.toList = entry.toList := by
  have lower {wildcard : Bool} (syntaxOk : normalizeAndValidateSyntax domain = .ok (entry, wildcard)) :
      lowerText entry.toList = entry.toList := by
    rw [normalizeAndValidateSyntax_eq_ok syntaxOk, String.toList_ofList]
    exact lowerText_normalizeDomain _
  rcases validateDomainEntry_read ok with syntaxOk | ⟨syntaxOk, ⟨ip, parsed⟩ | dns⟩
  · refine ⟨?_, lower syntaxOk⟩
    obtain ⟨suffix, found, -, dns⟩ := wildcard_of_read syntaxOk
    obtain rfl := stripText_eq_some_iff.1 found
    have star : "*.".toList = ['*', '.'] := rfl
    rw [String.toList_append, star]
    exact ((Ascii.nil.cons (by decide)).cons (by decide)).append dns.ascii
  · exact ⟨ipCandidate_ascii (parseIp_ascii parsed), lower syntaxOk⟩
  · exact ⟨dns.ascii, lower syntaxOk⟩

end Latchgate
