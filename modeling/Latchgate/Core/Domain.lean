import Latchgate.Core.Ip
import Latchgate.Core.Text
import Latchgate.Encoding.Delimited
import Latchgate.Manifest.Load

namespace Latchgate
open Encoding (utf8)

inductive DomainValidationError where
  | empty
  | containsWhitespace
  | privateIp (domain : String)
  | localhost
  | noDot (domain : String)
  | wildcardInvalid (reason : String)
  | wildcardSuffixTooShort (domain : String)
  | wildcardSuffixUnsafe (domain : String)
  | invalidCharacter (c : Char)
  | emptyLabel
  | labelTooLong (label : String)
  | tooLong
  deriving DecidableEq

def DomainValidationError.display : DomainValidationError → String
  | empty => "domain must not be empty or whitespace-only"
  | containsWhitespace => "domain contains whitespace"
  | privateIp domain => "'" ++ domain ++ "' is a private/reserved IP address — learned domains must be public"
  | localhost => "'localhost' is not permitted as a learned domain"
  | noDot domain => "domain must contain at least one dot (got '" ++ domain ++ "')"
  | wildcardInvalid reason => "invalid wildcard: " ++ reason
  | wildcardSuffixTooShort domain =>
    "wildcard suffix too short: '" ++ domain ++
      "' — suffix after '*.' must contain at least one dot (e.g. '*.example.com', not '*.com')"
  | wildcardSuffixUnsafe domain =>
    "wildcard '" ++ domain ++
      "' has a broad suffix (fewer than 3 labels) — use --force on the CLI to accept this risk"
  | invalidCharacter c =>
    "domain contains invalid character '" ++ String.singleton c ++
      "' — only ASCII alphanumerics, hyphens, and dots are allowed"
  | emptyLabel => "domain label must not be empty (double dot or leading/trailing dot after normalization)"
  | labelTooLong label => "domain label '" ++ label ++ "' exceeds 63 characters"
  | tooLong => "domain exceeds 253 characters"

def isSafeWildcardSuffix (suffix : List Char) : Bool :=
  2 ≤ suffix.count '.'

def validateLabel (label : List Char) : Except DomainValidationError Unit :=
  if label = [] then .error .emptyLabel
  else if 63 < (utf8 label).length then .error (.labelTooLong (String.ofList label))
  else match label.find? fun c => !c.isAlphanum && c ≠ '-' with
    | some c => .error (.invalidCharacter c)
    | none => .ok ()

def validateDomainLabels (domain : List Char) : Except DomainValidationError Unit :=
  if 253 < (utf8 domain).length then .error .tooLong
  else (domain.splitOn '.').forM validateLabel

/-- Lower case, without blanks around it and without one dot at its end. -/
def normalizeDomain (domain : List Char) : List Char :=
  let lowered := lowerText (trim domain)
  if lowered.getLast? = some '.' then lowered.dropLast else lowered

/-- The normal form of a domain, and whether it is a wildcard. -/
def normalizeAndValidateSyntax (domain : String) : Except DomainValidationError (String × Bool) :=
  let trimmed := trim domain.toList
  let normalized := normalizeDomain domain.toList
  let text := String.ofList normalized
  if trimmed = [] then .error .empty
  else if trimmed.any isWhitespace then .error .containsWhitespace
  else if normalized = [] then .error .empty
  else match stripText "*." text with
    | some suffix =>
      if '*' ∈ suffix.toList then
        .error (.wildcardInvalid "only a leading '*.' is permitted; mid-string wildcards are not supported")
      else if suffix = "" then .error (.wildcardInvalid "wildcard '*.' must be followed by a domain suffix")
      else if '.' ∉ suffix.toList then .error (.wildcardSuffixTooShort text)
      else do
        validateDomainLabels suffix.toList
        .ok (text, true)
    | none =>
      if '*' ∈ normalized then
        .error (.wildcardInvalid "only '*.suffix' form is supported; bare '*' and mid-string wildcards are not")
      else .ok (text, false)

/-- An address of the newer kind may stand in brackets. -/
def ipCandidate (domain : String) : List Char :=
  match domain.toList with
  | '[' :: rest => if rest.getLast? = some ']' then rest.dropLast else domain.toList
  | _ => domain.toList

/-- The form in which a domain is learned. -/
def validateDomainEntry (domain : String) (allowUnsafeWildcard : Bool) : Except DomainValidationError String := do
  let (normalized, wildcard) ← normalizeAndValidateSyntax domain
  if wildcard then
    match stripText "*." normalized with
    | some suffix =>
      if !isSafeWildcardSuffix suffix.toList && !allowUnsafeWildcard then .error (.wildcardSuffixUnsafe normalized)
      else .ok normalized
    | none => .ok normalized
  else if normalized = "localhost" then .error .localhost
  else match parseIp (ipCandidate normalized) with
    | some ip => if isPrivateIp ip then .error (.privateIp normalized) else .ok normalized
    | none =>
      if '.' ∉ normalized.toList then .error (.noDot normalized)
      else do
        validateDomainLabels normalized.toList
        .ok normalized

theorem normalizeAndValidateSyntax_eq_ok {domain normalized : String} {wildcard : Bool}
    (ok : normalizeAndValidateSyntax domain = .ok (normalized, wildcard)) :
    normalized = String.ofList (normalizeDomain domain.toList) := by
  simp only [normalizeAndValidateSyntax] at ok
  split at ok
  · cases ok
  split at ok
  · cases ok
  split at ok
  · cases ok
  split at ok
  · split_ifs at ok
    obtain ⟨_, -, same⟩ := Except.bind_eq_ok.1 ok
    cases same
    rfl
  · split_ifs at ok
    cases ok
    rfl

/-- Whatever is accepted is learned in its normal form. -/
theorem validateDomainEntry_eq_ok {domain accepted : String} {allowUnsafeWildcard : Bool}
    (ok : validateDomainEntry domain allowUnsafeWildcard = .ok accepted) :
    accepted = String.ofList (normalizeDomain domain.toList) := by
  obtain ⟨⟨normalized, wildcard⟩, syntaxOk, rest⟩ := Except.bind_eq_ok.1 ok
  have same := normalizeAndValidateSyntax_eq_ok syntaxOk
  dsimp only at rest
  suffices kept : normalized = accepted from kept ▸ same
  split at rest
  · split at rest
    · split_ifs at rest
      exact Except.ok.inj rest
    · exact Except.ok.inj rest
  split at rest
  · cases rest
  · split at rest
    · split_ifs at rest
      exact Except.ok.inj rest
    · split_ifs at rest
      obtain ⟨_, -, kept⟩ := Except.bind_eq_ok.1 rest
      exact Except.ok.inj kept

/-- A domain that is accepted is accepted where more is. -/
theorem validateDomainEntry_anyWildcard {domain accepted : String} {allowUnsafeWildcard : Bool}
    (ok : validateDomainEntry domain allowUnsafeWildcard = .ok accepted) :
    validateDomainEntry domain true = .ok accepted := by
  obtain ⟨⟨normalized, wildcard⟩, syntaxOk, rest⟩ := Except.bind_eq_ok.1 ok
  refine Except.bind_eq_ok.2 ⟨⟨normalized, wildcard⟩, syntaxOk, ?_⟩
  cases wildcard with
  | false => exact rest
  | true =>
    simp only [if_true] at rest ⊢
    split
    · rename_i suffix found
      simp only [found] at rest
      split_ifs at rest
      simpa using rest
    · rename_i missing
      simpa only [missing] using rest

end Latchgate
