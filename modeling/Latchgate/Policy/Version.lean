import Latchgate.Machine.Run
import Latchgate.Policy.Data
import Latchgate.Policy.Decision

namespace Latchgate
open PolicyData Rego

section Text

/-- How far a version has come: none where there is no text, and for a text
with a number behind its last hyphen that number. -/
def versionRank (version : String) : Nat :=
  if version = "" then 0
  else match splitLast version.toList with
    | some (_, suffix) =>
      match parseU64 suffix with
      | some n => n + 1
      | none => 1
    | none => 1

theorem splitLast_eq_none {text : List Char} (none : '-' ∉ text) : splitLast text = Option.none := by
  induction text with
  | nil => rfl
  | cons c rest ih =>
    have notHere : c ≠ '-' := fun isHyphen => none (by simp [isHyphen])
    rw [splitLast, ih fun later => none (List.mem_cons_of_mem _ later)]
    simp [notHere]

theorem splitLast_append {text digits : List Char} (none : '-' ∉ digits) :
    splitLast (text ++ '-' :: digits) = some (text ++ ['-'], digits) := by
  induction text with
  | nil => simp [splitLast, splitLast_eq_none none]
  | cons c rest ih => simp [splitLast, ih]

/-- The part before the suffix ends in a hyphen. -/
theorem splitLast_eq_some {text before suffix : List Char} (split : splitLast text = some (before, suffix)) :
    ∃ front, before = front ++ ['-'] := by
  induction text generalizing before with
  | nil => cases split
  | cons c rest ih =>
    rw [splitLast] at split
    cases later : splitLast rest with
    | none =>
      simp only [later] at split
      split_ifs at split with isHyphen
      cases split
      exact ⟨[], by simp [isHyphen]⟩
    | some parts =>
      simp only [later, Option.some.injEq, Prod.mk.injEq] at split
      obtain ⟨front, same⟩ : ∃ front, parts.1 = front ++ ['-'] := ih (by rw [later, ← split.2])
      exact ⟨c :: front, by rw [← split.1, same, List.cons_append]⟩

theorem hyphen_not_mem_repr (n : Nat) : '-' ∉ n.repr.toList := by
  intro member
  rw [Nat.toList_repr] at member
  exact absurd (Nat.isDigit_of_mem_toDigits (by decide) (by decide) member) (by decide)

theorem parseU64_repr {n : Nat} (small : n < 2 ^ 64) : parseU64 n.repr.toList = some n := by
  have digit : ∀ c ∈ Nat.toDigits 10 n, c.isDigit = true :=
    fun c member => Nat.isDigit_of_mem_toDigits (by decide) (by decide) member
  have plain : unsigned (Nat.toDigits 10 n) = Nat.toDigits 10 n := by
    unfold unsigned
    split
    · rename_i rest starts
      exact absurd (digit '+' (by rw [starts]; exact List.mem_cons_self)) (by decide)
    · rfl
  have allDigits : ¬(Nat.toDigits 10 n = [] ∨ (Nat.toDigits 10 n).any (fun c => !c.isDigit) = true) := by
    rintro (empty | other)
    · exact Nat.toDigits_ne_nil empty
    · obtain ⟨c, member, notDigit⟩ := List.any_eq_true.mp other
      simp [digit c member] at notDigit
  rw [Nat.toList_repr]
  unfold parseU64
  simp only [plain, if_neg allDigits, Nat.ofDigitChars_ten_toDigits, if_pos small]

/-- A numbered version stands one above its number. -/
theorem versionRank_numbered {front : List Char} {n : Nat} (small : n < 2 ^ 64) :
    versionRank (String.ofList (front ++ '-' :: n.repr.toList)) = n + 1 := by
  have nonempty : String.ofList (front ++ '-' :: n.repr.toList) ≠ "" := by
    intro empty
    have := congrArg String.toList empty
    simp at this
  rw [versionRank, if_neg nonempty, String.toList_ofList, splitLast_append (hyphen_not_mem_repr n)]
  simp only [parseU64_repr small]

/-- Each version stands one above the last. -/
theorem versionRank_nextVersion {version next : String} (done : nextVersion version = .ok next) :
    versionRank next = versionRank version + 1 := by
  have appended : versionRank (version ++ "-1") = 2 := by
    have shape : version ++ "-1" = String.ofList (version.toList ++ '-' :: (1 : Nat).repr.toList) := by
      rw [← String.toList_inj, String.toList_append, String.toList_ofList, String.toList_ofList]
      rfl
    rw [shape, versionRank_numbered (by decide)]
  unfold nextVersion at done
  cases split : splitLast version.toList with
  | none =>
    simp only [split] at done
    by_cases empty : version = ""
    · rw [if_pos empty] at done
      cases done
      rw [versionRank, versionRank, if_pos empty]
      rfl
    · rw [if_neg empty] at done
      cases done
      rw [appended, versionRank, if_neg empty]
      simp only [split]
  | some parts =>
    obtain ⟨before, suffix⟩ := parts
    have nonempty : version ≠ "" := by
      rintro rfl
      cases split
    simp only [split] at done
    cases parsed : parseU64 suffix with
    | none =>
      simp only [parsed, Except.ok.injEq] at done
      rw [← done, appended, versionRank, if_neg nonempty]
      simp only [split, parsed]
    | some n =>
      simp only [parsed] at done
      split_ifs at done with small
      cases done
      obtain ⟨front, rfl⟩ := splitLast_eq_some split
      rw [List.append_assoc, List.singleton_append, versionRank_numbered small, versionRank, if_neg nonempty]
      simp only [split, parsed]

/-- The version carries the largest number there is. -/
def lastVersion (doc : Json) : Prop :=
  ((splitLast (versionText doc).toList).bind fun parts => parseU64 parts.2) = some (2 ^ 64 - 1)

instance (doc : Json) : Decidable (lastVersion doc) :=
  inferInstanceAs (Decidable (_ = _))

theorem nextVersion_ne_panicked {doc : Json} (notLast : ¬lastVersion doc) :
    nextVersion (versionText doc) ≠ .error .panicked := by
  unfold nextVersion
  cases split : splitLast (versionText doc).toList with
  | none =>
    simp only
    split_ifs <;> simp
  | some parts =>
    obtain ⟨before, suffix⟩ := parts
    cases parsed : parseU64 suffix with
    | none => simp [parsed]
    | some n =>
      have bound : n < 2 ^ 64 := by
        unfold parseU64 at parsed
        grind
      have notMax : n ≠ 2 ^ 64 - 1 := by
        rintro rfl
        exact notLast (by rw [lastVersion, split, Option.bind_some, parsed])
      have small : n + 1 < 2 ^ 64 := by omega
      simp only [parsed]
      rw [if_pos small]
      simp

end Text

section Allowlist
variable {doc after : Json} {actionId agentId : String}

def allowlistEntry (doc : Json) (actionId agentId : String) : Option Json :=
  at_ (at_ (at_ (doc.get? "latchgate") "allowlist") actionId) agentId

theorem lookup_allowlistObject {root : List (String × Json)} (found : allowlistRoot doc = .ok root) (key : String) :
    (allowlistObject root).lookup key = at_ (at_ (doc.get? "latchgate") "allowlist") key := by
  unfold allowlistObject
  rw [lookup_objectUnder, lookup_objectUnder, lookup_allowlistRoot found]
  rfl

theorem lookup_agents {root : List (String × Json)} (found : allowlistRoot doc = .ok root) (key : String) :
    (objectUnder actionId (allowlistObject root)).lookup key = allowlistEntry doc actionId key := by
  rw [lookup_objectUnder, lookup_allowlistObject found]
  rfl

/-- An added pair is there, and every other pair and every other field of the
document is as it was. -/
theorem addAllowlistEntry_eq_ok (done : addAllowlistEntry actionId agentId doc = .ok after) :
    (∀ key, key ≠ "latchgate" → after.get? key = doc.get? key) ∧
      ∀ action agent, allowlistEntry after action agent =
        if action = actionId ∧ agent = agentId then some (.bool true) else allowlistEntry doc action agent := by
  refine ⟨fun key differs => get?_addAllowlistEntry done differs, fun action agent => ?_⟩
  simp only [addAllowlistEntry, Except.bind_eq_ok, Except.ok.injEq] at done
  obtain ⟨root, found, rfl⟩ := done
  have latchgate : ∀ allowlist, at_ ((putAllowlist root allowlist).get? "latchgate") "allowlist" =
      some (.object allowlist) := by
    intro allowlist
    show ((Json.insertField _ _ root).lookup "latchgate").bind _ = _
    rw [Json.lookup_insertField, if_pos rfl]
    show (Json.insertField _ _ _).lookup "allowlist" = _
    rw [Json.lookup_insertField, if_pos rfl]
  rw [allowlistEntry, latchgate]
  show ((Json.insertField _ _ (allowlistObject root)).lookup action).bind _ = _
  rw [Json.lookup_insertField]
  by_cases here : action = actionId
  · subst here
    rw [if_pos rfl]
    show (Json.insertField _ _ _).lookup agent = _
    rw [Json.lookup_insertField, lookup_agents found]
    simp
  · rw [if_neg here, lookup_allowlistObject found]
    simp [here, allowlistEntry, at_]

/-- What is not there cannot be removed. -/
theorem removeAllowlistEntry_ne_ok (absent : allowlistEntry doc actionId agentId = none) (after : Json) :
    removeAllowlistEntry actionId agentId doc ≠ .ok after := by
  intro done
  simp only [removeAllowlistEntry, Except.bind_eq_ok] at done
  obtain ⟨root, found, done⟩ := done
  rw [if_pos (by simp [lookup_agents found, absent])] at done
  cases done

end Allowlist

/-- Two documents with the same entries and the same pairs. -/
structure SameRules (a b : Json) : Prop where
  acl : a.get? "acl" = b.get? "acl"
  allowlist : ∀ actionId agentId, allowlistEntry a actionId agentId = allowlistEntry b actionId agentId

/-- The document in force, changed by one request after another under the
registry each of them sees. -/
def policyMachine : Machine Json (RegistryStore × AdminRequest) (Except ApiError Unit) where
  step doc input :=
    match input.2.check input.1 with
    | .error e => (doc, .error e)
    | .ok _ =>
      match input.2.edit input.1 doc with
      | .error e => (doc, .error (input.2.refusal e))
      | .ok written => (written.getD doc, .ok ())

/-- The request computes a next version. -/
def AdminRequest.versions : AdminRequest → Bool
  | grant _ _ | revoke _ _ => true
  | allow _ _ | disallow _ _ => false

/-- Along a run, documents with different rules have different versions, and
no next version overflows. -/
structure VersionsIdentify (start : Json) (inputs : List (RegistryStore × AdminRequest)) : Prop where
  distinct : ∀ past between rest, inputs = past ++ between ++ rest →
    ¬SameRules (policyMachine.run start past) (policyMachine.run start (past ++ between)) →
    (policyMachine.run start past).get? "policy_version" ≠
      (policyMachine.run start (past ++ between)).get? "policy_version"
  total : ∀ past registry request rest, inputs = past ++ (registry, request) :: rest → request.versions = true →
    request.check registry = .ok () → request.edit registry (policyMachine.run start past) ≠ .error .panicked

/-- A grant or revocation that comes to write does not meet the largest
version, and an edit of the allowlist changes nothing: the pair it adds is
there, or the one it removes is not. -/
def VersionGuard (doc : Json) (input : RegistryStore × AdminRequest) : Prop :=
  input.2.check input.1 = .ok () →
    match input.2 with
    | .grant principal _ => lastVersion doc → ∃ value, Policy.entry doc principal = some value ∧ asObject? value = none
    | .revoke principal _ => lastVersion doc → (Policy.entry doc principal).bind asObject? = none
    | .allow actionId agentId => allowlistEntry doc actionId agentId = some (.bool true)
    | .disallow actionId agentId => allowlistEntry doc actionId agentId = none

/-- The later document is under the same rules and version, or under a later
version. -/
def Advanced (earlier later : Json) : Prop :=
  SameRules earlier later ∧ earlier.get? "policy_version" = later.get? "policy_version" ∨
    versionRank (versionText earlier) < versionRank (versionText later)

section Steps
variable {doc after : Json} {registry : RegistryStore} {principal : String} {actions : List String}

theorem Advanced.refl (doc : Json) : Advanced doc doc :=
  .inl ⟨⟨rfl, fun _ _ => rfl⟩, rfl⟩

theorem Advanced.trans {a b c : Json} (first : Advanced a b) (second : Advanced b c) : Advanced a c := by
  unfold Advanced versionText at *
  rcases first with ⟨rules, version⟩ | later
  · rcases second with ⟨rules', version'⟩ | later
    · exact .inl ⟨⟨rules.acl.trans rules'.acl, fun actionId agentId =>
        (rules.allowlist actionId agentId).trans (rules'.allowlist actionId agentId)⟩, version.trans version'⟩
    · rw [version]
      exact .inr later
  · rcases second with ⟨-, version'⟩ | more
    · rw [← version']
      exact .inr later
    · exact .inr (later.trans more)

theorem advanced_of_aclReplaced {acl : List (String × Json)} (replaced : AclReplaced doc after acl) : Advanced doc after := by
  obtain ⟨version, next, found⟩ := replaced.version
  have text : versionText after = version := by
    rw [versionText, found]
    rfl
  refine .inr ?_
  rw [text, versionRank_nextVersion next]
  exact Nat.lt_succ_self _

theorem edit_advances {request : AdminRequest} {written : Option Json} (guarded : VersionGuard doc (registry, request))
    (checked : request.check registry = .ok ()) (done : request.edit registry doc = .ok written) :
    Advanced doc (written.getD doc) := by
  have guarded := guarded checked
  cases request with
  | grant principal actions =>
    obtain ⟨after, made, rfl⟩ := Except.map_eq_ok.1 done
    obtain ⟨acl, entry, -, -, replaced⟩ := grantActions_eq_ok made
    exact advanced_of_aclReplaced replaced
  | revoke principal actions =>
    obtain ⟨acl, -, outcome⟩ := revokeActions_eq_ok done
    rcases outcome with ⟨-, rfl⟩ | ⟨entry, after, -, rfl, replaced⟩
    · exact .refl doc
    · exact advanced_of_aclReplaced replaced
  | allow actionId agentId =>
    obtain ⟨after, made, rfl⟩ := Except.map_eq_ok.1 done
    obtain ⟨others, pairs⟩ := addAllowlistEntry_eq_ok made
    refine .inl ⟨⟨(others "acl" (by decide)).symm, fun action agent => ?_⟩, (others "policy_version" (by decide)).symm⟩
    rw [Option.getD_some, pairs]
    split_ifs with same
    · rw [same.1, same.2]
      exact guarded
    · rfl
  | disallow actionId agentId =>
    obtain ⟨after, made, rfl⟩ := Except.map_eq_ok.1 done
    exact absurd made (removeAllowlistEntry_ne_ok guarded after)

theorem step_advances {input : RegistryStore × AdminRequest} (guarded : VersionGuard doc input) :
    Advanced doc (policyMachine.step doc input).1 := by
  obtain ⟨registry, request⟩ := input
  unfold policyMachine
  cases checked : request.check registry with
  | error e =>
    simp only [checked]
    exact .refl doc
  | ok _ =>
    cases done : request.edit registry doc with
    | error e =>
      simp only [checked, done]
      exact .refl doc
    | ok written =>
      simp only [checked, done]
      exact edit_advances guarded checked done

theorem run_advances {inputs : List (RegistryStore × AdminRequest)} (meets : policyMachine.Meets VersionGuard doc inputs) :
    Advanced doc (policyMachine.run doc inputs) :=
  meets.run_invariant (fun _ _ guarded reached => reached.trans (step_advances guarded)) (Advanced.refl doc)

theorem incrementVersion_ne_panicked {acl : List (String × Json)} (root : ∃ fields, doc = .object fields)
    (notLast : ¬lastVersion doc) : incrementVersion (putAcl doc acl) ≠ .error .panicked := by
  intro panics
  have same : versionText (putAcl doc acl) = versionText doc := by
    unfold versionText
    rw [get?_putAcl root, if_neg (by decide)]
  simp only [incrementVersion, same] at panics
  cases next : nextVersion (versionText doc) with
  | ok version =>
    rw [next] at panics
    cases panics
  | error e =>
    rw [next] at panics
    cases panics
    exact nextVersion_ne_panicked notLast next

theorem ensureAclObject_ne_panicked : ensureAclObject doc ≠ .error .panicked := by
  unfold ensureAclObject rootObject
  cases doc <;> simp [asObject?, Except.map]

theorem entryObject_ne_panicked {value : Json} : entryObject value ≠ .error .panicked := by
  unfold entryObject
  cases value <;> simp [asObject?]

theorem grantActions_ne_panicked (guarded : lastVersion doc → ∃ value, Policy.entry doc principal = some value ∧
    asObject? value = none) : grantActions registry principal actions doc ≠ .error .panicked := by
  intro panics
  simp only [grantActions, Except.bind_eq_error] at panics
  rcases panics with unfound | ⟨acl, found, notEntry | ⟨fields, isEntry, overflow⟩⟩
  · exact ensureAclObject_ne_panicked unfound
  · exact entryObject_ne_panicked notEntry
  · obtain ⟨root, looked⟩ := ensureAclObject_eq_ok found
    refine incrementVersion_ne_panicked root (fun last => ?_) overflow
    obtain ⟨value, known, notObject⟩ := guarded last
    have known : acl.lookup principal = some value := (looked principal).trans known
    rw [known, Option.getD_some, entryObject_eq_ok] at isEntry
    rw [isEntry] at notObject
    cases notObject

theorem revokeActions_ne_panicked (guarded : lastVersion doc → (Policy.entry doc principal).bind asObject? = none) :
    revokeActions registry principal actions doc ≠ .error .panicked := by
  intro panics
  simp only [revokeActions, Except.bind_eq_error] at panics
  rcases panics with unfound | ⟨acl, found, panics⟩
  · exact ensureAclObject_ne_panicked unfound
  obtain ⟨root, looked⟩ := ensureAclObject_eq_ok found
  cases known : acl.lookup principal with
  | none =>
    rw [known] at panics
    cases panics
  | some value =>
    simp only [known, Except.bind_eq_error, Except.map_eq_error] at panics
    rcases panics with notEntry | ⟨fields, isEntry, overflow⟩
    · exact entryObject_ne_panicked notEntry
    · refine incrementVersion_ne_panicked root (fun last => ?_) overflow
      have notObject := guarded last
      rw [show Policy.entry doc principal = some value from (looked principal).symm.trans known,
        entryObject_eq_ok.1 isEntry] at notObject
      cases notObject

theorem edit_ne_panicked {request : AdminRequest} (guarded : VersionGuard doc (registry, request))
    (versions : request.versions = true) (checked : request.check registry = .ok ()) :
    request.edit registry doc ≠ .error .panicked := by
  have guarded := guarded checked
  cases request with
  | grant principal actions =>
    intro panics
    exact grantActions_ne_panicked guarded (Except.map_eq_error.1 panics)
  | revoke principal actions => exact revokeActions_ne_panicked guarded
  | allow _ _ => cases versions
  | disallow _ _ => cases versions

end Steps

/-- In every run of guarded requests the version identifies the rules. -/
theorem versions_identify (start : Json) (inputs : List (RegistryStore × AdminRequest))
    (meets : policyMachine.Meets VersionGuard start inputs) : VersionsIdentify start inputs := by
  refine ⟨?_, ?_⟩
  · rintro past between rest rfl differ same
    rw [Machine.meets_append, Machine.meets_append] at meets
    have advanced := run_advances meets.1.2
    rw [← Machine.run_append] at advanced
    rcases advanced with ⟨rules, -⟩ | later
    · exact differ rules
    · unfold versionText at later
      rw [same] at later
      exact Nat.lt_irrefl _ later
  · rintro past registry request rest rfl versions checked
    exact edit_ne_panicked (Machine.meets_append.1 meets).2.1 versions checked

theorem versions_identify_grant_revoke : VersionsIdentify (agentMay ["http_read"])
    [(twoActions, .grant "agent" ["http_write"]), (twoActions, .revoke "agent" ["http_write"])] := by
  refine versions_identify _ _ ⟨fun _ last => absurd last (by decide), fun _ last => absurd last (by decide), trivial⟩

/-- A pair is allowlisted, and the version stays. -/
theorem allowlisted_under_same_version :
    ¬VersionsIdentify (agentMay ["http_read"]) [(twoActions, .allow "http_read" "agent")] := by
  intro identify
  refine identify.distinct [] [(twoActions, .allow "http_read" "agent")] [] rfl (fun same => ?_) rfl
  have pair := same.allowlist "http_read" "agent"
  cases pair

end Latchgate
