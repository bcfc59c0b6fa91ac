import Latchgate.Rego.Semantics
import Latchgate.Manifest.Load
import Latchgate.Plan.Hash

namespace Latchgate

/-- What a decision is asked about, as it is handed to the policy. Texts and
lists that are left out when they are empty are empty here. -/
structure PolicyInput where
  principal : String
  sessionId : String
  scopes : List String
  requiredScopes : List String
  actionId : String
  actionVersion : String
  actionRiskLevel : RiskLevel
  actionTrustVerdict : TrustVerdict
  actionCategory : String
  requestHash : String
  requestedSinks : List String
  requestedSecrets : List String
  egressProfile : EgressProfile
  providerContext : Option Json
  fsPath : Option String
  callsRemaining : Int
  unresolvedDomains : List String
  unresolvedPaths : List String

/-- The built-in functions of the policy language. Sorting makes an array of a
set. -/
structure Builtins where
  globMatch : (pattern : String) → (delimiters : List String) → (text : String) → Bool
  showArray : List String → String
  showSet : List String → String
  sort : List Json → List Json
  mem_sort : ∀ items item, item ∈ sort items ↔ item ∈ items

inductive PolicyValue where
  | deny (reason : String)
  | allow (requiresApproval : Bool) (callsAfter : Int) (allowedSinks : Json) (approvedSecrets : List String)
      (approvedEgress : EgressProfile) (policyVersion : Json)

namespace Policy
open Rego

section Acl
variable (data : Json) (principal : String)

def entry : Option Json :=
  at_ (data.get? "acl") principal

def inheritsWildcard : Bool :=
  isTrue (at_ (entry data principal) "inherits_wildcard")

/-- A list of an entry (its actions or its sinks) has the text, be it through
the principal's own entry, by inheritance from the wildcard, or because the
principal is absent. -/
def grants (list text : String) : Bool :=
  contains (at_ (entry data principal) list) text ||
    (inheritsWildcard data principal && contains (at_ (entry data "*") list) text) ||
    (!holds (entry data principal) && contains (at_ (entry data "*") list) text)

def principalHasTool (actionId : String) : Bool :=
  grants data principal "allowed_actions" actionId

def sinkAllowed (sink : String) : Bool :=
  grants data principal "allowed_sinks" sink

/-- The sinks that are returned: the principal's own, the union with those of
the wildcard, or those of the wildcard. -/
def principalAllowedSinks (builtins : Builtins) : List Json :=
  rule (holds (entry data principal) && !holds (at_ (entry data principal) "inherits_wildcard"))
      (at_ (entry data principal) "allowed_sinks").toList ++
    rule (inheritsWildcard data principal)
      [.array (builtins.sort (members (at_ (entry data principal) "allowed_sinks") ++
        members (at_ (entry data "*") "allowed_sinks")))] ++
    rule (!holds (entry data principal)) (at_ (entry data "*") "allowed_sinks").toList

/-- The pair is in the allowlist. -/
def allowlisted (actionId : String) : Bool :=
  holds (at_ (at_ (at_ (data.get? "latchgate") "allowlist") actionId) principal)

end Acl

section Rules
variable (builtins : Builtins) (data : Json) (input : PolicyInput)

def denyUntrusted : List PolicyValue :=
  rule (input.actionTrustVerdict ≠ .digestOk) [.deny "untrusted action: digest verification failed"]

def denyAcl : List PolicyValue :=
  rule (!principalHasTool data input.principal input.actionId)
    [.deny ("principal '" ++ input.principal ++ "' is not authorised for action '" ++ input.actionId ++ "'")]

def hasToolsCallScope : Bool :=
  input.scopes.any (· = "tools:call")

def missingRequiredScopes : List String :=
  input.requiredScopes.filter fun required => !input.scopes.any (· = required)

def denyScope : List PolicyValue :=
  rule (!hasToolsCallScope input)
      [.deny ("scope 'tools:call' is required for action execution but is absent from lease scopes: " ++
        builtins.showArray input.scopes)] ++
    rule (hasToolsCallScope input && (missingRequiredScopes input).length > 0)
      [.deny ("lease is missing required scope(s) for action '" ++ input.actionId ++ "': required=" ++
        builtins.showArray input.requiredScopes ++ ", present=" ++ builtins.showArray input.scopes ++ ", missing=" ++
        builtins.showSet (missingRequiredScopes input))]

def denyBudget : List PolicyValue :=
  rule (input.callsRemaining ≤ 0) [.deny "budget exhausted: no calls remaining"]

def disallowedSinks : List String :=
  input.requestedSinks.filter fun sink => !sinkAllowed data input.principal sink

def denySink : List PolicyValue :=
  rule ((disallowedSinks data input).length > 0)
    [.deny ("disallowed sink(s): " ++ builtins.showSet (disallowedSinks data input))]

/-- The object of an allowing decision. It is undefined where one of its fields
is. -/
def result (requiresApproval : Bool) : List PolicyValue :=
  (principalAllowedSinks data input.principal builtins).flatMap fun sinks =>
    (data.get? "policy_version").toList.map fun version =>
      .allow requiresApproval (input.callsRemaining - 1) sinks input.requestedSecrets input.egressProfile version

def skipApproval : List PolicyValue :=
  rule (allowlisted data input.principal input.actionId) (result builtins data input false)

def isHighRisk : Bool :=
  input.actionRiskLevel.asStr = "high" || input.actionRiskLevel.asStr = "critical"

def sensitivePatterns : List String :=
  ["**/.env", "**/.env.*", "**/secrets/**", "**/.ssh/**", "**/.aws/credentials"]

def fsPathSensitive : Bool :=
  sensitivePatterns.any fun pattern =>
    input.actionCategory = "fs" && builtins.globMatch pattern [] (input.fsPath.getD "")

def requireApproval : List PolicyValue :=
  rule (isHighRisk input) (result builtins data input true) ++
    rule (!isHighRisk input && input.actionCategory = "fs" && fsPathSensitive builtins input)
      (result builtins data input true) ++
    rule (!isHighRisk input && !fsPathSensitive builtins input && input.unresolvedPaths.length > 0)
      (result builtins data input true) ++
    rule (!isHighRisk input && !fsPathSensitive builtins input && input.unresolvedPaths.length = 0 &&
        input.unresolvedDomains.length > 0)
      (result builtins data input true)

def allow : List PolicyValue :=
  rule (!isHighRisk input && !fsPathSensitive builtins input && input.unresolvedPaths.length = 0 &&
      input.unresolvedDomains.length = 0)
    (result builtins data input false)

def decision : List PolicyValue :=
  elseChain [denyUntrusted input, denyAcl data input, denyScope builtins input, denyBudget input,
    denySink builtins data input, skipApproval builtins data input, requireApproval builtins data input,
    allow builtins data input, [.deny "no matching allow rule"]]

end Rules

/-- A list has the text for a principal: in its own entry, by the explicit
inheritance from the wildcard, or in the wildcard for a principal without an
entry. -/
def EffectivelyHas (data : Json) (principal list text : String) : Prop :=
  contains (at_ (entry data principal) list) text = true ∨
    inheritsWildcard data principal = true ∧ contains (at_ (entry data "*") list) text = true ∨
    entry data principal = none ∧ contains (at_ (entry data "*") list) text = true

/-- What an allowing decision rests on. -/
structure Grounds (builtins : Builtins) (data : Json) (input : PolicyInput) (requiresApproval : Bool)
    (allowedSinks : Json) : Prop where
  trusted : input.actionTrustVerdict = .digestOk
  authorised : EffectivelyHas data input.principal "allowed_actions" input.actionId
  toolsCall : "tools:call" ∈ input.scopes
  scopes : ∀ required ∈ input.requiredScopes, required ∈ input.scopes
  budget : 0 < input.callsRemaining
  sinks : ∀ sink ∈ input.requestedSinks, EffectivelyHas data input.principal "allowed_sinks" sink
  unattended : requiresApproval = false → allowlisted data input.principal input.actionId = true ∨
    input.actionRiskLevel ≠ .high ∧ input.actionRiskLevel ≠ .critical ∧ fsPathSensitive builtins input = false ∧
      input.unresolvedPaths = [] ∧ input.unresolvedDomains = []
  returned : ∀ sink, contains (some allowedSinks) sink = true ↔
    EffectivelyHas data input.principal "allowed_sinks" sink

/-- The decision is one value, and it allows only on good grounds. -/
structure DecisionSound (builtins : Builtins) (data : Json) (input : PolicyInput) : Prop where
  sinksSingle : SingleValued (principalAllowedSinks data input.principal builtins)
  scopeSingle : SingleValued (denyScope builtins input)
  approvalSingle : SingleValued (requireApproval builtins data input)
  single : ∃ value, decision builtins data input ≠ [] ∧ ∀ other ∈ decision builtins data input, other = value
  grounds : ∀ requiresApproval callsAfter allowedSinks secrets egress version,
    .allow requiresApproval callsAfter allowedSinks secrets egress version ∈ decision builtins data input →
      Grounds builtins data input requiresApproval allowedSinks

variable {builtins : Builtins} {data : Json} {input : PolicyInput}

/-- An entry that is `false` is taken for an absent one, and everything else
passes. -/
structure FalseEntryAdmitted (data : Json) (input : PolicyInput) : Prop where
  entryFalse : entry data input.principal = some (.bool false)
  trusted : input.actionTrustVerdict = .digestOk
  wildcard : contains (at_ (entry data "*") "allowed_actions") input.actionId = true
  toolsCall : "tools:call" ∈ input.scopes
  scopes : ∀ required ∈ input.requiredScopes, required ∈ input.scopes
  budget : 0 < input.callsRemaining
  sinks : ∀ sink ∈ input.requestedSinks, contains (at_ (entry data "*") "allowed_sinks") sink = true
  sinksDefined : (at_ (entry data "*") "allowed_sinks").isSome
  versionDefined : (data.get? "policy_version").isSome

theorem singleValued_principalAllowedSinks (principal : String) :
    SingleValued (principalAllowedSinks data principal builtins) := by
  unfold principalAllowedSinks
  have option : ∀ value : Option Json, SingleValued value.toList := by
    intro value
    cases value with
    | none => exact singleValued_nil
    | some v => exact singleValued_singleton v
  refine SingleValued.append (SingleValued.append ((option _).rule _) ((singleValued_singleton _).rule _) ?_)
    ((option _).rule _) ?_
  · intro v first w second
    obtain ⟨body, -⟩ := mem_rule.1 first
    have inherits := holds_of_isTrue (mem_rule.1 second).1
    simp [inherits] at body
  · intro v first w second
    obtain ⟨absent, -⟩ := mem_rule.1 second
    have missing : holds (entry data principal) = false := by simpa using absent
    rcases List.mem_append.mp first with own | inherited
    · obtain ⟨body, -⟩ := mem_rule.1 own
      simp [missing] at body
    · have inherits := holds_of_isTrue (mem_rule.1 inherited).1
      rw [at_eq_none missing] at inherits
      cases inherits

theorem singleValued_result (requiresApproval : Bool) : SingleValued (result builtins data input requiresApproval) := by
  intro v first w second
  unfold result at first second
  obtain ⟨sinks, inSinks, made⟩ := List.mem_flatMap.mp first
  obtain ⟨sinks', inSinks', made'⟩ := List.mem_flatMap.mp second
  obtain rfl := singleValued_principalAllowedSinks input.principal sinks inSinks sinks' inSinks'
  cases version : data.get? "policy_version" with
  | none => simp [version] at made
  | some text =>
    simp only [version, Option.toList_some, List.map_cons, List.map_nil, List.mem_singleton] at made made'
    rw [made, made']

theorem singleValued_denyScope : SingleValued (denyScope builtins input) := by
  unfold denyScope
  refine SingleValued.append ((singleValued_singleton _).rule _) ((singleValued_singleton _).rule _) ?_
  intro v first w second
  obtain ⟨absent, -⟩ := mem_rule.1 first
  obtain ⟨present, -⟩ := mem_rule.1 second
  simp_all

theorem singleValued_requireApproval : SingleValued (requireApproval builtins data input) := by
  have same := @singleValued_result builtins data input true
  intro v first w second
  unfold requireApproval at first second
  simp only [List.mem_append, mem_rule] at first second
  have one : v ∈ result builtins data input true := by tauto
  have other : w ∈ result builtins data input true := by tauto
  exact same v one w other

theorem singleValued_decision : SingleValued (decision builtins data input) := by
  refine SingleValued.elseChain ?_
  intro values member
  simp only [List.mem_cons, List.not_mem_nil, or_false] at member
  rcases member with rfl | rfl | rfl | rfl | rfl | rfl | rfl | rfl | rfl
  · exact (singleValued_singleton _).rule _
  · exact (singleValued_singleton _).rule _
  · exact singleValued_denyScope
  · exact (singleValued_singleton _).rule _
  · exact (singleValued_singleton _).rule _
  · exact (singleValued_result _).rule _
  · exact singleValued_requireApproval
  · exact (singleValued_result _).rule _
  · exact singleValued_singleton _

theorem decision_ne_nil : decision builtins data input ≠ [] := by
  have last : ∀ chain : List (List PolicyValue), elseChain (chain ++ [[PolicyValue.deny "no matching allow rule"]]) ≠ [] := by
    intro chain
    induction chain with
    | nil => simp [elseChain]
    | cons values rest ih =>
      rw [List.cons_append, elseChain]
      split
      · exact ih
      · rename_i nonempty
        intro empty
        exact nonempty (List.isEmpty_iff.mpr empty)
  exact last [denyUntrusted input, denyAcl data input, denyScope builtins input, denyBudget input,
    denySink builtins data input, skipApproval builtins data input, requireApproval builtins data input,
    allow builtins data input]

/-- Every check that denies has passed. -/
structure Passed (data : Json) (input : PolicyInput) : Prop where
  trusted : input.actionTrustVerdict = .digestOk
  tool : principalHasTool data input.principal input.actionId = true
  toolsCall : "tools:call" ∈ input.scopes
  scopes : ∀ required ∈ input.requiredScopes, required ∈ input.scopes
  budget : 0 < input.callsRemaining
  sinks : ∀ sink ∈ input.requestedSinks, sinkAllowed data input.principal sink = true

theorem denyScope_eq_nil :
    denyScope builtins input = [] ↔ "tools:call" ∈ input.scopes ∧ ∀ required ∈ input.requiredScopes, required ∈ input.scopes := by
  have present : hasToolsCallScope input = true ↔ "tools:call" ∈ input.scopes := by
    simp [hasToolsCallScope]
  have none : (missingRequiredScopes input).length > 0 ↔ ¬∀ required ∈ input.requiredScopes, required ∈ input.scopes := by
    simp [missingRequiredScopes, List.length_pos_iff, List.filter_eq_nil_iff]
  unfold denyScope
  rw [List.append_eq_nil_iff, rule_eq_nil, rule_eq_nil]
  simp only [Bool.not_eq_false', Bool.and_eq_false_iff, decide_eq_false_iff_not, none, not_not, present]
  constructor
  · rintro ⟨tools, absent | all⟩
    · exact absurd (present.mpr tools) (by simp [absent])
    · exact ⟨tools, all⟩
  · rintro ⟨tools, all⟩
    exact ⟨tools, .inr all⟩

theorem denySink_eq_nil :
    denySink builtins data input = [] ↔ ∀ sink ∈ input.requestedSinks, sinkAllowed data input.principal sink = true := by
  unfold denySink
  rw [rule_eq_nil]
  simp [disallowedSinks]

theorem denials_nil_iff :
    (denyUntrusted input = [] ∧ denyAcl data input = [] ∧ denyScope builtins input = [] ∧ denyBudget input = [] ∧
      denySink builtins data input = []) ↔ Passed data input := by
  have trust : denyUntrusted input = [] ↔ input.actionTrustVerdict = .digestOk := by
    unfold denyUntrusted
    rw [rule_eq_nil]
    simp
  have acl : denyAcl data input = [] ↔ principalHasTool data input.principal input.actionId = true := by
    unfold denyAcl
    rw [rule_eq_nil]
    simp
  have budget : denyBudget input = [] ↔ 0 < input.callsRemaining := by
    unfold denyBudget
    rw [rule_eq_nil]
    simp
  rw [trust, acl, denyScope_eq_nil, budget, denySink_eq_nil]
  constructor
  · rintro ⟨trusted, tool, ⟨toolsCall, scopes⟩, calls, sinks⟩
    exact ⟨trusted, tool, toolsCall, scopes, calls, sinks⟩
  · intro passed
    exact ⟨passed.trusted, passed.tool, ⟨passed.toolsCall, passed.scopes⟩, passed.budget, passed.sinks⟩

/-- An allowing value of the decision comes from one of the three rules that
allow, past all that deny. -/
theorem allow_mem_decision {requiresApproval : Bool} {callsAfter : Int} {allowedSinks : Json} {secrets : List String}
    {egress : EgressProfile} {version : Json}
    (member : .allow requiresApproval callsAfter allowedSinks secrets egress version ∈ decision builtins data input) :
    Passed data input ∧
      (.allow requiresApproval callsAfter allowedSinks secrets egress version ∈ skipApproval builtins data input ∨
        .allow requiresApproval callsAfter allowedSinks secrets egress version ∈ requireApproval builtins data input ∨
        .allow requiresApproval callsAfter allowedSinks secrets egress version ∈ allow builtins data input) := by
  have notDenied : ∀ body reason, .allow requiresApproval callsAfter allowedSinks secrets egress version ∉
      rule body [PolicyValue.deny reason] := by simp
  unfold decision at member
  simp only [mem_elseChain_cons] at member
  rcases member with denied | ⟨untrusted, member⟩
  · exact absurd denied (notDenied _ _)
  rcases member with denied | ⟨acl, member⟩
  · exact absurd denied (notDenied _ _)
  rcases member with denied | ⟨scope, member⟩
  · rcases List.mem_append.mp denied with denied | denied
    · exact absurd denied (notDenied _ _)
    · exact absurd denied (notDenied _ _)
  rcases member with denied | ⟨budget, member⟩
  · exact absurd denied (notDenied _ _)
  rcases member with denied | ⟨sink, member⟩
  · exact absurd denied (notDenied _ _)
  refine ⟨denials_nil_iff.1 ⟨untrusted, acl, scope, budget, sink⟩, ?_⟩
  rcases member with skipped | ⟨-, required | ⟨-, allowed | ⟨-, fallback⟩⟩⟩
  · exact .inl skipped
  · exact .inr (.inl required)
  · exact .inr (.inr allowed)
  · simp [elseChain] at fallback

/-- Where an allowing object is made, its sinks are the effective ones. -/
theorem mem_result {requiresApproval approval : Bool} {callsAfter : Int} {allowedSinks : Json} {secrets : List String}
    {egress : EgressProfile} {version : Json}
    (member : .allow requiresApproval callsAfter allowedSinks secrets egress version ∈ result builtins data input approval) :
    requiresApproval = approval ∧ allowedSinks ∈ principalAllowedSinks data input.principal builtins := by
  unfold result at member
  obtain ⟨sinks, inSinks, made⟩ := List.mem_flatMap.mp member
  obtain ⟨version, -, same⟩ := List.mem_map.mp made
  cases same
  exact ⟨rfl, inSinks⟩

theorem grants_iff {principal list text : String} (entryTrue : entry data principal ≠ some (.bool false)) :
    grants data principal list text = true ↔ EffectivelyHas data principal list text := by
  have absent : holds (entry data principal) = false ↔ entry data principal = none := by
    cases known : entry data principal with
    | none => simp [holds]
    | some v =>
      cases v with
      | bool b =>
        cases b with
        | false => exact absurd known entryTrue
        | true => simp [holds]
      | _ => simp [holds]
  unfold grants EffectivelyHas
  simp only [Bool.or_eq_true, Bool.and_eq_true, Bool.not_eq_true', absent, or_assoc]

theorem mem_principalAllowedSinks {principal : String} {allowedSinks : Json}
    (entryTrue : entry data principal ≠ some (.bool false))
    (member : allowedSinks ∈ principalAllowedSinks data principal builtins) (sink : String) :
    contains (some allowedSinks) sink = true ↔ EffectivelyHas data principal "allowed_sinks" sink := by
  rw [← grants_iff entryTrue]
  unfold principalAllowedSinks at member
  simp only [List.mem_append, mem_rule, Option.mem_toList] at member
  rcases member with (⟨own, found⟩ | ⟨inherits, found⟩) | ⟨absent, found⟩
  · have found : at_ (entry data principal) "allowed_sinks" = some allowedSinks := found
    obtain ⟨present, plain⟩ := Bool.and_eq_true_iff.mp own
    have without : inheritsWildcard data principal = false := by
      refine eq_false_of_ne_true (fun yes => ?_)
      simp [holds_of_isTrue yes] at plain
    simp [grants, found, without, present]
  · cases List.mem_singleton.mp found
    have present : holds (entry data principal) = true := by
      refine eq_true_of_ne_false (fun missing => ?_)
      unfold inheritsWildcard at inherits
      rw [at_eq_none missing] at inherits
      cases inherits
    simp only [grants, inherits, present, contains, members, List.any_eq_true, builtins.mem_sort, List.mem_append,
      Bool.true_and, Bool.not_true, Bool.false_and, Bool.or_false, Bool.or_eq_true]
    constructor
    · rintro ⟨item, one | other, same⟩
      · exact .inl ⟨item, one, same⟩
      · exact .inr ⟨item, other, same⟩
    · rintro (⟨item, one, same⟩ | ⟨item, other, same⟩)
      · exact ⟨item, .inl one, same⟩
      · exact ⟨item, .inr other, same⟩
  · have missing : holds (entry data principal) = false := by simpa using absent
    have found : at_ (entry data "*") "allowed_sinks" = some allowedSinks := found
    have without : inheritsWildcard data principal = false := by
      unfold inheritsWildcard
      rw [at_eq_none missing]
      rfl
    simp [grants, found, without, missing, at_eq_none missing, contains_none]

section FalseEntry
variable {principal : String} (entryFalse : entry data principal = some (.bool false))
include entryFalse

theorem grants_of_false (list text : String) :
    grants data principal list text = contains (at_ (entry data "*") list) text := by
  simp [grants, inheritsWildcard, entryFalse, holds, at_, Rego.isTrue, Json.get?, contains_none]

theorem not_effectivelyHas_of_false (list text : String) : ¬EffectivelyHas data principal list text := by
  simp [EffectivelyHas, inheritsWildcard, entryFalse, at_, Rego.isTrue, Json.get?, contains_none]

theorem principalAllowedSinks_of_false :
    principalAllowedSinks data principal builtins = (at_ (entry data "*") "allowed_sinks").toList := by
  simp [principalAllowedSinks, inheritsWildcard, entryFalse, holds, at_, Rego.isTrue, Json.get?, rule]

end FalseEntry

/-- One of the three rules that allow fires, whatever is asked. -/
theorem mem_allowing (approval : Bool → PolicyValue) (made : ∀ b, approval b ∈ result builtins data input b)
    (passed : Passed data input) : ∃ b, approval b ∈ decision builtins data input := by
  obtain ⟨untrusted, acl, scope, budget, sink⟩ := (@denials_nil_iff builtins data input).mpr passed
  unfold decision
  simp only [mem_elseChain_cons, untrusted, acl, scope, budget, sink, List.not_mem_nil, false_or, true_and]
  by_cases pair : allowlisted data input.principal input.actionId = true
  · exact ⟨false, .inl (mem_rule.2 ⟨pair, made false⟩)⟩
  have skip : skipApproval builtins data input = [] := by
    simp [skipApproval, rule, pair]
  simp only [skip, List.not_mem_nil, false_or, true_and]
  by_cases asked : requireApproval builtins data input = []
  · refine ⟨false, .inr ⟨asked, .inl (mem_rule.2 ⟨?_, made false⟩)⟩⟩
    -- where the fourth rule for approval does not fire either, the last one does
    have nonempty : result builtins data input true ≠ [] := List.ne_nil_of_mem (made true)
    unfold requireApproval at asked
    simp only [List.append_eq_nil_iff, rule, ite_eq_right_iff, nonempty, imp_false, Bool.and_eq_true,
      decide_eq_true_eq, Bool.not_eq_true', not_and] at asked
    obtain ⟨⟨⟨low, plain⟩, paths⟩, domains⟩ := asked
    have low := eq_false_of_ne_true low
    have plain : fsPathSensitive builtins input = false := by
      refine eq_false_of_ne_true fun sensitive => ?_
      refine plain ⟨low, ?_⟩ sensitive
      obtain ⟨pattern, -, matched⟩ := List.any_eq_true.mp sensitive
      exact of_decide_eq_true (Bool.and_eq_true_iff.mp matched).1
    have noPaths : input.unresolvedPaths.length = 0 := by
      have := paths ⟨low, plain⟩
      omega
    have noDomains : input.unresolvedDomains.length = 0 := by
      have := domains ⟨⟨low, plain⟩, noPaths⟩
      omega
    simp [low, plain, noPaths, noDomains]
  · obtain ⟨value, member⟩ := List.exists_mem_of_ne_nil _ asked
    have inResult : value ∈ result builtins data input true := by
      unfold requireApproval at member
      simp only [List.mem_append, mem_rule] at member
      tauto
    obtain rfl := singleValued_result true value inResult _ (made true)
    exact ⟨true, .inl member⟩

theorem mem_requireApproval {value : PolicyValue} (member : value ∈ requireApproval builtins data input) :
    value ∈ result builtins data input true := by
  unfold requireApproval at member
  simp only [List.mem_append, mem_rule] at member
  tauto

theorem grounds_of_allow (entryTrue : entry data input.principal ≠ some (.bool false)) {requiresApproval : Bool}
    {callsAfter : Int} {allowedSinks : Json} {secrets : List String} {egress : EgressProfile} {version : Json}
    (member : .allow requiresApproval callsAfter allowedSinks secrets egress version ∈ decision builtins data input) :
    Grounds builtins data input requiresApproval allowedSinks := by
  obtain ⟨passed, rules⟩ := allow_mem_decision member
  have made : allowedSinks ∈ principalAllowedSinks data input.principal builtins ∧
      (requiresApproval = false → allowlisted data input.principal input.actionId = true ∨
        isHighRisk input = false ∧ fsPathSensitive builtins input = false ∧
          input.unresolvedPaths.length = 0 ∧ input.unresolvedDomains.length = 0) := by
    rcases rules with skipped | required | allowed
    · obtain ⟨pair, inResult⟩ := mem_rule.1 skipped
      exact ⟨(mem_result inResult).2, fun _ => .inl pair⟩
    · have inResult : .allow requiresApproval callsAfter allowedSinks secrets egress version ∈
          result builtins data input true := by
        unfold requireApproval at required
        simp only [List.mem_append, mem_rule] at required
        tauto
      obtain ⟨approval, inSinks⟩ := mem_result inResult
      exact ⟨inSinks, fun unattended => absurd (approval.symm.trans unattended) (by simp)⟩
    · obtain ⟨body, inResult⟩ := mem_rule.1 allowed
      simp only [Bool.and_eq_true, Bool.not_eq_true', decide_eq_true_eq, and_assoc] at body
      exact ⟨(mem_result inResult).2, fun _ => .inr body⟩
  refine ⟨passed.trusted, (grants_iff entryTrue).mp passed.tool, passed.toolsCall, passed.scopes, passed.budget,
    fun sink asked => (grants_iff entryTrue).mp (passed.sinks sink asked), fun unattended => ?_,
    fun sink => mem_principalAllowedSinks entryTrue made.1 sink⟩
  rcases made.2 unattended with pair | ⟨low, plain, noPaths, noDomains⟩
  · exact .inl pair
  · have notHigh : input.actionRiskLevel ≠ .high := by
      intro high
      simp [isHighRisk, high, RiskLevel.asStr] at low
    have notCritical : input.actionRiskLevel ≠ .critical := by
      intro critical
      simp [isHighRisk, critical, RiskLevel.asStr] at low
    exact .inr ⟨notHigh, notCritical, plain, List.eq_nil_of_length_eq_zero noPaths,
      List.eq_nil_of_length_eq_zero noDomains⟩

/-- An entry that is `false` counts as absent, and with the wildcard's grants
the rest passes. -/
theorem falseEntryAdmitted_of_allow (entryFalse : entry data input.principal = some (.bool false))
    {requiresApproval : Bool} {callsAfter : Int} {allowedSinks : Json} {secrets : List String}
    {egress : EgressProfile} {version : Json}
    (member : .allow requiresApproval callsAfter allowedSinks secrets egress version ∈ decision builtins data input) :
    FalseEntryAdmitted data input := by
  obtain ⟨passed, rules⟩ := allow_mem_decision member
  have made : ∃ approval, .allow requiresApproval callsAfter allowedSinks secrets egress version ∈
      result builtins data input approval := by
    rcases rules with skipped | required | allowed
    · exact ⟨false, (mem_rule.1 skipped).2⟩
    · refine ⟨true, ?_⟩
      unfold requireApproval at required
      simp only [List.mem_append, mem_rule] at required
      tauto
    · exact ⟨false, (mem_rule.1 allowed).2⟩
  obtain ⟨approval, inResult⟩ := made
  unfold result at inResult
  obtain ⟨sinks, inSinks, given⟩ := List.mem_flatMap.mp inResult
  obtain ⟨text, inVersion, -⟩ := List.mem_map.mp given
  rw [principalAllowedSinks_of_false entryFalse] at inSinks
  refine ⟨entryFalse, passed.trusted, ?_, passed.toolsCall, passed.scopes, passed.budget, ?_, ?_, ?_⟩
  · rw [← grants_of_false entryFalse]
    exact passed.tool
  · intro sink asked
    rw [← grants_of_false entryFalse]
    exact passed.sinks sink asked
  · exact Option.isSome_iff_exists.mpr ⟨sinks, by simpa using inSinks⟩
  · exact Option.isSome_iff_exists.mpr ⟨text, by simpa using inVersion⟩

theorem not_decisionSound (admitted : FalseEntryAdmitted data input) : ¬DecisionSound builtins data input := by
  intro sound
  have entryFalse := admitted.entryFalse
  have passed : Passed data input := by
    refine ⟨admitted.trusted, ?_, admitted.toolsCall, admitted.scopes, admitted.budget, fun sink asked => ?_⟩
    · exact (grants_of_false entryFalse _ _).trans admitted.wildcard
    · exact (grants_of_false entryFalse _ _).trans (admitted.sinks sink asked)
  obtain ⟨sinks, sinksFound⟩ := Option.isSome_iff_exists.mp admitted.sinksDefined
  obtain ⟨version, versionFound⟩ := Option.isSome_iff_exists.mp admitted.versionDefined
  have made : ∀ b, .allow b (input.callsRemaining - 1) sinks input.requestedSecrets input.egressProfile version ∈
      result builtins data input b := by
    simp [result, principalAllowedSinks_of_false entryFalse, sinksFound, versionFound]
  obtain ⟨approval, allowed⟩ := mem_allowing _ made passed
  exact not_effectivelyHas_of_false entryFalse _ _ (sound.grounds _ _ _ _ _ _ allowed).authorised

/-- The decision is one value, and it allows only what the policy's own terms
allow, just where no principal with an entry that is `false` is let in by the
wildcard. -/
theorem decisionSound_iff (builtins : Builtins) (data : Json) (input : PolicyInput) :
    DecisionSound builtins data input ↔ ¬FalseEntryAdmitted data input := by
  constructor
  · intro sound admitted
    exact not_decisionSound admitted sound
  · intro notAdmitted
    have entryTrue : ∀ {approval callsAfter allowedSinks secrets egress version},
        .allow approval callsAfter allowedSinks secrets egress version ∈ decision builtins data input →
          entry data input.principal ≠ some (.bool false) :=
      fun allowed isFalse => notAdmitted (falseEntryAdmitted_of_allow isFalse allowed)
    obtain ⟨value, member⟩ := List.exists_mem_of_ne_nil _ (@decision_ne_nil builtins data input)
    exact {
      sinksSingle := singleValued_principalAllowedSinks _
      scopeSingle := singleValued_denyScope
      approvalSingle := singleValued_requireApproval
      single := ⟨value, decision_ne_nil, fun other also => singleValued_decision other also value member⟩
      grounds := fun _ _ _ _ _ _ allowed => grounds_of_allow (entryTrue allowed) allowed }

/-- The agent's entry is `false`, and the wildcard may read. -/
def blockedData : Json :=
  .object [("acl", .object [
      ("*", .object [("allowed_actions", .array [.string "http_read"]), ("allowed_sinks", .array [])]),
      ("agent", .bool false)]),
    ("policy_version", .string "v1")]

def blockedInput : PolicyInput where
  principal := "agent"
  sessionId := "s1"
  scopes := ["tools:call"]
  requiredScopes := ["tools:call"]
  actionId := "http_read"
  actionVersion := "1.0.0"
  actionRiskLevel := .low
  actionTrustVerdict := .digestOk
  actionCategory := ""
  requestHash := "h"
  requestedSinks := []
  requestedSecrets := []
  egressProfile := .none
  providerContext := none
  fsPath := none
  callsRemaining := 5
  unresolvedDomains := []
  unresolvedPaths := []

theorem false_entry_let_in : ¬∃ builtins, DecisionSound builtins blockedData blockedInput := by
  rintro ⟨builtins, sound⟩
  refine not_decisionSound ⟨rfl, rfl, by decide, by decide, by decide, by decide, by decide, rfl, rfl⟩ sound

end Policy
end Latchgate
