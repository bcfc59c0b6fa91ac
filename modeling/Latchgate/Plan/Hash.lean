import Latchgate.Encoding.Delimited
import Latchgate.Json.Compact
import Latchgate.Manifest.Load
import Latchgate.Plan.Types

namespace Latchgate
open Encoding

/-- The bytes that each method of the hasher feeds to SHA-256. -/
def hashStr (value : String) : List UInt8 :=
  utf8 (terminated '|' value.toList)

def hashOptionalTagged (tag : String) : Option String → List UInt8
  | some value => utf8 (tag.toList ++ terminated '|' value.toList)
  | none => utf8 ['|']

def byteLen (text : String) : Nat :=
  (utf8 text.toList).length

def hashStringList (items : List String) : List UInt8 :=
  counted 4 (fun item => prefixed 4 (utf8 item.toList)) items ++ utf8 ['|']

def hashJson (value : Json) : List UInt8 :=
  utf8 (terminated '|' value.compact)

def hashOptionalJson : Option Json → List UInt8
  | some value => hashJson value
  | none => utf8 ['|']

def hashUsize (value : Nat) : List UInt8 :=
  leBytes 8 value ++ utf8 ['|']

/-- Two's complement. -/
def hashI64 (value : Int) : List UInt8 :=
  leBytes 8 (value % 2 ^ 64).toNat

def hashDatetime (t : DateTime) : List UInt8 :=
  hashStr t.rfc3339

def hashBool (value : Bool) : List UInt8 :=
  [if value then 1 else 0]

def EgressProfile.toValue : EgressProfile → Json
  | none => .string "none"
  | proxyAllowlist domains =>
    .object [("proxy_allowlist", .object [("allowed_domains", .array (domains.map .string))])]

def ResourceLimits.toValue (limits : ResourceLimits) : Json :=
  .object
    [("fuel", .number (.int limits.fuel)),
      ("memory_mb", .number (.int limits.memoryMb)),
      ("timeout_seconds", .number (.int limits.timeoutSeconds)),
      ("max_io_calls", .number (.int limits.maxIoCalls)),
      ("max_host_response_bytes", .number (.int limits.maxHostResponseBytes))]

def RiskLevel.asStr : RiskLevel → String
  | low => "low"
  | medium => "medium"
  | high => "high"
  | critical => "critical"

def TrustVerdict.toValue : TrustVerdict → Json
  | digestOk => .string "digest_ok"
  | digestMismatch expected actual =>
    .object [("digest_mismatch", .object [("expected", .string expected), ("actual", .string actual)])]
  | notRegistered => .string "not_registered"

def ExecutionPlanCore.hashInto (core : ExecutionPlanCore) : List UInt8 :=
  hashStr core.actionId ++ hashStr core.actionDigest ++ hashStr core.providerModuleDigest ++
    hashStr core.requestHash ++ hashOptionalTagged "pv:" core.policyVersion ++
    hashStringList core.approvedTargets ++ hashStringList core.approvedSecrets ++
    hashJson core.approvedEgress.toValue ++ hashDatetime core.expiresAt

def hashSecretDecl (decl : SecretDecl) : List UInt8 :=
  prefixed 4 (utf8 decl.name.toList) ++ hashBool decl.required

namespace ApprovedExecutionPlan

/-- The byte string that `compute_hash` feeds to SHA-256. -/
def preimage (plan : ApprovedExecutionPlan) : List UInt8 :=
  utf8 "latchgate-approved-plan-v7:".toList ++ hashStr plan.actionVersion ++ plan.core.hashInto ++
    hashStringList plan.requiredImports ++ hashJson plan.resourceLimits.toValue ++
    hashJson (.string plan.verifierKind.asStr) ++ hashJson (.string plan.riskLevel.asStr) ++
    hashUsize plan.maxResponseBytes ++ hashOptionalJson plan.verificationConfig ++
    counted 4 hashSecretDecl plan.secretDeclarations ++ utf8 ['|'] ++
    hashI64 plan.budgetCallsRemaining ++ hashI64 plan.policyApprovedCallsAfter ++ utf8 ['|'] ++
    hashJson plan.trustVerdict.toValue ++ hashOptionalJson plan.databaseConfig ++ hashOptionalJson plan.fs

/-- `sha256` is the digest as a hexadecimal text. -/
def computeHash (sha256 : List UInt8 → String) (plan : ApprovedExecutionPlan) : String :=
  sha256 plan.preimage

def finalize (sha256 : List UInt8 → String) (plan : ApprovedExecutionPlan) : ApprovedExecutionPlan :=
  { plan with planHash := plan.computeHash sha256 }

def verifyHash (sha256 : List UInt8 → String) (plan : ApprovedExecutionPlan) : Bool :=
  plan.planHash ≠ "" ∧ plan.computeHash sha256 = plan.planHash

theorem verifyHash_eq_true {sha256 : List UInt8 → String} {plan : ApprovedExecutionPlan} :
    plan.verifyHash sha256 = true ↔ plan.planHash ≠ "" ∧ plan.computeHash sha256 = plan.planHash := by
  simp [verifyHash]

/-- A plan that stands where another one was stored: its fields are its own,
its hash is the one that was taken of the other. -/
def underHashOf (sha256 : List UInt8 → String) (plan stored : ApprovedExecutionPlan) : ApprovedExecutionPlan :=
  { plan with planHash := (stored.finalize sha256).planHash }

/-- Everything in a plan but the hash that is stored with it. -/
def binding (plan : ApprovedExecutionPlan) : ApprovedExecutionPlan :=
  { plan with planHash := "" }

end ApprovedExecutionPlan

/-- What the RFC 3339 text of an instant promises: it says which instant it
is, it has no separator of the plan hash, and its colons are the two of the
time of day and the one of the offset. -/
structure Rfc3339 (print : Int → String) : Prop where
  injective : Function.Injective print
  plain : ∀ n, '|' ∉ (print n).toList
  colons : ∀ n, (print n).toList.count ':' = 3

def DateTime.Printed (print : Int → String) (t : DateTime) : Prop :=
  t.rfc3339 = print t.unixNanos

theorem DateTime.Printed.eq {print : Int → String} (clock : Rfc3339 print) {t u : DateTime}
    (first : t.Printed print) (second : u.Printed print) (same : t.rfc3339 = u.rfc3339) : t = u := by
  have instants : t.unixNanos = u.unixNanos := by
    refine clock.injective ?_
    rw [← first, ← second, same]
  obtain ⟨nanos, text⟩ := t
  obtain ⟨others, printed⟩ := u
  subst instants same
  rfl

/-- A digest as the gate prints it. -/
def isDigest (text : String) : Bool :=
  match stripText "sha256:" text with
  | some hex => hex.toList.length = 64 ∧ hex.toList.all isAsciiHexDigit
  | none => false

/-- The lists of a plan are counted by 32 bits, their texts as well. -/
def Countable (items : List String) : Prop :=
  items.length < 256 ^ 4 ∧ ∀ item ∈ items, byteLen item < 256 ^ 4

/-- The values that the registry and the pipeline let into a plan. The
versions of the action and of the policy are taken over as they are. -/
structure ExecutionPlanCore.Admitted (print : Int → String) (core : ExecutionPlanCore) : Prop where
  actionId : core.actionId.toList.all isIdChar
  actionDigest : isDigest core.actionDigest
  providerModuleDigest : ∃ provider, ProviderModule.parse core.providerModuleDigest = .ok provider
  requestHash : isDigest core.requestHash
  approvedTargets : Countable core.approvedTargets
  approvedSecrets : Countable core.approvedSecrets
  expiresAt : core.expiresAt.Printed print

structure ApprovedExecutionPlan.Admitted (print : Int → String) (plan : ApprovedExecutionPlan) : Prop where
  core : plan.core.Admitted print
  requiredImports : Countable plan.requiredImports
  latchgateImports : ∀ name ∈ plan.requiredImports, startsWith "latchgate:io/" name
  maxResponseBytes : plan.maxResponseBytes < 256 ^ 8
  secretDeclarations : plan.secretDeclarations.length < 256 ^ 4
  secretNames : ∀ decl ∈ plan.secretDeclarations, byteLen decl.name < 256 ^ 4
  budgetCallsRemaining : -2 ^ 63 ≤ plan.budgetCallsRemaining ∧ plan.budgetCallsRemaining < 2 ^ 63
  policyApprovedCallsAfter : -2 ^ 63 ≤ plan.policyApprovedCallsAfter ∧ plan.policyApprovedCallsAfter < 2 ^ 63

/-- Optional texts neither of which continues the other behind the separator. -/
def ClearOption (sep : Char) (first second : Option String) : Prop :=
  ∀ s ∈ first, ∀ t ∈ second, Clear sep s.toList t.toList

theorem bar_notMem_of_all {p : Char → Bool} {text : String} (all : text.toList.all p) (excluded : p '|' = false) :
    '|' ∉ text.toList := by
  intro member
  have accepted := List.all_eq_true.mp all '|' member
  rw [excluded] at accepted
  cases accepted

theorem toList_of_stripText {pre text rest : String} (stripped : stripText pre text = some rest) :
    text.toList = pre.toList ++ rest.toList := by
  unfold stripText at stripped
  split at stripped
  · rename_i starts
    obtain ⟨more, split⟩ := List.isPrefixOf_iff_prefix.mp starts
    rw [← split] at stripped ⊢
    rw [List.drop_left, Option.some.injEq] at stripped
    rw [← stripped, String.toList_ofList]
  · cases stripped

theorem bar_notMem_of_isDigest {text : String} (digest : isDigest text) : '|' ∉ text.toList := by
  unfold isDigest at digest
  split at digest
  · rename_i hex stripped
    rw [toList_of_stripText stripped, List.mem_append, not_or]
    simp only [decide_eq_true_eq] at digest
    exact ⟨by decide, bar_notMem_of_all digest.2 (by decide)⟩
  · cases digest

theorem bar_notMem_of_parse {raw : String} {provider : ProviderModule} (parsed : ProviderModule.parse raw = .ok provider) :
    '|' ∉ raw.toList := by
  unfold ProviderModule.parse at parsed
  split at parsed
  · rename_i name stripped
    split_ifs at parsed with empty known
    rw [toList_of_stripText stripped, List.mem_append, not_or]
    refine ⟨by decide, ?_⟩
    simp only [allowedBuiltins, List.mem_cons, List.not_mem_nil, or_false] at known
    rcases known with rfl | rfl <;> decide
  · split at parsed
    · rename_i hex stripped
      split_ifs at parsed with length digits
      rw [toList_of_stripText stripped, List.mem_append, not_or]
      exact ⟨by decide, bar_notMem_of_all (Bool.eq_true_of_not_eq_false digits) (by decide)⟩
    · cases parsed

theorem hashStr_append_inj {s t : String} {rest tail : List UInt8} (clear : Clear '|' s.toList t.toList)
    (same : hashStr s ++ rest = hashStr t ++ tail) : s = t ∧ rest = tail := by
  obtain ⟨texts, rests⟩ := utf8_terminated_append_inj clear same
  exact ⟨String.toList_injective texts, rests⟩

/-- A present text is told from an absent one by its tag. -/
theorem hashOptionalTagged_append_inj {tag : String} {c : Char} {letters : List Char} {first second : Option String}
    {rest tail : List UInt8} (tagged : tag.toList = c :: letters) (differs : c ≠ '|')
    (clear : ClearOption '|' first second)
    (same : hashOptionalTagged tag first ++ rest = hashOptionalTagged tag second ++ tail) :
    first = second ∧ rest = tail := by
  have apart : ∀ (t : String) (more others : List UInt8),
      utf8 ['|'] ++ more ≠ utf8 (tag.toList ++ terminated '|' t.toList) ++ others := by
    intro t more others equal
    rw [tagged, List.cons_append] at equal
    have heads : '|' = c := by
      rcases flatMap_append_inj delimited_utf8EncodeChar equal with ⟨_, longer, _⟩ | ⟨_, longer, _⟩
      · simpa using congrArg List.head? longer.symm
      · simpa using congrArg List.head? longer
    exact differs heads.symm
  cases first with
  | none =>
    cases second with
    | none => exact ⟨rfl, List.append_cancel_left same⟩
    | some t => exact absurd same (apart t _ _)
  | some s =>
    cases second with
    | none => exact absurd same.symm (apart s _ _)
    | some t =>
      simp only [hashOptionalTagged, utf8_append tag.toList, List.append_assoc] at same
      obtain ⟨texts, rests⟩ := hashStr_append_inj (clear s rfl t rfl) (List.append_cancel_left same)
      exact ⟨by rw [texts], rests⟩

theorem hashStringList_append_inj {s t : List String} {rest tail : List UInt8} (first : Countable s)
    (second : Countable t) (same : hashStringList s ++ rest = hashStringList t ++ tail) : s = t ∧ rest = tail := by
  have texts : Function.Injective fun item : String => utf8 item.toList :=
    fun _ _ equal => String.toList_injective (utf8_injective equal)
  simp only [hashStringList, List.append_assoc] at same
  obtain ⟨items, later⟩ :=
    delimited_counted 4 ((delimited_prefixed 4).comp texts) s t first second _ _ same
  exact ⟨items, List.append_cancel_left later⟩

theorem delimited_hashJson : Delimited (fun _ : Json => True) hashJson := by
  have chars : Delimited (fun _ : Json => True) fun value => terminated '|' value.compact := by
    intro v w _ _ rest tail same
    simp only [terminated, List.append_assoc, List.cons_append, List.nil_append] at same
    have stops : ∀ more : List Char, Json.Delimited ('|' :: more) := by
      intro more c head
      obtain rfl : '|' = c := Option.some.inj head
      decide
    obtain ⟨values, rests⟩ := Json.compact_append_inj v w (stops rest) (stops tail) same
    exact ⟨values, List.tail_eq_of_cons_eq rests⟩
  exact chars.utf8

theorem hashJson_append_inj {α : Type} {toValue : α → Json} (injective : Function.Injective toValue) {a b : α}
    {rest tail : List UInt8} (same : hashJson (toValue a) ++ rest = hashJson (toValue b) ++ tail) :
    a = b ∧ rest = tail := by
  obtain ⟨values, rests⟩ := delimited_hashJson _ _ trivial trivial _ _ same
  exact ⟨injective values, rests⟩

/-- No document starts with the separator. -/
theorem compact_head_ne_bar {v : Json} {rest tail : List Char} : v.compact ++ rest ≠ '|' :: tail := by
  intro same
  obtain ⟨c, more, text, first, -⟩ := Json.compact_head v
  rw [text, List.cons_append, List.cons.injEq] at same
  obtain ⟨rfl, -⟩ := same
  have number : Json.kindOfChar '|' = .number := by simp [Json.kindOfChar]
  rw [number] at first
  cases v with
  | number n =>
    have inside : '|' ∈ n.text.toList := by
      rw [Json.compact] at text
      simp [text]
    exact absurd (Json.numberText_plain n '|' inside) (by decide)
  | null | bool | string | array | object => cases first

theorem hashOptionalJson_append_inj {first second : Option Json} {rest tail : List UInt8}
    (same : hashOptionalJson first ++ rest = hashOptionalJson second ++ tail) : first = second ∧ rest = tail := by
  have apart : ∀ (v : Json) (more others : List UInt8), utf8 ['|'] ++ more ≠ hashJson v ++ others := by
    intro v more others equal
    rcases flatMap_append_inj delimited_utf8EncodeChar equal with ⟨letters, longer, _⟩ | ⟨letters, longer, _⟩
    · exact compact_head_ne_bar longer
    · rw [terminated, List.append_assoc] at longer
      exact compact_head_ne_bar longer.symm
  cases first with
  | none =>
    cases second with
    | none => exact ⟨rfl, List.append_cancel_left same⟩
    | some w => exact absurd same (apart w _ _)
  | some v =>
    cases second with
    | none => exact absurd same.symm (apart v _ _)
    | some w =>
      obtain ⟨values, rests⟩ := delimited_hashJson v w trivial trivial _ _ same
      exact ⟨by rw [values], rests⟩

theorem hashUsize_append_inj {n m : Nat} {rest tail : List UInt8} (first : n < 256 ^ 8) (second : m < 256 ^ 8)
    (same : hashUsize n ++ rest = hashUsize m ++ tail) : n = m ∧ rest = tail := by
  simp only [hashUsize, List.append_assoc] at same
  obtain ⟨numbers, later⟩ := delimited_leBytes 8 n m first second _ _ same
  exact ⟨numbers, List.append_cancel_left later⟩

theorem hashI64_append_inj {x y : Int} {rest tail : List UInt8} (first : -2 ^ 63 ≤ x ∧ x < 2 ^ 63)
    (second : -2 ^ 63 ≤ y ∧ y < 2 ^ 63) (same : hashI64 x ++ rest = hashI64 y ++ tail) : x = y ∧ rest = tail := by
  have bound : ∀ z : Int, (z % 2 ^ 64).toNat < 256 ^ 8 := by
    intro z
    omega
  obtain ⟨residues, rests⟩ := delimited_leBytes 8 _ _ (bound x) (bound y) _ _ same
  exact ⟨by omega, rests⟩

theorem delimited_hashSecretDecl : Delimited (fun decl => byteLen decl.name < 256 ^ 4) hashSecretDecl := by
  intro a b first second rest tail same
  simp only [hashSecretDecl, List.append_assoc] at same
  obtain ⟨bytes, later⟩ := delimited_prefixed 4 _ _ first second _ _ same
  simp only [hashBool, List.cons_append, List.nil_append, List.cons.injEq] at later
  have names : a.name = b.name := String.toList_injective (utf8_injective bytes)
  have flags : a.required = b.required := by
    revert later
    cases a.required <;> cases b.required <;> simp
  obtain ⟨name, required⟩ := a
  subst names flags
  exact ⟨rfl, later.2⟩

theorem string_injective : Function.Injective Json.string :=
  fun _ _ same => Json.string.inj same

theorem EgressProfile.toValue_injective : Function.Injective EgressProfile.toValue := by
  intro a b same
  cases a <;> cases b <;> simp only [toValue, reduceCtorEq, Json.object.injEq, List.cons.injEq, Prod.mk.injEq,
    Json.array.injEq, true_and, and_true] at same
  · rfl
  · rw [List.map_injective_iff.mpr string_injective same]

theorem ResourceLimits.toValue_injective : Function.Injective ResourceLimits.toValue := by
  intro a b same
  simp only [toValue, Json.object.injEq, List.cons.injEq, Prod.mk.injEq, Json.number.injEq, JsonNumber.int.injEq,
    Nat.cast_inj, true_and, and_true] at same
  obtain ⟨fuel, memory, timeout, calls, response⟩ := same
  cases a
  cases b
  simp_all

theorem VerifierKind.asStr_injective : Function.Injective fun kind : VerifierKind => Json.string kind.asStr := by
  intro a b same
  cases a <;> cases b <;> first | rfl | exact absurd (string_injective same) (by decide)

theorem RiskLevel.asStr_injective : Function.Injective fun level : RiskLevel => Json.string level.asStr := by
  intro a b same
  cases a <;> cases b <;> first | rfl | exact absurd (string_injective same) (by decide)

theorem TrustVerdict.toValue_injective : Function.Injective TrustVerdict.toValue := by
  intro a b same
  cases a <;> cases b <;> simp [toValue] at same <;> simp [same]

/-- Two cores whose texts a reader of the hashed bytes tells apart. -/
structure ExecutionPlanCore.ReadApart (print : Int → String) (a b : ExecutionPlanCore) : Prop where
  actionId : Clear '|' a.actionId.toList b.actionId.toList
  actionDigest : Clear '|' a.actionDigest.toList b.actionDigest.toList
  providerModuleDigest : Clear '|' a.providerModuleDigest.toList b.providerModuleDigest.toList
  requestHash : Clear '|' a.requestHash.toList b.requestHash.toList
  policyVersion : ClearOption '|' a.policyVersion b.policyVersion
  approvedTargets : Countable a.approvedTargets ∧ Countable b.approvedTargets
  approvedSecrets : Countable a.approvedSecrets ∧ Countable b.approvedSecrets
  expiresAt : a.expiresAt.Printed print ∧ b.expiresAt.Printed print

/-- The version of the policy is the only text of a core that the registry and
the pipeline leave open. -/
theorem ExecutionPlanCore.Admitted.readApart {print : Int → String} {a b : ExecutionPlanCore}
    (first : a.Admitted print) (second : b.Admitted print)
    (clear : ClearOption '|' a.policyVersion b.policyVersion) : a.ReadApart print b where
  actionId := clear_of_notMem (bar_notMem_of_all first.actionId (by decide))
    (bar_notMem_of_all second.actionId (by decide))
  actionDigest := clear_of_notMem (bar_notMem_of_isDigest first.actionDigest)
    (bar_notMem_of_isDigest second.actionDigest)
  providerModuleDigest := by
    obtain ⟨_, firstParsed⟩ := first.providerModuleDigest
    obtain ⟨_, secondParsed⟩ := second.providerModuleDigest
    exact clear_of_notMem (bar_notMem_of_parse firstParsed) (bar_notMem_of_parse secondParsed)
  requestHash := clear_of_notMem (bar_notMem_of_isDigest first.requestHash)
    (bar_notMem_of_isDigest second.requestHash)
  policyVersion := clear
  approvedTargets := ⟨first.approvedTargets, second.approvedTargets⟩
  approvedSecrets := ⟨first.approvedSecrets, second.approvedSecrets⟩
  expiresAt := ⟨first.expiresAt, second.expiresAt⟩

/-- The bytes of a core, with any continuation, give back the core. -/
theorem ExecutionPlanCore.ReadApart.append_inj {print : Int → String} (clock : Rfc3339 print)
    {a b : ExecutionPlanCore} {rest tail : List UInt8} (apart : a.ReadApart print b)
    (same : a.hashInto ++ rest = b.hashInto ++ tail) : a = b ∧ rest = tail := by
  have dates : Clear '|' a.expiresAt.rfc3339.toList b.expiresAt.rfc3339.toList := by
    rw [apart.expiresAt.1, apart.expiresAt.2]
    exact clear_of_notMem (clock.plain _) (clock.plain _)
  simp only [hashInto, List.append_assoc] at same
  obtain ⟨actionId, same⟩ := hashStr_append_inj apart.actionId same
  obtain ⟨actionDigest, same⟩ := hashStr_append_inj apart.actionDigest same
  obtain ⟨moduleDigest, same⟩ := hashStr_append_inj apart.providerModuleDigest same
  obtain ⟨requestHash, same⟩ := hashStr_append_inj apart.requestHash same
  obtain ⟨policyVersion, same⟩ := hashOptionalTagged_append_inj rfl (by decide) apart.policyVersion same
  obtain ⟨targets, same⟩ := hashStringList_append_inj apart.approvedTargets.1 apart.approvedTargets.2 same
  obtain ⟨secrets, same⟩ := hashStringList_append_inj apart.approvedSecrets.1 apart.approvedSecrets.2 same
  obtain ⟨egress, same⟩ := hashJson_append_inj EgressProfile.toValue_injective same
  obtain ⟨text, rests⟩ := hashStr_append_inj dates same
  have expiresAt := apart.expiresAt.1.eq clock apart.expiresAt.2 text
  obtain ⟨_, _, _, _, _, _, _, _, _⟩ := a
  subst actionId actionDigest moduleDigest requestHash policyVersion targets secrets egress expiresAt
  exact ⟨rfl, rests⟩

namespace ApprovedExecutionPlan
variable {print : Int → String} {p q : ApprovedExecutionPlan}

/-- In neither of the two free texts does one plan continue the other behind
a separator. -/
def Unshifted (p q : ApprovedExecutionPlan) : Prop :=
  Clear '|' p.actionVersion.toList q.actionVersion.toList ∧
    ClearOption '|' p.core.policyVersion q.core.policyVersion

theorem preimage_inj (clock : Rfc3339 print) (first : p.Admitted print) (second : q.Admitted print)
    (unshifted : p.Unshifted q) (same : p.preimage = q.preimage) : p.binding = q.binding := by
  simp only [preimage, List.append_assoc] at same
  have same := List.append_cancel_left same
  obtain ⟨version, same⟩ := hashStr_append_inj unshifted.1 same
  obtain ⟨core, same⟩ := (first.core.readApart second.core unshifted.2).append_inj clock same
  obtain ⟨imports, same⟩ := hashStringList_append_inj first.requiredImports second.requiredImports same
  obtain ⟨limits, same⟩ := hashJson_append_inj ResourceLimits.toValue_injective same
  obtain ⟨verifier, same⟩ := hashJson_append_inj VerifierKind.asStr_injective same
  obtain ⟨risk, same⟩ := hashJson_append_inj RiskLevel.asStr_injective same
  obtain ⟨bytes, same⟩ := hashUsize_append_inj first.maxResponseBytes second.maxResponseBytes same
  obtain ⟨verification, same⟩ := hashOptionalJson_append_inj same
  obtain ⟨secrets, same⟩ := delimited_counted 4 delimited_hashSecretDecl _ _
    ⟨first.secretDeclarations, first.secretNames⟩ ⟨second.secretDeclarations, second.secretNames⟩ _ _ same
  have same := List.append_cancel_left same
  obtain ⟨remaining, same⟩ := hashI64_append_inj first.budgetCallsRemaining second.budgetCallsRemaining same
  obtain ⟨after, same⟩ := hashI64_append_inj first.policyApprovedCallsAfter second.policyApprovedCallsAfter same
  have same := List.append_cancel_left same
  obtain ⟨trust, same⟩ := hashJson_append_inj TrustVerdict.toValue_injective same
  obtain ⟨database, same⟩ := hashOptionalJson_append_inj same
  have ended : hashOptionalJson p.fs ++ [] = hashOptionalJson q.fs ++ [] := by
    simpa only [List.append_nil] using same
  obtain ⟨fs, -⟩ := hashOptionalJson_append_inj ended
  cases p
  cases q
  simp_all [binding]

theorem verifyHash_underHashOf {sha256 : List UInt8 → String} :
    (q.underHashOf sha256 p).verifyHash sha256 = true ↔
      sha256 p.preimage ≠ "" ∧ sha256 q.preimage = sha256 p.preimage :=
  verifyHash_eq_true

/-- Unless the digest itself collides, a plan that differs from the one whose
hash was taken does not pass in its place. -/
theorem unshifted_plans_hash_apart (clock : Rfc3339 print) (first : p.Admitted print) (second : q.Admitted print)
    (unshifted : p.Unshifted q) :
    (p.preimage = q.preimage → p.binding = q.binding) ∧
      ∀ sha256 : List UInt8 → String, (sha256 q.preimage = sha256 p.preimage → q.preimage = p.preimage) →
        p.binding ≠ q.binding → (q.underHashOf sha256 p).verifyHash sha256 = false := by
  have determined := preimage_inj clock first second unshifted
  refine ⟨determined, ?_⟩
  intro sha256 collisionFree changed
  by_contra accepted
  have passed := verifyHash_underHashOf.1 (Bool.eq_true_of_not_eq_false accepted)
  exact changed (determined (collisionFree passed.2).symm)

/-- The bytes of two adjacent texts are those of their join. -/
theorem hashStr_join (s t : String) : hashStr (s ++ "|" ++ t) = hashStr s ++ hashStr t := by
  simp [hashStr, utf8, terminated]

theorem hashOptionalTagged_some (tag value : String) :
    hashOptionalTagged tag (some value) = hashStr (tag ++ value) := by
  simp [hashOptionalTagged, hashStr, utf8, terminated]

/-- A version of the policy that spells out the identity of another action
moves it into the version of the action. -/
theorem preimage_shift (p : ApprovedExecutionPlan) (x actionId actionDigest moduleDigest requestHash y : String)
    (spelled : p.core.policyVersion = some (x ++ "|" ++ (actionId ++ "|" ++ (actionDigest ++ "|" ++
      (moduleDigest ++ "|" ++ (requestHash ++ "|" ++ ("pv:" ++ y))))))) :
    ({ p with
        actionVersion := p.actionVersion ++ "|" ++ (p.core.actionId ++ "|" ++ (p.core.actionDigest ++ "|" ++
          (p.core.providerModuleDigest ++ "|" ++ (p.core.requestHash ++ "|" ++ ("pv:" ++ x)))))
        core := { p.core with
          actionId, actionDigest, providerModuleDigest := moduleDigest, requestHash, policyVersion := some y } } :
      ApprovedExecutionPlan).preimage = p.preimage := by
  have joined : ∀ text : String, "pv:" ++ (x ++ "|" ++ text) = ("pv:" ++ x) ++ "|" ++ text := by
    intro text
    simp only [String.append_assoc]
  simp only [preimage, ExecutionPlanCore.hashInto, spelled, hashOptionalTagged_some, joined, hashStr_join,
    List.append_assoc]

end ApprovedExecutionPlan

/-- A clock that prints one instant as RFC 3339 has it, and any other one so
that it is told apart. -/
def sampleClock (n : Int) : String :=
  if n = 300000000000 then "1970-01-01T00:05:00+00:00" else n.repr ++ ":::"

theorem rfc3339_sampleClock : Rfc3339 sampleClock := by
  have digits : ∀ (n : Int) (c : Char), Json.isNumberChar c = false → c ∉ n.repr.toList := by
    intro n c excluded member
    have plain := Json.numberText_plain (.int n) c member
    rw [excluded] at plain
    cases plain
  have other : ∀ n : Int, "1970-01-01T00:05:00+00:00" ≠ n.repr ++ ":::" := by
    intro n equal
    have last := congrArg (fun text : String => text.toList.getLast?) equal
    simp at last
  constructor
  · intro n m same
    unfold sampleClock at same
    split_ifs at same with first second second
    · rw [first, second]
    · exact absurd same (other m)
    · exact absurd same.symm (other n)
    · have chars := congrArg String.toList same
      simp only [String.toList_append] at chars
      exact Int.repr_injective (String.toList_injective (List.append_cancel_right chars))
  · intro n
    unfold sampleClock
    split_ifs
    · decide
    · simp [digits n '|' (by decide)]
  · intro n
    unfold sampleClock
    split_ifs
    · decide
    · simp [List.count_eq_zero_of_not_mem (digits n ':' (by decide))]

/-- A digest without collisions: the bytes themselves, spelled as characters. -/
def sampleDigest (bytes : List UInt8) : String :=
  String.ofList (bytes.map fun byte => Char.ofNat byte.toNat)

theorem sampleDigest_injective : Function.Injective sampleDigest := by
  have letters : Function.Injective fun byte : UInt8 => Char.ofNat byte.toNat := by
    intro a b same
    have numbers := congrArg Char.toNat same
    have valid : ∀ byte : UInt8, byte.toNat.isValidChar := by
      intro byte
      have bound := byte.toNat_lt
      exact .inl (by omega)
    rw [Char.toNat_ofNat, Char.toNat_ofNat, if_pos (valid a), if_pos (valid b)] at numbers
    exact UInt8.toNat_inj.mp numbers
  intro s t same
  exact List.map_injective_iff.mpr letters (String.ofList_injective same)

def sampleHex (digit : Char) : String :=
  "sha256:" ++ String.ofList (List.replicate 64 digit)

theorem isDigest_sampleHex {digit : Char} (hex : isAsciiHexDigit digit) : isDigest (sampleHex digit) := by
  have stripped : stripText "sha256:" (sampleHex digit) = some (String.ofList (List.replicate 64 digit)) := by
    simp [stripText, startsWith, sampleHex]
  simp [isDigest, stripped, hex]

namespace ApprovedExecutionPlan
variable {print : Int → String} {p : ApprovedExecutionPlan}

def samplePlan : ApprovedExecutionPlan :=
  { testDefault with
    core := { testDefault.core with
      actionDigest := sampleHex 'f', providerModuleDigest := "builtin:http_api", requestHash := sampleHex '0' } }

def widenedPlan : ApprovedExecutionPlan :=
  { samplePlan with core := { samplePlan.core with approvedTargets := ["evil.example"] } }

theorem samplePlan_admitted : samplePlan.Admitted sampleClock where
  core :=
    { actionId := by decide
      actionDigest := isDigest_sampleHex (by decide)
      providerModuleDigest := ⟨_, rfl⟩
      requestHash := isDigest_sampleHex (by decide)
      approvedTargets := ⟨by decide, by simp [samplePlan, testDefault]⟩
      approvedSecrets := ⟨by decide, by simp [samplePlan, testDefault]⟩
      expiresAt := rfl }
  requiredImports := ⟨by decide, by simp [samplePlan, testDefault]⟩
  latchgateImports := by simp [samplePlan, testDefault]
  maxResponseBytes := by decide
  secretDeclarations := by decide
  secretNames := by simp [samplePlan, testDefault]
  budgetCallsRemaining := by decide
  policyApprovedCallsAfter := by decide

/-- The fields of a plan outside its core and its version decide nothing here. -/
theorem Admitted.withCore (admitted : p.Admitted print) {core : ExecutionPlanCore} (coreAdmitted : core.Admitted print)
    (version : String) :
    ({ p with core := core, actionVersion := version } : ApprovedExecutionPlan).Admitted print where
  core := coreAdmitted
  requiredImports := admitted.requiredImports
  latchgateImports := admitted.latchgateImports
  maxResponseBytes := admitted.maxResponseBytes
  secretDeclarations := admitted.secretDeclarations
  secretNames := admitted.secretNames
  budgetCallsRemaining := admitted.budgetCallsRemaining
  policyApprovedCallsAfter := admitted.policyApprovedCallsAfter

theorem widenedCore_admitted :
    ({ samplePlan.core with approvedTargets := ["evil.example"] } : ExecutionPlanCore).Admitted sampleClock where
  actionId := (samplePlan_admitted).core.actionId
  actionDigest := (samplePlan_admitted).core.actionDigest
  providerModuleDigest := (samplePlan_admitted).core.providerModuleDigest
  requestHash := (samplePlan_admitted).core.requestHash
  approvedTargets := ⟨by decide, by simp; decide⟩
  approvedSecrets := (samplePlan_admitted).core.approvedSecrets
  expiresAt := (samplePlan_admitted).core.expiresAt

theorem widenedPlan_rejected :
    samplePlan.Unshifted widenedPlan ∧ (widenedPlan.underHashOf sampleDigest samplePlan).verifyHash sampleDigest = false := by
  have unshifted : samplePlan.Unshifted widenedPlan := by
    refine ⟨Clear.refl _ _, ?_⟩
    intro s first t second
    obtain rfl : "test-v1" = s := Option.some.inj first
    obtain rfl : "test-v1" = t := Option.some.inj second
    exact Clear.refl _ _
  have changed : samplePlan.binding ≠ widenedPlan.binding := by
    intro same
    have targets := congrArg (fun plan => plan.core.approvedTargets) same
    cases targets
  have admitted : widenedPlan.Admitted sampleClock :=
    (samplePlan_admitted).withCore widenedCore_admitted samplePlan.actionVersion
  refine ⟨unshifted, ?_⟩
  exact (unshifted_plans_hash_apart rfc3339_sampleClock samplePlan_admitted admitted unshifted).2
    sampleDigest (fun same => sampleDigest_injective same) changed

theorem sampleDigest_preimage_ne_empty (p : ApprovedExecutionPlan) : sampleDigest p.preimage ≠ "" := by
  have domain : utf8 "latchgate-approved-plan-v7:".toList ≠ [] := by decide
  have spelled : sampleDigest [] = "" := rfl
  intro empty
  rw [← spelled] at empty
  have bytes := sampleDigest_injective empty
  simp only [preimage, List.append_assoc, List.append_eq_nil_iff] at bytes
  exact domain bytes.1

/-- What the hash of the first plan binds can be read as another action. -/
def shiftedPolicyCore : ExecutionPlanCore :=
  { samplePlan.core with
    policyVersion := some ("v1" ++ "|" ++ ("pay_invoice" ++ "|" ++
      (sampleHex 'a' ++ "|" ++ ("builtin:fs" ++ "|" ++ (sampleHex 'b' ++ "|" ++ ("pv:" ++ "v2")))))) }

def shiftedVersionCore : ExecutionPlanCore :=
  { samplePlan.core with
    actionId := "pay_invoice"
    actionDigest := sampleHex 'a'
    providerModuleDigest := "builtin:fs"
    requestHash := sampleHex 'b'
    policyVersion := some "v2" }

def shiftedPolicy : ApprovedExecutionPlan :=
  { samplePlan with core := shiftedPolicyCore }

def shiftedVersion : ApprovedExecutionPlan :=
  { samplePlan with
    actionVersion := samplePlan.actionVersion ++ "|" ++ (samplePlan.core.actionId ++ "|" ++
      (samplePlan.core.actionDigest ++ "|" ++ (samplePlan.core.providerModuleDigest ++ "|" ++
        (samplePlan.core.requestHash ++ "|" ++ ("pv:" ++ "v1")))))
    core := shiftedVersionCore }

theorem shiftedPolicyCore_admitted : shiftedPolicyCore.Admitted sampleClock where
  actionId := (samplePlan_admitted).core.actionId
  actionDigest := (samplePlan_admitted).core.actionDigest
  providerModuleDigest := (samplePlan_admitted).core.providerModuleDigest
  requestHash := (samplePlan_admitted).core.requestHash
  approvedTargets := (samplePlan_admitted).core.approvedTargets
  approvedSecrets := (samplePlan_admitted).core.approvedSecrets
  expiresAt := (samplePlan_admitted).core.expiresAt

theorem shiftedVersionCore_admitted : shiftedVersionCore.Admitted sampleClock where
  actionId := by decide
  actionDigest := isDigest_sampleHex (by decide)
  providerModuleDigest := ⟨_, rfl⟩
  requestHash := isDigest_sampleHex (by decide)
  approvedTargets := (samplePlan_admitted).core.approvedTargets
  approvedSecrets := (samplePlan_admitted).core.approvedSecrets
  expiresAt := (samplePlan_admitted).core.expiresAt

theorem shifted_preimage : shiftedPolicy.preimage = shiftedVersion.preimage :=
  (preimage_shift shiftedPolicy "v1" "pay_invoice" shiftedVersionCore.actionDigest "builtin:fs"
    shiftedVersionCore.requestHash "v2" rfl).symm

theorem sampleHex_ne : sampleHex '0' ≠ sampleHex 'b' := by
  intro same
  have chars := congrArg String.toList same
  simp [sampleHex] at chars

theorem shifted_plans_hash_alike :
    shiftedPolicy.Admitted sampleClock ∧ shiftedVersion.Admitted sampleClock ∧
      shiftedPolicy.preimage = shiftedVersion.preimage ∧
      shiftedPolicy.core.actionId ≠ shiftedVersion.core.actionId ∧
      shiftedPolicy.core.requestHash ≠ shiftedVersion.core.requestHash ∧
      (shiftedVersion.underHashOf sampleDigest shiftedPolicy).verifyHash sampleDigest = true := by
  refine ⟨(samplePlan_admitted).withCore shiftedPolicyCore_admitted samplePlan.actionVersion,
    (samplePlan_admitted).withCore shiftedVersionCore_admitted shiftedVersion.actionVersion, shifted_preimage,
    by decide, sampleHex_ne, ?_⟩
  refine verifyHash_underHashOf.2 ⟨sampleDigest_preimage_ne_empty shiftedPolicy, ?_⟩
  rw [shifted_preimage]

end ApprovedExecutionPlan
end Latchgate
