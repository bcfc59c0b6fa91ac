import Latchgate.Policy.EngineCache

namespace Latchgate
open Json (string number array object)

/-! The answer of the shipped policy on its way to the gate. -/

/-- The object that a rule makes. -/
def PolicyValue.toJson : PolicyValue → Json
  | .deny reason => object [("allow", .bool false), ("deny_reason", string reason)]
  | .allow requiresApproval callsAfter allowedSinks approvedSecrets approvedEgress policyVersion =>
    object
      [("allow", .bool true), ("requires_approval", .bool requiresApproval),
        ("budgets_after", object [("calls_remaining", number (.int callsAfter))]), ("allowed_sinks", allowedSinks),
        ("approved_secrets", array (approvedSecrets.map string)), ("approved_egress", approvedEgress.toValue),
        ("policy_version", policyVersion)]

namespace OpaDecisionResult
open AuditEvent (decodeBool decodeI64 optional required)

section Stable
open Json (Stable)

theorem stable_optional {α : Type} {decode : Json → Option α} (stable : Stable decode)
    {read : FloatText → Except String FloatText} {m n : Option Json} (alike : Json.Reread read m n) :
    optional decode n = optional decode m :=
  stable.nullable.or none alike

theorem stable_decodeBool : Stable decodeBool :=
  Json.stable_of_scalar (fun _ => rfl) (fun _ => rfl) (fun _ => rfl)

theorem stable_decodeI64 : Stable decodeI64 :=
  Json.stable_of_scalar (fun _ => rfl) (fun _ => rfl) (fun _ => rfl)

theorem stable_decodeBudget : Stable decodeBudget := by
  refine Stable.recordOnce fun alike => ?_
  simp only [required, stable_decodeI64.required (alike _)]

theorem stable_decodeUnit : Stable decodeUnit :=
  Json.stable_of_scalar (fun _ => rfl) (fun _ => rfl) (fun _ => rfl)

theorem stable_decodeAllowlist : Stable decodeAllowlist := by
  refine Stable.recordOnce fun alike => ?_
  simp only [required, Json.stable_asStr?.list.required (alike _)]

theorem stable_decodeEgress : Stable decodeEgress := by
  refine Json.stable_of_scalar (fun _ => rfl) (fun _ => rfl) fun {read fields others} reparsed => ?_
  match fields, reparsed with
  | [], reparsed =>
    cases reparsed
    rfl
  | [(name, body)], reparsed =>
    obtain ⟨w, rest, head, tail, rfl⟩ := Json.reparseFields_cons.1 reparsed
    cases tail
    simp only [decodeEgress, stable_decodeUnit _ _ _ head, stable_decodeAllowlist _ _ _ head]
  | first :: second :: fields, reparsed =>
    obtain ⟨_, _, _, tail, rfl⟩ := Json.reparseFields_cons.1 reparsed
    obtain ⟨_, _, _, _, rfl⟩ := Json.reparseFields_cons.1 tail
    rfl

theorem stable_decode : Stable decode := by
  refine Stable.recordOnce fun alike => ?_
  have texts : Stable (Json.decodeList Json.asStr?) := Json.stable_asStr?.list
  simp only [ofMembers, required, stable_decodeBool.required (alike _), stable_decodeBool.or false (alike _),
    stable_optional Json.stable_asStr? (alike _), stable_optional stable_decodeBudget (alike _),
    stable_optional texts (alike _), stable_optional stable_decodeEgress (alike _)]

end Stable

theorem decode_deny (reason : String) : ∃ result : OpaDecisionResult,
    decode (PolicyValue.deny reason).toJson = some result ∧ result.allow = false ∧ result.denyReason = some reason :=
  ⟨_, rfl, rfl, rfl⟩

theorem decodeEgress_toValue (egress : EgressProfile) : decodeEgress egress.toValue = some egress := by
  cases egress with
  | none => rfl
  | proxyAllowlist domains =>
    have texts : Json.decodeList Json.asStr? (array (domains.map string)) = some domains :=
      @Json.decodeList_map _ string Json.asStr? (fun _ => rfl) domains
    simp [EgressProfile.toValue, decodeEgress, decodeAllowlist, Json.membersOnce, Json.members, required, texts]

/-- The list that a member holds, where null is none. -/
def texts (v : Json) : Option (Option (List String)) :=
  optional (Json.decodeList Json.asStr?) (some v)

def version (v : Json) : Option (Option String) :=
  optional Json.asStr? (some v)

/-- All that the policy says about an allowed call is read as it was said. -/
theorem decode_allow {approval : Bool} {callsAfter : Int} {sinks : Json} {secrets : List String} {egress : EgressProfile}
    {policyVersion : Json} (low : -2 ^ 63 ≤ callsAfter) (high : callsAfter < 2 ^ 63) :
    decode (PolicyValue.allow approval callsAfter sinks secrets egress policyVersion).toJson =
      (texts sinks).bind fun sinks => (version policyVersion).map fun version =>
        { allow := true, denyReason := none, requiresApproval := approval, budgetsAfter := some (.ofInt callsAfter),
          allowedSinks := sinks, approvedSecrets := some secrets, approvedEgress := some egress, policyVersion := version } := by
  have list : Json.decodeList Json.asStr? (array (secrets.map string)) = some secrets :=
    @Json.decodeList_map _ string Json.asStr? (fun _ => rfl) secrets
  have budget : decodeBudget (object [("calls_remaining", number (.int callsAfter))]) = some (.ofInt callsAfter) := by
    have read : decodeBudget (object [("calls_remaining", number (.int callsAfter))]) =
        if -2 ^ 63 ≤ callsAfter ∧ callsAfter < 2 ^ 63 then some (.ofInt callsAfter) else none := rfl
    rw [read, if_pos ⟨low, high⟩]
  have profile : AuditEvent.optional decodeEgress (some egress.toValue) = some (some egress) := by
    have same := congrArg (Option.map some) (decodeEgress_toValue egress)
    cases egress with
    | none => exact same
    | proxyAllowlist domains => exact same
  let fields : List (String × Json) :=
    [("allow", .bool true), ("requires_approval", .bool approval),
      ("budgets_after", object [("calls_remaining", number (.int callsAfter))]), ("allowed_sinks", sinks),
      ("approved_secrets", array (secrets.map string)), ("approved_egress", egress.toValue), ("policy_version", policyVersion)]
  have found : decode (object fields) = ofMembers fun name => fields.lookup name := rfl
  have allow : fields.lookup "allow" = some (.bool true) := rfl
  have denyReason : fields.lookup "deny_reason" = none := rfl
  have requires : fields.lookup "requires_approval" = some (.bool approval) := rfl
  have budgets : fields.lookup "budgets_after" = some (object [("calls_remaining", number (.int callsAfter))]) := rfl
  have allowed : fields.lookup "allowed_sinks" = some sinks := rfl
  have approved : fields.lookup "approved_secrets" = some (array (secrets.map string)) := rfl
  have route : fields.lookup "approved_egress" = some egress.toValue := rfl
  have revision : fields.lookup "policy_version" = some policyVersion := rfl
  have budgetRead : AuditEvent.optional decodeBudget (some (object [("calls_remaining", number (.int callsAfter))])) =
      some (some (.ofInt callsAfter)) := congrArg (Option.map some) budget
  have listRead : AuditEvent.optional (Json.decodeList Json.asStr?) (some (array (secrets.map string))) =
      some (some secrets) := congrArg (Option.map some) list
  change decode (object fields) = _
  rw [found, ofMembers, allow, denyReason, requires, budgets, allowed, approved, route, revision, profile, budgetRead,
    listRead]
  cases list : texts sinks with
  | none =>
    have list : AuditEvent.optional (Json.decodeList Json.asStr?) (some sinks) = none := list
    rw [list]
    rfl
  | some list' =>
    have list : AuditEvent.optional (Json.decodeList Json.asStr?) (some sinks) = some list' := list
    rw [list]
    cases shown : version policyVersion with
    | none =>
      have shown : AuditEvent.optional Json.asStr? (some policyVersion) = none := shown
      rw [shown]
      rfl
    | some version' =>
      have shown : AuditEvent.optional Json.asStr? (some policyVersion) = some version' := shown
      rw [shown]
      rfl

end OpaDecisionResult

/-! Both ways to the policy. -/

section Answer
variable {serde : Serde} {input : PolicyInput} {approvalId text : String} {value : PolicyValue}
open OpaDecisionResult (decode texts version)

/-- The text is read as the document, but for what happens to its doubles. -/
def Prints (serde : Serde) (text : String) (doc : Json) : Prop :=
  ∃ read, serde.parse text = doc.reparse read

/-- What the gate takes a value of the decision for. -/
def PolicyValue.decided (approvalId : String) : PolicyValue → Option PolicyDecision
  | .deny _ => none
  | .allow approval callsAfter sinks secrets egress policyVersion =>
    (texts sinks).bind fun sinks => (version policyVersion).bind fun version =>
      if approval then
        sinks.map fun sinks => .pendingApproval approvalId sinks secrets egress (.ofInt callsAfter) version
      else some (.allow (.ofInt callsAfter) (sinks.getD []) secrets egress version)

/-- The calls that are left are a number of the machine. -/
def PolicyValue.Fits : PolicyValue → Prop
  | .deny _ => True
  | .allow _ callsAfter .. => -2 ^ 63 ≤ callsAfter ∧ callsAfter < 2 ^ 63

theorem interpret_decode (input : PolicyInput) (fits : value.Fits) {decision : PolicyDecision} :
    (∃ result, decode value.toJson = some result ∧ interpretDecision result input approvalId = .ok decision) ↔
      value.decided approvalId = some decision := by
  cases value with
  | deny reason =>
    obtain ⟨result, decoded, denied, -⟩ := OpaDecisionResult.decode_deny reason
    refine iff_of_false ?_ nofun
    rintro ⟨other, same, interpreted⟩
    obtain rfl := Option.some.inj (decoded.symm.trans same)
    simp [interpretDecision, denied] at interpreted
  | allow approval callsAfter sinks secrets egress policyVersion =>
    rw [OpaDecisionResult.decode_allow fits.1 fits.2]
    cases list : texts sinks with
    | none => simp [PolicyValue.decided, list]
    | some sinks' =>
      cases shown : version policyVersion with
      | none => simp [PolicyValue.decided, list, shown]
      | some version' =>
        cases approval with
        | false => simp [PolicyValue.decided, list, shown, interpretDecision]
        | true =>
          cases sinks' with
          | none => simp [PolicyValue.decided, list, shown, interpretDecision, interpretApproval]
          | some sinks' => simp [PolicyValue.decided, list, shown, interpretDecision, interpretApproval]

theorem texts_eq_some {v : Json} {list : Option (List String)} (read : texts v = some list) :
    v = .null ∧ list = none ∨ ∃ names : List String, v = array (names.map string) ∧ list = some names := by
  cases v with
  | null =>
    cases read
    exact .inl ⟨rfl, rfl⟩
  | array items =>
    obtain ⟨names, all, rfl⟩ := Option.map_eq_some_iff.mp (show (items.mapM Json.asStr?).map some = some list from read)
    refine .inr ⟨names, ?_, rfl⟩
    clear read
    induction items generalizing names with
    | nil =>
      cases all
      rfl
    | cons item rest ih =>
      rw [List.mapM_cons] at all
      obtain ⟨name, here, more⟩ := Option.bind_eq_some_iff.mp all
      obtain ⟨others, later, same⟩ := Option.bind_eq_some_iff.mp more
      cases same
      cases item with
      | string s =>
        cases here
        rw [List.map_cons, ← array.inj (ih _ later)]
      | _ => cases here
  | _ => cases read

theorem version_eq_some {v : Json} {shown : Option String} (read : version v = some shown) :
    v = .null ∧ shown = none ∨ ∃ name, v = string name ∧ shown = some name := by
  cases v with
  | null =>
    cases read
    exact .inl ⟨rfl, rfl⟩
  | string name =>
    cases read
    exact .inr ⟨name, rfl, rfl⟩
  | _ => cases read

theorem reparse_texts (read : FloatText → Except String FloatText) (names : List String) :
    (array (names.map string)).reparse read = .ok (array (names.map string)) := by
  have items : Json.reparseItems read (names.map string) = .ok (names.map string) := by
    induction names with
    | nil => rfl
    | cons name rest ih =>
      rw [List.map_cons, Json.reparseItems, ih]
      rfl
  rw [Json.reparse, items]
  rfl

theorem reparse_object {read : FloatText → Except String FloatText} {fields : List (String × Json)}
    (kept : ∀ field ∈ fields, field.2.reparse read = .ok field.2) : (object fields).reparse read = .ok (object fields) := by
  have all : Json.reparseFields read fields = .ok fields := by
    induction fields with
    | nil => rfl
    | cons field rest ih =>
      obtain ⟨here, later⟩ := List.forall_mem_cons.mp kept
      rw [Json.reparseFields, here, ih later]
      rfl
  rw [Json.reparse, all]
  rfl

/-- What the gate takes for a decision has no double in it. -/
theorem reparse_toJson (read : FloatText → Except String FloatText) {decision : PolicyDecision}
    (decided : value.decided approvalId = some decision) : value.toJson.reparse read = .ok value.toJson := by
  cases value with
  | deny reason => cases decided
  | allow approval callsAfter sinks secrets egress policyVersion =>
    obtain ⟨sinks', list, more⟩ := Option.bind_eq_some_iff.mp decided
    obtain ⟨version', shown, -⟩ := Option.bind_eq_some_iff.mp more
    have sinksKept : sinks.reparse read = .ok sinks := by
      rcases texts_eq_some list with ⟨rfl, -⟩ | ⟨names, rfl, -⟩
      · rfl
      · exact reparse_texts read names
    have versionKept : policyVersion.reparse read = .ok policyVersion := by
      rcases version_eq_some shown with ⟨rfl, -⟩ | ⟨name, rfl, -⟩ <;> rfl
    have egressKept : egress.toValue.reparse read = .ok egress.toValue := by
      cases egress with
      | none => rfl
      | proxyAllowlist domains =>
        refine reparse_object (List.forall_mem_singleton.mpr (reparse_object (List.forall_mem_singleton.mpr ?_)))
        exact reparse_texts read domains
    refine reparse_object ?_
    simp only [List.forall_mem_cons, sinksKept, versionKept, egressKept, reparse_texts]
    exact ⟨rfl, rfl, rfl, trivial, trivial, trivial, trivial, List.forall_mem_nil _⟩

theorem parseDecisionStr_ok (printed : Prints serde text value.toJson) (fits : value.Fits) {decision : PolicyDecision} :
    parseDecisionStr serde text input approvalId = .ok decision ↔ value.decided approvalId = some decision := by
  obtain ⟨read, parsed⟩ := printed
  rw [← interpret_decode input fits]
  constructor
  · intro answered
    unfold parseDecisionStr at answered
    cases back : value.toJson.reparse read with
    | error e =>
      rw [parsed, back] at answered
      cases answered
    | ok doc =>
      rw [parsed, back] at answered
      dsimp only at answered
      rw [OpaDecisionResult.stable_decode _ _ _ back] at answered
      cases decoded : decode value.toJson with
      | none =>
        rw [decoded] at answered
        cases answered
      | some result =>
        rw [decoded] at answered
        exact ⟨result, rfl, answered⟩
  · rintro ⟨result, decoded, interpreted⟩
    have decided := (interpret_decode input fits).1 ⟨result, decoded, interpreted⟩
    unfold parseDecisionStr
    rw [parsed, reparse_toJson read decided]
    dsimp only
    rw [decoded]
    exact interpreted

/-- The answer of a server: the object under `result`. -/
def PolicyValue.response (value : PolicyValue) : Json :=
  object [("result", value.toJson)]

theorem decodeResponse_reparse {read : FloatText → Except String FloatText} {doc : Json}
    (back : value.response.reparse read = .ok doc) :
    decodeResponse doc = (decode value.toJson).map some := by
  obtain ⟨fields, inner, rfl⟩ := Except.map_eq_ok.1 back
  obtain ⟨w, rest, head, tail, rfl⟩ := Json.reparseFields_cons.1 inner
  cases tail
  have found : decodeResponse (object [("result", w)]) = AuditEvent.optional decode (some w) := rfl
  have proper : w ≠ .null := fun void => by
    rw [void] at head
    have := Json.reparse_null.1 head
    cases value <;> cases this
  have kept : AuditEvent.optional decode (some w) = (decode w).map some := by
    cases w with
    | null => exact absurd rfl proper
    | _ => rfl
  rw [found, kept, OpaDecisionResult.stable_decode _ _ _ head]

theorem opaEvaluate_ok {status : Nat} {shown : String} (success : 200 ≤ status ∧ status < 300)
    (printed : Prints serde text value.response) (fits : value.Fits) {decision : PolicyDecision} :
    opaEvaluate serde (.answered status shown (.ok text)) input approvalId = .ok decision ↔
      value.decided approvalId = some decision := by
  obtain ⟨read, parsed⟩ := printed
  rw [← interpret_decode input fits]
  unfold opaEvaluate
  dsimp only
  rw [if_neg (by omega), parsed]
  cases back : value.response.reparse read with
  | error e =>
    refine iff_of_false nofun ?_
    rintro ⟨result, decoded, interpreted⟩
    have kept := reparse_toJson read ((interpret_decode input fits).1 ⟨result, decoded, interpreted⟩)
    have whole : value.response.reparse read = .ok value.response := reparse_object (List.forall_mem_singleton.mpr kept)
    rw [whole] at back
    cases back
  | ok doc =>
    dsimp only
    rw [decodeResponse_reparse back]
    cases decode value.toJson with
    | none => simp
    | some result => simp

/-- What is said in the end to a call that the policy lets pass, be it at once or
after an approval. -/
structure Admitted (builtins : Builtins) (data : Json) (input : PolicyInput) (approval : Bool) (callsAfter : Int64)
    (allowed secrets : List String) (egress : EgressProfile) : Prop where
  trusted : input.actionTrustVerdict = .digestOk
  authorised : Policy.EffectivelyHas data input.principal "allowed_actions" input.actionId
  scopes : "tools:call" ∈ input.scopes ∧ ∀ required ∈ input.requiredScopes, required ∈ input.scopes
  budget : 0 < input.callsRemaining ∧ callsAfter.toInt = input.callsRemaining - 1
  sinks : ∀ sink, sink ∈ allowed ↔ Policy.EffectivelyHas data input.principal "allowed_sinks" sink
  requested : ∀ sink ∈ input.requestedSinks, sink ∈ allowed
  secrets : secrets = input.requestedSecrets
  egress : egress = input.egressProfile
  unattended : approval = false → Policy.allowlisted data input.principal input.actionId = true ∨
    input.actionRiskLevel ≠ .high ∧ input.actionRiskLevel ≠ .critical ∧ Policy.fsPathSensitive builtins input = false ∧
      input.unresolvedPaths = [] ∧ input.unresolvedDomains = []

def PolicyDecision.Admitted (builtins : Builtins) (data : Json) (input : PolicyInput) (id : String) : PolicyDecision → Prop
  | .allow calls sinks secrets egress _ => Latchgate.Admitted builtins data input false calls sinks secrets egress
  | .pendingApproval approvalId sinks secrets egress calls _ =>
    approvalId = id ∧ Latchgate.Admitted builtins data input true calls sinks secrets egress
  | .deny _ => False

theorem mem_texts (sink : String) {v : Json} {list : Option (List String)} (read : texts v = some list) :
    sink ∈ list.getD [] ↔ Rego.contains (some v) sink = true := by
  rcases texts_eq_some read with ⟨rfl, rfl⟩ | ⟨names, rfl, rfl⟩
  · simp [Rego.contains, Rego.members]
  · simp [Rego.contains, Rego.members, Rego.isText, Json.asStr?]

variable {builtins : Builtins} {data : Json}

theorem mem_decision_fields {approval : Bool} {callsAfter : Int} {sinks : Json} {secrets : List String}
    {egress : EgressProfile} {policyVersion : Json}
    (member : .allow approval callsAfter sinks secrets egress policyVersion ∈ Policy.decision builtins data input) :
    callsAfter = input.callsRemaining - 1 ∧ secrets = input.requestedSecrets ∧ egress = input.egressProfile := by
  obtain ⟨-, rules⟩ := Policy.allow_mem_decision member
  obtain ⟨b, made⟩ : ∃ b, .allow approval callsAfter sinks secrets egress policyVersion ∈
      Policy.result builtins data input b := by
    rcases rules with skipped | required | allowed
    · exact ⟨false, (Rego.mem_rule.1 skipped).2⟩
    · exact ⟨true, Policy.mem_requireApproval required⟩
    · exact ⟨false, (Rego.mem_rule.1 allowed).2⟩
  obtain ⟨_, -, given⟩ := List.mem_flatMap.mp made
  obtain ⟨_, -, same⟩ := List.mem_map.mp given
  cases same
  exact ⟨rfl, rfl, rfl⟩

theorem fits_of_mem (range : -2 ^ 63 ≤ input.callsRemaining ∧ input.callsRemaining < 2 ^ 63)
    (member : value ∈ Policy.decision builtins data input) : value.Fits := by
  cases value with
  | deny reason => trivial
  | allow approval callsAfter sinks secrets egress policyVersion =>
    obtain ⟨rfl, -, -⟩ := mem_decision_fields member
    have positive := (Policy.allow_mem_decision member).1.budget
    constructor <;> omega

theorem admitted_of_decided (entryTrue : Policy.entry data input.principal ≠ some (.bool false))
    (range : -2 ^ 63 ≤ input.callsRemaining ∧ input.callsRemaining < 2 ^ 63)
    (member : value ∈ Policy.decision builtins data input) {decision : PolicyDecision}
    (decided : value.decided approvalId = some decision) : decision.Admitted builtins data input approvalId := by
  cases value with
  | deny reason => cases decided
  | allow approval callsAfter sinks secrets egress policyVersion =>
    have grounds := Policy.grounds_of_allow entryTrue member
    obtain ⟨rfl, rfl, rfl⟩ := mem_decision_fields member
    obtain ⟨list, read, more⟩ := Option.bind_eq_some_iff.mp decided
    obtain ⟨shown, -, said⟩ := Option.bind_eq_some_iff.mp more
    have all : Admitted builtins data input approval (.ofInt (input.callsRemaining - 1)) (list.getD [])
        input.requestedSecrets input.egressProfile := by
      have sinks (sink : String) := (mem_texts sink read).trans (grounds.returned sink)
      have budget := grounds.budget
      exact {
        trusted := grounds.trusted
        authorised := grounds.authorised
        scopes := ⟨grounds.toolsCall, grounds.scopes⟩
        budget := ⟨budget, Int64.toInt_ofInt_of_le (by omega) (by omega)⟩
        sinks := sinks
        requested := fun sink asked => (sinks sink).mpr (grounds.sinks sink asked)
        secrets := rfl
        egress := rfl
        unattended := grounds.unattended }
    cases approval with
    | false =>
      cases said
      exact all
    | true =>
      obtain ⟨list', rfl, rfl⟩ := Option.map_eq_some_iff.mp said
      exact ⟨rfl, all⟩

end Answer

/-- What the gate makes of the value of an engine, where nothing is undefined. -/
def concludeEmbedded (serde : Serde) (toJsonStr : Json → Except String String) (input : PolicyInput) (approvalId : String) :
    Option Json → Except PolicyError PolicyDecision
  | none => .error (input.denied "embedded policy returned undefined (no matching rule)")
  | some doc =>
    match toJsonStr doc with
    | .error e => .error (.opaResponseInvalid ("regorus result cannot be serialized to JSON: " ++ e))
    | .ok text => parseDecisionStr serde text input approvalId

/-- An evaluator that is loaded with the shipped policy and some data. -/
structure ShippedRego (builtins : Builtins) (Engine : Type) where
  rego : EngineCache.Rego Json Engine PolicyInput (Option Json)
  reusable : rego.Reusable
  shipped : ∀ data engine, rego.build data = .ok engine → ∀ input,
    ∃ value ∈ Policy.decision builtins data input, (rego.eval engine input).2 = .ok (some value.toJson)

/-- The policy itself as an evaluator. -/
def plainRego (builtins : Builtins) : ShippedRego builtins Json where
  rego :=
    { build := .ok
      eval := fun data input => (data, .ok (some ((Policy.decision builtins data input).head Policy.decision_ne_nil).toJson)) }
  reusable := by
    intro data engine built inputs input
    obtain rfl := Except.ok.inj built
    induction inputs with
    | nil => rfl
    | cons first rest ih => exact ih
  shipped := by
    intro data engine built input
    obtain rfl := Except.ok.inj built
    exact ⟨_, List.head_mem _, rfl⟩

def plainBuiltins : Builtins where
  globMatch := fun _ _ _ => false
  showArray := fun _ => ""
  showSet := fun _ => ""
  sort := id
  mem_sort := fun _ _ => Iff.rfl

def readerData : Json :=
  object [("acl", object [("agent", object [("allowed_actions", array [string "http_read"]),
    ("allowed_sinks", array [string "http_read"])])]), ("policy_version", string "v1")]

def readerInput : PolicyInput :=
  { Policy.blockedInput with requestedSinks := ["http_read"] }

def readerValue : PolicyValue :=
  .allow false 4 (array [string "http_read"]) [] .none (string "v1")

def readerDecision : PolicyDecision :=
  .allow 4 ["http_read"] [] .none (some "v1")

/-- It knows two texts. -/
def pairSerde (first second : String) (one other : Json) : Serde where
  parse := fun text => if text = first then .ok one else if text = second then .ok other else .error "expected value"
  complain := fun _ => "invalid type"

def readerSerde : Serde :=
  pairSerde readerValue.response.toCompactString readerValue.toJson.toCompactString readerValue.response readerValue.toJson

theorem reader_decision : Policy.decision plainBuiltins readerData readerInput = [readerValue] := by
  rfl

theorem pairSerde_prints {first second : String} (apart : second ≠ first) (one other : Json) :
    Prints (pairSerde first second one other) first one ∧ Prints (pairSerde first second one other) second other := by
  refine ⟨⟨.ok, ?_⟩, .ok, ?_⟩
  · rw [Json.reparse_ok]
    exact if_pos rfl
  · rw [Json.reparse_ok]
    exact (if_neg apart).trans (if_pos rfl)

theorem reader_prints : Prints readerSerde readerValue.response.toCompactString readerValue.response ∧
    Prints readerSerde readerValue.toJson.toCompactString readerValue.toJson := by
  refine pairSerde_prints (fun same => ?_) _ _
  -- the third character tells the two texts apart
  have third := congrArg (fun text : String => text.toList[2]?) same
  simp only [Json.toCompactString, String.toList_ofList] at third
  cases third

theorem reader_fits : readerValue.Fits :=
  show -2 ^ 63 ≤ (4 : Int) ∧ (4 : Int) < 2 ^ 63 by decide

theorem reader_entry : Policy.entry readerData readerInput.principal ≠ some (.bool false) := by
  simp [Policy.entry, readerData, Rego.at_, Json.get?, readerInput, Policy.blockedInput]

theorem plainRego_reader : (plainRego plainBuiltins).rego.fresh readerData readerInput = .ok (some readerValue.toJson) := by
  have asked : (plainRego plainBuiltins).rego.fresh readerData readerInput =
      .ok (some ((Policy.decision plainBuiltins readerData readerInput).head Policy.decision_ne_nil).toJson) := rfl
  rw [asked]
  simp only [reader_decision, List.head_cons]

end Latchgate
