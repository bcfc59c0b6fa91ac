import Latchgate.Json.Sorted
import Mathlib.Algebra.Group.Int.Defs

namespace Latchgate

inductive EventType where
  | actionCall
  | leaseIssued
  | leaseRevoked
  | approvalGranted
  | approvalDenied
  | adminRevokeAll
  | adminEpochRead
  | adminReceiptKeysRead
  | adminDrain
  | adminReload
  | domainAdd
  | domainRemove
  | domainClear
  | pathAdd
  | pathRemove
  | pathClear
  | policyGrant
  | policyRevoke
  | policyAllowlistAdded
  | policyAllowlistRemoved
  | budgetRollbackFailed
  deriving DecidableEq

def EventType.asStr : EventType → String
  | actionCall => "action_call"
  | leaseIssued => "lease_issued"
  | leaseRevoked => "lease_revoked"
  | approvalGranted => "approval_granted"
  | approvalDenied => "approval_denied"
  | adminRevokeAll => "admin_revoke_all"
  | adminEpochRead => "admin_epoch_read"
  | adminReceiptKeysRead => "admin_receipt_keys_read"
  | adminDrain => "admin_drain"
  | adminReload => "admin_reload"
  | domainAdd => "domain_add"
  | domainRemove => "domain_remove"
  | domainClear => "domain_clear"
  | pathAdd => "path_add"
  | pathRemove => "path_remove"
  | pathClear => "path_clear"
  | policyGrant => "policy_grant"
  | policyRevoke => "policy_revoke"
  | policyAllowlistAdded => "policy_allowlist_added"
  | policyAllowlistRemoved => "policy_allowlist_removed"
  | budgetRollbackFailed => "budget_rollback_failed"

def EventType.all : List EventType :=
  [actionCall, leaseIssued, leaseRevoked, approvalGranted, approvalDenied, adminRevokeAll, adminEpochRead,
    adminReceiptKeysRead, adminDrain, adminReload, domainAdd, domainRemove, domainClear, pathAdd, pathRemove,
    pathClear, policyGrant, policyRevoke, policyAllowlistAdded, policyAllowlistRemoved, budgetRollbackFailed]

inductive Decision where
  | allow
  | allowUnverified
  | deny
  | pendingApproval
  | error
  deriving DecidableEq

def Decision.asStr : Decision → String
  | allow => "allow"
  | allowUnverified => "allow_unverified"
  | deny => "deny"
  | pendingApproval => "pending_approval"
  | error => "error"

def Decision.all : List Decision :=
  [allow, allowUnverified, deny, pendingApproval, error]

structure AuditSubject where
  principal : String := ""
  sessionId : String := ""
  leaseJti : String := ""
  identityMethod : Option String := none
  owner : Option String := none
  deriving DecidableEq

structure AuditAction where
  actionId : String := ""
  actionVersion : Option String := none
  actionDigest : String := ""
  actionTrustVerdict : String := ""
  riskLevel : Option String := none
  deriving DecidableEq

structure AuditRequest where
  requestHash : String := ""
  requestSchemaId : Option String := none
  deriving DecidableEq

structure AuditPolicy where
  policyVersion : Option String := none
  decision : Decision := .error
  denyReason : Option String := none
  allowedSinks : List String := []
  deriving DecidableEq

structure RuntimeAudit where
  moduleDigest : String
  egressProfile : String
  durationMs : UInt64
  exitCode : Int64
  timeoutHit : Bool
  fuelConsumed : UInt64
  ioCallsMade : UInt32
  deriving DecidableEq

structure AuditExecution where
  runtime : Option RuntimeAudit := none
  responseHash : Option String := none
  responseBytes : Option UInt64 := none
  grantId : Option String := none
  receiptId : Option String := none
  verificationOutcome : Option String := none
  deriving DecidableEq

structure AuditApproval where
  approvalId : Option String := none
  approvedBy : Option String := none
  operatorAuthnMethod : Option String := none
  operatorSenderBinding : Option String := none
  operatorProofJti : Option String := none
  deriving DecidableEq

structure AuditEvent where
  traceId : String
  timestamp : String
  eventType : EventType
  subject : AuditSubject := {}
  action : AuditAction := {}
  request : AuditRequest := {}
  policy : AuditPolicy := {}
  budgetsBefore : Option Json := none
  budgetsAfter : Option Json := none
  execution : AuditExecution := {}
  approval : AuditApproval := {}
  prevHash : Option String := none
  devMode : Bool := false
  sandboxDegraded : Bool := false

namespace AuditEvent
open Json (string number array object)

variable {α : Type}

def nullable (encode : α → Json) : Option α → Json
  | none => .null
  | some a => encode a

def encodeRuntime (r : RuntimeAudit) : Json :=
  object [("module_digest", string r.moduleDigest), ("egress_profile", string r.egressProfile),
    ("duration_ms", number (.int r.durationMs.toNat)), ("exit_code", number (.int r.exitCode.toInt)),
    ("timeout_hit", .bool r.timeoutHit), ("fuel_consumed", number (.int r.fuelConsumed.toNat)),
    ("io_calls_made", number (.int r.ioCallsMade.toNat))]

/-- The members of the flat object in the order they are written; a member
without a value is skipped. -/
def members (e : AuditEvent) : List (String × Option Json) :=
  [("trace_id", some (string e.traceId)), ("timestamp", some (string e.timestamp)),
    ("event_type", some (string e.eventType.asStr)),
    ("principal", some (string e.subject.principal)), ("session_id", some (string e.subject.sessionId)),
    ("lease_jti", some (string e.subject.leaseJti)), ("identity_method", e.subject.identityMethod.map string),
    ("owner", e.subject.owner.map string),
    ("action_id", some (string e.action.actionId)), ("action_version", some (nullable string e.action.actionVersion)),
    ("action_digest", some (string e.action.actionDigest)),
    ("action_trust_verdict", some (string e.action.actionTrustVerdict)),
    ("risk_level", e.action.riskLevel.map string),
    ("request_hash", some (string e.request.requestHash)),
    ("request_schema_id", some (nullable string e.request.requestSchemaId)),
    ("policy_version", some (nullable string e.policy.policyVersion)),
    ("decision", some (string e.policy.decision.asStr)),
    ("deny_reason", some (nullable string e.policy.denyReason)),
    ("allowed_sinks", some (array (e.policy.allowedSinks.map string))),
    ("budgets_before", some (nullable id e.budgetsBefore)), ("budgets_after", some (nullable id e.budgetsAfter)),
    ("runtime", some (nullable encodeRuntime e.execution.runtime)),
    ("response_hash", some (nullable string e.execution.responseHash)),
    ("response_bytes", some (nullable (fun n : UInt64 => number (.int n.toNat)) e.execution.responseBytes)),
    ("grant_id", e.execution.grantId.map string), ("receipt_id", e.execution.receiptId.map string),
    ("verification_outcome", e.execution.verificationOutcome.map string),
    ("approval_id", e.approval.approvalId.map string), ("approved_by", e.approval.approvedBy.map string),
    ("operator_authn_method", e.approval.operatorAuthnMethod.map string),
    ("operator_sender_binding", e.approval.operatorSenderBinding.map string),
    ("operator_proof_jti", e.approval.operatorProofJti.map string),
    ("prev_hash", some (nullable string e.prevHash)),
    ("dev_mode", some (.bool e.devMode)), ("sandbox_degraded", some (.bool e.sandboxDegraded))]

def fields (e : AuditEvent) : List (String × Json) :=
  e.members.filterMap fun member => member.2.map fun value => (member.1, value)

/-- `serde_json::to_string` of an event. -/
def toText (e : AuditEvent) : String :=
  (object e.fields).toCompactString

/-! The typed reading of a document: every member is found by its name. -/

def decodeBool : Json → Option Bool
  | .bool b => some b
  | _ => none

def decodeI64 : Json → Option Int64
  | number (.int z) => if -2 ^ 63 ≤ z ∧ z < 2 ^ 63 then some (.ofInt z) else none
  | _ => none

def decodeU32 : Json → Option UInt32
  | number (.int (.ofNat n)) => if n < UInt32.size then some (.ofNat n) else none
  | _ => none

/-- A member of type `Option`: absent, null or a value. -/
def optional (decode : Json → Option α) : Option Json → Option (Option α) :=
  Json.decodeOr none (Json.decodeNullable decode)

def required (decode : Json → Option α) : Option Json → Option α :=
  Json.decodeRequired decode

def runtimeNames : List String :=
  ["module_digest", "egress_profile", "duration_ms", "exit_code", "timeout_hit", "fuel_consumed", "io_calls_made"]

def decodeRuntime (v : Json) : Option RuntimeAudit := do
  let get ← v.members runtimeNames
  let moduleDigest ← required Json.asStr? (get "module_digest")
  let egressProfile ← required Json.asStr? (get "egress_profile")
  let durationMs ← required Json.decodeU64 (get "duration_ms")
  let exitCode ← required decodeI64 (get "exit_code")
  let timeoutHit ← required decodeBool (get "timeout_hit")
  let fuelConsumed ← required Json.decodeU64 (get "fuel_consumed")
  let ioCallsMade ← required decodeU32 (get "io_calls_made")
  some { moduleDigest, egressProfile, durationMs, exitCode, timeoutHit, fuelConsumed, ioCallsMade }

section Readers
variable (get : String → Option Json)

def decodeSubject : Option AuditSubject := do
  let principal ← required Json.asStr? (get "principal")
  let sessionId ← required Json.asStr? (get "session_id")
  let leaseJti ← required Json.asStr? (get "lease_jti")
  let identityMethod ← optional Json.asStr? (get "identity_method")
  let owner ← optional Json.asStr? (get "owner")
  some { principal, sessionId, leaseJti, identityMethod, owner }

def decodeAction : Option AuditAction := do
  let actionId ← required Json.asStr? (get "action_id")
  let actionVersion ← optional Json.asStr? (get "action_version")
  let actionDigest ← required Json.asStr? (get "action_digest")
  let actionTrustVerdict ← required Json.asStr? (get "action_trust_verdict")
  let riskLevel ← optional Json.asStr? (get "risk_level")
  some { actionId, actionVersion, actionDigest, actionTrustVerdict, riskLevel }

def decodeRequest : Option AuditRequest := do
  let requestHash ← required Json.asStr? (get "request_hash")
  let requestSchemaId ← optional Json.asStr? (get "request_schema_id")
  some { requestHash, requestSchemaId }

def decodePolicy : Option AuditPolicy := do
  let policyVersion ← optional Json.asStr? (get "policy_version")
  let decision ← required (Json.decodeVariant (Decision.all.map fun d => (d.asStr, d))) (get "decision")
  let denyReason ← optional Json.asStr? (get "deny_reason")
  let allowedSinks ← Json.decodeOr [] (Json.decodeList Json.asStr?) (get "allowed_sinks")
  some { policyVersion, decision, denyReason, allowedSinks }

def decodeExecution : Option AuditExecution := do
  let runtime ← optional decodeRuntime (get "runtime")
  let responseHash ← optional Json.asStr? (get "response_hash")
  let responseBytes ← optional Json.decodeU64 (get "response_bytes")
  let grantId ← optional Json.asStr? (get "grant_id")
  let receiptId ← optional Json.asStr? (get "receipt_id")
  let verificationOutcome ← optional Json.asStr? (get "verification_outcome")
  some { runtime, responseHash, responseBytes, grantId, receiptId, verificationOutcome }

def decodeApproval : Option AuditApproval := do
  let approvalId ← optional Json.asStr? (get "approval_id")
  let approvedBy ← optional Json.asStr? (get "approved_by")
  let operatorAuthnMethod ← optional Json.asStr? (get "operator_authn_method")
  let operatorSenderBinding ← optional Json.asStr? (get "operator_sender_binding")
  let operatorProofJti ← optional Json.asStr? (get "operator_proof_jti")
  some { approvalId, approvedBy, operatorAuthnMethod, operatorSenderBinding, operatorProofJti }

end Readers

def decode (v : Json) : Option AuditEvent := do
  let traceId ← required Json.asStr? (v.get? "trace_id")
  let timestamp ← required Json.asStr? (v.get? "timestamp")
  let eventType ← required (Json.decodeVariant (EventType.all.map fun t => (t.asStr, t))) (v.get? "event_type")
  let subject ← decodeSubject v.get?
  let action ← decodeAction v.get?
  let request ← decodeRequest v.get?
  let policy ← decodePolicy v.get?
  let budgetsBefore ← optional some (v.get? "budgets_before")
  let budgetsAfter ← optional some (v.get? "budgets_after")
  let execution ← decodeExecution v.get?
  let approval ← decodeApproval v.get?
  let prevHash ← optional Json.asStr? (v.get? "prev_hash")
  let devMode ← required decodeBool (v.get? "dev_mode")
  let sandboxDegraded ← required decodeBool (v.get? "sandbox_degraded")
  some
    { traceId, timestamp, eventType, subject, action, request, policy, budgetsBefore, budgetsAfter, execution
      approval, prevHash, devMode, sandboxDegraded }

/-! An event that was written is read back, up to the doubles in its budgets. -/

variable {read : FloatText → Except String FloatText} {e : AuditEvent} {get : String → Option Json}

/-- A reader finds under each name what was written under it. -/
def ReadBack (read : FloatText → Except String FloatText) (e : AuditEvent) (get : String → Option Json) : Prop :=
  ∀ name, ∃ u, Json.Reread read (e.members.lookup name).join u ∧ get name = u.map Json.sorted

/-- What is written is read as `a`, whatever its doubles become. -/
def Reads (decode : Json → Option α) (written : Json) (a : α) : Prop :=
  ∀ (read : FloatText → Except String FloatText) w, written.reparse read = .ok w → decode w.sorted = some a

theorem names_nodup (e : AuditEvent) : (e.members.map Prod.fst).Nodup := by
  simp [members]

theorem lookup_of_getElem? {entries : List (String × Option Json)} (distinct : (entries.map Prod.fst).Nodup) {i : Nat}
    {name : String} {value : Option Json} (found : entries[i]? = some (name, value)) :
    entries.lookup name = some value := by
  induction entries generalizing i with
  | nil => simp at found
  | cons entry rest ih =>
    obtain ⟨key, v⟩ := entry
    obtain ⟨fresh, others⟩ := List.nodup_cons.mp distinct
    cases i with
    | zero =>
      obtain ⟨rfl, rfl⟩ := Prod.mk.inj (Option.some.inj found)
      simp
    | succ i =>
      have member : (name, value) ∈ rest := List.mem_of_getElem? found
      have differs : name ≠ key := by
        rintro rfl
        exact fresh (List.mem_map.mpr ⟨(name, value), member, rfl⟩)
      have other : (name == key) = false := by simpa using differs
      rw [List.lookup_cons, other]
      exact ih others found

theorem lookup_filterMap {entries : List (String × Option Json)} (distinct : (entries.map Prod.fst).Nodup)
    (name : String) :
    (entries.filterMap fun member => member.2.map fun value => (member.1, value)).lookup name =
      (entries.lookup name).join := by
  induction entries with
  | nil => rfl
  | cons entry rest ih =>
    obtain ⟨key, v⟩ := entry
    obtain ⟨fresh, others⟩ := List.nodup_cons.mp distinct
    have later := ih others
    by_cases same : name = key
    · subst same
      have absent : rest.lookup name = none := by
        refine List.lookup_eq_none_iff.mpr ?_
        intro found member
        have differs : name ≠ found.1 := by
          intro same
          exact fresh (List.mem_map.mpr ⟨found, member, same.symm⟩)
        simpa using differs
      rw [absent, Option.join_none] at later
      cases v with
      | none => simpa using later
      | some value => simp
    · have other : (name == key) = false := by simpa using same
      cases v <;> simpa [List.lookup_cons, other] using later

/-- What the parser makes of the text of an event. -/
theorem readBack_of_reparse {w : Json} (reparsed : (object e.fields).reparse read = .ok w) :
    ReadBack read e w.sorted.get? := by
  obtain ⟨others, inner, rfl⟩ := Except.map_eq_ok.1 reparsed
  have distinct : (e.fields.map Prod.fst).Nodup := by
    refine List.Nodup.sublist ?_ e.names_nodup
    unfold fields
    generalize e.members = entries
    induction entries with
    | nil => exact .slnil
    | cons entry rest ih =>
      obtain ⟨key, v⟩ := entry
      cases v with
      | none => exact ih.cons key
      | some value => exact ih.cons_cons key
  intro name
  refine ⟨others.lookup name, ?_, ?_⟩
  · rw [← lookup_filterMap e.names_nodup]
    exact Json.reparseFields_lookup inner name
  · refine Json.get?_sorted_object name ?_
    rw [Json.map_fst_reparseFields inner]
    exact distinct

namespace ReadBack

theorem required_at (back : ReadBack read e get) (i : Nat) {name : String} {written : Json}
    (place : e.members[i]? = some (name, some written)) {decode : Json → Option α} {a : α}
    (reads : Reads decode written a) : required decode (get name) = some a := by
  obtain ⟨u, alike, found⟩ := back name
  rw [lookup_of_getElem? e.names_nodup place] at alike
  cases alike with
  | present reparsed =>
    rw [found]
    exact reads read _ reparsed

theorem nullable_at (back : ReadBack read e get) (i : Nat) (encode : α → Json) (value : Option α) {name : String}
    (place : e.members[i]? = some (name, some (nullable encode value))) {decode : Json → Option α}
    (reads : ∀ a, Reads decode (encode a) a) (void : decode .null = none) :
    optional decode (get name) = some value := by
  obtain ⟨u, alike, found⟩ := back name
  rw [lookup_of_getElem? e.names_nodup place] at alike
  cases alike with
  | @present _ w reparsed =>
    rw [found]
    cases value with
    | none =>
      cases reparsed
      rfl
    | some a =>
      have decoded := reads a read w reparsed
      have notNull : w.sorted ≠ .null := by
        intro same
        rw [same, void] at decoded
        cases decoded
      simp [optional, Json.decodeOr, Json.decodeNullable, decoded]

theorem skipped_at (back : ReadBack read e get) (i : Nat) (value : Option String) {name : String}
    (place : e.members[i]? = some (name, value.map string)) : optional Json.asStr? (get name) = some value := by
  obtain ⟨u, alike, found⟩ := back name
  rw [lookup_of_getElem? e.names_nodup place] at alike
  cases value with
  | none =>
    cases alike
    rw [found]
    rfl
  | some text =>
    cases alike with
    | present reparsed =>
      cases reparsed
      rw [found]
      rfl

/-- Whatever the budgets are read back as, they are some document or none. -/
theorem budget_at (back : ReadBack read e get) (i : Nat) (value : Option Json) {name : String}
    (place : e.members[i]? = some (name, some (nullable id value))) : ∃ b, optional some (get name) = some b := by
  obtain ⟨u, alike, found⟩ := back name
  rw [lookup_of_getElem? e.names_nodup place] at alike
  cases alike with
  | @present _ w reparsed =>
    rw [found]
    cases same : w.sorted <;> exact ⟨_, by simp [optional, Json.decodeOr, Json.decodeNullable, same]; rfl⟩

end ReadBack

theorem reads_string {decode : Json → Option α} {text : String} {a : α} (decoded : decode (string text) = some a) :
    Reads decode (string text) a := by
  intro read w reparsed
  cases reparsed
  exact decoded

theorem reads_text (text : String) : Reads Json.asStr? (string text) text :=
  reads_string rfl

theorem reads_int {decode : Json → Option α} {z : Int} {a : α} (decoded : decode (number (.int z)) = some a) :
    Reads decode (number (.int z)) a := by
  intro read w reparsed
  cases reparsed
  exact decoded

theorem reads_u64 (n : UInt64) : Reads Json.decodeU64 (number (.int n.toNat)) n :=
  reads_int (Json.decodeU64_toNat n)

theorem reads_u32 (n : UInt32) : Reads decodeU32 (number (.int n.toNat)) n := by
  refine reads_int ?_
  have bound : n.toNat < UInt32.size := n.toNat_lt_size
  have read : decodeU32 (number (.int n.toNat)) = if n.toNat < UInt32.size then some (.ofNat n.toNat) else none := rfl
  rw [read, if_pos bound, UInt32.ofNat_toNat]

theorem reads_i64 (n : Int64) : Reads decodeI64 (number (.int n.toInt)) n := by
  refine reads_int ?_
  have low := n.le_toInt
  have high := n.toInt_lt
  have read : decodeI64 (number (.int n.toInt)) =
      if -2 ^ 63 ≤ n.toInt ∧ n.toInt < 2 ^ 63 then some (.ofInt n.toInt) else none := rfl
  rw [read, if_pos ⟨low, high⟩, Int64.ofInt_toInt]

theorem reads_bool (b : Bool) : Reads decodeBool (.bool b) b := by
  intro read w reparsed
  cases reparsed
  rfl

theorem reads_texts (texts : List String) :
    Reads (Json.decodeList Json.asStr?) (array (texts.map string)) texts := by
  intro read w reparsed
  obtain ⟨others, inner, rfl⟩ := Except.map_eq_ok.1 reparsed
  have same : others = texts.map string := by
    clear reparsed
    induction texts generalizing others with
    | nil =>
      cases inner
      rfl
    | cons text rest ih =>
      obtain ⟨w, more, head, tail, rfl⟩ := Json.reparseItems_cons.1 inner
      cases head
      rw [ih more tail, List.map_cons]
  have plain : (texts.map string).map Json.sorted = texts.map string := by
    rw [List.map_map]
    rfl
  have inverse : ∀ text, Json.asStr? (string text) = some text := fun _ => rfl
  rw [same, Json.sorted, Json.sortedItems_eq_map, plain]
  exact Json.decodeList_map inverse texts

/-- The members of an object without a key twice, as a typed reader finds them
in the map of the parser. -/
theorem lookup_sorted (names : List String) {fields : List (String × Json)} (distinct : (fields.map Prod.fst).Nodup) :
    ∃ found, (Json.sorted (object fields)).members names = some found ∧
      ∀ name, found name = (fields.lookup name).map Json.sorted :=
  ⟨_, rfl, fun name => Json.get?_sorted_object name distinct⟩

theorem reads_runtime (r : RuntimeAudit) : Reads decodeRuntime (encodeRuntime r) r := by
  intro read w reparsed
  have kept : (encodeRuntime r).reparse read = .ok (encodeRuntime r) := rfl
  rw [kept] at reparsed
  cases reparsed
  have distinct : (([("module_digest", string r.moduleDigest), ("egress_profile", string r.egressProfile),
    ("duration_ms", number (.int r.durationMs.toNat)), ("exit_code", number (.int r.exitCode.toInt)),
    ("timeout_hit", .bool r.timeoutHit), ("fuel_consumed", number (.int r.fuelConsumed.toNat)),
    ("io_calls_made", number (.int r.ioCallsMade.toNat))] : List (String × Json)).map Prod.fst).Nodup := by
    simp
  obtain ⟨found, isObject, named⟩ := lookup_sorted runtimeNames distinct
  have durationMs := Json.decodeU64_toNat r.durationMs
  have exitCode : decodeI64 (number (.int r.exitCode.toInt)) = some r.exitCode := reads_i64 r.exitCode read _ rfl
  have fuelConsumed := Json.decodeU64_toNat r.fuelConsumed
  have ioCallsMade : decodeU32 (number (.int r.ioCallsMade.toNat)) = some r.ioCallsMade :=
    reads_u32 r.ioCallsMade read _ rfl
  unfold decodeRuntime encodeRuntime
  rw [isObject]
  simp [named, List.lookup_cons, required, Json.sorted, Json.asStr?, decodeBool, durationMs, exitCode, fuelConsumed,
    ioCallsMade]

theorem eventType_decoded (t : EventType) :
    Json.decodeVariant (EventType.all.map fun t => (t.asStr, t)) (string t.asStr) = some t := by
  cases t <;> rfl

theorem decision_decoded (d : Decision) :
    Json.decodeVariant (Decision.all.map fun d => (d.asStr, d)) (string d.asStr) = some d := by
  cases d <;> rfl

section Groups
variable (back : ReadBack read e get)
include back

theorem decodeSubject_eq : decodeSubject get = some e.subject := by
  have principal := back.required_at 3 rfl (reads_text e.subject.principal)
  have sessionId := back.required_at 4 rfl (reads_text e.subject.sessionId)
  have leaseJti := back.required_at 5 rfl (reads_text e.subject.leaseJti)
  have identityMethod := back.skipped_at 6 e.subject.identityMethod rfl
  have owner := back.skipped_at 7 e.subject.owner rfl
  simp [decodeSubject, principal, sessionId, leaseJti, identityMethod, owner]

theorem decodeAction_eq : decodeAction get = some e.action := by
  have actionId := back.required_at 8 rfl (reads_text e.action.actionId)
  have actionVersion := back.nullable_at 9 string e.action.actionVersion rfl reads_text rfl
  have actionDigest := back.required_at 10 rfl (reads_text e.action.actionDigest)
  have actionTrustVerdict := back.required_at 11 rfl (reads_text e.action.actionTrustVerdict)
  have riskLevel := back.skipped_at 12 e.action.riskLevel rfl
  simp [decodeAction, actionId, actionVersion, actionDigest, actionTrustVerdict, riskLevel]

theorem decodeRequest_eq : decodeRequest get = some e.request := by
  have requestHash := back.required_at 13 rfl (reads_text e.request.requestHash)
  have requestSchemaId := back.nullable_at 14 string e.request.requestSchemaId rfl reads_text rfl
  simp [decodeRequest, requestHash, requestSchemaId]

theorem decodePolicy_eq : decodePolicy get = some e.policy := by
  have policyVersion := back.nullable_at 15 string e.policy.policyVersion rfl reads_text rfl
  have decision := back.required_at 16 rfl (reads_string (decision_decoded e.policy.decision))
  have denyReason := back.nullable_at 17 string e.policy.denyReason rfl reads_text rfl
  have allowedSinks := back.required_at 18 rfl (reads_texts e.policy.allowedSinks)
  have listed : Json.decodeOr [] (Json.decodeList Json.asStr?) (get "allowed_sinks") = some e.policy.allowedSinks := by
    cases found : get "allowed_sinks" with
    | none =>
      rw [found] at allowedSinks
      cases allowedSinks
    | some v => simpa [found, required] using allowedSinks
  simp [decodePolicy, policyVersion, decision, denyReason, listed]

theorem decodeExecution_eq : decodeExecution get = some e.execution := by
  have runtime := back.nullable_at 21 encodeRuntime e.execution.runtime rfl reads_runtime rfl
  have responseHash := back.nullable_at 22 string e.execution.responseHash rfl reads_text rfl
  have responseBytes := back.nullable_at 23 _ e.execution.responseBytes rfl reads_u64 rfl
  have grantId := back.skipped_at 24 e.execution.grantId rfl
  have receiptId := back.skipped_at 25 e.execution.receiptId rfl
  have verificationOutcome := back.skipped_at 26 e.execution.verificationOutcome rfl
  simp [decodeExecution, runtime, responseHash, responseBytes, grantId, receiptId, verificationOutcome]

theorem decodeApproval_eq : decodeApproval get = some e.approval := by
  have approvalId := back.skipped_at 27 e.approval.approvalId rfl
  have approvedBy := back.skipped_at 28 e.approval.approvedBy rfl
  have operatorAuthnMethod := back.skipped_at 29 e.approval.operatorAuthnMethod rfl
  have operatorSenderBinding := back.skipped_at 30 e.approval.operatorSenderBinding rfl
  have operatorProofJti := back.skipped_at 31 e.approval.operatorProofJti rfl
  simp [decodeApproval, approvalId, approvedBy, operatorAuthnMethod, operatorSenderBinding, operatorProofJti]

end Groups

/-- The document of an event is read as the event, up to its budgets. -/
theorem decode_of_reparse {w : Json} (reparsed : (object e.fields).reparse read = .ok w) :
    ∃ before after, decode w.sorted = some { e with budgetsBefore := before, budgetsAfter := after } := by
  have back := readBack_of_reparse reparsed
  have traceId := back.required_at 0 rfl (reads_text e.traceId)
  have timestamp := back.required_at 1 rfl (reads_text e.timestamp)
  have eventType := back.required_at 2 rfl (reads_string (eventType_decoded e.eventType))
  obtain ⟨before, budgetsBefore⟩ := back.budget_at 19 e.budgetsBefore rfl
  obtain ⟨after, budgetsAfter⟩ := back.budget_at 20 e.budgetsAfter rfl
  have prevHash := back.nullable_at 32 string e.prevHash rfl reads_text rfl
  have devMode := back.required_at 33 rfl (reads_bool e.devMode)
  have sandboxDegraded := back.required_at 34 rfl (reads_bool e.sandboxDegraded)
  refine ⟨before, after, ?_⟩
  simp [decode, traceId, timestamp, eventType, budgetsBefore, budgetsAfter, prevHash, devMode, sandboxDegraded,
    decodeSubject_eq back, decodeAction_eq back, decodeRequest_eq back, decodePolicy_eq back, decodeExecution_eq back,
    decodeApproval_eq back]

end AuditEvent
end Latchgate
