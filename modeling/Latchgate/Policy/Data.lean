import Latchgate.Json.Sorted
import Latchgate.Registry.Store
import Mathlib.Data.List.Dedup
import Mathlib.Data.List.Sort
import Mathlib.Data.String.Basic

namespace Latchgate

/-- A change of the policy document fails with a text, or the task that makes
it panics. -/
inductive EditError where
  | failed (detail : String)
  | panicked
  deriving DecidableEq

/-- What a request is answered when it is refused. -/
structure ApiError where
  status : Nat
  error : String
  fields : List (String × String) := []
  deriving DecidableEq

namespace PolicyData

/-- A sorted set of texts as a list. -/
def sortedTexts (texts : List String) : List String :=
  texts.dedup.insertionSort (· ≤ ·)

@[simp] theorem mem_sortedTexts {text : String} {texts : List String} : text ∈ sortedTexts texts ↔ text ∈ texts := by
  simp [sortedTexts]

def textArray (texts : List String) : Json :=
  .array (texts.map .string)

def asObject? : Json → Option (List (String × Json))
  | .object fields => some fields
  | _ => none

def removeField (key : String) (fields : List (String × Json)) : List (String × Json) :=
  fields.filter fun field => field.1 ≠ key

def rootObject (doc : Json) : Except EditError (List (String × Json)) :=
  match asObject? doc with
  | some root => .ok root
  | none => .error (.failed "policy document root is not a JSON object")

/-- The fields under a key, or none where the value is not an object. -/
def objectUnder (key : String) (fields : List (String × Json)) : List (String × Json) :=
  ((fields.lookup key).bind asObject?).getD []

section Version

/-- The text up to the last hyphen, with it, and what follows. -/
def splitLast : List Char → Option (List Char × List Char)
  | [] => none
  | c :: rest =>
    match splitLast rest with
    | some (before, after) => some (c :: before, after)
    | none => if c = '-' then some ([c], rest) else none

/-- What is left of a number without its plus. -/
def unsigned : List Char → List Char
  | '+' :: rest => rest
  | text => text

def parseU64 (text : List Char) : Option Nat :=
  let digits := unsigned text
  if digits = [] ∨ digits.any (fun c => !c.isDigit) then none
  else if Nat.ofDigitChars 10 digits 0 < 2 ^ 64 then some (Nat.ofDigitChars 10 digits 0)
  else none

/-- The suffix is a 64-bit number, and adding to the largest panics. -/
def nextVersion (current : String) : Except EditError String :=
  match splitLast current.toList with
  | some (before, suffix) =>
    match parseU64 suffix with
    | some n =>
      if n + 1 < 2 ^ 64 then .ok (String.ofList (before ++ (n + 1).repr.toList)) else .error .panicked
    | none => .ok (current ++ "-1")
  | none => if current = "" then .ok "v1" else .ok (current ++ "-1")

def versionText (doc : Json) : String :=
  ((doc.get? "policy_version").bind Json.asStr?).getD ""

def incrementVersion (doc : Json) : Except EditError Json := do
  let root ← rootObject doc
  let version ← nextVersion (versionText doc)
  .ok (.object (Json.insertField "policy_version" (.string version) root))

end Version

section Acl

/-- The `acl` object, an empty one where there is none. -/
def ensureAclObject (doc : Json) : Except EditError (List (String × Json)) :=
  (rootObject doc).map (objectUnder "acl")

def putAcl (doc : Json) (acl : List (String × Json)) : Json :=
  .object (Json.insertField "acl" (.object acl) ((asObject? doc).getD []))

def entryObject (entry : Json) : Except EditError (List (String × Json)) :=
  match asObject? entry with
  | some fields => .ok fields
  | none => .error (.failed "ACL entry is not an object")

/-- The texts of the list of actions; what is not a text is passed over. -/
def currentActions (entry : List (String × Json)) : List String :=
  (((entry.lookup "allowed_actions").bind Json.asArray?).getD []).filterMap Json.asStr?

def deriveSinks (registry : RegistryStore) (actions : List String) : List String :=
  sortedTexts (actions.flatMap fun actionId => ((registry.getAction actionId).map ActionSpec.declaredSideEffects).getD [])

def withActions (registry : RegistryStore) (actions : List String) (entry : List (String × Json)) : Json :=
  .object (Json.insertField "allowed_sinks" (textArray (deriveSinks registry actions))
    (Json.insertField "allowed_actions" (textArray actions) entry))

def emptyEntry : Json :=
  .object [("allowed_actions", .array []), ("allowed_sinks", .array [])]

def grantActions (registry : RegistryStore) (principal : String) (actions : List String) (doc : Json) :
    Except EditError Json := do
  let acl ← ensureAclObject doc
  let entry ← entryObject ((acl.lookup principal).getD emptyEntry)
  let current := sortedTexts (currentActions entry ++ actions)
  incrementVersion (putAcl doc (Json.insertField principal (withActions registry current entry) acl))

/-- What is left of an entry's actions. -/
def remainingActions (actions : List String) (entry : List (String × Json)) : List String :=
  sortedTexts ((currentActions entry).filter fun action => action ∉ actions)

/-- Nothing is written for a principal without an entry, and an entry without
actions is removed. -/
def revokeActions (registry : RegistryStore) (principal : String) (actions : List String) (doc : Json) :
    Except EditError (Option Json) := do
  let acl ← ensureAclObject doc
  match acl.lookup principal with
  | none => .ok none
  | some value =>
    let entry ← entryObject value
    let remaining := remainingActions actions entry
    let edited := if remaining = [] then removeField principal acl
      else Json.insertField principal (withActions registry remaining entry) acl
    (incrementVersion (putAcl doc edited)).map some

end Acl

section Allowlist

/-- Indexing makes an object of a document that is `null`, and panics on
anything else that is not an object. -/
def allowlistRoot (doc : Json) : Except EditError (List (String × Json)) :=
  match doc with
  | .object root => .ok root
  | .null => .ok []
  | _ => .error .panicked

def allowlistObject (root : List (String × Json)) : List (String × Json) :=
  objectUnder "allowlist" (objectUnder "latchgate" root)

def putAllowlist (root allowlist : List (String × Json)) : Json :=
  .object (Json.insertField "latchgate"
    (.object (Json.insertField "allowlist" (.object allowlist) (objectUnder "latchgate" root))) root)

def addAllowlistEntry (actionId agentId : String) (doc : Json) : Except EditError Json := do
  let root ← allowlistRoot doc
  let allowlist := allowlistObject root
  let agents := Json.insertField agentId (.bool true) (objectUnder actionId allowlist)
  .ok (putAllowlist root (Json.insertField actionId (.object agents) allowlist))

def removeAllowlistEntry (actionId agentId : String) (doc : Json) : Except EditError Json := do
  let root ← allowlistRoot doc
  let allowlist := allowlistObject root
  let agents := objectUnder actionId allowlist
  if (agents.lookup agentId).isNone then
    .error (.failed "allowlist_entry_not_found")
  else
    let left := removeField agentId agents
    .ok (putAllowlist root
      (if left.isEmpty then removeField actionId allowlist else Json.insertField actionId (.object left) allowlist))

end Allowlist

section Lemmas
variable {doc after : Json} {registry : RegistryStore} {principal : String} {actions : List String}

theorem rootObject_eq_ok {root : List (String × Json)} : rootObject doc = .ok root ↔ doc = .object root := by
  unfold rootObject
  cases doc <;> simp [asObject?]

theorem lookup_removeField (name key : String) (fields : List (String × Json)) :
    (removeField key fields).lookup name = if name = key then none else fields.lookup name := by
  induction fields with
  | nil => simp [removeField]
  | cons field rest ih =>
    obtain ⟨k, v⟩ := field
    unfold removeField at ih ⊢
    by_cases removed : k = key
    · rw [List.filter_cons_of_neg (by simpa using removed), ih, List.lookup_cons, ← removed]
      by_cases here : name = k
      · simp [here]
      · have other : (name == k) = false := by simpa using here
        simp [here, other]
    · rw [List.filter_cons_of_pos (by simpa using removed), List.lookup_cons, List.lookup_cons, ih]
      by_cases here : name = k
      · have kept : name ≠ key := by rwa [here]
        simp [here, removed]
      · have other : (name == k) = false := by simpa using here
        simp [other]

/-- A new version is put, and nothing else is touched. -/
theorem incrementVersion_eq_ok (done : incrementVersion doc = .ok after) :
    ∃ version, nextVersion (versionText doc) = .ok version ∧
      ∀ key, after.get? key = if key = "policy_version" then some (.string version) else doc.get? key := by
  simp only [incrementVersion, Except.bind_eq_ok, Except.ok.injEq] at done
  obtain ⟨root, isRoot, version, next, rfl⟩ := done
  refine ⟨version, next, fun key => ?_⟩
  rw [rootObject_eq_ok.1 isRoot]
  exact Json.lookup_insertField _ _ _ _

theorem get?_putAcl {acl : List (String × Json)} (root : ∃ fields, doc = .object fields) (key : String) :
    (putAcl doc acl).get? key = if key = "acl" then some (.object acl) else doc.get? key := by
  obtain ⟨fields, rfl⟩ := root
  exact Json.lookup_insertField _ _ _ _

theorem lookup_objectUnder (key name : String) (fields : List (String × Json)) :
    (objectUnder key fields).lookup name = (fields.lookup key).bind (Json.get? name) := by
  unfold objectUnder
  cases fields.lookup key with
  | none => rfl
  | some value => cases value <;> rfl

theorem ensureAclObject_eq_ok {acl : List (String × Json)} (found : ensureAclObject doc = .ok acl) :
    (∃ fields, doc = .object fields) ∧ ∀ name, acl.lookup name = (doc.get? "acl").bind (Json.get? name) := by
  obtain ⟨root, isRoot, rfl⟩ := Except.map_eq_ok.1 found
  obtain rfl := rootObject_eq_ok.1 isRoot
  exact ⟨⟨root, rfl⟩, fun name => lookup_objectUnder "acl" name root⟩

theorem entryObject_eq_ok {value : Json} {fields : List (String × Json)} :
    entryObject value = .ok fields ↔ value = .object fields := by
  unfold entryObject
  cases value <;> simp [asObject?]

/-- A document whose `acl` has been replaced, under the next version. -/
structure AclReplaced (doc after : Json) (acl : List (String × Json)) : Prop where
  version : ∃ version, nextVersion (versionText doc) = .ok version ∧
    after.get? "policy_version" = some (.string version)
  acl : after.get? "acl" = some (.object acl)
  rest : ∀ key, key ≠ "acl" → key ≠ "policy_version" → after.get? key = doc.get? key

theorem aclReplaced {acl : List (String × Json)} (root : ∃ fields, doc = .object fields)
    (done : incrementVersion (putAcl doc acl) = .ok after) : AclReplaced doc after acl := by
  obtain ⟨version, next, found⟩ := incrementVersion_eq_ok done
  have same : versionText (putAcl doc acl) = versionText doc := by
    unfold versionText
    rw [get?_putAcl root, if_neg (by decide)]
  rw [same] at next
  refine ⟨⟨version, next, by rw [found, if_pos rfl]⟩, ?_, fun key notAcl notVersion => ?_⟩
  · rw [found, if_neg (by decide), get?_putAcl root, if_pos rfl]
  · rw [found, if_neg notVersion, get?_putAcl root, if_neg notAcl]

/-- The one way a grant succeeds. -/
theorem grantActions_eq_ok (done : grantActions registry principal actions doc = .ok after) :
    ∃ acl entry, (∀ name, acl.lookup name = (doc.get? "acl").bind (Json.get? name)) ∧
      (acl.lookup principal).getD emptyEntry = .object entry ∧
      AclReplaced doc after (Json.insertField principal
        (withActions registry (sortedTexts (currentActions entry ++ actions)) entry) acl) := by
  simp only [grantActions, Except.bind_eq_ok] at done
  obtain ⟨acl, found, entry, isEntry, version⟩ := done
  obtain ⟨root, looked⟩ := ensureAclObject_eq_ok found
  exact ⟨acl, entry, looked, entryObject_eq_ok.1 isEntry, aclReplaced root version⟩

/-- The two ways a revocation succeeds: nothing is there to revoke, or the
entry is removed or left with fewer actions. -/
theorem revokeActions_eq_ok {written : Option Json} (done : revokeActions registry principal actions doc = .ok written) :
    ∃ acl : List (String × Json), (∀ name, acl.lookup name = (doc.get? "acl").bind (Json.get? name)) ∧
      (acl.lookup principal = none ∧ written = none ∨
        ∃ entry after, acl.lookup principal = some (.object entry) ∧ written = some after ∧
          AclReplaced doc after (if remainingActions actions entry = [] then removeField principal acl
            else Json.insertField principal (withActions registry (remainingActions actions entry) entry) acl)) := by
  simp only [revokeActions, Except.bind_eq_ok] at done
  obtain ⟨acl, found, done⟩ := done
  obtain ⟨root, looked⟩ := ensureAclObject_eq_ok found
  refine ⟨acl, looked, ?_⟩
  cases known : acl.lookup principal with
  | none =>
    simp only [known, Except.ok.injEq] at done
    exact .inl ⟨rfl, done.symm⟩
  | some value =>
    simp only [known, Except.bind_eq_ok] at done
    obtain ⟨entry, isEntry, version⟩ := done
    obtain ⟨after, incremented, rfl⟩ := Except.map_eq_ok.1 version
    obtain rfl := entryObject_eq_ok.1 isEntry
    exact .inr ⟨entry, after, rfl, rfl, aclReplaced root incremented⟩

theorem lookup_allowlistRoot {root : List (String × Json)} (found : allowlistRoot doc = .ok root) (key : String) :
    root.lookup key = doc.get? key := by
  unfold allowlistRoot at found
  split at found
  · cases found
    rfl
  · cases found
    rfl
  · cases found

theorem get?_putAllowlist {root allowlist : List (String × Json)} (found : allowlistRoot doc = .ok root) {key : String}
    (differs : key ≠ "latchgate") : (putAllowlist root allowlist).get? key = doc.get? key := by
  show (Json.insertField _ _ root).lookup key = _
  rw [Json.lookup_insertField, if_neg differs, lookup_allowlistRoot found]

/-- An edit of the allowlist leaves every other field. -/
theorem get?_addAllowlistEntry {actionId agentId key : String} (done : addAllowlistEntry actionId agentId doc = .ok after)
    (differs : key ≠ "latchgate") : after.get? key = doc.get? key := by
  simp only [addAllowlistEntry, Except.bind_eq_ok, Except.ok.injEq] at done
  obtain ⟨root, found, rfl⟩ := done
  exact get?_putAllowlist found differs

theorem get?_removeAllowlistEntry {actionId agentId key : String}
    (done : removeAllowlistEntry actionId agentId doc = .ok after) (differs : key ≠ "latchgate") :
    after.get? key = doc.get? key := by
  simp only [removeAllowlistEntry, Except.bind_eq_ok] at done
  obtain ⟨root, found, done⟩ := done
  split at done
  · cases done
  · cases done
    exact get?_putAllowlist found differs

end Lemmas

section Samples

def readSpec : ActionSpec where
  actionId := "http_read"
  version := "1.0.0"
  providerModuleDigest := "builtin:http_api"
  declaredSideEffects := ["http_read"]

def writeSpec : ActionSpec where
  actionId := "http_write"
  version := "1.0.0"
  providerModuleDigest := "builtin:http_api"
  declaredSideEffects := ["http_write"]

/-- Two actions, each with a sink of its own. -/
def twoActions : RegistryStore where
  actions := [("http_read", ⟨readSpec, {}, .embedded, "embedded:http_read.yaml"⟩),
    ("http_write", ⟨writeSpec, {}, .embedded, "embedded:http_write.yaml"⟩)]
  overrideCount := 0

def agentFields (actions : List String) : List (String × Json) :=
  [("allowed_actions", textArray actions), ("allowed_sinks", textArray actions)]

/-- The wildcard may read; the agent may do what it is given. -/
def agentMay (actions : List String) : Json :=
  .object [("acl", .object [
      ("*", .object [("allowed_actions", textArray ["http_read"]), ("allowed_sinks", textArray ["http_read"])]),
      ("agent", .object (agentFields actions))]),
    ("policy_version", .string "v1")]

end Samples

end PolicyData

/-- The requests that change the policy document. -/
inductive AdminRequest where
  | grant (principal : String) (actions : List String)
  | revoke (principal : String) (actions : List String)
  | allow (actionId agentId : String)
  | disallow (actionId agentId : String)

namespace AdminRequest
open PolicyData

def maxPrincipalLen : Nat := 253

def maxActionIdLen : Nat := 253

def maxActionsPerRequest : Nat := 100

def maxIdLen : Nat := 128

def badRequest (error detail : String) : ApiError :=
  { status := 400, error, fields := [("detail", detail)] }

def demand (condition : Bool) (refusal : ApiError) : Except ApiError Unit :=
  if condition then .ok () else .error refusal

def validatePrincipal (principal : String) : Except ApiError Unit :=
  demand (principal ≠ "" ∧ principal.utf8ByteSize ≤ maxPrincipalLen)
    (badRequest "invalid_principal" "principal must be 1-253 characters")

def validateActionId (actionId : String) : Except ApiError Unit := do
  demand (actionId ≠ "" ∧ actionId.utf8ByteSize ≤ maxActionIdLen)
    (badRequest "invalid_action_id" "action_id must be 1-253 characters")
  demand (actionId.toList.all isIdChar)
    (badRequest "invalid_action_id" "action_id must contain only [a-zA-Z0-9_-]")

def validateActions (actions : List String) : Except ApiError Unit := do
  demand (actions ≠ []) (badRequest "empty_actions" "at least one action required")
  demand (actions.length ≤ maxActionsPerRequest) (badRequest "too_many_actions" "max 100 actions per request")

def validateId (label id : String) : Except ApiError Unit := do
  demand (id ≠ "" ∧ id.utf8ByteSize ≤ maxIdLen)
    (badRequest "invalid_input" (label ++ " must be 1-" ++ maxIdLen.repr ++ " characters"))
  demand (id.toList.all fun c => isIdChar c || c = ':')
    (badRequest "invalid_input" (label ++ " must contain only [a-zA-Z0-9_-:]"))

/-- What is checked of a request before the document is read. -/
def check (registry : RegistryStore) : AdminRequest → Except ApiError Unit
  | grant principal actions => do
    validatePrincipal principal
    validateActions actions
    actions.forM fun actionId => do
      validateActionId actionId
      demand (registry.getAction actionId).isSome
        { status := 400, error := "unknown_action", fields := [("action_id", actionId)] }
  | revoke principal actions => do
    validatePrincipal principal
    validateActions actions
    actions.forM validateActionId
  | allow actionId agentId => do
    validateId "action_id" actionId
    validateId "agent_id" agentId
    demand (registry.getAction actionId).isSome
      { status := 404, error := "action_not_found", fields := [("action_id", actionId)] }
  | disallow actionId agentId => do
    validateId "action_id" actionId
    validateId "agent_id" agentId

/-- The document that a request writes, if it writes one. -/
def edit (registry : RegistryStore) : AdminRequest → Json → Except EditError (Option Json)
  | grant principal actions, doc => (grantActions registry principal actions doc).map some
  | revoke principal actions, doc => revokeActions registry principal actions doc
  | allow actionId agentId, doc => (addAllowlistEntry actionId agentId doc).map some
  | disallow actionId agentId, doc => (removeAllowlistEntry actionId agentId doc).map some

/-- How a failed change is answered. -/
def refusal : AdminRequest → EditError → ApiError
  | _, .panicked => { status := 500, error := "internal_error" }
  | disallow actionId agentId, .failed detail =>
    if detail = "allowlist_entry_not_found" then
      { status := 404, error := detail,
        fields := [("detail", "no allowlist entry for action_id=" ++ actionId ++ " agent_id=" ++ agentId)] }
    else { status := 500, error := "policy_write_error", fields := [("detail", detail)] }
  | _, .failed detail => { status := 500, error := "policy_write_error", fields := [("detail", detail)] }

end AdminRequest
end Latchgate
