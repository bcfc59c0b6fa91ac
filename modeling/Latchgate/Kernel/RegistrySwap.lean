import Latchgate.Core.Canonical
import Latchgate.Kernel.FsParity
import Latchgate.Machine.Actor
import Latchgate.Policy.Gate

namespace Latchgate

structure ValidationLimits where
  maxBytes : Nat := 64 * 1024
  maxDepth : Nat := 10
  maxItems : Nat := 100

inductive SchemaError where
  | tooLarge (size max : Nat)
  | tooDeep (depth max : Nat)
  | tooManyItems (items max : Nat)
  | validationFailed (reason : String)

def SchemaError.display : SchemaError → String
  | tooLarge size max => "request exceeds size limit (" ++ toString size ++ " > " ++ toString max ++ " bytes)"
  | tooDeep depth max => "request exceeds nesting depth limit (" ++ toString depth ++ " > " ++ toString max ++ ")"
  | tooManyItems items max =>
    "request exceeds array size limit (" ++ toString items ++ " items > " ++ toString max ++ ")"
  | validationFailed reason => "schema validation failed: " ++ reason

section Schema
variable (violations : Json → String) (limits : ValidationLimits) (body : Json)

def checkLimits : Except SchemaError Unit :=
  let size := body.toCompactString.utf8ByteSize
  if limits.maxBytes < size then .error (.tooLarge size limits.maxBytes)
  else if limits.maxDepth < body.depth then .error (.tooDeep body.depth limits.maxDepth)
  else match body.maxArrayLen with
    | some items => if limits.maxItems < items then .error (.tooManyItems items limits.maxItems) else .ok ()
    | none => .ok ()

def checkSchema (validator : Json → Bool) : Except SchemaError Unit :=
  if validator body then .ok () else .error (.validationFailed (violations body))

/-- The limits are checked in any case, the schema if there is one. -/
def validateRequest (validator : Option (Json → Bool)) : Except SchemaError Unit := do
  checkLimits limits body
  match validator with
  | some validator => checkSchema violations body validator
  | none => .ok ()

end Schema

namespace RegistryStore

def getRequestValidator (registry : RegistryStore) (actionId : String) : Option (Json → Bool) :=
  (registry.actions.lookup actionId).bind fun entry => entry.schemas.request

end RegistryStore

/-- What the pointer to the registry holds, with the number of swaps that it
took. -/
structure RegistryVersion where
  number : Nat
  registry : RegistryStore

/-- What the steps of a call read besides the registry. -/
structure CallEnv where
  gate : AppState
  fromSlice : List UInt8 → Except String Json
  violations : Json → String

namespace CallEnv
variable (env : CallEnv)

/-- The state of the gate with the registry that is loaded now. -/
def loaded (version : RegistryVersion) : AppState :=
  { env.gate with registry := version.registry.getAction }

def stepResolveAction (version : RegistryVersion) (actionId : String) :
    Except PipelineError (ActionSpec × EgressProfile) :=
  match version.registry.getAction actionId with
  | none => .error (.actionNotFound actionId)
  | some manifest =>
    match manifest.egress.toProfile with
    | .error e => .error (.internal ("manifest egress config: " ++ e.display))
    | .ok egressProfile => .ok (manifest, egressProfile)

def stepVerifyTrust (version : RegistryVersion) (actionId : String) (manifest : ActionSpec) :
    Except PipelineError TrustVerdict := do
  let verdict := (env.loaded version).verifyDigest actionId manifest.providerModuleDigest
  AppState.trustErrorOf actionId verdict
  .ok verdict

/-- A body without a byte stands for the empty object. -/
def parseBody (body : List UInt8) : Except PipelineError Json :=
  if body = [] then .ok (.object [])
  else (env.fromSlice body).mapError fun e =>
    .schema ("schema validation failed: request body is not valid JSON: " ++ e)

structure ValidateAndHashOutput where
  requestBody : Json
  requestHash : String
  schemaId : Option String

def stepValidateAndHash (version : RegistryVersion) (actionId : String) (manifest : ActionSpec) (body : List UInt8) :
    Except PipelineError ValidateAndHashOutput := do
  let requestBody ← env.parseBody body
  let validator := version.registry.getRequestValidator actionId
  (validateRequest env.violations { maxBytes := manifest.io.maxRequestBytes } requestBody validator).mapError
    fun e => .schema e.display
  let requestHash ← (env.gate.canonicalHash manifest.io.maxRequestBytes requestBody).mapError .canonicalHash
  .ok { requestBody, requestHash, schemaId := validator.map fun _ => actionId ++ ":request" }

end CallEnv

/-- What authentication and the policy add to a call. -/
structure CallDecision where
  traceId : String
  auth : StoredAuthContext
  policy : Except PipelineError PolicyApproved
  policyVersion : Option String
  budgetCallsRemaining : Int
  policyCallsAfter : Int

/-- A call that has its manifest, from the version it loaded first. -/
structure ResolvedCall where
  snapshot : RegistryVersion
  actionId : String
  body : List UInt8
  manifest : ActionSpec

/-- A call that is trusted, with the version it was checked against. -/
structure TrustedCall extends ResolvedCall where
  trust : RegistryVersion
  trustVerdict : TrustVerdict

/-- A call that is validated, with the version whose schemas it was checked
against. -/
structure ValidatedCall extends TrustedCall where
  schema : RegistryVersion
  requestBody : Json
  requestHash : String
  schemaId : Option String

namespace ValidatedCall

/-- All three loads of the registry gave the same version. -/
def OneVersion (call : ValidatedCall) : Prop :=
  call.trust = call.snapshot ∧ call.schema = call.snapshot

/-- The version has the manifest of the call, trusts it, and has let the body
pass. -/
structure CheckedIn (call : ValidatedCall) (version : RegistryVersion) : Prop where
  found : version.registry.getAction call.actionId = some call.manifest
  trusted : ∃ env : CallEnv, env.stepVerifyTrust version call.actionId call.manifest = .ok call.trustVerdict
  validated : ∃ env : CallEnv, env.stepValidateAndHash version call.actionId call.manifest call.body =
    .ok ⟨call.requestBody, call.requestHash, call.schemaId⟩

def actionCall (call : ValidatedCall) (decision : CallDecision) (policy : PolicyApproved) : ActionCall where
  traceId := decision.traceId
  actionId := call.actionId
  auth := decision.auth
  manifest := call.manifest
  requestHash := call.requestHash
  requestBody := call.requestBody
  policy := policy
  policyVersion := decision.policyVersion
  budgetCallsRemaining := decision.budgetCallsRemaining
  policyCallsAfter := decision.policyCallsAfter
  trustVerdict := call.trustVerdict
  approvalId := ""
  unresolvedDomains := []
  unresolvedPaths := []

end ValidatedCall

namespace RegistrySwap

inductive Phase where
  | idle
  | arrived (actionId : String) (body : List UInt8)
  | resolved (call : ResolvedCall)
  | trusted (call : TrustedCall)
  | validated (call : ValidatedCall)
  | dispatched (call : ValidatedCall) (task : RunTask)
  | refused (error : PipelineError)

/-- A call comes in or does its next step, or an operator reloads what is on
disk. -/
inductive Input where
  | call (actionId : String) (body : List UInt8)
  | step (env : CallEnv) (decision : CallDecision)
  | reload (files : GateFiles)

variable (env : GateEnv) (config : GateConfig)

/-- The next step of a call, with the version of the registry that is in force. -/
def advance (version : RegistryVersion) (callEnv : CallEnv) (decision : CallDecision) : Phase → Phase
  | .arrived actionId body =>
    match CallEnv.stepResolveAction version actionId with
    | .error e => .refused e
    | .ok (manifest, _) => .resolved ⟨version, actionId, body, manifest⟩
  | .resolved call =>
    match callEnv.stepVerifyTrust version call.actionId call.manifest with
    | .error e => .refused e
    | .ok verdict => .trusted { call with trust := version, trustVerdict := verdict }
  | .trusted call =>
    match callEnv.stepValidateAndHash version call.actionId call.manifest call.body with
    | .error e => .refused e
    | .ok out =>
      .validated
        { call with
          schema := version
          requestBody := out.requestBody
          requestHash := out.requestHash
          schemaId := out.schemaId }
  | .validated call =>
    match decision.policy with
    | .error e => .refused e
    | .ok policy =>
      match (callEnv.loaded version).autoTask (call.actionCall decision policy) with
      | .error e => .refused e
      | .ok task => .dispatched call task
  | phase => phase

def swap (version : RegistryVersion) (files : GateFiles) : RegistryVersion :=
  match reloadedRegistry env config files with
  | .error _ => version
  | .ok registry => ⟨version.number + 1, registry⟩

def act (version : RegistryVersion) (phase : Phase) : Input → RegistryVersion × Phase × Unit
  | .call actionId body =>
    match phase with
    | .idle => (version, .arrived actionId body, ())
    | phase => (version, phase, ())
  | .step callEnv decision => (version, advance version callEnv decision phase, ())
  | .reload files => (swap env config version files, phase, ())

def actor : Actor RegistryVersion Phase Input Unit where
  act := act env config

/-- No reload has been served since the snapshot, for a call whose trust or
body is still to be checked. -/
def Still (version : RegistryVersion) : Phase → Prop
  | .resolved call => version.number = call.snapshot.number
  | .trusted call => version.number = call.snapshot.number
  | _ => True

def Undisturbed (s : RegistryVersion × (Nat → Phase)) (e : Nat × Input) : Prop :=
  match e.2 with
  | .step _ _ => Still s.1 (s.2 e.1)
  | _ => True

/-- A snapshot is an earlier version, or the one in force. -/
def Earlier (version snapshot : RegistryVersion) : Prop :=
  snapshot.number < version.number ∨ snapshot = version

/-- What a call has loaded. -/
def Loads (version : RegistryVersion) : Phase → Prop
  | .resolved call =>
    Earlier version call.snapshot ∧ call.snapshot.registry.getAction call.actionId = some call.manifest
  | .trusted call =>
    Earlier version call.snapshot ∧ call.snapshot.registry.getAction call.actionId = some call.manifest ∧
      call.trust = call.snapshot ∧
      ∃ env : CallEnv, env.stepVerifyTrust call.trust call.actionId call.manifest = .ok call.trustVerdict
  | .validated call | .dispatched call _ => call.OneVersion ∧ call.CheckedIn call.snapshot
  | _ => True

variable {env config}

theorem Earlier.eq {version snapshot : RegistryVersion} (earlier : Earlier version snapshot)
    (same : version.number = snapshot.number) : version = snapshot := by
  rcases earlier with less | equal
  · omega
  · exact equal.symm

theorem Earlier.swap {version snapshot : RegistryVersion} (earlier : Earlier version snapshot) (files : GateFiles) :
    Earlier (swap env config version files) snapshot := by
  unfold RegistrySwap.swap
  cases reloadedRegistry env config files with
  | error detail => exact earlier
  | ok registry =>
    refine .inl ?_
    rcases earlier with less | rfl
    · exact Nat.lt_succ_of_lt less
    · exact Nat.lt_succ_self _

theorem Loads.swap {version : RegistryVersion} {phase : Phase} (loads : Loads version phase) (files : GateFiles) :
    Loads (swap env config version files) phase := by
  cases phase with
  | resolved call => exact ⟨loads.1.swap files, loads.2⟩
  | trusted call => exact ⟨loads.1.swap files, loads.2⟩
  | validated call => exact loads
  | dispatched call task => exact loads
  | idle | arrived | refused => trivial

theorem stepResolveAction_found {version : RegistryVersion} {actionId : String} {manifest : ActionSpec}
    {egress : EgressProfile} (resolved : CallEnv.stepResolveAction version actionId = .ok (manifest, egress)) :
    version.registry.getAction actionId = some manifest := by
  unfold CallEnv.stepResolveAction at resolved
  cases found : version.registry.getAction actionId with
  | none => simp [found] at resolved
  | some spec =>
    simp only [found] at resolved
    split at resolved
    · cases resolved
    · cases resolved
      rfl

/-- A step that loads the version of its snapshot keeps to one version. -/
theorem Loads.advance {version : RegistryVersion} {phase : Phase} (loads : Loads version phase)
    (still : Still version phase) (callEnv : CallEnv) (decision : CallDecision) :
    Loads version (RegistrySwap.advance version callEnv decision phase) := by
  cases phase with
  | arrived actionId body =>
    simp only [RegistrySwap.advance]
    cases resolved : CallEnv.stepResolveAction version actionId with
    | error e => trivial
    | ok found => exact ⟨.inr rfl, stepResolveAction_found resolved⟩
  | resolved call =>
    have current : version = call.snapshot := loads.1.eq still
    simp only [RegistrySwap.advance]
    cases checked : callEnv.stepVerifyTrust version call.actionId call.manifest with
    | error e => trivial
    | ok verdict => exact ⟨loads.1, loads.2, current, callEnv, checked⟩
  | trusted call =>
    obtain ⟨earlier, found, trusted, trustEnv, checked⟩ := loads
    have current : version = call.snapshot := earlier.eq still
    rw [trusted] at checked
    simp only [RegistrySwap.advance]
    cases passed : callEnv.stepValidateAndHash version call.actionId call.manifest call.body with
    | error e => trivial
    | ok out =>
      rw [current] at passed
      exact ⟨⟨trusted, current⟩, ⟨found, ⟨trustEnv, checked⟩, callEnv, passed⟩⟩
  | validated call =>
    simp only [RegistrySwap.advance]
    cases decision.policy with
    | error e => trivial
    | ok policy =>
      dsimp only
      cases (callEnv.loaded version).autoTask (call.actionCall decision policy) with
      | error e => trivial
      | ok task => exact loads
  | idle | dispatched | refused => exact loads

theorem loads_own {s : RegistryVersion × (Nat → Phase)} {i : Nat} {e : Input}
    (undisturbed : Undisturbed s (i, e)) (each : ∀ j, Loads s.1 (s.2 j)) :
    Loads (act env config s.1 (s.2 i) e).1 (act env config s.1 (s.2 i) e).2.1 := by
  have loads := each i
  cases e with
  | call actionId body =>
    simp only [act]
    split
    · trivial
    · exact loads
  | reload files => exact loads.swap files
  | step callEnv decision => exact loads.advance undisturbed callEnv decision

theorem loads_frame {s : RegistryVersion × (Nat → Phase)} {i j : Nat} {e : Input} (each : ∀ k, Loads s.1 (s.2 k)) :
    Loads (act env config s.1 (s.2 j) e).1 (s.2 i) := by
  cases e with
  | call actionId body =>
    simp only [act]
    split <;> exact each i
  | reload files => exact (each i).swap files
  | step callEnv decision => exact each i

def sampleSpec : ActionSpec :=
  AppState.fsCall.manifest

/-- One action, with a request schema that no body meets. -/
def sampleRegistry : RegistryStore where
  actions := [("fs_read", ⟨sampleSpec, { request := some fun _ => false }, .dir "manifests", "manifests/fs_read.yaml"⟩)]
  overrideCount := 0

/-- On disk the action has no schema any more. -/
def sampleFiles : GateFiles where
  manifests :=
    { dir := fun _ => .listed [.ok ⟨"manifests/fs_read.yaml", some "yaml", true, .ok AppState.fsYaml⟩]
      compileActionSchemas := fun _ _ => .ok {} }
  data _ := .missing

def sampleGateEnv : GateEnv :=
  { oneDocument .null with loader := ⟨AppState.sampleLoader AppState.fsSpec, fun _ _ => true⟩ }

def sampleCallEnv : CallEnv where
  gate := AppState.fsGate
  fromSlice _ := .ok (.object [("path", .string "docs/readme.md")])
  violations _ := "\"path\" is not of type \"integer\""

def sampleDecision : CallDecision where
  traceId := "t-1"
  auth := (PendingApproval.testDefault "appr-1").authContext
  policy := .ok { allowedSinks := [], approvedSecrets := [], approvedEgress := .none }
  policyVersion := none
  budgetCallsRemaining := 10
  policyCallsAfter := 9

def sampleSteps (n : Nat) : List (Nat × Input) :=
  List.replicate n (0, .step sampleCallEnv sampleDecision)

/-- The numbers of the versions that a dispatched call has loaded. -/
def Phase.versions : Phase → Option (Nat × Nat × Nat)
  | .dispatched call _ => some (call.snapshot.number, call.trust.number, call.schema.number)
  | _ => none

theorem exists_of_versions {phase : Phase} {numbers : Nat × Nat × Nat} (loaded : phase.versions = some numbers) :
    ∃ call task, phase = .dispatched call task ∧
      (call.snapshot.number, call.trust.number, call.schema.number) = numbers := by
  cases phase with
  | dispatched call task => exact ⟨call, task, rfl, Option.some.inj loaded⟩
  | idle | arrived | resolved | trusted | validated | refused => cases loaded

/-- The registry without the schema, and a call that goes through it. -/
def sampleOpen : RegistryStore where
  actions := [("fs_read", ⟨sampleSpec, {}, .dir "manifests", "manifests/fs_read.yaml"⟩)]
  overrideCount := 0

def sampleRun : List (Nat × Input) :=
  (0, .call "fs_read" [123]) :: sampleSteps 4

end RegistrySwap
end Latchgate
