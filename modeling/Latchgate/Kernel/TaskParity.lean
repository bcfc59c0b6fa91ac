import Latchgate.Json.Compact
import Latchgate.Kernel.FsParity

namespace Latchgate

theorem thawOption_bind {read : FloatText → Except String FloatText} {α : Type}
    {decode : Json → Option α} (stable : Json.Stable decode) (void : decode .null = none)
    {before after : Option Json} (thawed : thawOption read before = .ok after) :
    after.bind decode = before.bind decode := by
  match before, thawed with
  | none, thawed => cases thawed; rfl
  | some .null, thawed => cases thawed; exact void.symm
  | some (.bool _), thawed => cases thawed; rfl
  | some (.string _), thawed => cases thawed; rfl
  | some (.number n), thawed =>
    obtain ⟨w, reparsed, rfl⟩ := Except.map_eq_ok.1 thawed
    exact stable _ _ _ reparsed
  | some (.array items), thawed =>
    obtain ⟨w, reparsed, rfl⟩ := Except.map_eq_ok.1 thawed
    exact stable _ _ _ reparsed
  | some (.object fields), thawed =>
    obtain ⟨w, reparsed, rfl⟩ := Except.map_eq_ok.1 thawed
    exact stable _ _ _ reparsed

/-- What decides what a provider runs. -/
structure SameExecution (approved auto : RunTask) : Prop where
  args : approved.argsJson = auto.argsJson
  digest : approved.moduleDigest = auto.moduleDigest
  imports : approved.allowedImports = auto.allowedImports
  limits : approved.resourceLimits = auto.resourceLimits
  database : approved.databaseConfig = auto.databaseConfig
  sinks : approved.allowedSinks = auto.allowedSinks

namespace AppState

variable {state : AppState}

/-- The body that is read back from the store is what the auto-allow path
would hand over: there is no template and the body survives its own text, or
the template turns the body into itself. -/
def CarriesOver (state : AppState) (read : FloatText → Except String FloatText)
    (template : Option TemplateConfig) (body : Json) : Prop :=
  match template with
  | none => body.reparse read = .ok body
  | some template => ∃ stored, body.reparse read = .ok stored ∧
      Template.resolveTemplate state.parseJson template body = .ok stored

theorem carriesOver_iff {read : FloatText → Except String FloatText} {template : Option TemplateConfig}
    {body stored : Json} (reparsed : body.reparse read = .ok stored) :
    state.CarriesOver read template body ↔ state.resolveArgs template body = .ok stored := by
  cases template with
  | none => simp [CarriesOver, resolveArgs, reparsed, eq_comm]
  | some template => simp [CarriesOver, resolveArgs, reparsed, Except.mapError_eq_ok]

theorem stepBuildRunTask_eq_ok {call : ActionCall} {precheck : PathPrecheckOutput} {task : RunTask} :
    state.stepBuildRunTask call precheck = .ok task ↔
      ∃ secrets args digest,
        state.resolveApprovedSecrets call.policy.approvedSecrets call.manifest.secrets = .ok secrets ∧
        state.resolveArgs call.manifest.template call.requestBody = .ok args ∧
        state.resolveModuleDigest call.manifest.providerModuleDigest = .ok digest ∧
        task = state.assembleRunTask call precheck secrets args.toCompactString digest := by
  simp only [stepBuildRunTask, resolveArgsJson, Except.bind_eq_ok, Except.map_eq_ok,
    Except.ok.injEq]
  constructor
  · rintro ⟨secrets, decrypted, _, ⟨args, resolved, rfl⟩, digest, found, rfl⟩
    exact ⟨secrets, args, digest, decrypted, resolved, found, rfl⟩
  · rintro ⟨secrets, args, digest, decrypted, resolved, found, rfl⟩
    exact ⟨secrets, decrypted, _, ⟨args, resolved, rfl⟩, digest, found, rfl⟩

/-- An approved call runs what the same call would have run without the
approval exactly when its body carries over. -/
theorem approved_runs_auto_iff {call : ActionCall} {expiresAt : DateTime} {createdAt traceId : String}
    {read : FloatText → Except String FloatText} {pending : PendingApproval}
    {execution : AuthorizedExecution}
    (stored : (state.stepStorePendingApproval call expiresAt createdAt).thaw read = .ok pending)
    (prepared : state.prepareApprovedExecution pending traceId = .ok execution) :
    (∃ auto, state.autoTask call = .ok auto ∧ SameExecution execution.task auto) ↔
      state.CarriesOver read call.manifest.template call.requestBody := by
  obtain ⟨secrets, digest, fsConfig, decrypted, resolved, _, task⟩ :=
    prepareApprovedExecution_task prepared
  obtain ⟨body, verification, database, block, reparsed, _, thawed, _, rfl⟩ :=
    PendingApproval.thaw_eq_ok stored
  have configured : database.bind DatabaseConfig.fromValue =
      call.manifest.databaseConfig.bind DatabaseConfig.fromValue :=
    thawOption_bind DatabaseConfig.stable_fromValue rfl thawed
  have readBack : call.requestBody.reparse read = .ok body := reparsed
  rw [carriesOver_iff readBack, task]
  constructor
  · rintro ⟨auto, built, same⟩
    obtain ⟨_, args, _, _, made, _, rfl⟩ := stepBuildRunTask_eq_ok.1 built
    have unchanged : body = args := Json.toCompactString_injective same.args
    exact unchanged ▸ made
  · intro made
    refine ⟨_, stepBuildRunTask_eq_ok.2 ⟨secrets, body, digest, decrypted, made, resolved, rfl⟩, ?_⟩
    exact ⟨rfl, rfl, rfl, rfl, configured, rfl⟩

/-- An action that fills one placeholder of a URL. -/
def readSpec : ActionSpec where
  actionId := "github_read"
  version := "1.0.0"
  providerModuleDigest := "builtin:http_api"
  requiredImports := ["latchgate:io/http"]
  egress := { profile := "proxy_allowlist", allowedDomains := ["api.github.com"] }
  template := some { method := "get", urlTemplate := "https://api.github.com/\x7b\x7bpath\x7d\x7d" }

def readBody : Json :=
  .object [("path", .string "rate_limit")]

def readCall (spec : ActionSpec) : ActionCall :=
  sampleCall spec readBody (.proxyAllowlist ["api.github.com"])

def plainSpec : ActionSpec :=
  { readSpec with template := none }

theorem approved_runs_auto_iff_plain :
    ∃ pending execution auto,
      ((sampleGate plainSpec []).stepStorePendingApproval (readCall plainSpec) sampleExpiry
        "1970-01-01T00:00:00+00:00").thaw .ok = .ok pending ∧
      (sampleGate plainSpec []).prepareApprovedExecution pending "trace-2" = .ok execution ∧
      (sampleGate plainSpec []).autoTask (readCall plainSpec) = .ok auto ∧
      SameExecution execution.task auto := by
  obtain ⟨pending, execution, stored, prepared⟩ : ∃ pending execution,
      ((sampleGate plainSpec []).stepStorePendingApproval (readCall plainSpec) sampleExpiry
        "1970-01-01T00:00:00+00:00").thaw .ok = .ok pending ∧
      (sampleGate plainSpec []).prepareApprovedExecution pending "trace-2" = .ok execution :=
    ⟨_, _, rfl, rfl⟩
  have survives : readBody.reparse .ok = .ok readBody := rfl
  obtain ⟨auto, built, same⟩ := (approved_runs_auto_iff stored prepared).mpr survives
  exact ⟨pending, execution, auto, stored, prepared, built, same⟩

/-- The same call reaches its URL when it is allowed at once, and hands over
the bare body when it is approved. -/
theorem approved_call_skips_template :
    readSpec.validate (sampleLoader readSpec) = .ok () ∧ ∃ pending execution auto,
      ((sampleGate readSpec []).stepStorePendingApproval (readCall readSpec) sampleExpiry
        "1970-01-01T00:00:00+00:00").thaw .ok = .ok pending ∧
      (sampleGate readSpec []).prepareApprovedExecution pending "trace-2" = .ok execution ∧
      (sampleGate readSpec []).autoTask (readCall readSpec) = .ok auto ∧
      execution.task.argsJson = "\x7b\"path\":\"rate_limit\"\x7d" ∧
      auto.argsJson = "\x7b\"headers\":\x7b\x7d,\"method\":\"GET\"," ++
        "\"url\":\"https://api.github.com/rate_limit\"\x7d" ∧
      ¬ SameExecution execution.task auto := by
  have opening : Template.splitMarker '\x7b' "https://api.github.com/\x7b\x7bpath\x7d\x7d".toList =
      some ("https://api.github.com/".toList, "path\x7d\x7d".toList) := by decide
  have closing : Template.splitMarker '\x7d' "path\x7d\x7d".toList = some ("path".toList, []) := by decide
  have url : Template.resolveStringTemplate [("path", "rate_limit")] true
      "https://api.github.com/\x7b\x7bpath\x7d\x7d".toList =
        .ok "https://api.github.com/rate_limit".toList := by
    rw [Template.resolveStringTemplate_placeholder opening closing,
      Template.resolveStringTemplate_plain rfl]
    rfl
  have resolved : (sampleGate readSpec []).resolveArgs readSpec.template readBody =
      .ok (.object [("headers", .object []), ("method", .string "GET"),
        ("url", .string "https://api.github.com/rate_limit")]) := by
    have unfolded : (sampleGate readSpec []).resolveArgs readSpec.template readBody =
        (Template.resolveStringTemplate [("path", "rate_limit")] true
          "https://api.github.com/\x7b\x7bpath\x7d\x7d".toList >>= fun url =>
            .ok (.object [("headers", .object []), ("method", .string "GET"),
              ("url", .string (String.ofList url))])).mapError fun e =>
                .schema ("schema validation failed: template resolution failed: " ++
                  TemplateError.display e) := rfl
    rw [unfolded, url]
    rfl
  refine ⟨rfl, _, _, _, rfl, rfl, stepBuildRunTask_eq_ok.2 ⟨_, _, _, rfl, resolved, rfl, rfl⟩,
    by decide, by decide, fun same => ?_⟩
  exact absurd same.args (by decide)

end AppState
end Latchgate
