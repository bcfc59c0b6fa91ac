import Latchgate.Kernel.ApprovedExecution

namespace Latchgate

/-- A path is matched by one of the patterns as the engine compiles them. -/
def Loader.Matches (loader : Loader) (patterns : List String) (path : String) : Prop :=
  ∃ pattern ∈ patterns, ∃ g, loader.compile pattern = .ok g ∧ g path = true

theorem Loader.compiled_matches {loader : Loader} {patterns : List String}
    {compiled : List GlobPattern} {path : String}
    (made : compilePatterns loader.compile patterns = .ok compiled) :
    (∃ g ∈ compiled, g path = true) ↔ loader.Matches patterns path := by
  unfold compilePatterns at made
  induction patterns generalizing compiled with
  | nil =>
    cases made
    simp [Matches]
  | cons pattern patterns ih =>
    simp only [List.mapM_cons, Except.bind_eq_ok, Except.mapError_eq_ok] at made
    obtain ⟨g, first, rest, others, built⟩ := made
    cases built
    have tail := ih others
    simp only [Matches, List.mem_cons, exists_eq_or_imp] at tail ⊢
    rw [tail]
    refine or_congr ⟨fun hit => ⟨g, first, hit⟩, ?_⟩ Iff.rfl
    rintro ⟨h, same, hit⟩
    obtain rfl : g = h := Except.ok.inj (first.symm.trans same)
    exact hit

/-- The verdict on a path under a host configuration. Without one the
provider may do nothing. -/
def fsVerdict (config : Option FsHostConfig) (path : String) : Option PathDecision :=
  config.map fun c => evaluatePath path c.allowedPaths c.deniedPaths

namespace AppState

variable {state : AppState}

/-- All learned patterns of the action compile and one of them matches. -/
def LearnedMatch (state : AppState) (actionId path : String) : Prop :=
  (∃ compiled, compilePatterns state.loader.compile (state.learnedPaths.get actionId) = .ok compiled) ∧
    state.loader.Matches (state.learnedPaths.get actionId) path

theorem compileLearnedPaths_matches {actionId path : String} :
    (∃ g ∈ state.compileLearnedPaths actionId, g path = true) ↔ state.LearnedMatch actionId path := by
  unfold compileLearnedPaths LearnedMatch
  by_cases void : state.learnedPaths.get actionId = []
  · simp [void, Loader.Matches]
  · simp only [void, if_false]
    cases made : compilePatterns state.loader.compile (state.learnedPaths.get actionId) with
    | error e => simp [Except.toOption]
    | ok compiled => simpa [Except.toOption] using Loader.compiled_matches made

theorem fsVerdict_build {actionId path : String} {fs : FsConfig}
    {precompiled : Option (List GlobPattern × List GlobPattern)} {sessionFsRoot : Option String} :
    fsVerdict (state.buildFsHostConfig actionId fs precompiled sessionFsRoot) path =
      (state.openFsRoot sessionFsRoot).map fun _ =>
        let sets := precompiled.getD
          (fs.compiledAllowed ++ state.compileLearnedPaths actionId, fs.compiledDenied)
        evaluatePath path sets.1 sets.2 := by
  unfold buildFsHostConfig
  cases state.openFsRoot sessionFsRoot <;> rfl

/-- With or without the patterns of the path check, the auto-allow path
enforces the manifest and what was learned. -/
theorem auto_fsVerdict {call : ActionCall} {fs : FsConfig} (declared : call.manifest.fs = some fs)
    (path : String) :
    fsVerdict (state.autoFsConfig call
        (state.stepPathPrecheck call.actionId call.manifest call.requestBody)) path =
      (state.openFsRoot (state.sessionFsRoots call.auth.sessionId)).map fun _ =>
        evaluatePath path (fs.compiledAllowed ++ state.compileLearnedPaths call.actionId)
          fs.compiledDenied := by
  simp only [autoFsConfig, stepPathPrecheck, declared]
  cases (call.requestBody.get? "path").bind Json.asStr? <;> exact fsVerdict_build

/-- The block that comes back from the store has no compiled patterns, so
only what was learned is enforced. -/
theorem approved_fsVerdict {call : ActionCall} {fs : FsConfig} {expiresAt : DateTime}
    {createdAt : String} {read : FloatText → Except String FloatText} {pending : PendingApproval}
    (declared : call.manifest.fs = some fs)
    (stored : (state.stepStorePendingApproval call expiresAt createdAt).thaw read = .ok pending) :
    ∃ config, state.approvedFsConfig pending = .ok config ∧ ∀ path, fsVerdict config path =
      (state.openFsRoot (state.sessionFsRoots call.auth.sessionId)).map fun _ =>
        evaluatePath path (state.compileLearnedPaths call.actionId) [] := by
  obtain ⟨body, verification, database, block, _, _, _, thawed, rfl⟩ :=
    PendingApproval.thaw_eq_ok stored
  have frozen : (state.stepStorePendingApproval call expiresAt createdAt).plan.fs =
      some fs.toValue := by
    simp [stepStorePendingApproval, draftPlan, declared]
  rw [frozen] at thawed
  obtain ⟨value, reparsed, rfl⟩ := Except.map_eq_ok.1 thawed
  refine ⟨state.buildFsHostConfig call.actionId { fs with compiledAllowed := [], compiledDenied := [] }
    none (state.sessionFsRoots call.auth.sessionId), ?_, fun path => fsVerdict_build⟩
  simp only [approvedFsConfig, FsConfig.fromValue_reparse reparsed]
  rfl

theorem evaluatePath_eq_iff {path : String} {allowed learned denied : List GlobPattern} :
    evaluatePath path learned [] = evaluatePath path (allowed ++ learned) denied ↔
      ¬ (∃ g ∈ denied, g path = true) ∧
        ((∃ g ∈ allowed, g path = true) → ∃ g ∈ learned, g path = true) := by
  simp only [evaluatePath, List.any_append, List.any_nil, ← List.any_eq_true]
  cases denied.any fun g => g path with
  | true => cases learned.any fun g => g path <;> simp
  | false =>
    cases allowed.any fun g => g path <;> cases learned.any fun g => g path <;> simp

/-- The approval path judges a path as the auto-allow path does exactly when
no denied pattern of the manifest is involved and no allowed one is needed. -/
theorem fs_verdicts_agree_iff {yaml : String} {call : ActionCall} {fs : FsConfig}
    {expiresAt : DateTime} {createdAt : String} {read : FloatText → Except String FloatText}
    {pending : PendingApproval} (accepted : ActionSpec.fromYaml state.loader yaml = .ok call.manifest)
    (declared : call.manifest.fs = some fs)
    (stored : (state.stepStorePendingApproval call expiresAt createdAt).thaw read = .ok pending)
    (path : String) :
    (∃ config, state.approvedFsConfig pending = .ok config ∧
      fsVerdict config path = fsVerdict (state.autoFsConfig call
        (state.stepPathPrecheck call.actionId call.manifest call.requestBody)) path ∧
      (state.loader.Matches fs.deniedPaths path →
        fsVerdict config path = none ∨ fsVerdict config path = some .denied)) ↔
    state.openFsRoot (state.sessionFsRoots call.auth.sessionId) = none ∨
      ¬ state.loader.Matches fs.deniedPaths path ∧
        (state.loader.Matches fs.allowedPaths path → state.LearnedMatch call.actionId path) := by
  obtain ⟨allowed, denied⟩ := ActionSpec.fromYaml_fs accepted declared
  obtain ⟨config, built, verdict⟩ := approved_fsVerdict declared stored
  rw [auto_fsVerdict declared, ← Loader.compiled_matches allowed, ← Loader.compiled_matches denied,
    ← compileLearnedPaths_matches, ← evaluatePath_eq_iff]
  cases root : state.openFsRoot (state.sessionFsRoots call.auth.sessionId) with
  | none =>
    have closed : fsVerdict config path = none := by simp [verdict, root]
    simp only [true_or, iff_true]
    exact ⟨config, built, closed, fun _ => .inl closed⟩
  | some opened =>
    have judged : fsVerdict config path =
        some (evaluatePath path (state.compileLearnedPaths call.actionId) []) := by simp [verdict, root]
    simp only [Option.map_some, reduceCtorEq, false_or]
    constructor
    · rintro ⟨other, same, agree, _⟩
      obtain rfl : config = other := Except.ok.inj (built.symm.trans same)
      exact Option.some.inj (judged.symm.trans agree)
    · intro agree
      refine ⟨config, built, judged.trans (congrArg some agree), fun hit => .inr ?_⟩
      exact (judged.trans (congrArg some agree)).trans (congrArg some (evaluatePath_denied.2 hit))

/-- Patterns `dir/**` match what lies below `dir`, others only themselves. -/
def treeGlob (pattern : String) : Except String GlobPattern :=
  .ok fun path =>
    if endsWith "/**" pattern then (pattern.toList.dropLast.dropLast).isPrefixOf path.toList
    else path = pattern

def sampleLoader (spec : ActionSpec) : Loader where
  parse _ := .ok spec
  compile := treeGlob
  validateManifestDomainEntry := .ok
  computeDigest _ := "sha256:2f2f2f2f2f2f2f2f2f2f2f2f2f2f2f2f2f2f2f2f2f2f2f2f2f2f2f2f2f2f2f2f"

/-- The digests of the two bodies that are used below. -/
def sampleHash (body : Json) : String :=
  if body.toCompactString = "\x7b\"path\":\"rate_limit\"\x7d" then
    "sha256:ab9571d9b0198eadfd5b39c28ee65836c58229ba5c36d71ef325713458a0e956"
  else "sha256:8048ae6c4dd0e14d3df2d2b7defb705dbd10409a70dba1d233a91b053092f482"

/-- A gate for one action, with a directory for the filesystem and no session
directories, no secrets and no limits on the egress. -/
def sampleGate (spec : ActionSpec) (learnedPaths : List String) : AppState where
  loader := sampleLoader spec
  registry actionId := if actionId = spec.actionId then some spec else none
  learnedDomains := { cached := fun _ => .ok [], forAction := fun _ => .ok [] }
  learnedPaths := { cached := fun _ => .ok learnedPaths, forAction := fun _ => .ok learnedPaths }
  toLowercase domain := String.ofList (domain.toList.map Char.toLower)
  egressRuntimeAllowlist := none
  egressProxyUrl := none
  builtinDigests name := if name = "http_api" ∨ name = "fs" then
      some "sha256:a1b2c3d4e5f6a1b2c3d4e5f6a1b2c3d4e5f6a1b2c3d4e5f6a1b2c3d4e5f6a1b2"
    else none
  sopsSecretsFile := none
  decryptSecrets _ _ := .error "sops binary not found (is sops installed?)"
  fsRootFd := some 7
  fsRootCanonical := some "/srv/data"
  sessionFsRoots _ := none
  openRootFd root := .ok (8, root)
  parseJson _ := none
  describeDecodeError _ := "missing field"
  canonicalHash _ body := .ok (sampleHash body)
  computePlanHash _ := "3c3c3c3c3c3c3c3c3c3c3c3c3c3c3c3c3c3c3c3c3c3c3c3c3c3c3c3c3c3c3c3c"
  getAndDebit _ := .ok 9
  debugNames := debugList
  sanitizeForLog := id
  now := ⟨60000000000, "1970-01-01T00:01:00+00:00"⟩

def sampleCall (spec : ActionSpec) (requestBody : Json) (egress : EgressProfile) : ActionCall where
  traceId := "trace-1"
  actionId := spec.actionId
  auth := (PendingApproval.testDefault "appr-1").authContext
  manifest := spec
  requestHash := sampleHash requestBody
  requestBody := requestBody
  policy := { allowedSinks := [], approvedSecrets := [], approvedEgress := egress }
  policyVersion := some "test-v1"
  budgetCallsRemaining := 10
  policyCallsAfter := 9
  trustVerdict := .digestOk
  approvalId := "appr-1"
  unresolvedDomains := []
  unresolvedPaths := []

def fsYaml : String :=
  "action_id: fs_read\nversion: 1.0.0\nprovider_module_digest: builtin:fs\nverifier_kind: fs_hash\n" ++
    "fs:\n  allowed_operations: [read]\n  allowed_paths: [src/**]\n  denied_paths: [secrets/**]\n"

/-- The manifest in `fsYaml`, as it is parsed. -/
def fsSpec : ActionSpec where
  actionId := "fs_read"
  version := "1.0.0"
  providerModuleDigest := "builtin:fs"
  verifierKind := .fsHash
  fs := some { allowedOperations := [.read], allowedPaths := ["src/**"], deniedPaths := ["secrets/**"] }

def loadedFs : FsConfig where
  allowedOperations := [.read]
  allowedPaths := ["src/**"]
  deniedPaths := ["secrets/**"]
  compiledAllowed := [fun path => "src/".toList.isPrefixOf path.toList]
  compiledDenied := [fun path => "secrets/".toList.isPrefixOf path.toList]

def fsGate : AppState :=
  sampleGate fsSpec ["secrets/db.txt"]

def fsCall : ActionCall :=
  sampleCall
    { fsSpec with
      fs := some loadedFs
      contentDigest := "sha256:2f2f2f2f2f2f2f2f2f2f2f2f2f2f2f2f2f2f2f2f2f2f2f2f2f2f2f2f2f2f2f2f" }
    (.object [("path", .string "secrets/db.txt")]) .none

def sampleExpiry : DateTime :=
  ⟨300000000000, "1970-01-01T00:05:00+00:00"⟩

theorem fs_verdicts_agree_iff_docs :
    ∃ pending config, (fsGate.stepStorePendingApproval fsCall sampleExpiry
        "1970-01-01T00:00:00+00:00").thaw .ok = .ok pending ∧
      fsGate.approvedFsConfig pending = .ok config ∧
      fsVerdict config "docs/readme.md" = fsVerdict (fsGate.autoFsConfig fsCall
        (fsGate.stepPathPrecheck fsCall.actionId fsCall.manifest fsCall.requestBody))
          "docs/readme.md" := by
  have accepted : ActionSpec.fromYaml fsGate.loader fsYaml = .ok fsCall.manifest := rfl
  have declared : fsCall.manifest.fs = some loadedFs := rfl
  obtain ⟨pending, stored⟩ : ∃ pending, (fsGate.stepStorePendingApproval fsCall sampleExpiry
      "1970-01-01T00:00:00+00:00").thaw .ok = .ok pending := ⟨_, rfl⟩
  have undenied : ¬ fsGate.loader.Matches loadedFs.deniedPaths "docs/readme.md" := by
    rintro ⟨pattern, member, g, compiled, hit⟩
    obtain rfl := List.mem_singleton.mp member
    cases compiled
    exact absurd hit (by decide)
  have unlisted : ¬ fsGate.loader.Matches loadedFs.allowedPaths "docs/readme.md" := by
    rintro ⟨pattern, member, g, compiled, hit⟩
    obtain rfl := List.mem_singleton.mp member
    cases compiled
    exact absurd hit (by decide)
  obtain ⟨config, built, same, _⟩ := (fs_verdicts_agree_iff accepted declared stored
    "docs/readme.md").mpr (.inr ⟨undenied, fun listed => absurd listed unlisted⟩)
  exact ⟨pending, config, stored, built, same⟩

/-- A path that the manifest denies is open to an approved call as soon as an
operator has learned it. -/
theorem denied_path_allowed_on_approval :
    ActionSpec.fromYaml fsGate.loader fsYaml = .ok fsCall.manifest ∧
    fsCall.manifest.fs = some loadedFs ∧
    fsGate.loader.Matches loadedFs.deniedPaths "secrets/db.txt" ∧
    fsVerdict (fsGate.autoFsConfig fsCall
      (fsGate.stepPathPrecheck fsCall.actionId fsCall.manifest fsCall.requestBody))
        "secrets/db.txt" = some .denied ∧
    ∃ pending config, (fsGate.stepStorePendingApproval fsCall sampleExpiry
        "1970-01-01T00:00:00+00:00").thaw .ok = .ok pending ∧
      fsGate.approvedFsConfig pending = .ok config ∧
      fsVerdict config "secrets/db.txt" = some .allowed := by
  refine ⟨rfl, rfl, ⟨"secrets/**", List.mem_singleton.mpr rfl, _, rfl, by decide⟩, by decide, _, _,
    rfl, rfl, by decide⟩

end AppState

end Latchgate
