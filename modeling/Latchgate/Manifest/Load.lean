import Latchgate.Core.FsPath
import Latchgate.Json.Decode

namespace Latchgate

inductive ManifestError where
  | yaml (message : String)
  | validation (reason : String)
  | resourceLimits (field : String)
  deriving DecidableEq

def ManifestError.display : ManifestError → String
  | yaml message => "failed to parse manifest YAML: " ++ message
  | validation reason => "manifest validation failed: " ++ reason
  | resourceLimits field =>
    "manifest resource_limits invalid: resource_limits." ++ field ++ " must be > 0"

/-- One constraint on a manifest. -/
def require (condition : Bool) (reason : String) : Except ManifestError Unit :=
  if condition then .ok () else .error (.validation reason)

def startsWith (pre text : String) : Bool :=
  pre.toList.isPrefixOf text.toList

def endsWith (suf text : String) : Bool :=
  suf.toList.isSuffixOf text.toList

/-- What is left of a text behind a prefix, if it has that prefix. -/
def stripText (pre text : String) : Option String :=
  if startsWith pre text then some (String.ofList (text.toList.drop pre.toList.length)) else none

theorem stripText_eq_some_iff {pre text rest : String} : stripText pre text = some rest ↔ text = pre ++ rest := by
  simp only [stripText, startsWith, List.isPrefixOf_iff_prefix]
  constructor
  · intro stripped
    split_ifs at stripped with starts
    obtain ⟨more, whole⟩ := starts
    rw [← whole, List.drop_left, Option.some.injEq] at stripped
    rw [← String.toList_inj, String.toList_append, ← stripped, String.toList_ofList, whole]
  · rintro rfl
    rw [String.toList_append, if_pos (List.prefix_append _ _), List.drop_left, String.ofList_toList]

theorem stripText_append (pre text : String) : stripText pre (pre ++ text) = some text :=
  stripText_eq_some_iff.2 rfl

/-- A list of plain texts as the source prints it for a reader. -/
def debugList (texts : List String) : String :=
  "[" ++ String.intercalate ", " (texts.map fun text => "\"" ++ text ++ "\"") ++ "]"

def isAsciiHexDigit (c : Char) : Bool :=
  c.isDigit ∨ ('a' ≤ c ∧ c ≤ 'f') ∨ ('A' ≤ c ∧ c ≤ 'F')

/-- Letters, digits, underscore and hyphen. -/
def isIdChar (c : Char) : Bool :=
  c.isAlphanum ∨ c = '_' ∨ c = '-'

def toAsciiUppercase (text : String) : String :=
  String.ofList (text.toList.map Char.toUpper)

def allowedBuiltins : List String :=
  ["http_api", "fs"]

inductive ProviderModule where
  | digest (raw : String)
  | builtin (raw : String)
  deriving DecidableEq

def ProviderModule.isBuiltin : ProviderModule → Bool
  | builtin _ => true
  | digest _ => false

def ProviderModule.parse (raw : String) : Except ManifestError ProviderModule :=
  match stripText "builtin:" raw with
  | some name =>
    if name = "" then
      .error (.validation "provider_module_digest 'builtin:' has empty name")
    else if name ∉ allowedBuiltins then
      .error (.validation
        ("unknown builtin provider '" ++ name ++ "'; allowed: " ++ debugList allowedBuiltins))
    else .ok (builtin raw)
  | none =>
    match stripText "sha256:" raw with
    | some hex =>
      if hex.utf8ByteSize ≠ 64 then
        .error (.validation
          ("provider_module_digest must be 'sha256:<64-char-hex>' (got '" ++ raw ++ "')"))
      else if hex.toList.all isAsciiHexDigit = false then
        .error (.validation
          ("provider_module_digest hex portion contains non-hex characters (got '" ++ raw ++ "')"))
      else .ok (digest raw)
    | none =>
      .error (.validation
        ("provider_module_digest must start with 'sha256:' or 'builtin:' (got '" ++ raw ++ "')"))

def ResourceLimits.validate (limits : ResourceLimits) : Except ManifestError Unit :=
  if limits.fuel = 0 then .error (.resourceLimits "fuel")
  else if limits.memoryMb = 0 then .error (.resourceLimits "memory_mb")
  else if limits.timeoutSeconds = 0 then .error (.resourceLimits "timeout_seconds")
  else if limits.maxHostResponseBytes = 0 then .error (.resourceLimits "max_host_response_bytes")
  else .ok ()

def EgressConfig.toProfile (egress : EgressConfig) : Except ManifestError EgressProfile :=
  if egress.profile = "none" then .ok .none
  else if egress.profile = "proxy_allowlist" then .ok (.proxyAllowlist egress.allowedDomains)
  else .error (.validation
    ("unknown egress profile: '" ++ egress.profile ++ "' (expected 'none' or 'proxy_allowlist')"))

def validateScopeFormat (scope : String) : Except ManifestError Unit := do
  require (4 ≤ scope.utf8ByteSize ∧ scope.utf8ByteSize ≤ 64)
    ("scope '" ++ scope ++ "' has invalid length (" ++ toString scope.utf8ByteSize ++
      " chars); must be 4–64 characters")
  require (scope.toList.head?.any Char.isLower)
    ("scope '" ++ scope ++ "' must start with a lowercase letter [a-z]")
  require (scope.toList.all fun c => c.isLower ∨ c.isDigit ∨ c ∈ [':', '_', '-'])
    ("scope '" ++ scope ++ "' contains invalid characters; only [a-z0-9:_-] are permitted")
  require (':' ∈ scope.toList)
    ("scope '" ++ scope ++ "' must use 'namespace:name' format (missing ':' separator)")
  require (scope.toList.getLast? ≠ some ':')
    ("scope '" ++ scope ++ "' must not end with ':' (name part must not be empty)")

def allowedTemplateMethods : List String :=
  ["GET", "POST", "PUT", "DELETE", "PATCH", "HEAD", "OPTIONS"]

def TemplateConfig.validate (template : TemplateConfig) : Except ManifestError Unit := do
  require (toAsciiUppercase template.method ∈ allowedTemplateMethods)
    ("template method '" ++ template.method ++ "' is not allowed; accepted: " ++
      debugList allowedTemplateMethods)
  require (template.urlTemplate ≠ "") "template url_template must not be empty"
  require (startsWith "https://" template.urlTemplate || startsWith "http://" template.urlTemplate ||
      startsWith "\x7b\x7b" template.urlTemplate)
    ("template url_template must start with 'https://', 'http://', or '\x7b\x7b' (got '" ++
      template.urlTemplate ++ "')")

def RiskLevel.isHigh : RiskLevel → Bool
  | high | critical => true
  | low | medium => false

/-- The parts of the gate's environment that loading a manifest asks: the
YAML reader, the glob engine, the check of a domain entry and the digest. -/
structure Loader where
  parse : String → Except String ActionSpec
  compile : String → Except String GlobPattern
  validateManifestDomainEntry : String → Except String String
  computeDigest : ActionSpec → String

namespace ActionSpec

def validateActionId (spec : ActionSpec) : Except ManifestError Unit := do
  require (spec.actionId ≠ "") "action_id must not be empty"
  require (spec.actionId.utf8ByteSize ≤ 128)
    ("action_id '" ++ spec.actionId ++ "' exceeds maximum length of 128 characters")
  require (spec.actionId.toList.all isIdChar)
    ("action_id '" ++ spec.actionId ++
      "' contains invalid characters; only [a-zA-Z0-9_-] are permitted")

def validateEgress (loader : Loader) (spec : ActionSpec) : Except ManifestError Unit := do
  let _ ← spec.egress.toProfile
  spec.egress.allowedDomains.forM fun domain =>
    match loader.validateManifestDomainEntry domain with
    | .ok _ => .ok ()
    | .error e => .error (.validation
        ("egress.allowed_domains entry '" ++ domain ++ "' is invalid: " ++ e))

def validateScopes (spec : ActionSpec) : Except ManifestError Unit := do
  require (spec.requiredScopes ≠ [])
    "required_scopes must not be empty; every action must require at least \"tools:call\""
  require ("tools:call" ∈ spec.requiredScopes)
    "required_scopes must include \"tools:call\" (base execution capability — cannot be omitted)"
  spec.requiredScopes.forM validateScopeFormat

/-- A bare status check does not say which resource was affected. -/
def hasRequiredFields (spec : ActionSpec) : Bool :=
  (((spec.verificationConfig.bind fun config => config.get? "required_fields").bind
    Json.asArray?).any fun fields => !fields.isEmpty)

def validateRisk (spec : ActionSpec) : Except ManifestError Unit := do
  if spec.riskLevel.isHigh then
    require (spec.verifierKind ≠ .none)
      ("high/critical action '" ++ spec.actionId ++ "' must declare a verifier_kind (got 'none')")
    require (spec.io.responseSchema.isSome || spec.fs.isSome)
      ("high/critical action '" ++ spec.actionId ++ "' must declare io.response_schema")
    if spec.verifierKind = .httpStatus then
      require (spec.declaredSideEffects.all (endsWith "_read") || spec.hasRequiredFields)
        ("high/critical write action '" ++ spec.actionId ++ "' uses http_status verifier " ++
          "without verification_config.required_fields — a bare 2xx " ++
          "check is insufficient for destructive or financial operations")

def validateFs (spec : ActionSpec) (provider : ProviderModule) (fs : FsConfig) :
    Except ManifestError Unit := do
  require (provider = .builtin "builtin:fs")
    ("action '" ++ spec.actionId ++ "' has fs config but provider_module_digest is '" ++
      spec.providerModuleDigest ++ "'; fs actions must use 'builtin:fs'")
  require (spec.secrets = [])
    ("action '" ++ spec.actionId ++ "' has fs config with non-empty secrets; " ++
      "fs actions do not use secrets (filesystem authority is the gate's own UID)")
  let profile ← spec.egress.toProfile
  require (profile = .none)
    ("action '" ++ spec.actionId ++ "' has fs config with non-None egress; " ++
      "fs providers have no network capability")
  require (fs.allowedOperations ≠ [])
    ("action '" ++ spec.actionId ++ "' fs.allowed_operations must not be empty")
  require (0 < fs.maxFileBytes)
    ("action '" ++ spec.actionId ++ "' fs.max_file_bytes must be > 0")
  require (spec.verifierKind = .fsHash)
    ("action '" ++ spec.actionId ++ "' has fs config but verifier_kind is '" ++
      spec.verifierKind.asStr ++ "'; fs actions must use 'fs_hash'")

def validate (loader : Loader) (spec : ActionSpec) : Except ManifestError Unit := do
  spec.validateActionId
  let provider ← ProviderModule.parse spec.providerModuleDigest
  spec.requiredImports.forM fun name =>
    require (startsWith "latchgate:io/" name)
      ("required_imports must start with 'latchgate:io/' (got '" ++ name ++ "')")
  spec.resourceLimits.validate
  spec.validateEgress loader
  spec.validateScopes
  match spec.template with
  | some template =>
    template.validate
    require provider.isBuiltin
      ("template actions must use 'builtin:<name>' provider_module_digest (got '" ++
        spec.providerModuleDigest ++ "')")
  | none => pure ()
  spec.validateRisk
  match spec.fs with
  | some fs => spec.validateFs provider fs
  | none => pure ()

/-- The patterns of a manifest are compiled once, when it is loaded. -/
def compileFs (loader : Loader) (spec : ActionSpec) (fs : FsConfig) : Except ManifestError FsConfig := do
  let compiled (field : String) (patterns : List String) : Except ManifestError (List GlobPattern) :=
    (compilePatterns loader.compile patterns).mapError fun e =>
      .validation ("action '" ++ spec.actionId ++ "' fs." ++ field ++ ": " ++ e)
  let compiledAllowed ← compiled "allowed_paths" fs.allowedPaths
  let compiledDenied ← compiled "denied_paths" fs.deniedPaths
  .ok { fs with compiledAllowed, compiledDenied }

def loadFs (loader : Loader) (spec : ActionSpec) : Except ManifestError (Option FsConfig) :=
  match spec.fs with
  | some fs => (spec.compileFs loader fs).map some
  | none => .ok none

def fromYaml (loader : Loader) (yaml : String) : Except ManifestError ActionSpec := do
  let spec ← (loader.parse yaml).mapError .yaml
  spec.validate loader
  let fs ← spec.loadFs loader
  .ok { spec with fs, contentDigest := loader.computeDigest { spec with fs } }

theorem fromYaml_fs {loader : Loader} {yaml : String} {spec : ActionSpec} {fs : FsConfig}
    (accepted : fromYaml loader yaml = .ok spec) (declared : spec.fs = some fs) :
    compilePatterns loader.compile fs.allowedPaths = .ok fs.compiledAllowed ∧
      compilePatterns loader.compile fs.deniedPaths = .ok fs.compiledDenied := by
  simp only [fromYaml, Except.bind_eq_ok, Except.ok.injEq] at accepted
  obtain ⟨parsed, _, _, _, block, compiled, rfl⟩ := accepted
  cases given : parsed.fs with
  | none =>
    simp only [loadFs, given, Except.ok.injEq] at compiled
    subst compiled
    cases declared
  | some raw =>
    simp only [loadFs, given] at compiled
    obtain ⟨whole, made, rfl⟩ := Except.map_eq_ok.1 compiled
    obtain rfl : whole = fs := Option.some.inj declared
    simp only [compileFs, Except.bind_eq_ok, Except.mapError_eq_ok, Except.ok.injEq] at made
    obtain ⟨allowed, first, denied, second, rfl⟩ := made
    exact ⟨first, second⟩

end ActionSpec

def FsOperation.variants : List (String × FsOperation) :=
  [("read", .read), ("create", .create), ("overwrite", .overwrite), ("delete", .delete)]

namespace FsConfig

def fieldNames : List String :=
  ["allowed_operations", "allowed_paths", "denied_paths", "max_file_bytes"]

/-- The serialised form of the block, without its compiled patterns. -/
def toValue (fs : FsConfig) : Json :=
  .object
    [("allowed_operations", .array (fs.allowedOperations.map fun op => .string op.asStr)),
      ("allowed_paths", .array (fs.allowedPaths.map .string)),
      ("denied_paths", .array (fs.deniedPaths.map .string)),
      ("max_file_bytes", .number (.int fs.maxFileBytes.toNat))]

def fromValue (v : Json) : Option FsConfig :=
  (v.members fieldNames).bind fun member => do
    let allowedOperations ← Json.decodeRequired
      (Json.decodeList (Json.decodeVariant FsOperation.variants)) (member "allowed_operations")
    let allowedPaths ← Json.decodeOr [] (Json.decodeList Json.asStr?) (member "allowed_paths")
    let deniedPaths ← Json.decodeOr [] (Json.decodeList Json.asStr?) (member "denied_paths")
    let maxFileBytes ← Json.decodeOr defaultMaxFileBytes Json.decodeU64 (member "max_file_bytes")
    some { allowedOperations, allowedPaths, deniedPaths, maxFileBytes }

theorem stable_fromValue : Json.Stable fromValue := by
  refine Json.Stable.record fun alike => ?_
  simp only [(Json.stable_decodeVariant _).list.required (alike _),
    Json.stable_asStr?.list.or _ (alike _), Json.stable_decodeU64.or _ (alike _)]

theorem fromValue_toValue (fs : FsConfig) :
    fromValue fs.toValue = some { fs with compiledAllowed := [], compiledDenied := [] } := by
  have operation (op : FsOperation) :
      Json.decodeVariant FsOperation.variants (.string op.asStr) = some op := by
    cases op <;> rfl
  have path (text : String) : Json.asStr? (.string text) = some text := rfl
  simp [fromValue, toValue, Json.members, List.lookup_cons, Json.decodeList_map operation,
    Json.decodeList_map path, Json.decodeU64_toNat]

/-- What comes back from the stored block: its compiled patterns are gone. -/
theorem fromValue_reparse {read : FloatText → Except String FloatText} {fs : FsConfig} {w : Json}
    (reparsed : fs.toValue.reparse read = .ok w) :
    fromValue w = some { fs with compiledAllowed := [], compiledDenied := [] } := by
  rw [stable_fromValue _ _ _ reparsed, fromValue_toValue]

end FsConfig
end Latchgate
