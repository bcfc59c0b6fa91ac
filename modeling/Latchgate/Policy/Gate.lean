import Latchgate.Policy.Data

namespace Latchgate

/-- What is found under a path where a policy document may stand. -/
inductive PathState where
  | missing
  | directory
  | unreadable (reason : String)
  | text (contents : String)

def PathState.isFile : PathState → Bool
  | missing | directory => false
  | unreadable _ | text _ => true

def PathState.contents? : PathState → Option String
  | text contents => some contents
  | missing | directory | unreadable _ => none

structure GateFiles where
  manifests : ManifestFiles
  data : String → PathState

/-- For a project, the manifests of its user are merged in before its own. A
document may also stand beside the directory of the manifests. -/
structure GateConfig where
  manifestsDir : String
  userManifestsDir : Option String := none
  dataBeside : Option String := none
  devMode : Bool := false
  aclInsecure : Bool := false
  opaUrl : Option String := none

namespace GateConfig

def manifestDirs (config : GateConfig) : List String :=
  (config.userManifestsDir.filter (· ≠ config.manifestsDir)).toList ++ [config.manifestsDir]

/-- Where a policy document is looked for, in this order. -/
def dataPaths (config : GateConfig) : List String :=
  [".latchgate/policies/data.json", "policies/data.json", "policies/opa/data.json"] ++ config.dataBeside.toList

end GateConfig

/-- What the gate is built with: its embedded manifests, the reader and printer
of documents, and whether the policy engine takes a document. `reread` is how
the text of a double reads. -/
structure GateEnv where
  loader : RegistryLoader
  embedded : List (String × String)
  parse : String → Except String Json
  pretty : Json → String
  reread : FloatText → Except String FloatText
  accepts : Option String → Bool

/-- What is read back is what was printed, up to its doubles. -/
def GateEnv.Rereads (env : GateEnv) : Prop :=
  ∀ doc again, env.parse (env.pretty doc) = .ok again → doc.reparse env.reread = .ok again

/-- The registry and the document in force. With an external engine the
document is that engine's. -/
structure RunningGate where
  registry : RegistryStore
  data : Option String

section Startup
variable (env : GateEnv) (config : GateConfig) (files : GateFiles)

/-- A document that cannot be read is passed over for the next. -/
def loadPolicyData : Option String :=
  config.dataPaths.findSome? fun path => (files.data path).contents?

def addManifestDir (builder : RegistryBuilder) (dir : String) : Except String RegistryBuilder :=
  let loaded := if config.devMode then (builder.addDirLenient env.loader files.manifests dir).map Prod.fst
    else builder.addDir env.loader files.manifests dir
  loaded.mapError fun e => e.display ++ " — check manifests dir: " ++ dir

def initRegistry : Except String RegistryStore := do
  let builder ← (RegistryBuilder.addEmbedded env.loader files.manifests env.embedded {}).mapError StoreError.display
  let builder ← config.manifestDirs.foldlM (addManifestDir env config files) builder
  .ok builder.build

/-- The actions that a document grants the wildcard. -/
def wildcardActions (doc : Json) : List String :=
  (((((doc.get? "acl").bind (Json.get? "*")).bind (Json.get? "allowed_actions")).bind Json.asArray?).getD []).filterMap
    Json.asStr?

/-- The names of the actions that may not be granted to everyone. -/
def validateWildcardAcl (pairs : List (String × RiskLevel)) : Except (List String) Unit :=
  if config.aclInsecure then .ok ()
  else
    let high := (pairs.filter fun pair => pair.2.isHigh).map Prod.fst
    if high.isEmpty then .ok () else .error high

def validateSecurityConstraints (registry : RegistryStore) (data : Option String) : Except (List String) Unit :=
  match data.bind fun text => (env.parse text).toOption with
  | some doc =>
    validateWildcardAcl config ((wildcardActions doc).filterMap fun actionId =>
      (registry.getAction actionId).map fun spec => (actionId, spec.riskLevel))
  | none => .ok ()

inductive InitError where
  | registry (message : String)
  | config (wildcardActions : List String)
  | policy

/-- A gate is started with the registry and the document it finds, unless one
of them is refused. `external` is the document of an external engine. -/
def startGate (external : Option String) : Except InitError RunningGate := do
  let data := loadPolicyData config files
  let registry ← (initRegistry env config files).mapError InitError.registry
  (validateSecurityConstraints env config registry data).mapError InitError.config
  if config.opaUrl.isSome then .ok { registry, data := external }
  else if env.accepts data then .ok { registry, data }
  else .error .policy

end Startup

section Reload
variable (env : GateEnv) (config : GateConfig) (files : GateFiles)

/-- The first path with a file. -/
def resolveDataJsonPath : Option String :=
  config.dataPaths.find? fun path => (files.data path).isFile

/-- The document a reload finds. One that cannot be read is no document. -/
def reloadedData : Option String :=
  (resolveDataJsonPath config files).bind fun path => (files.data path).contents?

/-- A document that the engine does not take leaves the one in force. -/
def reloadPolicyData (data : Option String) (gate : RunningGate) : RunningGate :=
  if config.opaUrl.isNone ∧ env.accepts data then { gate with data } else gate

def reloadedRegistry : Except String RegistryStore := do
  let builder ← (RegistryBuilder.addEmbedded env.loader files.manifests env.embedded {}).mapError fun e =>
    "embedded manifests: " ++ e.display
  let builder ← (builder.addDir env.loader files.manifests config.manifestsDir).mapError fun e =>
    "manifests dir: " ++ e.display
  .ok builder.build

def policyVersion (data : Option String) : String :=
  (((data.bind fun text => (env.parse text).toOption).bind (Json.get? "policy_version")).bind Json.asStr?).getD ""

structure ReloadReport where
  actions : Nat
  policyVersion : String

def reload (gate : RunningGate) : RunningGate × Except ApiError ReloadReport :=
  match reloadedRegistry env config files with
  | .error detail => (gate, .error { status := 500, error := "reload_failed", fields := [("detail", detail)] })
  | .ok registry =>
    let data := reloadedData config files
    (reloadPolicyData env config data { gate with registry },
      .ok { actions := registry.len, policyVersion := policyVersion env data })

end Reload

section Samples

/-- No manifests, and one document that can be read. -/
def oneDocument (doc : Json) : GateEnv where
  loader := ⟨⟨fun _ => .error "no manifest", fun _ => .error "no pattern", .ok, fun _ => ""⟩, fun _ _ => true⟩
  embedded := []
  parse text := if text = doc.toCompactString then .ok doc else .error "expected value"
  pretty := Json.toCompactString
  reread := .ok
  accepts data := data.all (· = doc.toCompactString)

def plainConfig : GateConfig where
  manifestsDir := "manifests"

/-- The policy document is all there is. -/
def onlyData (state : PathState) : GateFiles where
  manifests := { dir := fun _ => .missing, compileActionSchemas := fun _ _ => .ok {} }
  data path := if path = ".latchgate/policies/data.json" then state else .missing

end Samples

end Latchgate
