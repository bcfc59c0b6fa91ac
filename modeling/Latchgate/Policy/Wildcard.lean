import Latchgate.Json.Compact
import Latchgate.Machine.Run
import Latchgate.Policy.Gate

namespace Latchgate
open PolicyData

/-- What an operator asks of a running gate. Of an edit it is also said how the
file system answers the write. -/
inductive AdminOp where
  | edit (request : AdminRequest) (written : Except String Unit)
  | reload

section
variable (env : GateEnv) (config : GateConfig)

/-- The document that an edit starts from. -/
def readDataJson (files : GateFiles) : Except String Json :=
  match resolveDataJsonPath config files with
  | none => .error "data.json not found"
  | some path =>
    match files.data path with
    | .text contents => (env.parse contents).mapError fun e => "invalid JSON in " ++ path ++ ": " ++ e
    | .unreadable reason => .error ("cannot read " ++ path ++ ": " ++ reason)
    | .missing | .directory => .error ("cannot read " ++ path)

/-- The text that an edit puts on file, if it writes one. -/
def editData (registry : RegistryStore) (request : AdminRequest) (files : GateFiles) (written : Except String Unit) :
    Except EditError (Option String) := do
  let doc ← (readDataJson env config files).mapError EditError.failed
  match ← request.edit registry doc with
  | none => .ok none
  | some edited => (written.map fun _ => some (env.pretty edited)).mapError EditError.failed

def editGate (files : GateFiles) (request : AdminRequest) (written : Except String Unit) (gate : RunningGate) :
    RunningGate × Except ApiError Unit :=
  match request.check gate.registry with
  | .error e => (gate, .error e)
  | .ok _ =>
    match editData env config gate.registry request files written with
    | .error e => (gate, .error (request.refusal e))
    | .ok none => (gate, .ok ())
    | .ok (some text) => (reloadPolicyData env config (some text) gate, .ok ())

/-- The registry and the document in force through a run of operations, each
of which meets the files as they then are. -/
def gateMachine : Machine RunningGate (GateFiles × AdminOp) (Except ApiError Unit) where
  step gate input :=
    match input.2 with
    | .edit request written => editGate env config input.1 request written gate
    | .reload => ((reload env config input.1 gate).1, (reload env config input.1 gate).2.map fun _ => ())

end

/-- An action that the registry does not know, or knows to be of low or medium
risk. -/
def LowRisk (registry : RegistryStore) (actionId : String) : Prop :=
  ∀ spec, registry.getAction actionId = some spec → spec.riskLevel.isHigh = false

/-- The document in force grants the wildcard nothing of high or critical
risk. -/
def WildcardContained (env : GateEnv) (gate : RunningGate) : Prop :=
  ∀ text doc, gate.data = some text → env.parse text = .ok doc →
    ∀ actionId ∈ wildcardActions doc, LowRisk gate.registry actionId

/-- The wildcard's actions once a request is through. -/
def AdminRequest.wildcardAfter (doc : Json) : AdminRequest → List String
  | grant principal actions => if principal = "*" then wildcardActions doc ++ actions else wildcardActions doc
  | revoke principal actions =>
    if principal = "*" then (wildcardActions doc).filter fun action => action ∉ actions else wildcardActions doc
  | allow _ _ | disallow _ _ => wildcardActions doc

/-- What an edit or a reload is about to put in force together passes the check
of the start. -/
def WildcardGuard (env : GateEnv) (config : GateConfig) (gate : RunningGate) (input : GateFiles × AdminOp) : Prop :=
  match input.2 with
  | .edit request _ => ∀ doc, readDataJson env config input.1 = .ok doc →
    ∀ actionId ∈ request.wildcardAfter doc, LowRisk gate.registry actionId
  | .reload => ∀ registry, reloadedRegistry env config input.1 = .ok registry →
    WildcardContained env { registry, data :=
      if config.opaUrl.isNone ∧ env.accepts (reloadedData config input.1) then reloadedData config input.1
      else gate.data }

section Documents
variable {doc after : Json} {registry : RegistryStore} {principal : String} {actions : List String}

def listedActions (entry : Option Json) : List String :=
  (((entry.bind (Json.get? "allowed_actions")).bind Json.asArray?).getD []).filterMap Json.asStr?

theorem wildcardActions_eq {acl : List (String × Json)} (found : doc.get? "acl" = some (.object acl)) :
    wildcardActions doc = listedActions (acl.lookup "*") := by
  unfold wildcardActions
  rw [found]
  rfl

theorem listedActions_withActions (kept : List String) (fields : List (String × Json)) :
    listedActions (some (withActions registry kept fields)) = kept := by
  have found : (withActions registry kept fields).get? "allowed_actions" = some (textArray kept) := by
    show (Json.insertField _ _ (Json.insertField _ _ fields)).lookup _ = _
    rw [Json.lookup_insertField, if_neg (by decide), Json.lookup_insertField, if_pos rfl]
  unfold listedActions
  rw [Option.bind_some, found]
  simp [textArray, Json.asArray?, Json.asStr?, List.filterMap_map, Function.comp_def]

theorem wildcardActions_grant (made : grantActions registry principal actions doc = .ok after)
    {action : String} (member : action ∈ wildcardActions after) :
    action ∈ (AdminRequest.grant principal actions).wildcardAfter doc := by
  obtain ⟨acl, fields, looked, isEntry, replaced⟩ := grantActions_eq_ok made
  have before : wildcardActions doc = listedActions (acl.lookup "*") := by
    rw [looked]
    rfl
  rw [wildcardActions_eq replaced.acl, Json.lookup_insertField] at member
  rw [AdminRequest.wildcardAfter]
  by_cases isStar : principal = "*"
  · subst isStar
    rw [if_pos rfl, listedActions_withActions, mem_sortedTexts] at member
    have current : currentActions fields = wildcardActions doc := by
      rw [before]
      cases known : acl.lookup "*" with
      | none =>
        rw [known] at isEntry
        cases isEntry
        rfl
      | some value =>
        rw [known] at isEntry
        cases isEntry
        rfl
    rw [if_pos rfl, ← current]
    exact member
  · rw [if_neg (Ne.symm isStar)] at member
    rw [if_neg isStar, before]
    exact member

theorem wildcardActions_revoke (made : revokeActions registry principal actions doc = .ok (some after))
    {action : String} (member : action ∈ wildcardActions after) :
    action ∈ (AdminRequest.revoke principal actions).wildcardAfter doc := by
  obtain ⟨acl, looked, outcome⟩ := revokeActions_eq_ok made
  rcases outcome with ⟨-, nothing⟩ | ⟨fields, after', known, same, replaced⟩
  · cases nothing
  cases same
  have before : wildcardActions doc = listedActions (acl.lookup "*") := by
    rw [looked]
    rfl
  rw [wildcardActions_eq replaced.acl] at member
  rw [AdminRequest.wildcardAfter]
  by_cases isStar : principal = "*"
  · subst isStar
    rw [if_pos rfl, before, known]
    split_ifs at member with empty
    · rw [lookup_removeField, if_pos rfl] at member
      cases member
    · rw [Json.lookup_insertField, if_pos rfl, listedActions_withActions, remainingActions, mem_sortedTexts] at member
      exact member
  · rw [if_neg isStar, before]
    split_ifs at member
    · rwa [lookup_removeField, if_neg (Ne.symm isStar)] at member
    · rwa [Json.lookup_insertField, if_neg (Ne.symm isStar)] at member

theorem wildcardActions_edit {request : AdminRequest} (done : request.edit registry doc = .ok (some after))
    {action : String} (member : action ∈ wildcardActions after) : action ∈ request.wildcardAfter doc := by
  cases request with
  | grant principal actions =>
    obtain ⟨after', made, same⟩ := Except.map_eq_ok.1 done
    cases same
    exact wildcardActions_grant made member
  | revoke principal actions => exact wildcardActions_revoke done member
  | allow actionId agentId =>
    obtain ⟨after', made, same⟩ := Except.map_eq_ok.1 done
    cases same
    unfold wildcardActions at member
    rwa [get?_addAllowlistEntry made (by decide)] at member
  | disallow actionId agentId =>
    obtain ⟨after', made, same⟩ := Except.map_eq_ok.1 done
    cases same
    unfold wildcardActions at member
    rwa [get?_removeAllowlistEntry made (by decide)] at member

/-- What is read back grants the wildcard the same. -/
theorem wildcardActions_reparse {read : FloatText → Except String FloatText} {again : Json}
    (reparsed : doc.reparse read = .ok again) : wildcardActions again = wildcardActions doc := by
  have member : ∀ (name : String) {m n : Option Json}, Json.Reread read m n →
      Json.Reread read (m.bind (Json.get? name)) (n.bind (Json.get? name)) := by
    intro name m n alike
    cases alike with
    | absent => exact .absent
    | present same => exact Json.get?_reparse name same
  have listed : ∀ {m n : Option Json}, Json.Reread read m n →
      ((n.bind Json.asArray?).getD []).filterMap Json.asStr? = ((m.bind Json.asArray?).getD []).filterMap Json.asStr? := by
    intro m n alike
    cases alike with
    | absent => rfl
    | @present v w same =>
      have texts := Json.stable_texts _ _ _ same
      simp only [Option.bind_some]
      cases first : v.asArray? <;> cases second : w.asArray? <;> simp_all
  exact listed (member _ (member _ (member "acl" (.present reparsed))))

end Documents

section Gates
variable {env : GateEnv} {config : GateConfig} {files : GateFiles} {gate : RunningGate}

/-- With the protection on, the check of the start is just this. -/
theorem wildcardContained_of_valid (secure : config.aclInsecure = false)
    (valid : validateSecurityConstraints env config gate.registry gate.data = .ok ()) : WildcardContained env gate := by
  intro text doc known parsed actionId member spec registered
  have found : (gate.data.bind fun text => (env.parse text).toOption) = some doc := by
    rw [known, Option.bind_some, parsed]
    rfl
  simp only [validateSecurityConstraints, found, validateWildcardAcl, secure, Bool.false_eq_true, if_false] at valid
  split_ifs at valid with none
  by_contra high
  have pair : (actionId, spec.riskLevel) ∈ (wildcardActions doc).filterMap fun id =>
      (gate.registry.getAction id).map fun spec => (id, spec.riskLevel) :=
    List.mem_filterMap.mpr ⟨actionId, member, by rw [registered]; rfl⟩
  rw [List.isEmpty_iff, List.map_eq_nil_iff, List.filter_eq_nil_iff] at none
  exact none _ pair (by simpa using high)

theorem wildcardContained_start {external : Option String} (secure : config.aclInsecure = false)
    (started : startGate env config files external = .ok gate)
    (hosted : config.opaUrl.isSome = true → WildcardContained env gate) : WildcardContained env gate := by
  by_cases outside : config.opaUrl.isSome = true
  · exact hosted outside
  · simp only [startGate, Except.bind_eq_ok] at started
    obtain ⟨registry, -, checked, valid, made⟩ := started
    rw [if_neg outside] at made
    split_ifs at made
    cases made
    exact wildcardContained_of_valid secure (Except.mapError_eq_ok.1 valid)

theorem wildcardContained_edit (rereads : env.Rereads) {request : AdminRequest} {written : Except String Unit}
    (guarded : WildcardGuard env config gate (files, .edit request written)) (contained : WildcardContained env gate) :
    WildcardContained env (editGate env config files request written gate).1 := by
  unfold editGate
  cases request.check gate.registry with
  | error e => exact contained
  | ok _ =>
    cases edited : editData env config gate.registry request files written with
    | error e => exact contained
    | ok outcome =>
      cases outcome with
      | none => exact contained
      | some text =>
        show WildcardContained env (reloadPolicyData env config (some text) gate)
        unfold reloadPolicyData
        split_ifs
        · simp only [editData, Except.bind_eq_ok, Except.mapError_eq_ok] at edited
          obtain ⟨doc, read, result, done, printed⟩ := edited
          cases result with
          | none => cases printed
          | some after =>
            obtain ⟨_, -, same⟩ := Except.map_eq_ok.1 (Except.mapError_eq_ok.1 printed)
            cases same
            intro text again known parsed actionId member
            cases known
            rw [wildcardActions_reparse (rereads after again parsed)] at member
            exact guarded doc read actionId (wildcardActions_edit done member)
        · exact contained

theorem wildcardContained_reload (guarded : WildcardGuard env config gate (files, .reload))
    (contained : WildcardContained env gate) : WildcardContained env (reload env config files gate).1 := by
  unfold reload
  cases loaded : reloadedRegistry env config files with
  | error detail => exact contained
  | ok registry =>
    have passes := guarded registry loaded
    show WildcardContained env (reloadPolicyData env config (reloadedData config files) { gate with registry })
    unfold reloadPolicyData
    split_ifs with taken
    · rwa [if_pos taken] at passes
    · rwa [if_neg taken] at passes

end Gates

section Samples

def wireSpec : ActionSpec where
  actionId := "wire_read"
  version := "1.0.0"
  providerModuleDigest := "builtin:http_api"
  verifierKind := .httpStatus
  io := { responseSchema := some (.inline (.object [])) }
  riskLevel := .critical
  declaredSideEffects := ["bank_read"]

/-- One critical action is part of the binary, and these documents read back. -/
def wireEnv (docs : List Json) : GateEnv where
  loader := ⟨⟨fun _ => .ok wireSpec, fun _ => .error "no pattern", .ok, fun _ => ""⟩, fun _ _ => true⟩
  embedded := [("wire_read.yaml", "")]
  parse text := match docs.find? fun doc => doc.toCompactString = text with
    | some doc => .ok doc
    | none => .error "expected value"
  pretty := Json.toCompactString
  reread := .ok
  accepts _ := true

theorem wireEnv_parse {docs : List Json} {text : String} {doc : Json} (parsed : (wireEnv docs).parse text = .ok doc) :
    doc.toCompactString = text := by
  simp only [wireEnv] at parsed
  split at parsed
  · rename_i found
    cases parsed
    simpa using List.find?_some found
  · cases parsed

theorem wireEnv_rereads (docs : List Json) : (wireEnv docs).Rereads := by
  intro doc again parsed
  obtain rfl := Json.toCompactString_injective (wireEnv_parse parsed)
  exact Json.reparse_ok again

theorem wireEnv_parse_pretty {docs : List Json} {doc : Json} (member : doc ∈ docs) :
    (wireEnv docs).parse doc.toCompactString = .ok doc := by
  simp only [wireEnv]
  cases found : docs.find? fun other => other.toCompactString = doc.toCompactString with
  | none => exact absurd (List.find?_eq_none.mp found doc member) (by simp)
  | some other =>
    have same : other.toCompactString = doc.toCompactString := by simpa using List.find?_some found
    rw [Json.toCompactString_injective same]

def wireRegistry : RegistryStore where
  actions := [("wire_read", ⟨wireSpec, {}, .embedded, "embedded:wire_read.yaml"⟩)]
  overrideCount := 0

def wireGate (doc : Json) : RunningGate where
  registry := wireRegistry
  data := some doc.toCompactString

def everyoneMay (actions sinks : List String) (version : String) : Json :=
  .object [("acl", .object [("*", .object [("allowed_actions", textArray actions), ("allowed_sinks", textArray sinks)])]),
    ("policy_version", .string version)]

/-- Everyone may read. -/
def beforeGrant : Json :=
  everyoneMay ["http_read"] [] "v1"

/-- Everyone may also wire. -/
def afterGrant : Json :=
  everyoneMay ["http_read", "wire_read"] ["bank_read"] "v1-1"

theorem startGate_wire {docs : List Json} (member : beforeGrant ∈ docs) :
    startGate (wireEnv docs) plainConfig (onlyData (.text beforeGrant.toCompactString)) none =
      .ok (wireGate beforeGrant) := by
  have registry : initRegistry (wireEnv docs) plainConfig (onlyData (.text beforeGrant.toCompactString)) =
    .ok wireRegistry := rfl
  have parsed := wireEnv_parse_pretty member
  have valid : validateSecurityConstraints (wireEnv docs) plainConfig wireRegistry
      (some beforeGrant.toCompactString) = .ok () := by
    simp only [validateSecurityConstraints, Option.bind_some, parsed, Except.toOption]
    rfl
  simp only [startGate, Except.bind_eq_ok, Except.mapError_eq_ok]
  exact ⟨_, registry, (), valid, rfl⟩

theorem readDataJson_wire {docs : List Json} {doc : Json} (member : doc ∈ docs) :
    readDataJson (wireEnv docs) plainConfig (onlyData (.text doc.toCompactString)) = .ok doc := by
  show ((wireEnv docs).parse doc.toCompactString).mapError _ = .ok doc
  rw [wireEnv_parse_pretty member]
  rfl

theorem editGate_wire {docs : List Json} {doc after : Json} {request : AdminRequest} (member : doc ∈ docs)
    (checked : request.check wireRegistry = .ok ()) (done : request.edit wireRegistry doc = .ok (some after)) :
    (editGate (wireEnv docs) plainConfig (onlyData (.text doc.toCompactString)) request (.ok ()) (wireGate doc)).1 =
      wireGate after := by
  have edited : editData (wireEnv docs) plainConfig wireRegistry request (onlyData (.text doc.toCompactString)) (.ok ()) =
      .ok (some after.toCompactString) := by
    simp only [editData, Except.bind_eq_ok, Except.mapError_eq_ok]
    exact ⟨doc, readDataJson_wire member, some after, done, rfl⟩
  have checked : request.check (wireGate doc).registry = .ok () := checked
  have edited : editData (wireEnv docs) plainConfig (wireGate doc).registry request
    (onlyData (.text doc.toCompactString)) (.ok ()) = .ok (some after.toCompactString) := edited
  simp only [editGate, checked, edited]
  rfl

end Samples

end Latchgate
