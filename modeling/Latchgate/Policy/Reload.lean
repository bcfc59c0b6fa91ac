import Latchgate.Policy.Gate

namespace Latchgate

section
variable (env : GateEnv) (config : GateConfig) (files : GateFiles)

/-- There is a document, and it cannot be read. -/
def DataUnreadable : Prop :=
  ∃ path, resolveDataJsonPath config files = some path ∧ (files.data path).contents? = none

/-- The embedded engine refuses what was found. -/
def DataRefused : Prop :=
  config.opaUrl = none ∧ env.accepts (reloadedData config files) = false

/-- The embedded engine takes what was found. -/
def DataTaken : Prop :=
  config.opaUrl = none ∧ env.accepts (reloadedData config files) = true

/-- A reload is all or nothing, it reports the version in force, and with the
files that a gate was started from it changes nothing. -/
structure ReloadSound (external : Option String) (gate : RunningGate) : Prop where
  failed : ∀ e, (reload env config files gate).2 = .error e → (reload env config files gate).1 = gate
  refused : DataUnreadable config files ∨ DataRefused env config files → (reload env config files gate).1 = gate
  honest : ∀ report, (reload env config files gate).2 = .ok report →
    report.policyVersion = policyVersion env (reload env config files gate).1.data
  stable : startGate env config files external = .ok gate → (reload env config files gate).1 = gate

/-- What has to hold of the registry that the manifests directory alone gives:
it is the one in force where the document is unreadable or refused and where the
files are those of the start, and the document is then the one in force too. Where
the engine keeps its document, the file has the version of that one. -/
structure ReloadSafe (external : Option String) (gate : RunningGate) (registry : RegistryStore) : Prop where
  refused : DataUnreadable config files ∨ DataRefused env config files → registry = gate.registry
  unreadable : DataUnreadable config files → DataTaken env config files → gate.data = none
  kept : ¬DataTaken env config files → policyVersion env (reloadedData config files) = policyVersion env gate.data
  started : startGate env config files external = .ok gate → registry = gate.registry
  startedData : startGate env config files external = .ok gate → DataTaken env config files →
    reloadedData config files = loadPolicyData config files

end

section
variable {env : GateEnv} {config : GateConfig} {files : GateFiles} {external data : Option String} {gate : RunningGate}
  {registry : RegistryStore}

theorem reloadPolicyData_of_taken (taken : DataTaken env config files) :
    reloadPolicyData env config (reloadedData config files) gate = { gate with data := reloadedData config files } := by
  unfold reloadPolicyData
  rw [if_pos ⟨by simp [taken.1], taken.2⟩]

theorem reloadPolicyData_of_not_taken (kept : ¬DataTaken env config files) :
    reloadPolicyData env config (reloadedData config files) gate = gate := by
  unfold reloadPolicyData
  rw [if_neg fun taken => kept ⟨by simpa using taken.1, taken.2⟩]

/-- An unreadable document is reloaded as none. -/
theorem reloadedData_of_unreadable (unreadable : DataUnreadable config files) : reloadedData config files = none := by
  obtain ⟨path, found, notRead⟩ := unreadable
  rw [reloadedData, found, Option.bind_some, notRead]

/-- With an embedded engine a gate starts with the document it finds. -/
theorem startGate_data (embedded : config.opaUrl = none) (started : startGate env config files external = .ok gate) :
    gate.data = loadPolicyData config files := by
  simp only [startGate, Except.bind_eq_ok] at started
  obtain ⟨registry, -, -, -, made⟩ := started
  rw [if_neg (by simp [embedded])] at made
  split_ifs at made
  cases made
  rfl

theorem reload_of_error {detail : String} (unloaded : reloadedRegistry env config files = .error detail) :
    (reload env config files gate).1 = gate ∧ ∃ e, (reload env config files gate).2 = .error e := by
  unfold reload
  rw [unloaded]
  exact ⟨rfl, _, rfl⟩

theorem reload_of_ok (loaded : reloadedRegistry env config files = .ok registry) :
    reload env config files gate =
      (reloadPolicyData env config (reloadedData config files) { gate with registry },
        .ok ⟨registry.len, policyVersion env (reloadedData config files)⟩) := by
  unfold reload
  rw [loaded]

/-- A reload keeps a gate just where it finds what the gate has. -/
theorem reload_eq_self (loaded : reloadedRegistry env config files = .ok registry) :
    (reload env config files gate).1 = gate ↔
      registry = gate.registry ∧ (DataTaken env config files → reloadedData config files = gate.data) := by
  rw [reload_of_ok loaded]
  obtain ⟨inForce, document⟩ := gate
  by_cases taken : DataTaken env config files
  · simp [reloadPolicyData_of_taken taken, taken]
  · simp [reloadPolicyData_of_not_taken taken, taken]

theorem reloadSound_of_ok (loaded : reloadedRegistry env config files = .ok registry) :
    ReloadSound env config files external gate ↔ ReloadSafe env config files external gate registry := by
  have answer := congrArg Prod.snd (@reload_of_ok env config files gate registry loaded)
  constructor
  · intro sound
    refine ⟨fun refused => ((reload_eq_self loaded).mp (sound.refused refused)).1, fun unreadable taken => ?_,
      fun kept => ?_, fun started => ((reload_eq_self loaded).mp (sound.stable started)).1, fun started taken => ?_⟩
    · have same := ((reload_eq_self loaded).mp (sound.refused (.inl unreadable))).2 taken
      rw [← same]
      exact reloadedData_of_unreadable unreadable
    · have honest := sound.honest _ answer
      rwa [reload_of_ok loaded, reloadPolicyData_of_not_taken kept] at honest
    · rw [((reload_eq_self loaded).mp (sound.stable started)).2 taken]
      exact startGate_data taken.1 started
  · intro safe
    refine ⟨fun e failed => ?_, fun refused => (reload_eq_self loaded).mpr ⟨safe.refused refused, fun taken => ?_⟩,
      fun report reported => ?_, fun started => (reload_eq_self loaded).mpr ⟨safe.started started, fun taken => ?_⟩⟩
    · rw [answer] at failed
      cases failed
    · rcases refused with unreadable | refused
      · rw [reloadedData_of_unreadable unreadable, safe.unreadable unreadable taken]
      · exact absurd (taken.2.symm.trans refused.2) (by decide)
    · rw [answer] at reported
      cases reported
      rw [reload_of_ok loaded]
      by_cases taken : DataTaken env config files
      · rw [reloadPolicyData_of_taken taken]
      · rw [reloadPolicyData_of_not_taken taken]
        exact safe.kept taken
    · rw [safe.startedData started taken, startGate_data taken.1 started]

end

/-- In production, and without manifests of a user, a reload reads the manifests
that the gate was started with. -/
theorem reloadedRegistry_of_started {env : GateEnv} {config : GateConfig} {files : GateFiles} {registry : RegistryStore}
    (strict : config.devMode = false) (single : config.manifestDirs = [config.manifestsDir])
    (started : initRegistry env config files = .ok registry) : reloadedRegistry env config files = .ok registry := by
  simp only [initRegistry, single, List.foldlM_cons, List.foldlM_nil, addManifestDir, strict, Except.bind_eq_ok,
    Except.mapError_eq_ok] at started
  obtain ⟨builder, embedded, loaded, ⟨whole, added, same⟩, made⟩ := started
  cases same
  cases made
  simp only [reloadedRegistry, Except.bind_eq_ok, Except.mapError_eq_ok]
  exact ⟨builder, embedded, _, added, rfl⟩

section Samples
open PolicyData

/-- A gate with no manifests and this document. -/
def startedGate (doc : Json) : RunningGate where
  registry := ⟨[], 0⟩
  data := some doc.toCompactString

theorem startGate_oneDocument (doc : Json) :
    startGate (oneDocument doc) plainConfig (onlyData (.text doc.toCompactString)) none = .ok (startedGate doc) := by
  have found : loadPolicyData plainConfig (onlyData (.text doc.toCompactString)) = some doc.toCompactString := rfl
  have registry : initRegistry (oneDocument doc) plainConfig (onlyData (.text doc.toCompactString)) = .ok ⟨[], 0⟩ := rfl
  have valid : validateSecurityConstraints (oneDocument doc) plainConfig ⟨[], 0⟩ (some doc.toCompactString) = .ok () := by
    simp [validateSecurityConstraints, oneDocument, Except.toOption, validateWildcardAcl, RegistryStore.getAction]
  have taken : (oneDocument doc).accepts (some doc.toCompactString) = true := by
    simp [oneDocument]
  simp only [startGate, found, Except.bind_eq_ok, Except.mapError_eq_ok]
  exact ⟨_, registry, (), valid, by rw [if_pos taken]; rfl⟩

theorem policyVersion_oneDocument (doc : Json) :
    policyVersion (oneDocument doc) (startedGate doc).data = versionText doc := by
  have parsed : (oneDocument doc).parse doc.toCompactString = .ok doc := if_pos rfl
  simp only [policyVersion, startedGate, Option.bind_some, parsed, Except.toOption, versionText]

theorem toCompactString_object_ne_empty (fields : List (String × Json)) : (Json.object fields).toCompactString ≠ "" := by
  intro empty
  have chars := congrArg String.toList empty
  cases fields <;> simp [Json.toCompactString, Json.compact] at chars

/-- A reload of an emptied document reports success and no version, and the
document of the start stays in force. -/
theorem emptied_not_sound {doc : Json} (printed : doc.toCompactString ≠ "") (versioned : versionText doc ≠ "") :
    ¬ReloadSound (oneDocument doc) plainConfig (onlyData (.text "")) none (startedGate doc) := by
  intro sound
  have found : reloadedData plainConfig (onlyData (.text "")) = some "" := rfl
  have refused : ¬DataTaken (oneDocument doc) plainConfig (onlyData (.text "")) := by
    rintro ⟨-, taken⟩
    rw [found] at taken
    exact printed (of_decide_eq_true taken).symm
  have loaded : reloadedRegistry (oneDocument doc) plainConfig (onlyData (.text "")) = .ok ⟨[], 0⟩ := rfl
  have answer := @reload_of_ok _ _ _ (startedGate doc) _ loaded
  have honest := sound.honest _ (congrArg Prod.snd answer)
  rw [answer, reloadPolicyData_of_not_taken refused, found] at honest
  have unread : (oneDocument doc).parse "" = .error "expected value" := if_neg (Ne.symm printed)
  have reported : policyVersion (oneDocument doc) (some "") = "" := by
    simp only [policyVersion, Option.bind_some, unread, Except.toOption, Option.bind_none, Option.getD_none]
  have inForce := policyVersion_oneDocument doc
  exact versioned (inForce.symm.trans (honest.symm.trans reported))

end Samples

end Latchgate
