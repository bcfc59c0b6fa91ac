import Latchgate.Machine.Run
import Latchgate.Registry.Store
import Mathlib.Data.List.Nodup
import Mathlib.Data.List.Pairwise
import Mathlib.Logic.Function.Basic

namespace Latchgate

/-! The maps of the builder, one by one. -/

@[ext]
structure RegistryMaps where
  actions : String → Option ActionSpec := fun _ => none
  schemas : String → Option ActionSchemas := fun _ => none
  provenance : String → Option SourceKind := fun _ => none
  sourceFiles : String → Option String := fun _ => none
  overrideCount : Nat := 0

/-- What a source has in one place: nothing of interest, something that always
fails, a file without a valid manifest, or a manifest whose schemas compile or
do not. -/
inductive Listed where
  | ignored
  | fatal (e : StoreError)
  | malformed (path : String) (e : StoreError)
  | manifest (path : String) (spec : ActionSpec) (schemas : Except StoreError ActionSchemas)

/-- The sources, each directory with the order in which it is enumerated. -/
inductive RegistrySource where
  | embedded (manifests : List (String × String))
  | dir (path : String) (lenient : Bool) (listing : Directory)

section Reading
variable (loader : RegistryLoader) (files : ManifestFiles)

def readEmbedded (manifest : String × String) : Listed :=
  let file := "embedded:" ++ manifest.1
  match ActionSpec.fromYaml loader.toLoader manifest.2 with
  | .error e => .malformed file (.loadManifest file e)
  | .ok spec => .manifest file spec (files.compileActionSchemas "" manifest.2)

def readEntry (dir : String) : Except String DirEntry → Listed
  | .error reason => .fatal (.readDir reason)
  | .ok entry =>
    if entry.extension ≠ some "yaml" ∧ entry.extension ≠ some "yml" then .ignored
    else if !entry.contained then .fatal (.pathTraversal entry.path dir)
    else match RegistryBuilder.fromFile loader entry with
      | .error e => .malformed entry.path e
      | .ok (text, spec) => .manifest entry.path spec (files.compileActionSchemas dir text)

end Reading

namespace RegistryMaps
variable (loader : RegistryLoader) (files : ManifestFiles)

def insert (kind : SourceKind) (path : String) (spec : ActionSpec) (schemas : ActionSchemas) (m : RegistryMaps) :
    RegistryMaps where
  sourceFiles := Function.update m.sourceFiles spec.actionId (some path)
  schemas := Function.update m.schemas spec.actionId (some schemas)
  provenance := Function.update m.provenance spec.actionId (some kind)
  actions := Function.update m.actions spec.actionId (some spec)
  overrideCount := m.overrideCount

/-- The file that has the action already, where that is an error: any file for
a manifest of the binary, one of the same directory for a file. -/
def duplicate (kind : SourceKind) (actionId : String) (m : RegistryMaps) : Option String :=
  match kind with
  | .embedded => m.sourceFiles actionId
  | .dir dir => (m.sourceFiles actionId).filter fun prev =>
    startsWith (dir ++ ":") prev || m.provenance actionId = some kind

/-- A manifest of a directory replaces another one that is not the same. -/
def overrides (kind : SourceKind) (spec : ActionSpec) (m : RegistryMaps) : Bool :=
  match kind with
  | .embedded => false
  | .dir _ => (m.provenance spec.actionId).isSome &&
    !(m.actions spec.actionId).any fun existing => loader.identical existing spec

def countOverride (kind : SourceKind) (spec : ActionSpec) (m : RegistryMaps) : RegistryMaps :=
  if m.overrides loader kind spec then { m with overrideCount := m.overrideCount + 1 } else m

/-- What is wrong with a file is an error, or a reason to skip it. The override
is counted before the schemas are compiled. -/
def addListed (kind : SourceKind) (lenient : Bool) (state : RegistryMaps × List SkippedManifest) :
    Listed → Except StoreError (RegistryMaps × List SkippedManifest)
  | .ignored => .ok state
  | .fatal e => .error e
  | .malformed path e => if lenient then .ok (state.1, state.2 ++ [⟨path, e.display⟩]) else .error e
  | .manifest path spec schemas =>
    match state.1.duplicate kind spec.actionId with
    | some first => .error (.duplicateActionId spec.actionId first path)
    | none =>
      let m := state.1.countOverride loader kind spec
      match schemas with
      | .error e => if lenient then .ok (m, state.2 ++ [⟨path, e.display⟩]) else .error e
      | .ok schemas => .ok (m.insert kind path spec schemas, state.2)

def addEmbedded (manifests : List (String × String)) (m : RegistryMaps) : Except StoreError RegistryMaps :=
  ((manifests.map (readEmbedded loader files)).foldlM (addListed loader .embedded false) (m, [])).map Prod.fst

def addDirWith (lenient : Bool) (dir : String) (listing : Directory) (m : RegistryMaps) :
    Except StoreError (RegistryMaps × List SkippedManifest) :=
  match listing with
  | .missing => .ok (m, [])
  | .notDirectory => .error (.dirNotFound dir)
  | .unreadable reason => .error (.readDir reason)
  | .listed entries => (entries.map (readEntry loader files dir)).foldlM (addListed loader (.dir dir) lenient) (m, [])

def addDir (dir : String) (listing : Directory) (m : RegistryMaps) : Except StoreError RegistryMaps :=
  (addDirWith loader files false dir listing m).map Prod.fst

def addDirLenient (dir : String) (listing : Directory) (m : RegistryMaps) :
    Except StoreError (RegistryMaps × List SkippedManifest) :=
  addDirWith loader files true dir listing m

def addSource (m : RegistryMaps) : RegistrySource → Except StoreError RegistryMaps
  | .embedded manifests => m.addEmbedded loader files manifests
  | .dir path false listing => m.addDir loader files path listing
  | .dir path true listing => (m.addDirLenient loader files path listing).map Prod.fst

/-- One source after another; the first error ends it. -/
def builder : Machine (Except StoreError RegistryMaps) RegistrySource Unit where
  step result source := (result.bind fun m => m.addSource loader files source, ())

end RegistryMaps

namespace RegistryBuilder
variable {loader : RegistryLoader} {files : ManifestFiles} (builder : RegistryBuilder)

/-- The maps of a builder that keeps one entry for each action. -/
def maps : RegistryMaps where
  actions id := (builder.actions.lookup id).map Registered.spec
  schemas id := (builder.actions.lookup id).map Registered.schemas
  provenance id := (builder.actions.lookup id).map Registered.provenance
  sourceFiles id := (builder.actions.lookup id).map Registered.sourceFile
  overrideCount := builder.overrideCount

theorem lookup_insert (actionId id : String) (entry : Registered) :
    (builder.insert actionId entry).actions.lookup id = if id = actionId then some entry else builder.actions.lookup id := by
  simp only [insert, List.lookup_cons]
  by_cases same : id = actionId
  · simp [same]
  · have kept : ∀ known : List (String × Registered),
        (known.filter fun known => known.1 ≠ actionId).lookup id = known.lookup id := by
      intro known
      induction known with
      | nil => rfl
      | cons first rest ih =>
        rw [List.filter_cons, List.lookup_cons]
        split
        · rw [List.lookup_cons, ih]
        · rename_i dropped
          have other : id ≠ first.1 := by
            rintro rfl
            simp [same] at dropped
          rw [ih, beq_eq_false_iff_ne.mpr other]
    rw [beq_eq_false_iff_ne.mpr same, if_neg same]
    exact kept _

theorem maps_insert (dir path : String) (spec : ActionSpec) (schemas : ActionSchemas) :
    (builder.insert spec.actionId ⟨spec, schemas, .dir dir, path⟩).maps =
      builder.maps.insert (.dir dir) path spec schemas := by
  ext1
  all_goals first | rfl | skip
  all_goals
    funext id
    simp only [maps, RegistryMaps.insert, lookup_insert, Function.update_apply]
    split
    · rfl
    · rfl

theorem maps_duplicate (dir actionId : String) :
    ((builder.actions.lookup actionId).filter (duplicated dir)).map Registered.sourceFile =
      builder.maps.duplicate (.dir dir) actionId := by
  cases found : builder.actions.lookup actionId with
  | none => simp [maps, RegistryMaps.duplicate, found]
  | some known =>
    have same : (startsWith (dir ++ ":") known.sourceFile || decide (some known.provenance = some (.dir dir))) =
        duplicated dir known := by simp [duplicated]
    simp only [maps, RegistryMaps.duplicate, found, Option.map_some, Option.filter_some, same]
    cases duplicated dir known with
    | true => rfl
    | false => rfl

theorem maps_countOverride (dir : String) (spec : ActionSpec) :
    (builder.countOverride loader spec).maps = builder.maps.countOverride loader (.dir dir) spec := by
  cases found : builder.actions.lookup spec.actionId with
  | none => simp [countOverride, RegistryMaps.countOverride, RegistryMaps.overrides, maps, found]
  | some known =>
    cases same : loader.identical known.spec spec with
    | true => simp [countOverride, RegistryMaps.countOverride, RegistryMaps.overrides, maps, found, same]
    | false => simp [countOverride, RegistryMaps.countOverride, RegistryMaps.overrides, maps, found, same]

/-- An entry of a directory does the same to the builder as to its maps. -/
theorem addEntry_maps (lenient : Bool) (dir : String) (skipped : List SkippedManifest) (listed : Except String DirEntry) :
    (addEntry loader files lenient dir (builder, skipped) listed).map (fun after => (after.1.maps, after.2)) =
      RegistryMaps.addListed loader (.dir dir) lenient (builder.maps, skipped) (readEntry loader files dir listed) := by
  cases listed with
  | error reason => rfl
  | ok entry =>
    change Except.map _ (if _ then _ else _) = RegistryMaps.addListed _ _ _ _ (if _ then _ else _)
    split
    · rfl
    · split
      · rfl
      · cases fromFile loader entry with
        | error e => cases lenient <;> rfl
        | ok read =>
          obtain ⟨text, spec⟩ := read
          simp only [RegistryMaps.addListed, ← maps_duplicate]
          cases (builder.actions.lookup spec.actionId).filter (duplicated dir) with
          | some known => rfl
          | none =>
            simp only [Option.map_none, ← maps_countOverride]
            cases files.compileActionSchemas dir text with
            | error e => cases lenient <;> rfl
            | ok schemas => exact congrArg (fun m => Except.ok (m, skipped)) (maps_insert _ dir entry.path spec schemas)

end RegistryBuilder

/-! What the sources supply. -/

namespace Listed

/-- The action that a manifest declares. -/
def declares : Listed → Option String
  | .manifest _ spec _ => some spec.actionId
  | _ => none

/-- What a valid manifest with compiled schemas supplies for an action. -/
def supplies (actionId : String) : Listed → Option (ActionSpec × ActionSchemas × String)
  | .manifest path spec (.ok schemas) => if spec.actionId = actionId then some (spec, schemas, path) else none
  | _ => none

def firstSupplied (actionId : String) (entries : List Listed) : Option (ActionSpec × ActionSchemas × String) :=
  entries.findSome? (supplies actionId)

end Listed

namespace RegistrySource
variable (loader : RegistryLoader) (files : ManifestFiles)

def kind : RegistrySource → SourceKind
  | .embedded _ => .embedded
  | .dir path _ _ => .dir path

def lenient : RegistrySource → Bool
  | .embedded _ => false
  | .dir _ lenient _ => lenient

def listed : RegistrySource → List Listed
  | .embedded manifests => manifests.map (readEmbedded loader files)
  | .dir path _ (.listed entries) => entries.map (readEntry loader files path)
  | .dir _ _ _ => []

/-- What a source has for an action, with where it comes from. -/
def supplies (actionId : String) (source : RegistrySource) : Option (ActionSpec × ActionSchemas × SourceKind) :=
  (Listed.firstSupplied actionId (source.listed loader files)).map fun (spec, schemas, _) =>
    (spec, schemas, source.kind)

/-- What the last source that has something for an action has for it. -/
def lastSupplied (actionId : String) (sources : List RegistrySource) : Option (ActionSpec × ActionSchemas × SourceKind) :=
  sources.reverse.findSome? (supplies loader files actionId)

/-- A manifest replaces another one for its action. -/
def replaces (past : List RegistrySource) (x : Listed) : Bool :=
  match x with
  | .manifest _ spec (.ok _) =>
    (lastSupplied loader files spec.actionId past).any fun known => !loader.identical known.1 spec
  | _ => false

/-- The number of manifests that are replaced, from one source to the next. -/
def replaced (past : List RegistrySource) : List RegistrySource → Nat
  | [] => 0
  | source :: rest => (source.listed loader files).countP (replaces loader files past) + replaced (past ++ [source]) rest

/-- The same source, with its directory enumerated in another order. -/
inductive Reordered : RegistrySource → RegistrySource → Prop
  | refl (source : RegistrySource) : Reordered source source
  | dir (path : String) (lenient : Bool) {entries entries' : List (Except String DirEntry)} (perm : entries.Perm entries') :
      Reordered (.dir path lenient (.listed entries)) (.dir path lenient (.listed entries'))

/-- Two files of the source declare the same action. -/
def DeclaresTwice (source : RegistrySource) : Prop :=
  ¬((source.listed loader files).filterMap Listed.declares).Nodup

/-- In a source that is loaded leniently, a manifest whose schemas do not
compile is the only one of the source for its action, and would not override
another one. -/
def Clean (result : Except StoreError RegistryMaps) (source : RegistrySource) : Prop :=
  ∀ m, result = .ok m → source.lenient = true →
    ∀ path spec e, .manifest path spec (.error e) ∈ source.listed loader files →
      ((source.listed loader files).filterMap Listed.declares).count spec.actionId = 1 ∧
        m.overrides loader source.kind spec = false

end RegistrySource

/-! What one source leaves, in whatever order its files come. -/

namespace RegistryMaps
variable (loader : RegistryLoader) (kind : SourceKind) (lenient : Bool) (m : RegistryMaps)

/-- A file that the maps before the source have nothing against. -/
def Fine : Listed → Prop
  | .ignored => True
  | .fatal _ => False
  | .malformed _ _ => lenient = true
  | .manifest _ spec schemas => m.duplicate kind spec.actionId = none ∧ (lenient = true ∨ ∃ compiled, schemas = .ok compiled)

def counts : Listed → Bool
  | .manifest _ spec (.ok _) => m.overrides loader kind spec
  | _ => false

/-- The maps with what a list of files supplies on top. -/
def applied (entries : List Listed) : RegistryMaps where
  actions id := ((Listed.firstSupplied id entries).map fun supplied => supplied.1).or (m.actions id)
  schemas id := ((Listed.firstSupplied id entries).map fun supplied => supplied.2.1).or (m.schemas id)
  provenance id := ((Listed.firstSupplied id entries).map fun _ => kind).or (m.provenance id)
  sourceFiles id := ((Listed.firstSupplied id entries).map fun supplied => supplied.2.2).or (m.sourceFiles id)
  overrideCount := m.overrideCount + entries.countP (m.counts loader kind)

/-- Where loading is lenient, a manifest without schemas is the only one for
its action and would override none. -/
def CleanList (entries : List Listed) : Prop :=
  lenient = true → ∀ path spec e, .manifest path spec (.error e) ∈ entries →
    (entries.filterMap Listed.declares).count spec.actionId = 1 ∧ m.overrides loader kind spec = false

end RegistryMaps

namespace Listed

theorem declares_of_supplies {x : Listed} {actionId : String} {supplied : ActionSpec × ActionSchemas × String}
    (has : x.supplies actionId = some supplied) : x.declares = some actionId := by
  cases x with
  | manifest path spec schemas =>
    cases schemas with
    | error e => cases has
    | ok compiled =>
      simp only [supplies] at has
      split at has
      · rename_i same
        exact congrArg some same
      · cases has
  | ignored => cases has
  | fatal e => cases has
  | malformed path e => cases has

theorem firstSupplied_eq_none {entries : List Listed} {actionId : String}
    (absent : actionId ∉ entries.filterMap declares) : firstSupplied actionId entries = none := by
  rw [firstSupplied, List.findSome?_eq_none_iff]
  intro x member
  cases has : x.supplies actionId with
  | none => rfl
  | some supplied => exact absurd (List.mem_filterMap.mpr ⟨x, member, declares_of_supplies has⟩) absent

theorem firstSupplied_append (actionId : String) (entries : List Listed) (x : Listed) :
    firstSupplied actionId (entries ++ [x]) = (firstSupplied actionId entries).or (x.supplies actionId) := by
  simp [firstSupplied, List.findSome?_append]

theorem firstSupplied_of_mem {entries : List Listed} {x : Listed} {actionId : String}
    {supplied : ActionSpec × ActionSchemas × String} (member : x ∈ entries) (has : x.supplies actionId = some supplied) :
    ∃ found, firstSupplied actionId entries = some found := by
  rw [← Option.isSome_iff_exists, firstSupplied, List.findSome?_isSome_iff]
  exact ⟨x, member, by simp [has]⟩

/-- Where no two files declare one action, one of them supplies it. -/
theorem firstSupplied_eq_some {entries : List Listed} {actionId : String} {supplied : ActionSpec × ActionSchemas × String}
    (nodup : (entries.filterMap declares).Nodup) :
    firstSupplied actionId entries = some supplied ↔ ∃ x ∈ entries, x.supplies actionId = some supplied := by
  constructor
  · intro found
    obtain ⟨x, member, has⟩ := List.exists_of_findSome?_eq_some found
    exact ⟨x, member, has⟩
  · rintro ⟨x, member, has⟩
    obtain ⟨first, found⟩ := firstSupplied_of_mem member has
    obtain ⟨y, listed, gives⟩ := List.exists_of_findSome?_eq_some found
    by_cases same : y = x
    · subst same
      rw [found, ← gives, has]
    · have symmetric : Std.Symm fun a b : Listed => ∀ c, a.declares = some c → ∀ c', b.declares = some c' → c ≠ c' :=
        ⟨fun a b differs c declared c' declared' => (differs c' declared' c declared).symm⟩
      have apart := (List.pairwise_filterMap.mp nodup).forall listed member same
      exact absurd rfl (apart actionId (declares_of_supplies gives) actionId (declares_of_supplies has))

end Listed

namespace RegistryMaps
variable {loader : RegistryLoader} {kind : SourceKind} {lenient : Bool} {m : RegistryMaps} {entries : List Listed} {x : Listed}

/-- What supplies nothing and counts nothing changes nothing. -/
theorem applied_append_idle (idle : ∀ actionId, x.supplies actionId = none) (uncounted : m.counts loader kind x = false) :
    m.applied loader kind (entries ++ [x]) = m.applied loader kind entries := by
  have same : ∀ actionId, Listed.firstSupplied actionId (entries ++ [x]) = Listed.firstSupplied actionId entries := by
    intro actionId
    rw [Listed.firstSupplied_append, idle actionId, Option.or_none]
  simp only [applied, same, List.countP_append, List.countP_singleton, uncounted]
  simp

/-- For an action that no file declares the maps are as before. -/
theorem applied_absent {spec : ActionSpec} (absent : spec.actionId ∉ entries.filterMap Listed.declares) :
    (m.applied loader kind entries).duplicate kind spec.actionId = m.duplicate kind spec.actionId ∧
      (m.applied loader kind entries).overrides loader kind spec = m.overrides loader kind spec := by
  have nothing := Listed.firstSupplied_eq_none absent
  constructor
  · cases kind with
    | embedded => simp [duplicate, applied, nothing]
    | dir path => simp [duplicate, applied, nothing]
  · cases kind with
    | embedded => rfl
    | dir path => simp [overrides, applied, nothing]

/-- An action that a file has supplied is there a second time. -/
theorem applied_duplicate {actionId : String} {supplied : ActionSpec × ActionSchemas × String} (member : x ∈ entries)
    (has : x.supplies actionId = some supplied) : (m.applied loader kind entries).duplicate kind actionId ≠ none := by
  obtain ⟨found, first⟩ := Listed.firstSupplied_of_mem member has
  cases kind with
  | embedded => simp [duplicate, applied, first]
  | dir path => simp [duplicate, applied, first, Option.filter]

theorem applied_append_manifest {path : String} {spec : ActionSpec} {compiled : ActionSchemas}
    (absent : spec.actionId ∉ entries.filterMap Listed.declares) :
    ((m.applied loader kind entries).countOverride loader kind spec).insert kind path spec compiled =
      m.applied loader kind (entries ++ [.manifest path spec (.ok compiled)]) := by
  have nothing := Listed.firstSupplied_eq_none absent
  have counted := (@applied_absent loader kind m entries spec absent).2
  have here : ∀ actionId, Listed.firstSupplied actionId (entries ++ [Listed.manifest path spec (.ok compiled)]) =
      if actionId = spec.actionId then some (spec, compiled, path) else Listed.firstSupplied actionId entries := by
    intro actionId
    rw [Listed.firstSupplied_append]
    by_cases same : actionId = spec.actionId
    · subst same
      simp [nothing, Listed.supplies]
    · simp [Listed.supplies, same, Ne.symm same]
  have count : ((m.applied loader kind entries).countOverride loader kind spec).overrideCount =
      (m.applied loader kind (entries ++ [Listed.manifest path spec (.ok compiled)])).overrideCount := by
    rw [countOverride, counted]
    simp only [applied, List.countP_append, List.countP_singleton, counts]
    split_ifs with overriding
    · simp only [overriding, if_true]
      omega
    · simp [overriding]
  have maps : ∀ actionId, ((m.applied loader kind entries).countOverride loader kind spec).actions actionId =
        (m.applied loader kind entries).actions actionId ∧
      ((m.applied loader kind entries).countOverride loader kind spec).schemas actionId =
        (m.applied loader kind entries).schemas actionId ∧
      ((m.applied loader kind entries).countOverride loader kind spec).provenance actionId =
        (m.applied loader kind entries).provenance actionId ∧
      ((m.applied loader kind entries).countOverride loader kind spec).sourceFiles actionId =
        (m.applied loader kind entries).sourceFiles actionId := by
    intro actionId
    rw [countOverride]
    split
    · exact ⟨rfl, rfl, rfl, rfl⟩
    · exact ⟨rfl, rfl, rfl, rfl⟩
  ext1
  · funext actionId
    by_cases same : actionId = spec.actionId
    · simp [insert, applied, here, same]
    · simp only [insert, Function.update_of_ne same, (maps actionId).1]
      simp [applied, here, same]
  · funext actionId
    by_cases same : actionId = spec.actionId
    · simp [insert, applied, here, same]
    · simp only [insert, Function.update_of_ne same, (maps actionId).2.1]
      simp [applied, here, same]
  · funext actionId
    by_cases same : actionId = spec.actionId
    · simp [insert, applied, here, same]
    · simp only [insert, Function.update_of_ne same, (maps actionId).2.2.1]
      simp [applied, here, same]
  · funext actionId
    by_cases same : actionId = spec.actionId
    · simp [insert, applied, here, same]
    · simp only [insert, Function.update_of_ne same, (maps actionId).2.2.2]
      simp [applied, here, same]
  · exact count

/-- One more file after files that are fine: it is added when it is fine and
declares no action a second time, and is an error otherwise. -/
theorem addListed_applied {skipped : List SkippedManifest} (fine : ∀ y ∈ entries, m.Fine kind lenient y)
    (clean : m.CleanList loader kind lenient (entries ++ [x])) {m' : RegistryMaps} {skipped' : List SkippedManifest}
    (added : addListed loader kind lenient (m.applied loader kind entries, skipped) x = .ok (m', skipped')) :
    m.Fine kind lenient x ∧ (∀ actionId, x.declares = some actionId → actionId ∉ entries.filterMap Listed.declares) ∧
      m' = m.applied loader kind (entries ++ [x]) := by
  cases x with
  | ignored =>
    cases added
    exact ⟨trivial, fun _ declared => (nomatch declared), (applied_append_idle (fun _ => rfl) rfl).symm⟩
  | fatal e => cases added
  | malformed path e =>
    simp only [addListed] at added
    split at added
    · rename_i allowed
      cases added
      exact ⟨allowed, fun _ declared => (nomatch declared), (applied_append_idle (fun _ => rfl) rfl).symm⟩
    · cases added
  | manifest path spec schemas =>
    simp only [addListed] at added
    split at added
    · cases added
    rename_i free
    have absent : spec.actionId ∉ entries.filterMap Listed.declares := by
      intro member
      obtain ⟨y, listed, declared⟩ := List.mem_filterMap.mp member
      cases y with
      | ignored => cases declared
      | fatal e => cases declared
      | malformed path e => cases declared
      | manifest path' spec' schemas' =>
        have same : spec'.actionId = spec.actionId := Option.some.inj declared
        cases schemas' with
        | ok compiled =>
          have has : (Listed.manifest path' spec' (.ok compiled)).supplies spec.actionId = some (spec', compiled, path') :=
            if_pos same
          exact applied_duplicate listed has free
        | error e =>
          -- a manifest without schemas is fine only where loading is lenient, and is then the only one
          have allowed : lenient = true := (fine _ listed).2.resolve_right fun ⟨_, compiled⟩ => nomatch compiled
          have once := (clean allowed path' spec' e (List.mem_append_left _ listed)).1
          rw [List.filterMap_append, List.count_append, same] at once
          have first := List.count_pos_iff.mpr member
          have last : List.count spec.actionId ([Listed.manifest path spec schemas].filterMap Listed.declares) = 1 := by
            simp [Listed.declares]
          omega
    have before := @applied_absent loader kind m entries spec absent
    rw [before.1] at free
    have declaredOnce : ∀ actionId, (Listed.manifest path spec schemas).declares = some actionId →
        actionId ∉ entries.filterMap Listed.declares := fun actionId declared => Option.some.inj declared ▸ absent
    cases schemas with
    | ok compiled =>
      cases added
      exact ⟨⟨free, .inr ⟨compiled, rfl⟩⟩, declaredOnce, applied_append_manifest absent⟩
    | error e =>
      dsimp only at added
      split at added
      · rename_i allowed
        cases added
        refine ⟨⟨free, .inl allowed⟩, declaredOnce, ?_⟩
        have quiet := (clean allowed path spec e (List.mem_append_right _ (List.mem_singleton_self _))).2
        rw [countOverride, before.2, quiet]
        exact (applied_append_idle (fun _ => rfl) rfl).symm
      · cases added

/-- A fine file for another action is added, or skipped. -/
theorem addListed_ok {skipped : List SkippedManifest} (fine : m.Fine kind lenient x)
    (absent : ∀ actionId, x.declares = some actionId → actionId ∉ entries.filterMap Listed.declares) :
    ∃ after, addListed loader kind lenient (m.applied loader kind entries, skipped) x = .ok after := by
  cases x with
  | ignored => exact ⟨_, rfl⟩
  | fatal e => exact fine.elim
  | malformed path e =>
    have allowed : lenient = true := fine
    exact ⟨_, if_pos allowed⟩
  | manifest path spec schemas =>
    have free : (m.applied loader kind entries).duplicate kind spec.actionId = none :=
      (applied_absent (absent spec.actionId rfl)).1.trans fine.1
    simp only [addListed, free]
    cases schemas with
    | ok compiled => exact ⟨_, rfl⟩
    | error e =>
      have allowed : lenient = true := fine.2.resolve_right fun ⟨_, compiled⟩ => nomatch compiled
      exact ⟨_, if_pos allowed⟩

theorem CleanList.left {others : List Listed} (clean : m.CleanList loader kind lenient (entries ++ others)) :
    m.CleanList loader kind lenient entries := by
  intro allowed path spec e member
  obtain ⟨once, quiet⟩ := clean allowed path spec e (List.mem_append_left _ member)
  refine ⟨?_, quiet⟩
  have here : spec.actionId ∈ entries.filterMap Listed.declares := List.mem_filterMap.mpr ⟨_, member, rfl⟩
  have positive := List.count_pos_iff.mpr here
  rw [List.filterMap_append, List.count_append] at once
  omega

theorem CleanList.perm {entries' : List Listed} (clean : m.CleanList loader kind lenient entries)
    (perm : entries.Perm entries') : m.CleanList loader kind lenient entries' := by
  intro allowed path spec e member
  obtain ⟨once, quiet⟩ := clean allowed path spec e (perm.mem_iff.mpr member)
  rw [(perm.filterMap Listed.declares).count_eq] at once
  exact ⟨once, quiet⟩

/-- What a source leaves: its files one by one on top of the maps, where every
file is fine and no two declare one action, and an error otherwise. -/
theorem foldlM_eq_ok (clean : m.CleanList loader kind lenient entries) {m' : RegistryMaps} {skipped' : List SkippedManifest}
    (loaded : entries.foldlM (addListed loader kind lenient) (m, []) = .ok (m', skipped')) :
    (∀ x ∈ entries, m.Fine kind lenient x) ∧ (entries.filterMap Listed.declares).Nodup ∧
      m' = m.applied loader kind entries := by
  induction entries using List.reverseRecOn generalizing m' skipped' with
  | nil =>
    cases loaded
    refine ⟨fun x member => (nomatch member), List.nodup_nil, ?_⟩
    simp [applied, Listed.firstSupplied]
  | append_singleton past x ih =>
    rw [List.foldlM_append] at loaded
    obtain ⟨⟨m₁, skipped₁⟩, before, last⟩ := Except.bind_eq_ok.1 loaded
    obtain ⟨fine, nodup, rfl⟩ := ih clean.left before
    rw [List.foldlM_cons] at last
    obtain ⟨⟨m₂, skipped₂⟩, added, done⟩ := Except.bind_eq_ok.1 last
    cases done
    obtain ⟨fineLast, absent, same⟩ := addListed_applied fine clean added
    refine ⟨?_, ?_, same⟩
    · intro y member
      rcases List.mem_append.mp member with old | new
      · exact fine y old
      · exact List.mem_singleton.mp new ▸ fineLast
    · rw [List.filterMap_append]
      refine List.nodup_append.mpr ⟨nodup, ?_, ?_⟩
      · cases declared : x.declares with
        | none => simp [declared]
        | some actionId => simp [declared]
      · rintro actionId member _ new rfl
        obtain ⟨y, single, declared⟩ := List.mem_filterMap.mp new
        exact absent actionId (List.mem_singleton.mp single ▸ declared) member

theorem foldlM_ok (clean : m.CleanList loader kind lenient entries) (fine : ∀ x ∈ entries, m.Fine kind lenient x)
    (nodup : (entries.filterMap Listed.declares).Nodup) :
    ∃ skipped, entries.foldlM (addListed loader kind lenient) (m, []) = .ok (m.applied loader kind entries, skipped) := by
  suffices loads : ∃ after, entries.foldlM (addListed loader kind lenient) (m, []) = .ok after by
    obtain ⟨⟨m', skipped⟩, loaded⟩ := loads
    exact ⟨skipped, (foldlM_eq_ok clean loaded).2.2 ▸ loaded⟩
  induction entries using List.reverseRecOn with
  | nil => exact ⟨_, rfl⟩
  | append_singleton past x ih =>
    rw [List.filterMap_append] at nodup
    obtain ⟨first, -, apart⟩ := List.nodup_append.mp nodup
    obtain ⟨⟨m', skipped⟩, loaded⟩ := ih clean.left (fun y member => fine y (List.mem_append_left _ member)) first
    have same := (foldlM_eq_ok clean.left loaded).2.2
    subst same
    have absent : ∀ actionId, x.declares = some actionId → actionId ∉ past.filterMap Listed.declares := by
      intro actionId declared member
      exact apart actionId member actionId (List.mem_filterMap.mpr ⟨x, List.mem_singleton_self x, declared⟩) rfl
    obtain ⟨after, added⟩ : ∃ after, addListed loader kind lenient (m.applied loader kind past, skipped) x = .ok after :=
      addListed_ok (fine x (List.mem_append_right _ (List.mem_singleton_self x))) absent
    refine ⟨after, ?_⟩
    rw [List.foldlM_append, loaded]
    change (addListed loader kind lenient (m.applied loader kind past, skipped) x >>= fun s => [].foldlM _ s) = _
    rw [added]
    rfl

/-- The maps do not depend on the order of the files. -/
theorem applied_perm {entries' : List Listed} (perm : entries.Perm entries')
    (nodup : (entries.filterMap Listed.declares).Nodup) :
    m.applied loader kind entries = m.applied loader kind entries' := by
  have same : ∀ actionId, Listed.firstSupplied actionId entries = Listed.firstSupplied actionId entries' := by
    intro actionId
    refine Option.ext fun supplied => ?_
    rw [Listed.firstSupplied_eq_some nodup, Listed.firstSupplied_eq_some ((perm.filterMap _).nodup_iff.mp nodup)]
    simp only [perm.mem_iff]
  simp only [applied, same, perm.countP_eq]

/-! One source after another. -/

/-- A source is an error by itself, or its files are added one by one. -/
theorem addSource_cases (files : ManifestFiles) (m : RegistryMaps) (source : RegistrySource) :
    ((∃ e, m.addSource loader files source = .error e) ∧ ∀ path lenient entries, source ≠ .dir path lenient (.listed entries)) ∨
      m.addSource loader files source =
        ((source.listed loader files).foldlM (addListed loader source.kind source.lenient) (m, [])).map Prod.fst := by
  cases source with
  | embedded manifests => exact .inr rfl
  | dir path lenient listing =>
    cases lenient with
    | false =>
      cases listing with
      | missing => exact .inr rfl
      | notDirectory => exact .inl ⟨⟨_, rfl⟩, fun _ _ _ same => nomatch same⟩
      | unreadable reason => exact .inl ⟨⟨_, rfl⟩, fun _ _ _ same => nomatch same⟩
      | listed entries => exact .inr rfl
    | true =>
      cases listing with
      | missing => exact .inr rfl
      | notDirectory => exact .inl ⟨⟨_, rfl⟩, fun _ _ _ same => nomatch same⟩
      | unreadable reason => exact .inl ⟨⟨_, rfl⟩, fun _ _ _ same => nomatch same⟩
      | listed entries => exact .inr rfl

variable {files : ManifestFiles} {source source' : RegistrySource}

theorem addSource_eq_ok (clean : source.Clean loader files (.ok m)) {m' : RegistryMaps}
    (built : m.addSource loader files source = .ok m') :
    (∀ x ∈ source.listed loader files, m.Fine source.kind source.lenient x) ∧
      ((source.listed loader files).filterMap Listed.declares).Nodup ∧
      m' = m.applied loader source.kind (source.listed loader files) := by
  rcases @addSource_cases loader files m source with ⟨⟨e, failed⟩, -⟩ | folds
  · rw [failed] at built
    cases built
  · rw [folds] at built
    obtain ⟨⟨m₁, skipped⟩, loaded, rfl⟩ := Except.map_eq_ok.1 built
    exact foldlM_eq_ok (clean m rfl) loaded

/-- The order in which a directory is enumerated does not matter. -/
theorem addSource_reordered (clean : source.Clean loader files (.ok m)) (reordered : source.Reordered source') :
    (m.addSource loader files source').toOption = (m.addSource loader files source).toOption := by
  cases reordered with
  | refl => rfl
  | @dir path lenient entries entries' perm =>
    have both : ∀ {entries entries' : List (Except String DirEntry)}, entries.Perm entries' →
        (RegistrySource.dir path lenient (.listed entries)).Clean loader files (.ok m) → ∀ m',
        m.addSource loader files (.dir path lenient (.listed entries)) = .ok m' →
          m.addSource loader files (.dir path lenient (.listed entries')) = .ok m' := by
      intro entries entries' perm clean m' built
      obtain ⟨fine, nodup, same⟩ := addSource_eq_ok clean built
      have listed : (entries.map (readEntry loader files path)).Perm (entries'.map (readEntry loader files path)) :=
        perm.map _
      have cleanList : m.CleanList loader (.dir path) lenient (entries.map (readEntry loader files path)) := clean m rfl
      obtain ⟨skipped, loaded⟩ := foldlM_ok (cleanList.perm listed)
        (fun x member => fine x (listed.mem_iff.mpr member)) ((listed.filterMap _).nodup_iff.mp nodup)
      rcases @addSource_cases loader files m (.dir path lenient (.listed entries')) with ⟨-, other⟩ | folds
      · exact absurd rfl (other path lenient entries')
      · rw [folds, same]
        refine (congrArg (Except.map Prod.fst) loaded).trans ?_
        exact congrArg Except.ok (applied_perm listed nodup).symm
    have clean' : (RegistrySource.dir path lenient (.listed entries')).Clean loader files (.ok m) := by
      intro m₁ same allowed
      exact CleanList.perm (clean m₁ same) (perm.map _) allowed
    refine Option.ext fun m' => ?_
    rw [Except.toOption_eq_some_iff, Except.toOption_eq_some_iff]
    exact ⟨both perm.symm clean' m', both perm clean m'⟩

end RegistryMaps

namespace RegistrySource
variable {loader : RegistryLoader} {files : ManifestFiles} {past : List RegistrySource} {source : RegistrySource}

theorem lastSupplied_concat (actionId : String) :
    lastSupplied loader files actionId (past ++ [source]) =
      (source.supplies loader files actionId).or (lastSupplied loader files actionId past) := by
  rw [lastSupplied, List.reverse_append, List.reverse_singleton, List.singleton_append, List.findSome?_cons]
  cases source.supplies loader files actionId with
  | none => rfl
  | some supplied => rfl

theorem replaced_concat (before past : List RegistrySource) (source : RegistrySource) :
    replaced loader files before (past ++ [source]) =
      replaced loader files before past + (source.listed loader files).countP (replaces loader files (before ++ past)) := by
  induction past generalizing before with
  | nil => simp [replaced]
  | cons first rest ih =>
    simp only [List.cons_append, replaced, ih, List.append_assoc, List.nil_append]
    omega

/-- The maps hold for each action what the last source supplied, and the
override count is the number of manifests that were replaced. -/
structure Tracks (loader : RegistryLoader) (files : ManifestFiles) (past : List RegistrySource) (m : RegistryMaps) : Prop where
  actions : ∀ actionId, m.actions actionId = (lastSupplied loader files actionId past).map fun known => known.1
  schemas : ∀ actionId, m.schemas actionId = (lastSupplied loader files actionId past).map fun known => known.2.1
  provenance : ∀ actionId, m.provenance actionId = (lastSupplied loader files actionId past).map fun known => known.2.2
  sourceFiles : ∀ actionId, (m.sourceFiles actionId).isSome = (lastSupplied loader files actionId past).isSome
  overrideCount : m.overrideCount = replaced loader files [] past
  once : ∀ source ∈ past, ¬source.DeclaresTwice loader files

/-- A file that is fine is counted when it replaces another manifest. -/
theorem Tracks.counts {m : RegistryMaps} (tracks : Tracks loader files past m) {kind : SourceKind} {lenient : Bool}
    {x : Listed} (fine : m.Fine kind lenient x) : m.counts loader kind x = replaces loader files past x := by
  cases x with
  | ignored => rfl
  | fatal e => rfl
  | malformed path e => rfl
  | manifest path spec schemas =>
    cases schemas with
    | error e => rfl
    | ok compiled =>
      have known := tracks.sourceFiles spec.actionId
      have actions := tracks.actions spec.actionId
      have provenance := tracks.provenance spec.actionId
      cases kind with
      | embedded =>
        have unknown : m.sourceFiles spec.actionId = none := fine.1
        rw [unknown] at known
        have none := Option.isSome_eq_false_iff.mp known.symm
        simp [RegistryMaps.counts, RegistryMaps.overrides, replaces, Option.isNone_iff_eq_none.mp none]
      | dir dir =>
        simp only [RegistryMaps.counts, RegistryMaps.overrides, replaces, actions, provenance]
        cases lastSupplied loader files spec.actionId past with
        | none => rfl
        | some known => simp

theorem Tracks.step {m m' : RegistryMaps} (tracks : Tracks loader files past m) (clean : source.Clean loader files (.ok m))
    (built : m.addSource loader files source = .ok m') : Tracks loader files (past ++ [source]) m' := by
  obtain ⟨fine, nodup, rfl⟩ := RegistryMaps.addSource_eq_ok clean built
  constructor
  · intro actionId
    rw [lastSupplied_concat]
    simp only [RegistryMaps.applied, tracks.actions, supplies]
    cases Listed.firstSupplied actionId (source.listed loader files) with
    | none => rfl
    | some supplied => rfl
  · intro actionId
    rw [lastSupplied_concat]
    simp only [RegistryMaps.applied, tracks.schemas, supplies]
    cases Listed.firstSupplied actionId (source.listed loader files) with
    | none => rfl
    | some supplied => rfl
  · intro actionId
    rw [lastSupplied_concat]
    simp only [RegistryMaps.applied, tracks.provenance, supplies]
    cases Listed.firstSupplied actionId (source.listed loader files) with
    | none => rfl
    | some supplied => rfl
  · intro actionId
    rw [lastSupplied_concat]
    simp only [RegistryMaps.applied, supplies]
    cases Listed.firstSupplied actionId (source.listed loader files) with
    | none => exact tracks.sourceFiles actionId
    | some supplied => rfl
  · have counted : (source.listed loader files).countP (m.counts loader source.kind) =
        (source.listed loader files).countP (replaces loader files past) :=
      List.countP_congr fun x member => by rw [tracks.counts (fine x member)]
    rw [replaced_concat, List.nil_append, ← counted, ← tracks.overrideCount]
    rfl
  · intro other member
    rcases List.mem_append.mp member with old | new
    · exact tracks.once other old
    · exact List.mem_singleton.mp new ▸ not_not.mpr nodup

end RegistrySource

section Runs
variable {loader : RegistryLoader} {files : ManifestFiles}

theorem run_reordered {sources sources' : List RegistrySource}
    (reordered : List.Forall₂ RegistrySource.Reordered sources sources') {result result' : Except StoreError RegistryMaps}
    (same : result'.toOption = result.toOption)
    (meets : (RegistryMaps.builder loader files).Meets (fun result source => source.Clean loader files result) result sources) :
    ((RegistryMaps.builder loader files).run result' sources').toOption =
      ((RegistryMaps.builder loader files).run result sources).toOption := by
  induction reordered generalizing result result' with
  | nil => exact same
  | cons first rest ih =>
    refine ih ?_ meets.2
    cases result with
    | error e =>
      cases result' with
      | error e' => rfl
      | ok m' => cases same
    | ok m =>
      cases result' with
      | error e' => cases same
      | ok m' =>
        cases same
        exact RegistryMaps.addSource_reordered meets.1 first

theorem run_tracks {sources : List RegistrySource}
    (meets : (RegistryMaps.builder loader files).Meets (fun result source => source.Clean loader files result) (.ok {})
      sources) {m : RegistryMaps} (built : (RegistryMaps.builder loader files).run (.ok {}) sources = .ok m) :
    RegistrySource.Tracks loader files sources m := by
  have start : ∀ m, (.ok {} : Except StoreError RegistryMaps) = .ok m → RegistrySource.Tracks loader files [] m := by
    intro m same
    cases same
    exact ⟨fun _ => rfl, fun _ => rfl, fun _ => rfl, fun _ => rfl, rfl, fun _ member => nomatch member⟩
  have tracked := @Machine.Meets.trace_invariant _ _ _ (RegistryMaps.builder loader files)
    (fun result source => source.Clean loader files result)
    (fun past result => ∀ m, result = .ok m → RegistrySource.Tracks loader files (past.map Prod.fst) m) (.ok {}) start ?_
    sources meets m built
  · rwa [Machine.trace_inputs] at tracked
  · intro past result source clean tracked m' stepped
    obtain ⟨m, rfl, built⟩ := Except.bind_eq_ok.1 stepped
    rw [List.map_append]
    exact (tracked m rfl).step clean built

end Runs

/-- In every run of clean sources: the registry does not depend on the order in
which directories are enumerated, a source in which two files declare one
action is an error, and what is built holds for each action what the last
source supplied, with the number of manifests that were replaced. -/
theorem registry_built (loader : RegistryLoader) (files : ManifestFiles) {sources : List RegistrySource}
    (meets : (RegistryMaps.builder loader files).Meets (fun result source => source.Clean loader files result) (.ok {})
      sources) :
    let built := (RegistryMaps.builder loader files).run (.ok {}) sources
    (∀ sources', List.Forall₂ RegistrySource.Reordered sources sources' →
      ((RegistryMaps.builder loader files).run (.ok {}) sources').toOption = built.toOption) ∧
    (∀ source ∈ sources, source.DeclaresTwice loader files → built.toOption = none) ∧
    ∀ m, built = .ok m →
      (∀ actionId, (m.actions actionId, m.schemas actionId, m.provenance actionId) =
        match RegistrySource.lastSupplied loader files actionId sources with
        | some (spec, schemas, kind) => (some spec, some schemas, some kind)
        | none => (none, none, none)) ∧
      m.overrideCount = RegistrySource.replaced loader files [] sources := by
  intro built
  refine ⟨fun sources' reordered => run_reordered reordered rfl meets, ?_, ?_⟩
  · intro source member twice
    rw [Option.eq_none_iff_forall_ne_some]
    intro m done
    exact (run_tracks meets (Except.toOption_eq_some_iff.1 done)).once source member twice
  · intro m done
    have tracks := run_tracks meets done
    refine ⟨fun actionId => ?_, tracks.overrideCount⟩
    rw [tracks.actions, tracks.schemas, tracks.provenance]
    cases RegistrySource.lastSupplied loader files actionId sources with
    | none => rfl
    | some known => rfl

/-- A reader for manifests of one action, with the text as the version. -/
def versionLoader : RegistryLoader where
  parse text := .ok { actionId := "http_fetch", version := text, providerModuleDigest := "builtin:http_api" }
  compile _ := .error "not a glob pattern"
  validateManifestDomainEntry := .ok
  computeDigest _ := "sha256:2f2f2f2f2f2f2f2f2f2f2f2f2f2f2f2f2f2f2f2f2f2f2f2f2f2f2f2f2f2f2f2f"
  identical a b := a.version = b.version

/-- Schema files of which one, for the second draft, does not parse. -/
def draftFiles : ManifestFiles where
  dir _ := .missing
  compileActionSchemas _ manifest := if manifest = "2-draft" then .error (.schema "schema not valid JSON") else .ok {}

def draftFile (name version : String) : Except String DirEntry :=
  .ok { path := "/etc/actions/" ++ name, extension := some "yaml", contained := true, contents := .ok version }

/-- The action with a draft that is skipped, in either order. -/
def draftFirst : List RegistrySource :=
  [.embedded [("http_fetch", "1")],
    .dir "/etc/actions" true (.listed [draftFile "a.yaml" "2-draft", draftFile "b.yaml" "2"])]

def draftLast : List RegistrySource :=
  [.embedded [("http_fetch", "1")],
    .dir "/etc/actions" true (.listed [draftFile "b.yaml" "2", draftFile "a.yaml" "2-draft"])]

/-- Only the order of the files decides whether the registry builds, the
duplicate is no error in one of them, and the skipped file counts as an
override. -/
theorem draft_counted :
    List.Forall₂ RegistrySource.Reordered draftFirst draftLast ∧
      ¬(∀ source ∈ draftFirst, ¬source.DeclaresTwice versionLoader draftFiles) ∧
      ((RegistryMaps.builder versionLoader draftFiles).run (.ok {}) draftFirst).toOption.map (·.overrideCount) = some 2 ∧
      RegistrySource.replaced versionLoader draftFiles [] draftFirst = 1 ∧
      ((RegistryMaps.builder versionLoader draftFiles).run (.ok {}) draftLast).toOption.isNone := by
  refine ⟨?_, ?_, ?_, ?_, ?_⟩
  · exact .cons (.refl _) (.cons (.dir _ _ (.swap _ _ [])) .nil)
  · simp only [RegistrySource.DeclaresTwice, not_not]
    decide
  · decide
  · decide
  · decide

theorem clean_of_strict {loader : RegistryLoader} {files : ManifestFiles} {result : Except StoreError RegistryMaps}
    {source : RegistrySource} (strict : source.lenient = false) : source.Clean loader files result := by
  intro m built lenient
  rw [strict] at lenient
  cases lenient

/-- A manifest of the binary and another version in a directory. -/
theorem registry_built_sample :
    let sources : List RegistrySource :=
      [.embedded [("http_fetch", "1")], .dir "/etc/actions" false (.listed [draftFile "b.yaml" "2"])]
    let built := (RegistryMaps.builder versionLoader draftFiles).run (.ok {}) sources
    (∀ sources', List.Forall₂ RegistrySource.Reordered sources sources' →
      ((RegistryMaps.builder versionLoader draftFiles).run (.ok {}) sources').toOption = built.toOption) ∧
    ∃ m, built = .ok m ∧ m.overrideCount = 1 ∧ (m.actions "http_fetch").map (·.version) = some "2" := by
  intro sources built
  have meets : (RegistryMaps.builder versionLoader draftFiles).Meets
      (fun result source => source.Clean versionLoader draftFiles result) (.ok {}) sources :=
    ⟨clean_of_strict rfl, clean_of_strict rfl, trivial⟩
  obtain ⟨reordered, -, kept⟩ := registry_built versionLoader draftFiles meets
  refine ⟨reordered, ?_⟩
  have counted : RegistrySource.replaced versionLoader draftFiles [] sources = 1 := by decide
  have last : (RegistrySource.lastSupplied versionLoader draftFiles "http_fetch" sources).map (·.1.version) = some "2" := by
    decide
  have done : built.toOption.isSome := by decide
  obtain ⟨m, same⟩ := Option.isSome_iff_exists.mp done
  have ok := Except.toOption_eq_some_iff.1 same
  obtain ⟨holds, overrides⟩ := kept m ok
  refine ⟨m, ok, overrides.trans counted, ?_⟩
  have held := holds "http_fetch"
  revert last held
  cases RegistrySource.lastSupplied versionLoader draftFiles "http_fetch" sources with
  | none => simp
  | some known =>
    intro version held
    rw [(Prod.mk.inj held).1]
    exact version

end Latchgate
