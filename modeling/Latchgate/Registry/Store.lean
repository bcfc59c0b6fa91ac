import Latchgate.Manifest.Load

namespace Latchgate

inductive StoreError where
  | dirNotFound (path : String)
  | readDir (reason : String)
  | readManifest (path reason : String)
  | loadManifest (path : String) (source : ManifestError)
  | duplicateActionId (actionId first second : String)
  | schema (message : String)
  | pathTraversal (path root : String)

def StoreError.display : StoreError → String
  | dirNotFound path => "manifests directory not found: " ++ path
  | readDir reason => "failed to read manifests directory: " ++ reason
  | readManifest path reason =>
    "failed to load manifest '" ++ path ++ "': failed to read manifest file: " ++ reason
  | loadManifest path source => "failed to load manifest '" ++ path ++ "': " ++ source.display
  | duplicateActionId actionId first second =>
    "duplicate action_id '" ++ actionId ++ "' in manifests: '" ++ first ++ "' and '" ++ second ++ "'"
  | schema message => message
  | pathTraversal path root => "path traversal rejected: " ++ path ++ " escapes " ++ root

/-- The compiled validators of an action, and the request schema as it is
shown. -/
structure ActionSchemas where
  request : Option (Json → Bool) := none
  response : Option (Json → Bool) := none
  requestSchemaJson : Option Json := none

inductive SourceKind where
  | embedded
  | dir (path : String)
  deriving DecidableEq

/-- What the maps of the store hold under one action. -/
structure Registered where
  spec : ActionSpec
  schemas : ActionSchemas
  provenance : SourceKind
  sourceFile : String

/-- An entry of a directory, and what reading it gives. -/
structure DirEntry where
  path : String
  extension : Option String
  contained : Bool
  contents : Except String String

inductive Directory where
  | missing
  | notDirectory
  | unreadable (reason : String)
  | listed (entries : List (Except String DirEntry))

/-- The manifest directories, with the schema files beside the manifests. -/
structure ManifestFiles where
  dir : String → Directory
  compileActionSchemas : (manifestDir manifest : String) → Except StoreError ActionSchemas

/-- Loading a registry also compares the serialised forms of two manifests. -/
structure RegistryLoader extends Loader where
  identical : ActionSpec → ActionSpec → Bool

structure RegistryBuilder where
  actions : List (String × Registered) := []
  overrideCount : Nat := 0

structure SkippedManifest where
  path : String
  reason : String

namespace RegistryBuilder
variable (loader : RegistryLoader) (files : ManifestFiles)

def insert (actionId : String) (entry : Registered) (builder : RegistryBuilder) : RegistryBuilder :=
  { builder with actions := (actionId, entry) :: builder.actions.filter fun known => known.1 ≠ actionId }

def addEmbeddedOne (builder : RegistryBuilder) (manifest : String × String) : Except StoreError RegistryBuilder := do
  let file := "embedded:" ++ manifest.1
  let spec ← (ActionSpec.fromYaml loader.toLoader manifest.2).mapError (.loadManifest file)
  match builder.actions.lookup spec.actionId with
  | some known => .error (.duplicateActionId spec.actionId known.sourceFile file)
  | none =>
    let schemas ← files.compileActionSchemas "" manifest.2
    .ok (builder.insert spec.actionId ⟨spec, schemas, .embedded, file⟩)

/-- The manifests that are part of the binary. -/
def addEmbedded (manifests : List (String × String)) (builder : RegistryBuilder) : Except StoreError RegistryBuilder :=
  manifests.foldlM (addEmbeddedOne loader files) builder

/-- Another file of the same directory has the action already. -/
def duplicated (dir : String) (known : Registered) : Bool :=
  startsWith (dir ++ ":") known.sourceFile || known.provenance = .dir dir

def countOverride (spec : ActionSpec) (builder : RegistryBuilder) : RegistryBuilder :=
  match builder.actions.lookup spec.actionId with
  | some known =>
    if loader.identical known.spec spec then builder
    else { builder with overrideCount := builder.overrideCount + 1 }
  | none => builder

/-- The text of a manifest file and what it declares. -/
def fromFile (entry : DirEntry) : Except StoreError (String × ActionSpec) := do
  let text ← entry.contents.mapError (StoreError.readManifest entry.path)
  let spec ← (ActionSpec.fromYaml loader.toLoader text).mapError (StoreError.loadManifest entry.path)
  .ok (text, spec)

/-- One entry of a directory. What is wrong with the contents of a manifest is
an error, or where loading is lenient a reason to skip it. -/
def addEntry (lenient : Bool) (dir : String) (state : RegistryBuilder × List SkippedManifest)
    (listed : Except String DirEntry) : Except StoreError (RegistryBuilder × List SkippedManifest) := do
  let (builder, skipped) := state
  let entry ← listed.mapError .readDir
  if entry.extension ≠ some "yaml" ∧ entry.extension ≠ some "yml" then
    .ok (builder, skipped)
  else if !entry.contained then
    .error (.pathTraversal entry.path dir)
  else
    match fromFile loader entry with
    | .error e => if lenient then .ok (builder, skipped ++ [⟨entry.path, e.display⟩]) else .error e
    | .ok (text, spec) =>
      match (builder.actions.lookup spec.actionId).filter (duplicated dir) with
      | some known => .error (.duplicateActionId spec.actionId known.sourceFile entry.path)
      | none =>
        let builder := builder.countOverride loader spec
        match files.compileActionSchemas dir text with
        | .error e => if lenient then .ok (builder, skipped ++ [⟨entry.path, e.display⟩]) else .error e
        | .ok schemas => .ok (builder.insert spec.actionId ⟨spec, schemas, .dir dir, entry.path⟩, skipped)

def addDirWith (lenient : Bool) (dir : String) (builder : RegistryBuilder) :
    Except StoreError (RegistryBuilder × List SkippedManifest) :=
  match files.dir dir with
  | .missing => .ok (builder, [])
  | .notDirectory => .error (.dirNotFound dir)
  | .unreadable reason => .error (.readDir reason)
  | .listed entries => entries.foldlM (addEntry loader files lenient dir) (builder, [])

def addDir (dir : String) (builder : RegistryBuilder) : Except StoreError RegistryBuilder :=
  (addDirWith loader files false dir builder).map Prod.fst

def addDirLenient (dir : String) (builder : RegistryBuilder) :
    Except StoreError (RegistryBuilder × List SkippedManifest) :=
  addDirWith loader files true dir builder

end RegistryBuilder

structure RegistryStore where
  actions : List (String × Registered)
  overrideCount : Nat

namespace RegistryStore

def getAction (registry : RegistryStore) (actionId : String) : Option ActionSpec :=
  (registry.actions.lookup actionId).map Registered.spec

def len (registry : RegistryStore) : Nat :=
  registry.actions.length

end RegistryStore

def RegistryBuilder.build (builder : RegistryBuilder) : RegistryStore where
  actions := builder.actions
  overrideCount := builder.overrideCount

end Latchgate
