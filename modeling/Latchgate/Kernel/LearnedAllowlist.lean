import Latchgate.Kernel.Error
import Latchgate.Ledger.Error
import Latchgate.Manifest.Load
import Latchgate.Providers.Task

namespace Latchgate

/-- The two ways of reading what operators have learned for an action: from
the cache, and from the table when the lock of the cache is poisoned. -/
structure LearnedRules where
  cached : String → Except LedgerError (List String)
  forAction : String → Except LedgerError (List String)

/-- A rule set that cannot be read is an empty one. -/
def LearnedRules.get (rules : LearnedRules) (actionId : String) : List String :=
  match rules.cached actionId with
  | .ok learned => learned
  | .error .lockPoisoned =>
    match rules.forAction actionId with
    | .ok learned => learned
    | .error _ => []
  | .error _ => []

/-- The parts of the gate that the two ways to a task read. What is outside
of this repository, or is settled elsewhere in it, is a function: the manifest
loader with its glob engine, the secrets file, the directories of the host, the
JSON parser, the hashes, the budget store and the texts of errors. -/
structure AppState where
  loader : Loader
  registry : String → Option ActionSpec
  learnedDomains : LearnedRules
  learnedPaths : LearnedRules
  toLowercase : String → String
  egressRuntimeAllowlist : Option (List String)
  egressProxyUrl : Option String
  builtinDigests : String → Option String
  sopsSecretsFile : Option String
  decryptSecrets : String → List SecretDecl → Except String (List (String × String))
  fsRootFd : Option Nat
  fsRootCanonical : Option String
  sessionFsRoots : String → Option String
  openRootFd : String → Except String (Nat × String)
  parseJson : String → Option Json
  describeDecodeError : Json → String
  canonicalHash : Nat → Json → Except String String
  computePlanHash : ApprovedExecutionPlan → String
  getAndDebit : String → Except String Int
  debugNames : List String → String
  sanitizeForLog : String → String
  now : DateTime

namespace AppState

variable (state : AppState)

/-- Learned domains that are not already there, whatever their case. -/
def mergeLearnedDomains (actionId : String) (sinks : List String) : List String :=
  let existing := sinks.map state.toLowercase
  sinks ++ (state.learnedDomains.get actionId).filter fun domain =>
    state.toLowercase domain ∉ existing

def narrowEgressDomains (domains : List String) : List String :=
  match state.egressRuntimeAllowlist with
  | some runtime => domains.filter (· ∈ runtime)
  | none => domains

def resolveEffectiveSinks (actionId : String) (approvedEgress : EgressProfile) : List String :=
  state.narrowEgressDomains
    (state.mergeLearnedDomains actionId approvedEgress.concreteAllowedDomains)

/-- The learned patterns of an action. One that does not compile takes the
others with it. -/
def compileLearnedPaths (actionId : String) : List GlobPattern :=
  let learned := state.learnedPaths.get actionId
  if learned = [] then []
  else ((compilePatterns state.loader.compile learned).toOption).getD []

/-- The directory of the session if it has one, else the one of the gate. A
session directory must still be where the lease found it. -/
def openFsRoot (sessionFsRoot : Option String) : Option (Nat × String) :=
  match sessionFsRoot with
  | some sessionRoot =>
    match state.openRootFd sessionRoot with
    | .ok (fd, actual) => if actual = sessionRoot then some (fd, actual) else none
    | .error _ => none
  | none =>
    match state.fsRootFd, state.fsRootCanonical with
    | some fd, some canonical => some (fd, canonical)
    | _, _ => none

/-- `precompiled` holds the allowed and the denied patterns when they are
known already. -/
def buildFsHostConfig (actionId : String) (fs : FsConfig)
    (precompiled : Option (List GlobPattern × List GlobPattern)) (sessionFsRoot : Option String) :
    Option FsHostConfig :=
  match state.openFsRoot sessionFsRoot with
  | none => none
  | some (rootFd, rootCanonical) =>
    let (allowedPaths, deniedPaths) := precompiled.getD
      (fs.compiledAllowed ++ state.compileLearnedPaths actionId, fs.compiledDenied)
    some
      { rootFd
        rootCanonical
        allowedOperations := fs.allowedOperations
        allowedPaths
        deniedPaths
        maxFileBytes := fs.maxFileBytes }

end AppState
end Latchgate
