import Latchgate.Manifest.Types
import Mathlib.Data.List.DropRight

namespace Latchgate

inductive PathDecision where
  | allowed
  | denied
  | notMatched
  deriving DecidableEq

/-- Deny overrides allow. -/
def evaluatePath (path : String) (allowed denied : List GlobPattern) : PathDecision :=
  if denied.any fun g => g path then .denied
  else if allowed.any fun g => g path then .allowed
  else .notMatched

theorem evaluatePath_denied {path : String} {allowed denied : List GlobPattern} :
    evaluatePath path allowed denied = .denied ↔ ∃ g ∈ denied, g path := by
  unfold evaluatePath
  split_ifs with matched wanted
  · simpa using matched
  · simpa using matched
  · simpa using matched

/-- Compiles a list of patterns; the first invalid one fails the whole list.
`compile` is the glob engine, with its reason against a pattern. -/
def compilePatterns (compile : String → Except String GlobPattern) (patterns : List String) :
    Except String (List GlobPattern) :=
  patterns.mapM fun pattern =>
    (compile pattern).mapError fun reason => "invalid glob pattern '" ++ pattern ++ "': " ++ reason

namespace FsPath

def segments (path : String) : List (List Char) :=
  path.toList.splitOn '/'

def isAbsolute (path : String) : Bool :=
  path.toList.head? = some '/'

/-- White space in the sense of the Unicode property. -/
def isWhitespace (c : Char) : Bool :=
  let n := c.toNat
  (9 ≤ n ∧ n ≤ 13) ∨ n ∈ [0x20, 0x85, 0xA0, 0x1680, 0x2028, 0x2029, 0x202F, 0x205F, 0x3000] ∨
    (0x2000 ≤ n ∧ n ≤ 0x200A)

inductive PathGlobValidationError where
  | empty
  | absolute
  | catchAll (glob : String)
  | nullByte (position : Nat)
  | controlCharacter (byte : UInt8) (position : Nat)
  | parentTraversal
  | sensitiveTarget (target : String)
  deriving DecidableEq

def hexByte (b : UInt8) : String :=
  String.ofList [Nat.digitChar (b.toNat / 16), Nat.digitChar (b.toNat % 16)]

def PathGlobValidationError.display : PathGlobValidationError → String
  | empty => "path glob must not be empty or whitespace-only"
  | absolute => "path glob must be relative (no leading '/')"
  | catchAll glob =>
    "catch-all pattern '" ++ glob ++ "' is too broad — use a scoped pattern like 'src/**' instead"
  | nullByte position => "null byte at position " ++ toString position
  | controlCharacter byte position =>
    "control character 0x" ++ hexByte byte ++ " at position " ++ toString position
  | parentTraversal => "parent traversal ('..') is not allowed in learned paths"
  | sensitiveTarget target =>
    "glob targets sensitive location '" ++ target ++
      "' — these are covered by the runtime deny list and must not be learned as allow patterns"

def sensitivePathSegments : List String :=
  [".env", ".ssh", ".git", ".latchgate", ".aws", ".gnupg", ".pgpass", ".netrc", ".docker", ".kube",
    ".config/latchgate"]

/-- The sensitive location that the leading part of a glob names. -/
def targetsSensitiveLocation (glob : String) : Option String :=
  let whole := glob.toList
  let first := (segments glob).headD whole
  sensitivePathSegments.find? fun target =>
    let sensitive := target.toList
    first = sensitive ∨
    (sensitive.isPrefixOf first ∧ first[sensitive.length]? ∈ [some '.', some '*']) ∨
    ('/' ∈ sensitive ∧ sensitive.isPrefixOf whole ∧
      whole[sensitive.length]? ∈ [none, some '/', some '*'])

def trimSlashes (chars : List Char) : List Char :=
  (chars.dropWhile (· = '/')).rdropWhile (· = '/')

/-- The first byte that a glob must not have: a null byte or a control
character other than the tab. -/
def badByte (glob : String) : Option (UInt8 × Nat) :=
  glob.toUTF8.data.toList.zipIdx.find? fun (b, _) => b = 0 ∨ (b < 0x20 ∧ b ≠ 9)

def validatePathGlobEntry (glob : String) : Except PathGlobValidationError Unit :=
  if glob.toList.all isWhitespace then .error .empty
  else if isAbsolute glob then .error .absolute
  else if String.ofList (trimSlashes glob.toList) ∈ ["*", "**", "**/*"] then .error (.catchAll glob)
  else match badByte glob with
    | some (b, i) => if b = 0 then .error (.nullByte i) else .error (.controlCharacter b i)
    | none =>
      if (segments glob).contains ['.', '.'] then .error .parentTraversal
      else match targetsSensitiveLocation glob with
        | some target => .error (.sensitiveTarget target)
        | none => .ok ()

/-- A directory as the kernel resolved it: always an absolute path. -/
structure Root where
  path : String
  absolute : isAbsolute path = true

/-- Empty and `.` segments name nothing. -/
def skipped (segment : List Char) : Bool :=
  segment = [] ∨ segment = ['.']

/-- What is left of a path behind the named segments of a root. -/
def stripSegments : List (List Char) → List (List Char) → Option (List (List Char))
  | path, [] => some path
  | path, r :: root =>
    match path.dropWhile skipped with
    | [] => none
    | s :: rest => if s = r then stripSegments rest root else none

/-- The text that is left of an absolute path behind a root, without the
skipped segments at its ends. -/
def stripPrefix (path : String) (root : Root) : Option String :=
  (stripSegments (segments path) ((segments root.path).filter fun s => !skipped s)).map fun rest =>
    String.ofList (List.intercalate ['/'] ((rest.dropWhile skipped).rdropWhile skipped))

def relativizeToRoot (path : String) (root : Root) : Option String :=
  if isAbsolute path = false then some path
  else match stripPrefix path root with
    | none => none
    | some relative => if relative = "" then none else some relative

end FsPath
end Latchgate
