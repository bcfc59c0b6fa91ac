import Latchgate.Json.Decode
import Latchgate.Manifest.Types

namespace Latchgate

inductive DatabaseMode where
  | strict
  | parameterized
  | hybrid
  deriving DecidableEq

inductive OperationClass where
  | select
  | insert
  | update
  | delete
  | ddl
  | grantRevoke
  | copyIo
  | transactionControl
  | multiStatement
  | unknown
  deriving DecidableEq

structure DatabaseStatement where
  id : String
  sql : String
  deriving DecidableEq

structure DatabaseRules where
  blockedOperations : List OperationClass := []
  requireApprovalFor : List OperationClass := []
  allowWithoutApproval : List OperationClass := []
  allowParameterized : List OperationClass := []
  requireWhereFor : List OperationClass := []
  maxRowsAffectedWithoutApproval : Option UInt64 := none
  deriving DecidableEq

structure DatabaseConfig where
  mode : DatabaseMode
  statements : List DatabaseStatement
  rules : DatabaseRules
  deriving DecidableEq

def DatabaseMode.variants : List (String × DatabaseMode) :=
  [("strict", .strict), ("parameterized", .parameterized), ("hybrid", .hybrid)]

def OperationClass.variants : List (String × OperationClass) :=
  [("select", .select), ("insert", .insert), ("update", .update), ("delete", .delete), ("ddl", .ddl),
    ("grant_revoke", .grantRevoke), ("copy_io", .copyIo), ("transaction_control", .transactionControl),
    ("multi_statement", .multiStatement), ("unknown", .unknown)]

def DatabaseStatement.fromValue (v : Json) : Option DatabaseStatement :=
  (v.members ["id", "sql"]).bind fun member => do
    let id ← Json.decodeRequired Json.asStr? (member "id")
    let sql ← Json.decodeRequired Json.asStr? (member "sql")
    some { id, sql }

/-- A list of operation classes that may be absent. -/
def decodeClasses : Option Json → Option (List OperationClass) :=
  Json.decodeOr [] (Json.decodeList (Json.decodeVariant OperationClass.variants))

def DatabaseRules.fieldNames : List String :=
  ["blocked_operations", "require_approval_for", "allow_without_approval", "allow_parameterized",
    "require_where_for", "max_rows_affected_without_approval"]

def DatabaseRules.fromValue (v : Json) : Option DatabaseRules :=
  (v.members fieldNames).bind fun member => do
    let blockedOperations ← decodeClasses (member "blocked_operations")
    let requireApprovalFor ← decodeClasses (member "require_approval_for")
    let allowWithoutApproval ← decodeClasses (member "allow_without_approval")
    let allowParameterized ← decodeClasses (member "allow_parameterized")
    let requireWhereFor ← decodeClasses (member "require_where_for")
    let maxRowsAffectedWithoutApproval ← Json.decodeOr none (Json.decodeNullable Json.decodeU64)
      (member "max_rows_affected_without_approval")
    some
      { blockedOperations
        requireApprovalFor
        allowWithoutApproval
        allowParameterized
        requireWhereFor
        maxRowsAffectedWithoutApproval }

/-- Absent rules are empty rules, not the rules of the default configuration. -/
def DatabaseConfig.fromValue (v : Json) : Option DatabaseConfig :=
  (v.members ["mode", "statements", "rules"]).bind fun member => do
    let mode ← Json.decodeOr .hybrid (Json.decodeVariant DatabaseMode.variants) (member "mode")
    let statements ← Json.decodeOr [] (Json.decodeList DatabaseStatement.fromValue)
      (member "statements")
    let rules ← Json.decodeOr {} DatabaseRules.fromValue (member "rules")
    some { mode, statements, rules }

theorem DatabaseStatement.stable_fromValue : Json.Stable DatabaseStatement.fromValue := by
  refine Json.Stable.record fun alike => ?_
  simp only [Json.stable_asStr?.required (alike _)]

theorem stable_decodeClasses {read : FloatText → Except String FloatText} {m n : Option Json}
    (alike : Json.Reread read m n) : decodeClasses n = decodeClasses m :=
  (Json.stable_decodeVariant _).list.or _ alike

theorem DatabaseRules.stable_fromValue : Json.Stable DatabaseRules.fromValue := by
  refine Json.Stable.record fun alike => ?_
  simp only [stable_decodeClasses (alike _), Json.stable_decodeU64.nullable.or _ (alike _)]

/-- A database block that is read back from its text configures the same
database. -/
theorem DatabaseConfig.stable_fromValue : Json.Stable DatabaseConfig.fromValue := by
  refine Json.Stable.record fun alike => ?_
  simp only [(Json.stable_decodeVariant _).or _ (alike _),
    DatabaseStatement.stable_fromValue.list.or _ (alike _), DatabaseRules.stable_fromValue.or _ (alike _)]

/-- What the host lets a filesystem provider do. -/
structure FsHostConfig where
  rootFd : Nat
  rootCanonical : String
  allowedOperations : List FsOperation
  allowedPaths : List GlobPattern
  deniedPaths : List GlobPattern
  maxFileBytes : UInt64

structure RunTask where
  moduleDigest : String
  argsJson : String
  allowedImports : List String
  resourceLimits : ResourceLimits
  allowedSinks : List String
  approvedSecrets : List String
  decryptedSecrets : List (String × String)
  traceId : String
  databaseConfig : Option DatabaseConfig
  egressProxyUrl : Option String
  fsConfig : Option FsHostConfig

end Latchgate
