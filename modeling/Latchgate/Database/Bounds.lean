import Latchgate.Database.Validate

namespace Latchgate.Database

/-- How `execute_query` runs a request that has been accepted. -/
inductive Execution where
  | fetchAll
  | guarded (maxRows : UInt64)
  | execute
  deriving DecidableEq

/-- Only writes are guarded, and only those that need no approval. -/
def executeQuery (config : DatabaseConfig) (validated : ValidatedDatabaseRequest) : Execution :=
  if validated.operationClass.isRead then .fetchAll
  else if validated.requiresApproval then .execute
  else match config.rules.maxRowsAffectedWithoutApproval with
    | some maxRows => .guarded maxRows
    | none => .execute

/-- A keyword that changes rows stands outside of quotes and comments. -/
def Writes (sql : String) : Prop :=
  ∃ keyword ∈ ["INSERT", "UPDATE", "DELETE", "MERGE"], Sql.hasKeyword isWhitespace sql.toList keyword = true

def Located (sql : String) : Prop :=
  Sql.hasKeyword isWhitespace sql.toList "WHERE" = true

/-- The reported class bounds what the statement can do. -/
structure Bounds (config : DatabaseConfig) (v : ValidatedDatabaseRequest) : Prop where
  read : v.operationClass = .select → ¬Writes v.sql
  located : v.operationClass ∈ config.rules.requireWhereFor → Located v.sql
  hybrid : config.mode = .hybrid → v.isPredeclared = false → Writes v.sql →
    v.operationClass.isDmlWrite = true ∧ v.operationClass ∈ config.rules.allowParameterized
  readPath : executeQuery config v = .fetchAll → ¬Writes v.sql

/-- The text begins with one of the words that are taken to read. -/
def BeginsRead (sql : String) : Prop :=
  String.ofList ((splitWhitespace ((trim sql.toList).map Char.toUpper)).headD []) ∈ ["SELECT", "WITH", "TABLE", "VALUES"]

/-- Where a text is let through, it does not write if it begins like a reading
one, and has a WHERE outside of quotes and comments if its class needs one. Of a
query it is known that a word of its raw text is WHERE. -/
def Truthful (config : DatabaseConfig) : Option String → Option String → Prop
  | some stmtId, none => ∀ stmt, config.statements.find? (fun stmt => stmt.id = stmtId) = some stmt →
      (classifySql stmt.sql.toList).isAlwaysBlocked = false →
      (BeginsRead stmt.sql → ¬Writes stmt.sql) ∧
        (classifySql stmt.sql.toList ∈ config.rules.requireWhereFor → Located stmt.sql)
  | none, some query => Admitted config (classifySql query.toList) →
      (classifySql query.toList ∈ config.rules.requireWhereFor → hasWhereClause query.toList = true) →
      (BeginsRead query → ¬Writes query) ∧
        (classifySql query.toList ∈ config.rules.requireWhereFor → Located query)
  | _, _ => True

theorem firstWordClass_select {word : List Char} :
    firstWordClass word = .select ↔ String.ofList word ∈ ["SELECT", "WITH", "TABLE", "VALUES"] := by
  unfold firstWordClass
  dsimp only
  split_ifs <;> simp_all

/-- Of the texts that are let through those read that begin so. -/
theorem classifySql_select {sql : String} (allowed : (classifySql sql.toList).isAlwaysBlocked = false) :
    classifySql sql.toList = .select ↔ BeginsRead sql := by
  have unfolded : classifySql sql.toList = firstWordClass ((splitWhitespace ((trim sql.toList).map Char.toUpper)).headD []) := by
    unfold classifySql at allowed ⊢
    dsimp only at allowed ⊢
    split_ifs at allowed ⊢ with empty several
    · exact absurd allowed (by decide)
    · exact absurd allowed (by decide)
    · rfl
  rw [unfolded, firstWordClass_select]
  rfl

theorem isDmlWrite_of_allowed {op : OperationClass} (allowed : op.isAlwaysBlocked = false) (other : op ≠ .select) :
    op.isDmlWrite = true := by
  cases op with
  | select => exact absurd rfl other
  | insert => rfl
  | update => rfl
  | delete => rfl
  | _ => exact absurd allowed (by decide)

theorem executeQuery_fetchAll {config : DatabaseConfig} {v : ValidatedDatabaseRequest} :
    executeQuery config v = .fetchAll ↔ v.operationClass = .select := by
  constructor
  · intro path
    by_contra other
    have writes : v.operationClass.isRead = false := decide_eq_false other
    rw [executeQuery, writes, if_neg Bool.false_ne_true] at path
    split_ifs at path
    split at path <;> cases path
  · intro select
    simp [executeQuery, OperationClass.isRead, select]

/-- For what is let through the bounds come down to the text. -/
theorem bounds_iff {config : DatabaseConfig} {v : ValidatedDatabaseRequest} (allowed : v.operationClass.isAlwaysBlocked = false)
    (classified : v.operationClass = classifySql v.sql.toList)
    (listed : config.mode = .hybrid → v.isPredeclared = false → v.operationClass ∈ config.rules.allowParameterized) :
    Bounds config v ↔
      (BeginsRead v.sql → ¬Writes v.sql) ∧ (classifySql v.sql.toList ∈ config.rules.requireWhereFor → Located v.sql) := by
  have reads : v.operationClass = .select ↔ BeginsRead v.sql := by
    rw [classified] at allowed ⊢
    exact classifySql_select allowed
  constructor
  · intro bounds
    exact ⟨fun begins => bounds.read (reads.mpr begins), fun needed => bounds.located (classified ▸ needed)⟩
  · rintro ⟨read, located⟩
    refine ⟨fun select => read (reads.mp select), fun needed => located (classified ▸ needed), ?_, ?_⟩
    · intro hybrid query writes
      have other : v.operationClass ≠ .select := fun select => read (reads.mp select) writes
      exact ⟨isDmlWrite_of_allowed allowed other, listed hybrid query⟩
    · exact fun path => read (reads.mp (executeQuery_fetchAll.1 path))

/-- The request that comes of a statement of the manifest. -/
def predeclared (config : DatabaseConfig) (params : List String) (stmtId : String) (stmt : DatabaseStatement) :
    ValidatedDatabaseRequest :=
  ⟨stmt.sql, params, classifySql stmt.sql.toList, true, some stmtId,
    requiresApproval config.rules (classifySql stmt.sql.toList)⟩

/-- The request that comes of a query. -/
def parameterized (config : DatabaseConfig) (params : List String) (query : String) : ValidatedDatabaseRequest :=
  ⟨query, params, classifySql query.toList, false, none, requiresApproval config.rules (classifySql query.toList)⟩

theorem bounds_predeclared {config : DatabaseConfig} {params : List String} {stmtId : String} {stmt : DatabaseStatement}
    (allowed : (classifySql stmt.sql.toList).isAlwaysBlocked = false) :
    Bounds config (predeclared config params stmtId stmt) ↔
      (BeginsRead stmt.sql → ¬Writes stmt.sql) ∧
        (classifySql stmt.sql.toList ∈ config.rules.requireWhereFor → Located stmt.sql) :=
  @bounds_iff config (predeclared config params stmtId stmt) allowed rfl fun _ query => nomatch query

theorem bounds_parameterized {config : DatabaseConfig} {params : List String} {query : String}
    (admitted : Admitted config (classifySql query.toList)) :
    Bounds config (parameterized config params query) ↔
      (BeginsRead query → ¬Writes query) ∧ (classifySql query.toList ∈ config.rules.requireWhereFor → Located query) :=
  @bounds_iff config (parameterized config params query) admitted.2.1 rfl fun hybrid _ => admitted.2.2.2 hybrid

/-- The class of what is accepted bounds it exactly where the text is truthful:
a reading first word and no keyword that writes, and a WHERE that is no part of
a quoted text or a comment. -/
theorem class_bounds_iff (config : DatabaseConfig) (statementId query : Option String) (params : List String) :
    (∀ v, validateDatabaseRequest statementId query params config = .ok v → Bounds config v) ↔
      Truthful config statementId query := by
  cases statementId with
  | some stmtId =>
    cases query with
    | some query => exact iff_of_true (fun v accepted => nomatch accepted) trivial
    | none =>
      constructor
      · intro each stmt found allowed
        have accepted : validatePredeclared stmtId params config = .ok (predeclared config params stmtId stmt) :=
          validatePredeclared_eq_ok.2 ⟨stmt, found, allowed, rfl⟩
        exact (bounds_predeclared allowed).mp (each _ accepted)
      · intro truthful v accepted
        obtain ⟨stmt, found, allowed, same⟩ := validatePredeclared_eq_ok.1 accepted
        rw [same]
        exact (bounds_predeclared allowed).mpr (truthful stmt found allowed)
  | none =>
    cases query with
    | none => exact iff_of_true (fun v accepted => nomatch accepted) trivial
    | some query =>
      constructor
      · intro each admitted raw
        have accepted : validateParameterized query params config = .ok (parameterized config params query) :=
          validateParameterized_eq_ok.2 ⟨admitted, raw, rfl⟩
        exact (bounds_parameterized admitted).mp (each _ accepted)
      · intro truthful v accepted
        obtain ⟨admitted, raw, same⟩ := validateParameterized_eq_ok.1 accepted
        rw [same]
        exact (bounds_parameterized admitted).mpr (truthful admitted raw)

/-- A `WITH` that deletes is run as a read, and a WHERE in a literal is taken for
a clause. -/
theorem deletion_fetched :
    (validateDatabaseRequest none (some "WITH gone AS (DELETE FROM orders RETURNING id) SELECT id FROM gone") []
        ⟨.hybrid, [], { allowParameterized := [.select] }⟩ =
        .ok ⟨"WITH gone AS (DELETE FROM orders RETURNING id) SELECT id FROM gone", [], .select, false, none, false⟩ ∧
      Sql.hasKeyword isWhitespace "WITH gone AS (DELETE FROM orders RETURNING id) SELECT id FROM gone".toList "DELETE" = true ∧
      executeQuery ⟨.hybrid, [], { allowParameterized := [.select] }⟩
        ⟨"WITH gone AS (DELETE FROM orders RETURNING id) SELECT id FROM gone", [], .select, false, none, false⟩ = .fetchAll) ∧
    validateDatabaseRequest none (some "UPDATE orders SET note = ' WHERE '") []
        ⟨.parameterized, [], { requireWhereFor := [.update] }⟩ =
        .ok ⟨"UPDATE orders SET note = ' WHERE '", [], .update, false, none, false⟩ ∧
      Sql.hasKeyword isWhitespace "UPDATE orders SET note = ' WHERE '".toList "WHERE" = false := by
  refine ⟨⟨by decide, by decide, by decide⟩, by decide, by decide⟩

end Latchgate.Database
