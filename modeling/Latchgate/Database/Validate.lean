import Latchgate.Database.Classify

namespace Latchgate

namespace OperationClass

def isRead (op : OperationClass) : Bool :=
  op = .select

def isDmlWrite (op : OperationClass) : Bool :=
  op ∈ [.insert, .update, .delete]

def isAlwaysBlocked (op : OperationClass) : Bool :=
  op ∈ [.ddl, .grantRevoke, .copyIo, .transactionControl, .multiStatement, .unknown]

def display : OperationClass → String
  | .select => "select"
  | .insert => "insert"
  | .update => "update"
  | .delete => "delete"
  | .ddl => "ddl"
  | .grantRevoke => "grant_revoke"
  | .copyIo => "copy_io"
  | .transactionControl => "transaction_control"
  | .multiStatement => "multi_statement"
  | .unknown => "unknown"

end OperationClass

namespace Database

inductive DatabaseValidationError where
  | ambiguousRequest
  | emptyRequest
  | parameterizedInStrictMode
  | statementNotFound (id : String)
  | parameterizedWriteInHybridMode (op : OperationClass)
  | operationBlocked (op : OperationClass)
  | missingWhereClause (op : OperationClass)
  deriving DecidableEq

def DatabaseValidationError.display : DatabaseValidationError → String
  | .ambiguousRequest => "ambiguous request: statement_id and query are mutually exclusive"
  | .emptyRequest => "empty request: either statement_id or query is required"
  | .parameterizedInStrictMode => "parameterized queries are not allowed in strict mode"
  | .statementNotFound id => "statement_id '" ++ id ++ "' not found in manifest"
  | .parameterizedWriteInHybridMode op =>
    "parameterized " ++ op.display ++ " is not allowed in hybrid mode; use a predeclared statement"
  | .operationBlocked op => "operation " ++ op.display ++ " is blocked by host rules"
  | .missingWhereClause op => op.display ++ " requires a WHERE clause"

structure ValidatedDatabaseRequest where
  sql : String
  params : List String
  operationClass : OperationClass
  isPredeclared : Bool
  statementId : Option String
  requiresApproval : Bool
  deriving DecidableEq

def requiresApproval (rules : DatabaseRules) (op : OperationClass) : Bool :=
  op ∈ rules.requireApprovalFor && op ∉ rules.allowWithoutApproval

def validatePredeclared (stmtId : String) (params : List String) (config : DatabaseConfig) :
    Except DatabaseValidationError ValidatedDatabaseRequest :=
  match config.statements.find? fun stmt => stmt.id = stmtId with
  | none => .error (.statementNotFound stmtId)
  | some stmt =>
    let op := classifySql stmt.sql.toList
    if op.isAlwaysBlocked then .error (.operationBlocked op)
    else .ok ⟨stmt.sql, params, op, true, some stmtId, requiresApproval config.rules op⟩

def validateParameterized (query : String) (params : List String) (config : DatabaseConfig) :
    Except DatabaseValidationError ValidatedDatabaseRequest :=
  if config.mode = .strict then .error .parameterizedInStrictMode
  else
    let op := classifySql query.toList
    if op.isAlwaysBlocked then .error (.operationBlocked op)
    else if op ∈ config.rules.blockedOperations then .error (.operationBlocked op)
    else if config.mode = .hybrid ∧ op ∉ config.rules.allowParameterized then
      if op.isDmlWrite then .error (.parameterizedWriteInHybridMode op) else .error (.operationBlocked op)
    else if op ∈ config.rules.requireWhereFor ∧ hasWhereClause query.toList = false then
      .error (.missingWhereClause op)
    else .ok ⟨query, params, op, false, none, requiresApproval config.rules op⟩

/-- The one place where the rules of a database action are enforced. -/
def validateDatabaseRequest (statementId query : Option String) (params : List String) (config : DatabaseConfig) :
    Except DatabaseValidationError ValidatedDatabaseRequest :=
  match statementId, query with
  | some _, some _ => .error .ambiguousRequest
  | none, none => .error .emptyRequest
  | some stmtId, none => validatePredeclared stmtId params config
  | none, some query => validateParameterized query params config

/-- What is wrong with a statement of a manifest, after the identifiers that
have been seen. -/
def statementProblem (seenIds : List String) (stmt : DatabaseStatement) : Option String :=
  if stmt.id = "" then some "database_config: statement id must not be empty"
  else if 128 < stmt.id.utf8ByteSize then
    some ("database_config: statement id '" ++ stmt.id ++ "' exceeds 128 characters")
  else if (stmt.id.toList.all fun c => c.isAlphanum || c = '_' || c = '-') = false then
    some ("database_config: statement id '" ++ stmt.id ++
      "' contains invalid characters; only [a-zA-Z0-9_-] are permitted")
  else if stmt.id ∈ seenIds then some ("database_config: duplicate statement id '" ++ stmt.id ++ "'")
  else if trim stmt.sql.toList = [] then some ("database_config: statement '" ++ stmt.id ++ "' has empty SQL")
  else
    let op := classifySql stmt.sql.toList
    if op.isAlwaysBlocked then
      some ("database_config: statement '" ++ stmt.id ++ "' contains a blocked operation (" ++ op.display ++
        "); DDL, GRANT, COPY, transaction control, multi-statement, and unclassifiable SQL are not permitted " ++
        "in predeclared statements")
    else none

def validateStatements (seenIds : List String) : List DatabaseStatement → Except String Unit
  | [] => .ok ()
  | stmt :: rest =>
    match statementProblem seenIds stmt with
    | some problem => .error problem
    | none => validateStatements (stmt.id :: seenIds) rest

def validate (config : DatabaseConfig) : Except String Unit :=
  if config.mode = .strict ∧ config.statements = [] then
    .error "database_config: strict mode requires at least one predeclared statement"
  else validateStatements [] config.statements

/-! What is accepted. -/

theorem validatePredeclared_eq_ok {stmtId : String} {params : List String} {config : DatabaseConfig}
    {v : ValidatedDatabaseRequest} :
    validatePredeclared stmtId params config = .ok v ↔
      ∃ stmt, config.statements.find? (fun stmt => stmt.id = stmtId) = some stmt ∧
        (classifySql stmt.sql.toList).isAlwaysBlocked = false ∧
        v = ⟨stmt.sql, params, classifySql stmt.sql.toList, true, some stmtId,
          requiresApproval config.rules (classifySql stmt.sql.toList)⟩ := by
  unfold validatePredeclared
  cases config.statements.find? fun stmt => stmt.id = stmtId with
  | none => simp
  | some stmt =>
    cases blocked : (classifySql stmt.sql.toList).isAlwaysBlocked with
    | true => simp [blocked]
    | false =>
      simp only [blocked, Bool.false_eq_true, if_false, Except.ok.injEq, Option.some.injEq, exists_eq_left', true_and]
      exact eq_comm

/-- The operations that a query may be: not blocked, and in hybrid mode listed. -/
def Admitted (config : DatabaseConfig) (op : OperationClass) : Prop :=
  config.mode ≠ .strict ∧ op.isAlwaysBlocked = false ∧ op ∉ config.rules.blockedOperations ∧
    (config.mode = .hybrid → op ∈ config.rules.allowParameterized)

theorem validateParameterized_eq_ok {query : String} {params : List String} {config : DatabaseConfig}
    {v : ValidatedDatabaseRequest} :
    validateParameterized query params config = .ok v ↔
      Admitted config (classifySql query.toList) ∧
        (classifySql query.toList ∈ config.rules.requireWhereFor → hasWhereClause query.toList = true) ∧
        v = ⟨query, params, classifySql query.toList, false, none,
          requiresApproval config.rules (classifySql query.toList)⟩ := by
  unfold validateParameterized Admitted
  dsimp only
  split_ifs with strict blocked listed outside dml nowhere
  · simp [strict]
  · simp [blocked]
  · simp [listed]
  · simp [outside]
  · simp [outside]
  · simp [nowhere]
  · simp only [Bool.not_eq_true] at blocked
    simp only [not_and, not_not] at outside
    simp only [not_and, Bool.not_eq_false] at nowhere
    simp only [ne_eq, strict, not_false_eq_true, blocked, listed, true_and, Except.ok.injEq]
    exact ⟨fun same => ⟨outside, nowhere, same.symm⟩, fun accepted => accepted.2.2.symm⟩

/-- What is accepted has the class of its text, and one that is not blocked. -/
theorem accepted_class {statementId query : Option String} {params : List String} {config : DatabaseConfig}
    {v : ValidatedDatabaseRequest} (accepted : validateDatabaseRequest statementId query params config = .ok v) :
    v.operationClass = classifySql v.sql.toList ∧ v.operationClass.isAlwaysBlocked = false := by
  cases statementId with
  | some stmtId =>
    cases query with
    | some query => cases accepted
    | none =>
      obtain ⟨stmt, _, allowed, rfl⟩ := validatePredeclared_eq_ok.1 accepted
      exact ⟨rfl, allowed⟩
  | none =>
    cases query with
    | some query =>
      obtain ⟨admitted, _, rfl⟩ := validateParameterized_eq_ok.1 accepted
      exact ⟨rfl, admitted.2.1⟩
    | none => cases accepted

theorem configured_class {seenIds : List String} {statements : List DatabaseStatement}
    (valid : validateStatements seenIds statements = .ok ()) :
    ∀ stmt ∈ statements, (classifySql stmt.sql.toList).isAlwaysBlocked = false := by
  induction statements generalizing seenIds with
  | nil => simp
  | cons first rest ih =>
    rw [validateStatements] at valid
    cases problem : statementProblem seenIds first with
    | some text => simp [problem] at valid
    | none =>
      simp only [problem] at valid
      refine List.forall_mem_cons.mpr ⟨?_, ih valid⟩
      unfold statementProblem at problem
      dsimp only at problem
      split_ifs at problem with _ _ _ _ _ blocked
      simpa using blocked

/-! Several statements in one text. -/

/-- By the rules of SQL something stands behind a semicolon. -/
def SeveralStatements (sql : String) : Prop :=
  Sql.Several (Sql.lex isWhitespace sql.toList)

/-- Behind a semicolon there is a token that tells, and no literal before it is
misread. -/
def Told (sql : String) : Prop :=
  ∃ before token after, Sql.lex isWhitespace sql.toList = before ++ token :: after ∧ .semicolon ∈ before ∧
    telling token = true ∧ ∀ earlier ∈ before, misread earlier = false

/-- The text is known to have several statements, and it is refused. -/
structure Caught (sql : String) : Prop where
  several : containsMultipleStatements (trim sql.toList) = true
  classified : classifySql sql.toList = .multiStatement
  refused : ∀ statementId query params config v,
    validateDatabaseRequest statementId query params config = .ok v → v.sql ≠ sql
  unconfigured : ∀ config, validate config = .ok () → ∀ stmt ∈ config.statements, stmt.sql ≠ sql

theorem caught_iff {sql : String} : Caught sql ↔ containsMultipleStatements (trim sql.toList) = true := by
  refine ⟨Caught.several, fun several => ?_⟩
  have some_ : trim sql.toList ≠ [] := by
    intro none_
    rw [none_] at several
    cases several
  have classified : classifySql sql.toList = .multiStatement := by
    simp only [classifySql, if_neg some_, several, if_true]
  refine ⟨several, classified, ?_, ?_⟩
  · rintro statementId query params config v accepted rfl
    obtain ⟨same, allowed⟩ := accepted_class accepted
    rw [same, classified] at allowed
    exact absurd allowed (by decide)
  · rintro config valid stmt member rfl
    unfold validate at valid
    split_ifs at valid
    have allowed := configured_class valid stmt member
    rw [classified] at allowed
    exact absurd allowed (by decide)

theorem told_lex {sql : String} : told false (Sql.lex isWhitespace (trim sql.toList)) = true ↔ Told sql := by
  rw [told_trim, told_iff]
  simp only [Bool.false_eq_true, false_or]
  rfl

theorem caught_of_told {sql : String} (tells : Told sql) : Caught sql :=
  caught_iff.2 ((@scanFrom_told .code {} (trim sql.toList) ⟨rfl, rfl, rfl⟩).1 (told_lex.2 tells))

/-- A text with several statements is caught if what shows it does not follow a
literal that the scanner takes to be open; and where there is none of these in
the text, nothing else is caught. -/
theorem multi_statements_caught (sql : String) :
    ((SeveralStatements sql → Told sql) → SeveralStatements sql → Caught sql) ∧
    ((∀ token ∈ Sql.lex isWhitespace (trim sql.toList), misread token = false) →
      ((SeveralStatements sql → Caught sql) ↔ (SeveralStatements sql → Told sql))) := by
  refine ⟨fun tells several => caught_of_told (tells several), fun read => ⟨fun caught several => ?_, ?_⟩⟩
  · have found := (caught several).several
    exact told_lex.1 ((@scanFrom_told .code {} (trim sql.toList) ⟨rfl, rfl, rfl⟩).2 read found)
  · exact fun tells several => caught_of_told (tells several)

/-- Behind an empty literal the scanner sees no semicolon. -/
theorem empty_literal_hides_statement :
    SeveralStatements "SELECT ''; DROP TABLE orders" ∧
      classifySql "SELECT ''; DROP TABLE orders".toList = .select ∧
      validateDatabaseRequest none (some "SELECT ''; DROP TABLE orders") []
        ⟨.hybrid, [], { allowParameterized := [.select] }⟩ =
          .ok ⟨"SELECT ''; DROP TABLE orders", [], .select, false, none, false⟩ := by
  refine ⟨⟨(Sql.lex isWhitespace "SELECT ''; DROP TABLE orders".toList).take 10, .symbol 'D',
    (Sql.lex isWhitespace "SELECT ''; DROP TABLE orders".toList).drop 11, by decide, by decide, rfl⟩, by decide, by decide⟩

end Database

end Latchgate
