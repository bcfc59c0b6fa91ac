import Latchgate.Database.Bounds
import Latchgate.Json.Value
import Latchgate.Machine.Transaction
import Latchgate.Providers.HostIo
import Mathlib.Data.List.Forall2

namespace Latchgate.Database
open Dialogue Transaction

structure DatabaseRequest where
  statementId : Option String
  query : Option String
  params : List String

structure QueryResult where
  rowsAffected : UInt64
  transactionId : String
  columns : List String
  rowsJson : String

/-- A row of the driver: the names of its columns, and what stands under a name
if that is a text. -/
structure PgRow where
  columns : List String
  tryGet : String → Option String

/-- A statement with the values that are bound to it. -/
abbrev Bound := String × List String

abbrev Talk (α : Type) := Dialogue (Command Bound) (Reply Bound PgRow UInt64 String) α

def rowObject (row : PgRow) : Json :=
  Json.ofFields (row.columns.map fun name => (name, ((row.tryGet name).map Json.string).getD .null))

def fetchRows (validated : ValidatedDatabaseRequest) : Talk (Except String QueryResult) :=
  .ask (.fetchAll (validated.sql, validated.params)) fun
    | .error e => .done (.error ("database query failed: " ++ e))
    | .ok rows =>
      .done (.ok
        { rowsAffected := 0
          transactionId := ""
          columns := (rows.head?.map PgRow.columns).getD []
          rowsJson := (Json.array (rows.map rowObject)).toCompactString })

def changedRows (rows : UInt64) : QueryResult :=
  ⟨rows, "", [], "[]"⟩

/-- A write that has to stay within a limit. The transaction is let go of where
the code returns with it open. -/
def executeGuarded (maxRows : UInt64) (validated : ValidatedDatabaseRequest) : Talk (Except String QueryResult) :=
  .ask .begin fun
    | .error e => .done (.error ("database begin transaction failed: " ++ e))
    | .ok () => .ask (.executeIn (validated.sql, validated.params)) fun
      | .error e => .ask .drop fun _ => .done (.error ("database execute failed: " ++ e))
      | .ok rows =>
        if maxRows < rows then
          .ask .rollback fun
            | .error e => .done (.error ("database rollback failed: " ++ e))
            | .ok () =>
              .done (.error ("rows_affected violation: " ++ toString rows ++
                " rows affected, max_rows_affected_without_approval is " ++ toString maxRows ++
                " (transaction rolled back)"))
        else
          .ask .commit fun
            | .error e => .done (.error ("database commit failed: " ++ e))
            | .ok () => .done (.ok (changedRows rows))

def executeUnguarded (validated : ValidatedDatabaseRequest) : Talk (Except String QueryResult) :=
  .ask (.execute (validated.sql, validated.params)) fun
    | .error e => .done (.error ("database execute failed: " ++ e))
    | .ok rows => .done (.ok (changedRows rows))

def perform (config : DatabaseConfig) (validated : ValidatedDatabaseRequest) : Talk (Except String QueryResult) :=
  match executeQuery config validated with
  | .fetchAll => fetchRows validated
  | .guarded maxRows => executeGuarded maxRows validated
  | .execute => executeUnguarded validated

/-- What the host has for the database import of one execution. -/
structure DatabaseHost where
  host : HostState
  dbPool : Bool
  databaseConfig : Option DatabaseConfig

namespace DatabaseHost

/-- `execute_query` -/
def executeQuery (h : DatabaseHost) (req : DatabaseRequest) : Talk (Except String QueryResult × DatabaseHost) :=
  match h.host.admitCall "latchgate:io/database" with
  | .error e => .done (.error e.display, h)
  | .ok host =>
    if h.dbPool = false then
      .done (.error "database host import unavailable: database_url is not configured in latchgate.toml", { h with host })
    else match h.databaseConfig with
      | none => .done (.error "database action denied: database_config required in manifest", { h with host })
      | some config =>
        match validateDatabaseRequest req.statementId req.query req.params config with
        | .error e => .done (.error ("database request denied: " ++ e.display), { h with host })
        | .ok validated => (perform config validated).bind fun reply => .done (reply, { h with host })

end DatabaseHost

/-- The host of one execution, with what it has answered so far. -/
structure ProviderRun where
  host : DatabaseHost
  answered : List (DatabaseRequest × Except String QueryResult) := []

def answer (req : DatabaseRequest) (s : ProviderRun) : Talk (Except String QueryResult × ProviderRun) :=
  (s.host.executeQuery req).bind fun reply => .done (reply.1, ⟨reply.2, s.answered ++ [(req, reply.1)]⟩)

/-- A module that calls the database import as it likes. -/
abbrev Provider (α : Type) := Dialogue DatabaseRequest (fun _ => Except String QueryResult) α

/-! What one call adds to the log of the database. -/

/-- A limit that applies is kept. -/
def WithinLimit (config : DatabaseConfig) (v : ValidatedDatabaseRequest) (rows : UInt64) : Prop :=
  ∀ maxRows, executeQuery config v = .guarded maxRows → rows ≤ maxRows

/-- How a failure begins after which the statement may have taken effect. -/
def lostText : Execution → String
  | .fetchAll => "database query failed: "
  | .guarded _ => "database commit failed: "
  | .execute => "database execute failed: "

inductive Replied (config : DatabaseConfig) (v : ValidatedDatabaseRequest) :
    Except String QueryResult → List (Effect Bound UInt64) → Prop
  | failed {e} : Replied config v (.error e) []
  | done {result rows} (told : executeQuery config v ≠ .fetchAll → result.rowsAffected = rows) :
      Replied config v (.ok result) [((v.sql, v.params), rows)]
  | lost {detail rows} : Replied config v (.error (lostText (executeQuery config v) ++ detail)) [((v.sql, v.params), rows)]

/-- The statement, once at most, and within the limit. -/
def Once (config : DatabaseConfig) (v : ValidatedDatabaseRequest) (added : List (Effect Bound UInt64)) : Prop :=
  added = [] ∨ ∃ rows, added = [((v.sql, v.params), rows)] ∧ WithinLimit config v rows

/-- What holds of a call at every point of it, and when it has a reply. -/
def Performs (config : DatabaseConfig) (v : ValidatedDatabaseRequest) (result : Option (Except String QueryResult))
    (added : List (Effect Bound UInt64)) : Prop :=
  Once config v added ∧ ∀ reply, result = some reply → Replied config v reply added

section Call
variable {config : DatabaseConfig} {v : ValidatedDatabaseRequest}

theorem performs_failed (e : String) :
    Adds none (.done (.error e) : Talk (Except String QueryResult)) (Performs config v) := by
  refine adds_done ⟨.inl rfl, nofun⟩ ⟨.inl rfl, ?_⟩
  rintro reply same
  cases same
  exact .failed

theorem performs_lost (e detail : String) (text : e = lostText (executeQuery config v) ++ detail) {rows : UInt64}
    (within : WithinLimit config v rows) :
    Adds none (.done (.error e) : Talk (Except String QueryResult)) fun result later =>
      Performs config v result (((v.sql, v.params), rows) :: later) := by
  refine adds_done ⟨.inr ⟨rows, rfl, within⟩, nofun⟩ ⟨.inr ⟨rows, rfl, within⟩, ?_⟩
  rintro reply same
  cases same
  rw [text]
  exact .lost

theorem performs_done {result : QueryResult} {rows : UInt64} (within : WithinLimit config v rows)
    (told : executeQuery config v ≠ .fetchAll → result.rowsAffected = rows) :
    Adds none (.done (.ok result) : Talk (Except String QueryResult)) fun result later =>
      Performs config v result (((v.sql, v.params), rows) :: later) := by
  refine adds_done ⟨.inr ⟨rows, rfl, within⟩, nofun⟩ ⟨.inr ⟨rows, rfl, within⟩, ?_⟩
  rintro reply same
  cases same
  exact .done told

theorem adds_fetchRows (path : executeQuery config v = .fetchAll) : Adds none (fetchRows v) (Performs config v) := by
  have within : ∀ rows, WithinLimit config v rows := by
    intro rows maxRows guarded
    rw [path] at guarded
    cases guarded
  refine adds_fetchAll ⟨.inl rfl, nofun⟩ ?_ ?_ ?_
  · intro rows n
    exact performs_done (within n) fun other => absurd path other
  · exact fun e => performs_failed _
  · intro e n
    exact performs_lost _ e (by rw [path]; rfl) (within n)

theorem adds_executeUnguarded (path : executeQuery config v = .execute) :
    Adds none (executeUnguarded v) (Performs config v) := by
  have within : ∀ rows, WithinLimit config v rows := by
    intro rows maxRows guarded
    rw [path] at guarded
    cases guarded
  refine adds_execute ⟨.inl rfl, nofun⟩ ?_ ?_ ?_
  · intro n
    exact performs_done (within n) fun _ => rfl
  · exact fun e => performs_failed _
  · intro e n
    exact performs_lost _ e (by rw [path]; rfl) (within n)

/-- Only a statement within the limit is committed. -/
theorem adds_executeGuarded {maxRows : UInt64} (path : executeQuery config v = .guarded maxRows) :
    Adds none (executeGuarded maxRows v) (Performs config v) := by
  have start : Performs config v none [] := ⟨.inl rfl, nofun⟩
  refine adds_begin start (adds_executeIn start ?_ ?_) fun e => performs_failed _
  · intro rows
    dsimp only
    split_ifs with exceeds
    · refine adds_rollback start fun reply => ?_
      cases reply with
      | error e => exact performs_failed _
      | ok => exact performs_failed _
    · have within : WithinLimit config v rows := by
        intro limit guarded
        rw [path] at guarded
        cases guarded
        exact UInt64.not_lt.mp exceeds
      refine adds_commit start (performs_done within fun _ => rfl) (fun e => performs_failed _) fun e => ?_
      exact performs_lost _ e (by rw [path]; rfl) within
  · intro e left
    exact adds_drop start (performs_failed _)

theorem adds_perform (config : DatabaseConfig) (v : ValidatedDatabaseRequest) :
    Adds none (perform config v) (Performs config v) := by
  unfold perform
  split
  · exact adds_fetchRows ‹_›
  · exact adds_executeGuarded ‹_›
  · exact adds_executeUnguarded ‹_›

end Call

/-! What the calls of a provider add together. -/

/-- The host may run a statement: the import is declared, and the rules of the
manifest accept a request for it. -/
def DatabaseHost.Accepts (h : DatabaseHost) (req : DatabaseRequest) (config : DatabaseConfig)
    (v : ValidatedDatabaseRequest) : Prop :=
  "latchgate:io/database" ∈ h.host.allowedImports ∧ h.databaseConfig = some config ∧
    validateDatabaseRequest req.statementId req.query req.params config = .ok v

/-- A statement that some request was accepted for, within its limit. -/
def DatabaseHost.Permits (h : DatabaseHost) (effect : Effect Bound UInt64) : Prop :=
  ∃ req config v, h.Accepts req config v ∧ effect.1 = (v.sql, v.params) ∧ WithinLimit config v effect.2

/-- What a call that was answered has added. -/
inductive DatabaseHost.Settles (h : DatabaseHost) :
    DatabaseRequest × Except String QueryResult → List (Effect Bound UInt64) → Prop
  | refused {req e} : h.Settles (req, .error e) []
  | performed {req reply added config v} (accepts : h.Accepts req config v) (replied : Replied config v reply added) :
      h.Settles (req, reply) added

/-- The log is what the calls have added, one after the other. -/
def DatabaseHost.Accounts (h : DatabaseHost) (answered : List (DatabaseRequest × Except String QueryResult))
    (log : List (Effect Bound UInt64)) : Prop :=
  ∃ parts, List.Forall₂ h.Settles answered parts ∧ parts.flatten = log

/-- The host after some calls. -/
def DatabaseHost.spent (h : DatabaseHost) (calls : Nat) : DatabaseHost :=
  { h with host := { h.host with ioCallsMade := h.host.ioCallsMade + calls } }

/-- At most one statement, that is permitted and paid for. -/
def DatabaseHost.Cautious (h : DatabaseHost) (added : List (Effect Bound UInt64)) : Prop :=
  added = [] ∨ h.host.ioCallsMade < h.host.maxIoCalls ∧ ∃ effect, added = [effect] ∧ h.Permits effect

/-- What holds of a call at every point of it, and when it is answered: a call
that is admitted is paid for, and one that is not adds nothing. -/
def DatabaseHost.Answers (h : DatabaseHost) (req : DatabaseRequest)
    (result : Option (Except String QueryResult × DatabaseHost)) (added : List (Effect Bound UInt64)) : Prop :=
  h.Cautious added ∧ ∀ reply h', result = some (reply, h') → h.Settles (req, reply) added ∧
    (h' = h ∧ added = [] ∨ h' = h.spent 1 ∧ h.host.ioCallsMade < h.host.maxIoCalls)

theorem answers_refused {h h' : DatabaseHost} (req : DatabaseRequest) (e : String)
    (paid : h' = h ∨ h' = h.spent 1 ∧ h.host.ioCallsMade < h.host.maxIoCalls) :
    Adds none (.done (.error e, h') : Talk (Except String QueryResult × DatabaseHost)) (h.Answers req) := by
  refine adds_done ⟨.inl rfl, nofun⟩ ⟨.inl rfl, ?_⟩
  rintro reply after same
  cases same
  exact ⟨.refused, paid.imp (fun same => ⟨same, rfl⟩) id⟩

theorem adds_executeQuery (h : DatabaseHost) (req : DatabaseRequest) : Adds none (h.executeQuery req) (h.Answers req) := by
  unfold DatabaseHost.executeQuery
  cases admitted : h.host.admitCall "latchgate:io/database" with
  | error e => exact answers_refused req _ (.inl rfl)
  | ok host =>
    obtain ⟨declared, room, rfl⟩ := HostState.admitCall_ok admitted
    have spent : ∀ config, h.databaseConfig = config →
        ⟨{ h.host with ioCallsMade := h.host.ioCallsMade + 1 }, h.dbPool, config⟩ = h.spent 1 := by
      rintro _ rfl
      rfl
    dsimp only
    split_ifs with pool
    · exact answers_refused req _ (.inr ⟨rfl, room⟩)
    · cases configured : h.databaseConfig with
      | none => exact answers_refused req _ (.inr ⟨spent none configured, room⟩)
      | some config =>
        dsimp only
        cases accepted : validateDatabaseRequest req.statementId req.query req.params config with
        | error e => exact answers_refused req _ (.inr ⟨spent _ configured, room⟩)
        | ok v =>
          have accepts : h.Accepts req config v := ⟨declared, configured, accepted⟩
          have cautious : ∀ added, Once config v added → h.Cautious added := by
            rintro added (rfl | ⟨rows, rfl, within⟩)
            · exact .inl rfl
            · exact .inr ⟨room, _, rfl, req, config, v, accepts, rfl, within⟩
          refine adds_bind (adds_perform config v) (fun added met => ⟨cautious added met.1, nofun⟩) ?_
          intro reply added met
          have held : h.Cautious (added ++ []) := by simpa using cautious added met.1
          refine adds_done ⟨held, nofun⟩ ⟨held, ?_⟩
          rintro _ h' same
          cases same
          rw [List.append_nil]
          exact ⟨.performed accepts (met.2 reply rfl), .inr ⟨spent _ configured, room⟩⟩

/-! The whole run of a provider. -/

/-- Everything in the log is permitted, and there is no more of it than there
were calls left. -/
def DatabaseHost.Confines (h : DatabaseHost) (log : List (Effect Bound UInt64)) : Prop :=
  (∀ effect ∈ log, h.Permits effect) ∧ log.length ≤ h.host.maxIoCalls - h.host.ioCallsMade

/-- What holds between two calls. -/
structure DatabaseHost.Kept (h : DatabaseHost) (s : ProviderRun) (log : List (Effect Bound UInt64)) : Prop where
  permitted : ∀ effect ∈ log, h.Permits effect
  accounts : h.Accounts s.answered log
  paid : ∃ calls, s.host = h.spent calls ∧ log.length ≤ calls ∧ calls ≤ h.host.maxIoCalls - h.host.ioCallsMade

namespace DatabaseHost
variable {h : DatabaseHost}

theorem Kept.confines {s : ProviderRun} {log : List (Effect Bound UInt64)} (kept : h.Kept s log) : h.Confines log := by
  obtain ⟨calls, -, paid, left⟩ := kept.paid
  exact ⟨kept.permitted, paid.trans left⟩

theorem Accounts.concat {answered : List (DatabaseRequest × Except String QueryResult)}
    {call : DatabaseRequest × Except String QueryResult} {log added : List (Effect Bound UInt64)}
    (accounts : h.Accounts answered log) (settles : h.Settles call added) :
    h.Accounts (answered ++ [call]) (log ++ added) := by
  obtain ⟨parts, settled, rfl⟩ := accounts
  refine ⟨parts ++ [added], ?_, by simp⟩
  exact List.rel_append settled (.cons settles .nil)

theorem Confines.append {s : ProviderRun} {log added : List (Effect Bound UInt64)} (kept : h.Kept s log)
    (cautious : s.host.Cautious added) : h.Confines (log ++ added) := by
  obtain ⟨calls, host, paid, left⟩ := kept.paid
  rcases cautious with rfl | ⟨room, effect, rfl, permitted⟩
  · rw [List.append_nil]
    exact kept.confines
  · rw [host] at room permitted
    have count : (h.spent calls).host.ioCallsMade = h.host.ioCallsMade + calls := rfl
    have limit : (h.spent calls).host.maxIoCalls = h.host.maxIoCalls := rfl
    refine ⟨?_, ?_⟩
    · intro other member
      rcases List.mem_append.mp member with old | new
      · exact kept.permitted other old
      · rw [List.mem_singleton.mp new]
        exact permitted
    · rw [List.length_append, List.length_singleton]
      omega

theorem Settles.of_spent {calls : Nat} {call : DatabaseRequest × Except String QueryResult}
    {added : List (Effect Bound UInt64)} (settles : (h.spent calls).Settles call added) : h.Settles call added := by
  cases settles with
  | refused => exact .refused
  | performed accepts replied => exact .performed accepts replied

/-- What one answer keeps. -/
theorem adds_answer (req : DatabaseRequest) (s : ProviderRun) (log : List (Effect Bound UInt64)) (kept : h.Kept s log) :
    Adds none (answer req s) fun result later =>
      h.Confines (log ++ later) ∧ ∀ reply s', result = some (reply, s') → h.Kept s' (log ++ later) := by
  refine adds_bind (adds_executeQuery s.host req) (fun added met => ⟨.append kept met.1, nofun⟩) ?_
  rintro ⟨reply, host⟩ added ⟨cautious, answered⟩
  obtain ⟨settles, spends⟩ := answered reply host rfl
  obtain ⟨calls, known, paid, left⟩ := kept.paid
  have confined : h.Confines (log ++ added) := .append kept cautious
  have next : h.Kept ⟨host, s.answered ++ [(req, reply)]⟩ (log ++ added) := by
    refine ⟨confined.1, kept.accounts.concat ?_, ?_⟩
    · rw [known] at settles
      exact settles.of_spent
    · rcases spends with ⟨same, rfl⟩ | ⟨same, room⟩
      · rw [List.append_nil]
        exact ⟨calls, same.trans known, paid, left⟩
      · have count : s.host.host.ioCallsMade = h.host.ioCallsMade + calls := by rw [known]; rfl
        have limit : s.host.host.maxIoCalls = h.host.maxIoCalls := by rw [known]; rfl
        refine ⟨calls + 1, ?_, ?_, by omega⟩
        · rw [same, known]
          rfl
        · have grown : added.length ≤ 1 := by
            rcases cautious with rfl | ⟨-, effect, rfl, -⟩ <;> simp
          rw [List.length_append]
          omega
  refine adds_done ?_ ?_
  · rw [List.append_nil]
    exact ⟨confined, nofun⟩
  · rw [List.append_nil]
    refine ⟨confined, ?_⟩
    rintro _ s' same
    cases same
    exact next

/-- Whatever a provider asks for, and whatever the database makes of it: at
every point of the run all that has taken effect is a statement that the rules
accepted, within its limit, and paid for from the budget. When the run is over,
what has taken effect is what the provider was told call by call, no
transaction is open, and only a lost reply leaves the provider in doubt. -/
theorem provider_run_accounted {α : Type} (h : DatabaseHost) (provider : Provider α) :
    Ensures (provider.handle answer ⟨h, []⟩) fun events result => ∀ t, Serving ⟨[], none⟩ events t →
      h.Confines t.log ∧ ∀ a s, result = some (a, s) → t.pending = none ∧ h.Accounts s.answered t.log ∧
        ∃ calls, s.host = h.spent calls ∧ t.log.length ≤ calls ∧ calls ≤ h.host.maxIoCalls - h.host.ioCallsMade := by
  have start : h.Kept ⟨h, []⟩ [] := ⟨nofun, ⟨[], .nil, rfl⟩, 0, rfl, le_rfl, Nat.zero_le _⟩
  have run := adds_handle (fun s log kept => kept.confines) (fun req s log kept => adds_answer req s log kept)
    provider ⟨h, []⟩ [] start
  refine (run []).weaken fun events result met t served => ?_
  obtain ⟨added, logged, ⟨confined, kept⟩, closed⟩ := met t served
  rw [List.nil_append] at logged confined
  rw [logged]
  refine ⟨confined, ?_⟩
  rintro a s rfl
  have over_ : h.Kept s added := kept a s rfl
  exact ⟨closed rfl, over_.accounts, over_.paid⟩

end DatabaseHost

end Latchgate.Database
