import Latchgate.Budget.Manager

namespace Latchgate

abbrev SqliteBudgets := AList fun _ : String => SqliteBudget

abbrev RedisBudgets := AList fun _ : String => RedisBudget

/-- One command of a request. An init in Redis is two: its `EXPIRE` runs right
behind the `HSETNX` (`next`), or commands of others come first and it follows
under the number of its request, if the connection lasts. -/
inductive BudgetCommand where
  | init (request : Nat) (sessionId : String) (calls : UInt64) (ttlSecs : Nat) (io : StoreIo) (next : Option StoreIo)
  | expire (request : Nat) (io : StoreIo)
  | getSnapshot (sessionId : String) (io : StoreIo)
  | getAndDebit (sessionId : String) (io : StoreIo)
  | rollback (sessionId : String) (io : StoreIo)

inductive BudgetAnswer where
  | waiting
  | done (result : Except BudgetError Unit)
  | snapshot (result : Except BudgetError Int)

/-- What a request hears of a call on which its connection may fail. -/
def StoreIo.hear {σ α : Type} (io : StoreIo) (before : σ) (outcome : σ × Except BudgetError α) :
    σ × Except BudgetError α :=
  match io.fault with
  | none => outcome
  | some (.refused message) => (before, .error (.unavailable message))
  | some (.answerLost message) => (outcome.1, .error (.unavailable message))

def StoreIo.refuses (io : StoreIo) : Prop :=
  ∃ message, io.fault = some (.refused message)

namespace SqliteBudget

/-- In SQLite a sum that is no signed 64-bit number is a real, and one more or
one less does not move a real of this size. -/
def plusOne (calls : Int) : Int :=
  min (calls + 1) (maxI64 + 1)

def minusOne (calls : Int) : Int :=
  if calls ≤ maxI64 then calls - 1 else calls

/-- The column read as an `i64`. -/
def readCalls (calls : Int) : Except BudgetError Int :=
  if calls ≤ maxI64 then .ok calls
  else .error (.unavailable "Invalid column type Real at index: 0, name: calls_remaining")

def live (db : SqliteBudgets) (sessionId : String) (now : Clock) : Option SqliteBudget :=
  (db.lookup sessionId).filter fun row => now.utc.timestamp < row.expiresAtUnix

/-- `INSERT OR IGNORE`: a row that is there stays, also when it has expired. -/
def init (db : SqliteBudgets) (sessionId : String) (calls : UInt64) (ttlSecs : Nat) (now : Clock) :
    SqliteBudgets × Except BudgetError Unit :=
  match db.lookup sessionId with
  | some _ => (db, .error (.alreadyInitialised sessionId))
  | none => (db.insert sessionId ⟨asI64 calls, now.utc.rfc3339, now.utc.timestamp + ttlSecs⟩, .ok ())

def getSnapshot (db : SqliteBudgets) (sessionId : String) (now : Clock) : Except BudgetError Int :=
  match live db sessionId now with
  | some row => readCalls row.callsRemaining
  | none => .error (.sessionNotFound sessionId)

def getAndDebit (db : SqliteBudgets) (sessionId : String) (now : Clock) : SqliteBudgets × Except BudgetError Int :=
  match live db sessionId now with
  | some row =>
    if 0 < row.callsRemaining then
      (db.insert sessionId { row with callsRemaining := minusOne row.callsRemaining },
        readCalls (minusOne row.callsRemaining))
    else (db, .error (.exhausted "calls_exhausted"))
  | none => (db, .error (.sessionNotFound sessionId))

/-- The compensation does not look at the expiry. -/
def rollback (db : SqliteBudgets) (sessionId : String) : SqliteBudgets × Except BudgetError Unit :=
  match db.lookup sessionId with
  | some row => (db.insert sessionId { row with callsRemaining := plusOne row.callsRemaining }, .ok ())
  | none => (db, .ok ())

def step (db : SqliteBudgets) : BudgetCommand → SqliteBudgets × BudgetAnswer
  | .init _ sessionId calls ttlSecs io _ =>
    let (db, result) := io.hear db (init db sessionId calls ttlSecs io.clock)
    (db, .done result)
  | .expire _ _ => (db, .waiting)
  | .getSnapshot sessionId io =>
    let (db, result) := io.hear db (db, getSnapshot db sessionId io.clock)
    (db, .snapshot result)
  | .getAndDebit sessionId io =>
    let (db, result) := io.hear db (getAndDebit db sessionId io.clock)
    (db, .snapshot result)
  | .rollback sessionId io =>
    let (db, result) := io.hear db (rollback db sessionId)
    (db, .done result)

end SqliteBudget

namespace RedisBudget
open BudgetBackend

/-- `HSETNX` of the counter: whether the field was made. -/
def hsetnx (db : RedisBudgets) (sessionId : String) (calls : Int) (now : Clock) : RedisBudgets × Bool :=
  match findRedis db sessionId now with
  | some _ => (db, false)
  | none => (db.insert sessionId ⟨calls, none⟩, true)

def expire (db : RedisBudgets) (sessionId : String) (ttlSecs : Nat) (now : Clock) : RedisBudgets :=
  match findRedis db sessionId now with
  | some entry => db.insert sessionId { entry with expireAtMillis := some (now.redisMillis + (ttlSecs : Int) * 1000) }
  | none => db

/-- `HINCRBY`: a key that is gone is made anew, without an expiry. -/
def hincrby (db : RedisBudgets) (sessionId : String) (delta : Int) (now : Clock) :
    RedisBudgets × Except BudgetError Int :=
  match findRedis db sessionId now with
  | some entry =>
    if -maxI64 - 1 ≤ entry.callsRemaining + delta ∧ entry.callsRemaining + delta ≤ maxI64 then
      (db.insert sessionId { entry with callsRemaining := entry.callsRemaining + delta },
        .ok (entry.callsRemaining + delta))
    else (db, .error (.unavailable "increment or decrement would overflow"))
  | none => (db.insert sessionId ⟨delta, none⟩, .ok delta)

section Script
variable (luaNumber : Int → Int)

/-- `LUA_DEBIT`. An integer reply is a Lua number inside a script, so the new
counter comes back as `luaNumber` has it. -/
def luaDebit (db : RedisBudgets) (sessionId : String) (now : Clock) : RedisBudgets × Except BudgetError Int :=
  match findRedis db sessionId now with
  | none => (db, .error (.sessionNotFound sessionId))
  | some entry =>
    if entry.callsRemaining ≤ 0 then (db, .error (.exhausted "calls_exhausted"))
    else
      let (db, result) := hincrby db sessionId (-1) now
      (db, result.map luaNumber)

def getSnapshot (db : RedisBudgets) (sessionId : String) (now : Clock) : Except BudgetError Int :=
  match findRedis db sessionId now with
  | some entry => .ok entry.callsRemaining
  | none => .error (.sessionNotFound sessionId)

def rollback (db : RedisBudgets) (sessionId : String) (now : Clock) : RedisBudgets × Except BudgetError Unit :=
  let (db, result) := hincrby db sessionId 1 now
  (db, result.map fun _ => ())

/-- The second command of an init. -/
def sendExpire (db : RedisBudgets) (sessionId : String) (ttlSecs : Nat) (io : StoreIo) :
    RedisBudgets × BudgetAnswer :=
  let (db, result) := io.hear db (expire db sessionId (max ttlSecs 1) io.clock, .ok ())
  (db, .done result)

/-- The keys, and the inits that have still to send their `EXPIRE`. -/
structure Server where
  db : RedisBudgets
  expiring : List (Nat × String × Nat) := []

def step (s : Server) : BudgetCommand → Server × BudgetAnswer
  | .init request sessionId calls ttlSecs io next =>
    let (db, created) := hsetnx s.db sessionId (asI64 calls) io.clock
    match io.fault, created, next with
    | some (.refused message), _, _ => (s, .done (.error (.unavailable message)))
    | some (.answerLost message), _, _ => ({ s with db }, .done (.error (.unavailable message)))
    | none, false, _ => (s, .done (.error (.alreadyInitialised sessionId)))
    | none, true, none => ({ s with db, expiring := s.expiring ++ [(request, sessionId, ttlSecs)] }, .waiting)
    | none, true, some next =>
      let (db, answer) := sendExpire db sessionId ttlSecs next
      ({ s with db }, answer)
  | .expire request io =>
    match s.expiring.find? fun entry => entry.1 = request with
    | none => (s, .waiting)
    | some (_, sessionId, ttlSecs) =>
      let (db, answer) := sendExpire s.db sessionId ttlSecs io
      ({ db, expiring := s.expiring.filter fun entry => entry.1 ≠ request }, answer)
  | .getSnapshot sessionId io =>
    let (db, result) := io.hear s.db (s.db, getSnapshot s.db sessionId io.clock)
    ({ s with db }, .snapshot result)
  | .getAndDebit sessionId io =>
    let (db, result) := io.hear s.db (luaDebit luaNumber s.db sessionId io.clock)
    ({ s with db }, .snapshot result)
  | .rollback sessionId io =>
    let (db, result) := io.hear s.db (rollback s.db sessionId io.clock)
    ({ s with db }, .done result)

end Script
end RedisBudget
end Latchgate
