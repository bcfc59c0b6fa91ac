import Latchgate.Approval.Store
import Mathlib.Data.List.AList

namespace Latchgate

inductive BudgetError where
  | exhausted (reason : String)
  | alreadyInitialised (sessionId : String)
  | sessionNotFound (sessionId : String)
  | unavailable (message : String)
  deriving DecidableEq

def BudgetError.display : BudgetError → String
  | exhausted reason => "budget exhausted: " ++ reason
  | alreadyInitialised sessionId => "budget already initialised: " ++ sessionId
  | sessionNotFound sessionId => "session budget not initialised: " ++ sessionId
  | unavailable message => "budget store unavailable: " ++ message

structure SqliteBudget where
  callsRemaining : Int
  createdAt : String
  expiresAtUnix : Int

/-- A key that was made by an increment alone has no expiry. -/
structure RedisBudget where
  callsRemaining : Int
  expireAtMillis : Option Int

inductive BudgetBackend where
  | inMemory (map : AList fun _ : String => Int)
  | sqlite (db : AList fun _ : String => SqliteBudget)
  | redis (db : AList fun _ : String => RedisBudget)

def maxI64 : Int := 9223372036854775807

/-- The cast of the allowance to a signed number. -/
def asI64 (calls : UInt64) : Int :=
  calls.toBitVec.toInt

theorem asI64_of_le {calls : UInt64} (small : (calls.toNat : Int) ≤ maxI64) : asI64 calls = calls.toNat := by
  refine BitVec.toInt_eq_toNat_of_lt ?_
  have toNat : calls.toBitVec.toNat = calls.toNat := rfl
  unfold maxI64 at small
  omega

namespace BudgetBackend

def findRedis (db : AList fun _ : String => RedisBudget) (sessionId : String) (now : Clock) : Option RedisBudget :=
  (db.lookup sessionId).filter fun entry => match entry.expireAtMillis with
    | some expireAt => now.redisMillis ≤ expireAt
    | none => true

def initBudgets (b : BudgetBackend) (sessionId : String) (calls : UInt64) (ttlSecs : Nat) (now : Clock) :
    BudgetBackend × Except BudgetError Unit :=
  match b with
  | inMemory map =>
    match map.lookup sessionId with
    | some _ => (b, .error (.alreadyInitialised sessionId))
    | none => (inMemory (map.insert sessionId (asI64 calls)), .ok ())
  | sqlite db =>
    match db.lookup sessionId with
    | some _ => (b, .error (.alreadyInitialised sessionId))
    | none =>
      (sqlite (db.insert sessionId ⟨asI64 calls, now.utc.rfc3339, now.utc.timestamp + ttlSecs⟩), .ok ())
  | redis db =>
    match findRedis db sessionId now with
    | some _ => (b, .error (.alreadyInitialised sessionId))
    | none =>
      (redis (db.insert sessionId ⟨asI64 calls, some (now.redisMillis + (max ttlSecs 1 : Nat) * 1000)⟩), .ok ())

/-- The counter that a request reads, or nothing when the session is not there
or has expired. -/
def current (b : BudgetBackend) (sessionId : String) (now : Clock) : Option Int :=
  match b with
  | inMemory map => map.lookup sessionId
  | sqlite db =>
    ((db.lookup sessionId).filter fun row => now.utc.timestamp < row.expiresAtUnix).map SqliteBudget.callsRemaining
  | redis db => (findRedis db sessionId now).map RedisBudget.callsRemaining

/-- The counter of a session is changed in place; its expiry stays. -/
def setCalls (b : BudgetBackend) (sessionId : String) (calls : Int) : BudgetBackend :=
  match b with
  | inMemory map => inMemory (map.insert sessionId calls)
  | sqlite db => match db.lookup sessionId with
    | some row => sqlite (db.insert sessionId { row with callsRemaining := calls })
    | none => b
  | redis db =>
    redis (db.insert sessionId ⟨calls, (db.lookup sessionId).bind RedisBudget.expireAtMillis⟩)

def getSnapshot (b : BudgetBackend) (sessionId : String) (now : Clock) : Except BudgetError Int :=
  match b.current sessionId now with
  | some calls => .ok calls
  | none => .error (.sessionNotFound sessionId)

def getAndDebit (b : BudgetBackend) (sessionId : String) (now : Clock) :
    BudgetBackend × Except BudgetError Int :=
  match b.current sessionId now with
  | none => (b, .error (.sessionNotFound sessionId))
  | some calls =>
    if calls ≤ 0 then (b, .error (.exhausted "calls_exhausted"))
    else (b.setCalls sessionId (calls - 1), .ok (calls - 1))

/-- The compensation does not look at the expiry in SQLite, and in Redis it
makes the key anew when it is gone. -/
def rollback (b : BudgetBackend) (sessionId : String) (now : Clock) : BudgetBackend :=
  match b with
  | inMemory map => match map.lookup sessionId with
    | some calls => inMemory (map.insert sessionId (calls + 1))
    | none => b
  | sqlite db => match db.lookup sessionId with
    | some row => sqlite (db.insert sessionId { row with callsRemaining := row.callsRemaining + 1 })
    | none => b
  | redis db => match findRedis db sessionId now with
    | some entry => redis (db.insert sessionId { entry with callsRemaining := entry.callsRemaining + 1 })
    | none => redis (db.insert sessionId ⟨1, none⟩)

variable {b : BudgetBackend} {sid : String} {c : Int} {t : Clock}

theorem current_setCalls_self (live : b.current sid t = some c) (n : Int) :
    (b.setCalls sid n).current sid t = some n := by
  cases b with
  | inMemory map => simp [setCalls, current]
  | sqlite db =>
    cases stored : db.lookup sid with
    | none => simp [current, stored] at live
    | some row =>
      simp only [current, stored, Option.filter_some] at live
      split_ifs at live with fresh
      · simp only [setCalls, stored, current, AList.lookup_insert, Option.filter_some]
        rw [if_pos fresh]
        rfl
      · cases live
  | redis db =>
    cases stored : db.lookup sid with
    | none => simp [current, findRedis, stored] at live
    | some entry =>
      obtain ⟨calls, expireAt⟩ := entry
      simp only [current, findRedis, stored, Option.filter_some] at live
      simp only [setCalls, stored, current, findRedis, AList.lookup_insert, Option.filter_some, Option.bind_some]
      split_ifs at live with fresh
      · rw [if_pos fresh]
        rfl
      · cases live

theorem current_setCalls_other {other : String} (differs : sid ≠ other) (n : Int) :
    (b.setCalls other n).current sid t = b.current sid t := by
  cases b with
  | inMemory map => simp [setCalls, current, AList.lookup_insert_ne differs]
  | sqlite db =>
    cases stored : db.lookup other with
    | none => simp [setCalls, stored]
    | some row => simp [setCalls, stored, current, AList.lookup_insert_ne differs]
  | redis db => simp [setCalls, current, findRedis, AList.lookup_insert_ne differs]

/-- A compensation within the lifetime of the session adds one. -/
theorem rollback_eq {now : Clock} (live : b.current sid now = some c) : b.rollback sid now = b.setCalls sid (c + 1) := by
  cases b with
  | inMemory map =>
    have stored : map.lookup sid = some c := live
    simp [rollback, setCalls, stored]
  | sqlite db =>
    cases stored : db.lookup sid with
    | none => simp [current, stored] at live
    | some row =>
      simp only [current, stored, Option.filter_some] at live
      split_ifs at live
      · cases live
        simp [rollback, setCalls, stored]
      · cases live
  | redis db =>
    cases found : findRedis db sid now with
    | none => simp [current, found] at live
    | some entry =>
      have stored : db.lookup sid = some entry := (Option.filter_eq_some_iff.mp found).1
      have same : entry.callsRemaining = c := by simpa [current, found] using live
      simp [rollback, setCalls, found, stored, same]

theorem current_rollback_other {other : String} {now : Clock} (differs : sid ≠ other) :
    (b.rollback other now).current sid t = b.current sid t := by
  cases b with
  | inMemory map =>
    cases stored : map.lookup other with
    | none => simp [rollback, stored]
    | some calls => simp [rollback, stored, current, AList.lookup_insert_ne differs]
  | sqlite db =>
    cases stored : db.lookup other with
    | none => simp [rollback, stored]
    | some row => simp [rollback, stored, current, AList.lookup_insert_ne differs]
  | redis db =>
    cases found : findRedis db other now with
    | none =>
      simp only [rollback, found, current]
      simp [findRedis, AList.lookup_insert_ne differs]
    | some entry =>
      simp only [rollback, found, current]
      simp [findRedis, AList.lookup_insert_ne differs]

theorem current_initBudgets {before : BudgetBackend} {calls : UInt64} {ttlSecs : Nat} {now : Clock}
    (initialised : before.initBudgets sid calls ttlSecs now = (b, .ok ())) (live : b.current sid t = some c) :
    c = asI64 calls := by
  cases before with
  | inMemory map =>
    simp only [initBudgets] at initialised
    split at initialised <;> cases initialised
    simpa [current] using live.symm
  | sqlite db =>
    simp only [initBudgets] at initialised
    split at initialised <;> cases initialised
    simp only [current, AList.lookup_insert, Option.filter_some] at live
    split_ifs at live
    · exact (Option.some.inj live).symm
    · cases live
  | redis db =>
    simp only [initBudgets] at initialised
    split at initialised <;> cases initialised
    simp only [current, findRedis, AList.lookup_insert, Option.filter_some] at live
    split_ifs at live
    · exact (Option.some.inj live).symm
    · cases live

end BudgetBackend
end Latchgate
