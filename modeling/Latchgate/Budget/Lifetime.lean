import Latchgate.Budget.Commands

namespace Latchgate
namespace BudgetStores
open BudgetBackend

/-- The two production backends, given the same commands. -/
structure Stores where
  sqlite : SqliteBudgets
  redis : RedisBudget.Server

structure Answers where
  sqlite : BudgetAnswer
  redis : BudgetAnswer

def machine (luaNumber : Int → Int) : Machine Stores BudgetCommand Answers where
  step s command :=
    let q := SqliteBudget.step s.sqlite command
    let r := RedisBudget.step luaNumber s.redis command
    (⟨q.1, r.1⟩, ⟨q.2, r.2⟩)

def start : Stores := ⟨∅, ∅, []⟩

abbrev History := List (BudgetCommand × Answers)

/-- A budget of the session was initialised, by both backends, so that it ends
at the given times. -/
def Initialised (past : History) (sessionId : String) (expiresAtUnix expireAtMillis : Int) : Prop :=
  ∃ entry ∈ past, ∃ request calls ttlSecs io next,
    entry.1 = .init request sessionId calls ttlSecs io (some next) ∧
    entry.2 = ⟨.done (.ok ()), .done (.ok ())⟩ ∧
    expiresAtUnix = io.clock.utc.timestamp + ttlSecs ∧
    expireAtMillis = next.clock.redisMillis + (max ttlSecs 1 : Nat) * 1000

/-- A debit that succeeds has an earlier init of its session that succeeded and
whose budget has not expired. -/
def Covered (past : History) (command : BudgetCommand) (answers : Answers) : Prop :=
  ∀ sessionId io, command = .getAndDebit sessionId io →
    (∀ calls, answers.sqlite = .snapshot (.ok calls) →
      ∃ expiry millis, Initialised past sessionId expiry millis ∧ io.clock.utc.timestamp < expiry) ∧
    (∀ calls, answers.redis = .snapshot (.ok calls) →
      ∃ expiry millis, Initialised past sessionId expiry millis ∧ io.clock.redisMillis ≤ millis)

/-- Both backends give the same answer, and they debit no budget that has
expired. -/
def Lawful (past : History) (command : BudgetCommand) (answers : Answers) : Prop :=
  answers.sqlite = answers.redis ∧ Covered past command answers

/-- Both backends take the session for live, or neither. -/
def AgreeOnLife (s : Stores) (sessionId : String) (now : Clock) : Prop :=
  (SqliteBudget.live s.sqlite sessionId now).isSome ↔ (findRedis s.redis.db sessionId now).isSome

instance (s : Stores) (sessionId : String) (now : Clock) : Decidable (AgreeOnLife s sessionId now) :=
  inferInstanceAs (Decidable (_ ↔ _))

/-- When a command goes well: an init makes the budget in one go and with an
allowance that is a signed number, or finds it in both backends; reads agree on
who is alive; the counter a debit leaves is one that a script can hand out; and
a rollback finds its key, below the largest counter. -/
def Guard (luaNumber : Int → Int) (s : Stores) : BudgetCommand → Prop
  | .init _ sessionId calls _ io next => io.refuses ∨
      ((s.sqlite.lookup sessionId).isSome ↔ (findRedis s.redis.db sessionId io.clock).isSome) ∧
        ((s.sqlite.lookup sessionId).isSome ∨
          (calls.toNat : Int) ≤ maxI64 ∧ io.fault = none ∧ ∃ then', next = some then' ∧ then'.fault = none)
  | .expire _ _ => True
  | .getSnapshot sessionId io => io.refuses ∨ AgreeOnLife s sessionId io.clock
  | .getAndDebit sessionId io => io.refuses ∨ AgreeOnLife s sessionId io.clock ∧
      ∀ entry, findRedis s.redis.db sessionId io.clock = some entry →
        luaNumber (entry.callsRemaining - 1) = entry.callsRemaining - 1
  | .rollback sessionId io => io.refuses ∨
      ∃ entry, findRedis s.redis.db sessionId io.clock = some entry ∧ entry.callsRemaining < maxI64

/-- One budget as both backends hold it. -/
structure Aligned (past : History) (sessionId : String) (row : SqliteBudget) (entry : RedisBudget) : Prop where
  calls : entry.callsRemaining = row.callsRemaining
  nonneg : 0 ≤ row.callsRemaining
  bounded : row.callsRemaining ≤ maxI64
  initialised : ∃ millis, entry.expireAtMillis = some millis ∧ Initialised past sessionId row.expiresAtUnix millis

inductive Slot (past : History) (sessionId : String) : Option SqliteBudget → Option RedisBudget → Prop
  | absent : Slot past sessionId none none
  | present {row entry} (aligned : Aligned past sessionId row entry) : Slot past sessionId (some row) (some entry)

structure Consistent (past : History) (s : Stores) : Prop where
  expiring : s.redis.expiring = []
  slots : ∀ sessionId, Slot past sessionId (s.sqlite.lookup sessionId) (s.redis.db.lookup sessionId)

section Lemmas
variable {past later : History} {s : Stores} {sid other : String} {row : SqliteBudget} {entry : RedisBudget}

theorem Initialised.mono {expiry millis : Int} (initialised : Initialised past sid expiry millis)
    (more : past ⊆ later) : Initialised later sid expiry millis := by
  obtain ⟨witness, member, rest⟩ := initialised
  exact ⟨witness, more member, rest⟩

theorem Aligned.mono (aligned : Aligned past sid row entry) (more : past ⊆ later) :
    Aligned later sid row entry := by
  obtain ⟨millis, expires, initialised⟩ := aligned.initialised
  exact ⟨aligned.calls, aligned.nonneg, aligned.bounded, millis, expires, initialised.mono more⟩

/-- The counter moves in both backends; the expiry stays. -/
theorem Aligned.move (aligned : Aligned past sid row entry) {n : Int} (nonneg : 0 ≤ n) (bounded : n ≤ maxI64) :
    Aligned past sid { row with callsRemaining := n } { entry with callsRemaining := n } :=
  ⟨rfl, nonneg, bounded, aligned.initialised⟩

theorem Slot.mono {stored : Option SqliteBudget} {found : Option RedisBudget} (slot : Slot past sid stored found)
    (more : past ⊆ later) : Slot later sid stored found := by
  cases slot with
  | absent => exact .absent
  | present aligned => exact .present (aligned.mono more)

theorem Consistent.mono (consistent : Consistent past s) (more : past ⊆ later) : Consistent later s :=
  ⟨consistent.expiring, fun sid => (consistent.slots sid).mono more⟩

theorem Consistent.insert (consistent : Consistent past s) (more : past ⊆ later) (aligned : Aligned later sid row entry) :
    Consistent later ⟨s.sqlite.insert sid row, { s.redis with db := s.redis.db.insert sid entry }⟩ := by
  refine ⟨consistent.expiring, ?_⟩
  intro other
  by_cases same : other = sid
  · subst other
    rw [AList.lookup_insert, AList.lookup_insert]
    exact .present aligned
  · rw [AList.lookup_insert_ne same, AList.lookup_insert_ne same]
    exact (consistent.slots other).mono more

theorem findRedis_eq_some {db : RedisBudgets} {now : Clock} (found : findRedis db sid now = some entry) :
    db.lookup sid = some entry ∧ ∀ millis, entry.expireAtMillis = some millis → now.redisMillis ≤ millis := by
  obtain ⟨stored, fresh⟩ := Option.filter_eq_some_iff.mp found
  refine ⟨stored, ?_⟩
  intro millis expires
  simpa [expires] using fresh

theorem live_eq_some {db : SqliteBudgets} {now : Clock} :
    SqliteBudget.live db sid now = some row ↔ db.lookup sid = some row ∧ now.utc.timestamp < row.expiresAtUnix := by
  simp [SqliteBudget.live, Option.filter_eq_some_iff]

theorem Consistent.of_stored (consistent : Consistent past s) (stored : s.redis.db.lookup sid = some entry) :
    ∃ row, s.sqlite.lookup sid = some row ∧ Aligned past sid row entry := by
  have slot := consistent.slots sid
  rw [stored] at slot
  generalize found : s.sqlite.lookup sid = row at slot
  cases slot with
  | present aligned => exact ⟨_, rfl, aligned⟩

/-- Where the backends agree on who is alive, a session is gone for both or
there for both, with one counter. -/
theorem AgreeOnLife.cases (consistent : Consistent past s) {now : Clock} (agree : AgreeOnLife s sid now) :
    (SqliteBudget.live s.sqlite sid now = none ∧ findRedis s.redis.db sid now = none) ∨
      ∃ row entry, SqliteBudget.live s.sqlite sid now = some row ∧ findRedis s.redis.db sid now = some entry ∧
        Aligned past sid row entry := by
  unfold AgreeOnLife at agree
  cases found : findRedis s.redis.db sid now with
  | none =>
    refine .inl ⟨?_, rfl⟩
    simpa [found] using agree
  | some entry =>
    rw [found] at agree
    obtain ⟨live, alive⟩ := Option.isSome_iff_exists.mp (agree.2 rfl)
    obtain ⟨row, stored, aligned⟩ := consistent.of_stored (findRedis_eq_some found).1
    obtain rfl : live = row := Option.some.inj ((live_eq_some.1 alive).1.symm.trans stored)
    exact .inr ⟨live, entry, alive, rfl, aligned⟩

/-- The stores after a command outside an init, and its two results. -/
def Matched (past : History) (s : Stores) {α : Type} (q : SqliteBudgets × Except BudgetError α)
    (r : RedisBudgets × Except BudgetError α) : Prop :=
  Consistent past ⟨q.1, { s.redis with db := r.1 }⟩ ∧ q.2 = r.2

/-- A connection that fails does so for both backends alike. -/
theorem Matched.hear {α : Type} {q : SqliteBudgets × Except BudgetError α} {r : RedisBudgets × Except BudgetError α}
    (consistent : Consistent past s) (io : StoreIo) (matched : io.refuses ∨ Matched past s q r) :
    Matched past s (io.hear s.sqlite q) (io.hear s.redis.db r) := by
  unfold StoreIo.hear
  cases fault : io.fault with
  | none =>
    rcases matched with ⟨message, refused⟩ | matched
    · rw [fault] at refused
      cases refused
    · exact matched
  | some kind =>
    cases kind with
    | refused message => exact ⟨consistent, rfl⟩
    | answerLost message =>
      rcases matched with ⟨other, refused⟩ | matched
      · rw [fault] at refused
        cases refused
      · exact ⟨matched.1, rfl⟩

theorem hear_eq_ok {σ α : Type} {io : StoreIo} {before : σ} {outcome : σ × Except BudgetError α} {a : α}
    (ok : (io.hear before outcome).2 = .ok a) : ¬io.refuses ∧ outcome.2 = .ok a := by
  unfold StoreIo.hear StoreIo.refuses at *
  cases fault : io.fault with
  | none => exact ⟨by simp, by simpa [fault] using ok⟩
  | some kind => cases kind <;> simp [fault] at ok

theorem readCalls_eq {n : Int} (bounded : n ≤ maxI64) : SqliteBudget.readCalls n = .ok n :=
  if_pos bounded

theorem matched_getSnapshot (consistent : Consistent past s) {now : Clock} (agree : AgreeOnLife s sid now) :
    Matched past s (s.sqlite, SqliteBudget.getSnapshot s.sqlite sid now)
      (s.redis.db, RedisBudget.getSnapshot s.redis.db sid now) := by
  refine ⟨consistent, ?_⟩
  unfold SqliteBudget.getSnapshot RedisBudget.getSnapshot
  rcases agree.cases consistent with ⟨gone, absent⟩ | ⟨row, entry, alive, found, aligned⟩
  · rw [gone, absent]
  · rw [alive, found]
    dsimp only
    rw [readCalls_eq aligned.bounded, aligned.calls]

theorem hincrby_eq {db : RedisBudgets} {now : Clock} {delta : Int} (found : findRedis db sid now = some entry)
    (low : -maxI64 - 1 ≤ entry.callsRemaining + delta) (high : entry.callsRemaining + delta ≤ maxI64) :
    RedisBudget.hincrby db sid delta now =
      (db.insert sid { entry with callsRemaining := entry.callsRemaining + delta },
        .ok (entry.callsRemaining + delta)) := by
  unfold RedisBudget.hincrby
  rw [found]
  exact if_pos ⟨low, high⟩

/-- A debit takes one from both, or is refused by both; one that succeeds finds
a budget that was initialised and has not expired. -/
theorem matched_getAndDebit {luaNumber : Int → Int} (consistent : Consistent past s) {now : Clock}
    (agree : AgreeOnLife s sid now)
    (exact' : ∀ entry, findRedis s.redis.db sid now = some entry →
      luaNumber (entry.callsRemaining - 1) = entry.callsRemaining - 1) :
    Matched past s (SqliteBudget.getAndDebit s.sqlite sid now) (RedisBudget.luaDebit luaNumber s.redis.db sid now) ∧
      ∀ calls, (RedisBudget.luaDebit luaNumber s.redis.db sid now).2 = .ok calls →
        ∃ expiry millis, Initialised past sid expiry millis ∧ now.utc.timestamp < expiry ∧
          now.redisMillis ≤ millis := by
  unfold SqliteBudget.getAndDebit RedisBudget.luaDebit
  rcases agree.cases consistent with ⟨gone, absent⟩ | ⟨row, entry, alive, found, aligned⟩
  · rw [gone, absent]
    refine ⟨⟨consistent, rfl⟩, ?_⟩
    intro calls ok
    cases ok
  · have nonneg := aligned.nonneg
    have bounded := aligned.bounded
    have same := aligned.calls
    rw [alive, found]
    dsimp only
    by_cases left : 0 < row.callsRemaining
    · have low : -maxI64 - 1 ≤ entry.callsRemaining + -1 := by unfold maxI64; omega
      have high : entry.callsRemaining + -1 ≤ maxI64 := by omega
      have minus : SqliteBudget.minusOne row.callsRemaining = entry.callsRemaining + -1 := by
        unfold SqliteBudget.minusOne
        rw [if_pos bounded, same]
        rfl
      rw [if_pos left, if_neg (by omega), hincrby_eq found low high, minus, readCalls_eq high]
      refine ⟨⟨consistent.insert (fun _ member => member) (aligned.move (by omega) high), ?_⟩, ?_⟩
      · exact congrArg Except.ok (exact' entry found).symm
      · intro calls ok
        obtain ⟨millis, expires, initialised⟩ := aligned.initialised
        exact ⟨_, millis, initialised, (live_eq_some.1 alive).2, (findRedis_eq_some found).2 millis expires⟩
    · rw [if_neg left, if_pos (by omega)]
      refine ⟨⟨consistent, rfl⟩, ?_⟩
      intro calls ok
      cases ok

theorem matched_rollback (consistent : Consistent past s) {now : Clock}
    (found : findRedis s.redis.db sid now = some entry) (room : entry.callsRemaining < maxI64) :
    Matched past s (SqliteBudget.rollback s.sqlite sid) (RedisBudget.rollback s.redis.db sid now) := by
  obtain ⟨row, stored, aligned⟩ := consistent.of_stored (findRedis_eq_some found).1
  have nonneg := aligned.nonneg
  have same := aligned.calls
  have low : -maxI64 - 1 ≤ entry.callsRemaining + 1 := by unfold maxI64; omega
  have high : entry.callsRemaining + 1 ≤ maxI64 := by omega
  have plus : SqliteBudget.plusOne row.callsRemaining = entry.callsRemaining + 1 := by
    unfold SqliteBudget.plusOne
    omega
  unfold SqliteBudget.rollback RedisBudget.rollback
  rw [stored, hincrby_eq found low high]
  dsimp only
  rw [plus]
  exact ⟨consistent.insert (fun _ member => member) (aligned.move (by omega) high), rfl⟩

/-- What a step of both backends comes to. -/
structure Sound (past : History) (command : BudgetCommand) (outcome : Stores × Answers) : Prop where
  consistent : Consistent (past ++ [(command, outcome.2)]) outcome.1
  alike : outcome.2.sqlite = outcome.2.redis
  covered : Covered past command outcome.2

/-- A command that makes no budget and debits none. -/
theorem Sound.of_consistent {command : BudgetCommand} {stores : Stores} {answer : BudgetAnswer}
    (consistent : Consistent past stores) (other : ∀ sid io, command ≠ .getAndDebit sid io) :
    Sound past command (stores, ⟨answer, answer⟩) :=
  ⟨consistent.mono (List.subset_append_left _ _), rfl, fun sid io same => absurd same (other sid io)⟩

theorem expire_hsetnx {db : RedisBudgets} (calls : Int) (ttlSecs : Nat) (now : Clock) :
    RedisBudget.expire (db.insert sid ⟨calls, none⟩) sid ttlSecs now =
      db.insert sid ⟨calls, some (now.redisMillis + (ttlSecs : Int) * 1000)⟩ := by
  have found : findRedis (db.insert sid ⟨calls, none⟩) sid now = some ⟨calls, none⟩ := by
    unfold findRedis
    rw [AList.lookup_insert]
    rfl
  unfold RedisBudget.expire
  rw [found]
  exact AList.insert_insert db

/-- An init that finds a budget in both backends changes nothing. -/
theorem step_init_found {luaNumber : Int → Int} {request ttlSecs : Nat} {calls : UInt64} {io : StoreIo}
    {next : Option StoreIo} (consistent : Consistent past s) (stored : s.sqlite.lookup sid = some row)
    (found : findRedis s.redis.db sid io.clock = some entry) :
    Sound past (.init request sid calls ttlSecs io next)
      ((machine luaNumber).step s (.init request sid calls ttlSecs io next)) := by
  have sqlite : SqliteBudget.init s.sqlite sid calls ttlSecs io.clock = (s.sqlite, .error (.alreadyInitialised sid)) := by
    simp [SqliteBudget.init, stored]
  have redis : RedisBudget.hsetnx s.redis.db sid (asI64 calls) io.clock = (s.redis.db, false) := by
    simp [RedisBudget.hsetnx, found]
  have other : ∀ id io', BudgetCommand.init request sid calls ttlSecs io next ≠ .getAndDebit id io' := by
    intro id io' same
    cases same
  simp only [machine, SqliteBudget.step, RedisBudget.step, StoreIo.hear, sqlite, redis]
  cases io.fault with
  | none => exact .of_consistent consistent other
  | some kind => cases kind <;> exact .of_consistent consistent other

/-- An init that finds none, and whose commands both go through at once, makes
the same budget in both. -/
theorem step_init_fresh {luaNumber : Int → Int} {request ttlSecs : Nat} {calls : UInt64} {io next : StoreIo}
    (consistent : Consistent past s) (absent : s.sqlite.lookup sid = none)
    (gone : findRedis s.redis.db sid io.clock = none) (small : (calls.toNat : Int) ≤ maxI64)
    (heard : io.fault = none) (expired : next.fault = none) :
    Sound past (.init request sid calls ttlSecs io (some next))
      ((machine luaNumber).step s (.init request sid calls ttlSecs io (some next))) := by
  have sqlite : SqliteBudget.init s.sqlite sid calls ttlSecs io.clock =
      (s.sqlite.insert sid ⟨asI64 calls, io.clock.utc.rfc3339, io.clock.utc.timestamp + ttlSecs⟩, .ok ()) := by
    simp [SqliteBudget.init, absent]
  have redis : RedisBudget.hsetnx s.redis.db sid (asI64 calls) io.clock =
      (s.redis.db.insert sid ⟨asI64 calls, none⟩, true) := by
    simp [RedisBudget.hsetnx, gone]
  simp only [machine, SqliteBudget.step, RedisBudget.step, RedisBudget.sendExpire, StoreIo.hear, sqlite, redis, heard,
    expired, expire_hsetnx]
  refine ⟨consistent.insert (List.subset_append_left _ _) ⟨rfl, ?_, ?_, _, rfl, ?_⟩, rfl, ?_⟩
  · simp [asI64_of_le small]
  · rw [asI64_of_le small]
    exact small
  · exact ⟨_, List.mem_append_right _ (List.mem_singleton_self _), request, calls, ttlSecs, io, next, rfl, rfl, rfl, rfl⟩
  · intro id io' same
    cases same

theorem step_init_refused {luaNumber : Int → Int} {request ttlSecs : Nat} {calls : UInt64} {io : StoreIo}
    {next : Option StoreIo} (consistent : Consistent past s) (refused : io.refuses) :
    Sound past (.init request sid calls ttlSecs io next)
      ((machine luaNumber).step s (.init request sid calls ttlSecs io next)) := by
  obtain ⟨message, fault⟩ := refused
  simp only [machine, SqliteBudget.step, RedisBudget.step, StoreIo.hear, fault]
  refine .of_consistent consistent ?_
  intro id io' same
  cases same

/-- The answers of a debit that succeeded are backed by a live budget. -/
theorem step_getAndDebit {luaNumber : Int → Int} {io : StoreIo} (consistent : Consistent past s)
    (guard : Guard luaNumber s (.getAndDebit sid io)) :
    Sound past (.getAndDebit sid io) ((machine luaNumber).step s (.getAndDebit sid io)) := by
  have matched := Matched.hear consistent io
    (guard.imp_right fun good => (matched_getAndDebit consistent good.1 good.2).1)
  have backed : ∀ calls,
      (io.hear s.redis.db (RedisBudget.luaDebit luaNumber s.redis.db sid io.clock)).2 = .ok calls →
        ∃ expiry millis, Initialised past sid expiry millis ∧ io.clock.utc.timestamp < expiry ∧
          io.clock.redisMillis ≤ millis := by
    intro calls ok
    obtain ⟨heard, result⟩ := hear_eq_ok ok
    have good := guard.resolve_left heard
    exact (matched_getAndDebit consistent good.1 good.2).2 calls result
  refine ⟨matched.1.mono (List.subset_append_left _ _), congrArg BudgetAnswer.snapshot matched.2, ?_⟩
  intro id io' same
  cases same
  constructor
  · intro calls answer
    have ok : (io.hear s.sqlite (SqliteBudget.getAndDebit s.sqlite sid io.clock)).2 = .ok calls := by
      injection answer
    obtain ⟨expiry, millis, initialised, before, -⟩ := backed calls (matched.2.symm.trans ok)
    exact ⟨expiry, millis, initialised, before⟩
  · intro calls answer
    have ok : (io.hear s.redis.db (RedisBudget.luaDebit luaNumber s.redis.db sid io.clock)).2 = .ok calls := by
      injection answer
    obtain ⟨expiry, millis, initialised, -, before⟩ := backed calls ok
    exact ⟨expiry, millis, initialised, before⟩

theorem step_sound {luaNumber : Int → Int} {command : BudgetCommand} (consistent : Consistent past s)
    (guard : Guard luaNumber s command) : Sound past command ((machine luaNumber).step s command) := by
  have kept : past ⊆ past ++ [(command, ((machine luaNumber).step s command).2)] := List.subset_append_left _ _
  cases command with
  | init request sid calls ttlSecs io next =>
    rcases guard with refused | ⟨agree, either⟩
    · exact step_init_refused consistent refused
    · cases stored : s.sqlite.lookup sid with
      | some row =>
        rw [stored] at agree
        obtain ⟨entry, found⟩ := Option.isSome_iff_exists.mp (agree.1 rfl)
        exact step_init_found consistent stored found
      | none =>
        rw [stored] at agree either
        obtain ⟨small, heard, after, rfl, expired⟩ := either.resolve_left (by simp)
        have gone : findRedis s.redis.db sid io.clock = none := by simpa using agree
        exact step_init_fresh consistent stored gone small heard expired
  | expire request io =>
    have none' : (machine luaNumber).step s (.expire request io) = (s, ⟨.waiting, .waiting⟩) := by
      simp [machine, SqliteBudget.step, RedisBudget.step, consistent.expiring]
    rw [none']
    refine .of_consistent consistent ?_
    intro id io' same
    cases same
  | getSnapshot sid io =>
    have matched := Matched.hear consistent io (guard.imp_right fun agree => matched_getSnapshot consistent agree)
    refine ⟨matched.1.mono kept, congrArg BudgetAnswer.snapshot matched.2, ?_⟩
    intro id io' same
    cases same
  | getAndDebit sid io => exact step_getAndDebit consistent guard
  | rollback sid io =>
    have matched := Matched.hear consistent io
      (guard.imp_right fun ⟨entry, found, room⟩ => matched_rollback consistent found room)
    refine ⟨matched.1.mono kept, congrArg BudgetAnswer.done matched.2, ?_⟩
    intro id io' same
    cases same

end Lemmas

/-- In every run from empty backends whose commands go well, no counter is
negative, every key has an expiry, both backends give the same answers, and a
debit succeeds only on a budget that was initialised and has not expired. -/
theorem budgets_lapse (luaNumber : Int → Int) (commands : List BudgetCommand)
    (meets : (machine luaNumber).Meets (Guard luaNumber) start commands) :
    (∀ sid row, ((machine luaNumber).run start commands).sqlite.lookup sid = some row → 0 ≤ row.callsRemaining) ∧
    (∀ sid entry, ((machine luaNumber).run start commands).redis.db.lookup sid = some entry →
      0 ≤ entry.callsRemaining ∧ entry.expireAtMillis ≠ none) ∧
    ∀ before entry after, (machine luaNumber).trace start commands = before ++ entry :: after →
      Lawful before entry.1 entry.2 := by
  have empty : Consistent [] start := ⟨rfl, fun _ => .absent⟩
  have preserved : ∀ past s command, Guard luaNumber s command → Consistent past s →
      Consistent (past ++ [(command, ((machine luaNumber).step s command).2)]) ((machine luaNumber).step s command).1 :=
    fun past s command guard consistent => (step_sound consistent guard).consistent
  have answered : ∀ past s command, Guard luaNumber s command → Consistent past s →
      Lawful past command ((machine luaNumber).step s command).2 :=
    fun past s command guard consistent =>
      ⟨(step_sound consistent guard).alike, (step_sound consistent guard).covered⟩
  have consistent := meets.trace_invariant empty preserved
  refine ⟨?_, ?_, fun before entry after split => meets.answers empty preserved answered split⟩
  · intro sid row stored
    have slot := consistent.slots sid
    rw [stored] at slot
    generalize ((machine luaNumber).run start commands).redis.db.lookup sid = found at slot
    cases slot with
    | present aligned => exact aligned.nonneg
  · intro sid entry stored
    obtain ⟨row, -, aligned⟩ := consistent.of_stored stored
    obtain ⟨millis, expires, -⟩ := aligned.initialised
    rw [aligned.calls, expires]
    exact ⟨aligned.nonneg, Option.some_ne_none millis⟩

def ioAt (seconds : Nat) : StoreIo :=
  { clock := .atSecond seconds "" }

/-- An init, a debit that is compensated in time, and a debit after the expiry. -/
def promptRun : List BudgetCommand :=
  [.init 0 "s" 1 60 (ioAt 0) (some (ioAt 0)), .getAndDebit "s" (ioAt 10), .rollback "s" (ioAt 20),
    .getAndDebit "s" (ioAt 100)]

theorem budgets_lapse_promptRun :
    (machine id).Meets (Guard id) start promptRun ∧
      ∀ before entry after, (machine id).trace start promptRun = before ++ entry :: after →
        Lawful before entry.1 entry.2 := by
  have meets : (machine id).Meets (Guard id) start promptRun := by
    refine ⟨.inr ⟨by decide, .inr ⟨by decide, rfl, ioAt 0, rfl, rfl⟩⟩, .inr ⟨by decide, fun _ _ => rfl⟩,
      .inr ⟨_, rfl, by decide⟩, .inr ⟨by decide, fun _ _ => rfl⟩, trivial⟩
  exact ⟨meets, (budgets_lapse id promptRun meets).2.2⟩

/-- The compensation of the debit arrives when the key has expired. -/
def lateRun : List BudgetCommand :=
  [.init 0 "s" 1 60 (ioAt 0) (some (ioAt 0)), .getAndDebit "s" (ioAt 10), .rollback "s" (ioAt 100)]

/-- What a lease without a number of calls passes on. -/
def unlimitedRun : List BudgetCommand :=
  [.init 0 "s" 18446744073709551615 60 (ioAt 0) (some (ioAt 0))]

theorem late_rollback_revives :
    ((machine id).run start lateRun).redis.db.lookup "s" = some ⟨1, none⟩ ∧
      ((machine id).step ((machine id).run start lateRun) (.getAndDebit "s" (ioAt 101))).2 =
        ⟨.snapshot (.error (.sessionNotFound "s")), .snapshot (.ok 0)⟩ ∧
      ((machine id).run start unlimitedRun).sqlite.lookup "s" = some ⟨-1, "", 60⟩ :=
  ⟨rfl, rfl, rfl⟩

end BudgetStores
end Latchgate
