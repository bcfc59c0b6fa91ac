import Latchgate.Machine.Actor
import Mathlib.Algebra.Order.Ring.Nat
import Mathlib.Tactic.Ring

namespace Latchgate

/-! Token buckets. -/

def saturatingAdd (bits x y : Nat) : Nat :=
  min (x + y) (2 ^ bits - 1)

def saturatingMul (bits x y : Nat) : Nat :=
  min (x * y) (2 ^ bits - 1)

/-- Tokens are counted in hundredths. -/
structure TokenBucketRateLimiter where
  maxTokensX100 : UInt32
  refillPerSecX100 : UInt32

namespace TokenBucketRateLimiter

/-- The second of the last refill above, the tokens below. -/
def pack (lastRefillSecs tokensX100 : UInt32) : UInt64 :=
  (lastRefillSecs.toUInt64 <<< 32) ||| tokensX100.toUInt64

def unpack (packed : UInt64) : UInt32 × UInt32 :=
  ((packed >>> 32).toUInt32, packed.toUInt32)

/-- A limiter of a rate, and the state of a full bucket. -/
def new (rps now : UInt32) : TokenBucketRateLimiter × UInt64 :=
  let maxX100 := UInt32.ofNat (saturatingMul 32 rps.toNat 100)
  (⟨maxX100, maxX100⟩, pack now maxX100)

variable (limiter : TokenBucketRateLimiter)

/-- The tokens that a call finds which holds the reading `now`. The seconds
since the last refill wrap. -/
def refilled (now : UInt32) (current : UInt64) : UInt32 :=
  let (lastRefill, tokensX100) := unpack current
  let elapsed := now - lastRefill
  UInt32.ofNat (min (saturatingAdd 64 tokensX100.toNat (saturatingMul 64 elapsed.toNat limiter.refillPerSecX100.toNat))
    limiter.maxTokensX100.toNat)

/-- What a call wants to store, if it finds a token. -/
def desired (now : UInt32) (current : UInt64) : Option UInt64 :=
  if limiter.refilled now current < 100 then none else some (pack now (limiter.refilled now current - 100))

theorem toNat_pack (lastRefill tokens : UInt32) : (pack lastRefill tokens).toNat = lastRefill.toNat * 2 ^ 32 + tokens.toNat := by
  have high := lastRefill.toNat_lt
  have low := tokens.toNat_lt
  have shifted : lastRefill.toNat <<< 32 % 2 ^ 64 = lastRefill.toNat <<< 32 := by
    rw [Nat.shiftLeft_eq]
    omega
  simp only [pack, UInt64.toNat_or, UInt64.toNat_shiftLeft, UInt32.toNat_toUInt64]
  have amount : (32 : UInt64).toNat % 64 = 32 := rfl
  rw [amount, shifted, ← Nat.shiftLeft_add_eq_or_of_lt low, Nat.shiftLeft_eq]

theorem unpack_pack (lastRefill tokens : UInt32) : unpack (pack lastRefill tokens) = (lastRefill, tokens) := by
  have high := lastRefill.toNat_lt
  have low := tokens.toNat_lt
  have amount : (32 : UInt64).toNat % 64 = 32 := rfl
  refine Prod.ext ?_ ?_
  · apply UInt32.toNat_inj.mp
    simp only [unpack, UInt64.toNat_toUInt32, UInt64.toNat_shiftRight, toNat_pack, amount, Nat.shiftRight_eq_div_pow]
    omega
  · apply UInt32.toNat_inj.mp
    simp only [unpack, UInt64.toNat_toUInt32, toNat_pack]
    omega

/-- With a reading that is not older than the last refill, a call finds what is
left and what has come in since, up to the bucket. -/
theorem toNat_refilled (limiter : TokenBucketRateLimiter) {now lastRefill : UInt32} (tokens : UInt32)
    (later : lastRefill ≤ now) : (limiter.refilled now (pack lastRefill tokens)).toNat =
      min (tokens.toNat + (now.toNat - lastRefill.toNat) * limiter.refillPerSecX100.toNat) limiter.maxTokensX100.toNat := by
  have bound := limiter.maxTokensX100.toNat_lt
  have rate := limiter.refillPerSecX100.toNat_lt
  have elapsed : (now - lastRefill).toNat = now.toNat - lastRefill.toNat := UInt32.toNat_sub_of_le _ _ later
  have tokensBound := tokens.toNat_lt
  have nowBound := now.toNat_lt
  simp only [refilled, unpack_pack, elapsed, saturatingAdd, saturatingMul]
  have product : (now.toNat - lastRefill.toNat) * limiter.refillPerSecX100.toNat ≤ (2 ^ 32 - 1) * (2 ^ 32 - 1) :=
    Nat.mul_le_mul (by omega) (by omega)
  rw [Nat.min_eq_left (by omega : _ ≤ 2 ^ 64 - 1), Nat.min_eq_left (by omega : _ ≤ 2 ^ 64 - 1), UInt32.toNat_ofNat']
  omega

theorem maxTokens_new (rps now : UInt32) : (new rps now).1.maxTokensX100.toNat ≤ rps.toNat * 100 := by
  simp only [new, saturatingMul, UInt32.toNat_ofNat']
  omega

end TokenBucketRateLimiter

namespace RateLimit

/-- Where a call of `check` has come to. -/
inductive Call where
  | idle
  | reading (now : UInt32)
  | loaded (now : UInt32) (current : UInt64)
  deriving DecidableEq

/-- The clock moves on, or a call goes on. The exchange may fail for no
reason. -/
inductive CallStep where
  | tick (now : UInt32)
  | readClock
  | load
  | compareExchange (spurious : Bool)

/-- A call returns in a second of the clock. -/
inductive Answer where
  | nothing
  | returned (allowed : Bool) (second : UInt32)
  deriving DecidableEq

structure Shared where
  state : UInt64
  clock : UInt32
  deriving DecidableEq

/-- The clock never goes backwards. -/
def check (limiter : TokenBucketRateLimiter) (shared : Shared) (call : Call) (step : CallStep) :
    Shared × Call × Answer :=
  match step, call with
  | .tick now, _ => if shared.clock ≤ now then ({ shared with clock := now }, call, .nothing) else (shared, call, .nothing)
  | .readClock, .idle => (shared, .reading shared.clock, .nothing)
  | .load, .reading now =>
    match limiter.desired now shared.state with
    | none => (shared, .idle, .returned false shared.clock)
    | some _ => (shared, .loaded now shared.state, .nothing)
  | .compareExchange spurious, .loaded now current =>
    match limiter.desired now current with
    | none => (shared, .idle, .returned false shared.clock)
    | some next =>
      if spurious = false ∧ shared.state = current then ({ shared with state := next }, .idle, .returned true shared.clock)
      else (shared, .reading now, .nothing)
  | _, _ => (shared, call, .nothing)

def checks (limiter : TokenBucketRateLimiter) : Actor Shared Call CallStep Answer where
  act := check limiter

/-- A full bucket, and no call under way. -/
def start (rps now : UInt32) : Shared × (Nat → Call) :=
  (⟨(TokenBucketRateLimiter.new rps now).2, now⟩, fun _ => .idle)

/-- The calls that returned true with their exchange in the seconds from `a` to `b`. -/
def granted (a b : Nat) (past : List ((Nat × CallStep) × Answer)) : Nat :=
  past.countP fun entry => match entry.2 with
    | .returned true second => a ≤ second.toNat && second.toNat ≤ b
    | _ => false

/-- An exchange that succeeds is done in the second that its call has read. -/
def Fresh (s : Shared × (Nat → Call)) (e : Nat × CallStep) : Prop :=
  e.2 = .compareExchange false → ∀ now, s.2 e.1 = .loaded now s.1.state → now = s.1.clock

theorem granted_concat (a b : Nat) (past : List ((Nat × CallStep) × Answer)) (e : Nat × CallStep) (answer : Answer) :
    granted a b (past ++ [(e, answer)]) = granted a b past + granted a b [(e, answer)] :=
  List.countP_append

theorem granted_true (a b : Nat) (e : Nat × CallStep) (second : UInt32) :
    granted a b [(e, .returned true second)] = if a ≤ second.toNat ∧ second.toNat ≤ b then 1 else 0 := by
  simp [granted, List.countP_cons]

/-- The tokens that are there in a second: what is left and what has come in
since the last refill, up to the bucket. -/
def available (limiter : TokenBucketRateLimiter) (lastRefill tokens second : Nat) : Nat :=
  min (tokens + (second - lastRefill) * limiter.refillPerSecX100.toNat) limiter.maxTokensX100.toNat

/-- What has been granted since the second `a`, and what there still is to grant
up to `b`, is no more than a bucket for every second. -/
structure Bounded (limiter : TokenBucketRateLimiter) (a b : Nat) (past : List ((Nat × CallStep) × Answer))
    (shared : Shared) (lastRefill tokens : UInt32) : Prop where
  state : shared.state = TokenBucketRateLimiter.pack lastRefill tokens
  refilled : lastRefill ≤ shared.clock
  before : shared.clock.toNat < a → granted a b past = 0
  during : a ≤ shared.clock.toNat → shared.clock.toNat ≤ b →
    granted a b past * 100 + available limiter lastRefill.toNat tokens.toNat shared.clock.toNat ≤
      limiter.maxTokensX100.toNat * (shared.clock.toNat - a + 1)
  after : b < shared.clock.toNat → granted a b past * 100 ≤ limiter.maxTokensX100.toNat * (b - a + 1)

section Steps
variable {limiter : TokenBucketRateLimiter} {a b : Nat} {past : List ((Nat × CallStep) × Answer)} {shared : Shared}
  {lastRefill tokens : UInt32}

theorem available_le (lastRefill tokens second : Nat) :
    available limiter lastRefill tokens second ≤ limiter.maxTokensX100.toNat :=
  Nat.min_le_right _ _

/-- A second brings at most a bucket. -/
theorem available_tick (full : limiter.refillPerSecX100 = limiter.maxTokensX100) {lastRefill tokens second next : Nat}
    (since : lastRefill ≤ second) (later : second ≤ next) :
    available limiter lastRefill tokens next ≤
      available limiter lastRefill tokens second + limiter.maxTokensX100.toNat * (next - second) := by
  simp only [available, full]
  have split : next - lastRefill = (second - lastRefill) + (next - second) := by omega
  rw [split, Nat.add_mul, Nat.mul_comm limiter.maxTokensX100.toNat]
  omega

theorem Bounded.unanswered (bounded : Bounded limiter a b past shared lastRefill tokens) {e : Nat × CallStep}
    {answer : Answer} (nothing : granted a b [(e, answer)] = 0) :
    Bounded limiter a b (past ++ [(e, answer)]) shared lastRefill tokens := by
  have same : granted a b (past ++ [(e, answer)]) = granted a b past := by
    rw [granted_concat, nothing, Nat.add_zero]
  constructor
  · exact bounded.state
  · exact bounded.refilled
  · rw [same]
    exact bounded.before
  · rw [same]
    exact bounded.during
  · rw [same]
    exact bounded.after

theorem Bounded.tick (full : limiter.refillPerSecX100 = limiter.maxTokensX100)
    (bounded : Bounded limiter a b past shared lastRefill tokens) (proper : a ≤ b) {now : UInt32}
    (later : shared.clock ≤ now) : Bounded limiter a b past { shared with clock := now } lastRefill tokens := by
  have forward : shared.clock.toNat ≤ now.toNat := later
  have since : lastRefill.toNat ≤ shared.clock.toNat := bounded.refilled
  have fits := @available_le limiter lastRefill.toNat tokens.toNat now.toNat
  constructor
  · exact bounded.state
  · exact UInt32.le_trans bounded.refilled later
  · intro early
    exact bounded.before (forward.trans_lt early)
  · intro begun going
    dsimp only at begun going ⊢
    by_cases early : shared.clock.toNat < a
    · have bucket : limiter.maxTokensX100.toNat ≤ limiter.maxTokensX100.toNat * (now.toNat - a + 1) :=
        Nat.le_mul_of_pos_right _ (Nat.succ_pos _)
      have none := bounded.before early
      omega
    · have known := bounded.during (by omega) (by omega)
      have more := @available_tick limiter full lastRefill.toNat tokens.toNat _ _ since forward
      have split : now.toNat - a + 1 = (shared.clock.toNat - a + 1) + (now.toNat - shared.clock.toNat) := by omega
      rw [split, Nat.mul_add]
      omega
  · intro beyond
    by_cases early : shared.clock.toNat < a
    · rw [bounded.before early]
      omega
    by_cases going : shared.clock.toNat ≤ b
    · have known := bounded.during (by omega) going
      have wider : limiter.maxTokensX100.toNat * (shared.clock.toNat - a + 1) ≤
          limiter.maxTokensX100.toNat * (b - a + 1) := Nat.mul_le_mul_left _ (by omega)
      omega
    · exact bounded.after (by omega)

/-- A call whose reading is fresh takes one token of those that are there. -/
theorem Bounded.granting (bounded : Bounded limiter a b past shared lastRefill tokens) {next : UInt64}
    (wanted : limiter.desired shared.clock shared.state = some next) {e : Nat × CallStep} :
    ∃ left, Bounded limiter a b (past ++ [(e, .returned true shared.clock)]) { shared with state := next }
      shared.clock left := by
  have found := limiter.toNat_refilled tokens bounded.refilled
  rw [bounded.state] at wanted
  unfold TokenBucketRateLimiter.desired at wanted
  split_ifs at wanted with empty
  cases wanted
  have enough : (100 : UInt32) ≤ limiter.refilled shared.clock (TokenBucketRateLimiter.pack lastRefill tokens) :=
    UInt32.not_lt.mp empty
  have hundred : 100 ≤ (limiter.refilled shared.clock (TokenBucketRateLimiter.pack lastRefill tokens)).toNat := enough
  have taken := UInt32.toNat_sub_of_le _ _ enough
  have unit : (100 : UInt32).toNat = 100 := rfl
  rw [unit] at taken
  have counted := granted_concat a b past e (.returned true shared.clock)
  rw [granted_true] at counted
  refine ⟨_, rfl, UInt32.le_refl _, ?_, ?_, ?_⟩
  · intro early
    rw [counted, bounded.before early, if_neg (by dsimp only at early; omega)]
  · intro begun going
    dsimp only at begun going ⊢
    have known := bounded.during begun going
    rw [counted, if_pos ⟨begun, going⟩]
    simp only [available, taken, found, Nat.sub_self, Nat.zero_mul, Nat.add_zero] at known hundred ⊢
    omega
  · intro beyond
    dsimp only at beyond
    rw [counted, if_neg (by omega)]
    exact bounded.after beyond

/-- A step either moves the clock on, or takes a token, or leaves the shared
state as it is. -/
theorem check_cases (limiter : TokenBucketRateLimiter) (shared : Shared) (call : Call) (step : CallStep) :
    (∃ now, shared.clock ≤ now ∧ (check limiter shared call step).1 = { shared with clock := now } ∧
      (check limiter shared call step).2.2 = .nothing) ∨
    (∃ now next, step = .compareExchange false ∧ call = .loaded now shared.state ∧
      limiter.desired now shared.state = some next ∧ (check limiter shared call step).1 = { shared with state := next } ∧
      (check limiter shared call step).2.2 = .returned true shared.clock) ∨
    ((check limiter shared call step).1 = shared ∧
      ∀ second, (check limiter shared call step).2.2 ≠ .returned true second) := by
  cases step with
  | tick now =>
    by_cases later : shared.clock ≤ now
    · refine .inl ⟨now, later, ?_⟩
      rw [check, if_pos later]
      exact ⟨rfl, rfl⟩
    · refine .inr (.inr ?_)
      rw [check, if_neg later]
      exact ⟨rfl, nofun⟩
  | readClock => cases call <;> exact .inr (.inr ⟨rfl, nofun⟩)
  | load =>
    cases call with
    | reading now =>
      refine .inr (.inr ?_)
      cases wanted : limiter.desired now shared.state <;> simp only [check, wanted]
      · exact ⟨trivial, nofun⟩
      · exact ⟨trivial, nofun⟩
    | _ => exact .inr (.inr ⟨rfl, nofun⟩)
  | compareExchange spurious =>
    cases call with
    | loaded now current =>
      cases wanted : limiter.desired now current with
      | none =>
        refine .inr (.inr ?_)
        simp only [check, wanted]
        exact ⟨trivial, nofun⟩
      | some next =>
        by_cases held : spurious = false ∧ shared.state = current
        · obtain ⟨rfl, rfl⟩ := held
          refine .inr (.inl ⟨now, next, rfl, rfl, wanted, ?_⟩)
          simp only [check, wanted, and_self, if_true]
        · refine .inr (.inr ?_)
          simp only [check, wanted, if_neg held]
          exact ⟨trivial, nofun⟩
    | _ => exact .inr (.inr ⟨rfl, nofun⟩)

theorem granted_other {e : Nat × CallStep} {answer : Answer} (other : ∀ second, answer ≠ .returned true second) :
    granted a b [(e, answer)] = 0 := by
  cases answer with
  | nothing => rfl
  | returned allowed second =>
    cases allowed with
    | false => rfl
    | true => exact absurd rfl (other second)

theorem Bounded.step (full : limiter.refillPerSecX100 = limiter.maxTokensX100) (proper : a ≤ b)
    {s : Shared × (Nat → Call)} (bounded : ∃ lastRefill tokens, Bounded limiter a b past s.1 lastRefill tokens)
    {e : Nat × CallStep} (fresh : Fresh s e) :
    ∃ lastRefill tokens, Bounded limiter a b (past ++ [(e, ((checks limiter).machine.step s e).2)])
      ((checks limiter).machine.step s e).1.1 lastRefill tokens := by
  obtain ⟨lastRefill, tokens, bounded⟩ := bounded
  obtain ⟨i, step⟩ := e
  rw [Actor.step_shared, Actor.step_answer]
  rcases check_cases limiter s.1 (s.2 i) step with ⟨now, later, moved, answer⟩ | ⟨now, next, rfl, own, wanted, taken, answer⟩ |
    ⟨same, answer⟩
  · simp only [checks, moved, answer]
    exact ⟨_, _, (bounded.tick full proper later).unanswered rfl⟩
  · have current : now = s.1.clock := fresh rfl now own
    subst current
    simp only [checks, taken, answer]
    obtain ⟨left, granted⟩ := bounded.granting wanted
    exact ⟨_, left, granted⟩
  · simp only [checks, same]
    exact ⟨_, _, bounded.unanswered (granted_other answer)⟩

theorem Bounded.total (bounded : Bounded limiter a b past shared lastRefill tokens) (proper : a ≤ b) :
    granted a b past * 100 ≤ limiter.maxTokensX100.toNat * (b - a + 1) := by
  by_cases early : shared.clock.toNat < a
  · rw [bounded.before early]
    omega
  by_cases going : shared.clock.toNat ≤ b
  · have known := bounded.during (by omega) going
    have wider : limiter.maxTokensX100.toNat * (shared.clock.toNat - a + 1) ≤
        limiter.maxTokensX100.toNat * (b - a + 1) := Nat.mul_le_mul_left _ (by omega)
    omega
  · exact bounded.after (by omega)

end Steps

theorem granted_eq_zero {a b : Nat} (improper : ¬a ≤ b) (past : List ((Nat × CallStep) × Answer)) :
    granted a b past = 0 := by
  rw [granted, List.countP_eq_zero]
  intro entry _
  split
  · simp only [Bool.and_eq_true, decide_eq_true_eq]
    omega
  · simp

theorem fresh_of_ne {s : Shared × (Nat → Call)} {e : Nat × CallStep} (other : e.2 ≠ .compareExchange false) : Fresh s e :=
  fun same => absurd same other

theorem bounded_start (rps now : UInt32) (a b : Nat) :
    Bounded (TokenBucketRateLimiter.new rps now).1 a b [] (start rps now).1 now
      (TokenBucketRateLimiter.new rps now).1.maxTokensX100 := by
  have wider : (TokenBucketRateLimiter.new rps now).1.maxTokensX100.toNat ≤
      (TokenBucketRateLimiter.new rps now).1.maxTokensX100.toNat * (now.toNat - a + 1) :=
    Nat.le_mul_of_pos_right _ (Nat.succ_pos _)
  constructor
  · rfl
  · exact UInt32.le_refl _
  · exact fun _ => rfl
  · intro _ _
    have fits := @available_le (TokenBucketRateLimiter.new rps now).1 now.toNat
      (TokenBucketRateLimiter.new rps now).1.maxTokensX100.toNat now.toNat
    have none : granted a b [] = 0 := rfl
    simp only [start] at *
    omega
  · exact fun _ => Nat.zero_le _

/-- In every order of ticks, loads and exchanges in which an exchange succeeds
only in the second that its call has read, a bucket lets through no more than
its rate for every second of an interval. -/
theorem throughput_bounded (rps now : UInt32) {inputs : List (Nat × CallStep)}
    (fresh : (checks (TokenBucketRateLimiter.new rps now).1).machine.Meets Fresh (start rps now) inputs) (a b : Nat) :
    granted a b ((checks (TokenBucketRateLimiter.new rps now).1).machine.trace (start rps now) inputs) ≤
      rps.toNat * (b - a + 1) := by
  by_cases proper : a ≤ b
  · let inv : List ((Nat × CallStep) × Answer) → Shared × (Nat → Call) → Prop := fun past s =>
      ∃ lastRefill tokens, Bounded (TokenBucketRateLimiter.new rps now).1 a b past s.1 lastRefill tokens
    have preserved : ∀ past s e, Fresh s e → inv past s →
        inv (past ++ [(e, ((checks (TokenBucketRateLimiter.new rps now).1).machine.step s e).2)])
          ((checks (TokenBucketRateLimiter.new rps now).1).machine.step s e).1 :=
      fun past s e guarded bounded => Bounded.step rfl proper bounded guarded
    obtain ⟨lastRefill, tokens, bounded⟩ : inv _ _ :=
      fresh.trace_invariant ⟨_, _, bounded_start rps now a b⟩ preserved
    have hundredfold := (bounded.total proper).trans
      (Nat.mul_le_mul_right _ (TokenBucketRateLimiter.maxTokens_new rps now))
    rw [Nat.mul_right_comm] at hundredfold
    exact Nat.le_of_mul_le_mul_right hundredfold (by decide)
  · rw [granted_eq_zero proper]
    exact Nat.zero_le _

theorem throughput_bounded_sample :
    granted 10 10 ((checks (TokenBucketRateLimiter.new 1 10).1).machine.trace (start 1 10)
      [(0, .readClock), (0, .load), (0, .compareExchange false), (0, .tick 11)]) ≤ (1 : UInt32).toNat * (10 - 10 + 1) := by
  have fresh : (checks (TokenBucketRateLimiter.new 1 10).1).machine.Meets Fresh (start 1 10)
      [(0, .readClock), (0, .load), (0, .compareExchange false), (0, .tick 11)] := by
    refine ⟨fresh_of_ne nofun, fresh_of_ne nofun, ?_, fresh_of_ne nofun, trivial⟩
    intro _ now own
    have read : Call.loaded 10 (TokenBucketRateLimiter.new 1 10).2 = .loaded now (TokenBucketRateLimiter.new 1 10).2 := own
    cases read
    rfl
  exact throughput_bounded 1 10 fresh 10 10

/-- The first call reads the clock before the second tick and goes on after the
last token of the next second is gone. Its reading lies before the last refill,
and the seconds that have passed wrap to a full bucket. -/
theorem stale_call_refills :
    ¬granted 11 11 ((checks (TokenBucketRateLimiter.new 1 10).1).machine.trace (start 1 10)
      [(0, .readClock), (2, .tick 11), (1, .readClock), (1, .load), (1, .compareExchange false), (0, .load),
        (0, .compareExchange false)]) ≤ 1 * (11 - 11 + 1) := by
  decide

end RateLimit
end Latchgate
