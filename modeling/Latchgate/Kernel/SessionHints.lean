import Latchgate.Core.Text
import Latchgate.Encoding.Delimited
import Latchgate.Kernel.RateLimit
import Latchgate.Manifest.Load
import Mathlib.Data.Finset.Card
import Mathlib.Data.List.Dedup

namespace Latchgate

inductive PeerId where
  | uid (uid : UInt32)
  | unknown
  deriving DecidableEq

inductive LimiterKey where
  | session (sessionId : String)
  | peer (peerId : PeerId)
  deriving DecidableEq

/-- The decoder of base64url and the reader of the claims, which borrows the
session from the text or finds none. -/
structure HintCodec where
  decodeBase64 : String → Option (List UInt8)
  fromSlice : List UInt8 → Option (Option String)

namespace HintCodec
variable (codec : HintCodec)

/-- The second part of a text that dots divide. -/
def secondPart (token : String) : Option String :=
  (splitOnce '.' token.toList).map fun (_, rest) =>
    match splitOnce '.' rest with
    | some (payload, _) => String.ofList payload
    | none => String.ofList rest

/-- The session that a lease claims, its signature unseen. The payload is
decoded into 512 bytes. -/
def parseSessionHint (authorization : Option String) : Option String := do
  let token ← authorization.bind (stripText "DPoP ")
  let payload ← secondPart token
  let decoded ← codec.decodeBase64 payload
  if 512 < decoded.length then none
  else
    let sessionId ← (codec.fromSlice decoded).join
    if sessionId = "" ∨ 256 < sessionId.utf8ByteSize then none else some sessionId

def extractLimiterKey (authorization : Option String) (peerId : PeerId) : LimiterKey :=
  match codec.parseSessionHint authorization with
  | some sessionId => .session sessionId
  | none => .peer peerId

end HintCodec

structure LimiterEntry where
  state : UInt64
  lastAccess : UInt32

/-- The rates of the map of limiters, in requests per second. -/
structure ExecuteRates where
  sessionRps : UInt32
  anonymousRps : UInt32

namespace ExecuteRates
variable (rates : ExecuteRates)

def rps : LimiterKey → UInt32
  | .session _ => rates.sessionRps
  | .peer _ => rates.anonymousRps

def limiter (key : LimiterKey) : TokenBucketRateLimiter :=
  (TokenBucketRateLimiter.new (rates.rps key) 0).1

def full (key : LimiterKey) (clock : UInt32) : UInt64 :=
  (TokenBucketRateLimiter.new (rates.rps key) clock).2

def highest : Nat :=
  max rates.sessionRps.toNat rates.anonymousRps.toNat

end ExecuteRates

namespace SessionHints
open RateLimit (Call CallStep Bounded granted available)

deriving instance DecidableEq for CallStep

/-- Where a request has come to. It holds the entry of its key in the map from
the touch until the limiter has answered. -/
inductive Phase where
  | idle
  | arrived (key : LimiterKey)
  | timed (key : LimiterKey) (second : UInt32)
  | inside (key : LimiterKey) (second : UInt32) (call : Call)
  deriving DecidableEq

namespace Phase

def key? : Phase → Option LimiterKey
  | idle => none
  | arrived key | timed key _ | inside key _ _ => some key

def holds : Phase → Bool
  | inside _ _ _ => true
  | _ => false

end Phase

inductive RequestStep where
  | request (authorization : Option String)
  | readClock
  | enter
  | check (step : CallStep)
  deriving DecidableEq

/-- A connection does a step of its request, the clock moves on, or the sweep
looks at one entry with a reading of the clock that it took before. -/
inductive Input where
  | serve (i : Nat) (step : RequestStep)
  | tick (now : UInt32)
  | evict (key : LimiterKey) (now : UInt32) (maxIdle : Nat)
  deriving DecidableEq

inductive Answer where
  | nothing
  | returned (key : LimiterKey) (allowed : Bool) (second : UInt32)
  deriving DecidableEq

structure Served where
  phase : Phase
  entry : Option LimiterEntry
  answer : Answer

variable (codec : HintCodec) (rates : ExecuteRates) (peerOf : Nat → PeerId)

/-- What a limiter has answered, with the entry it leaves. -/
def checked (key : LimiterKey) (second : UInt32) (entry : LimiterEntry) : RateLimit.Shared × Call × RateLimit.Answer →
    Served
  | (shared, call, .nothing) => ⟨.inside key second call, some { entry with state := shared.state }, .nothing⟩
  | (shared, _, .returned allowed at_) => ⟨.idle, some { entry with state := shared.state }, .returned key allowed at_⟩

/-- A step of a request, with the entry of its key. -/
def serve (peer : PeerId) (clock : UInt32) (phase : Phase) (entry : Option LimiterEntry) (step : RequestStep) : Served :=
  match step, phase, entry with
  | .request authorization, .idle, entry => ⟨.arrived (codec.extractLimiterKey authorization peer), entry, .nothing⟩
  | .readClock, .arrived key, entry => ⟨.timed key clock, entry, .nothing⟩
  | .enter, .timed key second, entry =>
    ⟨.inside key second .idle, some ⟨(entry.map LimiterEntry.state).getD (rates.full key clock), second⟩, .nothing⟩
  | .check (.tick _), phase, entry => ⟨phase, entry, .nothing⟩
  | .check step, .inside key second call, some entry =>
    checked key second entry (RateLimit.check (rates.limiter key) ⟨entry.state, clock⟩ call step)
  | _, phase, entry => ⟨phase, entry, .nothing⟩

structure World where
  clock : UInt32
  entries : LimiterKey → Option LimiterEntry := fun _ => none
  holders : LimiterKey → List Nat := fun _ => []
  phases : Nat → Phase := fun _ => .idle

/-- The entry is idle for too long. -/
def Stale (entry : LimiterEntry) (now : UInt32) (maxIdle : Nat) : Prop :=
  ¬now.toNat - entry.lastAccess.toNat < maxIdle

instance (entry : LimiterEntry) (now : UInt32) (maxIdle : Nat) : Decidable (Stale entry now maxIdle) :=
  inferInstanceAs (Decidable (¬_))

/-- The sweep waits for an entry that a request holds. -/
def evict (w : World) (key : LimiterKey) (now : UInt32) (maxIdle : Nat) : World :=
  match w.entries key with
  | none => w
  | some entry =>
    if w.holders key = [] ∧ now ≤ w.clock ∧ Stale entry now maxIdle then
      { w with entries := Function.update w.entries key none }
    else w

def settle (w : World) (i : Nat) (served : Served) : Option LimiterKey → World
  | none => { w with phases := Function.update w.phases i served.phase }
  | some key =>
    { w with
      entries := Function.update w.entries key served.entry
      holders := Function.update w.holders key
        (if served.phase.holds then i :: (w.holders key).erase i else (w.holders key).erase i)
      phases := Function.update w.phases i served.phase }

def step (w : World) : Input → World × Answer
  | .tick now => (if w.clock ≤ now then { w with clock := now } else w, .nothing)
  | .evict key now maxIdle => (evict w key now maxIdle, .nothing)
  | .serve i step =>
    let served := serve codec rates (peerOf i) w.clock (w.phases i) ((w.phases i).key?.bind w.entries) step
    (settle w i served (w.phases i).key?, served.answer)

def machine : Machine World Input Answer where
  step := step codec rates peerOf

/-- The keys that the requests of a peer select, in their order. -/
def selected (peer : PeerId) (inputs : List Input) : List LimiterKey :=
  inputs.filterMap fun
    | .serve i (.request authorization) =>
      if peerOf i = peer then some (codec.extractLimiterKey authorization peer) else none
    | _ => none

/-- A request of a peer is let through in the seconds from `a` to `b`. -/
def admits (peer : PeerId) (a b : Nat) : Input × Answer → Bool
  | (.serve i _, .returned _ true second) => peerOf i = peer && (a ≤ second.toNat && second.toNat ≤ b)
  | _ => false

def admitted (peer : PeerId) (a b : Nat) (past : List (Input × Answer)) : Nat :=
  past.countP (admits peerOf peer a b)

/-- The answers of one limiter. -/
def keyed (key : LimiterKey) (past : List (Input × Answer)) : List ((Nat × CallStep) × RateLimit.Answer) :=
  past.filterMap fun
    | (_, .returned other allowed second) => if other = key then some ((0, .load), .returned allowed second) else none
    | _ => none

/-- A request touches its entry and takes its token in the second that it has
read at first, and the sweep drops nothing that was used in the same second. -/
def Prompt (w : World) : Input → Prop
  | .serve i .enter => ∀ key second, w.phases i = .timed key second → second = w.clock
  | .serve i (.check (.compareExchange false)) => ∀ key second now entry, w.entries key = some entry →
      w.phases i = .inside key second (.loaded now entry.state) → second = w.clock ∧ now = w.clock
  | .evict _ _ maxIdle => maxIdle ≠ 0
  | _ => True

section Meter
variable {rates : ExecuteRates} {key : LimiterKey} {a b : Nat} {past : List ((Nat × CallStep) × RateLimit.Answer)}
  {clock : UInt32} {entry : LimiterEntry}

/-- What a limiter may still let through is bounded. One that is not there
counts as full. -/
def Level (rates : ExecuteRates) (key : LimiterKey) (a b : Nat) (past : List ((Nat × CallStep) × RateLimit.Answer))
    (clock : UInt32) : Option LimiterEntry → Prop
  | none => Bounded (rates.limiter key) a b past ⟨rates.full key clock, clock⟩ clock (rates.limiter key).maxTokensX100
  | some entry => ∃ lastRefill tokens, Bounded (rates.limiter key) a b past ⟨entry.state, clock⟩ lastRefill tokens ∧
      lastRefill ≤ entry.lastAccess ∧ entry.lastAccess ≤ clock

/-- A bucket that has become full may be taken for a new one. -/
theorem bounded_of_full {state : UInt64} {lastRefill tokens : UInt32}
    (bounded : Bounded (rates.limiter key) a b past ⟨state, clock⟩ lastRefill tokens)
    (filled : available (rates.limiter key) lastRefill.toNat tokens.toNat clock.toNat =
      (rates.limiter key).maxTokensX100.toNat) :
    Bounded (rates.limiter key) a b past ⟨rates.full key clock, clock⟩ clock (rates.limiter key).maxTokensX100 := by
  have fits := @RateLimit.available_le (rates.limiter key) clock.toNat (rates.limiter key).maxTokensX100.toNat clock.toNat
  constructor
  · rfl
  · exact UInt32.le_refl _
  · exact bounded.before
  · intro begun going
    have known := bounded.during begun going
    rw [filled] at known
    dsimp only at known ⊢
    omega
  · exact bounded.after

theorem available_new (limiter : TokenBucketRateLimiter) (lastRefill second : Nat) :
    available limiter lastRefill limiter.maxTokensX100.toNat second = limiter.maxTokensX100.toNat := by
  simp only [available]
  omega

/-- A second without a request fills the bucket. -/
theorem available_later {limiter : TokenBucketRateLimiter} (full : limiter.refillPerSecX100 = limiter.maxTokensX100)
    {lastRefill second : Nat} (later : lastRefill < second) (tokens : Nat) :
    available limiter lastRefill tokens second = limiter.maxTokensX100.toNat := by
  have bucket : limiter.maxTokensX100.toNat ≤ (second - lastRefill) * limiter.maxTokensX100.toNat :=
    Nat.le_mul_of_pos_left _ (by omega)
  simp only [available, full]
  omega

theorem Level.tick {entry : Option LimiterEntry} (level : Level rates key a b past clock entry) (proper : a ≤ b)
    {now : UInt32} (later : clock ≤ now) : Level rates key a b past now entry := by
  cases entry with
  | none => exact bounded_of_full (Bounded.tick rfl level proper later) (available_new _ _ _)
  | some entry =>
    obtain ⟨lastRefill, tokens, bounded, refilled, used⟩ := level
    exact ⟨lastRefill, tokens, Bounded.tick rfl bounded proper later, refilled, UInt32.le_trans used later⟩

theorem Level.evict (level : Level rates key a b past clock (some entry)) {now : UInt32} (read : now ≤ clock)
    {maxIdle : Nat} (positive : maxIdle ≠ 0) (stale : Stale entry now maxIdle) :
    Level rates key a b past clock none := by
  obtain ⟨lastRefill, tokens, bounded, refilled, -⟩ := level
  have since : lastRefill.toNat ≤ entry.lastAccess.toNat := refilled
  have before : now.toNat ≤ clock.toNat := read
  have idle : ¬now.toNat - entry.lastAccess.toNat < maxIdle := stale
  exact bounded_of_full bounded (available_later rfl (by omega) _)

theorem Level.enter {entry : Option LimiterEntry} (level : Level rates key a b past clock entry) :
    Level rates key a b past clock (some ⟨(entry.map LimiterEntry.state).getD (rates.full key clock), clock⟩) := by
  cases entry with
  | none => exact ⟨clock, _, level, UInt32.le_refl _, UInt32.le_refl _⟩
  | some entry =>
    obtain ⟨lastRefill, tokens, bounded, -, -⟩ := level
    exact ⟨lastRefill, tokens, bounded, bounded.refilled, UInt32.le_refl _⟩

/-- The answer of a limiter is counted with the others that it gave. -/
def heard (answer : RateLimit.Answer) : List ((Nat × CallStep) × RateLimit.Answer) :=
  match answer with
  | .nothing => []
  | .returned allowed second => [((0, .load), .returned allowed second)]

/-- A step of the limiter takes no more than there is, if it exchanges in the
second of its touch. -/
theorem Level.check (level : Level rates key a b past clock (some entry)) {second : UInt32} {call : Call}
    {step : CallStep} (touched : second ≤ entry.lastAccess)
    (prompt : step = .compareExchange false → ∀ now, call = .loaded now entry.state → second = clock ∧ now = clock) :
    Level rates key a b
      (past ++ heard (RateLimit.check (rates.limiter key) ⟨entry.state, clock⟩ call step).2.2) clock
      (some { entry with
        state := (RateLimit.check (rates.limiter key) ⟨entry.state, clock⟩ call step).1.state }) := by
  obtain ⟨lastRefill, tokens, bounded, refilled, used⟩ := level
  rcases RateLimit.check_cases (rates.limiter key) ⟨entry.state, clock⟩ call step with ⟨now, later, moved, answer⟩ |
    ⟨now, next, exchange, own, wanted, taken, answer⟩ | ⟨same, answer⟩
  · rw [moved, answer]
    refine ⟨lastRefill, tokens, ?_, refilled, used⟩
    simpa [heard] using bounded
  · obtain ⟨current, fresh⟩ := prompt exchange now own
    subst fresh current
    rw [taken, answer]
    obtain ⟨left, granted⟩ := bounded.granting (e := (0, .load)) wanted
    exact ⟨_, left, granted, touched, used⟩
  · rw [same]
    refine ⟨lastRefill, tokens, ?_, refilled, used⟩
    cases given : (RateLimit.check (rates.limiter key) ⟨entry.state, clock⟩ call step).2.2 with
    | nothing => simpa [heard] using bounded
    | returned allowed at_ =>
      refine bounded.unanswered (RateLimit.granted_other ?_)
      intro later granted
      exact answer later (given.trans granted)

end Meter

/-- Everything that a step of a request can do. -/
inductive Serving (codec : HintCodec) (rates : ExecuteRates) (peer : PeerId) (clock : UInt32) :
    Phase → Option LimiterEntry → RequestStep → Served → Prop
  | stays (phase : Phase) (entry : Option LimiterEntry) (step : RequestStep) :
    Serving codec rates peer clock phase entry step ⟨phase, entry, .nothing⟩
  | requested (authorization : Option String) (entry : Option LimiterEntry) :
    Serving codec rates peer clock .idle entry (.request authorization)
      ⟨.arrived (codec.extractLimiterKey authorization peer), entry, .nothing⟩
  | read (key : LimiterKey) (entry : Option LimiterEntry) :
    Serving codec rates peer clock (.arrived key) entry .readClock ⟨.timed key clock, entry, .nothing⟩
  | entered (key : LimiterKey) (second : UInt32) (entry : Option LimiterEntry) :
    Serving codec rates peer clock (.timed key second) entry .enter
      ⟨.inside key second .idle, some ⟨(entry.map LimiterEntry.state).getD (rates.full key clock), second⟩, .nothing⟩
  | checking (key : LimiterKey) (second : UInt32) (call : Call) (entry : LimiterEntry) (step : CallStep) :
    Serving codec rates peer clock (.inside key second call) (some entry) (.check step)
      (checked key second entry (RateLimit.check (rates.limiter key) ⟨entry.state, clock⟩ call step))

theorem serve_serving (codec : HintCodec) (rates : ExecuteRates) (peer : PeerId) (clock : UInt32) (phase : Phase)
    (entry : Option LimiterEntry) (step : RequestStep) :
    Serving codec rates peer clock phase entry step (serve codec rates peer clock phase entry step) := by
  cases step with
  | request authorization => cases phase with
    | idle => exact .requested authorization entry
    | arrived | timed | inside => exact .stays _ _ _
  | readClock => cases phase with
    | arrived key => exact .read key entry
    | idle | timed | inside => exact .stays _ _ _
  | enter => cases phase with
    | timed key second => exact .entered key second entry
    | idle | arrived | inside => exact .stays _ _ _
  | check step => cases step with
    | tick now => exact .stays _ _ _
    | readClock | load | compareExchange => cases phase with
      | inside key second call => cases entry with
        | none => exact .stays _ _ _
        | some entry => exact .checking key second call entry _
      | idle | arrived | timed => exact .stays _ _ _

theorem keyed_concat (key : LimiterKey) (past : List (Input × Answer)) (input : Input) (answer : Answer) :
    keyed key (past ++ [(input, answer)]) = keyed key past ++ match answer with
      | .nothing => []
      | .returned other allowed second => if other = key then [((0, .load), .returned allowed second)] else [] := by
  cases answer with
  | nothing => simp [keyed]
  | returned other allowed second =>
    by_cases same : other = key
    · simp [keyed, same]
    · simp [keyed, same]

/-- The levels of all limiters are bounded, what a request has read of the
clock is not in the future, and a request in the map holds its entry. -/
structure Sound (rates : ExecuteRates) (a b : Nat) (past : List (Input × Answer)) (w : World) : Prop where
  level : ∀ key, Level rates key a b (keyed key past) w.clock (w.entries key)
  timed : ∀ i key second, w.phases i = .timed key second → second ≤ w.clock
  inside : ∀ i key second call, w.phases i = .inside key second call →
    i ∈ w.holders key ∧ ∃ entry, w.entries key = some entry ∧ second ≤ entry.lastAccess

section Steps
variable {codec : HintCodec} {rates : ExecuteRates} {peerOf : Nat → PeerId} {a b : Nat}
  {past : List (Input × Answer)} {w : World}

theorem Sound.tick (sound : Sound rates a b past w) (proper : a ≤ b) {now : UInt32} (later : w.clock ≤ now) :
    Sound rates a b past { w with clock := now } where
  level key := (sound.level key).tick proper later
  timed i key second own := UInt32.le_trans (sound.timed i key second own) later
  inside := sound.inside

theorem Sound.evict (sound : Sound rates a b past w) (key : LimiterKey) (now : UInt32) {maxIdle : Nat}
    (positive : maxIdle ≠ 0) : Sound rates a b past (evict w key now maxIdle) := by
  unfold SessionHints.evict
  cases found : w.entries key with
  | none => exact sound
  | some entry =>
    dsimp only
    split_ifs with dropped
    · obtain ⟨unheld, read, stale⟩ := dropped
      refine ⟨?_, sound.timed, ?_⟩
      · intro other
        by_cases same : other = key
        · subst same
          have level := sound.level other
          rw [found] at level
          simpa using level.evict read positive stale
        · simpa [Function.update_of_ne same] using sound.level other
      · intro i other second call own
        obtain ⟨holder, held, present, touched⟩ := sound.inside i other second call own
        have differs : other ≠ key := by
          rintro rfl
          rw [unheld] at holder
          exact absurd holder List.not_mem_nil
        exact ⟨holder, held, (Function.update_of_ne differs _ _).trans present, touched⟩
    · exact sound

/-- The levels and the requests after a step that leaves the entries of the
other keys alone. -/
theorem Sound.settle (sound : Sound rates a b past w) {i : Nat} {key : LimiterKey} (own : (w.phases i).key? = some key)
    {served : Served} {input : Input}
    (level : Level rates key a b (keyed key (past ++ [(input, served.answer)])) w.clock served.entry)
    (others : ∀ other, other ≠ key → keyed other (past ++ [(input, served.answer)]) = keyed other past)
    (timed : ∀ other second, served.phase = .timed other second → second ≤ w.clock)
    (inside : ∀ other second call, served.phase = .inside other second call →
      other = key ∧ ∃ entry, served.entry = some entry ∧ second ≤ entry.lastAccess)
    (kept : ∀ entry, w.entries key = some entry → ∃ left, served.entry = some left ∧ entry.lastAccess ≤ left.lastAccess) :
    Sound rates a b (past ++ [(input, served.answer)]) (settle w i served (some key)) := by
  constructor
  · intro other
    by_cases same : other = key
    · subst same
      simpa [SessionHints.settle] using level
    · rw [others other same]
      simpa [SessionHints.settle, Function.update_of_ne same] using sound.level other
  · intro j other second phase
    by_cases acts : j = i
    · subst acts
      simp only [SessionHints.settle, Function.update_self] at phase
      exact timed other second phase
    · simp only [SessionHints.settle, Function.update_of_ne acts] at phase
      exact sound.timed j other second phase
  · intro j other second call phase
    by_cases acts : j = i
    · subst acts
      simp only [SessionHints.settle, Function.update_self] at phase
      obtain ⟨rfl, entry, present, touched⟩ := inside other second call phase
      refine ⟨?_, entry, ?_, touched⟩
      · simp [SessionHints.settle, phase, Phase.holds]
      · simpa [SessionHints.settle] using present
    · simp only [SessionHints.settle, Function.update_of_ne acts] at phase
      obtain ⟨holder, entry, present, touched⟩ := sound.inside j other second call phase
      by_cases same : other = key
      · subst same
        obtain ⟨left, still, later⟩ := kept entry present
        refine ⟨?_, left, by simpa [SessionHints.settle] using still, UInt32.le_trans touched later⟩
        have stays : j ∈ (w.holders other).erase i := (List.mem_erase_of_ne acts).mpr holder
        simp only [SessionHints.settle, Function.update_self]
        split_ifs
        · exact List.mem_cons_of_mem _ stays
        · exact stays
      · refine ⟨?_, entry, ?_, touched⟩
        · simpa [SessionHints.settle, Function.update_of_ne same] using holder
        · simpa [SessionHints.settle, Function.update_of_ne same] using present

theorem keyed_nothing (key : LimiterKey) (past : List (Input × Answer)) (input : Input) :
    keyed key (past ++ [(input, .nothing)]) = keyed key past := by
  rw [keyed_concat, List.append_nil]

/-- A request without a key only picks one. -/
theorem Sound.start (sound : Sound rates a b past w) {i : Nat} {phase : Phase} {input : Input}
    (quiet : (∃ key, phase = .arrived key) ∨ phase = .idle) :
    Sound rates a b (past ++ [(input, .nothing)]) { w with phases := Function.update w.phases i phase } := by
  constructor
  · intro key
    rw [keyed_nothing]
    exact sound.level key
  · intro j key second own
    by_cases acts : j = i
    · subst acts
      dsimp only at own
      rw [Function.update_self] at own
      rcases quiet with ⟨other, arrived⟩ | idle
      · exact nomatch arrived.symm.trans own
      · exact nomatch idle.symm.trans own
    · dsimp only at own
      rw [Function.update_of_ne acts] at own
      exact sound.timed j key second own
  · intro j key second call own
    by_cases acts : j = i
    · subst acts
      dsimp only at own
      rw [Function.update_self] at own
      rcases quiet with ⟨other, arrived⟩ | idle
      · exact nomatch arrived.symm.trans own
      · exact nomatch idle.symm.trans own
    · dsimp only at own
      rw [Function.update_of_ne acts] at own
      exact sound.inside j key second call own

/-- A step that does nothing with the entry. -/
theorem Sound.quiet (sound : Sound rates a b past w) {i : Nat} {key : LimiterKey} (own : (w.phases i).key? = some key)
    {phase : Phase} {input : Input} (timed : ∀ other second, phase = .timed other second → second ≤ w.clock)
    (inside : ∀ other second call, phase = .inside other second call → w.phases i = phase) :
    Sound rates a b (past ++ [(input, .nothing)]) (SessionHints.settle w i ⟨phase, w.entries key, .nothing⟩ (some key)) := by
  refine @Sound.settle rates a b past w sound i key own ⟨phase, w.entries key, .nothing⟩ input ?_ ?_ timed ?_ ?_
  · rw [keyed_nothing]
    exact sound.level key
  · exact fun other _ => keyed_nothing other past input
  · intro other second call here
    have before := (inside other second call here).trans here
    obtain ⟨-, entry, present, touched⟩ := sound.inside i other second call before
    have same : other = key := by
      rw [before] at own
      exact Option.some.inj own
    subst same
    exact ⟨rfl, entry, present, touched⟩
  · exact fun entry present => ⟨entry, present, UInt32.le_refl _⟩

theorem checked_entry (key : LimiterKey) (second : UInt32) (entry : LimiterEntry)
    (result : RateLimit.Shared × Call × RateLimit.Answer) :
    (checked key second entry result).entry = some { entry with state := result.1.state } := by
  obtain ⟨shared, call, answer⟩ := result
  cases answer <;> rfl

theorem checked_phase (key : LimiterKey) (second : UInt32) (entry : LimiterEntry)
    (result : RateLimit.Shared × Call × RateLimit.Answer) :
    (∃ call, (checked key second entry result).phase = .inside key second call) ∨
      (checked key second entry result).phase = .idle := by
  obtain ⟨shared, call, answer⟩ := result
  cases answer with
  | nothing => exact .inl ⟨call, rfl⟩
  | returned allowed at_ => exact .inr rfl

/-- What a limiter answers goes to the account of its key. -/
theorem keyed_checked {key : LimiterKey} {second : UInt32} {entry : LimiterEntry} (input : Input) (other : LimiterKey)
    (result : RateLimit.Shared × Call × RateLimit.Answer) :
    keyed other (past ++ [(input, (checked key second entry result).answer)]) =
      if key = other then keyed other past ++ heard result.2.2 else keyed other past := by
  obtain ⟨shared, call, answer⟩ := result
  cases answer with
  | nothing => simp [checked, keyed_nothing, heard]
  | returned allowed at_ =>
    rw [checked, keyed_concat]
    by_cases same : key = other
    · simp [same, heard]
    · simp [same]

theorem Sound.check (sound : Sound rates a b past w) {i : Nat} {key : LimiterKey} {second : UInt32} {call : Call}
    (own : w.phases i = .inside key second call) {entry : LimiterEntry} (present : w.entries key = some entry)
    {step : CallStep} (prompt : Prompt w (.serve i (.check step))) {input : Input} :
    Sound rates a b
      (past ++ [(input, (checked key second entry
        (RateLimit.check (rates.limiter key) ⟨entry.state, w.clock⟩ call step)).answer)])
      (SessionHints.settle w i (checked key second entry (RateLimit.check (rates.limiter key) ⟨entry.state, w.clock⟩ call step))
        (some key)) := by
  obtain ⟨-, held, present', touched⟩ := sound.inside i key second call own
  obtain rfl : held = entry := Option.some.inj (present'.symm.trans present)
  have level := sound.level key
  rw [present] at level
  have exchange : step = .compareExchange false → ∀ now, call = .loaded now held.state →
      second = w.clock ∧ now = w.clock := by
    rintro rfl now rfl
    exact prompt key second now held present own
  have after := level.check touched exchange
  have selects : (w.phases i).key? = some key := by rw [own]; rfl
  have left := checked_entry key second held (RateLimit.check (rates.limiter key) ⟨held.state, w.clock⟩ call step)
  have phases := checked_phase key second held (RateLimit.check (rates.limiter key) ⟨held.state, w.clock⟩ call step)
  refine sound.settle selects ?_ ?_ ?_ ?_ ?_
  · rw [keyed_checked, if_pos rfl, left]
    exact after
  · intro other differs
    rw [keyed_checked, if_neg differs.symm]
  · intro other at_ timed
    rcases phases with ⟨next, inside⟩ | idle
    · exact nomatch inside.symm.trans timed
    · exact nomatch idle.symm.trans timed
  · intro other at_ next inside
    rcases phases with ⟨next', inside'⟩ | idle
    · cases inside'.symm.trans inside
      exact ⟨rfl, _, left, touched⟩
    · exact nomatch idle.symm.trans inside
  · intro before present''
    obtain rfl : before = held := Option.some.inj (present''.symm.trans present)
    exact ⟨_, left, UInt32.le_refl _⟩

theorem Sound.serve (sound : Sound rates a b past w) {i : Nat} {step : RequestStep}
    (prompt : Prompt w (.serve i step)) :
    Sound rates a b (past ++ [(.serve i step, (SessionHints.step codec rates peerOf w (.serve i step)).2)])
      (SessionHints.step codec rates peerOf w (.serve i step)).1 := by
  have serving := serve_serving codec rates (peerOf i) w.clock (w.phases i) ((w.phases i).key?.bind w.entries) step
  simp only [SessionHints.step]
  generalize served_eq : SessionHints.serve codec rates (peerOf i) w.clock (w.phases i) ((w.phases i).key?.bind w.entries) step =
    served at serving ⊢
  cases selects : (w.phases i).key? with
  | none =>
    have idle : w.phases i = .idle := by
      cases phase : w.phases i with
      | idle => rfl
      | arrived | timed | inside => simp [phase, Phase.key?] at selects
    rw [idle] at serving
    cases serving with
    | stays => exact sound.start (.inr rfl)
    | requested authorization => exact sound.start (.inl ⟨_, rfl⟩)
  | some key =>
    rw [selects] at serving
    simp only [Option.bind_some] at serving
    generalize held_eq : w.entries key = held at serving
    generalize phase_eq : w.phases i = phase at serving
    cases serving with
    | stays =>
      rw [← held_eq, ← phase_eq]
      exact sound.quiet selects (fun other second own => sound.timed i other second own) (fun _ _ _ _ => rfl)
    | requested authorization => cases phase_eq ▸ selects
    | read other =>
      obtain rfl : other = key := by simpa [phase_eq, Phase.key?] using selects
      rw [← held_eq]
      refine sound.quiet selects ?_ nofun
      intro other second own
      cases own
      exact UInt32.le_refl _
    | entered other second =>
      obtain rfl : other = key := by simpa [phase_eq, Phase.key?] using selects
      obtain rfl : second = w.clock := prompt other second phase_eq
      rw [← held_eq]
      refine sound.settle selects ?_ (fun other' _ => keyed_nothing other' past _) nofun ?_ ?_
      · rw [keyed_nothing]
        exact (sound.level other).enter
      · intro other' second call own
        cases own
        exact ⟨rfl, _, rfl, UInt32.le_refl _⟩
      · intro entry present
        have level := sound.level other
        rw [present] at level
        obtain ⟨-, -, -, -, used⟩ := level
        exact ⟨_, rfl, used⟩
    | checking other second call entry step =>
      obtain rfl : other = key := by simpa [phase_eq, Phase.key?] using selects
      exact sound.check phase_eq held_eq prompt

theorem Sound.step (proper : a ≤ b) (sound : Sound rates a b past w) {input : Input} (prompt : Prompt w input) :
    Sound rates a b (past ++ [(input, (SessionHints.step codec rates peerOf w input).2)])
      (SessionHints.step codec rates peerOf w input).1 := by
  have silent : ∀ {t : World}, Sound rates a b past t → Sound rates a b (past ++ [(input, Answer.nothing)]) t := by
    intro t kept
    refine ⟨fun key => ?_, kept.timed, kept.inside⟩
    rw [keyed_nothing]
    exact kept.level key
  cases input with
  | tick now =>
    simp only [SessionHints.step]
    split_ifs with later
    · exact silent (sound.tick proper later)
    · exact silent sound
  | evict key now maxIdle => exact silent (sound.evict key now prompt)
  | serve i step => exact sound.serve prompt

theorem sound_start (rates : ExecuteRates) (a b : Nat) (clock : UInt32) : Sound rates a b [] { clock } where
  level key := RateLimit.bounded_start (rates.rps key) clock a b
  timed _ _ _ own := nomatch own
  inside _ _ _ _ own := nomatch own

/-- Each limiter lets through no more than its rate. -/
theorem keyed_bounded {clock : UInt32} {inputs : List Input}
    (prompt : (machine codec rates peerOf).Meets Prompt { clock } inputs) (key : LimiterKey) (a b : Nat) :
    granted a b (keyed key ((machine codec rates peerOf).trace { clock } inputs)) ≤
      (rates.rps key).toNat * (b - a + 1) := by
  by_cases proper : a ≤ b
  · have sound : Sound rates a b ((machine codec rates peerOf).trace { clock } inputs)
        ((machine codec rates peerOf).run { clock } inputs) :=
      @Machine.Meets.trace_invariant _ _ _ (machine codec rates peerOf) Prompt (Sound rates a b) { clock }
        (sound_start rates a b clock) (fun _ _ _ guarded sound => sound.step proper guarded) inputs prompt
    have total : ∃ lastRefill tokens state clock', Bounded (rates.limiter key) a b
        (keyed key ((machine codec rates peerOf).trace { clock } inputs)) ⟨state, clock'⟩ lastRefill tokens := by
      have level := sound.level key
      unfold Level at level
      split at level
      · exact ⟨_, _, _, _, level⟩
      · obtain ⟨lastRefill, tokens, bounded, -⟩ := level
        exact ⟨_, _, _, _, bounded⟩
    obtain ⟨lastRefill, tokens, state, clock', bounded⟩ := total
    have hundredfold := (bounded.total proper).trans
      (Nat.mul_le_mul_right _ (TokenBucketRateLimiter.maxTokens_new (rates.rps key) 0))
    rw [Nat.mul_right_comm] at hundredfold
    exact Nat.le_of_mul_le_mul_right hundredfold (by decide)
  · rw [RateLimit.granted_eq_zero proper]
    exact Nat.zero_le _

end Steps

section Keys
variable {codec : HintCodec} {rates : ExecuteRates} {peerOf : Nat → PeerId}

/-- A request keeps the key that it has selected, and is answered under it. -/
theorem Serving.key {peer : PeerId} {clock : UInt32} {phase : Phase} {entry : Option LimiterEntry} {step : RequestStep}
    {served : Served} (serving : Serving codec rates peer clock phase entry step served) :
    (∀ key, served.phase.key? = some key → phase.key? = some key ∨
        ∃ authorization, step = .request authorization ∧ key = codec.extractLimiterKey authorization peer) ∧
      ∀ key allowed second, served.answer = .returned key allowed second → phase.key? = some key := by
  cases serving with
  | stays => exact ⟨fun key own => .inl own, nofun⟩
  | requested authorization => exact ⟨fun key own => .inr ⟨authorization, rfl, (Option.some.inj own).symm⟩, nofun⟩
  | read key => exact ⟨fun other own => .inl own, nofun⟩
  | entered key second => exact ⟨fun other own => .inl own, nofun⟩
  | checking key second call entry step =>
    obtain ⟨shared, next, answer⟩ := RateLimit.check (rates.limiter key) ⟨entry.state, clock⟩ call step
    cases answer with
    | nothing => exact ⟨fun other own => .inl own, nofun⟩
    | returned allowed last =>
      refine ⟨nofun, fun other allowed' second' given => ?_⟩
      cases given
      rfl

theorem selected_append (peer : PeerId) (first second : List Input) :
    selected codec peerOf peer (first ++ second) =
      selected codec peerOf peer first ++ selected codec peerOf peer second :=
  List.filterMap_append

/-- Requests are under way, and were answered, under keys that their peers
have selected. -/
structure Selects (codec : HintCodec) (peerOf : Nat → PeerId) (past : List (Input × Answer)) (w : World) : Prop where
  phases : ∀ i key, (w.phases i).key? = some key → key ∈ selected codec peerOf (peerOf i) (past.map Prod.fst)
  answers : ∀ i step key allowed second, (.serve i step, .returned key allowed second) ∈ past →
    key ∈ selected codec peerOf (peerOf i) (past.map Prod.fst)

theorem settle_phases (w : World) (i : Nat) (served : Served) (key : Option LimiterKey) :
    (settle w i served key).phases = Function.update w.phases i served.phase := by
  cases key <;> rfl

theorem Selects.step {past : List (Input × Answer)} {w : World} (selects : Selects codec peerOf past w) (input : Input) :
    Selects codec peerOf (past ++ [(input, (SessionHints.step codec rates peerOf w input).2)])
      (SessionHints.step codec rates peerOf w input).1 := by
  have later : ∀ {peer key answer}, key ∈ selected codec peerOf peer (past.map Prod.fst) →
      key ∈ selected codec peerOf peer ((past ++ [(input, answer)]).map Prod.fst) := by
    intro peer key answer before
    rw [List.map_append, selected_append]
    exact List.mem_append_left _ before
  have silent : ∀ {t : World}, t.phases = w.phases → Selects codec peerOf (past ++ [(input, Answer.nothing)]) t := by
    intro t same
    constructor
    · intro i key own
      rw [same] at own
      exact later (selects.phases i key own)
    · intro i step key allowed second member
      rcases List.mem_append.mp member with before | here
      · exact later (selects.answers i step key allowed second before)
      · cases List.mem_singleton.mp here
  cases input with
  | tick now =>
    simp only [SessionHints.step]
    split_ifs
    · exact silent rfl
    · exact silent rfl
  | evict key now maxIdle =>
    refine silent ?_
    change (SessionHints.evict w key now maxIdle).phases = w.phases
    unfold SessionHints.evict
    split
    · rfl
    · split_ifs
      · rfl
      · rfl
  | serve i step =>
    obtain ⟨keys, answered⟩ :=
      (serve_serving codec rates (peerOf i) w.clock (w.phases i) ((w.phases i).key?.bind w.entries) step).key
    constructor
    · intro j key own
      simp only [SessionHints.step, settle_phases] at own ⊢
      by_cases acts : j = i
      · subst acts
        rw [Function.update_self] at own
        rcases keys key own with before | ⟨authorization, rfl, rfl⟩
        · exact later (selects.phases j key before)
        · rw [List.map_append, selected_append]
          refine List.mem_append_right _ ?_
          simp [selected]
      · rw [Function.update_of_ne acts] at own
        exact later (selects.phases j key own)
    · intro j other key allowed second member
      rcases List.mem_append.mp member with before | here
      · exact later (selects.answers j other key allowed second before)
      · have same := List.mem_singleton.mp here
        have input : Input.serve j other = .serve i step := congrArg Prod.fst same
        cases input
        exact later (selects.phases i key (answered key allowed second (congrArg Prod.snd same).symm))

theorem selects_trace (clock : UInt32) (inputs : List Input) {i : Nat} {step : RequestStep} {key : LimiterKey}
    {allowed : Bool} {second : UInt32}
    (member : (.serve i step, .returned key allowed second) ∈ (machine codec rates peerOf).trace { clock } inputs) :
    key ∈ selected codec peerOf (peerOf i) inputs := by
  have start : Selects codec peerOf [] { clock } := ⟨nofun, nofun⟩
  have selects := @Machine.trace_invariant _ _ _ (machine codec rates peerOf) (Selects codec peerOf) { clock } start
    (fun _ _ input selects => selects.step input) inputs
  have found := selects.answers i step key allowed second member
  rwa [Machine.trace_inputs] at found

end Keys

/-- What falls under one of few kinds, of each of which there is not much, is
not much. -/
theorem countP_le_mul {α κ : Type*} [DecidableEq κ] (kind : α → κ) (bound : Nat) (kinds : List κ) (l : List α)
    (p : α → Bool) (within : ∀ x ∈ l, p x = true → kind x ∈ kinds)
    (each : ∀ k ∈ kinds, l.countP (fun x => p x && kind x = k) ≤ bound) : l.countP p ≤ kinds.length * bound := by
  induction kinds generalizing p with
  | nil =>
    have none : l.countP p = 0 := by
      rw [List.countP_eq_zero]
      exact fun x member holds => List.not_mem_nil (within x member holds)
    omega
  | cons k rest ih =>
    have split := List.countP_eq_countP_filter_add l p (fun x => kind x = k)
    rw [List.countP_filter, List.countP_filter] at split
    have first := each k List.mem_cons_self
    have others := ih (fun x => p x && !(decide (kind x = k))) ?_ ?_
    · rw [List.length_cons, Nat.succ_mul]
      omega
    · intro x member holds
      simp only [Bool.and_eq_true, Bool.not_eq_true', decide_eq_false_iff_not] at holds
      exact (List.mem_cons.mp (within x member holds.1)).resolve_left holds.2
    · intro k' member
      refine le_trans (List.countP_mono_left ?_) (each k' (List.mem_cons_of_mem _ member))
      intro x _ holds
      simp only [Bool.and_eq_true] at holds ⊢
      exact ⟨holds.1.1, holds.2⟩

/-- The key under which an input is answered. -/
def answerKey (entry : Input × Answer) : Option LimiterKey :=
  match entry.2 with
  | .returned key _ _ => some key
  | .nothing => none

/-- What a peer gets through under one key is let through by its limiter. -/
theorem admitted_key_le (peerOf : Nat → PeerId) (peer : PeerId) (key : LimiterKey) (a b : Nat)
    (past : List (Input × Answer)) :
    past.countP (fun entry => admits peerOf peer a b entry && answerKey entry = some key) ≤
      granted a b (keyed key past) := by
  unfold granted keyed
  rw [List.countP_filterMap]
  refine List.countP_mono_left ?_
  rintro ⟨input, answer⟩ _ holds
  cases answer with
  | nothing => simp [admits, answerKey] at holds
  | returned other allowed second =>
    cases input with
    | serve i step =>
      cases allowed with
      | false => simp [admits] at holds
      | true =>
        simp only [admits, answerKey, Bool.and_eq_true, decide_eq_true_eq, Option.some.injEq] at holds
        obtain ⟨⟨-, since, until_⟩, rfl⟩ := holds
        simp [since, until_]
    | tick now => simp [admits] at holds
    | evict other' now maxIdle => simp [admits] at holds

/-- A peer whose requests select few keys gets no more through than these
allow. -/
theorem admitted_le (codec : HintCodec) (rates : ExecuteRates) (peerOf : Nat → PeerId) {clock : UInt32}
    {inputs : List Input} (prompt : (machine codec rates peerOf).Meets Prompt { clock } inputs) (peer : PeerId)
    (a b : Nat) :
    admitted peerOf peer a b ((machine codec rates peerOf).trace { clock } inputs) ≤
      (selected codec peerOf peer inputs).dedup.length * (rates.highest * (b - a + 1)) := by
  have counted := countP_le_mul answerKey (rates.highest * (b - a + 1))
    ((selected codec peerOf peer inputs).dedup.map some) ((machine codec rates peerOf).trace { clock } inputs)
    (admits peerOf peer a b) ?_ ?_
  · rw [List.length_map] at counted
    exact counted
  · rintro ⟨input, answer⟩ member holds
    cases input with
    | serve i step =>
      cases answer with
      | returned key allowed second =>
        cases allowed with
        | false => simp [admits] at holds
        | true =>
          simp only [admits, Bool.and_eq_true, decide_eq_true_eq] at holds
          obtain ⟨rfl, -⟩ := holds
          exact List.mem_map_of_mem (List.mem_dedup.mpr (selects_trace clock inputs member))
      | nothing => simp [admits] at holds
    | tick now => simp [admits] at holds
    | evict key now maxIdle => simp [admits] at holds
  · intro k member
    obtain ⟨key, -, rfl⟩ := List.mem_map.mp member
    have rate : (rates.rps key).toNat ≤ rates.highest := by
      cases key with
      | session id => exact Nat.le_max_left _ _
      | peer id => exact Nat.le_max_right _ _
    calc _ ≤ granted a b (keyed key ((machine codec rates peerOf).trace { clock } inputs)) :=
          admitted_key_le peerOf peer key a b _
      _ ≤ (rates.rps key).toNat * (b - a + 1) := keyed_bounded prompt key a b
      _ ≤ rates.highest * (b - a + 1) := Nat.mul_le_mul_right _ rate

section Isolation
variable {codec : HintCodec} {rates : ExecuteRates} {peerOf : Nat → PeerId} {peer : PeerId} {mine : LimiterKey → Prop}

/-- The input is not a step of a request of the peer. -/
def spares (peerOf : Nat → PeerId) (peer : PeerId) : Input → Bool
  | .serve i _ => decide (peerOf i ≠ peer)
  | _ => true

/-- The keys that the peer selects are its own. -/
def KeepsApart (codec : HintCodec) (peerOf : Nat → PeerId) (peer : PeerId) (mine : LimiterKey → Prop) : Input → Prop
  | .serve i (.request authorization) => mine (codec.extractLimiterKey authorization (peerOf i)) ↔ peerOf i = peer
  | _ => True

/-- Two gates that differ in what the requests of the peer have left. -/
structure Alike (peerOf : Nat → PeerId) (peer : PeerId) (mine : LimiterKey → Prop) (s t : World) : Prop where
  clock : s.clock = t.clock
  entries : ∀ key, ¬mine key → s.entries key = t.entries key
  holders : ∀ key, ¬mine key → s.holders key = t.holders key
  phases : ∀ i, peerOf i ≠ peer → s.phases i = t.phases i
  keys : ∀ i key, (s.phases i).key? = some key → (mine key ↔ peerOf i = peer)

theorem evict_clock (w : World) (key : LimiterKey) (now : UInt32) (maxIdle : Nat) :
    (evict w key now maxIdle).clock = w.clock ∧ (evict w key now maxIdle).holders = w.holders ∧
      (evict w key now maxIdle).phases = w.phases := by
  unfold evict
  split
  · exact ⟨rfl, rfl, rfl⟩
  · split_ifs
    · exact ⟨rfl, rfl, rfl⟩
    · exact ⟨rfl, rfl, rfl⟩

theorem evict_other {w : World} {key other : LimiterKey} (differs : other ≠ key) (now : UInt32) (maxIdle : Nat) :
    (evict w key now maxIdle).entries other = w.entries other := by
  unfold evict
  split
  · rfl
  · split_ifs
    · exact Function.update_of_ne differs _ _
    · rfl

theorem Alike.evict {s t : World} (alike : Alike peerOf peer mine s t) (key : LimiterKey) (now : UInt32) (maxIdle : Nat) :
    Alike peerOf peer mine (evict s key now maxIdle) (evict t key now maxIdle) := by
  obtain ⟨clock, holders, phases⟩ := evict_clock s key now maxIdle
  obtain ⟨clock', holders', phases'⟩ := evict_clock t key now maxIdle
  constructor
  · rw [clock, clock', alike.clock]
  · intro other foreign
    by_cases same : other = key
    · subst same
      unfold SessionHints.evict
      rw [alike.entries other foreign, alike.holders other foreign, alike.clock]
      cases t.entries other with
      | none => exact alike.entries other foreign
      | some entry =>
        dsimp only
        split_ifs
        · simp
        · exact alike.entries other foreign
    · rw [evict_other same, evict_other same]
      exact alike.entries other foreign
  · rw [holders, holders']
    exact alike.holders
  · rw [phases, phases']
    exact alike.phases
  · rw [phases]
    exact alike.keys

/-- The keys of the requests after a step. -/
theorem Alike.keys_after {s t : World} (alike : Alike peerOf peer mine s t) {i : Nat} {step : RequestStep}
    (apart : KeepsApart codec peerOf peer mine (.serve i step)) {j : Nat} {key : LimiterKey}
    (own : (((SessionHints.step codec rates peerOf s (.serve i step)).1).phases j).key? = some key) :
    mine key ↔ peerOf j = peer := by
  simp only [SessionHints.step, settle_phases] at own
  by_cases acts : j = i
  · subst acts
    rw [Function.update_self] at own
    obtain ⟨keys, -⟩ :=
      (serve_serving codec rates (peerOf j) s.clock (s.phases j) ((s.phases j).key?.bind s.entries) step).key
    rcases keys key own with before | ⟨authorization, rfl, rfl⟩
    · exact alike.keys j key before
    · exact apart
  · rw [Function.update_of_ne acts] at own
    exact alike.keys j key own

/-- A request of another peer finds the same in both. -/
theorem Alike.serve_other {s t : World} (alike : Alike peerOf peer mine s t) {i : Nat} (other : peerOf i ≠ peer)
    {step : RequestStep} (apart : KeepsApart codec peerOf peer mine (.serve i step)) :
    Alike peerOf peer mine (SessionHints.step codec rates peerOf s (.serve i step)).1
        (SessionHints.step codec rates peerOf t (.serve i step)).1 ∧
      (SessionHints.step codec rates peerOf s (.serve i step)).2 =
        (SessionHints.step codec rates peerOf t (.serve i step)).2 := by
  have keys := fun j key => @Alike.keys_after codec rates peerOf peer mine s t alike i step apart j key
  have phase := alike.phases i other
  have foreign : ∀ key, (s.phases i).key? = some key → ¬mine key :=
    fun key own held => other ((alike.keys i key own).mp held)
  have entry : (s.phases i).key?.bind s.entries = (t.phases i).key?.bind t.entries := by
    rw [← phase]
    cases own : (s.phases i).key? with
    | none => rfl
    | some key => exact alike.entries key (foreign key own)
  have served : serve codec rates (peerOf i) s.clock (s.phases i) ((s.phases i).key?.bind s.entries) step =
      serve codec rates (peerOf i) t.clock (t.phases i) ((t.phases i).key?.bind t.entries) step := by
    rw [entry, phase, alike.clock]
  refine ⟨⟨?_, ?_, ?_, ?_, keys⟩, congrArg Served.answer served⟩
  all_goals
    simp only [SessionHints.step, served]
    rw [← phase]
    generalize serve codec rates (peerOf i) t.clock (s.phases i) ((s.phases i).key?.bind t.entries) step = served
  · cases (s.phases i).key? with
    | none => exact alike.clock
    | some key => exact alike.clock
  · intro key away
    cases own : (s.phases i).key? with
    | none => exact alike.entries key away
    | some held =>
      by_cases same : key = held
      · subst same
        simp [settle]
      · simpa [settle, Function.update_of_ne same] using alike.entries key away
  · intro key away
    cases own : (s.phases i).key? with
    | none => exact alike.holders key away
    | some held =>
      by_cases same : key = held
      · subst same
        simp [settle, alike.holders key away]
      · simpa [settle, Function.update_of_ne same] using alike.holders key away
  · intro j spared
    rw [settle_phases, settle_phases]
    by_cases acts : j = i
    · subst acts
      simp
    · simpa [Function.update_of_ne acts] using alike.phases j spared

/-- A request of the peer leaves what the others find as it was. -/
theorem Alike.serve_own {s t : World} (alike : Alike peerOf peer mine s t) {i : Nat} (own : peerOf i = peer)
    {step : RequestStep} (apart : KeepsApart codec peerOf peer mine (.serve i step)) :
    Alike peerOf peer mine (SessionHints.step codec rates peerOf s (.serve i step)).1 t := by
  have keys := fun j key => @Alike.keys_after codec rates peerOf peer mine s t alike i step apart j key
  have ours : ∀ key, (s.phases i).key? = some key → mine key := fun key held => (alike.keys i key held).mpr own
  refine ⟨?_, ?_, ?_, ?_, keys⟩
  all_goals
    simp only [SessionHints.step]
    generalize serve codec rates (peerOf i) s.clock (s.phases i) ((s.phases i).key?.bind s.entries) step = served
  · cases (s.phases i).key? with
    | none => exact alike.clock
    | some key => exact alike.clock
  · intro key away
    cases held : (s.phases i).key? with
    | none => exact alike.entries key away
    | some other =>
      have differs : key ≠ other := by
        rintro rfl
        exact away (ours key held)
      simpa [settle, Function.update_of_ne differs] using alike.entries key away
  · intro key away
    cases held : (s.phases i).key? with
    | none => exact alike.holders key away
    | some other =>
      have differs : key ≠ other := by
        rintro rfl
        exact away (ours key held)
      simpa [settle, Function.update_of_ne differs] using alike.holders key away
  · intro j spared
    rw [settle_phases]
    have differs : j ≠ i := by
      rintro rfl
      exact spared own
    simpa [Function.update_of_ne differs] using alike.phases j spared

/-- A peer whose keys no other peer selects can be left out: the others get the
same answers. -/
theorem answers_without (codec : HintCodec) (rates : ExecuteRates) (peerOf : Nat → PeerId) (peer : PeerId)
    (clock : UInt32) {inputs : List Input}
    (apart : ∀ other, other ≠ peer → ∀ key ∈ selected codec peerOf other inputs,
      key ∉ selected codec peerOf peer inputs) :
    ((machine codec rates peerOf).trace { clock } inputs).filter (fun entry => spares peerOf peer entry.1) =
      (machine codec rates peerOf).trace { clock } (inputs.filter (spares peerOf peer)) := by
  have start : Alike peerOf peer (· ∈ selected codec peerOf peer inputs) { clock } { clock } :=
    ⟨rfl, fun _ _ => rfl, fun _ _ => rfl, fun _ _ => rfl, nofun⟩
  have admissible : ∀ input ∈ inputs,
      KeepsApart codec peerOf peer (· ∈ selected codec peerOf peer inputs) input := by
    intro input member
    unfold KeepsApart
    split
    · rename_i i authorization
      have chosen : codec.extractLimiterKey authorization (peerOf i) ∈ selected codec peerOf (peerOf i) inputs :=
        List.mem_filterMap.mpr ⟨_, member, if_pos rfl⟩
      constructor
      · intro held
        by_contra other
        exact apart (peerOf i) other _ chosen held
      · intro own
        rwa [own] at chosen ⊢
    · trivial
  refine Machine.trace_filter (spares peerOf peer) ?_ ?_ start admissible
  · intro s t input here kept alike
    cases input with
    | tick now =>
      refine ⟨?_, rfl⟩
      change Alike _ _ _ (if s.clock ≤ now then { s with clock := now } else s)
        (if t.clock ≤ now then { t with clock := now } else t)
      rw [← alike.clock]
      split_ifs
      · exact ⟨rfl, alike.entries, alike.holders, alike.phases, alike.keys⟩
      · exact alike
    | evict key now maxIdle => exact ⟨alike.evict key now maxIdle, rfl⟩
    | serve i step => exact alike.serve_other (by simpa [spares] using kept) here
  · intro s t input here dropped alike
    cases input with
    | tick now => cases dropped
    | evict key now maxIdle => cases dropped
    | serve i step => exact alike.serve_own (by simpa [spares] using dropped) here

end Isolation

/-- The requests of a peer select no more keys than it has sessions, at least
one, and no key of another peer. -/
structure Honest (codec : HintCodec) (peerOf : Nat → PeerId) (issued : PeerId → Finset String) (inputs : List Input)
    (peer : PeerId) : Prop where
  few : (selected codec peerOf peer inputs).dedup.length ≤ max 1 (issued peer).card
  apart : ∀ other, other ≠ peer → ∀ key ∈ selected codec peerOf other inputs, key ∉ selected codec peerOf peer inputs

/-- A peer gets no more through than the rate for each of its sessions, and the
others are answered as they would be without it. -/
def Confined (codec : HintCodec) (rates : ExecuteRates) (peerOf : Nat → PeerId) (issued : PeerId → Finset String)
    (clock : UInt32) (inputs : List Input) (peer : PeerId) : Prop :=
  (∀ a b, admitted peerOf peer a b ((machine codec rates peerOf).trace { clock } inputs) ≤
      rates.highest * (b - a + 1) * max 1 (issued peer).card) ∧
    ((machine codec rates peerOf).trace { clock } inputs).filter (fun entry => spares peerOf peer entry.1) =
      (machine codec rates peerOf).trace { clock } (inputs.filter (spares peerOf peer))

/-- A peer that is honest in the choice of its session hints is confined. -/
theorem honest_confined (codec : HintCodec) (rates : ExecuteRates) (peerOf : Nat → PeerId)
    (issued : PeerId → Finset String) (clock : UInt32) {inputs : List Input}
    (prompt : (machine codec rates peerOf).Meets Prompt { clock } inputs) {peer : PeerId}
    (honest : Honest codec peerOf issued inputs peer) : Confined codec rates peerOf issued clock inputs peer := by
  refine ⟨fun a b => ?_, answers_without codec rates peerOf peer clock honest.apart⟩
  calc _ ≤ (selected codec peerOf peer inputs).dedup.length * (rates.highest * (b - a + 1)) :=
        admitted_le codec rates peerOf prompt peer a b
    _ ≤ max 1 (issued peer).card * (rates.highest * (b - a + 1)) := Nat.mul_le_mul_right _ honest.few
    _ = rates.highest * (b - a + 1) * max 1 (issued peer).card := Nat.mul_comm _ _

/-- Payloads with one claim each. -/
def sampleCodec : HintCodec where
  decodeBase64 text :=
    if text = "eyJzZXNzaW9uX2lkIjoiczEifQ" then some (Encoding.utf8 "\x7b\"session_id\":\"s1\"\x7d".toList)
    else if text = "eyJzZXNzaW9uX2lkIjoiczIifQ" then some (Encoding.utf8 "\x7b\"session_id\":\"s2\"\x7d".toList)
    else none
  fromSlice bytes :=
    if bytes = Encoding.utf8 "\x7b\"session_id\":\"s1\"\x7d".toList then some (some "s1")
    else if bytes = Encoding.utf8 "\x7b\"session_id\":\"s2\"\x7d".toList then some (some "s2")
    else none

def firstHint : Option String :=
  some "DPoP eyJhbGciOiJFZERTQSJ9.eyJzZXNzaW9uX2lkIjoiczEifQ.c2ln"

def secondHint : Option String :=
  some "DPoP eyJhbGciOiJFZERTQSJ9.eyJzZXNzaW9uX2lkIjoiczIifQ.c2ln"

/-- One request, from its arrival to the answer of its limiter. -/
def sampleRequest (i : Nat) (authorization : Option String) : List Input :=
  [.request authorization, .readClock, .enter, .check .readClock, .check .load, .check (.compareExchange false)].map
    (.serve i)

def sampleRates : ExecuteRates :=
  ⟨1, 1⟩

def samplePeers (i : Nat) : PeerId :=
  .uid (.ofNat i)

theorem honest_confined_sample :
    Confined sampleCodec sampleRates samplePeers (fun _ => {"s1"}) 10 (sampleRequest 0 firstHint) (.uid 0) := by
  refine honest_confined sampleCodec sampleRates samplePeers (fun _ => {"s1"}) 10 ?_ ⟨?_, ?_⟩
  · refine ⟨trivial, trivial, ?_, trivial, trivial, ?_, trivial⟩
    · intro key second own
      cases own
      rfl
    · intro key second now entry present own
      have same := own.symm.trans (by decide :
        _ = Phase.inside (.session "s1") 10 (.loaded 10 (sampleRates.full (.session "s1") 10)))
      obtain ⟨-, touched, loaded⟩ := Phase.inside.inj same
      exact ⟨touched, (RateLimit.Call.loaded.inj loaded).1⟩
  · decide
  · intro other differs key member
    have none : selected sampleCodec samplePeers other (sampleRequest 0 firstHint) = [] := by
      have foreign : ¬samplePeers 0 = other := fun same => differs same.symm
      simp [selected, sampleRequest, foreign]
    rw [none] at member
    exact absurd member List.not_mem_nil

/-- A peer without a session gets two requests through in one second with two
forged hints, the second of which takes the only token of another peer. -/
theorem forged_hints_admitted :
    ¬Confined sampleCodec sampleRates samplePeers (fun peer => if peer = .uid 1 then {"s2"} else ∅) 10
        (sampleRequest 0 firstHint ++ sampleRequest 0 secondHint ++ sampleRequest 1 secondHint) (.uid 0) ∧
      (.serve 1 (.check .load), .returned (.session "s2") false 10) ∈ (machine sampleCodec sampleRates samplePeers).trace
        { clock := 10 } (sampleRequest 0 secondHint ++ sampleRequest 1 secondHint) ∧
      (.serve 1 (.check (.compareExchange false)), .returned (.session "s2") true 10) ∈
        (machine sampleCodec sampleRates samplePeers).trace { clock := 10 } (sampleRequest 1 secondHint) := by
  refine ⟨?_, by decide, by decide⟩
  rintro ⟨bound, -⟩
  have twice := bound 10 10
  revert twice
  decide

end SessionHints
end Latchgate
