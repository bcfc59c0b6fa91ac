import Latchgate.Auth.KeyCache

namespace Latchgate

inductive ReplayError where
  | alreadySeen (jti : String)
  | cacheUnavailable (message : String)
  deriving DecidableEq

/-- The in-memory cache. Instants and lifetimes are in nanoseconds. -/
structure ReplayCache where
  ttl : Nat
  maxInMemoryEntries : Nat
  map : List (String × Nat) := []
  entryCount : Nat := 0

def nanos : Nat := 10 ^ 9

def replayTtlSecs : Nat := 180

namespace ReplayCache

def inMemoryBounded (ttl maxEntries : Nat) : ReplayCache where
  ttl := ttl
  maxInMemoryEntries := maxEntries

/-- An entry that has expired is overwritten in its place. -/
def memoryCheckAndStore (now : Nat) (jti : String) (cache : ReplayCache) : Except ReplayError Unit × ReplayCache :=
  match cache.map.lookup jti with
  | some inserted =>
    if now - inserted < cache.ttl then (.error (.alreadySeen jti), cache)
    else (.ok (), { cache with map := (jti, now) :: cache.map.filter fun entry => entry.1 ≠ jti })
  | none =>
    if cache.maxInMemoryEntries ≤ cache.entryCount then
      (.error (.cacheUnavailable "replay cache at capacity"), cache)
    else (.ok (), { cache with map := (jti, now) :: cache.map, entryCount := cache.entryCount + 1 })

/-- The sweep also sets the counter right. -/
def evictExpired (now : Nat) (cache : ReplayCache) : Nat × ReplayCache :=
  let kept := cache.map.filter fun entry => now - entry.2 < cache.ttl
  (cache.map.length - kept.length, { cache with map := kept, entryCount := kept.length })

end ReplayCache

structure LeaseClaims where
  sub : String
  jti : String
  sessionId : String
  scope : List String
  jkt : String

inductive AuthError where
  | missingHeader (name : String)
  | invalidLease (reason : String)
  | leaseExpired
  | invalidDpop (kind : DpopRejectKind) (reason : String)
  | replayDetected (jti : String)
  | replayCacheUnavailable

structure AuthContext where
  principal : String
  sessionId : String
  leaseJti : String
  scopes : List String
  dpopJti : String
  senderThumbprint : String

structure OperatorCredential where
  apiKey : String
  dpopJkt : Option String

inductive OperatorAuthError where
  | missingAuthHeader
  | invalidScheme
  | missingDpopHeader
  | invalidToken
  | keyBindingFailed
  | invalidDpopProof (kind : DpopRejectKind) (reason : String)
  | replayDetected (jti : String)
  | replayCacheUnavailable

structure OperatorAuthContext where
  operatorId : String
  senderBinding : String
  proofJti : String

/-- The wall clock reads `epoch` nanoseconds when the process starts. Leases are
verified by a library, with the claims as its result. -/
structure AuthEnv extends DpopEnv where
  epoch : Nat
  verifyLease : Int → String → Except AuthError LeaseClaims
  credentials : List (String × OperatorCredential)

/-- What the attempts of one process share. -/
structure AuthCaches where
  replay : ReplayCache
  keys : DPoPKeyCache

namespace AuthEnv
variable (env : AuthEnv)

def unixNow (now : Nat) : Int :=
  ((env.epoch + now) / nanos : Nat)

def extractDpopToken (header : Option String) : Except AuthError String :=
  match header with
  | none => .error (.missingHeader "Authorization")
  | some value => match stripText "DPoP " value with
    | none => .error (.invalidLease "Authorization header must use 'DPoP' scheme, not 'Bearer'")
    | some token => if token = "" then .error (.invalidLease "empty token in Authorization header") else .ok token

def fromVerifyError : DPoPVerifyError → AuthError
  | .invalidProof kind reason => .invalidDpop kind reason

def fromReplayError : ReplayError → AuthError
  | .alreadySeen jti => .replayDetected jti
  | .cacheUnavailable _ => .replayCacheUnavailable

/-- Lease, proof, and then the identifier of the proof. -/
def authenticate (now : Nat) (authorization dpop : Option String) (htm htu : String) (caches : AuthCaches) :
    Except AuthError AuthContext × AuthCaches :=
  match extractDpopToken authorization with
  | .error e => (.error e, caches)
  | .ok leaseJwt => match dpop with
    | none => (.error (.missingHeader "DPoP"), caches)
    | some proof => match env.verifyLease (env.unixNow now) leaseJwt with
      | .error e => (.error e, caches)
      | .ok claims =>
        match env.verifyDpopProof (env.unixNow now) proof htm htu leaseJwt claims.jkt caches.keys with
        | (.error e, keys) => (.error (fromVerifyError e), { caches with keys })
        | (.ok dpopClaims, keys) => match caches.replay.memoryCheckAndStore now dpopClaims.jti with
          | (.error e, replay) => (.error (fromReplayError e), { replay, keys })
          | (.ok (), replay) =>
            (.ok { principal := claims.sub, sessionId := claims.sessionId, leaseJti := claims.jti, scopes := claims.scope,
                   dpopJti := dpopClaims.jti, senderThumbprint := claims.jkt }, { replay, keys })

def findOperatorByToken (token : String) : Except OperatorAuthError (String × OperatorCredential) :=
  match env.credentials.find? fun entry => entry.2.apiKey = token with
  | some found => .ok found
  | none => .error .invalidToken

def fromOperatorVerifyError : DPoPVerifyError → OperatorAuthError
  | .invalidProof .badKey _ => .keyBindingFailed
  | .invalidProof kind reason => .invalidDpopProof kind reason

def fromOperatorReplayError : ReplayError → OperatorAuthError
  | .alreadySeen jti => .replayDetected jti
  | .cacheUnavailable _ => .replayCacheUnavailable

def verifyDpopOperator (now : Nat) (token proof htm htu : String) (caches : AuthCaches) :
    Except OperatorAuthError OperatorAuthContext × AuthCaches :=
  match env.findOperatorByToken token with
  | .error e => (.error e, caches)
  | .ok (operatorId, credential) => match credential.dpopJkt with
    | none => (.error .keyBindingFailed, caches)
    | some expectedJkt =>
      match env.verifyDpopProof (env.unixNow now) proof htm htu token expectedJkt caches.keys with
      | (.error e, keys) => (.error (fromOperatorVerifyError e), { caches with keys })
      | (.ok claims, keys) => match caches.replay.memoryCheckAndStore now claims.jti with
        | (.error e, replay) => (.error (fromOperatorReplayError e), { replay, keys })
        | (.ok (), replay) =>
          (.ok { operatorId, senderBinding := expectedJkt, proofJti := claims.jti }, { replay, keys })

def verifyOperatorAuth (now : Nat) (authorization dpop : Option String) (htm htu : String) (caches : AuthCaches) :
    Except OperatorAuthError OperatorAuthContext × AuthCaches :=
  match authorization with
  | none => (.error .missingAuthHeader, caches)
  | some header => match stripText "DPoP " header with
    | none => (.error .invalidScheme, caches)
    | some token => match dpop with
      | none => (.error .missingDpopHeader, caches)
      | some proof => env.verifyDpopOperator now token proof htm htu caches

end AuthEnv

namespace Authentication

inductive Op where
  | authenticate (authorization dpop : Option String) (htm htu : String)
  | verifyOperatorAuth (authorization dpop : Option String) (htm htu : String)
  | evictExpired

inductive Answer where
  | agent (result : Except AuthError AuthContext)
  | operator (result : Except OperatorAuthError OperatorAuthContext)
  | evicted (count : Nat)

structure Process where
  caches : AuthCaches
  now : Nat := 0

def perform (env : AuthEnv) (now : Nat) (op : Op) (caches : AuthCaches) : Answer × AuthCaches :=
  match op with
  | .authenticate authorization dpop htm htu =>
    let (result, caches) := env.authenticate now authorization dpop htm htu caches
    (.agent result, caches)
  | .verifyOperatorAuth authorization dpop htm htu =>
    let (result, caches) := env.verifyOperatorAuth now authorization dpop htm htu caches
    (.operator result, caches)
  | .evictExpired =>
    let (count, replay) := caches.replay.evictExpired now
    (.evicted count, { caches with replay })

/-- Some time passes, then an attempt or a sweep is made. -/
def process (env : AuthEnv) : Machine Process (Nat × Op) Answer where
  step s input :=
    let now := s.now + input.1
    let (answer, caches) := perform env now input.2 s.caches
    ({ caches, now }, answer)

def start (capacity keyCapacity : Nat) : Process where
  caches := { replay := .inMemoryBounded (replayTtlSecs * nanos) capacity, keys := .withCapacity keyCapacity }

/-- The proof of an attempt that is accepted. -/
def acceptedProof : (Nat × Op) × Answer → Option String
  | ((_, .authenticate _ dpop _ _), .agent (.ok _)) => dpop
  | ((_, .verifyOperatorAuth _ dpop _ _), .operator (.ok _)) => dpop
  | _ => none

/-- An attempt that is rejected. -/
def rejected : Answer → Bool
  | .agent (.error _) => true
  | .operator (.error _) => true
  | _ => false

end Authentication

/-! What the cache keeps. -/

theorem lookup_filter_of_pos {α β : Type} [BEq α] [LawfulBEq α] {p : α × β → Bool} {entries : List (α × β)} {key : α}
    {value : β} (found : entries.lookup key = some value) (kept : p (key, value) = true) :
    (entries.filter p).lookup key = some value := by
  induction entries with
  | nil => cases found
  | cons entry entries ih =>
    obtain ⟨k, v⟩ := entry
    rw [List.lookup_cons] at found
    by_cases same : key = k
    · subst same
      simp only [beq_self_eq_true, Option.some.injEq] at found
      subst found
      rw [List.filter_cons_of_pos kept, List.lookup_cons, beq_self_eq_true]
    · have differs : (key == k) = false := beq_eq_false_iff_ne.mpr same
      simp only [differs] at found
      by_cases here : p (k, v) = true
      · rw [List.filter_cons_of_pos here, List.lookup_cons]
        simp only [differs]
        exact ih found
      · rw [List.filter_cons_of_neg here]
        exact ih found

namespace ReplayCache
variable {cache : ReplayCache} {now : Nat} {jti : String}

/-- The counter is the number of entries, and there is one entry for a key. -/
structure Counted (cache : ReplayCache) : Prop where
  keys : (cache.map.map Prod.fst).Nodup
  count : cache.entryCount = cache.map.length
  bound : cache.entryCount ≤ cache.maxInMemoryEntries

theorem memoryCheckAndStore_error {e : ReplayError} {after : ReplayCache}
    (refused : cache.memoryCheckAndStore now jti = (.error e, after)) : after = cache := by
  unfold memoryCheckAndStore at refused
  split at refused
  · split_ifs at refused
    · exact (Prod.ext_iff.mp refused).2.symm
    · cases (Prod.ext_iff.mp refused).1
  · split_ifs at refused
    · exact (Prod.ext_iff.mp refused).2.symm
    · cases (Prod.ext_iff.mp refused).1

/-- A key is stored when it has expired or is new and there is room. -/
theorem memoryCheckAndStore_ok {after : ReplayCache} (stored : cache.memoryCheckAndStore now jti = (.ok (), after)) :
    (∃ inserted, cache.map.lookup jti = some inserted ∧ cache.ttl ≤ now - inserted ∧
      after = { cache with map := (jti, now) :: cache.map.filter fun entry => entry.1 ≠ jti }) ∨
    (cache.map.lookup jti = none ∧ cache.entryCount < cache.maxInMemoryEntries ∧
      after = { cache with map := (jti, now) :: cache.map, entryCount := cache.entryCount + 1 }) := by
  unfold memoryCheckAndStore at stored
  split at stored
  · rename_i inserted found
    split_ifs at stored with fresh
    · cases (Prod.ext_iff.mp stored).1
    · exact .inl ⟨inserted, found, Nat.le_of_not_lt fresh, (Prod.ext_iff.mp stored).2.symm⟩
  · rename_i missing
    split_ifs at stored with full
    · cases (Prod.ext_iff.mp stored).1
    · exact .inr ⟨missing, Nat.lt_of_not_le full, (Prod.ext_iff.mp stored).2.symm⟩

theorem ttl_of_stored {after : ReplayCache} (stored : cache.memoryCheckAndStore now jti = (.ok (), after)) :
    after.ttl = cache.ttl := by
  rcases memoryCheckAndStore_ok stored with ⟨_, -, -, rfl⟩ | ⟨-, -, rfl⟩
  · rfl
  · rfl

theorem Counted.store (counted : cache.Counted) {after : ReplayCache}
    (stored : cache.memoryCheckAndStore now jti = (.ok (), after)) : after.Counted := by
  rcases memoryCheckAndStore_ok stored with ⟨inserted, found, -, rfl⟩ | ⟨missing, room, rfl⟩
  · obtain ⟨first, last, split, -⟩ := List.lookup_eq_some_iff.mp found
    have keys := counted.keys
    rw [split, List.map_append, List.map_cons] at keys
    have apart : jti ∉ first.map Prod.fst ++ last.map Prod.fst := (List.nodup_middle.mp keys).notMem
    have others : (cache.map.filter fun entry => decide (entry.1 ≠ jti)) = first ++ last := by
      rw [split, List.filter_append, List.filter_cons_of_neg (by simp)]
      congr 1
      · refine List.filter_eq_self.mpr fun entry member => decide_eq_true ?_
        rintro rfl
        exact apart (List.mem_append_left _ (List.mem_map_of_mem member))
      · refine List.filter_eq_self.mpr fun entry member => decide_eq_true ?_
        rintro rfl
        exact apart (List.mem_append_right _ (List.mem_map_of_mem member))
    constructor
    · simp only [others, List.map_cons, List.map_append]
      exact List.nodup_middle.mp keys
    · rw [counted.count, others, split]
      simp only [List.length_cons, List.length_append]
      omega
    · exact counted.bound
  · constructor
    · refine List.nodup_cons.mpr ⟨fun member => ?_, counted.keys⟩
      obtain ⟨entry, listed, same⟩ := List.mem_map.mp member
      have differs := List.lookup_eq_none_iff.mp missing entry listed
      simp [same] at differs
    · simp only [counted.count, List.length_cons]
    · exact room

theorem Counted.evictExpired (counted : cache.Counted) (now : Nat) : (cache.evictExpired now).2.Counted := by
  constructor
  · exact (List.filter_sublist.map _).nodup counted.keys
  · rfl
  · have shorter := List.length_filter_le (fun entry : String × Nat => decide (now - entry.2 < cache.ttl)) cache.map
    have count := counted.count
    have bound := counted.bound
    simp only [ReplayCache.evictExpired]
    omega

/-- A key that was accepted at `t` is still there, or its lifetime is over. -/
def Held (cache : ReplayCache) (t now : Nat) (jti : String) : Prop :=
  (∃ inserted, t ≤ inserted ∧ cache.map.lookup jti = some inserted) ∨ t + cache.ttl ≤ now

theorem Held.later {t later : Nat} (held : cache.Held t now jti) (after : now ≤ later) : cache.Held t later jti := by
  rcases held with stays | lapsed
  · exact .inl stays
  · exact .inr (lapsed.trans after)

theorem Held.store {t : Nat} {other : String} (held : cache.Held t now jti) (past : t ≤ now) {after : ReplayCache}
    (stored : cache.memoryCheckAndStore now other = (.ok (), after)) : after.Held t now jti := by
  by_cases same : jti = other
  · subst same
    rcases memoryCheckAndStore_ok stored with ⟨_, -, -, rfl⟩ | ⟨-, -, rfl⟩
    · exact .inl ⟨now, past, by simp⟩
    · exact .inl ⟨now, past, by simp⟩
  · have differs : (jti == other) = false := beq_eq_false_iff_ne.mpr same
    rcases held with ⟨inserted, since, found⟩ | lapsed
    · left
      rcases memoryCheckAndStore_ok stored with ⟨_, -, -, rfl⟩ | ⟨-, -, rfl⟩
      · refine ⟨inserted, since, ?_⟩
        simp only [List.lookup_cons, differs]
        exact lookup_filter_of_pos found (decide_eq_true same)
      · refine ⟨inserted, since, ?_⟩
        simp only [List.lookup_cons, differs]
        exact found
    · right
      rcases memoryCheckAndStore_ok stored with ⟨_, -, -, rfl⟩ | ⟨-, -, rfl⟩
      · exact lapsed
      · exact lapsed

theorem Held.evictExpired {t : Nat} (held : cache.Held t now jti) (lives : 0 < cache.ttl) :
    (cache.evictExpired now).2.Held t now jti := by
  rcases held with ⟨inserted, since, found⟩ | lapsed
  · by_cases fresh : now - inserted < cache.ttl
    · exact .inl ⟨inserted, since, lookup_filter_of_pos found (by simpa using fresh)⟩
    · right
      simp only [ReplayCache.evictExpired]
      omega
  · exact .inr lapsed

theorem held_of_stored {after : ReplayCache} (stored : cache.memoryCheckAndStore now jti = (.ok (), after)) :
    after.Held now now jti := by
  rcases memoryCheckAndStore_ok stored with ⟨_, -, -, rfl⟩ | ⟨-, -, rfl⟩
  · exact .inl ⟨now, Nat.le_refl _, by simp⟩
  · exact .inl ⟨now, Nat.le_refl _, by simp⟩

/-- A key is accepted again only when its lifetime is over. -/
theorem Held.expired {t : Nat} (held : cache.Held t now jti) (lives : 0 < cache.ttl) {after : ReplayCache}
    (stored : cache.memoryCheckAndStore now jti = (.ok (), after)) : t + cache.ttl ≤ now := by
  rcases held with ⟨inserted, since, found⟩ | lapsed
  · rcases memoryCheckAndStore_ok stored with ⟨again, found', old, -⟩ | ⟨missing, -, -⟩
    · rw [found, Option.some.injEq] at found'
      omega
    · rw [found] at missing
      cases missing
  · exact lapsed

end ReplayCache

/-! What is accepted. -/

namespace AuthEnv
variable {env : AuthEnv} {now : Nat} {caches : AuthCaches}

/-- The claims that a proof carries. -/
def claimsOf (env : AuthEnv) (proof : String) : Option DPoPClaims := do
  let (_, payload, _) ← DpopEnv.segments proof
  let bytes ← env.decodeBase64 (String.ofList payload)
  (env.parseClaims bytes).toOption

/-- A proof is of the present, up to its age and the skew of the clocks. -/
structure Current (env : AuthEnv) (now : Nat) (proof : String) (claims : DPoPClaims) : Prop where
  carries : env.claimsOf proof = some claims
  recent : env.unixNow now - DpopEnv.iatMaxAgeSecs ≤ claims.iat
  arrived : claims.iat ≤ env.unixNow now + DpopEnv.iatClockSkewSecs

theorem current_of_verified {proof htm htu leaseJwt cnfJkt : String} {keys keys' : DPoPKeyCache} {claims : DPoPClaims}
    (verified : env.verifyDpopProof (env.unixNow now) proof htm htu leaseJwt cnfJkt keys = (.ok claims, keys')) :
    env.Current now proof claims := by
  have signed : ∃ header payload sig, DpopEnv.segments proof = some (header, payload, sig) ∧
      env.checkPayload (env.unixNow now) (String.ofList payload) htm htu leaseJwt = .ok claims := by
    rw [DpopEnv.verifyDpopProof] at verified
    cases split : DpopEnv.segments proof with
    | none => simp [split] at verified
    | some parts =>
      obtain ⟨header, payload, sig⟩ := parts
      simp only [split] at verified
      split at verified
      · cases (Prod.ext_iff.mp verified).1
      · split at verified
        · cases (Prod.ext_iff.mp verified).1
        · exact ⟨header, payload, sig, rfl, (Prod.ext_iff.mp verified).1⟩
  obtain ⟨header, payload, sig, split, checked⟩ := signed
  simp only [DpopEnv.checkPayload, DpopEnv.b64urlDecode, DpopEnv.validateIatWindow, Except.bind_eq_ok, DpopEnv.require_eq_ok,
    DpopEnv.get_eq_ok, decide_eq_true_eq, Except.ok.injEq] at checked
  obtain ⟨bytes, decoded, read, parsed, -, -, -, -, -, -, -, -, -, ⟨-, recent, arrived⟩, -, -, rfl⟩ := checked
  refine ⟨?_, not_lt.mp recent, not_lt.mp arrived⟩
  cases read : env.parseClaims bytes with
  | error e => simp [read, Except.mapError] at parsed
  | ok claims' =>
    simp only [read, Except.mapError, Except.ok.injEq] at parsed
    subst parsed
    simp [claimsOf, split, decoded, read, Except.toOption]

theorem authenticate_error {authorization dpop : Option String} {htm htu : String} {e : AuthError} {after : AuthCaches}
    (ran : env.authenticate now authorization dpop htm htu caches = (.error e, after)) : after.replay = caches.replay := by
  unfold authenticate at ran
  split at ran
  · rw [← (Prod.mk.inj ran).2]
  split at ran
  · rw [← (Prod.mk.inj ran).2]
  split at ran
  · rw [← (Prod.mk.inj ran).2]
  split at ran
  · rw [← (Prod.mk.inj ran).2]
  split at ran
  · rename_i refused
    have same := ReplayCache.memoryCheckAndStore_error refused
    rw [← (Prod.mk.inj ran).2]
    exact same
  · cases (Prod.mk.inj ran).1

/-- An accepted attempt has a proof of the present whose identifier was free. -/
theorem authenticate_ok {authorization dpop : Option String} {htm htu : String} {context : AuthContext}
    {after : AuthCaches} (ran : env.authenticate now authorization dpop htm htu caches = (.ok context, after)) :
    ∃ proof claims, dpop = some proof ∧ env.Current now proof claims ∧
      caches.replay.memoryCheckAndStore now claims.jti = (.ok (), after.replay) := by
  unfold authenticate at ran
  split at ran
  · cases (Prod.mk.inj ran).1
  split at ran
  · cases (Prod.mk.inj ran).1
  split at ran
  · cases (Prod.mk.inj ran).1
  split at ran
  · cases (Prod.mk.inj ran).1
  rename_i proof _ _ _ _ claims keys verified
  split at ran
  · cases (Prod.mk.inj ran).1
  · rename_i stored
    rw [← (Prod.mk.inj ran).2]
    exact ⟨proof, claims, rfl, current_of_verified verified, stored⟩

theorem verifyOperatorAuth_error {authorization dpop : Option String} {htm htu : String} {e : OperatorAuthError}
    {after : AuthCaches} (ran : env.verifyOperatorAuth now authorization dpop htm htu caches = (.error e, after)) :
    after.replay = caches.replay := by
  unfold verifyOperatorAuth verifyDpopOperator at ran
  split at ran
  · rw [← (Prod.mk.inj ran).2]
  split at ran
  · rw [← (Prod.mk.inj ran).2]
  split at ran
  · rw [← (Prod.mk.inj ran).2]
  split at ran
  · rw [← (Prod.mk.inj ran).2]
  split at ran
  · rw [← (Prod.mk.inj ran).2]
  split at ran
  · rw [← (Prod.mk.inj ran).2]
  split at ran
  · rename_i refused
    have same := ReplayCache.memoryCheckAndStore_error refused
    rw [← (Prod.mk.inj ran).2]
    exact same
  · cases (Prod.mk.inj ran).1

theorem verifyOperatorAuth_ok {authorization dpop : Option String} {htm htu : String} {context : OperatorAuthContext}
    {after : AuthCaches} (ran : env.verifyOperatorAuth now authorization dpop htm htu caches = (.ok context, after)) :
    ∃ proof claims, dpop = some proof ∧ env.Current now proof claims ∧
      caches.replay.memoryCheckAndStore now claims.jti = (.ok (), after.replay) := by
  unfold verifyOperatorAuth verifyDpopOperator at ran
  split at ran
  · cases (Prod.mk.inj ran).1
  split at ran
  · cases (Prod.mk.inj ran).1
  split at ran
  · cases (Prod.mk.inj ran).1
  rename_i proof
  split at ran
  · cases (Prod.mk.inj ran).1
  split at ran
  · cases (Prod.mk.inj ran).1
  split at ran
  · cases (Prod.mk.inj ran).1
  rename_i claims keys verified
  split at ran
  · cases (Prod.mk.inj ran).1
  · rename_i stored
    rw [← (Prod.mk.inj ran).2]
    exact ⟨proof, claims, rfl, current_of_verified verified, stored⟩

end AuthEnv

namespace Authentication
variable {env : AuthEnv} {now : Nat} {caches : AuthCaches}

/-- An attempt accepts a proof of the present whose identifier was free, or it
accepts none and leaves the replay cache as it is. A sweep evicts. -/
theorem perform_cases (env : AuthEnv) (now elapsed : Nat) (op : Op) (caches : AuthCaches) :
    (∃ proof claims, acceptedProof ((elapsed, op), (perform env now op caches).1) = some proof ∧
      env.Current now proof claims ∧
      caches.replay.memoryCheckAndStore now claims.jti = (.ok (), (perform env now op caches).2.replay) ∧
      rejected (perform env now op caches).1 = false) ∨
    (acceptedProof ((elapsed, op), (perform env now op caches).1) = none ∧
      (perform env now op caches).2.replay = caches.replay) ∨
    (acceptedProof ((elapsed, op), (perform env now op caches).1) = none ∧
      rejected (perform env now op caches).1 = false ∧
      (perform env now op caches).2.replay = (caches.replay.evictExpired now).2) := by
  cases op with
  | authenticate authorization dpop htm htu =>
    rcases ran : env.authenticate now authorization dpop htm htu caches with ⟨_ | context, after⟩
    · right; left
      simp only [perform, ran, acceptedProof, true_and]
      exact AuthEnv.authenticate_error ran
    · left
      obtain ⟨proof, claims, presented, current, stored⟩ := AuthEnv.authenticate_ok ran
      simp only [perform, ran, acceptedProof, rejected]
      exact ⟨proof, claims, presented, current, stored, trivial⟩
  | verifyOperatorAuth authorization dpop htm htu =>
    rcases ran : env.verifyOperatorAuth now authorization dpop htm htu caches with ⟨_ | context, after⟩
    · right; left
      simp only [perform, ran, acceptedProof, true_and]
      exact AuthEnv.verifyOperatorAuth_error ran
    · left
      obtain ⟨proof, claims, presented, current, stored⟩ := AuthEnv.verifyOperatorAuth_ok ran
      simp only [perform, ran, acceptedProof, rejected]
      exact ⟨proof, claims, presented, current, stored, trivial⟩
  | evictExpired => exact .inr (.inr ⟨rfl, rfl, rfl⟩)

theorem rejected_keeps {op : Op} (refused : rejected (perform env now op caches).1 = true) :
    (perform env now op caches).2.replay = caches.replay := by
  rcases perform_cases env now 0 op caches with ⟨_, _, -, -, -, accepts⟩ | ⟨-, same⟩ | ⟨-, sweeps, -⟩
  · rw [refused] at accepts
    cases accepts
  · exact same
  · rw [refused] at sweeps
    cases sweeps

/-- Every proof that was accepted is held until it is too old, and none was
accepted twice. -/
structure Once (env : AuthEnv) (past : List ((Nat × Op) × Answer)) (s : Process) : Prop where
  counted : s.caches.replay.Counted
  ttl : s.caches.replay.ttl = replayTtlSecs * nanos
  nodup : (past.filterMap acceptedProof).Nodup
  held : ∀ proof ∈ past.filterMap acceptedProof, ∃ t claims, t ≤ s.now ∧ env.Current t proof claims ∧
    s.caches.replay.Held t s.now claims.jti

/-- The lifetime of an entry is longer than a proof can stay current. -/
theorem not_current_of_expired {t : Nat} {proof : String} {claims claims' : DPoPClaims}
    (was : env.Current t proof claims) (lapsed : t + replayTtlSecs * nanos ≤ now) :
    ¬env.Current now proof claims' := by
  intro still
  have same : claims = claims' := Option.some.inj (was.carries.symm.trans still.carries)
  subst same
  have arrived := was.arrived
  have recent := still.recent
  simp only [AuthEnv.unixNow, DpopEnv.iatMaxAgeSecs, DpopEnv.iatClockSkewSecs, replayTtlSecs, nanos] at arrived recent lapsed
  omega

/-- What a step without an accepted proof leaves. -/
theorem Once.idle {past : List ((Nat × Op) × Answer)} {s : Process} (once : Once env past s) {entry : (Nat × Op) × Answer}
    (none : acceptedProof entry = none) {caches : AuthCaches} {now : Nat} (counted : caches.replay.Counted)
    (ttl : caches.replay.ttl = replayTtlSecs * nanos) (later : s.now ≤ now)
    (holds : ∀ t jti, s.caches.replay.Held t now jti → caches.replay.Held t now jti) :
    Once env (past ++ [entry]) { caches, now } := by
  have same : (past ++ [entry]).filterMap acceptedProof = past.filterMap acceptedProof := by
    simp [List.filterMap_append, none]
  refine ⟨counted, ttl, same ▸ once.nodup, ?_⟩
  intro proof member
  rw [same] at member
  obtain ⟨t, claims, before, current, held⟩ := once.held proof member
  exact ⟨t, claims, before.trans later, current, holds t claims.jti (held.later later)⟩

theorem Once.step {past : List ((Nat × Op) × Answer)} {s : Process} (once : Once env past s) (input : Nat × Op) :
    Once env (past ++ [(input, ((process env).step s input).2)]) ((process env).step s input).1 := by
  obtain ⟨elapsed, op⟩ := input
  change Once env (past ++ [((elapsed, op), (perform env (s.now + elapsed) op s.caches).1)])
    { caches := (perform env (s.now + elapsed) op s.caches).2, now := s.now + elapsed }
  have later : s.now ≤ s.now + elapsed := Nat.le_add_right _ _
  have lives : 0 < s.caches.replay.ttl := by
    rw [once.ttl]
    decide
  rcases perform_cases env (s.now + elapsed) elapsed op s.caches with
    ⟨proof, claims, accepts, current, stored, -⟩ | ⟨none, same⟩ | ⟨none, -, swept⟩
  · have proofs : (past ++ [((elapsed, op), (perform env (s.now + elapsed) op s.caches).1)]).filterMap acceptedProof =
        past.filterMap acceptedProof ++ [proof] := by
      rw [List.filterMap_append, List.filterMap_cons, accepts, List.filterMap_nil]
    constructor
    · exact once.counted.store stored
    · exact (ReplayCache.ttl_of_stored stored).trans once.ttl
    · rw [proofs]
      refine List.nodup_append.mpr ⟨once.nodup, List.nodup_singleton _, ?_⟩
      intro earlier member fresh single
      rw [List.mem_singleton.mp single]
      rintro rfl
      obtain ⟨t, claims', before, was, held⟩ := once.held earlier member
      have identifier : claims' = claims := Option.some.inj (was.carries.symm.trans current.carries)
      subst identifier
      have lapsed := (held.later later).expired lives stored
      rw [once.ttl] at lapsed
      exact not_current_of_expired was lapsed current
    · rw [proofs]
      intro earlier member
      rcases List.mem_append.mp member with old | single
      · obtain ⟨t, claims', before, was, held⟩ := once.held earlier old
        exact ⟨t, claims', before.trans later, was, (held.later later).store (before.trans later) stored⟩
      · rw [List.mem_singleton.mp single]
        exact ⟨s.now + elapsed, claims, Nat.le_refl _, current, ReplayCache.held_of_stored stored⟩
  · refine once.idle none ?_ ?_ later ?_
    · rw [same]
      exact once.counted
    · rw [same]
      exact once.ttl
    · intro t jti held
      rw [same]
      exact held
  · refine once.idle none ?_ ?_ later ?_
    · rw [swept]
      exact once.counted.evictExpired _
    · rw [swept]
      exact once.ttl
    · intro t jti held
      rw [swept]
      exact held.evictExpired lives

theorem once_start (env : AuthEnv) (capacity keyCapacity : Nat) : Once env [] (start capacity keyCapacity) := by
  constructor
  · exact ⟨List.nodup_nil, rfl, Nat.zero_le _⟩
  · rfl
  · exact List.nodup_nil
  · intro proof member
    cases member

theorem perform_bound (env : AuthEnv) (now : Nat) (op : Op) (caches : AuthCaches) :
    (perform env now op caches).2.replay.maxInMemoryEntries = caches.replay.maxInMemoryEntries := by
  rcases perform_cases env now 0 op caches with ⟨_, claims, -, -, stored, -⟩ | ⟨-, same⟩ | ⟨-, -, swept⟩
  · rcases ReplayCache.memoryCheckAndStore_ok stored with ⟨_, -, -, after⟩ | ⟨-, -, after⟩
    · rw [after]
    · rw [after]
  · rw [same]
  · rw [swept]
    rfl

/-- However attempts and sweeps are mixed, no proof is accepted twice, a
rejected attempt leaves the replay cache as it is, and the counter is the
number of entries, within the capacity. -/
theorem no_proof_accepted_twice (env : AuthEnv) (capacity keyCapacity : Nat) (inputs : List (Nat × Op)) :
    let s := (process env).run (start capacity keyCapacity) inputs
    (((process env).trace (start capacity keyCapacity) inputs).filterMap acceptedProof).Nodup ∧
      (∀ input, rejected ((process env).step s input).2 = true →
        ((process env).step s input).1.caches.replay = s.caches.replay) ∧
      s.caches.replay.entryCount = s.caches.replay.map.length ∧ s.caches.replay.entryCount ≤ capacity := by
  intro s
  have once : Once env ((process env).trace (start capacity keyCapacity) inputs) s :=
    Machine.trace_invariant (once_start env capacity keyCapacity) (fun _ _ input once => once.step input) inputs
  have capped : s.caches.replay.maxInMemoryEntries = capacity :=
    @Machine.run_invariant _ _ _ _ (fun t : Process => t.caches.replay.maxInMemoryEntries = capacity)
      (fun t input bound => (perform_bound env _ input.2 t.caches).trans bound) _ rfl inputs
  exact ⟨once.nodup, fun input refused => rejected_keeps refused, once.counted.count, capped ▸ once.counted.bound⟩

end Authentication
end Latchgate
