import Latchgate.Machine.Run
import Latchgate.Webhooks.EndpointConfig
import Mathlib.Algebra.Group.Nat.Defs

namespace Latchgate

inductive DeliveryError where
  | ssrfBlocked (reason : String)
  | dnsResolution (host source : String)
  | clientError (status : Nat) (body : String)
  | serverError (status : Nat) (body : String)
  | transport (reason : String)
  | serialization (reason : String)

def DeliveryError.isRetryable : DeliveryError → Bool
  | .serverError _ _ | .transport _ | .dnsResolution _ _ => true
  | .clientError _ _ | .ssrfBlocked _ | .serialization _ => false

def DeliveryError.display : DeliveryError → String
  | .ssrfBlocked reason => "SSRF blocked: " ++ reason
  | .dnsResolution host source => "DNS resolution failed for " ++ host ++ ": " ++ source
  | .clientError status body => "HTTP " ++ toString status ++ " (client error, not retried): " ++ body
  | .serverError status body => "HTTP " ++ toString status ++ " (server error): " ++ body
  | .transport reason => "request failed: " ++ reason
  | .serialization reason => "payload serialization failed: " ++ reason

/-- What comes back for a POST. -/
inductive Reply where
  | response (status : Nat) (body : String)
  | failed (reason : String)

structure Answer where
  took : Nat := 0
  reply : Reply

/-- A POST that was made, with the endpoint that it was made for. Times are in
nanoseconds. -/
structure Post where
  endpoint : WebhookEndpoint
  sentAt : Nat
  endedAt : Nat

inductive DeliveryOutcome where
  | delivered
  | failed (e : DeliveryError)
  | timedOut

structure Sent where
  posts : List Post
  endedAt : Nat
  outcome : DeliveryOutcome

@[irreducible]
def secs (n : Nat) : Nat :=
  10 ^ 9 * n

theorem secs_le {a b : Nat} : secs a ≤ secs b ↔ a ≤ b := by
  unfold secs
  omega

theorem secs_pos {n : Nat} (positive : 0 < n) : 0 < secs n := by
  unfold secs
  omega

/-- The deadline, if there is one, has come. -/
def reached (deadline : Option Nat) (t : Nat) : Bool :=
  deadline.any fun d => d ≤ t

section Deliver
variable (endpoint : WebhookEndpoint)

/-- How long one attempt takes, and its result. -/
def attemptDelivery (answer : Answer) : Nat × Except DeliveryError Unit :=
  if secs endpoint.timeoutSeconds ≤ answer.took then
    (secs endpoint.timeoutSeconds, .error (.transport "operation timed out"))
  else
    match answer.reply with
    | .failed reason => (answer.took, .error (.transport reason))
    | .response status body =>
      let text := String.ofList (body.toList.take 4096)
      if 200 ≤ status ∧ status < 300 then (answer.took, .ok ())
      else if 400 ≤ status ∧ status < 500 then (answer.took, .error (.clientError status text))
      else (answer.took, .error (.serverError status text))

/-- The delay before an attempt after the first one. -/
def retryDelay (retry : Nat) : Nat :=
  (endpoint.retryBackoffSeconds[retry]?).getD 30

variable (answers : Nat → Answer) (deadline : Option Nat)

/-- The attempts that are left, from the number of the next one on. What is
under way at the deadline is given up. -/
def deliverFrom : Nat → Nat → Nat → Option DeliveryError → Sent
  | 0, _, now, lastErr => ⟨[], now, .failed (lastErr.getD (.ssrfBlocked "no delivery attempts made"))⟩
  | left + 1, attempt, now, _ =>
    let start := if attempt = 0 then now else now + secs (retryDelay endpoint (attempt - 1))
    if reached deadline start then ⟨[], deadline.getD start, .timedOut⟩
    else
      let tried := attemptDelivery endpoint (answers attempt)
      let stop := start + tried.1
      if reached deadline stop then ⟨[⟨endpoint, start, deadline.getD stop⟩], deadline.getD stop, .timedOut⟩
      else
        match tried.2 with
        | .ok () => ⟨[⟨endpoint, start, stop⟩], stop, .delivered⟩
        | .error e =>
          if e.isRetryable = false then ⟨[⟨endpoint, start, stop⟩], stop, .failed e⟩
          else
            let later := deliverFrom left (attempt + 1) stop (some e)
            { later with posts := ⟨endpoint, start, stop⟩ :: later.posts }

/-- `prepared` is how long it takes to format the payload, resolve the host and
build the client, and what comes of it. -/
def deliver (prepared : Nat × Except DeliveryError Unit) (now : Nat) : Sent :=
  let ready := now + prepared.1
  if reached deadline ready then ⟨[], deadline.getD ready, .timedOut⟩
  else
    match prepared.2 with
    | .error e => ⟨[], ready, .failed e⟩
    | .ok () => deliverFrom endpoint answers deadline (1 + endpoint.maxRetries) 0 ready none

end Deliver

/-- A row of the outbox, as the poller goes through it. -/
structure Entry where
  endpointName : String
  attempts : Nat := 0
  nextAttemptAt : Nat
  delivered : Bool := false
  deadLettered : Bool := false
  lastError : Option String := none

namespace Entry

/-- The delay until the next cycle, after so many failed ones. -/
def cycleDelay (backoffSeconds : List Nat) (attempts : Nat) : Nat :=
  (backoffSeconds[min attempts (backoffSeconds.length - 1)]?).getD 60

def recordFailure (error : String) (maxAttempts : Nat) (backoffSeconds : List Nat) (now : Nat) (entry : Entry) : Entry :=
  let newAttempts := entry.attempts + 1
  if maxAttempts ≤ newAttempts then { entry with attempts := newAttempts, lastError := some error, deadLettered := true }
  else
    { entry with
      attempts := newAttempts
      lastError := some error
      nextAttemptAt := now + secs (cycleDelay backoffSeconds newAttempts) }

/-- What is recorded of a delivery. -/
def record (entry : Entry) (endpoint : WebhookEndpoint) (now : Nat) : DeliveryOutcome → Entry
  | .delivered => { entry with delivered := true }
  | .failed e => entry.recordFailure e.display endpoint.maxRetries endpoint.retryBackoffSeconds now
  | .timedOut => entry.recordFailure "delivery timed out" endpoint.maxRetries endpoint.retryBackoffSeconds now

/-- Neither delivered nor dead-lettered. -/
def Pending (entry : Entry) : Prop :=
  entry.delivered = false ∧ entry.deadLettered = false

instance (entry : Entry) : Decidable entry.Pending :=
  inferInstanceAs (Decidable (_ ∧ _))

end Entry

/-- What a poll cycle finds: how long after the last one it comes and until the
turn of the entry, what comes of the payload and of the delivery, and how long
it takes to record that. -/
structure PollCycle where
  idle : Nat := 0
  queued : Nat := 0
  decoded : Except String Unit := .ok ()
  prepared : Nat × Except DeliveryError Unit := (0, .ok ())
  answers : Nat → Answer
  late : Nat := 0

/-- An entry and all POSTs that were made for it. -/
structure Polling where
  entry : Entry
  now : Nat
  posts : List Post := []

/-- What the poller makes of a due entry at its turn. -/
def pollEntry (endpoints : List WebhookEndpoint) (cycle : PollCycle) (start : Nat) (s : Polling) : Polling :=
  match endpoints.find? fun e => e.name = s.entry.endpointName with
  | none =>
    { s with
      now := start + cycle.late
      entry := s.entry.recordFailure "endpoint removed from config" 0 [] (start + cycle.late) }
  | some endpoint =>
    match cycle.decoded with
    | .error e =>
      { s with
        now := start + cycle.late
        entry := s.entry.recordFailure ("payload deserialization failed: " ++ e) 0 [] (start + cycle.late) }
    | .ok () =>
      let sent := deliver endpoint cycle.answers (some (start + secs (endpoint.timeoutSeconds + 5))) cycle.prepared start
      { now := sent.endedAt + cycle.late
        posts := s.posts ++ sent.posts
        entry := s.entry.record endpoint (sent.endedAt + cycle.late) sent.outcome }

/-- A cycle of the poller, as far as one entry is concerned. -/
def pollAndDeliver (endpoints : List WebhookEndpoint) (cycle : PollCycle) (s : Polling) : Polling :=
  let polledAt := s.now + cycle.idle
  if s.entry.Pending ∧ s.entry.nextAttemptAt ≤ polledAt then pollEntry endpoints cycle (polledAt + cycle.queued) s
  else { s with now := polledAt }

namespace Polling

def machine (endpoints : List WebhookEndpoint) : Machine Polling PollCycle Unit where
  step s cycle := (pollAndDeliver endpoints cycle s, ())

/-- An entry that was just put in. -/
def enqueued (endpointName : String) (createdAt : Nat) : Polling where
  entry := { endpointName, nextAttemptAt := createdAt }
  now := createdAt

end Polling

/-- Between one POST and the next there is the delay that has its number. -/
def Waits (delays : List Nat) (posts : List Post) : Prop :=
  ∀ k p q delay, posts[k]? = some p → posts[k + 1]? = some q → delays[k]? = some delay → p.endedAt + secs delay ≤ q.sentAt

/-- The POSTs of one event keep to the settings of the endpoint. -/
structure KeepsTo (v : WebhookEndpoint) (posts : List Post) : Prop where
  sent : ∀ p ∈ posts, v.url = p.endpoint.url ∧ v.secret = p.endpoint.secret ∧ v.headers = p.endpoint.headers
  count : posts.length ≤ 1 + v.maxRetries
  waits : Waits v.retryBackoffSeconds posts

/-- However the deliveries of an event go, its POSTs keep to the settings. -/
def PollsAs (endpoints : List WebhookEndpoint) (v : WebhookEndpoint) : Prop :=
  ∀ createdAt cycles, KeepsTo v ((Polling.machine endpoints).run (Polling.enqueued v.name createdAt) cycles).posts

/-- There is one retry at most, or the first delay outlasts the time for a
delivery and the delay of a cycle each delay before it. -/
def Paced (e : WebhookEndpoint) : Prop :=
  e.maxRetries ≤ 1 ∨ e.timeoutSeconds + 5 ≤ retryDelay e 0 ∧
    ∀ c, 1 ≤ c → c < e.maxRetries → ∀ k < c, ∀ delay,
      (WebhookEnv.resizeBackoff e.maxRetries e.retryBackoffSeconds)[k]? = some delay →
        delay ≤ Entry.cycleDelay e.retryBackoffSeconds c

/-! The delays between POSTs. -/

theorem waits_of_short {delays : List Nat} {posts : List Post} (short : posts.length ≤ 1) : Waits delays posts := by
  intro k p q delay _ second
  obtain ⟨bound, -⟩ := List.getElem?_eq_some_iff.mp second
  omega

theorem waits_concat {delays : List Nat} {posts : List Post} {q : Post} (waits : Waits delays posts)
    (last : ∀ p delay, posts.getLast? = some p → delays[posts.length - 1]? = some delay → p.endedAt + secs delay ≤ q.sentAt) :
    Waits delays (posts ++ [q]) := by
  intro k p r delay first second has
  obtain ⟨bound, -⟩ := List.getElem?_eq_some_iff.mp second
  rw [List.length_append, List.length_singleton] at bound
  rw [List.getElem?_append_left (by omega)] at first
  rcases Nat.lt_or_ge (k + 1) posts.length with inside | outside
  · rw [List.getElem?_append_left inside] at second
    exact waits k p r delay first second has
  · have here : k = posts.length - 1 := by omega
    rw [List.getElem?_append_right outside, show k + 1 - posts.length = 0 by omega, List.getElem?_cons_zero,
      Option.some.injEq] at second
    rw [here, ← List.getLast?_eq_getElem?] at first
    rw [← second]
    exact last p delay first (here ▸ has)

section Deliver
variable {endpoint : WebhookEndpoint} {answers : Nat → Answer} {deadline : Option Nat}

/-- What is known of the attempts from a number on. -/
structure Attempted (endpoint : WebhookEndpoint) (attempt left now : Nat) (sent : Sent) : Prop where
  count : sent.posts.length ≤ left
  later : now ≤ sent.endedAt
  own : ∀ p ∈ sent.posts, p.endpoint = endpoint ∧ now ≤ p.sentAt ∧ p.endedAt ≤ sent.endedAt
  first : ∀ p, sent.posts[0]? = some p → attempt ≠ 0 → now + secs (retryDelay endpoint (attempt - 1)) ≤ p.sentAt
  spaced : ∀ k p q, sent.posts[k]? = some p → sent.posts[k + 1]? = some q →
    p.endedAt + secs (retryDelay endpoint (attempt + k)) ≤ q.sentAt

theorem reached_getD {t : Nat} (passed : reached deadline t = true) : deadline.getD t ≤ t := by
  cases deadline with
  | none => cases passed
  | some d => exact of_decide_eq_true passed

theorem not_reached_lt {now t : Nat} (going : reached deadline now = false) (passed : reached deadline t = true) :
    now < deadline.getD t := by
  cases deadline with
  | none => cases passed
  | some d =>
    have before := of_decide_eq_false going
    rw [Option.getD_some]
    omega

theorem Attempted.none {attempt left now stop : Nat} {outcome : DeliveryOutcome} (later : now ≤ stop) :
    Attempted endpoint attempt left now ⟨[], stop, outcome⟩ where
  count := Nat.zero_le left
  later := later
  own _ member := absurd member List.not_mem_nil
  first _ here := nomatch here
  spaced _ _ _ here := nomatch here

theorem Attempted.cons {attempt left now start stop : Nat} {sent : Sent}
    (begun : start = if attempt = 0 then now else now + secs (retryDelay endpoint (attempt - 1))) (took : start ≤ stop)
    (rest : Attempted endpoint (attempt + 1) left stop sent) :
    Attempted endpoint attempt (left + 1) now { sent with posts := ⟨endpoint, start, stop⟩ :: sent.posts } := by
  have after : now ≤ start := by
    rw [begun]
    split_ifs <;> omega
  refine ⟨Nat.succ_le_succ rest.count, Nat.le_trans after (Nat.le_trans took rest.later), ?_, ?_, ?_⟩
  · intro p member
    rcases List.mem_cons.mp member with rfl | member
    · exact ⟨rfl, after, rest.later⟩
    · obtain ⟨own, begins, ends⟩ := rest.own p member
      exact ⟨own, by omega, ends⟩
  · intro p here again
    rw [List.getElem?_cons_zero, Option.some.injEq] at here
    rw [← here, begun, if_neg again]
  · intro k p q one two
    cases k with
    | zero =>
      rw [List.getElem?_cons_zero, Option.some.injEq] at one
      rw [List.getElem?_cons_succ] at two
      rw [← one]
      exact rest.first q two (Nat.succ_ne_zero attempt)
    | succ k =>
      rw [List.getElem?_cons_succ] at one two
      have next := rest.spaced k p q one two
      rwa [show attempt + 1 + k = attempt + (k + 1) by omega] at next

theorem deliverFrom_attempted (left attempt now : Nat) (lastErr : Option DeliveryError) (going : reached deadline now = false) :
    Attempted endpoint attempt left now (deliverFrom endpoint answers deadline left attempt now lastErr) := by
  induction left generalizing attempt now lastErr with
  | zero => exact .none (Nat.le_refl now)
  | succ left ih =>
    rw [deliverFrom]
    generalize begun : (if attempt = 0 then now else now + secs (retryDelay endpoint (attempt - 1))) = start
    generalize attemptDelivery endpoint (answers attempt) = tried
    dsimp only
    by_cases cut : reached deadline start = true
    · rw [if_pos cut]
      exact .none (Nat.le_of_lt (not_reached_lt going cut))
    · rw [if_neg cut]
      rw [Bool.not_eq_true] at cut
      by_cases given : reached deadline (start + tried.1) = true
      · rw [if_pos given]
        have took := Nat.le_of_lt (not_reached_lt cut given)
        exact @Attempted.cons endpoint _ _ _ _ _ ⟨[], _, _⟩ begun.symm took (.none (Nat.le_refl _))
      · rw [if_neg given]
        have took : start ≤ start + tried.1 := Nat.le_add_right _ _
        cases tried.2 with
        | ok _ => exact @Attempted.cons endpoint _ _ _ _ _ ⟨[], _, _⟩ begun.symm took (.none (Nat.le_refl _))
        | error e =>
          dsimp only
          by_cases final : e.isRetryable = false
          · rw [if_pos final]
            exact @Attempted.cons endpoint _ _ _ _ _ ⟨[], _, _⟩ begun.symm took (.none (Nat.le_refl _))
          · rw [if_neg final]
            exact .cons begun.symm took (ih (attempt + 1) _ (some e) (by simpa using given))

theorem deliver_attempted (prepared : Nat × Except DeliveryError Unit) (now : Nat) (going : reached deadline now = false) :
    Attempted endpoint 0 (1 + endpoint.maxRetries) now (deliver endpoint answers deadline prepared now) := by
  unfold deliver
  dsimp only
  by_cases cut : reached deadline (now + prepared.1) = true
  · rw [if_pos cut]
    exact .none (Nat.le_of_lt (not_reached_lt going cut))
  · rw [if_neg cut]
    cases prepared.2 with
    | error e => exact .none (Nat.le_add_right _ _)
    | ok _ =>
      have made := @deliverFrom_attempted endpoint answers deadline (1 + endpoint.maxRetries) 0 (now + prepared.1) none
        (by simpa using cut)
      refine ⟨made.count, Nat.le_trans (Nat.le_add_right _ _) made.later, fun p member => ?_, ?_, made.spaced⟩
      · obtain ⟨own, begins, ends⟩ := made.own p member
        exact ⟨own, Nat.le_trans (Nat.le_add_right _ _) begins, ends⟩
      · exact fun p _ again => absurd rfl again

/-- With a deadline or none, a delivery keeps to the settings it is made with. -/
theorem deliver_keeps (prepared : Nat × Except DeliveryError Unit) (now : Nat) (going : reached deadline now = false) :
    KeepsTo endpoint (deliver endpoint answers deadline prepared now).posts := by
  have made := @deliver_attempted endpoint answers deadline prepared now going
  refine ⟨fun p member => ?_, made.count, fun k p q delay one two has => ?_⟩
  · rw [(made.own p member).1]
    exact ⟨rfl, rfl, rfl⟩
  · have next := made.spaced k p q one two
    rwa [Nat.zero_add, retryDelay, has, Option.getD_some] at next

theorem deliverFrom_cut {left attempt now : Nat} {lastErr : Option DeliveryError} (again : attempt ≠ 0)
    (cut : reached deadline (now + secs (retryDelay endpoint (attempt - 1))) = true) :
    (deliverFrom endpoint answers deadline left attempt now lastErr).posts = [] := by
  cases left with
  | zero => rfl
  | succ left =>
    rw [deliverFrom]
    simp only [if_neg again, if_pos cut]

theorem reached_later {t u : Nat} (passed : reached deadline t = true) (later : t ≤ u) : reached deadline u = true := by
  cases deadline with
  | none => cases passed
  | some d => exact decide_eq_true (Nat.le_trans (of_decide_eq_true passed) later)

/-- Where the first delay leads past the deadline there is one POST at most. -/
theorem deliver_once (prepared : Nat × Except DeliveryError Unit) (now : Nat)
    (long : reached deadline (now + secs (retryDelay endpoint 0)) = true) :
    (deliver endpoint answers deadline prepared now).posts.length ≤ 1 := by
  unfold deliver
  dsimp only
  by_cases cut : reached deadline (now + prepared.1) = true
  · rw [if_pos cut]
    exact Nat.zero_le 1
  · rw [if_neg cut]
    cases prepared.2 with
    | error e => exact Nat.zero_le 1
    | ok _ =>
      rw [Nat.add_comm 1, deliverFrom]
      simp only [if_true]
      generalize attemptDelivery endpoint (answers 0) = tried
      by_cases given : reached deadline (now + prepared.1 + tried.1) = true
      · rw [if_neg cut, if_pos given]
        exact Nat.le_refl 1
      · rw [if_neg cut, if_neg given]
        cases tried.2 with
        | ok _ => exact Nat.le_refl 1
        | error e =>
          dsimp only
          by_cases final : e.isRetryable = false
          · rw [if_pos final]
            exact Nat.le_refl 1
          · rw [if_neg final]
            have past := @reached_later deadline _ (now + prepared.1 + tried.1 + secs (retryDelay endpoint 0)) long (by omega)
            have none_ := @deliverFrom_cut endpoint answers deadline endpoint.maxRetries 1 (now + prepared.1 + tried.1) (some e)
              (Nat.succ_ne_zero 0) past
            simp only [Nat.zero_add, none_, List.length_singleton, Nat.le_refl]

end Deliver

theorem not_reached_before {now time : Nat} (positive : 0 < time) : reached (some (now + time)) now = false := by
  simp only [reached, Option.any_some, decide_eq_false_iff_not]
  omega

theorem reached_after {now time delay : Nat} (further : time ≤ delay) : reached (some (now + time)) (now + delay) = true := by
  simp only [reached, Option.any_some, decide_eq_true_eq]
  omega

/-! Cycles. -/

section Cycles
variable {endpoints : List WebhookEndpoint} {e : WebhookEndpoint} {cycle : PollCycle} {s : Polling}

/-- What an entry goes through at its turn. -/
structure Turn (e : WebhookEndpoint) (s s' : Polling) (start : Nat) (sent : Sent) : Prop where
  pending : s.entry.Pending
  due : s.entry.nextAttemptAt ≤ start
  made : Attempted e 0 (1 + e.maxRetries) start sent
  once : e.timeoutSeconds + 5 ≤ retryDelay e 0 → sent.posts.length ≤ 1
  posts : s'.posts = s.posts ++ sent.posts
  name : s'.entry.endpointName = s.entry.endpointName
  next : ¬s'.entry.Pending ∨ s.entry.attempts + 1 < e.maxRetries ∧ s'.entry.attempts = s.entry.attempts + 1 ∧
    sent.endedAt + secs (Entry.cycleDelay e.retryBackoffSeconds (s.entry.attempts + 1)) ≤ s'.entry.nextAttemptAt

theorem recordFailure_next {entry : Entry} {error : String} {maxAttempts now : Nat} {backoffSeconds : List Nat} :
    ¬(entry.recordFailure error maxAttempts backoffSeconds now).Pending ∨ entry.attempts + 1 < maxAttempts ∧
      (entry.recordFailure error maxAttempts backoffSeconds now).attempts = entry.attempts + 1 ∧
      (entry.recordFailure error maxAttempts backoffSeconds now).nextAttemptAt =
        now + secs (Entry.cycleDelay backoffSeconds (entry.attempts + 1)) := by
  unfold Entry.recordFailure
  dsimp only
  by_cases last : maxAttempts ≤ entry.attempts + 1
  · rw [if_pos last]
    exact .inl fun pending => nomatch pending.2
  · rw [if_neg last]
    exact .inr ⟨Nat.not_le.mp last, rfl, rfl⟩

theorem recordFailure_name {entry : Entry} {error : String} {maxAttempts now : Nat} {backoffSeconds : List Nat} :
    (entry.recordFailure error maxAttempts backoffSeconds now).endpointName = entry.endpointName := by
  unfold Entry.recordFailure
  dsimp only
  split_ifs <;> rfl

theorem record_name {entry : Entry} {endpoint : WebhookEndpoint} {now : Nat} (outcome : DeliveryOutcome) :
    (entry.record endpoint now outcome).endpointName = entry.endpointName := by
  cases outcome with
  | delivered => rfl
  | failed e => exact recordFailure_name
  | timedOut => exact recordFailure_name

theorem record_next {entry : Entry} {endpoint : WebhookEndpoint} {now : Nat} (outcome : DeliveryOutcome) :
    ¬(entry.record endpoint now outcome).Pending ∨ entry.attempts + 1 < endpoint.maxRetries ∧
      (entry.record endpoint now outcome).attempts = entry.attempts + 1 ∧
      (entry.record endpoint now outcome).nextAttemptAt =
        now + secs (Entry.cycleDelay endpoint.retryBackoffSeconds (entry.attempts + 1)) := by
  cases outcome with
  | delivered => exact .inl fun pending => nomatch pending.1
  | failed e => exact recordFailure_next
  | timedOut => exact recordFailure_next

/-- In a cycle nothing happens to an entry, or it has its turn. -/
theorem pollAndDeliver_cases (found : (endpoints.find? fun e => e.name = s.entry.endpointName) = some e) :
    (pollAndDeliver endpoints cycle s).entry = s.entry ∧ (pollAndDeliver endpoints cycle s).posts = s.posts ∨
      ∃ start sent, Turn e s (pollAndDeliver endpoints cycle s) start sent := by
  unfold pollAndDeliver
  dsimp only
  by_cases due : s.entry.Pending ∧ s.entry.nextAttemptAt ≤ s.now + cycle.idle
  · rw [if_pos due]
    refine .inr ⟨s.now + cycle.idle + cycle.queued, ?_⟩
    have start : s.entry.nextAttemptAt ≤ s.now + cycle.idle + cycle.queued := Nat.le_add_right_of_le due.2
    generalize s.now + cycle.idle + cycle.queued = now at start ⊢
    unfold pollEntry
    rw [found]
    dsimp only
    cases cycle.decoded with
    | error reason =>
      refine ⟨⟨[], now, .timedOut⟩, due.1, start, .none (Nat.le_refl _), fun _ => Nat.zero_le 1, (List.append_nil _).symm, ?_, ?_⟩
      · exact recordFailure_name
      · exact .inl fun pending => nomatch pending.2
    | ok _ =>
      dsimp only
      have positive : 0 < secs (e.timeoutSeconds + 5) := secs_pos (Nat.succ_pos _)
      have further : e.timeoutSeconds + 5 ≤ retryDelay e 0 → secs (e.timeoutSeconds + 5) ≤ secs (retryDelay e 0) := secs_le.2
      generalize secs (e.timeoutSeconds + 5) = time at positive further ⊢
      have made := @deliver_attempted e cycle.answers _ cycle.prepared now (not_reached_before positive)
      have once := fun long => @deliver_once e cycle.answers _ cycle.prepared now (reached_after (further long))
      generalize deliver e cycle.answers (some (now + time)) cycle.prepared now = sent at made once
      refine ⟨sent, due.1, start, made, once, rfl, record_name sent.outcome, ?_⟩
      refine (record_next sent.outcome).imp_right fun ⟨below, attempts, next⟩ => ⟨below, attempts, ?_⟩
      rw [next]
      omega
  · rw [if_neg due]
    exact .inl ⟨rfl, rfl⟩

/-! Runs in which the delays are kept. -/

variable {env : WebhookEnv} {v : WebhookEndpoint}

/-- With one retry at most all POSTs are of one delivery. -/
structure OneDelivery (v : WebhookEndpoint) (s : Polling) : Prop where
  name : s.entry.endpointName = v.name
  keeps : KeepsTo v s.posts
  fresh : s.entry.Pending → s.posts = []

theorem Turn.entry_pending {start : Nat} {sent : Sent} {s' : Polling} (turn : Turn e s s' start sent) (pending : s'.entry.Pending) :
    s.entry.attempts + 1 < e.maxRetries ∧ s'.entry.attempts = s.entry.attempts + 1 ∧
      sent.endedAt + secs (Entry.cycleDelay e.retryBackoffSeconds (s.entry.attempts + 1)) ≤ s'.entry.nextAttemptAt :=
  turn.next.resolve_left fun closed => closed pending

theorem resizeBackoff_one (backoff : List Nat) : WebhookEnv.resizeBackoff 1 backoff = [(backoff[0]?).getD 30] := by
  cases backoff with
  | nil => rfl
  | cons first rest => simp [WebhookEnv.resizeBackoff]

/-- A delivery under the settings as they were given, with one retry at most. -/
theorem Attempted.keepsTo {start : Nat} {sent : Sent} (made : Attempted e 0 (1 + e.maxRetries) start sent)
    (valid : env.Validated e v) (plain : env.Unexpanded e) (few : e.maxRetries ≤ 1) : KeepsTo v sent.posts := by
  have same := valid.unexpanded_iff.mpr plain
  refine ⟨fun p member => (made.own p member).1 ▸ same, valid.maxRetries ▸ made.count, fun k p q delay one two has => ?_⟩
  obtain ⟨bound, -⟩ := List.getElem?_eq_some_iff.mp two
  have count := made.count
  obtain rfl : k = 0 := by omega
  have one_ : e.maxRetries = 1 := by omega
  rw [valid.backoff, one_, resizeBackoff_one, List.getElem?_cons_zero, Option.some.injEq] at has
  have next := made.spaced 0 p q one two
  rwa [Nat.add_zero, retryDelay, has] at next

theorem OneDelivery.step (valid : env.Validated e v) (plain : env.Unexpanded e) (few : e.maxRetries ≤ 1)
    (found : (endpoints.find? fun e => e.name = v.name) = some e) (kept : OneDelivery v s) :
    OneDelivery v (pollAndDeliver endpoints cycle s) := by
  rw [← kept.name] at found
  rcases @pollAndDeliver_cases _ _ cycle s found with ⟨entry, posts⟩ | ⟨start, sent, turn⟩
  · generalize pollAndDeliver endpoints cycle s = s' at entry posts
    obtain ⟨entry', now', posts'⟩ := s'
    dsimp only at entry posts
    subst entry posts
    exact ⟨kept.name, kept.keeps, kept.fresh⟩
  · refine ⟨turn.name.trans kept.name, ?_, fun pending => ?_⟩
    · rw [turn.posts, kept.fresh turn.pending, List.nil_append]
      exact turn.made.keepsTo valid plain few
    · have below := (turn.entry_pending pending).1
      omega

/-- With one POST at most in a cycle, the POSTs are not ahead of the cycles, and
the next cycle is far enough from the last POST. -/
structure OneACycle (e v : WebhookEndpoint) (s : Polling) : Prop where
  name : s.entry.endpointName = v.name
  own : ∀ p ∈ s.posts, p.endpoint = e
  waits : Waits v.retryBackoffSeconds s.posts
  count : s.posts.length ≤ e.maxRetries
  behind : s.entry.Pending → s.posts.length ≤ s.entry.attempts ∧ s.entry.attempts < e.maxRetries
  gap : s.entry.Pending → ∀ p delay, s.posts.getLast? = some p → v.retryBackoffSeconds[s.posts.length - 1]? = some delay →
    p.endedAt + secs delay ≤ s.entry.nextAttemptAt

theorem OneACycle.step (long : e.timeoutSeconds + 5 ≤ retryDelay e 0)
    (delays : ∀ c, 1 ≤ c → c < e.maxRetries → ∀ k < c, ∀ delay, v.retryBackoffSeconds[k]? = some delay →
      delay ≤ Entry.cycleDelay e.retryBackoffSeconds c)
    (found : (endpoints.find? fun e => e.name = v.name) = some e) (kept : OneACycle e v s) :
    OneACycle e v (pollAndDeliver endpoints cycle s) := by
  rw [← kept.name] at found
  rcases @pollAndDeliver_cases _ _ cycle s found with ⟨entry, posts⟩ | ⟨start, sent, turn⟩
  · generalize pollAndDeliver endpoints cycle s = s' at entry posts
    obtain ⟨entry', now', posts'⟩ := s'
    dsimp only at entry posts
    subst entry posts
    exact ⟨kept.name, kept.own, kept.waits, kept.count, kept.behind, kept.gap⟩
  · obtain ⟨ahead, few⟩ := kept.behind turn.pending
    have gap := kept.gap turn.pending
    have most := turn.once long
    generalize pollAndDeliver endpoints cycle s = s' at turn
    have name := turn.name.trans kept.name
    rcases single : sent.posts with _ | ⟨q, _ | ⟨r, more⟩⟩
    · have posts := turn.posts
      rw [single, List.append_nil] at posts
      refine ⟨name, posts ▸ kept.own, posts ▸ kept.waits, posts ▸ kept.count, fun pending => ?_, fun pending p delay last has => ?_⟩
      · obtain ⟨below, attempts, -⟩ := turn.entry_pending pending
        rw [posts, attempts]
        exact ⟨by omega, below⟩
      · rw [posts] at last has
        have before := gap p delay last has
        have due := turn.due
        have later := turn.made.later
        have next := (turn.entry_pending pending).2.2
        omega
    · have posts := turn.posts
      rw [single] at posts
      have made := turn.made.own q (by rw [single]; exact List.mem_singleton_self q)
      have due := turn.due
      refine ⟨name, fun p member => ?_, ?_, ?_, fun pending => ?_, fun pending p delay last has => ?_⟩
      · rw [posts] at member
        rcases List.mem_append.mp member with old | new
        · exact kept.own p old
        · rw [List.mem_singleton.mp new]
          exact made.1
      · rw [posts]
        exact waits_concat kept.waits fun p delay last has => by have before := gap p delay last has; omega
      · rw [posts, List.length_append, List.length_singleton]
        omega
      · obtain ⟨below, attempts, -⟩ := turn.entry_pending pending
        rw [posts, attempts, List.length_append, List.length_singleton]
        exact ⟨by omega, below⟩
      · rw [posts] at last has
        rw [List.getLast?_concat, Option.some.injEq] at last
        rw [List.length_append, List.length_singleton, Nat.add_sub_cancel] at has
        obtain ⟨below, -, next⟩ := turn.entry_pending pending
        have least := secs_le.2 (delays (s.entry.attempts + 1) (by omega) below s.posts.length (by omega) delay has)
        rw [← last]
        omega
    · rw [single, List.length_cons, List.length_cons] at most
      omega

theorem keepsTo_nil (v : WebhookEndpoint) : KeepsTo v [] where
  sent _ member := absurd member List.not_mem_nil
  count := Nat.zero_le _
  waits := waits_of_short (Nat.zero_le 1)

/-- A plain endpoint whose retries are paced is polled as it was validated. -/
theorem pollsAs_of_paced (valid : env.Validated e v) (plain : env.Unexpanded e) (paced : Paced e)
    (found : (endpoints.find? fun e => e.name = v.name) = some e) : PollsAs endpoints v := by
  intro createdAt cycles
  rcases Nat.lt_or_ge 1 e.maxRetries with many | few
  · obtain ⟨long, delays⟩ := paced.resolve_left (Nat.not_le.mpr many)
    rw [← valid.backoff] at delays
    have start : OneACycle e v (Polling.enqueued v.name createdAt) := by
      refine ⟨rfl, fun p member => absurd member List.not_mem_nil, waits_of_short (Nat.zero_le 1), Nat.zero_le _, fun _ => ?_, ?_⟩
      · exact ⟨Nat.le_refl 0, Nat.lt_of_succ_lt many⟩
      · exact fun _ p _ last => nomatch last
    have kept := @Machine.run_invariant _ _ _ (Polling.machine endpoints) (OneACycle e v)
      (fun s cycle kept => kept.step long delays found) _ start cycles
    have same := valid.unexpanded_iff.mpr plain
    refine ⟨fun p member => (kept.own p member) ▸ same, ?_, kept.waits⟩
    rw [valid.maxRetries]
    exact Nat.le_trans kept.count (Nat.le_add_left _ 1)
  · have start : OneDelivery v (Polling.enqueued v.name createdAt) := ⟨rfl, keepsTo_nil v, fun _ => rfl⟩
    have kept := @Machine.run_invariant _ _ _ (Polling.machine endpoints) (OneDelivery v)
      (fun s cycle kept => kept.step valid plain few found) _ start cycles
    exact kept.keeps

end Cycles

end Latchgate
