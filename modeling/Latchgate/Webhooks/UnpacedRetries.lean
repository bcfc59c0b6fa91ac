import Latchgate.Webhooks.PollDelivery

namespace Latchgate

/-- Every attempt is answered at once with a server error. -/
def refusal (_ : Nat) : Answer :=
  { reply := .response 500 "" }

/-- The host cannot be resolved. -/
def unresolvedCycle (idle : Nat) : PollCycle where
  idle := idle
  prepared := (0, .error (.dnsResolution "hook" "no such host"))
  answers := refusal

def refusedCycle (idle : Nat) : PollCycle where
  idle := idle
  answers := refusal

/-- The first attempt is made at the last moment before the deadline. -/
def lateCycle (e : WebhookEndpoint) (idle : Nat) : PollCycle where
  idle := idle
  prepared := (secs (e.timeoutSeconds + 5) - 1, .ok ())
  answers := refusal

theorem secs_succ (n : Nat) : secs n + 1 < secs (n + 1) := by
  unfold secs
  omega

section Refusals
variable {e : WebhookEndpoint} {deadline : Option Nat}

theorem attemptDelivery_refusal (e : WebhookEndpoint) (n : Nat) :
    ∃ error, attemptDelivery e (refusal n) = (0, .error error) ∧ error.isRetryable = true := by
  unfold attemptDelivery refusal
  by_cases instant : secs e.timeoutSeconds ≤ 0
  · refine ⟨.transport "operation timed out", ?_, rfl⟩
    rw [if_pos instant, Nat.le_zero.mp instant]
  · exact ⟨.serverError 500 "", by rw [if_neg instant]; rfl, rfl⟩

/-- An attempt that is refused is made in an instant, if it is not cut off, and
the next one follows. -/
theorem deliverFrom_refused {left attempt now start : Nat} {lastErr : Option DeliveryError}
    (begun : (if attempt = 0 then now else now + secs (retryDelay e (attempt - 1))) = start) (going : reached deadline start = false) :
    ∃ error, deliverFrom e refusal deadline (left + 1) attempt now lastErr =
      { deliverFrom e refusal deadline left (attempt + 1) start (some error) with
        posts := ⟨e, start, start⟩ :: (deliverFrom e refusal deadline left (attempt + 1) start (some error)).posts } := by
  obtain ⟨error, tried, retryable⟩ := attemptDelivery_refusal e attempt
  refine ⟨error, ?_⟩
  have open_ : ¬reached deadline start = true := by
    rw [going]
    exact Bool.false_ne_true
  have again : ¬error.isRetryable = false := by
    rw [retryable]
    exact Bool.noConfusion
  rw [deliverFrom]
  dsimp only
  rw [begun, tried]
  dsimp only
  rw [Nat.add_zero, if_neg open_, if_neg open_, if_neg again]

theorem deliverFrom_cut_off {left attempt now start : Nat} {lastErr : Option DeliveryError}
    (begun : (if attempt = 0 then now else now + secs (retryDelay e (attempt - 1))) = start) (cut : reached deadline start = true) :
    deliverFrom e refusal deadline (left + 1) attempt now lastErr = ⟨[], deadline.getD start, .timedOut⟩ := by
  rw [deliverFrom]
  dsimp only
  rw [begun, if_pos cut]

theorem deliverFrom_undelivered {left attempt now : Nat} {lastErr : Option DeliveryError} :
    (deliverFrom e refusal deadline left attempt now lastErr).outcome ≠ .delivered := by
  induction left generalizing attempt now lastErr with
  | zero => exact fun same => nomatch same
  | succ left ih =>
    generalize begun : (if attempt = 0 then now else now + secs (retryDelay e (attempt - 1))) = start
    by_cases cut : reached deadline start = true
    · rw [deliverFrom_cut_off begun cut]
      exact fun same => nomatch same
    · rw [Bool.not_eq_true] at cut
      obtain ⟨error, refused⟩ := @deliverFrom_refused e deadline left attempt now start lastErr begun cut
      rw [refused]
      exact ih

/-- A refused delivery begins with a POST, and a second one follows where the
first delay is shorter than the time for a delivery. -/
theorem deliver_refused {now time : Nat} (positive : 0 < time) :
    ∃ rest, (deliver e refusal (some (now + time)) (0, .ok ()) now).posts = ⟨e, now, now⟩ :: rest ∧
      (1 ≤ e.maxRetries → secs (retryDelay e 0) < time → rest ≠ []) := by
  have going := @not_reached_before now time positive
  have begun : (if 0 = 0 then now else now + secs (retryDelay e (0 - 1))) = now := if_pos rfl
  obtain ⟨error, first⟩ := @deliverFrom_refused e (some (now + time)) e.maxRetries 0 now now none begun going
  unfold deliver
  dsimp only
  rw [Nat.add_zero, going, Nat.add_comm 1, first]
  refine ⟨_, rfl, fun retries short none_ => ?_⟩
  obtain ⟨left, some_⟩ := Nat.exists_eq_add_of_le' retries
  have next : (if 0 + 1 = 0 then now else now + secs (retryDelay e (0 + 1 - 1))) = now + secs (retryDelay e 0) :=
    if_neg (Nat.succ_ne_zero 0)
  have before : reached (some (now + time)) (now + secs (retryDelay e 0)) = false := by
    simp only [reached, Option.any_some, decide_eq_false_iff_not]
    omega
  obtain ⟨_, second⟩ := @deliverFrom_refused e (some (now + time)) left 1 now _ (some error) next before
  rw [some_, second] at none_
  exact List.cons_ne_nil _ _ none_

/-- A delivery whose only attempt comes at the last moment. -/
theorem deliver_late {now time : Nat} (positive : 0 < time) (long : time ≤ secs (retryDelay e 0))
    (retries : 1 ≤ e.maxRetries) :
    deliver e refusal (some (now + time)) (time - 1, .ok ()) now =
      ⟨[⟨e, now + (time - 1), now + (time - 1)⟩], now + time, .timedOut⟩ := by
  have going : reached (some (now + time)) (now + (time - 1)) = false := by
    simp only [reached, Option.any_some, decide_eq_false_iff_not]
    omega
  obtain ⟨left, retries⟩ := Nat.exists_eq_add_of_le' retries
  have begun : (if 0 = 0 then now + (time - 1) else now + (time - 1) + secs (retryDelay e (0 - 1))) = now + (time - 1) := if_pos rfl
  obtain ⟨error, first⟩ := @deliverFrom_refused e (some (now + time)) (left + 1) 0 _ _ none begun going
  have next : (if 0 + 1 = 0 then now + (time - 1) else now + (time - 1) + secs (retryDelay e (0 + 1 - 1))) =
      now + (time - 1) + secs (retryDelay e 0) := if_neg (Nat.succ_ne_zero 0)
  have cut : reached (some (now + time)) (now + (time - 1) + secs (retryDelay e 0)) = true := by
    simp only [reached, Option.any_some, decide_eq_true_eq]
    omega
  have second := @deliverFrom_cut_off e (some (now + time)) left 1 _ _ (some error) next cut
  unfold deliver
  dsimp only
  rw [going, Nat.add_comm 1, retries, first, second]
  rfl

theorem deliver_undelivered {deadline : Option Nat} {now time : Nat} :
    (deliver e refusal deadline (time, .ok ()) now).outcome ≠ .delivered := by
  unfold deliver
  dsimp only
  by_cases cut : reached deadline (now + time) = true
  · rw [if_pos cut]
    exact fun same => nomatch same
  · rw [if_neg cut]
    exact deliverFrom_undelivered

end Refusals

/-! Runs of failed cycles, each as soon as it is due. -/

section Failures
variable {endpoints : List WebhookEndpoint} {e : WebhookEndpoint} {name : String} {c : Nat} {s : Polling}

/-- How long after a failure the next cycle is due. -/
def waitAfter (e : WebhookEndpoint) (c : Nat) : Nat :=
  if c = 0 then 0 else secs (Entry.cycleDelay e.retryBackoffSeconds c)

/-- So many cycles have just failed. -/
structure Failed (e : WebhookEndpoint) (name : String) (c : Nat) (s : Polling) : Prop where
  pending : s.entry.Pending
  name : s.entry.endpointName = name
  attempts : s.entry.attempts = c
  next : s.entry.nextAttemptAt = s.now + waitAfter e c

theorem failed_enqueued (e : WebhookEndpoint) (name : String) (createdAt : Nat) : Failed e name 0 (Polling.enqueued name createdAt) where
  pending := ⟨rfl, rfl⟩
  name := rfl
  attempts := rfl
  next := rfl

theorem recordFailure_pending {entry : Entry} {error : String} {maxAttempts now : Nat} {backoffSeconds : List Nat}
    (pending : entry.Pending) (below : entry.attempts + 1 < maxAttempts) :
    (entry.recordFailure error maxAttempts backoffSeconds now).Pending ∧
      (entry.recordFailure error maxAttempts backoffSeconds now).attempts = entry.attempts + 1 ∧
      (entry.recordFailure error maxAttempts backoffSeconds now).nextAttemptAt =
        now + secs (Entry.cycleDelay backoffSeconds (entry.attempts + 1)) := by
  unfold Entry.recordFailure
  dsimp only
  rw [if_neg (Nat.not_le.mpr below)]
  exact ⟨pending, rfl, rfl⟩

theorem record_pending {entry : Entry} {now : Nat} {outcome : DeliveryOutcome} (undelivered : outcome ≠ .delivered)
    (pending : entry.Pending) (below : entry.attempts + 1 < e.maxRetries) :
    (entry.record e now outcome).Pending ∧ (entry.record e now outcome).attempts = entry.attempts + 1 ∧
      (entry.record e now outcome).nextAttemptAt = now + secs (Entry.cycleDelay e.retryBackoffSeconds (entry.attempts + 1)) := by
  cases outcome with
  | delivered => exact absurd rfl undelivered
  | failed reason => exact recordFailure_pending pending below
  | timedOut => exact recordFailure_pending pending below

/-- A cycle that comes when the entry is due makes a delivery, and if that fails
the entry stays, unless its retries are used up. -/
theorem Failed.cycle (failed : Failed e name c s) (found : (endpoints.find? fun e => e.name = name) = some e)
    (cycle : PollCycle) (soon : cycle.idle = waitAfter e c) (queued : cycle.queued = 0) (decoded : cycle.decoded = .ok ())
    (late : cycle.late = 0) {sent : Sent}
    (delivery : deliver e cycle.answers (some (s.now + waitAfter e c + secs (e.timeoutSeconds + 5))) cycle.prepared
      (s.now + waitAfter e c) = sent) (undelivered : sent.outcome ≠ .delivered) :
    (pollAndDeliver endpoints cycle s).posts = s.posts ++ sent.posts ∧ (pollAndDeliver endpoints cycle s).now = sent.endedAt ∧
      (c + 1 < e.maxRetries → Failed e name (c + 1) (pollAndDeliver endpoints cycle s)) := by
  have polled : pollAndDeliver endpoints cycle s =
      { now := sent.endedAt, posts := s.posts ++ sent.posts, entry := s.entry.record e sent.endedAt sent.outcome } := by
    unfold pollAndDeliver
    dsimp only
    rw [soon, if_pos ⟨failed.pending, Nat.le_of_eq failed.next⟩]
    unfold pollEntry
    rw [failed.name, found]
    dsimp only
    rw [decoded, queued, late]
    dsimp only
    simp only [Nat.add_zero, delivery]
  rw [polled]
  refine ⟨rfl, rfl, fun below => ?_⟩
  obtain ⟨pending, attempts, next⟩ := @record_pending e s.entry sent.endedAt _ undelivered failed.pending (failed.attempts ▸ below)
  refine ⟨pending, (record_name sent.outcome).trans failed.name, by rw [attempts, failed.attempts], ?_⟩
  rw [next, failed.attempts, waitAfter, if_neg (Nat.succ_ne_zero c)]

variable (endpoints) in
theorem poll_unresolved (failed : Failed e name c s) (found : (endpoints.find? fun e => e.name = name) = some e) :
    (pollAndDeliver endpoints (unresolvedCycle (waitAfter e c)) s).posts = s.posts ∧
      (c + 1 < e.maxRetries → Failed e name (c + 1) (pollAndDeliver endpoints (unresolvedCycle (waitAfter e c)) s)) := by
  have positive : 0 < secs (e.timeoutSeconds + 5) := secs_pos (Nat.succ_pos _)
  have sent : deliver e refusal (some (s.now + waitAfter e c + secs (e.timeoutSeconds + 5)))
      (0, .error (.dnsResolution "hook" "no such host")) (s.now + waitAfter e c) =
      ⟨[], s.now + waitAfter e c, .failed (.dnsResolution "hook" "no such host")⟩ := by
    generalize secs (e.timeoutSeconds + 5) = time at positive
    have going := @not_reached_before (s.now + waitAfter e c) time positive
    unfold deliver
    dsimp only
    rw [Nat.add_zero, going]
    rfl
  obtain ⟨posts, -, next⟩ := failed.cycle found (unresolvedCycle (waitAfter e c)) rfl rfl rfl rfl sent
    (fun same => nomatch same)
  exact ⟨posts.trans (List.append_nil _), next⟩

theorem poll_refused (failed : Failed e name c s) (found : (endpoints.find? fun e => e.name = name) = some e) :
    (∃ rest, (pollAndDeliver endpoints (refusedCycle (waitAfter e c)) s).posts =
        s.posts ++ ⟨e, s.now + waitAfter e c, s.now + waitAfter e c⟩ :: rest ∧
      (1 ≤ e.maxRetries → retryDelay e 0 < e.timeoutSeconds + 5 → rest ≠ [])) ∧
      (c + 1 < e.maxRetries → Failed e name (c + 1) (pollAndDeliver endpoints (refusedCycle (waitAfter e c)) s)) := by
  have positive : 0 < secs (e.timeoutSeconds + 5) := secs_pos (Nat.succ_pos _)
  obtain ⟨posts, -, next⟩ := failed.cycle found (refusedCycle (waitAfter e c)) rfl rfl rfl rfl rfl deliver_undelivered
  refine ⟨?_, next⟩
  obtain ⟨rest, first, more⟩ := @deliver_refused e (s.now + waitAfter e c) _ positive
  refine ⟨rest, posts.trans (congrArg _ first), fun retries short => more retries ?_⟩
  exact Nat.lt_of_not_le fun further => Nat.not_le.mpr short (secs_le.1 further)

theorem poll_late (failed : Failed e name c s) (found : (endpoints.find? fun e => e.name = name) = some e)
    (long : e.timeoutSeconds + 5 ≤ retryDelay e 0) (retries : 1 ≤ e.maxRetries) :
    (∃ p, (pollAndDeliver endpoints (lateCycle e (waitAfter e c)) s).posts = s.posts ++ [p] ∧
      p.endedAt + 1 = (pollAndDeliver endpoints (lateCycle e (waitAfter e c)) s).now) ∧
      (c + 1 < e.maxRetries → Failed e name (c + 1) (pollAndDeliver endpoints (lateCycle e (waitAfter e c)) s)) := by
  have positive : 0 < secs (e.timeoutSeconds + 5) := secs_pos (Nat.succ_pos _)
  have further : secs (e.timeoutSeconds + 5) ≤ secs (retryDelay e 0) := secs_le.2 long
  have sent := @deliver_late e (s.now + waitAfter e c) _ positive further retries
  obtain ⟨posts, now, next⟩ := failed.cycle found (lateCycle e (waitAfter e c)) rfl rfl rfl rfl sent
    (fun same => nomatch same)
  refine ⟨⟨_, posts, ?_⟩, next⟩
  rw [now]
  dsimp only
  omega

/-- Cycles that are all refused, each with two POSTs or more. -/
theorem refused_run (found : (endpoints.find? fun e => e.name = name) = some e) (short : retryDelay e 0 < e.timeoutSeconds + 5)
    {n : Nat} (few : n ≤ e.maxRetries) :
    ∃ cycles, 2 * n ≤ ((Polling.machine endpoints).run (Polling.enqueued name 0) cycles).posts.length ∧
      (n < e.maxRetries → Failed e name n ((Polling.machine endpoints).run (Polling.enqueued name 0) cycles)) := by
  induction n with
  | zero => exact ⟨[], Nat.zero_le _, fun _ => failed_enqueued e name 0⟩
  | succ n ih =>
    obtain ⟨cycles, count, failed⟩ := ih (Nat.le_of_succ_le few)
    obtain ⟨⟨rest, posts, more⟩, next⟩ := poll_refused (failed few) found
    refine ⟨cycles ++ [refusedCycle (waitAfter e n)], ?_, ?_⟩
    · rw [Machine.run_concat]
      have second := List.length_pos_iff.mpr (more (Nat.zero_lt_of_lt few) short)
      have all := congrArg List.length posts
      rw [List.length_append, List.length_cons] at all
      exact Nat.le_trans (by omega) (Nat.le_of_eq all.symm)
    · rw [Machine.run_concat]
      exact next

/-- Cycles in which the host is not resolved. -/
theorem unresolved_run (found : (endpoints.find? fun e => e.name = name) = some e) {n : Nat} (few : n < e.maxRetries) :
    ∃ cycles, ((Polling.machine endpoints).run (Polling.enqueued name 0) cycles).posts = [] ∧
      Failed e name n ((Polling.machine endpoints).run (Polling.enqueued name 0) cycles) := by
  induction n with
  | zero => exact ⟨[], rfl, failed_enqueued e name 0⟩
  | succ n ih =>
    obtain ⟨cycles, none_, failed⟩ := ih (Nat.lt_of_succ_lt few)
    obtain ⟨posts, next⟩ := poll_unresolved endpoints failed found
    refine ⟨cycles ++ [unresolvedCycle (waitAfter e n)], ?_, ?_⟩
    · rw [Machine.run_concat]
      exact posts.trans none_
    · rw [Machine.run_concat]
      exact next few

/-- Then cycles with one late POST each. -/
theorem late_run (found : (endpoints.find? fun e => e.name = name) = some e) (long : e.timeoutSeconds + 5 ≤ retryDelay e 0)
    {n j : Nat} (few : n + j < e.maxRetries) :
    ∃ cycles, ((Polling.machine endpoints).run (Polling.enqueued name 0) cycles).posts.length = j ∧
      (∀ p, ((Polling.machine endpoints).run (Polling.enqueued name 0) cycles).posts.getLast? = some p →
        p.endedAt + 1 = ((Polling.machine endpoints).run (Polling.enqueued name 0) cycles).now) ∧
      Failed e name (n + j) ((Polling.machine endpoints).run (Polling.enqueued name 0) cycles) := by
  induction j with
  | zero =>
    obtain ⟨cycles, none_, failed⟩ := unresolved_run found few
    refine ⟨cycles, by rw [none_]; rfl, fun p last => ?_, failed⟩
    rw [none_] at last
    cases last
  | succ j ih =>
    obtain ⟨cycles, count, -, failed⟩ := ih (Nat.lt_of_succ_lt few)
    obtain ⟨⟨p, posts, ended⟩, next⟩ := poll_late failed found long (Nat.zero_lt_of_lt few)
    refine ⟨cycles ++ [lateCycle e (waitAfter e (n + j))], ?_, fun q last => ?_, ?_⟩
    · rw [Machine.run_concat]
      have all := congrArg List.length posts
      rw [List.length_append, count] at all
      exact all
    · rw [Machine.run_concat] at last ⊢
      have here := (congrArg List.getLast? posts).symm.trans last
      rw [List.getLast?_concat, Option.some.injEq] at here
      rw [← here]
      exact ended
    · rw [Machine.run_concat]
      exact next few

end Failures

section Paced
variable {env : WebhookEnv} {endpoints : List WebhookEndpoint} {e v : WebhookEndpoint}

theorem unexpanded_of_pollsAs (valid : env.Validated e v) (found : (endpoints.find? fun e => e.name = v.name) = some e)
    (polls : PollsAs endpoints v) : env.Unexpanded e := by
  obtain ⟨⟨rest, posts, -⟩, -⟩ := poll_refused (failed_enqueued e v.name 0) found
  have kept := polls 0 [refusedCycle (waitAfter e 0)]
  have member : (⟨e, 0 + waitAfter e 0, 0 + waitAfter e 0⟩ : Post) ∈
      (pollAndDeliver endpoints (refusedCycle (waitAfter e 0)) (Polling.enqueued v.name 0)).posts := by
    rw [posts]
    exact List.mem_append_right _ List.mem_cons_self
  exact valid.unexpanded_iff.mp (kept.sent _ member)

theorem paced_of_pollsAs (valid : env.Validated e v) (found : (endpoints.find? fun e => e.name = v.name) = some e)
    (polls : PollsAs endpoints v) : Paced e := by
  rcases Nat.lt_or_ge 1 e.maxRetries with many | few
  · have long : e.timeoutSeconds + 5 ≤ retryDelay e 0 := by
      by_contra short
      -- two POSTs a cycle are more than one POST and the retries
      obtain ⟨cycles, count, -⟩ := refused_run found (Nat.lt_of_not_le short) (Nat.le_refl e.maxRetries)
      have most := (polls 0 cycles).count
      rw [valid.maxRetries] at most
      omega
    refine .inr ⟨long, fun c first below k before delay has => ?_⟩
    by_contra longer
    -- the cycle after so many failures comes before the delay of the POST is over
    obtain ⟨cycles, count, ended, failed⟩ := late_run found long (show (c - 1 - k) + (k + 1) < e.maxRetries by omega)
    rw [show c - 1 - k + (k + 1) = c by omega] at failed
    obtain ⟨⟨rest, posts, -⟩, -⟩ := poll_refused failed found
    have kept := (polls 0 (cycles ++ [refusedCycle (waitAfter e c)])).waits
    rw [Machine.run_concat] at kept
    generalize (Polling.machine endpoints).run (Polling.enqueued v.name 0) cycles = s at count ended failed posts kept
    have some_ : s.posts ≠ [] := List.ne_nil_of_length_pos (by omega)
    generalize final : s.posts.getLast some_ = p
    have last : s.posts.getLast? = some p := final ▸ List.getLast?_eq_some_getLast some_
    have one : (s.posts ++ ⟨e, s.now + waitAfter e c, s.now + waitAfter e c⟩ :: rest)[k]? = some p := by
      rw [List.getElem?_append_left (by omega), show k = s.posts.length - 1 by omega, ← List.getLast?_eq_getElem?]
      exact last
    have two : (s.posts ++ ⟨e, s.now + waitAfter e c, s.now + waitAfter e c⟩ :: rest)[k + 1]? =
        some ⟨e, s.now + waitAfter e c, s.now + waitAfter e c⟩ := by
      rw [List.getElem?_append_right (by omega), show k + 1 - s.posts.length = 0 by omega, List.getElem?_cons_zero]
    have wait := kept k p _ delay ((congrArg (fun l : List Post => l[k]?) posts).trans one)
      ((congrArg (fun l : List Post => l[k + 1]?) posts).trans two) (valid.backoff ▸ has)
    have least := secs_le.2 (show Entry.cycleDelay e.retryBackoffSeconds c + 1 ≤ delay by omega)
    have apart := secs_succ (Entry.cycleDelay e.retryBackoffSeconds c)
    have end_ := ended p last
    dsimp only at wait
    rw [waitAfter, if_neg (by omega)] at wait
    omega
  · exact .inl few

variable {configs validated : List WebhookEndpoint} {devMode : Bool}

theorem names_validated (all : List.Forall₂ env.Validated configs validated) :
    (validated.map fun e => e.name) = configs.map fun e => e.name := by
  induction all with
  | nil => rfl
  | cons first _ ih => rw [List.map_cons, List.map_cons, ih, first.name]

/-- The endpoint that was validated is the one of the same name. -/
theorem validated_of_name (all : List.Forall₂ env.Validated configs validated) (distinct : (configs.map fun e => e.name).Nodup)
    (listed : e ∈ configs) (made : v ∈ validated) (same : v.name = e.name) : env.Validated e v := by
  induction all with
  | nil => cases listed
  | @cons cfg w configs validated first rest ih =>
    rw [List.map_cons, List.nodup_cons] at distinct
    rcases List.mem_cons.mp listed with rfl | listed
    · rcases List.mem_cons.mp made with rfl | made
      · exact first
      · rw [← names_validated rest] at distinct
        exact absurd (List.mem_map.mpr ⟨v, made, same⟩) distinct.1
    · rcases List.mem_cons.mp made with rfl | made
      · exact absurd (List.mem_map.mpr ⟨e, listed, same.symm.trans first.name⟩) distinct.1
      · exact ih distinct.2 listed made

theorem find?_active (distinct : (configs.map fun e => e.name).Nodup) (listed : e ∈ configs) (active : e.disable = false)
    (same : v.name = e.name) : ((configs.filter fun e => !e.disable).find? fun e => e.name = v.name) = some e := by
  induction configs with
  | nil => cases listed
  | cons cfg rest ih =>
    rw [List.map_cons, List.nodup_cons] at distinct
    rcases List.mem_cons.mp listed with rfl | listed
    · rw [List.filter_cons_of_pos (by rw [active]; rfl)]
      exact List.find?_cons_of_pos (decide_eq_true same.symm)
    · have other : cfg.name ≠ v.name := fun here => distinct.1 (List.mem_map.mpr ⟨e, listed, (here.trans same).symm⟩)
      by_cases skipped : cfg.disable = true
      · rw [List.filter_cons_of_neg (by rw [skipped]; exact Bool.false_ne_true)]
        exact ih distinct.2 listed
      · rw [List.filter_cons_of_pos (by rw [Bool.not_eq_true] at skipped; rw [skipped]; rfl)]
        simp only [List.find?_cons, decide_eq_false other]
        exact ih distinct.2 listed

/-- A delivery keeps to the settings as they were validated. The poller, which
has them as they were given, does so for a plain endpoint whose retries are
paced, and for no other. -/
theorem pollsAs_iff (accepts : env.validateWebhookConfigs configs devMode = .ok validated) (listed : e ∈ configs)
    (active : e.disable = false) (made : v ∈ validated) (same : v.name = e.name) :
    (∀ answers prepared now, KeepsTo v (deliver v answers none prepared now).posts) ∧
      (PollsAs (configs.filter fun e => !e.disable) v ↔ env.Unexpanded e ∧ Paced e) := by
  obtain ⟨all, distinct, -⟩ := WebhookEnv.validateFrom_ok accepts
  have valid := validated_of_name all distinct listed made same
  have found := find?_active distinct listed active same
  refine ⟨fun answers prepared now => deliver_keeps prepared now rfl, fun polls => ?_, fun ⟨plain, paced⟩ => ?_⟩
  · exact ⟨unexpanded_of_pollsAs valid found polls, paced_of_pollsAs valid found polls⟩
  · exact pollsAs_of_paced valid plain paced found

end Paced

/-- No variables are set, and one URL parses. -/
def hookEnv : WebhookEnv where
  var _ := none
  parseUrl raw := if raw = "https://hooks.example.com/gate" then .ok ⟨"https", some "hooks.example.com"⟩
    else .error "relative URL without a base"

def hookEndpoint (maxRetries : Nat) : WebhookEndpoint where
  name := "hook"
  events := [.approvalPending]
  url := "https://hooks.example.com/gate"
  secret := "signing-key"
  maxRetries := maxRetries

theorem pollsAs_iff_hook :
    (∀ answers prepared now, KeepsTo { hookEndpoint 1 with retryBackoffSeconds := [1] }
        (deliver { hookEndpoint 1 with retryBackoffSeconds := [1] } answers none prepared now).posts) ∧
      (PollsAs ([hookEndpoint 1].filter fun e => !e.disable) { hookEndpoint 1 with retryBackoffSeconds := [1] } ↔
        hookEnv.Unexpanded (hookEndpoint 1) ∧ Paced (hookEndpoint 1)) :=
  @pollsAs_iff hookEnv (hookEndpoint 1) { hookEndpoint 1 with retryBackoffSeconds := [1] } [hookEndpoint 1]
    [{ hookEndpoint 1 with retryBackoffSeconds := [1] }] false rfl (List.mem_singleton_self _) rfl (List.mem_singleton_self _) rfl

/-- With the settings that are the default, an event that is always refused is
posted nine times, not four. -/
theorem posted_nine_times :
    hookEnv.validateWebhookConfigs [hookEndpoint 3] false = .ok [hookEndpoint 3] ∧
      ((Polling.machine [hookEndpoint 3]).run (Polling.enqueued "hook" 0)
        [refusedCycle 0, refusedCycle (secs 5), refusedCycle (secs 30)]).posts.length = 9 ∧
      ¬PollsAs [hookEndpoint 3] (hookEndpoint 3) := by
  have nine : ((Polling.machine [hookEndpoint 3]).run (Polling.enqueued "hook" 0)
      [refusedCycle 0, refusedCycle (secs 5), refusedCycle (secs 30)]).posts.length = 9 := by decide +kernel
  refine ⟨by rfl, nine, fun polls => ?_⟩
  have most := (polls 0 [refusedCycle 0, refusedCycle (secs 5), refusedCycle (secs 30)]).count
  exact absurd (nine ▸ most) (by decide)

end Latchgate
