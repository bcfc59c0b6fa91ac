import Latchgate.Providers.HostIo

namespace Latchgate

/-- Who made a response: Squid itself, or the destination, whose responses Squid
passes on and whose tunnels it does not look into. -/
inductive Responder where
  | proxy
  | origin
  deriving DecidableEq

/-- A response with its headers, whose names are lower case in a header map. -/
structure ProxiedResponse where
  sender : Responder
  status : Nat
  headers : List (String × String)
  deriving DecidableEq

/-- What becomes of one send. A connection that is not made, and a `CONNECT`
that is denied, are connection errors; every other error comes before or after
the destination has the request. -/
inductive SendOutcome where
  | response (r : ProxiedResponse)
  | connectError
  | error (reached : Bool)
  deriving DecidableEq

def headersIndicateProxyDenial (headers : List (String × String)) : Bool :=
  (headers.lookup "x-squid-error").isSome

def isProxyDenialResponse (r : ProxiedResponse) : Bool :=
  headersIndicateProxyDenial r.headers

namespace SendOutcome

/-- What the retry decision sees of an outcome. -/
def attempt : SendOutcome → HttpAttempt
  | response r => .response (r.sender = .origin) (isProxyDenialResponse r)
  | connectError => .connectFailed
  | error reached => .failed reached

/-- The destination has got the request. -/
def Reached (o : SendOutcome) : Prop :=
  o.attempt.reached = true

/-- A response of the destination that looks like one of the proxy. -/
def Impersonates (o : SendOutcome) : Prop :=
  ∃ r, o = response r ∧ r.sender = .origin ∧ isProxyDenialResponse r = true

/-- A denial by the proxy, or a connection that was not made. -/
def Denied : SendOutcome → Prop
  | response r => r.sender = .proxy ∧ isProxyDenialResponse r = true
  | connectError => True
  | error _ => False

end SendOutcome

namespace EgressRetry

/-- The outcomes of so many sends, as the proxy and the destination behave. -/
def outcomes (behaviour : Nat → SendOutcome) (count : Nat) : List HttpAttempt :=
  (List.range count).map fun n => (behaviour n).attempt

/-- The sends of one call. There are at most as many as the first one and its
retries. -/
def sends (proxied : Bool) (behaviour : Nat → SendOutcome) : List HttpAttempt :=
  (sendWithEgressRetry proxied egressRetryMax (outcomes behaviour (egressRetryMax + 1))).1

/-- The destination gets the request at most once, and no send that may have
reached it is followed by another. -/
def SentOnce (made : List HttpAttempt) : Prop :=
  (made.filter (·.reached)).length ≤ 1 ∧ ∀ a ∈ made.dropLast, a.reached = false

/-- The destination does not answer in the name of the proxy where the call
would listen: behind nothing but denials, with a retry left. -/
def Honest (retries : Nat) (behaviour : Nat → SendOutcome) : Prop :=
  ∀ n < retries, (∀ m < n, (behaviour m).Denied) → ¬(behaviour n).Impersonates

theorem outcomes_succ (behaviour : Nat → SendOutcome) (count : Nat) :
    outcomes behaviour (count + 1) = (behaviour 0).attempt :: outcomes (fun n => behaviour (n + 1)) count := by
  unfold outcomes
  rw [List.range_succ_eq_map, List.map_cons, List.map_map]
  rfl

theorem sends_ne_nil {proxied : Bool} {retries : Nat} {attempts : List HttpAttempt} (some : attempts ≠ []) :
    (sendWithEgressRetry proxied retries attempts).1 ≠ [] := by
  cases attempts with
  | nil => exact absurd rfl some
  | cons a rest =>
    unfold sendWithEgressRetry
    split <;> simp

/-- What is sent again has been denied by the proxy, or by a destination in its
name. -/
theorem retried_cases {proxied : Bool} {retries : Nat} {o : SendOutcome}
    (again : o.attempt.retried proxied (retries + 1) = true) :
    proxied = true ∧ ((o.Denied ∧ ¬o.Reached) ∨ (o.Impersonates ∧ o.Reached)) := by
  cases o with
  | response r =>
    simp only [SendOutcome.attempt, HttpAttempt.retried, Bool.and_eq_true] at again
    obtain ⟨⟨on, denied⟩, -⟩ := again
    refine ⟨on, ?_⟩
    cases sender : r.sender with
    | proxy => exact .inl ⟨⟨sender, denied⟩, by simp [SendOutcome.Reached, SendOutcome.attempt, HttpAttempt.reached, sender]⟩
    | origin => exact .inr ⟨⟨r, rfl, sender, denied⟩, by simp [SendOutcome.Reached, SendOutcome.attempt, HttpAttempt.reached, sender]⟩
  | connectError =>
    simp only [SendOutcome.attempt, HttpAttempt.retried, Bool.and_eq_true] at again
    exact ⟨again.1, .inl ⟨trivial, by simp [SendOutcome.Reached, SendOutcome.attempt, HttpAttempt.reached]⟩⟩
  | error reached => cases again

theorem retried_of {retries : Nat} {o : SendOutcome} (denied : o.Denied ∨ o.Impersonates) :
    o.attempt.retried true (retries + 1) = true := by
  rcases denied with denied | ⟨r, rfl, -, denied⟩
  · cases o with
    | response r => simp [SendOutcome.attempt, HttpAttempt.retried, denied.2]
    | connectError => simp [SendOutcome.attempt, HttpAttempt.retried]
    | error => exact denied.elim
  · simp [SendOutcome.attempt, HttpAttempt.retried, denied]

/-- Directly, there is one send. -/
theorem sends_direct (retries : Nat) (attempts : List HttpAttempt) :
    (sendWithEgressRetry false retries attempts).1.length ≤ 1 := by
  cases attempts with
  | nil => simp [sendWithEgressRetry]
  | cons a rest =>
    have once : a.retried false retries = false := by cases a <;> rfl
    simp [sendWithEgressRetry, once]

/-- With `retries` left, every send but the last is known not to have reached
the destination exactly when the destination is honest so far. -/
theorem dropLast_unreached_iff (retries : Nat) (behaviour : Nat → SendOutcome) :
    (∀ a ∈ (sendWithEgressRetry true retries (outcomes behaviour (retries + 1))).1.dropLast, a.reached = false) ↔
      Honest retries behaviour := by
  induction retries generalizing behaviour with
  | zero =>
    have once : (behaviour 0).attempt.retried true 0 = false := by cases behaviour 0 <;> simp [SendOutcome.attempt, HttpAttempt.retried]
    simp [outcomes_succ, sendWithEgressRetry, once, Honest]
  | succ retries ih =>
    rw [outcomes_succ, sendWithEgressRetry]
    cases again : (behaviour 0).attempt.retried true (retries + 1) with
    | false =>
      have quiet : ¬((behaviour 0).Denied ∨ (behaviour 0).Impersonates) := by
        intro denied
        rw [retried_of denied] at again
        cases again
      simp only [Bool.false_eq_true, if_false, List.dropLast_singleton, List.not_mem_nil, false_implies, implies_true, true_iff]
      intro n _ before
      cases n with
      | zero => exact fun imp => quiet (.inr imp)
      | succ n => exact absurd (.inl (before 0 (Nat.succ_pos n))) quiet
    | true =>
      have later := ih fun n => behaviour (n + 1)
      have some : (sendWithEgressRetry true retries (outcomes (fun n => behaviour (n + 1)) (retries + 1))).1 ≠ [] :=
        sends_ne_nil (by simp [outcomes_succ])
      simp only [if_true, Nat.add_sub_cancel, List.dropLast_cons_of_ne_nil some, List.forall_mem_cons, later]
      obtain ⟨-, ⟨denied, unreached⟩ | ⟨impersonates, reached⟩⟩ := retried_cases again
      · have lost : (behaviour 0).attempt.reached = false := by simpa [SendOutcome.Reached] using unreached
        constructor
        · rintro ⟨-, honest⟩ n bound before
          cases n with
          | zero =>
            rintro ⟨r, same, sender, -⟩
            simp [same, SendOutcome.attempt, HttpAttempt.reached, sender] at lost
          | succ n => exact honest n (by omega) fun m smaller => before (m + 1) (by omega)
        · intro honest
          refine ⟨lost, fun n bound before => honest (n + 1) (by omega) fun m smaller => ?_⟩
          cases m with
          | zero => exact denied
          | succ m => exact before m (by omega)
      · constructor
        · rintro ⟨lost, -⟩
          rw [SendOutcome.Reached, lost] at reached
          cases reached
        · intro honest
          exact absurd impersonates (honest 0 (by omega) (by simp))

/-- A list whose members before the last are all lost has one that reached at
most. -/
theorem reached_le_one {made : List HttpAttempt} (lost : ∀ a ∈ made.dropLast, a.reached = false) :
    (made.filter (·.reached)).length ≤ 1 := by
  cases made using List.reverseRecOn with
  | nil => simp
  | append_singleton before last =>
    rw [List.dropLast_concat] at lost
    have none : before.filter (·.reached) = [] := List.filter_eq_nil_iff.mpr fun a member => by simp [lost a member]
    rw [List.filter_append, none, List.nil_append]
    exact List.length_filter_le _ _

/-- A destination that always answers with the header of the proxy. -/
def echoingOrigin (_ : Nat) : SendOutcome :=
  .response ⟨.origin, 403, [("x-squid-error", "ERR_ACCESS_DENIED 0")]⟩

end EgressRetry
end Latchgate
