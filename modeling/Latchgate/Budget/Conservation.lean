import Latchgate.Budget.Manager

namespace Latchgate
namespace BudgetFlow

/-- What the policy says of a request. -/
inductive Verdict where
  | allow
  | pendingApproval
  | deny

/-- How far a request has come. A request of the pipeline is received and
evaluated; one that executes an approval starts from the plan of the approval.
From `debited` on both go the same way, and carry whether they have debited. -/
inductive Phase where
  | idle
  | received (session : String)
  | evaluated (session : String)
  | planned (session : String) (snapshot : Int)
  | checked (session : String) (snapshot : Int)
  | debited (session : String) (budgetDebited : Bool)
  | built (session : String) (budgetDebited : Bool)
  | cleared (session : String) (budgetDebited : Bool)
  | denied (session : String) (budgetDebited : Bool)
  | done
  | lost

/-- The steps of a request, with the outcome of what they ask for. -/
inductive Action where
  | receive (session : String)
  | evaluate (io : StoreIo) (verdict : Verdict)
  | execute (plan : Nat)
  | validate (passes : Bool)
  | debit (io : StoreIo)
  | build (succeeds : Bool)
  | clear (passes : Bool)
  | dispatch
  | rollback (io : StoreIo)

/-- What a step did to the budget of a session. A debit of which the request
does not hear is not confirmed; a rollback that the store refuses is not
applied. -/
inductive Emission where
  | nothing
  | debited (session : String) (confirmed : Bool)
  | rolledBack (session : String) (applied : Bool)
  | dispatched (session : String)
  deriving DecidableEq

/-- The budgets and the plans that wait for an approval, each with its session
and the counter seen when the policy was evaluated. -/
structure World where
  budgets : BudgetBackend
  plans : List (String × Int) := []

section Steps
variable (carriesBudget : String → Bool)

/-- The counter a request sees when the policy is evaluated; a lease without a
budget counts as unlimited. -/
def snapshot (w : World) (session : String) (io : StoreIo) : Except BudgetError Int :=
  if carriesBudget session then
    match io.fault with
    | none => w.budgets.getSnapshot session io.clock
    | some (.refused message) | some (.answerLost message) => .error (.unavailable message)
  else .ok maxI64

/-- The debit, when there is something to debit. -/
def debit (w : World) (session : String) (hasBudgets : Bool) (io : StoreIo) : World × Phase × Emission :=
  if hasBudgets then
    let (budgets, result) := w.budgets.getAndDebit session io.clock
    match io.fault, result with
    | some (.refused _), _ => (w, .done, .nothing)
    | _, .error _ => (w, .done, .nothing)
    | some (.answerLost _), .ok _ => ({ w with budgets }, .done, .debited session false)
    | none, .ok _ => ({ w with budgets }, .debited session true, .debited session true)
  else (w, .debited session false, .nothing)

/-- `rollback_budget_if_debited`: a failure is recorded for later
reconciliation, not repeated. -/
def rollbackIfDebited (w : World) (session : String) (budgetDebited : Bool) (io : StoreIo) :
    World × Phase × Emission :=
  if budgetDebited = false then (w, .done, .nothing)
  else match io.fault with
    | some (.refused _) => (w, .done, .rolledBack session false)
    | _ => ({ w with budgets := w.budgets.rollback session io.clock }, .done, .rolledBack session true)

/-- One step of a request. A step that is not its turn changes nothing. -/
def act (w : World) : Phase → Action → World × Phase × Emission
  | .idle, .receive session => (w, .received session, .nothing)
  | .received session, .evaluate io verdict =>
    match snapshot carriesBudget w session io with
    | .error _ => (w, .done, .nothing)
    | .ok calls =>
      match verdict with
      | .allow => (w, .evaluated session, .nothing)
      | .pendingApproval => ({ w with plans := w.plans ++ [(session, calls)] }, .done, .nothing)
      | .deny => (w, .done, .nothing)
  | .idle, .execute plan =>
    match w.plans[plan]? with
    | some (session, calls) => (w, .planned session calls, .nothing)
    | none => (w, .idle, .nothing)
  | .planned session calls, .validate passes =>
    (w, if passes then .checked session calls else .done, .nothing)
  | .evaluated session, .debit io => debit w session (carriesBudget session) io
  | .checked session calls, .debit io => debit w session (calls ≠ maxI64) io
  | .debited session budgetDebited, .build succeeds =>
    (w, if succeeds then .built session budgetDebited else .denied session budgetDebited, .nothing)
  | .built session budgetDebited, .clear passes =>
    (w, if passes then .cleared session budgetDebited else .denied session budgetDebited, .nothing)
  | .cleared session _, .dispatch => (w, .done, .dispatched session)
  | .denied session budgetDebited, .rollback io => rollbackIfDebited w session budgetDebited io
  | phase, _ => (w, phase, .nothing)

inductive Event where
  | act (request : Nat) (action : Action)
  | crash (gone : List Nat)

structure State where
  world : World
  requests : Nat → Phase

def step (s : State) : Event → State × Emission
  | .act i action =>
    let (world, phase, emission) := act carriesBudget s.world (s.requests i) action
    (⟨world, Function.update s.requests i phase⟩, emission)
  | .crash gone => (⟨s.world, fun i => if i ∈ gone then .lost else s.requests i⟩, .nothing)

def machine : Machine State Event Emission where
  step := step carriesBudget

end Steps

def Event.request : Event → Option Nat
  | .act i _ => some i
  | .crash _ => none

/-- The time at which a step looks at the budget store. -/
def Event.clock : Event → Option Clock
  | .act _ (.evaluate io _) | .act _ (.debit io) | .act _ (.rollback io) => some io.clock
  | _ => none

section Past
variable (sid : String) (past : List (Event × Emission))

/-- The requests that debited the session, heard of or not. -/
def debits : List Nat :=
  Machine.agents Event.request (fun e => e = .debited sid true ∨ e = .debited sid false) past

def confirmed : List Nat :=
  Machine.agents Event.request (· = .debited sid true) past

/-- The requests that rolled a debit of the session back, with success or not. -/
def attempts : List Nat :=
  Machine.agents Event.request (fun e => e = .rolledBack sid true ∨ e = .rolledBack sid false) past

def restored : List Nat :=
  Machine.agents Event.request (· = .rolledBack sid true) past

def dispatchers : List Nat :=
  Machine.agents Event.request (· = .dispatched sid) past

/-- What the counter of the session should be. -/
def balance (allowance : Int) : Int :=
  allowance - (debits sid past).length + (restored sid past).length

end Past

/-- What the phase of a request says about whether it has debited the session
and heard of it, has tried to roll back, and has dispatched. -/
def Phase.Agrees (sid : String) (debited tried dispatched : Prop) : Phase → Prop
  | .idle | .received _ | .evaluated _ => ¬debited ∧ ¬tried ∧ ¬dispatched
  | .planned session calls | .checked session calls =>
    (session = sid → calls ≠ maxI64) ∧ ¬debited ∧ ¬tried ∧ ¬dispatched
  | .debited session flag | .built session flag | .cleared session flag | .denied session flag =>
    if session = sid then flag = true ∧ debited ∧ ¬tried ∧ ¬dispatched else ¬debited ∧ ¬tried ∧ ¬dispatched
  | .done => (tried ↔ debited ∧ ¬dispatched) ∧ (dispatched → debited)
  | .lost => (tried → debited ∧ ¬dispatched) ∧ (dispatched → debited)

/-- The moves of a request that touch nothing but the request. -/
inductive Phase.Moves (w : World) : Phase → Phase → Prop
  | stay (phase : Phase) : Moves w phase phase
  | receive (session : String) : Moves w .idle (.received session)
  | execute {plan : Nat} {session : String} {calls : Int} (found : w.plans[plan]? = some (session, calls)) :
      Moves w .idle (.planned session calls)
  | allow (session : String) : Moves w (.received session) (.evaluated session)
  | refuse (session : String) : Moves w (.received session) .done
  | accept (session : String) (calls : Int) : Moves w (.planned session calls) (.checked session calls)
  | reject (session : String) (calls : Int) : Moves w (.planned session calls) .done
  | build (session : String) (flag : Bool) : Moves w (.debited session flag) (.built session flag)
  | unbuilt (session : String) (flag : Bool) : Moves w (.debited session flag) (.denied session flag)
  | clear (session : String) (flag : Bool) : Moves w (.built session flag) (.cleared session flag)
  | block (session : String) (flag : Bool) : Moves w (.built session flag) (.denied session flag)

theorem Phase.Moves.agrees {w : World} {before after : Phase} {sid : String} {debited tried dispatched : Prop}
    (moves : before.Moves w after) (plans : ∀ plan ∈ w.plans, plan.1 = sid → plan.2 ≠ maxI64)
    (agrees : before.Agrees sid debited tried dispatched) : after.Agrees sid debited tried dispatched := by
  cases moves with
  | execute found => exact ⟨plans _ (List.mem_of_getElem? found), agrees⟩
  | refuse session => simp only [Phase.Agrees] at agrees ⊢; tauto
  | reject session calls => simp only [Phase.Agrees] at agrees ⊢; tauto
  | _ => exact agrees

/-- All that a step of a request can do. -/
inductive Acts (carriesBudget : String → Bool) (w : World) : Phase → Action → World × Phase × Emission → Prop
  | move {before after : Phase} {action : Action} (moves : before.Moves w after) :
      Acts carriesBudget w before action (w, after, .nothing)
  | defer {session : String} {io : StoreIo} {calls : Int} (seen : snapshot carriesBudget w session io = .ok calls) :
      Acts carriesBudget w (.received session) (.evaluate io .pendingApproval)
        ({ w with plans := w.plans ++ [(session, calls)] }, .done, .nothing)
  | debit {session : String} {io : StoreIo} :
      Acts carriesBudget w (.evaluated session) (.debit io) (BudgetFlow.debit w session (carriesBudget session) io)
  | debitPlan {session : String} {calls : Int} {io : StoreIo} :
      Acts carriesBudget w (.checked session calls) (.debit io) (BudgetFlow.debit w session (calls ≠ maxI64) io)
  | dispatch {session : String} {flag : Bool} :
      Acts carriesBudget w (.cleared session flag) .dispatch (w, .done, .dispatched session)
  | rollback {session : String} {flag : Bool} {io : StoreIo} :
      Acts carriesBudget w (.denied session flag) (.rollback io) (rollbackIfDebited w session flag io)

theorem act_acts (carriesBudget : String → Bool) (w : World) (phase : Phase) (action : Action) :
    Acts carriesBudget w phase action (act carriesBudget w phase action) := by
  fun_cases act carriesBudget w phase action with
  | case1 session => exact .move (.receive session)
  | case2 session => exact .move (.refuse session)
  | case3 session io calls => exact .move (.allow session)
  | case4 session io calls seen => exact .defer seen
  | case5 session => exact .move (.refuse session)
  | case6 plan session calls found => exact .move (.execute found)
  | case7 => exact .move (.stay _)
  | case8 session calls passes =>
    cases passes with
    | true => exact .move (.accept session calls)
    | false => exact .move (.reject session calls)
  | case9 => exact .debit
  | case10 => exact .debitPlan
  | case11 session flag succeeds =>
    cases succeeds with
    | true => exact .move (.build session flag)
    | false => exact .move (.unbuilt session flag)
  | case12 session flag passes =>
    cases passes with
    | true => exact .move (.clear session flag)
    | false => exact .move (.block session flag)
  | case13 => exact .dispatch
  | case14 => exact .rollback
  | case15 => exact .move (.stay _)

/-- What the past of a run says about its present state, for one session
within its lifetime. -/
structure Inv (sid : String) (allowance : Int) (life : Clock → Prop) (past : List (Event × Emission)) (s : State) :
    Prop where
  counter : ∀ t, life t → s.world.budgets.current sid t = some (balance sid past allowance)
  enough : 0 ≤ balance sid past allowance
  plans : ∀ plan ∈ s.world.plans, plan.1 = sid → plan.2 ≠ maxI64
  agrees : ∀ i, (s.requests i).Agrees sid (i ∈ confirmed sid past) (i ∈ attempts sid past) (i ∈ dispatchers sid past)
  debitsOnce : (confirmed sid past).Nodup
  triesOnce : (attempts sid past).Nodup
  dispatchesOnce : (dispatchers sid past).Nodup

section Invariant
variable {sid : String} {allowance : Int} {life : Clock → Prop} {past : List (Event × Emission)} {s t : State}

theorem Phase.Agrees.tried {phase : Phase} {debited tried dispatched : Prop}
    (agrees : phase.Agrees sid debited tried dispatched) (did : tried) : debited ∧ ¬dispatched := by
  cases phase <;> simp only [Phase.Agrees] at agrees
  case done => exact agrees.1.mp did
  case lost => exact agrees.1 did
  case debited => split_ifs at agrees <;> tauto
  case built => split_ifs at agrees <;> tauto
  case cleared => split_ifs at agrees <;> tauto
  case denied => split_ifs at agrees <;> tauto
  all_goals tauto

theorem Phase.Agrees.dispatched {phase : Phase} {debited tried dispatched : Prop}
    (agrees : phase.Agrees sid debited tried dispatched) (did : dispatched) : debited := by
  cases phase <;> simp only [Phase.Agrees] at agrees
  case done => exact agrees.2 did
  case lost => exact agrees.2 did
  case debited => split_ifs at agrees <;> tauto
  case built => split_ifs at agrees <;> tauto
  case cleared => split_ifs at agrees <;> tauto
  case denied => split_ifs at agrees <;> tauto
  all_goals tauto

/-- Dispatches and restored debits are different confirmed debits. -/
theorem Inv.spent (inv : Inv sid allowance life past s) :
    (dispatchers sid past).length + (restored sid past).length ≤ (debits sid past).length := by
  have fewer : (restored sid past).Sublist (attempts sid past) :=
    Machine.agents_sublist _ (fun _ same => .inl same) past
  have more : (confirmed sid past).Sublist (debits sid past) :=
    Machine.agents_sublist _ (fun _ same => .inl same) past
  have apart : (dispatchers sid past ++ restored sid past).Nodup := by
    refine inv.dispatchesOnce.append (inv.triesOnce.sublist fewer) ?_
    intro i dispatched tried
    exact ((inv.agrees i).tried (fewer.subset tried)).2 dispatched
  have inside : dispatchers sid past ++ restored sid past ⊆ confirmed sid past := by
    intro i member
    rcases List.mem_append.mp member with dispatched | tried
    · exact (inv.agrees i).dispatched dispatched
    · exact ((inv.agrees i).tried (fewer.subset tried)).1
  have counted := (List.subperm_of_subset apart inside).length_le
  rw [List.length_append] at counted
  exact counted.trans more.length_le

theorem Inv.balance_le (inv : Inv sid allowance life past s) : balance sid past allowance ≤ allowance := by
  have spent := inv.spent
  unfold balance
  omega

/-- An emission that is not about the session. -/
def Emission.Silent (sid : String) (e : Emission) : Prop :=
  (∀ heard, e ≠ .debited sid heard) ∧ (∀ applied, e ≠ .rolledBack sid applied) ∧ e ≠ .dispatched sid

section Concat
variable (sid : String) (past : List (Event × Emission)) (i : Nat) (action : Action) (e : Emission)

theorem confirmed_concat : confirmed sid (past ++ [(.act i action, e)]) =
    confirmed sid past ++ if e = .debited sid true then [i] else [] :=
  Machine.agents_concat ..

theorem attempts_concat : attempts sid (past ++ [(.act i action, e)]) =
    attempts sid past ++ if e = .rolledBack sid true ∨ e = .rolledBack sid false then [i] else [] :=
  Machine.agents_concat ..

theorem dispatchers_concat : dispatchers sid (past ++ [(.act i action, e)]) =
    dispatchers sid past ++ if e = .dispatched sid then [i] else [] :=
  Machine.agents_concat ..

theorem balance_concat (allowance : Int) : balance sid (past ++ [(.act i action, e)]) allowance =
    balance sid past allowance - (if e = .debited sid true ∨ e = .debited sid false then 1 else 0) +
      if e = .rolledBack sid true then 1 else 0 := by
  have one : ∀ (kind : Prop) [Decidable kind],
      ((if kind then (Event.request (.act i action)).toList else []).length : Int) = if kind then 1 else 0 := by
    intro kind _
    split_ifs <;> rfl
  unfold balance debits restored
  rw [Machine.agents_concat, Machine.agents_concat, List.length_append, List.length_append, Int.natCast_add, Int.natCast_add,
    one, one]
  omega

end Concat

theorem nodup_extend {l : List Nat} {i : Nat} (kind : Prop) [Decidable kind] (once : l.Nodup) (fresh : kind → i ∉ l) :
    (l ++ if kind then [i] else []).Nodup := by
  split_ifs with did
  · exact once.append (List.nodup_singleton i) (by simpa using fresh did)
  · simpa using once

theorem mem_extend_other {l : List Nat} {i j : Nat} (kind : Prop) [Decidable kind] (differs : j ≠ i) :
    (j ∈ l ++ if kind then [i] else []) ↔ j ∈ l := by
  split_ifs <;> simp [differs]

/-- The rule for a step of one request: the counter, the plans, the request
itself, and that it does nothing a second time. -/
theorem Inv.next {i : Nat} {action : Action} {e : Emission} {phase : Phase} (inv : Inv sid allowance life past s)
    (counter : ∀ τ, life τ →
      t.world.budgets.current sid τ = some (balance sid (past ++ [(.act i action, e)]) allowance))
    (enough : 0 ≤ balance sid (past ++ [(.act i action, e)]) allowance)
    (plans : ∀ plan ∈ t.world.plans, plan.1 = sid → plan.2 ≠ maxI64)
    (next : t.requests = Function.update s.requests i phase)
    (agrees : phase.Agrees sid (i ∈ confirmed sid (past ++ [(.act i action, e)]))
      (i ∈ attempts sid (past ++ [(.act i action, e)])) (i ∈ dispatchers sid (past ++ [(.act i action, e)])))
    (debit : e = .debited sid true → i ∉ confirmed sid past)
    (back : e = .rolledBack sid true ∨ e = .rolledBack sid false → i ∉ attempts sid past)
    (dispatch : e = .dispatched sid → i ∉ dispatchers sid past) :
    Inv sid allowance life (past ++ [(.act i action, e)]) t := by
  refine ⟨counter, enough, plans, ?_, ?_, ?_, ?_⟩
  · intro j
    rw [next]
    by_cases same : j = i
    · subst j
      rw [Function.update_self]
      exact agrees
    · rw [Function.update_of_ne same, confirmed_concat, attempts_concat, dispatchers_concat, mem_extend_other _ same,
        mem_extend_other _ same, mem_extend_other _ same]
      exact inv.agrees j
  · rw [confirmed_concat]
    exact nodup_extend _ inv.debitsOnce debit
  · rw [attempts_concat]
    exact nodup_extend _ inv.triesOnce back
  · rw [dispatchers_concat]
    exact nodup_extend _ inv.dispatchesOnce dispatch

/-- A step that is not about the session. -/
theorem Inv.quiet {i : Nat} {action : Action} {e : Emission} {phase : Phase} (inv : Inv sid allowance life past s)
    (silent : e.Silent sid)
    (same : ∀ τ, t.world.budgets.current sid τ = s.world.budgets.current sid τ)
    (plans : ∀ plan ∈ t.world.plans, plan.1 = sid → plan.2 ≠ maxI64)
    (next : t.requests = Function.update s.requests i phase)
    (agrees : ∀ debited tried dispatched, (s.requests i).Agrees sid debited tried dispatched →
      phase.Agrees sid debited tried dispatched) :
    Inv sid allowance life (past ++ [(.act i action, e)]) t := by
  obtain ⟨noDebit, noBack, noDispatch⟩ := silent
  have balance : balance sid (past ++ [(Event.act i action, e)]) allowance = balance sid past allowance := by
    simp [balance_concat, noDebit, noBack]
  refine inv.next ?_ (by rw [balance]; exact inv.enough) plans next ?_ (fun h => absurd h (noDebit _))
    (fun h => ?_) (fun h => absurd h noDispatch)
  · intro τ alive
    rw [same, balance]
    exact inv.counter τ alive
  · simp only [confirmed_concat, attempts_concat, dispatchers_concat, noDebit, noBack, noDispatch, or_self, if_false,
      List.append_nil]
    exact agrees _ _ _ (inv.agrees i)
  · rcases h with h | h <;> exact absurd h (noBack _)

/-- A debit of the session, whether or not the request hears of it. -/
theorem Inv.debited {i : Nat} {action : Action} {heard : Bool} {phase : Phase} (inv : Inv sid allowance life past s)
    (positive : 0 < balance sid past allowance)
    (counter : t.world.budgets = s.world.budgets.setCalls sid (balance sid past allowance - 1))
    (plans : t.world.plans = s.world.plans) (next : t.requests = Function.update s.requests i phase)
    (before : i ∉ confirmed sid past ∧ i ∉ attempts sid past ∧ i ∉ dispatchers sid past)
    (agrees : phase.Agrees sid (heard = true) False False) :
    Inv sid allowance life (past ++ [(.act i action, .debited sid heard)]) t := by
  have spent : balance sid (past ++ [(Event.act i action, Emission.debited sid heard)]) allowance =
      balance sid past allowance - 1 := by
    cases heard <;> simp [balance_concat]
  refine inv.next ?_ (by omega) (plans ▸ inv.plans) next ?_ (fun _ => before.1) (by simp) (by simp)
  · intro τ alive
    rw [counter, spent]
    exact BudgetBackend.current_setCalls_self (inv.counter τ alive) _
  · cases heard <;>
      simpa [confirmed_concat, attempts_concat, dispatchers_concat, before] using agrees

/-- Everything the debit step can do. -/
theorem debit_cases (w : World) (session : String) (hasBudgets : Bool) (io : StoreIo) :
    (hasBudgets = false ∧ debit w session hasBudgets io = (w, .debited session false, .nothing)) ∨
    debit w session hasBudgets io = (w, .done, .nothing) ∨
    ∃ calls heard, w.budgets.current session io.clock = some calls ∧ 0 < calls ∧
      debit w session hasBudgets io = ({ w with budgets := w.budgets.setCalls session (calls - 1) },
        if heard then .debited session true else .done, .debited session heard) := by
  unfold debit BudgetBackend.getAndDebit
  cases hasBudgets with
  | false => exact .inl ⟨rfl, rfl⟩
  | true =>
    refine .inr ?_
    cases w.budgets.current session io.clock with
    | none =>
      left
      cases io.fault with
      | none => rfl
      | some fault => cases fault <;> rfl
    | some calls =>
      by_cases empty : calls ≤ 0
      · left
        simp only [if_true, if_pos empty]
        cases io.fault with
        | none => rfl
        | some fault => cases fault <;> rfl
      · simp only [if_true, if_neg empty]
        cases io.fault with
        | none => exact .inr ⟨calls, true, rfl, by omega, rfl⟩
        | some fault =>
          cases fault with
          | refused => exact .inl rfl
          | answerLost => exact .inr ⟨calls, false, rfl, by omega, rfl⟩

/-- The debit step of both paths. For a session with a budget there is always
something to debit. -/
theorem Inv.debit {i : Nat} {action : Action} {session : String} {hasBudgets : Bool} {io : StoreIo}
    (inv : Inv sid allowance life past s) (alive : life io.clock)
    (has : session = sid → hasBudgets = true)
    (before : ∀ debited tried dispatched, (s.requests i).Agrees sid debited tried dispatched →
      ¬debited ∧ ¬tried ∧ ¬dispatched)
    (world : t.world = (debit s.world session hasBudgets io).1)
    (next : t.requests = Function.update s.requests i (debit s.world session hasBudgets io).2.1) :
    Inv sid allowance life (past ++ [(.act i action, (debit s.world session hasBudgets io).2.2)]) t := by
  have ended : ∀ debited tried dispatched, (s.requests i).Agrees sid debited tried dispatched →
      Phase.done.Agrees sid debited tried dispatched := by
    intro debited tried dispatched agrees
    have none_ := before _ _ _ agrees
    simp only [Phase.Agrees]
    tauto
  rcases debit_cases s.world session hasBudgets io with ⟨missing, result⟩ | result | ⟨calls, heard, seen, some_, result⟩
  · rw [result] at world next ⊢
    have other : session ≠ sid := by
      intro same
      rw [has same] at missing
      cases missing
    refine inv.quiet (by simp [Emission.Silent]) (by simp [world]) (by rw [world]; exact inv.plans) next ?_
    intro debited tried dispatched agrees
    simpa [Phase.Agrees, other] using before _ _ _ agrees
  · rw [result] at world next ⊢
    exact inv.quiet (by simp [Emission.Silent]) (by simp [world]) (by rw [world]; exact inv.plans) next ended
  · rw [result] at world next ⊢
    by_cases same : session = sid
    · subst session
      obtain rfl : calls = balance sid past allowance := Option.some.inj (seen.symm.trans (inv.counter _ alive))
      refine inv.debited some_ (by rw [world]) (by rw [world]) next
        (before _ _ _ (inv.agrees i)) ?_
      cases heard <;> simp [Phase.Agrees]
    · refine inv.quiet (by simp [Emission.Silent, same]) ?_ (by rw [world]; exact inv.plans) next ?_
      · intro τ
        rw [world]
        exact BudgetBackend.current_setCalls_other (Ne.symm same) _
      · intro debited tried dispatched agrees
        cases heard with
        | true => simpa [Phase.Agrees, same] using before _ _ _ agrees
        | false => exact ended _ _ _ agrees

/-- Everything the rollback step can do. -/
theorem rollback_cases (w : World) (session : String) (flag : Bool) (io : StoreIo) :
    (flag = false ∧ rollbackIfDebited w session flag io = (w, .done, .nothing)) ∨
    ∃ applied, flag = true ∧ rollbackIfDebited w session flag io =
      ({ w with budgets := if applied then w.budgets.rollback session io.clock else w.budgets }, .done,
        .rolledBack session applied) ∧ (applied = false ↔ ∃ message, io.fault = some (.refused message)) := by
  unfold rollbackIfDebited
  cases flag with
  | false => exact .inl ⟨rfl, rfl⟩
  | true =>
    refine .inr ?_
    cases io.fault with
    | none => exact ⟨true, rfl, rfl, by simp⟩
    | some fault =>
      cases fault with
      | refused message => exact ⟨false, rfl, rfl, by simp⟩
      | answerLost message => exact ⟨true, rfl, rfl, by simp⟩

/-- The rollback step. -/
theorem Inv.rollback {i : Nat} {action : Action} {session : String} {flag : Bool} {io : StoreIo}
    (inv : Inv sid allowance life past s) (alive : life io.clock) (phase : s.requests i = .denied session flag)
    (world : t.world = (rollbackIfDebited s.world session flag io).1)
    (next : t.requests = Function.update s.requests i (rollbackIfDebited s.world session flag io).2.1) :
    Inv sid allowance life (past ++ [(.act i action, (rollbackIfDebited s.world session flag io).2.2)]) t := by
  have here := inv.agrees i
  rw [phase] at here
  have ended : session ≠ sid → ∀ debited tried dispatched, (s.requests i).Agrees sid debited tried dispatched →
      Phase.done.Agrees sid debited tried dispatched := by
    intro other debited tried dispatched agrees
    rw [phase] at agrees
    simp only [Phase.Agrees, other, if_false] at agrees ⊢
    tauto
  rcases rollback_cases s.world session flag io with ⟨rfl, result⟩ | ⟨applied, rfl, result, -⟩
  · rw [result] at world next ⊢
    have other : session ≠ sid := by
      rintro rfl
      simp [Phase.Agrees] at here
    exact inv.quiet (by simp [Emission.Silent]) (by simp [world]) (by rw [world]; exact inv.plans) next (ended other)
  · rw [result] at world next ⊢
    by_cases same : session = sid
    · subst session
      simp only [Phase.Agrees, if_true, true_and] at here
      obtain ⟨debited, untried, undispatched⟩ := here
      refine inv.next ?_ ?_ (by rw [world]; exact inv.plans) next ?_ (by simp) (fun _ => untried) (by simp)
      · intro τ living
        rw [world]
        cases applied with
        | false => simpa [balance_concat] using inv.counter τ living
        | true =>
          simp only [if_true, BudgetBackend.rollback_eq (inv.counter _ alive)]
          rw [BudgetBackend.current_setCalls_self (inv.counter τ living)]
          simp [balance_concat]
      · have enough := inv.enough
        cases applied <;> simp [balance_concat] <;> omega
      · cases applied <;>
          simp [Phase.Agrees, confirmed_concat, attempts_concat, dispatchers_concat, debited, undispatched]
    · refine inv.quiet (by simp [Emission.Silent, same]) ?_ (by rw [world]; exact inv.plans) next (ended same)
      intro τ
      rw [world]
      cases applied with
      | false => rfl
      | true => exact BudgetBackend.current_rollback_other (Ne.symm same)

theorem Inv.crash {gone : List Nat} (inv : Inv sid allowance life past s) :
    Inv sid allowance life (past ++ [(.crash gone, .nothing)])
      ⟨s.world, fun i => if i ∈ gone then .lost else s.requests i⟩ := by
  have same : ∀ (p : Emission → Prop) [DecidablePred p], ¬p .nothing →
      Machine.agents Event.request p (past ++ [(Event.crash gone, Emission.nothing)]) = Machine.agents Event.request p past := by
    intro p _ silent
    simp [Machine.agents_concat, silent]
  have debits_ : debits sid (past ++ [(Event.crash gone, Emission.nothing)]) = debits sid past := same _ (by simp)
  have confirmed_ : confirmed sid (past ++ [(Event.crash gone, Emission.nothing)]) = confirmed sid past := same _ (by simp)
  have attempts_ : attempts sid (past ++ [(Event.crash gone, Emission.nothing)]) = attempts sid past := same _ (by simp)
  have restored_ : restored sid (past ++ [(Event.crash gone, Emission.nothing)]) = restored sid past := same _ (by simp)
  have dispatchers_ : dispatchers sid (past ++ [(Event.crash gone, Emission.nothing)]) = dispatchers sid past := same _ (by simp)
  have balance_ : balance sid (past ++ [(Event.crash gone, Emission.nothing)]) allowance = balance sid past allowance := by
    rw [balance, balance, debits_, restored_]
  refine ⟨?_, ?_, inv.plans, ?_, ?_, ?_, ?_⟩
  · simpa only [balance_] using inv.counter
  · simpa only [balance_] using inv.enough
  · intro i
    rw [confirmed_, attempts_, dispatchers_]
    by_cases stopped : i ∈ gone
    · simp only [stopped, if_true, Phase.Agrees]
      exact ⟨(inv.agrees i).tried, (inv.agrees i).dispatched⟩
    · simpa only [stopped, if_false] using inv.agrees i
  · simpa only [confirmed_] using inv.debitsOnce
  · simpa only [attempts_] using inv.triesOnce
  · simpa only [dispatchers_] using inv.dispatchesOnce

/-- The provider is dispatched for a request of the session. -/
theorem Inv.dispatch {i : Nat} {action : Action} {session : String} {flag : Bool}
    (inv : Inv sid allowance life past s) (phase : s.requests i = .cleared session flag) (world : t.world = s.world)
    (next : t.requests = Function.update s.requests i .done) :
    Inv sid allowance life (past ++ [(.act i action, .dispatched session)]) t := by
  have here := inv.agrees i
  rw [phase] at here
  by_cases same : session = sid
  · subst session
    simp only [Phase.Agrees, if_true] at here
    obtain ⟨-, debited, untried, undispatched⟩ := here
    refine inv.next ?_ ?_ (by rw [world]; exact inv.plans) next ?_ (by simp) (by simp) (fun _ => undispatched)
    · simpa [balance_concat, world] using inv.counter
    · simpa [balance_concat] using inv.enough
    · simp [Phase.Agrees, confirmed_concat, attempts_concat, dispatchers_concat, debited, untried]
  · refine inv.quiet (by simp [Emission.Silent, same]) (by simp [world]) (by rw [world]; exact inv.plans) next ?_
    intro debited tried dispatched agrees
    rw [phase] at agrees
    simp only [Phase.Agrees, same, if_false] at agrees ⊢
    tauto

/-- The counter that a request of the session sees is not the sentinel. -/
theorem Inv.snapshot_ne {carriesBudget : String → Bool} {io : StoreIo} {calls : Int}
    (inv : Inv sid allowance life past s) (carries : carriesBudget sid = true) (small : allowance < maxI64)
    (alive : life io.clock) (seen : snapshot carriesBudget s.world sid io = .ok calls) : calls ≠ maxI64 := by
  have bounded := inv.balance_le
  unfold snapshot at seen
  rw [if_pos carries] at seen
  split at seen
  · simp only [BudgetBackend.getSnapshot, inv.counter _ alive] at seen
    cases seen
    omega
  · cases seen
  · cases seen

end Invariant

section Run
variable {carriesBudget : String → Bool} {sid : String} {allowance : Int} {life : Clock → Prop}
  {past : List (Event × Emission)} {s : State}

/-- A call that waits for an approval leaves its plan behind. -/
theorem Inv.defer {t : State} {i : Nat} {action : Action} {session : String} {io : StoreIo} {calls : Int}
    (inv : Inv sid allowance life past s) (carries : carriesBudget sid = true) (small : allowance < maxI64)
    (alive : life io.clock) (phase : s.requests i = .received session)
    (seen : snapshot carriesBudget s.world session io = .ok calls)
    (world : t.world = { s.world with plans := s.world.plans ++ [(session, calls)] })
    (next : t.requests = Function.update s.requests i .done) :
    Inv sid allowance life (past ++ [(.act i action, .nothing)]) t := by
  refine inv.quiet (by simp [Emission.Silent]) (fun _ => by rw [world]) ?_ next ?_
  · intro plan member same
    rw [world] at member
    rcases List.mem_append.mp member with old | new
    · exact inv.plans plan old same
    · obtain rfl := List.mem_singleton.mp new
      obtain rfl : session = sid := same
      exact inv.snapshot_ne carries small alive seen
  · intro debited tried dispatched agrees
    rw [phase] at agrees
    exact (Phase.Moves.refuse session).agrees inv.plans agrees

theorem Inv.step (inv : Inv sid allowance life past s) (carries : carriesBudget sid = true)
    (small : allowance < maxI64) (event : Event) (within : ∀ clock ∈ event.clock, life clock) :
    Inv sid allowance life (past ++ [(event, (step carriesBudget s event).2)]) (step carriesBudget s event).1 := by
  cases event with
  | crash gone => exact inv.crash
  | act i action =>
    have acts := act_acts carriesBudget s.world (s.requests i) action
    simp only [BudgetFlow.step]
    generalize result : act carriesBudget s.world (s.requests i) action = done at acts ⊢
    generalize phase : s.requests i = before at acts
    cases acts with
    | move moves =>
      refine inv.quiet (by simp [Emission.Silent]) (fun _ => rfl) inv.plans rfl ?_
      intro debited tried dispatched agrees
      rw [phase] at agrees
      exact moves.agrees inv.plans agrees
    | defer seen => exact inv.defer carries small (within _ rfl) phase seen rfl rfl
    | debit =>
      refine inv.debit (within _ rfl) (fun same => same ▸ carries) ?_ rfl rfl
      rw [phase]
      exact fun _ _ _ agrees => agrees
    | debitPlan =>
      have here := inv.agrees i
      rw [phase] at here
      refine inv.debit (within _ rfl) (fun same => by simpa using here.1 same) ?_ rfl rfl
      rw [phase]
      exact fun _ _ _ agrees => agrees.2
    | dispatch => exact inv.dispatch phase rfl rfl
    | rollback => exact inv.rollback (within _ rfl) phase rfl rfl

theorem debit_not_back (w : World) (session : String) (hasBudgets : Bool) (io : StoreIo) (applied : Bool) :
    (debit w session hasBudgets io).2.2 ≠ .rolledBack sid applied := by
  rcases debit_cases w session hasBudgets io with ⟨-, result⟩ | result | ⟨_, _, -, -, result⟩ <;> rw [result] <;> simp

/-- Only a store that refuses it keeps a rollback from taking effect. -/
theorem step_unapplied {event : Event} (unapplied : (step carriesBudget s event).2 = .rolledBack sid false) :
    ∃ i io message, event = .act i (.rollback io) ∧ io.fault = some (.refused message) := by
  cases event with
  | crash gone => cases unapplied
  | act i action =>
    have acts := act_acts carriesBudget s.world (s.requests i) action
    simp only [BudgetFlow.step] at unapplied
    generalize act carriesBudget s.world (s.requests i) action = done at acts unapplied
    generalize s.requests i = before at acts
    cases acts with
    | @rollback session flag io =>
      rcases rollback_cases s.world session flag io with ⟨-, result⟩ | ⟨applied, -, result, refused⟩
      · rw [result] at unapplied
        cases unapplied
      · rw [result] at unapplied
        simp only [Emission.rolledBack.injEq] at unapplied
        obtain ⟨message, fault⟩ := refused.mp unapplied.2
        exact ⟨i, io, message, rfl, fault⟩
    | debit => exact absurd unapplied (debit_not_back _ _ _ _ _)
    | debitPlan => exact absurd unapplied (debit_not_back _ _ _ _ _)
    | move moves => cases unapplied
    | defer seen => cases unapplied
    | dispatch => cases unapplied

/-- No request has come yet, and no plan of the session waits. -/
def Starts (sid : String) (s : State) : Prop :=
  (∀ plan ∈ s.world.plans, plan.1 ≠ sid) ∧ ∀ i, s.requests i = .idle

theorem run_inv {start : State} {calls : UInt64} {before : BudgetBackend} {ttlSecs : Nat} {now : Clock}
    {events : List Event} (carries : carriesBudget sid = true) (small : (calls.toNat : Int) < maxI64)
    (initialised : before.initBudgets sid calls ttlSecs now = (start.world.budgets, .ok ())) (starts : Starts sid start)
    (within : ∀ event ∈ events, ∀ clock ∈ event.clock, (start.world.budgets.current sid clock).isSome) :
    Inv sid calls.toNat (fun t => (start.world.budgets.current sid t).isSome)
      ((machine carriesBudget).trace start events) ((machine carriesBudget).run start events) := by
  have initial : Inv sid calls.toNat (fun t => (start.world.budgets.current sid t).isSome) [] start := by
    refine ⟨?_, ?_, ?_, ?_, ?_, ?_, ?_⟩
    · intro t alive
      obtain ⟨c, live⟩ := Option.isSome_iff_exists.mp alive
      rw [live, BudgetBackend.current_initBudgets initialised live, asI64_of_le small.le]
      simp [balance, debits, restored]
    · simp [balance, debits, restored]
    · exact fun plan member same => absurd same (starts.1 plan member)
    · intro i
      simp [starts.2 i, Phase.Agrees, confirmed, attempts, dispatchers]
    · simp [confirmed]
    · simp [attempts]
    · simp [dispatchers]
  have preserved : ∀ past s event,
      ((∀ entry ∈ past, ∀ clock ∈ Event.clock entry.1, (start.world.budgets.current sid clock).isSome) →
        Inv sid calls.toNat (fun t => (start.world.budgets.current sid t).isSome) past s) →
      (∀ entry ∈ past ++ [(event, ((machine carriesBudget).step s event).2)],
        ∀ clock ∈ Event.clock entry.1, (start.world.budgets.current sid clock).isSome) →
      Inv sid calls.toNat (fun t => (start.world.budgets.current sid t).isSome)
        (past ++ [(event, ((machine carriesBudget).step s event).2)]) ((machine carriesBudget).step s event).1 := by
    intro past s event inv all
    refine (inv fun entry member => all entry (by simp [member])).step carries small event ?_
    exact all (event, ((machine carriesBudget).step s event).2) (by simp)
  refine Machine.trace_invariant (fun _ => initial) preserved events ?_
  intro entry member
  have given : entry.1 ∈ events := by
    rw [← (machine carriesBudget).trace_inputs start events]
    exact List.mem_map_of_mem member
  exact within entry.1 given


/-- How the budget of a session is accounted for after a run: `alive` are the
times within the lifetime of the session. -/
structure Conserved (sid : String) (allowance : Int) (alive : Clock → Prop) (past : List (Event × Emission))
    (s : State) : Prop where
  counter : ∀ t, alive t → s.world.budgets.current sid t =
    some (allowance - (debits sid past).length + (restored sid past).length)
  nonneg : 0 ≤ allowance - (debits sid past).length + (restored sid past).length
  le : allowance - (debits sid past).length + (restored sid past).length ≤ allowance
  debitsOnce : (confirmed sid past).Nodup
  triesOnce : (attempts sid past).Nodup
  backed : ∀ i ∈ attempts sid past, i ∈ confirmed sid past ∧ i ∉ dispatchers sid past
  exactly : ∀ i, s.requests i = .done →
    (i ∈ attempts sid past ↔ i ∈ confirmed sid past ∧ i ∉ dispatchers sid past)
  unapplied : ∀ entry ∈ past, entry.2 = .rolledBack sid false →
    ∃ i io message, entry.1 = .act i (.rollback io) ∧ io.fault = some (.refused message)
  dispatches : ((dispatchers sid past).length : Int) ≤ allowance

/-- However requests interleave within the lifetime of a session, its counter
stays between zero and the allowance and is what the debits and the applied
rollbacks make it; a request rolls back once, and exactly when it returns
after a debit without having dispatched; so dispatches do not exceed the
allowance. -/
theorem budget_conserved (carriesBudget : String → Bool) (sid : String) (calls : UInt64) (before : BudgetBackend)
    (ttlSecs : Nat) (now : Clock) (start : State) (events : List Event) (carries : carriesBudget sid = true)
    (small : (calls.toNat : Int) < maxI64)
    (initialised : before.initBudgets sid calls ttlSecs now = (start.world.budgets, .ok ())) (starts : Starts sid start)
    (within : ∀ event ∈ events, ∀ clock ∈ event.clock, (start.world.budgets.current sid clock).isSome) :
    Conserved sid calls.toNat (fun t => (start.world.budgets.current sid t).isSome)
      ((machine carriesBudget).trace start events) ((machine carriesBudget).run start events) := by
  have inv := run_inv carries small initialised starts within
  have spent := inv.spent
  have enough := inv.enough
  unfold balance at enough
  refine ⟨inv.counter, enough, inv.balance_le, inv.debitsOnce, inv.triesOnce, ?_, ?_, ?_, by omega⟩
  · exact fun i member => (inv.agrees i).tried member
  · intro i done
    have agrees := inv.agrees i
    rw [done] at agrees
    exact agrees.1
  · have all : ∀ past s event, (∀ entry ∈ past, entry.2 = .rolledBack sid false →
        ∃ i io message, entry.1 = .act i (.rollback io) ∧ io.fault = some (.refused message)) →
        ∀ entry ∈ past ++ [(event, ((machine carriesBudget).step s event).2)], entry.2 = .rolledBack sid false →
          ∃ i io message, entry.1 = .act i (.rollback io) ∧ io.fault = some (.refused message) := by
      intro past s event old entry member unapplied
      rcases List.mem_append.mp member with earlier | now
      · exact old entry earlier unapplied
      · rw [List.mem_singleton] at now
        subst now
        exact step_unapplied unapplied
    exact Machine.trace_invariant (by simp) all events

end Run

/-- One session with an allowance of five calls. -/
def oneSession : State where
  world := { budgets := .inMemory ((∅ : AList fun _ : String => Int).insert "s1" 5) }
  requests := fun _ => .idle

/-- A request that debits, fails to build its task and rolls back. -/
def deniedRequest (fault : Option StoreFault) : List Event :=
  [.act 0 (.receive "s1"), .act 0 (.evaluate { clock := .atSecond 1 "" } .allow),
    .act 0 (.debit { clock := .atSecond 1 "" }), .act 0 (.build false),
    .act 0 (.rollback { clock := .atSecond 1 "", fault })]

theorem oneSession_initialised : BudgetBackend.initBudgets (.inMemory ∅) "s1" 5 60 (.atSecond 0 "") =
    (oneSession.world.budgets, .ok ()) := rfl

theorem oneSession_starts : Starts "s1" oneSession :=
  ⟨by simp [oneSession], fun _ => rfl⟩

theorem deniedRequest_within (fault : Option StoreFault) : ∀ event ∈ deniedRequest fault, ∀ clock ∈ event.clock,
    (oneSession.world.budgets.current "s1" clock).isSome := by
  intro event _ clock _
  rfl

theorem budget_conserved_deniedRequest :
    attempts "s1" ((machine fun _ => true).trace oneSession (deniedRequest none)) = [0] ∧
      Conserved "s1" 5 (fun t => (oneSession.world.budgets.current "s1" t).isSome)
        ((machine fun _ => true).trace oneSession (deniedRequest none))
        ((machine fun _ => true).run oneSession (deniedRequest none)) :=
  ⟨rfl, budget_conserved (fun _ => true) "s1" 5 (.inMemory ∅) 60 (.atSecond 0 "") oneSession (deniedRequest none) rfl
    (by decide) oneSession_initialised oneSession_starts (deniedRequest_within none)⟩

/-- A debit whose rollback the store refuses stays, although its request ended
without a dispatch. -/
theorem rollback_refused :
    ¬∀ (carriesBudget : String → Bool) (sid : String) (calls : UInt64) (before : BudgetBackend) (ttlSecs : Nat)
      (now : Clock) (start : State) (events : List Event), carriesBudget sid = true →
      before.initBudgets sid calls ttlSecs now = (start.world.budgets, .ok ()) → Starts sid start →
      (∀ event ∈ events, ∀ clock ∈ event.clock, (start.world.budgets.current sid clock).isSome) →
      ∀ i, ((machine carriesBudget).run start events).requests i = .done →
        (i ∈ restored sid ((machine carriesBudget).trace start events) ↔
          i ∈ confirmed sid ((machine carriesBudget).trace start events) ∧
            i ∉ dispatchers sid ((machine carriesBudget).trace start events)) := by
  intro always
  have exact_ := always (fun _ => true) "s1" 5 (.inMemory ∅) 60 (.atSecond 0 "") oneSession
    (deniedRequest (some (.refused "connection reset"))) rfl oneSession_initialised oneSession_starts
    (deniedRequest_within _) 0 rfl
  have back : 0 ∈ restored "s1" ((machine fun _ => true).trace oneSession
      (deniedRequest (some (.refused "connection reset")))) := exact_.mpr (by decide)
  exact absurd back (by decide)

end BudgetFlow
end Latchgate
