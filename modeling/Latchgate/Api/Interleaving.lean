import Latchgate.Api.Settlement

namespace Latchgate
namespace Interleaving

inductive Decision where
  | approve
  | deny (reason : String)

/-- How far a request has come. From `claimed` to `consumed` it holds a claim
and has not dispatched; from `recording` on it will not dispatch any more. -/
inductive Phase where
  | idle
  | waiting (decision : Decision) (id operator : String)
  | claimed (decision : Decision) (id token : String)
  | handed (id token : String)
  | built (id token grantId : String)
  | consumed (id token : String)
  | recording (id token : String) (kind : TerminalKind) (detail : String)
  | marking (id token : String) (kind : TerminalKind) (detail : String)
  | completing (id token : String) (kind : TerminalKind) (detail : String)
  | done

/-- What building the grant of an approval comes to: the path to learn is
refused, preparing the plan fails, or a grant is made. -/
inductive BuildResult where
  | pathRefused
  | failed (error : PipelineError)
  | grant (grantId : String)

/-- The steps a request can take, with what happens to the calls made in them. -/
inductive Action where
  | arrive (decision : Decision) (id operator : String)
  | claim (io : StoreIo) (token : String)
  | check (ledgerRead : Option LedgerFault) (reconcile : StoreIo)
  | build (result : BuildResult)
  | consume (checks : Except PipelineError Unit)
  | dispatch (result : Except PipelineError String)
  | record (fault : Option LedgerFault) (createdAt : String)
  | mark (io : StoreIo)
  | complete (io : StoreIo) (traceId : String)

inductive Emission where
  | nothing
  | granted (id : String) (renewed : Bool)
  | dispatched (id : String)
  deriving DecidableEq

/-- What the requests share: the stores of `Gate` and the consumed grants. -/
structure World extends Gate where
  consumedGrants : List String := []

/-- A claim that is granted now takes over an earlier one. -/
def renews (store : ApprovalBackend) (id : String) : Bool :=
  match store.view id with
  | some r => decide (r.state = .claimed)
  | none => false

section Steps
variable (config : StoreConfig)

/-- One step of a request. A step that is not its turn changes nothing. -/
def act (w : World) : Phase → Action → World × Phase × Emission
  | .idle, .arrive decision id operator => (w, .waiting decision id operator, .nothing)
  | .waiting decision id operator, .claim io token =>
    let (store, result) := w.store.claimPending config io id operator token
    match result with
    | .ok _ => ({ w with store }, .claimed decision id token, .granted id (renews w.store id))
    | .error _ => ({ w with store }, .done, .nothing)
  | .claimed decision id token, .check ledgerRead reconcile =>
    if hasDurableOutcome w.outcomes ledgerRead id then
      ({ w with toGate := failAlreadyExecuted config w.toGate reconcile id token }, .done, .nothing)
    else match decision with
      | .approve => (w, .handed id token, .nothing)
      | .deny reason => (w, .recording id token .denied reason, .nothing)
  | .handed id token, .build result =>
    match result with
    | .pathRefused => (w, .done, .nothing)
    | .failed error => (w, .recording id token .failed error.display, .nothing)
    | .grant grantId => (w, .built id token grantId, .nothing)
  | .built id token grantId, .consume checks =>
    match checks with
    | .error error => (w, .recording id token .failed error.display, .nothing)
    | .ok () =>
      if grantId ∈ w.consumedGrants then
        (w, .recording id token .failed (PipelineError.grantConsumed grantId).display, .nothing)
      else ({ w with consumedGrants := grantId :: w.consumedGrants }, .consumed id token, .nothing)
  | .consumed id token, .dispatch result =>
    match result with
    | .ok receiptId => (w, .recording id token .approved receiptId, .dispatched id)
    | .error error => (w, .recording id token .failed error.display, .dispatched id)
  | .recording id token kind detail, .record fault createdAt =>
    ({ w with outcomes := writeDurableOutcome w.outcomes fault id kind.state.asStr detail createdAt },
      .marking id token kind detail, .nothing)
  | .marking id token kind detail, .mark io =>
    ({ w with store := (w.store.call config io (.writeOutcomeMarker id token kind.state.asStr detail)).1 },
      .completing id token kind detail, .nothing)
  | .completing id token kind detail, .complete io traceId =>
    ({ w with store := (w.store.call config io (.complete kind id token traceId detail)).1 }, .done, .nothing)
  | phase, _ => (w, phase, .nothing)

/-- A step of one request, or a crash that stops requests where they are. -/
inductive Event where
  | act (request : Nat) (action : Action)
  | crash (lost : List Nat)

structure State where
  world : World
  requests : Nat → Phase

/-- The in-memory store lives in the process and is lost with it. -/
def afterCrash : ApprovalBackend → ApprovalBackend
  | .inMemory _ => .inMemory ∅
  | b => b

def step (s : State) : Event → State × Emission
  | .act i action =>
    let (world, phase, emission) := act config s.world (s.requests i) action
    (⟨world, Function.update s.requests i phase⟩, emission)
  | .crash lost =>
    (⟨{ s.world with store := afterCrash s.world.store },
      fun i => if i ∈ lost then .done else s.requests i⟩, .nothing)

def machine : Machine State Event Emission where
  step := step config

end Steps

def Event.request : Event → Option Nat
  | .act i _ => some i
  | .crash _ => none

/-- The requests that dispatched the provider for an approval. -/
def dispatchers (id : String) (past : List (Event × Emission)) : List Nat :=
  Machine.agents Event.request (· = .dispatched id) past

/-- The requests that were granted a claim of an approval, with a taken over
lease or without. -/
def claimants (id : String) (renewed : Bool) (past : List (Event × Emission)) : List Nat :=
  Machine.agents Event.request (· = .granted id renewed) past

/-- The request holds a claim of the approval and has not dispatched. -/
def Phase.Holds (id : String) : Phase → Prop
  | .claimed _ other _ | .handed other _ | .built other _ _ | .consumed other _ => other = id
  | _ => False

/-- The request will not dispatch any more. -/
def Phase.Past : Phase → Prop
  | .recording .. | .marking .. | .completing .. | .done => True
  | _ => False

variable {config : StoreConfig}

/-- Everything a step can mean for claims and dispatches. -/
theorem act_cases (config : StoreConfig) (w : World) (phase : Phase) (action : Action) :
    (∃ decision id operator io token claimed, phase = .waiting decision id operator ∧ action = .claim io token ∧
      (w.store.claimPending config io id operator token).2 = .ok claimed ∧
      (act config w phase action).1.store = (w.store.claimPending config io id operator token).1 ∧
      (act config w phase action).2 = (.claimed decision id token, .granted id (renews w.store id))) ∨
    (∃ id token, phase = .consumed id token ∧ (act config w phase action).1 = w ∧
      (act config w phase action).2.1.Past ∧ (act config w phase action).2.2 = .dispatched id) ∨
    ((act config w phase action).2.2 = .nothing ∧
      (phase.Past → (act config w phase action).2.1.Past) ∧
      ∀ id, (act config w phase action).2.1.Holds id → phase.Holds id) := by
  cases phase with
  | idle => exact .inr (.inr (by cases action <;> simp [act, Phase.Past, Phase.Holds]))
  | waiting decision id operator =>
    cases action with
    | claim io token =>
      cases granted : (w.store.claimPending config io id operator token).2 with
      | ok claimed => exact .inl ⟨decision, id, operator, io, token, claimed, rfl, rfl, granted, by simp [act, granted]⟩
      | error e => exact .inr (.inr (by simp [act, granted, Phase.Past, Phase.Holds]))
    | _ => exact .inr (.inr (by simp [act, Phase.Past, Phase.Holds]))
  | claimed decision id token =>
    refine .inr (.inr ?_)
    cases action with
    | check ledgerRead reconcile =>
      cases seen : hasDurableOutcome w.outcomes ledgerRead id <;> cases decision <;>
        simp [act, seen, Phase.Past, Phase.Holds]
    | _ => simp [act, Phase.Past, Phase.Holds]
  | handed id token =>
    refine .inr (.inr ?_)
    cases action with
    | build result => cases result <;> simp [act, Phase.Past, Phase.Holds]
    | _ => simp [act, Phase.Past, Phase.Holds]
  | built id token grantId =>
    refine .inr (.inr ?_)
    cases action with
    | consume checks =>
      cases checks with
      | error e => simp [act, Phase.Past, Phase.Holds]
      | ok _ => by_cases used : grantId ∈ w.consumedGrants <;> simp [act, used, Phase.Past, Phase.Holds]
    | _ => simp [act, Phase.Past, Phase.Holds]
  | consumed id token =>
    cases action with
    | dispatch result =>
      refine .inr (.inl ⟨id, token, rfl, ?_⟩)
      cases result <;> simp [act, Phase.Past]
    | _ => exact .inr (.inr (by simp [act, Phase.Past, Phase.Holds]))
  | recording id token kind detail => exact .inr (.inr (by cases action <;> simp [act, Phase.Past, Phase.Holds]))
  | marking id token kind detail => exact .inr (.inr (by cases action <;> simp [act, Phase.Past, Phase.Holds]))
  | completing id token kind detail => exact .inr (.inr (by cases action <;> simp [act, Phase.Past, Phase.Holds]))
  | done => exact .inr (.inr (by cases action <;> simp [act, Phase.Past, Phase.Holds]))

/-- A step leaves the store alone or makes one call that creates nothing. -/
theorem act_store (config : StoreConfig) (w : World) (phase : Phase) (action : Action) :
    (act config w phase action).1.store = w.store ∨ ∃ io op, (∀ pending, op ≠ .createPending pending) ∧
      (act config w phase action).1.store = (w.store.call config io op).1 := by
  unfold act
  split
  · exact .inl rfl
  · rename_i decision id operator io token
    refine .inr ⟨io, .claimPending id operator token, by simp, ?_⟩
    dsimp only
    split <;> rfl
  · rename_i decision id token ledgerRead reconcile
    split_ifs
    · exact .inr ⟨reconcile, .complete .failed id token "reconcile" "already_executed", by simp, rfl⟩
    · cases decision <;> exact .inl rfl
  · rename_i result
    cases result <;> exact .inl rfl
  · rename_i checks
    cases checks
    · exact .inl rfl
    · dsimp only
      split_ifs <;> exact .inl rfl
  · rename_i result
    cases result <;> exact .inl rfl
  · exact .inl rfl
  · exact .inr ⟨_, _, by simp, rfl⟩
  · exact .inr ⟨_, _, by simp, rfl⟩
  · exact .inl rfl

/-- The approval is not, or no longer, waiting for its first claim. -/
def NotPending (store : ApprovalBackend) (id : String) : Prop :=
  ∀ r, store.view id = some r → r.state ≠ .pending

/-- Nothing but its creation makes an approval pending. -/
theorem call_notPending {b : ApprovalBackend} {id : String} {io : StoreIo} {op : ApprovalOp} (sound : b.Sound)
    (existing : ∀ pending, op ≠ .createPending pending) (decided : NotPending b id) :
    NotPending (b.call config io op).1 id := by
  have stepped : NotPending (b.step config ⟨io.clock, op⟩).1 id := by
    have step := (ApprovalBackend.step_record config sound ⟨io.clock, op⟩).2 id
    intro r kept
    generalize answer : (b.step config ⟨io.clock, op⟩).2 = a at step
    generalize before : b.view id = x at step
    rw [kept] at step
    cases step with
    | stay => exact decided r before
    | create made => exact absurd made (existing _)
    | claim => simp
    | mark _ claimed => simp [claimed]
    | @complete _ kind => cases kind <;> simp [TerminalKind.state]
  unfold ApprovalBackend.call
  cases io.fault with
  | none => exact stepped
  | some fault =>
    cases fault with
    | refused => exact decided
    | answerLost => exact stepped

theorem act_sound (w : World) (phase : Phase) (action : Action) (sound : w.store.Sound) :
    (act config w phase action).1.store.Sound := by
  rcases act_store config w phase action with same | ⟨io, op, -, called⟩
  · rwa [same]
  · rw [called]
    exact call_sound sound io op

theorem act_notPending {w : World} {id : String} (phase : Phase) (action : Action) (sound : w.store.Sound)
    (decided : NotPending w.store id) : NotPending (act config w phase action).1.store id := by
  rcases act_store config w phase action with same | ⟨io, op, existing, called⟩
  · rwa [same]
  · rw [called]
    exact call_notPending sound existing decided

/-- A claim that renews no other one is the first, and a claim that renews
one comes after its lease has run out. -/
theorem claim_renews {b : ApprovalBackend} {io : StoreIo} {id operator token : String} {claimed : ClaimedApproval}
    (sound : b.Sound) (granted : (b.claimPending config io id operator token).2 = .ok claimed) :
    (renews b id = false ∧ ¬NotPending b id ∨
      renews b id = true ∧ ∃ r previous, b.view id = some r ∧ r.state = .claimed ∧ r.outcomeMarker = none ∧
        r.claim = some previous ∧ previous.claimExpiresAtUnix ≤ (b.traits config).now io.clock) ∧
    NotPending (b.claimPending config io id operator token).1 id := by
  obtain ⟨-, answer⟩ := claimPending_ok.1 granted
  have step := (ApprovalBackend.step_record config sound ⟨io.clock, .claimPending id operator token⟩).2 id
  rw [answer] at step
  obtain ⟨r, before, claimable, -⟩ := step.claim_ok rfl
  obtain ⟨-, ⟨s, kept, state, -, -⟩, -⟩ := claimPending_merelyClaimed sound granted
  constructor
  · rcases claimable with pending | ⟨again, unmarked, previous, holder, expired⟩
    · exact .inl ⟨by simp [renews, before, pending], fun decided => decided r before pending⟩
    · exact .inr ⟨by simp [renews, before, again], r, previous, before, again, unmarked, holder, expired⟩
  · intro t same
    obtain rfl : s = t := Option.some.inj (kept.symm.trans same)
    simp [state]

/-- What the past of a run says about its present state. -/
structure Inv (id : String) (past : List (Event × Emission)) (s : State) : Prop where
  sound : s.world.store.Sound
  first : (claimants id false past).length ≤ 1
  decided : claimants id false past ≠ [] → NotPending s.world.store id
  once : (dispatchers id past).Nodup
  spent : ∀ i ∈ dispatchers id past, (s.requests i).Past ∧ i ∈ claimants id false past ++ claimants id true past
  holding : ∀ i, (s.requests i).Holds id → i ∈ claimants id false past ++ claimants id true past

/-- An event that grants and dispatches nothing for the approval. -/
theorem Inv.quiet {id : String} {past : List (Event × Emission)} {s t : State} {event : Event} {e : Emission}
    (inv : Inv id past s) (silent : e ≠ .dispatched id ∧ ∀ renewed, e ≠ .granted id renewed)
    (sound : t.world.store.Sound) (decided : NotPending s.world.store id → NotPending t.world.store id)
    (spent : ∀ i, (s.requests i).Past → (t.requests i).Past)
    (holding : ∀ i, (t.requests i).Holds id → (s.requests i).Holds id) :
    Inv id (past ++ [(event, e)]) t := by
  have dispatched : dispatchers id (past ++ [(event, e)]) = dispatchers id past := by
    simp [dispatchers, Machine.agents_concat, silent.1]
  have claimed : ∀ renewed, claimants id renewed (past ++ [(event, e)]) = claimants id renewed past := by
    intro renewed
    simp [claimants, Machine.agents_concat, silent.2 renewed]
  refine ⟨sound, ?_, ?_, ?_, ?_, ?_⟩
  · simpa only [claimed] using inv.first
  · simpa only [claimed] using fun some_ => decided (inv.decided some_)
  · simpa only [dispatched] using inv.once
  · simpa only [dispatched, claimed] using fun i member => ⟨spent i (inv.spent i member).1, (inv.spent i member).2⟩
  · simpa only [claimed] using fun i holds => inv.holding i (holding i holds)

/-- The same for a step of one request. -/
theorem Inv.quiet_act {id : String} {past : List (Event × Emission)} {s t : State} {event : Event} {e : Emission}
    {i : Nat} {phase : Phase} (inv : Inv id past s)
    (silent : e ≠ .dispatched id ∧ ∀ renewed, e ≠ .granted id renewed)
    (sound : t.world.store.Sound) (decided : NotPending s.world.store id → NotPending t.world.store id)
    (next : t.requests = Function.update s.requests i phase) (spent : (s.requests i).Past → phase.Past)
    (holding : phase.Holds id → (s.requests i).Holds id) : Inv id (past ++ [(event, e)]) t := by
  refine inv.quiet silent sound decided ?_ ?_
  · intro j ended
    rw [next]
    by_cases same : j = i
    · subst j
      rw [Function.update_self]
      exact spent ended
    · rwa [Function.update_of_ne same]
  · intro j holds
    rw [next] at holds
    by_cases same : j = i
    · subst j
      rw [Function.update_self] at holds
      exact holding holds
    · rwa [Function.update_of_ne same] at holds

/-- A claim of the approval is granted to a request that has not claimed before. -/
theorem Inv.grant {id : String} {past : List (Event × Emission)} {s t : State} {i : Nat} {action : Action}
    {phase : Phase} {renewed : Bool} (inv : Inv id past s) (sound : t.world.store.Sound)
    (decided : NotPending t.world.store id) (first : renewed = false → ¬NotPending s.world.store id)
    (waiting : ¬(s.requests i).Past) (next : t.requests = Function.update s.requests i phase) :
    Inv id (past ++ [(.act i action, .granted id renewed)]) t := by
  have dispatched : dispatchers id (past ++ [(Event.act i action, Emission.granted id renewed)]) = dispatchers id past := by
    simp [dispatchers, Machine.agents_concat]
  have claimed : ∀ again, claimants id again (past ++ [(Event.act i action, Emission.granted id renewed)]) =
      claimants id again past ++ if again = renewed then [i] else [] := by
    intro again
    by_cases same : again = renewed
    · simp [claimants, Machine.agents_concat, Event.request, same]
    · simp [claimants, Machine.agents_concat, same, Ne.symm same]
  have kept : ∀ j, j ∈ claimants id false past ++ claimants id true past →
      j ∈ claimants id false (past ++ [(Event.act i action, Emission.granted id renewed)]) ++
        claimants id true (past ++ [(Event.act i action, Emission.granted id renewed)]) := by
    intro j member
    rw [claimed, claimed]
    rcases List.mem_append.mp member with old | old <;> simp [old]
  refine ⟨sound, ?_, fun _ => decided, ?_, ?_, ?_⟩
  · rw [claimed]
    cases renewed with
    | true => simpa using inv.first
    | false =>
      have none_ : claimants id false past = [] := by
        by_contra some_
        exact first rfl (inv.decided some_)
      simp [none_]
  · simpa only [dispatched] using inv.once
  · intro j member
    rw [dispatched] at member
    obtain ⟨ended, before⟩ := inv.spent j member
    have other : j ≠ i := by
      rintro rfl
      exact waiting ended
    refine ⟨?_, kept j before⟩
    rw [next, Function.update_of_ne other]
    exact ended
  · intro j holds
    by_cases same : j = i
    · subst j
      rw [claimed, claimed]
      cases renewed <;> simp
    · rw [next, Function.update_of_ne same] at holds
      exact kept j (inv.holding j holds)

/-- A request that holds a claim dispatches the provider, for the first time. -/
theorem Inv.dispatch {id : String} {past : List (Event × Emission)} {s t : State} {i : Nat} {action : Action}
    {phase : Phase} (inv : Inv id past s) (unchanged : t.world = s.world) (holds : (s.requests i).Holds id)
    (before : ¬(s.requests i).Past) (spent : phase.Past) (after : ¬phase.Holds id)
    (next : t.requests = Function.update s.requests i phase) :
    Inv id (past ++ [(.act i action, .dispatched id)]) t := by
  have dispatched : dispatchers id (past ++ [(Event.act i action, Emission.dispatched id)]) = dispatchers id past ++ [i] := by
    simp [dispatchers, Machine.agents_concat, Event.request]
  have claimed : ∀ again, claimants id again (past ++ [(Event.act i action, Emission.dispatched id)]) = claimants id again past := by
    intro again
    simp [claimants, Machine.agents_concat]
  refine ⟨unchanged ▸ inv.sound, ?_, ?_, ?_, ?_, ?_⟩
  · simpa only [claimed] using inv.first
  · simpa only [claimed, unchanged] using inv.decided
  · rw [dispatched]
    refine inv.once.append (List.nodup_singleton i) ?_
    simpa using fun member => before (inv.spent i member).1
  · intro j member
    rw [claimed, claimed]
    rw [dispatched, List.mem_append, List.mem_singleton] at member
    rcases member with old | rfl
    · refine ⟨?_, (inv.spent j old).2⟩
      have other : j ≠ i := by
        rintro rfl
        exact before (inv.spent j old).1
      rw [next, Function.update_of_ne other]
      exact (inv.spent j old).1
    · refine ⟨?_, inv.holding j holds⟩
      rw [next, Function.update_self]
      exact spent
  · intro j still
    rw [claimed, claimed]
    have other : j ≠ i := by
      rintro rfl
      rw [next, Function.update_self] at still
      exact after still
    rw [next, Function.update_of_ne other] at still
    exact inv.holding j still

theorem afterCrash_sound {b : ApprovalBackend} (sound : b.Sound) : (afterCrash b).Sound := by
  cases b with
  | inMemory map => exact ApprovalBackend.Empty.inMemory.sound
  | sqlite db => exact sound
  | redis db => exact sound

theorem afterCrash_notPending {b : ApprovalBackend} {id : String} (decided : NotPending b id) :
    NotPending (afterCrash b) id := by
  cases b with
  | inMemory map =>
    intro r kept
    cases kept
  | sqlite db => exact decided
  | redis db => exact decided

theorem Inv.step {id : String} {past : List (Event × Emission)} {s : State} (inv : Inv id past s) (event : Event) :
    Inv id (past ++ [(event, (step config s event).2)]) (step config s event).1 := by
  cases event with
  | crash lost =>
    refine inv.quiet (by simp [Interleaving.step]) (afterCrash_sound inv.sound)
      afterCrash_notPending ?_ ?_
    · intro i spent
      by_cases gone : i ∈ lost
      · simp [Interleaving.step, gone, Phase.Past]
      · simpa [Interleaving.step, gone] using spent
    · intro i holds
      by_cases gone : i ∈ lost
      · simp [Interleaving.step, gone, Phase.Holds] at holds
      · simpa [Interleaving.step, gone] using holds
  | act i action =>
    have sound : (Interleaving.step config s (.act i action)).1.world.store.Sound :=
      act_sound s.world (s.requests i) action inv.sound
    have decided : NotPending s.world.store id →
        NotPending (Interleaving.step config s (.act i action)).1.world.store id :=
      act_notPending (s.requests i) action inv.sound
    rcases act_cases config s.world (s.requests i) action with
      ⟨decision, other, operator, io, token, claimed, waiting, rfl, granted, store, rest⟩ |
      ⟨other, token, consumed, same, spent, dispatched⟩ | ⟨quiet, spent, holding⟩
    · have emission : (Interleaving.step config s (.act i (.claim io token))).2 =
          .granted other (renews s.world.store other) := congrArg Prod.snd rest
      have next : (Interleaving.step config s (.act i (.claim io token))).1.requests =
          Function.update s.requests i (.claimed decision other token) :=
        congrArg (fun p => Function.update s.requests i p) (congrArg Prod.fst rest)
      rw [emission]
      by_cases same : other = id
      · subst other
        obtain ⟨kinds, after⟩ := claim_renews inv.sound granted
        refine inv.grant sound (store ▸ after) ?_ (by simp [waiting, Phase.Past]) next
        intro fresh
        rcases kinds with ⟨-, pending⟩ | ⟨renewed, -⟩
        · exact pending
        · rw [fresh] at renewed
          cases renewed
      · exact inv.quiet_act (by simp [same]) sound decided next (by simp [waiting, Phase.Past])
          (fun holds => absurd holds same)
    · have emission : (Interleaving.step config s (.act i action)).2 = .dispatched other := dispatched
      have next : (Interleaving.step config s (.act i action)).1.requests =
          Function.update s.requests i (act config s.world (s.requests i) action).2.1 := rfl
      have after : ∀ held, ¬(act config s.world (s.requests i) action).2.1.Holds held := by
        intro held holds
        generalize (act config s.world (s.requests i) action).2.1 = phase at spent holds
        cases phase <;> simp [Phase.Past, Phase.Holds] at spent holds
      rw [emission]
      by_cases here : other = id
      · subst other
        exact inv.dispatch same (by simp [consumed, Phase.Holds]) (by simp [consumed, Phase.Past]) spent (after id) next
      · exact inv.quiet_act (by simp [here]) sound decided next (fun _ => spent)
          (fun holds => absurd holds (after id))
    · have emission : (Interleaving.step config s (.act i action)).2 = .nothing := quiet
      rw [emission]
      exact inv.quiet_act (by simp) sound decided rfl spent (holding id)

/-- Requests that are yet to come find any store. -/
def Starts (s : State) : Prop :=
  s.world.store.Sound ∧ ∀ i, s.requests i = .idle

theorem run_inv {start : State} (starts : Starts start) (id : String) (events : List Event) :
    Inv id ((machine config).trace start events) ((machine config).run start events) := by
  have initial : Inv id [] start := by
    refine ⟨starts.1, by simp [claimants], by simp [claimants], by simp [dispatchers], by simp [dispatchers], ?_⟩
    intro i holds
    simp [starts.2 i, Phase.Holds] at holds
  have preserved : ∀ past s event, Inv id past s →
      Inv id (past ++ [(event, ((machine config).step s event).2)]) ((machine config).step s event).1 :=
    fun past s event inv => inv.step event
  exact Machine.trace_invariant initial preserved events

/-- A pending approval, and no requests yet. -/
def fresh : State where
  world := { store := pendingStore (.testDefault "a1"), outcomes := ∅ }
  requests := fun _ => .idle

/-- A request that claims at a second and gets as far as dispatching. -/
def approval (i second : Nat) (token grantId : String) : List Event :=
  [.act i (.arrive .approve "a1" "op:alice"),
    .act i (.claim { clock := .atSecond second "1970-01-01T00:00:00+00:00" } token),
    .act i (.check none { clock := .atSecond second "1970-01-01T00:00:00+00:00" }),
    .act i (.build (.grant grantId)),
    .act i (.consume (.ok ())),
    .act i (.dispatch (.ok "rcpt-1"))]

theorem fresh_starts : Starts fresh :=
  ⟨pendingStore_sound (.testDefault "a1"), fun _ => rfl⟩

end Interleaving
end Latchgate
