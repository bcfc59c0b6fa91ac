import Latchgate.Machine.Run
import Latchgate.Policy.Answer

namespace Latchgate
namespace EngineCache

/-! The engines that the threads keep. Every pair of sources and data that is put in
force gets a generation of its own. -/

/-- The evaluator: what it compiles, and how a compiled engine answers an input
and what it is afterwards. -/
structure Rego (Sources Engine Input Value : Type) where
  build : Sources → Except String Engine
  eval : Engine → Input → Engine × Except PolicyError Value

namespace Rego
variable {Sources Engine Input Value : Type} (rego : Rego Sources Engine Input Value)

/-- The engine after some evaluations. -/
def replay (engine : Engine) (inputs : List Input) : Engine :=
  inputs.foldl (fun engine input => (rego.eval engine input).1) engine

/-- A compiled engine answers as on its first use. -/
def Reusable : Prop :=
  ∀ sources engine, rego.build sources = .ok engine → ∀ inputs input,
    (rego.eval (rego.replay engine inputs) input).2 = (rego.eval engine input).2

/-- What an engine that is compiled for the purpose answers. -/
def fresh (sources : Sources) (input : Input) : Except PolicyError Value :=
  match rego.build sources with
  | .ok engine => (rego.eval engine input).2
  | .error e => .error (.opaUnavailable e)

end Rego

structure PolicySources (Sources : Type) where
  sources : Sources
  generation : Nat

structure CachedEngine (Engine : Type) where
  generation : Nat
  engine : Engine

/-- The counter wraps around. Zero is no generation. -/
def nextGeneration (counter : Nat) : Nat :=
  (counter + 1) % 2 ^ 64

/-- All policies of the process, and for each thread its engine and the evaluation
it is in. -/
structure Process (Policy Thread Sources Engine Input : Type) where
  counter : Nat := 1
  policies : Policy → Option (PolicySources Sources) := fun _ => none
  cache : Thread → Option (CachedEngine Engine) := fun _ => none
  evaluating : Thread → Option (PolicySources Sources × Input) := fun _ => none

/-- A thread first takes a snapshot of the sources; what it evaluates may panic. -/
inductive Event (Policy Thread Sources Input : Type) where
  | create (policy : Policy) (sources : Sources)
  | reload (policy : Policy) (sources : Sources)
  | snapshot (thread : Thread) (policy : Policy) (input : Input)
  | evaluate (thread : Thread) (panics : Bool)

section Steps
variable {Policy Thread Sources Engine Input Value : Type} [DecidableEq Policy] [DecidableEq Thread]
variable (rego : Rego Sources Engine Input Value) (s : Process Policy Thread Sources Engine Input)

/-- Sources that do not compile change nothing. -/
def putInForce (policy : Policy) (sources : Sources) : Process Policy Thread Sources Engine Input :=
  match rego.build sources with
  | .error _ => s
  | .ok _ =>
    { s with
      counter := nextGeneration s.counter
      policies := Function.update s.policies policy (some ⟨sources, s.counter⟩) }

/-- The engine of the thread, compiled anew if it is of another generation. -/
def cachedEngine (thread : Thread) (snapshot : PolicySources Sources) : Except String (CachedEngine Engine) :=
  match s.cache thread with
  | some cached =>
    if cached.generation = snapshot.generation then .ok cached
    else (rego.build snapshot.sources).map fun engine => ⟨snapshot.generation, engine⟩
  | none => (rego.build snapshot.sources).map fun engine => ⟨snapshot.generation, engine⟩

def panicked : PolicyError :=
  .opaUnavailable "embedded policy evaluator panicked"

def runEngine (thread : Thread) (snapshot : PolicySources Sources) (input : Input) (panics : Bool) :
    Process Policy Thread Sources Engine Input × Except PolicyError Value :=
  match cachedEngine rego s thread snapshot with
  | .error e => (s, .error (.opaUnavailable e))
  | .ok cached =>
    if panics then ({ s with cache := Function.update s.cache thread none }, .error panicked)
    else
      let (engine, answer) := rego.eval cached.engine input
      ({ s with cache := Function.update s.cache thread (some { cached with engine }) }, answer)

def step : Event Policy Thread Sources Input → Process Policy Thread Sources Engine Input × Option (Except PolicyError Value)
  | .create policy sources =>
    if (s.policies policy).isSome then (s, none) else (putInForce rego s policy sources, none)
  | .reload policy sources =>
    if (s.policies policy).isSome then (putInForce rego s policy sources, none) else (s, none)
  | .snapshot thread policy input =>
    match s.policies policy, s.evaluating thread with
    | some inForce, none =>
      ({ s with evaluating := Function.update s.evaluating thread (some (inForce, input)) }, none)
    | _, _ => (s, none)
  | .evaluate thread panics =>
    match s.evaluating thread with
    | none => (s, none)
    | some (snapshot, input) =>
      let (s, answer) := runEngine rego s thread snapshot input panics
      ({ s with evaluating := Function.update s.evaluating thread none }, some answer)

def process : Machine (Process Policy Thread Sources Engine Input) (Event Policy Thread Sources Input)
    (Option (Except PolicyError Value)) where
  step := step rego

/-! What the generations promise. -/

variable {rego} {s}

/-- Sources that a policy has in force or that an evaluation goes by. -/
def Live (s : Process Policy Thread Sources Engine Input) (tagged : PolicySources Sources) : Prop :=
  (∃ policy, s.policies policy = some tagged) ∨ ∃ thread input, s.evaluating thread = some (tagged, input)

/-- No generation stands for two pairs of sources, and an engine that is kept is one
of the sources of its generation. -/
structure Coherent (rego : Rego Sources Engine Input Value) (s : Process Policy Thread Sources Engine Input) : Prop where
  below : ∀ tagged, Live s tagged → tagged.generation < s.counter
  cacheBelow : ∀ thread cached, s.cache thread = some cached → cached.generation < s.counter
  same : ∀ a b, Live s a → Live s b → a.generation = b.generation → a.sources = b.sources
  builds : ∀ tagged, Live s tagged → ∃ engine, rego.build tagged.sources = .ok engine
  kept : ∀ thread cached tagged, s.cache thread = some cached → Live s tagged → tagged.generation = cached.generation →
    ∃ engine inputs, rego.build tagged.sources = .ok engine ∧ cached.engine = rego.replay engine inputs

omit [DecidableEq Policy] [DecidableEq Thread] in
theorem Coherent.of_live {next : Process Policy Thread Sources Engine Input} (coherent : Coherent rego s)
    (counter : next.counter = s.counter) (cache : next.cache = s.cache) (live : ∀ tagged, Live next tagged → Live s tagged) :
    Coherent rego next where
  below := fun tagged known => counter ▸ coherent.below tagged (live tagged known)
  cacheBelow := fun thread cached held => counter ▸ coherent.cacheBelow thread cached (cache ▸ held)
  same := fun a b first second => coherent.same a b (live a first) (live b second)
  builds := fun tagged known => coherent.builds tagged (live tagged known)
  kept := fun thread cached tagged held known => coherent.kept thread cached tagged (cache ▸ held) (live tagged known)

omit [DecidableEq Thread] in
theorem Coherent.putInForce (coherent : Coherent rego s) (room : s.counter + 1 < 2 ^ 64) (policy : Policy) (sources : Sources) :
    Coherent rego (putInForce rego s policy sources) := by
  unfold EngineCache.putInForce
  cases built : rego.build sources with
  | error e => exact coherent
  | ok engine =>
    have next : nextGeneration s.counter = s.counter + 1 := Nat.mod_eq_of_lt room
    have live (tagged : PolicySources Sources)
        (known : Live { s with
          counter := nextGeneration s.counter
          policies := Function.update s.policies policy (some ⟨sources, s.counter⟩) } tagged) :
        tagged = ⟨sources, s.counter⟩ ∨ Live s tagged := by
      rcases known with ⟨p, held⟩ | known
      · dsimp only at held
        by_cases here : p = policy
        · rw [here, Function.update_self] at held
          exact .inl (Option.some.inj held).symm
        · rw [Function.update_of_ne here] at held
          exact .inr (.inl ⟨p, held⟩)
      · exact .inr (.inr known)
    refine ⟨fun tagged known => ?_, fun thread cached held => ?_, fun a b first second alike => ?_, fun tagged known => ?_,
      fun thread cached tagged held known alike => ?_⟩
    · rw [next]
      rcases live tagged known with rfl | old
      · exact Nat.lt_succ_self _
      · exact Nat.lt_succ_of_lt (coherent.below tagged old)
    · rw [next]
      exact Nat.lt_succ_of_lt (coherent.cacheBelow thread cached held)
    · rcases live a first with rfl | oldA <;> rcases live b second with rfl | oldB
      · rfl
      · exact absurd alike (coherent.below b oldB).ne'
      · exact absurd alike (coherent.below a oldA).ne
      · exact coherent.same a b oldA oldB alike
    · rcases live tagged known with rfl | old
      · exact ⟨engine, built⟩
      · exact coherent.builds tagged old
    · rcases live tagged known with rfl | old
      · exact absurd alike (coherent.cacheBelow thread cached held).ne'
      · exact coherent.kept thread cached tagged held old alike

omit [DecidableEq Policy] [DecidableEq Thread] in
/-- The engine that is used is one of the sources of the snapshot. -/
theorem Coherent.cachedEngine (coherent : Coherent rego s) (thread : Thread) {snapshot : PolicySources Sources}
    (known : Live s snapshot) : ∃ cached engine inputs, cachedEngine rego s thread snapshot = .ok cached ∧
      cached.generation = snapshot.generation ∧ rego.build snapshot.sources = .ok engine ∧
        cached.engine = rego.replay engine inputs := by
  obtain ⟨engine, built⟩ := coherent.builds snapshot known
  have anew : (rego.build snapshot.sources).map (fun engine => (⟨snapshot.generation, engine⟩ : CachedEngine Engine)) =
      .ok ⟨snapshot.generation, engine⟩ := by
    rw [built]
    rfl
  unfold EngineCache.cachedEngine
  cases held : s.cache thread with
  | none => exact ⟨_, engine, [], anew, rfl, built, rfl⟩
  | some cached =>
    dsimp only
    by_cases current : cached.generation = snapshot.generation
    · obtain ⟨engine', inputs, built', same⟩ := coherent.kept thread cached snapshot held known current.symm
      rw [if_pos current]
      exact ⟨cached, engine', inputs, rfl, current, built', same⟩
    · rw [if_neg current]
      exact ⟨_, engine, [], anew, rfl, built, rfl⟩

omit [DecidableEq Policy] in
theorem Coherent.runEngine (coherent : Coherent rego s) {thread : Thread} {snapshot : PolicySources Sources}
    (known : Live s snapshot) (input : Input) (panics : Bool) :
    Coherent rego (runEngine rego s thread snapshot input panics).1 := by
  obtain ⟨cached, engine, inputs, used, current, built, same⟩ := coherent.cachedEngine thread known
  unfold EngineCache.runEngine
  rw [used]
  dsimp only
  split_ifs
  · refine ⟨coherent.below, fun t c held => ?_, coherent.same, coherent.builds, fun t c a held live alike => ?_⟩
    · dsimp only at held
      by_cases here : t = thread
      · rw [here, Function.update_self] at held
        cases held
      · rw [Function.update_of_ne here] at held
        exact coherent.cacheBelow t c held
    · dsimp only at held
      by_cases here : t = thread
      · rw [here, Function.update_self] at held
        cases held
      · rw [Function.update_of_ne here] at held
        exact coherent.kept t c a held live alike
  · refine ⟨coherent.below, fun t c held => ?_, coherent.same, coherent.builds, fun t c a held live alike => ?_⟩
    · dsimp only at held
      by_cases here : t = thread
      · rw [here, Function.update_self] at held
        cases held
        exact current ▸ coherent.below snapshot known
      · rw [Function.update_of_ne here] at held
        exact coherent.cacheBelow t c held
    · dsimp only at held
      by_cases here : t = thread
      · rw [here, Function.update_self] at held
        cases held
        have sources : a.sources = snapshot.sources := coherent.same a snapshot live known (alike.trans current)
        refine ⟨engine, inputs ++ [input], sources ▸ built, ?_⟩
        rw [Rego.replay, List.foldl_append]
        change (rego.eval cached.engine input).1 = (rego.eval (rego.replay engine inputs) input).1
        rw [same]
      · rw [Function.update_of_ne here] at held
        exact coherent.kept t c a held live alike

omit [DecidableEq Policy] in
theorem Coherent.answer (coherent : Coherent rego s) (reusable : rego.Reusable) (thread : Thread)
    {snapshot : PolicySources Sources} (known : Live s snapshot) (input : Input) (panics : Bool) :
    (EngineCache.runEngine rego s thread snapshot input panics).2 =
      if panics then .error panicked else rego.fresh snapshot.sources input := by
  obtain ⟨cached, engine, inputs, used, -, built, same⟩ := coherent.cachedEngine thread known
  unfold EngineCache.runEngine
  rw [used]
  dsimp only
  split_ifs
  · rfl
  · rw [same]
    simp only [Rego.fresh, built]
    exact reusable _ _ built inputs input

theorem Coherent.step (coherent : Coherent rego s) (room : s.counter + 1 < 2 ^ 64)
    (event : Event Policy Thread Sources Input) : Coherent rego (step rego s event).1 := by
  cases event with
  | create policy sources =>
    unfold EngineCache.step
    dsimp only
    split_ifs
    · exact coherent
    · exact coherent.putInForce room policy sources
  | reload policy sources =>
    unfold EngineCache.step
    dsimp only
    split_ifs
    · exact coherent.putInForce room policy sources
    · exact coherent
  | snapshot thread policy input =>
    unfold EngineCache.step
    dsimp only
    cases held : s.policies policy with
    | none => exact coherent
    | some inForce =>
      cases busy : s.evaluating thread with
      | some evaluation => exact coherent
      | none =>
        refine coherent.of_live rfl rfl fun tagged known => ?_
        rcases known with ⟨p, found⟩ | ⟨t, asked, found⟩
        · exact .inl ⟨p, found⟩
        · dsimp only at found
          by_cases here : t = thread
          · rw [here, Function.update_self] at found
            cases found
            exact .inl ⟨policy, held⟩
          · rw [Function.update_of_ne here] at found
            exact .inr ⟨t, asked, found⟩
  | evaluate thread panics =>
    unfold EngineCache.step
    dsimp only
    cases busy : s.evaluating thread with
    | none => exact coherent
    | some evaluation =>
      refine (coherent.runEngine (.inr ⟨thread, evaluation.2, busy⟩) evaluation.2 panics).of_live rfl rfl fun tagged known => ?_
      rcases known with ⟨p, found⟩ | ⟨t, asked, found⟩
      · exact .inl ⟨p, found⟩
      · dsimp only at found
        by_cases here : t = thread
        · rw [here, Function.update_self] at found
          cases found
        · rw [Function.update_of_ne here] at found
          exact .inr ⟨t, asked, found⟩

omit [DecidableEq Policy] [DecidableEq Thread] in
theorem coherent_start : Coherent rego ({} : Process Policy Thread Sources Engine Input) where
  below := fun tagged known => by rcases known with ⟨_, held⟩ | ⟨_, _, held⟩ <;> cases held
  cacheBelow := nofun
  same := fun a _ known => by rcases known with ⟨_, held⟩ | ⟨_, _, held⟩ <;> cases held
  builds := fun tagged known => by rcases known with ⟨_, held⟩ | ⟨_, _, held⟩ <;> cases held
  kept := nofun

/-! Whole runs. -/

variable (rego) in
/-- The process after some events. -/
def after (events : List (Event Policy Thread Sources Input)) : Process Policy Thread Sources Engine Input :=
  (process rego).run {} events

omit [DecidableEq Policy] in
theorem runEngine_frame (rego : Rego Sources Engine Input Value) (s : Process Policy Thread Sources Engine Input)
    (thread : Thread) (snapshot : PolicySources Sources) (input : Input) (panics : Bool) :
    (runEngine rego s thread snapshot input panics).1.counter = s.counter ∧
      (runEngine rego s thread snapshot input panics).1.policies = s.policies ∧
      (runEngine rego s thread snapshot input panics).1.evaluating = s.evaluating := by
  unfold runEngine
  split
  · exact ⟨rfl, rfl, rfl⟩
  · split_ifs <;> exact ⟨rfl, rfl, rfl⟩

variable (rego) in
def compiles (sources : Sources) : Bool :=
  match rego.build sources with
  | .ok _ => true
  | .error _ => false

variable (rego) in
/-- The sources of a policy after one more event: the last ones that compile. -/
def inForceStep (policy : Policy) (current : Option Sources) : Event Policy Thread Sources Input → Option Sources
  | .create p sources => if p = policy ∧ current = none ∧ compiles rego sources then some sources else current
  | .reload p sources => if p = policy ∧ current ≠ none ∧ compiles rego sources then some sources else current
  | _ => current

variable (rego) in
def inForce (policy : Policy) (events : List (Event Policy Thread Sources Input)) : Option Sources :=
  events.foldl (inForceStep rego policy) none

omit [DecidableEq Thread] in
theorem putInForce_policies (policy p : Policy) (sources : Sources) :
    ((putInForce rego s p sources).policies policy).map (·.sources) =
      if p = policy ∧ compiles rego sources then some sources else (s.policies policy).map (·.sources) := by
  unfold putInForce compiles
  cases built : rego.build sources with
  | error e => simp
  | ok engine =>
    by_cases here : p = policy
    · simp [here]
    · rw [if_neg (fun both => here both.1)]
      dsimp only
      rw [Function.update_of_ne (Ne.symm here)]

theorem step_policies (policy : Policy) (event : Event Policy Thread Sources Input) :
    ((step rego s event).1.policies policy).map (·.sources) =
      inForceStep rego policy ((s.policies policy).map (·.sources)) event := by
  cases event with
  | create p sources =>
    unfold step inForceStep
    dsimp only
    by_cases here : p = policy
    · subst here
      cases held : s.policies p with
      | none => simp [putInForce_policies, held]
      | some old => simp [held]
    · split_ifs <;> simp_all [putInForce_policies]
  | reload p sources =>
    unfold step inForceStep
    dsimp only
    by_cases here : p = policy
    · subst here
      cases held : s.policies p with
      | none => simp [held]
      | some old => simp [putInForce_policies, held]
    · split_ifs <;> simp_all [putInForce_policies]
  | snapshot thread p input =>
    unfold step
    dsimp only
    split <;> rfl
  | evaluate thread panics =>
    unfold step
    dsimp only
    split
    · rfl
    · exact congrArg (fun policies => (policies policy).map (·.sources)) (runEngine_frame rego s thread _ _ panics).2.1

theorem after_concat (events : List (Event Policy Thread Sources Input)) (event : Event Policy Thread Sources Input) :
    after rego (events ++ [event]) = (step rego (after rego events) event).1 :=
  Machine.run_concat _ _ _ _

theorem after_policies (policy : Policy) (events : List (Event Policy Thread Sources Input)) :
    ((after rego events).policies policy).map (·.sources) = inForce rego policy events := by
  induction events using List.reverseRecOn with
  | nil => rfl
  | append_singleton events event ih =>
    rw [after_concat, step_policies, ih, inForce, inForce, List.foldl_append, List.foldl_cons, List.foldl_nil]

theorem step_counter (rego : Rego Sources Engine Input Value) (s : Process Policy Thread Sources Engine Input)
    (event : Event Policy Thread Sources Input) : (step rego s event).1.counter ≤ s.counter + 1 := by
  have wrapped : nextGeneration s.counter ≤ s.counter + 1 := Nat.mod_le _ _
  have put (p : Policy) (sources : Sources) : (putInForce rego s p sources).counter ≤ s.counter + 1 := by
    unfold putInForce
    split
    · exact Nat.le_succ _
    · exact wrapped
  cases event with
  | create p sources =>
    unfold step
    dsimp only
    split_ifs
    · exact Nat.le_succ _
    · exact put p sources
  | reload p sources =>
    unfold step
    dsimp only
    split_ifs
    · exact put p sources
    · exact Nat.le_succ _
  | snapshot thread p input =>
    unfold step
    dsimp only
    split <;> exact Nat.le_succ _
  | evaluate thread panics =>
    unfold step
    dsimp only
    split
    · exact Nat.le_succ _
    · exact (runEngine_frame rego s thread _ _ panics).1.le.trans (Nat.le_succ _)

theorem after_counter (rego : Rego Sources Engine Input Value) (events : List (Event Policy Thread Sources Input)) :
    (after rego events).counter ≤ events.length + 1 := by
  induction events using List.reverseRecOn with
  | nil => exact le_rfl
  | append_singleton events event ih =>
    have more := step_counter rego (after rego events) event
    rw [after_concat, List.length_append, List.length_singleton]
    omega

theorem coherent_after {events : List (Event Policy Thread Sources Input)} (short : events.length + 1 < 2 ^ 64) :
    Coherent rego (after rego events) := by
  induction events using List.reverseRecOn with
  | nil => exact coherent_start
  | append_singleton events event ih =>
    rw [List.length_append, List.length_singleton] at short
    have counted := after_counter rego events
    rw [after_concat]
    exact (ih (by omega)).step (by omega) event

/-- Only its own end takes a thread out of an evaluation. -/
theorem step_evaluating {thread : Thread} {evaluation : PolicySources Sources × Input}
    (busy : s.evaluating thread = some evaluation) {event : Event Policy Thread Sources Input}
    (other : ∀ panics, event ≠ .evaluate thread panics) : (step rego s event).1.evaluating thread = some evaluation := by
  have put (p : Policy) (sources : Sources) : (putInForce rego s p sources).evaluating = s.evaluating := by
    unfold putInForce
    split <;> rfl
  cases event with
  | create p sources =>
    unfold step
    dsimp only
    split_ifs
    · exact busy
    · exact (congrFun (put p sources) thread).trans busy
  | reload p sources =>
    unfold step
    dsimp only
    split_ifs
    · exact (congrFun (put p sources) thread).trans busy
    · exact busy
  | snapshot t p input =>
    unfold step
    dsimp only
    split
    · rename_i idle
      have apart : thread ≠ t := fun same => by
        rw [same, idle] at busy
        cases busy
      dsimp only
      rw [Function.update_of_ne apart]
      exact busy
    · exact busy
  | evaluate t panics =>
    have apart : thread ≠ t := fun same => other panics (same ▸ rfl)
    unfold step
    dsimp only
    split
    · exact busy
    · dsimp only
      rw [(runEngine_frame rego s t _ _ panics).2.2, Function.update_of_ne apart]
      exact busy

theorem run_evaluating {thread : Thread} {evaluation : PolicySources Sources × Input}
    (busy : s.evaluating thread = some evaluation) {events : List (Event Policy Thread Sources Input)}
    (within : ∀ panics, .evaluate thread panics ∉ events) :
    ((process rego).run s events).evaluating thread = some evaluation := by
  induction events generalizing s with
  | nil => exact busy
  | cons event rest ih =>
    refine ih (step_evaluating busy fun panics same => within panics ?_) fun panics member => within panics ?_
    · exact same ▸ List.mem_cons_self
    · exact List.mem_cons_of_mem _ member

end Steps

section
variable {Policy Thread Sources Engine Input Value : Type} [DecidableEq Policy] [DecidableEq Thread]

/-- An evaluation that has begun keeps the sources that were in force when it did. -/
theorem snapshot_evaluating {earlier between : List (Event Policy Thread Sources Input)} {thread : Thread} {policy : Policy}
    (input : Input) {sources : Sources} (found : inForce rego policy earlier = some sources)
    (idle : (after rego earlier).evaluating thread = none) (within : ∀ panics, .evaluate thread panics ∉ between) :
    ∃ tagged : PolicySources Sources, tagged.sources = sources ∧
      (after rego (earlier ++ .snapshot thread policy input :: between)).evaluating thread = some (tagged, input) := by
  obtain ⟨tagged, held, rfl⟩ := Option.map_eq_some_iff.mp ((after_policies policy earlier).trans found)
  refine ⟨tagged, rfl, ?_⟩
  have begun : ((process rego).step (after rego earlier) (.snapshot thread policy input)).1.evaluating thread =
      some (tagged, input) := by
    have taken : (step rego (after rego earlier) (.snapshot thread policy input)).1.evaluating =
        Function.update (after rego earlier).evaluating thread (some (tagged, input)) := by
      simp only [step, held, idle]
    exact (congrFun taken thread).trans (Function.update_self ..)
  rw [after, Machine.run_append, Machine.run_cons]
  exact run_evaluating begun within

theorem evaluate_fresh (reusable : rego.Reusable) {events : List (Event Policy Thread Sources Input)}
    (short : events.length + 1 < 2 ^ 64) {thread : Thread} {tagged : PolicySources Sources} {input : Input}
    (busy : (after rego events).evaluating thread = some (tagged, input)) (panics : Bool) :
    (step rego (after rego events) (.evaluate thread panics)).2 =
      some (if panics then .error panicked else rego.fresh tagged.sources input) := by
  have answer := (coherent_after short).answer reusable thread (.inr ⟨thread, input, busy⟩) input panics
  simp only [step, busy, answer]

/-- Whatever the other threads do and whichever engine a thread has kept: what it
answers is what an engine answers that is compiled for the purpose, of the sources
that were in force when the evaluation began. -/
theorem evaluates_in_force (rego : Rego Sources Engine Input Value) (reusable : rego.Reusable)
    (earlier between : List (Event Policy Thread Sources Input)) (thread : Thread) (policy : Policy) (input : Input)
    (panics : Bool) (sources : Sources) (short : earlier.length + between.length + 2 < 2 ^ 64)
    (found : inForce rego policy earlier = some sources) (idle : (after rego earlier).evaluating thread = none)
    (within : ∀ panics, .evaluate thread panics ∉ between) :
    (step rego (after rego (earlier ++ .snapshot thread policy input :: between)) (.evaluate thread panics)).2 =
      some (if panics then .error panicked else rego.fresh sources input) := by
  obtain ⟨tagged, rfl, busy⟩ := snapshot_evaluating input found idle within
  refine evaluate_fresh reusable ?_ busy panics
  rw [List.length_append, List.length_cons]
  omega

/-- An evaluator whose policy adds. -/
def adder : Rego Nat Nat Nat Nat where
  build := .ok
  eval := fun engine input => (engine, .ok (engine + input))

theorem adder_reusable : adder.Reusable := by
  intro sources engine built inputs input
  induction inputs with
  | nil => rfl
  | cons first rest ih => exact ih

/-- The reload comes too late for the evaluation that has begun. -/
theorem evaluates_in_force_sample : (step adder (after adder ([.create () 1] ++ .snapshot () () 5 :: [.reload () 2]))
    (.evaluate () false)).2 = some (.ok 6) :=
  evaluates_in_force adder adder_reusable [.create () 1] [.reload () 2] () () 5 false 1 (by decide) rfl rfl (by simp)

end
end EngineCache
end Latchgate
