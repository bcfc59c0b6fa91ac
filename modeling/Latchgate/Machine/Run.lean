import Mathlib.Data.List.Induction

/-- A deterministic reactive system. Every input is answered, and an input
that is not enabled leaves the state as it is. -/
structure Machine (σ ι ο : Type*) where
  step : σ → ι → σ × ο

namespace Machine
variable {σ ι ο : Type*} (m : Machine σ ι ο)

def run (s : σ) : List ι → σ
  | [] => s
  | i :: rest => run (m.step s i).1 rest

/-- The inputs of a run with the answers they got, oldest first. -/
def trace (s : σ) : List ι → List (ι × ο)
  | [] => []
  | i :: rest => (i, (m.step s i).2) :: trace (m.step s i).1 rest

/-- Every step of the run meets `guard` in the state before it. -/
def Meets (guard : σ → ι → Prop) (s : σ) : List ι → Prop
  | [] => True
  | i :: rest => guard s i ∧ Meets guard (m.step s i).1 rest

@[simp] theorem run_nil (s : σ) : m.run s [] = s := rfl

@[simp] theorem run_cons (s : σ) (i : ι) (rest : List ι) :
    m.run s (i :: rest) = m.run (m.step s i).1 rest := rfl

theorem run_append (s : σ) (first second : List ι) :
    m.run s (first ++ second) = m.run (m.run s first) second := by
  induction first generalizing s with
  | nil => rfl
  | cons i rest ih => exact ih (m.step s i).1

theorem run_concat (s : σ) (past : List ι) (i : ι) :
    m.run s (past ++ [i]) = (m.step (m.run s past) i).1 := by
  rw [run_append]
  rfl

theorem trace_append (s : σ) (first second : List ι) :
    m.trace s (first ++ second) = m.trace s first ++ m.trace (m.run s first) second := by
  induction first generalizing s with
  | nil => rfl
  | cons i rest ih => simp only [List.cons_append, trace, run_cons, ih]

theorem trace_concat (s : σ) (past : List ι) (i : ι) :
    m.trace s (past ++ [i]) = m.trace s past ++ [(i, (m.step (m.run s past) i).2)] := by
  rw [trace_append]
  rfl

theorem trace_inputs (s : σ) (inputs : List ι) : (m.trace s inputs).map Prod.fst = inputs := by
  induction inputs generalizing s with
  | nil => rfl
  | cons i rest ih => simp only [trace, List.map_cons, ih]

variable {m}

/-- What every step preserves holds after every run. -/
theorem run_invariant {inv : σ → Prop} (preserved : ∀ s i, inv s → inv (m.step s i).1)
    {s : σ} (start : inv s) (inputs : List ι) : inv (m.run s inputs) := by
  induction inputs generalizing s with
  | nil => exact start
  | cons i rest ih => exact ih (preserved s i start)

/-- Invariants that also speak of the past: the step rule extends the past
by one answered input. -/
theorem trace_invariant {inv : List (ι × ο) → σ → Prop} {s : σ} (start : inv [] s)
    (preserved : ∀ past t i, inv past t → inv (past ++ [(i, (m.step t i).2)]) (m.step t i).1)
    (inputs : List ι) : inv (m.trace s inputs) (m.run s inputs) := by
  induction inputs using List.reverseRecOn with
  | nil => exact start
  | append_singleton past i ih =>
    rw [trace_concat, run_concat]
    exact preserved _ _ _ ih

/-- What every step with an acceptable answer preserves holds after every run
whose answers were all acceptable. -/
theorem run_invariant_of_trace {inv : σ → Prop} {accepted : ι × ο → Prop}
    (preserved : ∀ s i, inv s → accepted (i, (m.step s i).2) → inv (m.step s i).1)
    {s : σ} (start : inv s) {inputs : List ι} (all : ∀ entry ∈ m.trace s inputs, accepted entry) :
    inv (m.run s inputs) := by
  induction inputs generalizing s with
  | nil => exact start
  | cons i rest ih =>
    refine ih (preserved s i start (all _ ?_)) (fun entry member => all entry ?_)
    · simp [trace]
    · simp [trace, member]

/-- A guarded run keeps what its guarded steps preserve, and each of its
answers has what a guarded step from a good state promises. -/
theorem Meets.trace_all {guard : σ → ι → Prop} {inv : σ → Prop} {post : ι → ο → Prop}
    (preserved : ∀ s i, guard s i → inv s → inv (m.step s i).1)
    (answers : ∀ s i, guard s i → inv s → post i (m.step s i).2)
    {s : σ} (start : inv s) {inputs : List ι} (meets : m.Meets guard s inputs) :
    inv (m.run s inputs) ∧ ∀ entry ∈ m.trace s inputs, post entry.1 entry.2 := by
  induction inputs generalizing s with
  | nil => exact ⟨start, by simp [trace]⟩
  | cons i rest ih =>
    obtain ⟨here, later⟩ := meets
    obtain ⟨last, tail⟩ := ih (preserved s i here start) later
    refine ⟨last, ?_⟩
    intro entry member
    rcases List.mem_cons.mp member with same | old
    · subst entry
      exact answers s i here start
    · exact tail entry old

/-- A guarded run keeps what its guarded steps preserve. -/
theorem Meets.run_invariant {guard : σ → ι → Prop} {inv : σ → Prop}
    (preserved : ∀ s i, guard s i → inv s → inv (m.step s i).1)
    {s : σ} (start : inv s) {inputs : List ι} (meets : m.Meets guard s inputs) : inv (m.run s inputs) := by
  induction inputs generalizing s with
  | nil => exact start
  | cons i rest ih => exact ih (preserved s i meets.1 start) meets.2

theorem meets_append {guard : σ → ι → Prop} {s : σ} {first second : List ι} :
    m.Meets guard s (first ++ second) ↔ m.Meets guard s first ∧ m.Meets guard (m.run s first) second := by
  induction first generalizing s with
  | nil => simp [Meets]
  | cons i rest ih => simp only [List.cons_append, Meets, run_cons, ih, and_assoc]

/-- Every run meets a guard that lets everything pass. -/
theorem meets_true (s : σ) (inputs : List ι) : m.Meets (fun _ _ => True) s inputs := by
  induction inputs generalizing s with
  | nil => trivial
  | cons i rest ih => exact ⟨trivial, ih _⟩

/-- What every step preserves may be used in every step of a guarded run. -/
theorem Meets.and_invariant {guard : σ → ι → Prop} {inv : σ → Prop} (preserved : ∀ s i, inv s → inv (m.step s i).1)
    {s : σ} (start : inv s) {inputs : List ι} (meets : m.Meets guard s inputs) :
    m.Meets (fun t i => guard t i ∧ inv t) s inputs := by
  induction inputs generalizing s with
  | nil => trivial
  | cons i rest ih => exact ⟨⟨meets.1, start⟩, ih (preserved s i start) meets.2⟩

/-- A guarded run keeps what its guarded steps preserve of the past and the
state. -/
theorem Meets.trace_invariant {guard : σ → ι → Prop} {inv : List (ι × ο) → σ → Prop} {s : σ} (start : inv [] s)
    (preserved : ∀ past t i, guard t i → inv past t → inv (past ++ [(i, (m.step t i).2)]) (m.step t i).1)
    {inputs : List ι} (meets : m.Meets guard s inputs) : inv (m.trace s inputs) (m.run s inputs) := by
  induction inputs using List.reverseRecOn with
  | nil => exact start
  | append_singleton past i ih =>
    obtain ⟨earlier, here, -⟩ := meets_append.1 meets
    rw [trace_concat, run_concat]
    exact preserved _ _ _ here (ih earlier)

/-- Where exactly the guarded steps keep an invariant, it holds throughout a
run if and only if the run meets the guard. -/
theorem throughout_iff_meets {guard : σ → ι → Prop} {inv : σ → Prop}
    (kept : ∀ s i, inv s → (inv (m.step s i).1 ↔ guard s i)) {s : σ} (start : inv s) (inputs : List ι) :
    (∀ past, past <+: inputs → inv (m.run s past)) ↔ m.Meets guard s inputs := by
  induction inputs generalizing s with
  | nil => simpa [Meets] using start
  | cons i rest ih =>
    constructor
    · intro throughout
      have next : inv (m.step s i).1 := throughout [i] (by simp)
      refine ⟨(kept s i start).mp next, (ih next).mp fun past front => ?_⟩
      exact throughout (i :: past) (by simpa using front)
    · rintro ⟨here, later⟩ past front
      rcases List.prefix_cons_iff.mp front with rfl | ⟨tail, rfl, -⟩
      · exact start
      · exact (ih ((kept s i start).mpr here)).mpr later tail (List.cons_prefix_cons.mp front).2

/-- Where a trace is cut, the run is cut. -/
theorem trace_split {s : σ} {inputs : List ι} {before after : List (ι × ο)} {entry : ι × ο}
    (split : m.trace s inputs = before ++ entry :: after) :
    ∃ past rest, inputs = past ++ entry.1 :: rest ∧ m.trace s past = before ∧
      (m.step (m.run s past) entry.1).2 = entry.2 := by
  have cut : inputs = before.map Prod.fst ++ entry.1 :: after.map Prod.fst := by
    rw [← m.trace_inputs s inputs, split]
    simp
  have lengths : (m.trace s (before.map Prod.fst)).length = before.length := by
    rw [← List.length_map Prod.fst, trace_inputs, List.length_map]
  rw [cut, trace_append] at split
  obtain ⟨earlier, later⟩ := List.append_inj split lengths
  have here : (entry.1, (m.step (m.run s (before.map Prod.fst)) entry.1).2) = entry := (List.cons.inj later).1
  exact ⟨_, _, cut, earlier, congrArg Prod.snd here⟩

/-- Each answer of a guarded run has what a guarded step promises of its past. -/
theorem Meets.answers {guard : σ → ι → Prop} {inv : List (ι × ο) → σ → Prop} {post : List (ι × ο) → ι → ο → Prop}
    {s : σ} (start : inv [] s)
    (preserved : ∀ past t i, guard t i → inv past t → inv (past ++ [(i, (m.step t i).2)]) (m.step t i).1)
    (promised : ∀ past t i, guard t i → inv past t → post past i (m.step t i).2)
    {inputs : List ι} (meets : m.Meets guard s inputs) {before after : List (ι × ο)} {entry : ι × ο}
    (split : m.trace s inputs = before ++ entry :: after) : post before entry.1 entry.2 := by
  obtain ⟨past, rest, rfl, rfl, here⟩ := trace_split split
  obtain ⟨earlier, guarded, -⟩ := meets_append.1 meets
  rw [← here]
  exact promised _ _ _ guarded (earlier.trace_invariant start preserved)

/-- Two states that some inputs keep alike, and that the others do not tell
apart, answer the former in the same way with the latter left out. -/
theorem trace_filter {related : σ → σ → Prop} {admissible : ι → Prop} (keep : ι → Bool)
    (kept : ∀ s t i, admissible i → keep i = true → related s t →
      related (m.step s i).1 (m.step t i).1 ∧ (m.step s i).2 = (m.step t i).2)
    (dropped : ∀ s t i, admissible i → keep i = false → related s t → related (m.step s i).1 t)
    {s t : σ} (start : related s t) {inputs : List ι} (all : ∀ i ∈ inputs, admissible i) :
    (m.trace s inputs).filter (fun entry => keep entry.1) = m.trace t (inputs.filter keep) := by
  induction inputs generalizing s t with
  | nil => rfl
  | cons i rest ih =>
    have here := all i List.mem_cons_self
    have later : ∀ j ∈ rest, admissible j := fun j member => all j (List.mem_cons_of_mem _ member)
    cases choice : keep i with
    | true =>
      obtain ⟨still, same⟩ := kept s t i here choice start
      simp only [trace, List.filter_cons, choice, if_true, same, ih still later]
    | false =>
      simp only [trace, List.filter_cons, choice, Bool.false_eq_true, if_false, ih (dropped s t i here choice start) later]

section Agents
variable {κ : Type*} (agent : ι → Option κ) (p q : ο → Prop) [DecidablePred p] [DecidablePred q]

/-- Who gave the inputs that got an answer of a kind, in order. -/
def agents (past : List (ι × ο)) : List κ :=
  past.filterMap fun entry => if p entry.2 then agent entry.1 else none

@[simp] theorem agents_nil : agents agent p [] = [] := rfl

theorem agents_concat (past : List (ι × ο)) (i : ι) (o : ο) :
    agents agent p (past ++ [(i, o)]) = agents agent p past ++ if p o then (agent i).toList else [] := by
  unfold agents
  rw [List.filterMap_append]
  by_cases kind : p o
  · cases given : agent i <;> simp [kind, given]
  · simp [kind]

variable {p q}

theorem agents_sublist (weaker : ∀ o, p o → q o) (past : List (ι × ο)) :
    (agents agent p past).Sublist (agents agent q past) := by
  induction past with
  | nil => exact .slnil
  | cons entry rest ih =>
    simp only [agents, List.filterMap_cons]
    by_cases kind : p entry.2
    · simp only [if_pos kind, if_pos (weaker _ kind)]
      cases agent entry.1 with
      | none => exact ih
      | some k => exact ih.cons_cons k
    · simp only [if_neg kind]
      split
      · exact ih
      · exact ih.cons _

end Agents

end Machine
