import Latchgate.Kernel.DispatchGate

namespace Latchgate
namespace Requests

/-- The call of a request whose grant has been checked and whose provider has
not started. -/
def Phase.pendingStart : Phase → Option AuthorizedCall
  | .recordingIntent _ call _ | .awaitingPermit _ call _ => some call
  | _ => none

/-- A revocation advances the epoch while no request is between the check of
its grant and the start of its provider, nobody else has advanced the epoch
since it was read, and the counter does not wrap. -/
def RevokesAlone (s : World × (Nat → Phase)) (input : Nat × Input) : Prop :=
  ∀ oldEpoch env, s.2 input.1 = .revoking oldEpoch → input.2 = .proceed env →
    (∀ j, (s.2 j).pendingStart = none) ∧ s.1.revocationEpoch = oldEpoch ∧ oldEpoch.toNat + 1 < 2 ^ 64

variable {config : ExecutionConfig} {w v : World} {env : Env} {phase next : Phase} {input : Input} {emission : Emission}

/-- Only a revocation moves the epoch. -/
theorem Step.epoch (step : Step config w env phase v next emission) :
    v.revocationEpoch = w.revocationEpoch ∧ (∀ p c, emission ≠ .advanced p c) ∨
      ∃ oldEpoch, phase = .revoking oldEpoch ∧ v.revocationEpoch = w.revocationEpoch + 1 ∧
        emission = .advanced oldEpoch (w.revocationEpoch + 1) := by
  cases step with
  | advanced oldEpoch => exact .inr ⟨oldEpoch, rfl, rfl, rfl⟩
  | worked job jobs reply =>
    refine .inl ⟨(doJob_frame config w env job).1, ?_⟩
    intro p c same
    have meant := (Step.worked job jobs reply : Step config w env _ _ _ _).meaning
    rw [same] at meant
    cases meant
  | _ => exact .inl ⟨rfl, by simp⟩

theorem Acts.epoch (acts : Acts config w phase input v next emission) (tidy : phase.Tidy) :
    v.revocationEpoch = w.revocationEpoch ∧ (∀ p c, emission ≠ .advanced p c) ∨
      ∃ oldEpoch env, phase = .revoking oldEpoch ∧ input = .proceed env ∧
        v.revocationEpoch = w.revocationEpoch + 1 ∧ emission = .advanced oldEpoch (w.revocationEpoch + 1) := by
  cases acts with
  | stepped step =>
    rcases step.epoch with same | ⟨oldEpoch, at_, moved, said⟩
    · exact .inl same
    · exact .inr ⟨oldEpoch, _, at_, rfl, moved, said⟩
  | @completed _ inner _ _ spoken step =>
    rcases step.epoch with ⟨same, silent⟩ | ⟨oldEpoch, rfl, -, -⟩
    · refine .inl ⟨same, ?_⟩
      intro p c
      cases spoken with
      | advanced p c => exact absurd rfl (silent p c)
      | _ => simp [Emission.orphaned]
    · cases tidy _ rfl
  | _ => exact .inl ⟨rfl, by simp⟩

/-- A request comes to wait for its start only through the check. -/
theorem Step.pendingStart {call : AuthorizedCall} (step : Step config w env phase v next emission)
    (pending : next.pendingStart = some call) :
    phase.pendingStart = some call ∨
      (∃ origin, phase = .authorized origin call) ∧
        call.validateGrantPreDispatch config env.now w.revocationEpoch = .ok () := by
  cases step with
  | cleared origin call passed =>
    cases pending
    exact .inr ⟨⟨origin, rfl⟩, passed⟩
  | dispatched => exact .inl pending
  | waiting => exact .inl pending
  | unprepared origin => cases origin <;> cases pending
  | _ => cases pending

theorem Acts.pendingStart {call : AuthorizedCall} (acts : Acts config w phase input v next emission)
    (pending : next.pendingStart = some call) :
    phase.pendingStart = some call ∨ ∃ origin, phase = .authorized origin call := by
  cases acts with
  | stepped step =>
    rcases step.pendingStart pending with before | ⟨before, -⟩
    · exact .inl before
    · exact .inr before
  | ignored => exact .inl pending
  | kept => exact .inl pending
  | _ => cases pending

/-- The grants that wait for their start are of the current epoch. -/
def Current (w : World) (phase : Phase) : Prop :=
  ∀ call, phase.pendingStart = some call → w.revocationEpoch ≤ call.grant.revocationEpoch

theorem Acts.current (acts : Acts config w phase input v next emission) (current : Current w phase)
    (unmoved : v.revocationEpoch = w.revocationEpoch) : Current v next := by
  intro call pending
  rw [unmoved]
  cases acts with
  | stepped step =>
    rcases step.pendingStart pending with before | ⟨-, passed⟩
    · exact current call before
    · exact (checked_of_validated passed).unrevoked
  | ignored => exact current call pending
  | kept => exact current call pending
  | _ => cases pending

/-- What a run of requests keeps while revocations act alone. -/
structure Orderly (s : World × (Nat → Phase)) : Prop where
  tidy : ∀ i, (s.2 i).Tidy
  current : ∀ i, Current s.1 (s.2 i)

theorem quiet_orderly (w : World) : Orderly (quiet w) where
  tidy := quiet_tidy w
  current := by
    intro i call pending
    cases pending

theorem toNat_add_one {epoch : UInt64} (small : epoch.toNat + 1 < 2 ^ 64) : (epoch + 1).toNat = epoch.toNat + 1 := by
  rw [UInt64.toNat_add]
  exact Nat.mod_eq_of_lt small

variable {s : World × (Nat → Phase)} {i : Nat}

/-- What a guarded step does to the epoch. -/
theorem step_epoch (config : ExecutionConfig) (guard : RevokesAlone s (i, input)) (orderly : Orderly s) :
    let reached := (actor config).machine.step s (i, input)
    reached.1.1.revocationEpoch = s.1.revocationEpoch ∧ (∀ p c, reached.2 ≠ .advanced p c) ∨
      (∀ j, (s.2 j).pendingStart = none) ∧
        reached.1.1.revocationEpoch.toNat = s.1.revocationEpoch.toNat + 1 ∧
        (∃ oldEpoch, s.2 i = .revoking oldEpoch) ∧
        reached.2 = .advanced s.1.revocationEpoch reached.1.1.revocationEpoch := by
  intro reached
  rcases (act_acts config s.1 (s.2 i) input).epoch (orderly.tidy i) with
    same | ⟨oldEpoch, env, at_, given, moved, said⟩
  · exact .inl same
  · obtain ⟨nobody, same, small⟩ := guard oldEpoch env at_ given
    have more : reached.1.1.revocationEpoch = s.1.revocationEpoch + 1 := moved
    refine .inr ⟨nobody, ?_, ⟨oldEpoch, at_⟩, ?_⟩
    · rw [more, same]
      exact toNat_add_one small
    · rw [more, same]
      exact said.trans (by rw [same])

theorem step_orderly (guard : RevokesAlone s (i, input)) (orderly : Orderly s) :
    Orderly ((actor config).machine.step s (i, input)).1 := by
  refine ⟨step_tidy config s (i, input) orderly.tidy, ?_⟩
  intro j
  rcases step_epoch config guard orderly with ⟨unmoved, -⟩ | ⟨nobody, -, ⟨oldEpoch, revoking⟩, -⟩
  · by_cases same : j = i
    · subst same
      rw [Actor.step_own]
      exact (act_acts config s.1 (s.2 j) input).current (orderly.current j) unmoved
    · rw [Actor.step_other s same]
      intro call pending
      rw [unmoved]
      exact orderly.current j call pending
  · intro call pending
    by_cases same : j = i
    · subst same
      rw [Actor.step_own] at pending
      have before := (act_acts config s.1 (s.2 j) input).pendingStart pending
      rw [revoking] at before
      rcases before with before | ⟨origin, before⟩
      · cases before
      · cases before
    · rw [Actor.step_other s same, nobody j] at pending
      cases pending

section Runs
variable {inputs : List (Nat × Input)} (meets : (actor config).machine.Meets RevokesAlone s inputs) (orderly : Orderly s)
include meets orderly

theorem run_orderly : Orderly ((actor config).machine.run s inputs) :=
  meets.run_invariant (fun _ _ guard orderly => step_orderly guard orderly) orderly

/-- The epoch never decreases. -/
theorem epoch_le_run : s.1.revocationEpoch ≤ ((actor config).machine.run s inputs).1.revocationEpoch := by
  let inv : World × (Nat → Phase) → Prop := fun t => Orderly t ∧ s.1.revocationEpoch ≤ t.1.revocationEpoch
  have kept : inv ((actor config).machine.run s inputs) := by
    refine meets.run_invariant ?_ ⟨orderly, UInt64.le_refl _⟩
    rintro t ⟨i, input⟩ guard ⟨orderly, below⟩
    refine ⟨step_orderly guard orderly, ?_⟩
    rcases step_epoch config guard orderly with ⟨unmoved, -⟩ | ⟨-, more, -⟩
    · rw [unmoved]
      exact below
    · rw [UInt64.le_iff_toNat_le] at below ⊢
      omega
  exact kept.2

/-- Where an entry of a trace stands, the run has come to a good state, and
goes on from there. -/
theorem entry_cut {entry : (Nat × Input) × Emission} (member : entry ∈ (actor config).machine.trace s inputs) :
    ∃ past rest, inputs = past ++ entry.1 :: rest ∧ (actor config).machine.Meets RevokesAlone s past ∧
      (actor config).machine.Meets RevokesAlone ((actor config).machine.run s past) (entry.1 :: rest) ∧
      Orderly ((actor config).machine.run s past) ∧
      ((actor config).machine.step ((actor config).machine.run s past) entry.1).2 = entry.2 := by
  obtain ⟨before, after, split⟩ := List.append_of_mem member
  obtain ⟨past, rest, rfl, -, said⟩ := Machine.trace_split split
  obtain ⟨earlier, later⟩ := Machine.meets_append.1 meets
  exact ⟨past, rest, rfl, earlier, later, run_orderly earlier orderly, said⟩

/-- Grants are built for an epoch that has come. -/
theorem built_le {call : AuthorizedCall} {source : Nat × Input}
    (built : (source, .built call) ∈ (actor config).machine.trace s inputs) :
    call.grant.revocationEpoch ≤ ((actor config).machine.run s inputs).1.revocationEpoch := by
  obtain ⟨past, rest, rfl, -, later, reached, said⟩ := entry_cut meets orderly built
  rw [Machine.run_append]
  have grown := epoch_le_run later reached
  obtain ⟨env, -, meant | ⟨inner, -, meant, -⟩⟩ := act_meaning said (by simp)
  · generalize ((actor config).machine.run s past).2 source.1 = phase at meant
    cases meant
    exact grown
  · cases meant
    exact grown

theorem advanced_lt {source : Nat × Input} {previous current : UInt64}
    (advanced : (source, .advanced previous current) ∈ (actor config).machine.trace s inputs) :
    s.1.revocationEpoch < ((actor config).machine.run s inputs).1.revocationEpoch := by
  obtain ⟨i, e⟩ := source
  obtain ⟨past, rest, rfl, earlier, later, reached, said⟩ := entry_cut meets orderly advanced
  rw [Machine.run_append]
  dsimp only at later said ⊢
  have before := epoch_le_run earlier orderly
  have after := epoch_le_run later.2 (step_orderly later.1 reached)
  rcases step_epoch config later.1 reached with ⟨-, silent⟩ | ⟨-, more, -⟩
  · exact absurd said (silent _ _)
  · rw [UInt64.le_iff_toNat_le] at before after
    rw [UInt64.lt_iff_toNat_lt, Machine.run_cons]
    omega

/-- A provider starts under a grant that no revocation has overtaken. -/
theorem started_le {call : AuthorizedCall} {source : Nat × Input}
    (started : (source, .started call) ∈ (actor config).machine.trace s inputs) :
    s.1.revocationEpoch ≤ call.grant.revocationEpoch := by
  obtain ⟨past, rest, rfl, earlier, later, reached, said⟩ := entry_cut meets orderly started
  have before := epoch_le_run earlier orderly
  have current := reached.current source.1
  have tidy := reached.tidy source.1
  obtain ⟨env, -, meant | ⟨inner, at_, meant, -⟩⟩ := act_meaning said (by simp)
  · generalize ((actor config).machine.run s past).2 source.1 = phase at meant current
    cases meant
    exact UInt64.le_trans before (current call rfl)
  · have handedOut := tidy inner at_
    cases meant
    cases handedOut

end Runs

/-- What a request will answer. -/
def Phase.reply : Phase → Option Reply
  | .closing _ reply | .replied reply => some reply
  | _ => none

/-- A revocation answers with the epochs of its own advance. -/
def Announces (past : History) (i : Nat) (_ : World) (phase : Phase) : Prop :=
  ∀ previous current, phase.reply = some (.revocation previous current) →
    ∃ e, ((i, e), .advanced previous current) ∈ past

theorem Announces.mono {past : History} (announced : Announces past i w phase) (entry : (Nat × Input) × Emission) :
    Announces (past ++ [entry]) i v phase := by
  intro previous current will
  obtain ⟨e, member⟩ := announced previous current will
  exact ⟨e, List.mem_append_left _ member⟩

theorem Step.announces {past : History} (step : Step config w env phase v next emission)
    (announced : Announces past i w phase) : Announces (past ++ [((i, .proceed env), emission)]) i v next := by
  have older := @Announces.mono w w phase i past announced ((i, .proceed env), emission)
  intro previous current will
  cases step with
  | advanced oldEpoch =>
    cases will
    exact ⟨_, List.mem_append_right _ (List.mem_singleton_self _)⟩
  | worked => exact older _ _ will
  | returned => exact older _ _ will
  | answered => exact older _ _ will
  | unprepared origin => cases origin <;> cases will
  | _ => cases will

theorem Acts.announces {past : History} (acts : Acts config w phase input v next emission)
    (announced : Announces past i w phase) : Announces (past ++ [((i, input), emission)]) i v next := by
  cases acts with
  | stepped step => exact step.announces announced
  | ignored => exact announced.mono _
  | kept => exact announced.mono _
  | _ =>
    intro previous current will
    cases will

theorem run_announces (config : ExecutionConfig) (w : World) (inputs : List (Nat × Input)) (i : Nat) :
    Announces ((actor config).machine.trace (quiet w) inputs) i ((actor config).machine.run (quiet w) inputs).1
      (((actor config).machine.run (quiet w) inputs).2 i) := by
  refine @Actor.invariant _ _ _ _ _ Announces ?_ ?_ (quiet w) ?_ inputs i
  · intro past s i input each
    exact (act_acts config s.1 (s.2 i) input).announces (each i)
  · intro past s i j input _ each
    exact (each i).mono _
  · intro i previous current will
    cases will

/-- What a revocation reports was told by its own advance. -/
theorem returned_advanced {inputs : List (Nat × Input)} {e : Input} {previous current : UInt64}
    (orderly : ∀ past, (((actor config).machine.run (quiet w) past).2 i).Tidy)
    (returned : ((i, e), .returned (.revocation previous current)) ∈ (actor config).machine.trace (quiet w) inputs) :
    ∃ e, ((i, e), .advanced previous current) ∈ (actor config).machine.trace (quiet w) inputs := by
  obtain ⟨before, after, split⟩ := List.append_of_mem returned
  obtain ⟨past, rest, rfl, told, said⟩ := Machine.trace_split split
  have announced := run_announces config w past i
  have tidy := orderly past
  obtain ⟨env, -, meant | ⟨inner, at_, meant, -⟩⟩ := act_meaning said (by simp)
  · dsimp only at meant
    generalize ((actor config).machine.run (quiet w) past).2 i = phase at meant announced
    cases meant
    obtain ⟨e, member⟩ := announced previous current rfl
    rw [Machine.trace_append]
    exact ⟨e, List.mem_append_left _ member⟩
  · have handedOut := tidy inner at_
    cases meant
    cases handedOut

theorem run_tidy (config : ExecutionConfig) (w : World) (i : Nat) (past : List (Nat × Input)) :
    (((actor config).machine.run (quiet w) past).2 i).Tidy :=
  Machine.run_invariant (fun s input tidy => step_tidy config s input tidy) (quiet_tidy w) past i

/-- Two advances differ in the epoch that they lead to. -/
def AdvancesApart (a b : (Nat × Input) × Emission) : Prop :=
  ∀ p c q d, a.2 = .advanced p c → b.2 = .advanced q d → c ≠ d

instance : Std.Symm AdvancesApart where
  symm _ _ apart p c q d said spoken same := apart q d p c spoken said same.symm

/-- The advances of a run, one after the other. -/
structure Advances (past : History) (s : World × (Nat → Phase)) : Prop where
  orderly : Orderly s
  reached : ∀ entry ∈ past, ∀ p c, entry.2 = .advanced p c → c ≤ s.1.revocationEpoch ∧ c.toNat = p.toNat + 1
  apart : past.Pairwise AdvancesApart

theorem run_advances {inputs : List (Nat × Input)} (meets : (actor config).machine.Meets RevokesAlone (quiet w) inputs) :
    Advances ((actor config).machine.trace (quiet w) inputs) ((actor config).machine.run (quiet w) inputs) := by
  refine meets.trace_invariant ⟨quiet_orderly w, by simp, List.Pairwise.nil⟩ ?_
  rintro past s ⟨i, input⟩ guard ⟨orderly, reached, apart⟩
  refine ⟨step_orderly guard orderly, ?_, ?_⟩
  · intro entry member p c said
    rcases step_epoch config guard orderly with ⟨unmoved, silent⟩ | ⟨-, more, -, advanced⟩
    · rcases List.mem_append.mp member with old | new
      · rw [unmoved]
        exact reached entry old p c said
      · cases List.mem_singleton.mp new
        exact absurd said (silent p c)
    · rcases List.mem_append.mp member with old | new
      · obtain ⟨below, successor⟩ := reached entry old p c said
        refine ⟨?_, successor⟩
        rw [UInt64.le_iff_toNat_le] at below ⊢
        omega
      · cases List.mem_singleton.mp new
        obtain ⟨rfl, rfl⟩ : _ = p ∧ _ = c := Emission.advanced.inj (advanced.symm.trans said)
        exact ⟨UInt64.le_refl _, more⟩
  · rw [List.pairwise_append]
    refine ⟨apart, List.pairwise_singleton _ _, ?_⟩
    intro old member new here p c q d before now same
    cases List.mem_singleton.mp here
    obtain ⟨below, -⟩ := reached old member p c before
    rcases step_epoch config guard orderly with ⟨-, silent⟩ | ⟨-, more, -, advanced⟩
    · exact silent q d now
    · obtain ⟨-, rfl⟩ : _ = q ∧ _ = d := Emission.advanced.inj (advanced.symm.trans now)
      rw [same, UInt64.le_iff_toNat_le] at below
      omega

section Property
variable (config : ExecutionConfig) (w : World) (inputs : List (Nat × Input))

/-- No provider starts under a grant that was built before an advance of the
epoch, and so before the end of the request that made it. -/
def NoLateStart : Prop :=
  ∀ first second third, inputs = first ++ second ++ third →
    ∀ builder revoker starter call restarted previous current,
      (builder, .built call) ∈ (actor config).machine.trace (quiet w) first →
      (revoker, .advanced previous current) ∈
        (actor config).machine.trace ((actor config).machine.run (quiet w) first) second →
      (starter, .started restarted) ∈
        (actor config).machine.trace ((actor config).machine.run (quiet w) (first ++ second)) third →
      restarted.grant ≠ call.grant

def EpochKept : Prop :=
  ∀ past rest, inputs = past ++ rest →
    ((actor config).machine.run (quiet w) past).1.revocationEpoch ≤
      ((actor config).machine.run (quiet w) inputs).1.revocationEpoch

/-- Each revocation reports the successor of the epoch it found, and no two
requests report the same one. -/
def ReportsApart : Prop :=
  (∀ i e p c, ((i, e), .returned (.revocation p c)) ∈ (actor config).machine.trace (quiet w) inputs →
    c.toNat = p.toNat + 1) ∧
  ∀ i j e f p c q d, ((i, e), .returned (.revocation p c)) ∈ (actor config).machine.trace (quiet w) inputs →
    ((j, f), .returned (.revocation q d)) ∈ (actor config).machine.trace (quiet w) inputs → i ≠ j → c ≠ d

end Property

/-- When revocations act alone, the kill switch does what it says. -/
theorem kill_switch_holds (config : ExecutionConfig) (w : World) (inputs : List (Nat × Input))
    (meets : (actor config).machine.Meets RevokesAlone (quiet w) inputs) :
    NoLateStart config w inputs ∧ EpochKept config w inputs ∧ ReportsApart config w inputs := by
  refine ⟨?_, ?_, ?_, ?_⟩
  · rintro first second third rfl builder revoker starter call restarted previous current built advanced started same
    obtain ⟨earlier, later⟩ := Machine.meets_append.1 meets
    obtain ⟨before, between⟩ := Machine.meets_append.1 earlier
    have born := built_le before (quiet_orderly w) built
    have overtaken := advanced_lt between (run_orderly before (quiet_orderly w)) advanced
    have alive := started_le later (run_orderly earlier (quiet_orderly w)) started
    rw [Machine.run_append, same] at alive
    exact absurd (UInt64.lt_of_lt_of_le overtaken alive) (UInt64.not_lt.mpr born)
  · rintro past rest rfl
    obtain ⟨earlier, later⟩ := Machine.meets_append.1 meets
    rw [Machine.run_append]
    exact epoch_le_run later (run_orderly earlier (quiet_orderly w))
  · intro i e p c returned
    obtain ⟨f, advanced⟩ := returned_advanced (run_tidy config w i) returned
    exact ((run_advances meets).reached _ advanced p c rfl).2
  · intro i j e f p c q d first second differ
    obtain ⟨e', advanced⟩ := returned_advanced (run_tidy config w i) first
    obtain ⟨f', advanced'⟩ := returned_advanced (run_tidy config w j) second
    have different : ((i, e'), Emission.advanced p c) ≠ ((j, f'), Emission.advanced q d) := by
      intro same
      exact differ (congrArg (fun entry => entry.1.1) same)
    exact (run_advances meets).apart.forall advanced advanced' different p c q d rfl rfl

/-- A revocation, from its arrival to its answer. Its event is lost. -/
def revocationRun (i : Nat) : List (Nat × Input) :=
  [(i, .arrive .revokeAll), (i, .proceed sampleEnv), (i, .proceed sampleEnv),
    (i, .proceed { sampleEnv with taskPanicked := true }), (i, .proceed sampleEnv)]

/-- The intent is written and the provider starts. -/
def startRun : List (Nat × Input) :=
  [(0, .proceed sampleEnv), (0, .proceed sampleEnv)]

theorem kill_switch_revocationRun :
    (actor sampleConfig).machine.Meets RevokesAlone (quiet sampleWorld) (revocationRun 1) ∧
      NoLateStart sampleConfig sampleWorld (revocationRun 1) ∧ EpochKept sampleConfig sampleWorld (revocationRun 1) ∧
      ReportsApart sampleConfig sampleWorld (revocationRun 1) := by
  have meets : (actor sampleConfig).machine.Meets RevokesAlone (quiet sampleWorld) (revocationRun 1) := by
    refine ⟨?_, ?_, ?_, ?_, ?_, trivial⟩
    · intro oldEpoch env elsewhere
      cases elsewhere
    · intro oldEpoch env elsewhere
      cases elsewhere
    · intro oldEpoch env revoking _
      cases revoking
      refine ⟨?_, rfl, by decide⟩
      intro j
      by_cases same : j = 1
      · rw [same]
        rfl
      · rw [Actor.step_other _ same, Actor.step_other _ same]
        rfl
    · intro oldEpoch env elsewhere
      cases elsewhere
    · intro oldEpoch env elsewhere
      cases elsewhere
  exact ⟨meets, kill_switch_holds sampleConfig sampleWorld (revocationRun 1) meets⟩

/-- Two revocations read the epoch before either advances it. -/
def raceRun : List (Nat × Input) :=
  [(1, .arrive .revokeAll), (2, .arrive .revokeAll), (1, .proceed sampleEnv), (2, .proceed sampleEnv),
    (1, .proceed sampleEnv), (2, .proceed sampleEnv), (2, .proceed { sampleEnv with taskPanicked := true }),
    (2, .proceed sampleEnv)]

/-- A provider starts under a grant that was built before a revocation which has
returned; and a revocation reports an epoch that is not the successor of the one it found. -/
theorem revoked_grant_starts :
    ¬NoLateStart sampleConfig sampleWorld (checkedRun ++ revocationRun 1 ++ startRun) ∧
      ((1, .proceed sampleEnv), .returned (.revocation 0 1)) ∈ (actor sampleConfig).machine.trace
        ((actor sampleConfig).machine.run (quiet sampleWorld) checkedRun) (revocationRun 1) ∧
      ¬ReportsApart sampleConfig sampleWorld raceRun := by
  have returned : ((1, .proceed sampleEnv), .returned (.revocation 0 1)) ∈ (actor sampleConfig).machine.trace
      ((actor sampleConfig).machine.run (quiet sampleWorld) checkedRun) (revocationRun 1) :=
    .tail _ (.tail _ (.tail _ (.tail _ (.head _))))
  refine ⟨?_, returned, ?_⟩
  · intro never
    refine never checkedRun (revocationRun 1) startRun rfl (0, .proceed sampleEnv) (1, .proceed sampleEnv)
      (0, .proceed sampleEnv) sampleBuilt sampleBuilt 0 1 ?_ ?_ ?_ rfl
    · exact .tail _ (.tail _ (.tail _ (.tail _ (.head _))))
    · exact .tail _ (.tail _ (.head _))
    · exact .tail _ (.head _)
  · intro apart
    have successor := apart.1 2 (.proceed sampleEnv) 0 2 (.tail _ (.tail _ (.tail _ (.tail _ (.tail _ (.tail _ (.tail _
      (.head _))))))))
    cases successor

end Requests
end Latchgate
