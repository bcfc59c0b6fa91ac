import Latchgate.Tui.App

namespace Latchgate.Tui
namespace App
variable {σ : Type} {ui : Screens σ} {app : App σ}

/-! What a key does to the questions of the application. -/

/-- No question is open, nothing is typed and nothing lies over the screen. -/
structure Free (app : App σ) : Prop where
  running : app.running = true
  clear : app.diagnostic = none
  idle : app.revokeStage = none
  stop : app.gateDownConfirm = false
  help : app.showHelp = false
  typing : app.inputMode = false

def Quits (event : KeyEvent) : Prop :=
  event.code = .char 'c' ∧ event.control = true

/-- Actions that neither revoke nor touch the gate. -/
def Plain : AppAction → Prop
  | .noop | .navigate _ | .flash _ | .quit | .endInput => True
  | _ => False

def FromScreen (ui : Screens σ) (event : KeyEvent) (action : AppAction) : Prop :=
  ∃ screens active, (ui.handleKey screens active event).2 = action

inductive Keyed (ui : Screens σ) (app : App σ) (key : AppKey) : App σ → AppAction → Prop where
  | quit : Keyed ui app key app .quit
  | dismissed (shown : app.diagnostic.isSome = true) : Keyed ui app key { app with diagnostic := none } .noop
  | confirmed (stage : app.revokeStage = some .confirm) (pressed : key.event.code = .char 'y') :
      Keyed ui app key { app with revokeStage := some .typeConfirm, revokeInput := some revokeLine } .noop
  | cancelled {next : App σ} (stage : app.revokeStage.isSome = true) (over_ : next.revokeStage = none)
      (stop : next.gateDownConfirm = app.gateDownConfirm) : Keyed ui app key next .noop
  | revoked {input : TextInput} (stage : app.revokeStage = some .typeConfirm) (held : app.revokeInput = some input)
      (pressed : key.event.code = .enter) (text : trim input.content.toList = "REVOKE".toList) :
      Keyed ui app key app.cancelRevoke .revokeEpoch
  | typed {input : TextInput} (stage : app.revokeStage = some .typeConfirm) (held : app.revokeInput = some input)
      (goesOn : key.event.code ≠ .enter ∧ key.event.code ≠ .esc) (stays : ¬Quits key.event) :
      Keyed ui app key { app with revokeInput := some (input.handleKey key.event).1 } .noop
  | stopAnswered {action : AppAction} (idle : app.revokeStage = none) (asked : app.gateDownConfirm = true)
      (answered : action = .gateDown ∧ key.event.code = .char 'y' ∨ action = .noop) :
      Keyed ui app key { app with gateDownConfirm := false, inputMode := false } action
  | askedRevoke (free : app.running = true → Free app) (pressed : key.event.code = .char 'R') :
      Keyed ui app key { app with revokeStage := some .confirm, inputMode := true } .noop
  | askedStop (free : app.running = true → Free app) (pressed : key.event.code = .char 'S') : Keyed ui app key { app with gateDownConfirm := true, inputMode := true } .noop
  | elsewhere {next : App σ} {action : AppAction} (idle : next.revokeStage = none) (stop : next.gateDownConfirm = false)
      (origin : Plain action ∨ FromScreen ui key.event action) : Keyed ui app key next action

section Keys
variable {key : AppKey}

/-- What a line of text is told by a key that neither enters nor leaves it. -/
theorem handleKey_continue {input : TextInput} {event : KeyEvent} (goesOn : (input.handleKey event).2 = .continue_) :
    event.code ≠ .enter ∧ event.code ≠ .esc := by
  refine ⟨fun enter => ?_, fun esc => ?_⟩
  · simp only [TextInput.handleKey, enter, reduceCtorEq] at goesOn
  · simp only [TextInput.handleKey, esc, reduceCtorEq] at goesOn

theorem keyed_revoke (active : app.revokeStage.isSome = true) (stays : ¬Quits key.event) :
    Keyed ui app key (app.handleRevokeKey key.event).1 (app.handleRevokeKey key.event).2 := by
  unfold handleRevokeKey
  split
  · rename_i stage
    split_ifs with pressed
    · exact .confirmed stage pressed
    · exact .cancelled active rfl rfl
  · rename_i stage
    split
    · rename_i input held
      split
      · rename_i text submitted
        obtain ⟨pressed, same⟩ := input.handleKey_submit (congrArg Prod.snd submitted)
        split_ifs with word
        · exact .revoked stage held pressed (same ▸ word)
        · exact .cancelled active rfl rfl
      · exact .cancelled active rfl rfl
      · rename_i next goesOn
        have same : (input.handleKey key.event).1 = next := congrArg Prod.fst goesOn
        subst same
        exact .typed stage held (handleKey_continue (congrArg Prod.snd goesOn)) stays
    · exact .cancelled active rfl rfl
  · rename_i none_
    rw [none_] at active
    cases active

theorem keyed_screen (idle : app.revokeStage = none) (stop : app.gateDownConfirm = false) :
    Keyed ui app key (app.screenKey ui key.event).1 (app.screenKey ui key.event).2 :=
  .elsewhere idle stop (.inr ⟨_, _, rfl⟩)

theorem keyed_input (idle : app.revokeStage = none) (stop : app.gateDownConfirm = false) :
    Keyed ui app key (app.handleInputKey ui key).1 (app.handleInputKey ui key).2 := by
  unfold handleInputKey
  split_ifs
  · split
    · rename_i next ended
      have same : (app.screenKey ui key.event).1 = next := congrArg Prod.fst ended
      subst same
      exact .elsewhere idle stop (.inl trivial)
    · exact keyed_screen idle stop
  · exact keyed_screen idle stop
  · split
    · exact .elsewhere idle stop (.inl trivial)
    · exact .elsewhere idle stop (.inl trivial)
    · split
      · exact .elsewhere idle stop (.inl trivial)
      · exact keyed_screen idle stop

theorem keyed_global (idle : app.revokeStage = none) (stop : app.gateDownConfirm = false)
    (free : app.running = true → Free app) (gateOps : Option GateOps) :
    Keyed ui app key (app.handleGlobalKey ui gateOps key).1 (app.handleGlobalKey ui gateOps key).2 := by
  unfold handleGlobalKey
  split
  · exact .elsewhere idle stop (.inl trivial)
  · exact .elsewhere idle stop (.inl trivial)
  · split
    · exact .elsewhere idle stop (.inl trivial)
    · rename_i pressed
      exact .askedRevoke free pressed
    · rename_i pressed
      unfold askStop
      split_ifs
      · exact .askedStop free pressed
      · exact .elsewhere idle stop (.inl trivial)
    · split
      · split_ifs
        · exact keyed_screen idle stop
        · exact .elsewhere idle stop (.inl trivial)
      · exact keyed_screen idle stop

theorem keyed_handleKey (ui : Screens σ) (app : App σ) (gateOps : Option GateOps) (key : AppKey) :
    Keyed ui app key (app.handleKey ui gateOps key).1 (app.handleKey ui gateOps key).2 := by
  unfold handleKey
  split_ifs with control shown active asked help closing typing
  · exact .quit
  · exact .dismissed shown
  · exact keyed_revoke active control
  · refine .stopAnswered (Option.not_isSome_iff_eq_none.mp active) asked ?_
    unfold handleGateDownKey
    dsimp only
    split_ifs with pressed
    · exact .inl ⟨rfl, pressed⟩
    · exact .inr rfl
  all_goals
    have idle := Option.not_isSome_iff_eq_none.mp active
    have stop := Bool.eq_false_iff.mpr asked
  · exact .elsewhere idle stop (.inl trivial)
  · exact .elsewhere idle stop (.inl trivial)
  · exact keyed_input idle stop
  · refine keyed_global idle stop (fun running => ?_) gateOps
    exact ⟨running, Option.not_isSome_iff_eq_none.mp shown, idle, stop, Bool.eq_false_iff.mpr closing,
      Bool.eq_false_iff.mpr typing⟩

end Keys

/-! What is done with an action. -/

/-- The same questions are open, and the application still runs if it did. -/
structure SameQuestions (app next : App σ) : Prop where
  stage : next.revokeStage = app.revokeStage
  input : next.revokeInput = app.revokeInput
  stop : next.gateDownConfirm = app.gateDownConfirm
  running : next.running = app.running

theorem applyStartResult_questions (result : Except String (Except String Bool)) (message : String) (diagnostic : Bool) :
    SameQuestions app (app.applyStartResult result message diagnostic) := by
  rcases result with e | e | ephemeral
  · cases diagnostic <;> exact ⟨rfl, rfl, rfl, rfl⟩
  · exact ⟨rfl, rfl, rfl, rfl⟩
  · exact ⟨rfl, rfl, rfl, rfl⟩

theorem startGate_questions (world : World σ) (ops : GateOps) : SameQuestions app (app.startGate world ops).1 := by
  unfold startGate
  split_ifs
  · exact applyStartResult_questions _ _ _
  · exact ⟨rfl, rfl, rfl, rfl⟩

theorem restartGate_questions (world : World σ) (ops : GateOps) : SameQuestions app (app.restartGate world ops).1 := by
  unfold restartGate
  split_ifs
  · split
    · exact ⟨rfl, rfl, rfl, rfl⟩
    · exact startGate_questions world ops
  · exact startGate_questions world ops
  · exact ⟨rfl, rfl, rfl, rfl⟩

theorem SameQuestions.trans {first second third : App σ} (left : SameQuestions first second)
    (right : SameQuestions second third) : SameQuestions first third :=
  ⟨right.stage.trans left.stage, right.input.trans left.input, right.stop.trans left.stop,
    right.running.trans left.running⟩

theorem handleAction_questions (world : World σ) : SameQuestions app (app.handleAction world) := by
  unfold handleAction
  dsimp only
  split <;> exact ⟨rfl, rfl, rfl, rfl⟩

/-- After the action of a screen the gate may be started anew. -/
theorem runAction_cases (ui : Screens σ) (app : App σ) (world : World σ) : ∃ app' : App σ, SameQuestions app app' ∧
    (app.runAction ui world = (app', []) ∨
      ∃ ops screens, (world.restartRequest screens).2 = true ∧ app.runAction ui world = app'.restartGate world ops) := by
  have same := app.handleAction_questions world
  generalize acted : (app.handleAction world).keepInput ui = next
  have kept : SameQuestions app next := by
    subst acted
    exact ⟨same.stage, same.input, same.stop, same.running⟩
  refine ⟨{ next with screens := (world.restartRequest next.screens).1 }, ⟨kept.stage, kept.input, kept.stop, kept.running⟩, ?_⟩
  unfold runAction takeRestart
  rw [acted]
  dsimp only
  split
  · rename_i ops restart _
    exact .inr ⟨ops, next.screens, restart, rfl⟩
  · exact .inl rfl

theorem SameQuestions.refresh {next : App σ} (same : SameQuestions app next) (refresh : Refresh σ) :
    SameQuestions app (next.refresh refresh) :=
  ⟨same.stage, same.input, same.stop, same.running⟩

theorem revokeEpoch_questions (world : World σ) : SameQuestions app (app.revokeEpoch world).1 := by
  unfold revokeEpoch
  dsimp only
  split_ifs
  · exact ⟨rfl, rfl, rfl, rfl⟩
  · split <;> exact ⟨rfl, rfl, rfl, rfl⟩

theorem gateUp_questions (world : World σ) : SameQuestions app (app.gateUp world).1 := by
  unfold gateUp
  split_ifs
  · exact ⟨rfl, rfl, rfl, rfl⟩
  · split
    · split_ifs
      · exact applyStartResult_questions _ _ _
      · exact ⟨rfl, rfl, rfl, rfl⟩
    · exact ⟨rfl, rfl, rfl, rfl⟩

theorem gateDown_questions (world : World σ) : SameQuestions app (app.gateDown world).1 := by
  unfold gateDown
  split
  · exact ⟨rfl, rfl, rfl, rfl⟩
  · split <;> exact ⟨rfl, rfl, rfl, rfl⟩

theorem gateRestart_questions (world : World σ) : SameQuestions app (app.gateRestart world).1 := by
  have same : SameQuestions app { app with inputMode := false } := ⟨rfl, rfl, rfl, rfl⟩
  unfold gateRestart
  dsimp only
  split
  · exact ⟨rfl, rfl, rfl, rfl⟩
  · exact same.trans (restartGate_questions world _)

theorem gateReload_questions (world : World σ) : SameQuestions app (app.gateReload world).1 := by
  unfold gateReload
  dsimp only
  split
  · exact ⟨rfl, rfl, rfl, rfl⟩
  · split_ifs
    · split <;> exact ⟨rfl, rfl, rfl, rfl⟩
    · exact ⟨rfl, rfl, rfl, rfl⟩

theorem runAction_questions (ui : Screens σ) (world : World σ) : SameQuestions app (app.runAction ui world).1 := by
  obtain ⟨app', same, done | ⟨ops, screens, -, done⟩⟩ := app.runAction_cases ui world
  · rw [done]
    exact same
  · rw [done]
    exact same.trans (restartGate_questions world ops)

theorem perform_questions (ui : Screens σ) (app : App σ) (world : World σ) {action : AppAction} (goesOn : action ≠ .quit) :
    SameQuestions app (app.perform ui world action).1 := by
  cases action with
  | quit => exact absurd rfl goesOn
  | navigate screen =>
    refine SameQuestions.refresh ?_ world.refresh
    unfold switchScreen
    split_ifs <;> exact ⟨rfl, rfl, rfl, rfl⟩
  | asyncAction => exact (runAction_questions ui world).refresh world.refresh
  | revokeEpoch => exact (revokeEpoch_questions world).refresh world.refresh
  | gateUp => exact (gateUp_questions world).refresh world.refresh
  | gateDown => exact (gateDown_questions world).refresh world.refresh
  | gateRestart => exact (gateRestart_questions world).refresh world.refresh
  | gateReload => exact (gateReload_questions world).refresh world.refresh
  | _ => exact ⟨rfl, rfl, rfl, rfl⟩

/-! What is sent to the gate. -/

theorem startGate_effects {world : World σ} {ops : GateOps} {effect : AppEffect}
    (sent : effect ∈ (app.startGate world ops).2) : effect = .startGate := by
  unfold startGate at sent
  split_ifs at sent
  · exact List.mem_singleton.mp sent
  · cases sent

theorem restartGate_effects {world : World σ} {ops : GateOps} {effect : AppEffect}
    (sent : effect ∈ (app.restartGate world ops).2) : effect = .stopGate ∨ effect = .startGate := by
  unfold restartGate at sent
  split_ifs at sent
  · split at sent
    · exact .inl (List.mem_singleton.mp sent)
    · exact (List.mem_cons.mp sent).imp_right startGate_effects
  · exact .inr (startGate_effects sent)
  · cases sent

theorem runAction_effects {world : World σ} {effect : AppEffect} (sent : effect ∈ (app.runAction ui world).2) :
    (effect = .stopGate ∨ effect = .startGate) ∧ ∃ screens, (world.restartRequest screens).2 = true := by
  obtain ⟨app', -, done | ⟨ops, screens, restart, done⟩⟩ := app.runAction_cases ui world
  · rw [done] at sent
    cases sent
  · rw [done] at sent
    exact ⟨restartGate_effects sent, screens, restart⟩

theorem revokeEpoch_effects (world : World σ) :
    (app.revokeEpoch world).2 = if app.ephemeral then [] else [.revokeAll] := by
  unfold revokeEpoch
  dsimp only
  split_ifs
  · rfl
  · split <;> rfl

theorem gateUp_effects {world : World σ} {effect : AppEffect} (sent : effect ∈ (app.gateUp world).2) :
    effect = .startGate := by
  unfold gateUp at sent
  split_ifs at sent
  · cases sent
  · split at sent
    · split_ifs at sent
      · exact List.mem_singleton.mp sent
      · cases sent
    · cases sent

theorem gateDown_effects {world : World σ} {effect : AppEffect} (sent : effect ∈ (app.gateDown world).2) :
    effect = .stopGate := by
  unfold gateDown at sent
  split at sent
  · cases sent
  · split at sent <;> exact List.mem_singleton.mp sent

theorem gateRestart_effects {world : World σ} {effect : AppEffect} (sent : effect ∈ (app.gateRestart world).2) :
    effect = .stopGate ∨ effect = .startGate := by
  unfold gateRestart at sent
  dsimp only at sent
  split at sent
  · cases sent
  · exact restartGate_effects sent

theorem gateReload_effects {world : World σ} {effect : AppEffect} (sent : effect ∈ (app.gateReload world).2) :
    effect = .reloadGate := by
  unfold gateReload at sent
  dsimp only at sent
  split at sent
  · cases sent
  · split_ifs at sent
    · split at sent <;> exact List.mem_singleton.mp sent
    · cases sent

/-- One action revokes. The gate is stopped by an answered question or by a screen
that wants it to start anew. -/
theorem perform_effects {world : World σ} {action : AppAction} {effect : AppEffect}
    (sent : effect ∈ (app.perform ui world action).2) :
    (effect = .revokeAll → action = .revokeEpoch) ∧
      (effect = .stopGate → action = .gateDown ∨ action = .gateRestart ∨
        action = .asyncAction ∧ ∃ screens, (world.restartRequest screens).2 = true) := by
  cases action with
  | revokeEpoch =>
    have sent : effect ∈ (app.revokeEpoch world).2 := sent
    rw [revokeEpoch_effects] at sent
    split_ifs at sent
    · cases sent
    · obtain rfl := List.mem_singleton.mp sent
      exact ⟨fun _ => rfl, nofun⟩
  | asyncAction =>
    obtain ⟨rfl | rfl, restart⟩ := runAction_effects sent
    · exact ⟨nofun, fun _ => .inr (.inr ⟨rfl, restart⟩)⟩
    · exact ⟨nofun, nofun⟩
  | gateUp =>
    obtain rfl := gateUp_effects sent
    exact ⟨nofun, nofun⟩
  | gateDown =>
    obtain rfl := gateDown_effects sent
    exact ⟨nofun, fun _ => .inl rfl⟩
  | gateRestart =>
    obtain rfl | rfl := gateRestart_effects sent
    · exact ⟨nofun, fun _ => .inr (.inl rfl)⟩
    · exact ⟨nofun, nofun⟩
  | gateReload =>
    obtain rfl := gateReload_effects sent
    exact ⟨nofun, nofun⟩
  | _ => cases sent

theorem perform_revokes {world : World σ} {action : AppAction} :
    AppEffect.revokeAll ∈ (app.perform ui world action).2 ↔ action = .revokeEpoch ∧ app.ephemeral = false := by
  constructor
  · intro sent
    obtain rfl := (perform_effects sent).1 rfl
    have sent : AppEffect.revokeAll ∈ (app.revokeEpoch world).2 := sent
    rw [revokeEpoch_effects] at sent
    split_ifs at sent with ephemeral
    · cases sent
    · exact ⟨rfl, Bool.eq_false_iff.mpr ephemeral⟩
  · rintro ⟨rfl, known⟩
    change AppEffect.revokeAll ∈ (app.revokeEpoch world).2
    rw [revokeEpoch_effects, known]
    exact List.mem_singleton_self _

end App
end Latchgate.Tui
