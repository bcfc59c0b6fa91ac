import Latchgate.Tui.AppRevoke

namespace Latchgate.Tui

/-! What was pressed before. -/

section Pressed
variable {σ : Type}

/-- Only time passes. -/
def Quiet (events : List (AppEvent σ)) : Prop :=
  ∀ event ∈ events, ∃ refresh, event = .tick refresh

/-- A key that stays within the line. -/
def AppEvent.Types : AppEvent σ → Prop
  | .tick _ => True
  | .key pressed _ => (pressed.event.code ≠ .enter ∧ pressed.event.code ≠ .esc) ∧ ¬App.Quits pressed.event

def AppEvent.typeIn (input : TextInput) : AppEvent σ → TextInput
  | .tick _ => input
  | .key pressed _ => (input.handleKey pressed.event).1

/-- The line after all keys. -/
def typeIn (input : TextInput) (events : List (AppEvent σ)) : TextInput :=
  events.foldl AppEvent.typeIn input

/-- A question was asked with a key, with nothing else open, and has not been
answered. -/
def Asked (ui : Screens σ) (start : App σ) (c : Char) (past : List (AppEvent σ)) : Prop :=
  ∃ older key world quiet, past = older ++ .key key world :: quiet ∧ key.event.code = .char c ∧
    ((appLoop ui).run start older).Free ∧ Quiet quiet

/-- The first question was answered with yes, and what was typed since then gives the
line. -/
def Typing (ui : Screens σ) (start : App σ) (past : List (AppEvent σ)) (input : TextInput) : Prop :=
  ∃ asked key world typed, past = asked ++ .key key world :: typed ∧ key.event.code = .char 'y' ∧
    Asked ui start 'R' asked ∧ (∀ event ∈ typed, event.Types) ∧ typeIn App.revokeLine typed = input

variable {ui : Screens σ} {start : App σ} {past : List (AppEvent σ)}

theorem Asked.tick {c : Char} (asked : Asked ui start c past) (refresh : Refresh σ) :
    Asked ui start c (past ++ [.tick refresh]) := by
  obtain ⟨older, key, world, quiet, rfl, pressed, free, only⟩ := asked
  refine ⟨older, key, world, quiet ++ [.tick refresh], by simp, pressed, free, fun event member => ?_⟩
  rcases List.mem_append.mp member with old | new
  · exact only event old
  · exact ⟨refresh, List.mem_singleton.mp new⟩

theorem Typing.next {input : TextInput} (typing : Typing ui start past input) (event : AppEvent σ) (types : event.Types) :
    Typing ui start (past ++ [event]) (event.typeIn input) := by
  obtain ⟨asked, key, world, typed, rfl, pressed, before, all, rfl⟩ := typing
  refine ⟨asked, key, world, typed ++ [event], by simp, pressed, before, fun e member => ?_, ?_⟩
  · rcases List.mem_append.mp member with old | new
    · exact all e old
    · exact List.mem_singleton.mp new ▸ types
  · simp only [typeIn, List.foldl_append, List.foldl_cons, List.foldl_nil]

/-! Six characters are just enough for the word. -/

theorem handleKey_maxLen (input : TextInput) (key : KeyEvent) : (input.handleKey key).1.maxLen = input.maxLen := by
  cases code : key.code with
  | char c =>
    simp only [TextInput.handleKey, code]
    split_ifs
    · rfl
    · unfold TextInput.insert
      split_ifs <;> rfl
  | _ => simp only [TextInput.handleKey, code] <;> rfl

theorem typeIn_maxLen (input : TextInput) (events : List (AppEvent σ)) : (typeIn input events).maxLen = input.maxLen := by
  induction events generalizing input with
  | nil => rfl
  | cons event rest ih =>
    refine (ih _).trans ?_
    cases event with
    | tick refresh => rfl
    | key key world => exact handleKey_maxLen input key.event

theorem content_of_trim {input : TextInput} (limit : input.maxLen = 6) (word : trim input.content.toList = "REVOKE".toList) :
    input.content = "REVOKE" := by
  have room : input.content.toList.length ≤ 6 := by
    have fits := input.fits
    simp only [TextInput.content, String.toList_ofList, List.length_append]
    omega
  have inside : (trim input.content.toList).Sublist input.content.toList :=
    (List.rdropWhile_prefix _ _).sublist.trans (List.dropWhile_suffix _).sublist
  have six : (trim input.content.toList).length = 6 := by rw [word]; rfl
  have same := inside.eq_of_length_le (by omega)
  exact String.toList_injective (same.symm.trans word)

end Pressed

/-! What the state tells of the past. -/

section Tells
variable {σ : Type} {ui : Screens σ} {start app : App σ} {past : List (AppEvent σ)}

structure Tells (ui : Screens σ) (start : App σ) (past : List (AppEvent σ)) (app : App σ) : Prop where
  apart : app.revokeStage.isSome = true → app.gateDownConfirm = false
  clear : app.revokeStage.isSome = true ∨ app.gateDownConfirm = true → app.diagnostic = none
  asked : app.revokeStage = some .confirm → Asked ui start 'R' past
  typing : app.revokeStage = some .typeConfirm → ∀ input, app.revokeInput = some input → Typing ui start past input
  stop : app.gateDownConfirm = true → Asked ui start 'S' past

theorem Tells.idle (idle : app.revokeStage = none) (stop : app.gateDownConfirm = false) : Tells ui start past app where
  apart := fun _ => stop
  clear := by simp [idle, stop]
  asked := by simp [idle]
  typing := by simp [idle]
  stop := by simp [stop]

theorem Tells.tick (tells : Tells ui start past app) (refresh : Refresh σ) :
    Tells ui start (past ++ [.tick refresh]) (app.refresh refresh) where
  apart := tells.apart
  clear := tells.clear
  asked := fun stage => (tells.asked stage).tick refresh
  typing := fun stage input held => (tells.typing stage input held).next _ trivial
  stop := fun asked => (tells.stop asked).tick refresh

theorem Tells.keyed (tells : Tells ui start past app) (at_ : app = (appLoop ui).run start past)
    (running : app.running = true) {key : AppKey} {world : World σ} {next : App σ} {action : AppAction}
    (keyed : App.Keyed ui app key next action) (goesOn : action ≠ .quit) :
    Tells ui start (past ++ [.key key world]) (next.perform ui world action).1 := by
  obtain ⟨sameStage, sameInput, sameStop, -⟩ := App.perform_questions ui next world goesOn
  have free (ends : app.running = true → app.Free) : ((appLoop ui).run start past).Free := at_ ▸ ends running
  cases keyed with
  | quit => exact absurd rfl goesOn
  | dismissed shown =>
    have closed : ¬(app.revokeStage.isSome = true ∨ app.gateDownConfirm = true) := fun asked => by
      rw [tells.clear asked] at shown
      cases shown
    rw [not_or] at closed
    exact .idle (Option.not_isSome_iff_eq_none.mp closed.1) (Bool.eq_false_iff.mpr closed.2)
  | confirmed stage pressed =>
    have some_ : app.revokeStage.isSome = true := by rw [stage]; rfl
    refine ⟨fun _ => tells.apart some_, fun _ => tells.clear (.inl some_), nofun, fun _ input held => ?_, fun asked => ?_⟩
    · cases held
      exact ⟨past, key, world, [], rfl, pressed, tells.asked stage, List.forall_mem_nil _, rfl⟩
    · exact absurd ((tells.apart some_).symm.trans asked) Bool.false_ne_true
  | cancelled stage over_ stop =>
    exact .idle over_ (stop.trans (tells.apart stage))
  | revoked stage held pressed text =>
    refine .idle sameStage (sameStop.trans (tells.apart ?_))
    rw [stage]
    rfl
  | typed stage held within stays =>
    have some_ : app.revokeStage.isSome = true := by rw [stage]; rfl
    refine ⟨fun _ => tells.apart some_, fun _ => tells.clear (.inl some_), ?_, fun _ input same => ?_, fun asked => ?_⟩
    · intro wrong
      have wrong : app.revokeStage = some .confirm := wrong
      rw [stage] at wrong
      cases wrong
    · cases same
      exact (tells.typing stage _ held).next (.key key world) ⟨within, stays⟩
    · exact absurd ((tells.apart some_).symm.trans asked) Bool.false_ne_true
  | stopAnswered idle asked answered => exact .idle (sameStage.trans idle) sameStop
  | askedRevoke ends pressed =>
    have open_ := ends running
    refine ⟨fun _ => open_.stop, fun _ => open_.clear, fun _ => ?_, nofun, fun asked => ?_⟩
    · exact ⟨past, key, world, [], rfl, pressed, free ends, List.forall_mem_nil _⟩
    · exact absurd (open_.stop.symm.trans asked) Bool.false_ne_true
  | askedStop ends pressed =>
    have open_ := ends running
    have none_ (stage : app.revokeStage.isSome = true) : False := by
      rw [open_.idle] at stage
      cases stage
    refine ⟨fun stage => (none_ stage).elim, fun _ => open_.clear, fun stage => ?_, fun stage => ?_, fun _ => ?_⟩
    · exact (none_ (congrArg Option.isSome stage)).elim
    · exact (none_ (congrArg Option.isSome stage)).elim
    · exact ⟨past, key, world, [], rfl, pressed, free ends, List.forall_mem_nil _⟩
  | elsewhere idle stop origin => exact .idle (sameStage.trans idle) (sameStop.trans stop)

/-- While the application runs, an open question tells which keys were pressed. -/
theorem tells_run (ui : Screens σ) (screens : σ) (ephemeral : Bool) (past : List (AppEvent σ))
    (running : ((appLoop ui).run (.new screens ephemeral) past).running = true) :
    Tells ui (.new screens ephemeral) past ((appLoop ui).run (.new screens ephemeral) past) := by
  induction past using List.reverseRecOn with
  | nil => exact .idle rfl rfl
  | append_singleton past event ih =>
    rw [Machine.run_concat] at running ⊢
    generalize before : (appLoop ui).run (.new screens ephemeral) past = app at running ih ⊢
    cases active : app.running with
    | false =>
      have stays : ((appLoop ui).step app event).1 = app := by
        cases event <;> simp [appLoop, App.step, active]
      rw [stays, active] at running
      cases running
    | true =>
      cases event with
      | tick refresh =>
        have step : ((appLoop ui).step app (.tick refresh)).1 = app.refresh refresh := by
          simp [appLoop, App.step, active]
        rw [step]
        exact (ih active).tick refresh
      | key key world =>
        have step : ((appLoop ui).step app (.key key world)).1 =
            ((app.handleKey ui world.gateOps key).1.perform ui world (app.handleKey ui world.gateOps key).2).1 := by
          simp [appLoop, App.step, active]
        rw [step] at running ⊢
        refine (ih active).keyed before.symm active (app.keyed_handleKey ui world.gateOps key) fun ends => ?_
        rw [ends] at running
        cases running

/-! What the keys lead to. -/

def App.Confirming (app : App σ) : Prop :=
  app.running = true ∧ app.diagnostic = none ∧ app.revokeStage = some .confirm

def App.TypingIn (app : App σ) (input : TextInput) : Prop :=
  app.running = true ∧ app.diagnostic = none ∧ app.revokeStage = some .typeConfirm ∧ app.revokeInput = some input

theorem free_asks (free : app.Free) {key : AppKey} {world : World σ} (pressed : key.event.code = .char 'R') :
    ((appLoop ui).step app (.key key world)).1.Confirming := by
  have handled : app.handleKey ui world.gateOps key =
      ({ app with revokeStage := some .confirm, inputMode := true }, .noop) := by
    cases key with
    | key event =>
      have code : event.code = .char 'R' := pressed
      simp [App.handleKey, App.handleGlobalKey, AppKey.event, code, free.clear, free.idle, free.stop, free.help, free.typing]
    | _ => cases pressed
  have step : ((appLoop ui).step app (.key key world)).1 = { app with revokeStage := some .confirm, inputMode := true } := by
    simp only [appLoop, App.step, free.running, if_true, handled, App.perform]
  rw [step]
  exact ⟨free.running, free.clear, rfl⟩

theorem Quiet.confirming {quiet : List (AppEvent σ)} (only : Quiet quiet) (asked : app.Confirming) :
    ((appLoop ui).run app quiet).Confirming := by
  induction quiet generalizing app with
  | nil => exact asked
  | cons event rest ih =>
    obtain ⟨refresh, rfl⟩ := only event List.mem_cons_self
    refine ih (fun e member => only e (List.mem_cons_of_mem _ member)) ?_
    have step : ((appLoop ui).step app (.tick refresh)).1 = app.refresh refresh := by
      simp only [appLoop, App.step, asked.1, if_true]
    rw [step]
    exact asked

theorem step_revokeKey {key : AppKey} {world : World σ} (running : app.running = true) (clear : app.diagnostic = none)
    (active : app.revokeStage.isSome = true) (stays : ¬App.Quits key.event) :
    (appLoop ui).step app (.key key world) =
      (app.handleRevokeKey key.event).1.perform ui world (app.handleRevokeKey key.event).2 := by
  have handled : app.handleKey ui world.gateOps key = app.handleRevokeKey key.event := by
    have control : ¬(key.event.code = .char 'c' ∧ key.event.control = true) := stays
    unfold App.handleKey
    rw [if_neg control, clear, if_neg (by simp), if_pos active]
  simp only [appLoop, App.step, running, if_true, handled]

theorem confirming_types (asked : app.Confirming) {key : AppKey} {world : World σ} (pressed : key.event.code = .char 'y') :
    ((appLoop ui).step app (.key key world)).1.TypingIn App.revokeLine := by
  obtain ⟨running, clear, stage⟩ := asked
  have stays : ¬App.Quits key.event := fun quits => by
    have code := pressed.symm.trans quits.1
    simp at code
  rw [step_revokeKey running clear (by rw [stage]; rfl) stays]
  have handled : app.handleRevokeKey key.event =
      ({ app with revokeStage := some .typeConfirm, revokeInput := some App.revokeLine }, .noop) := by
    simp only [App.handleRevokeKey, stage, pressed, if_true]
  rw [handled]
  exact ⟨running, clear, rfl, rfl⟩

theorem handleKey_within (input : TextInput) {event : KeyEvent} (within : event.code ≠ .enter ∧ event.code ≠ .esc) :
    input.handleKey event = ((input.handleKey event).1, .continue_) := by
  cases code : event.code with
  | enter => exact absurd code within.1
  | esc => exact absurd code within.2
  | char c =>
    simp only [TextInput.handleKey, code]
    split_ifs <;> rfl
  | _ => simp only [TextInput.handleKey, code]

theorem typingIn_step {event : AppEvent σ} (types : event.Types) {input : TextInput} (typing : app.TypingIn input) :
    ((appLoop ui).step app event).1.TypingIn (event.typeIn input) := by
  obtain ⟨running, clear, stage, held⟩ := typing
  cases event with
  | tick refresh =>
    have step : ((appLoop ui).step app (.tick refresh)).1 = app.refresh refresh := by
      simp only [appLoop, App.step, running, if_true]
    rw [step]
    exact ⟨running, clear, stage, held⟩
  | key pressed world =>
    rw [step_revokeKey running clear (by rw [stage]; rfl) types.2]
    have handled : app.handleRevokeKey pressed.event =
        ({ app with revokeInput := some (input.handleKey pressed.event).1 }, .noop) := by
      simp only [App.handleRevokeKey, stage, held]
      rw [handleKey_within input types.1]
    rw [handled]
    exact ⟨running, clear, stage, rfl⟩

theorem typingIn_run {typed : List (AppEvent σ)} (all : ∀ event ∈ typed, event.Types) {input : TextInput}
    (typing : app.TypingIn input) : ((appLoop ui).run app typed).TypingIn (typeIn input typed) := by
  induction typed generalizing app input with
  | nil => exact typing
  | cons event rest ih =>
    exact ih (fun e member => all e (List.mem_cons_of_mem _ member)) (typingIn_step (all event List.mem_cons_self) typing)

theorem Asked.confirming (asked : Asked ui start 'R' past) : ((appLoop ui).run start past).Confirming := by
  obtain ⟨older, key, world, quiet, rfl, pressed, free, only⟩ := asked
  rw [Machine.run_append]
  exact only.confirming (free_asks free pressed)

theorem Typing.typingIn {input : TextInput} (typing : Typing ui start past input) :
    ((appLoop ui).run start past).TypingIn input := by
  obtain ⟨asked, key, world, typed, rfl, pressed, before, all, rfl⟩ := typing
  rw [Machine.run_append]
  exact typingIn_run all (confirming_types before.confirming pressed)

theorem typingIn_enter {input : TextInput} (typing : app.TypingIn input) (word : input.content = "REVOKE") {key : AppKey}
    {world : World σ} (pressed : key.event.code = .enter) :
    (appLoop ui).step app (.key key world) = app.cancelRevoke.perform ui world .revokeEpoch := by
  obtain ⟨running, clear, stage, held⟩ := typing
  have stays : ¬App.Quits key.event := fun quits => by
    have code := pressed.symm.trans quits.1
    simp at code
  rw [step_revokeKey running clear (by rw [stage]; rfl) stays]
  have handled : app.handleRevokeKey key.event = (app.cancelRevoke, .revokeEpoch) := by
    have entered : input.handleKey key.event = (input, .submit "REVOKE") := by
      simp only [TextInput.handleKey, pressed, word]
    simp only [App.handleRevokeKey, stage, held, entered]
    rfl
  rw [handled]

end Tells

/-- The gate is asked to revoke all grants when, with nothing else open, `R` was
pressed, then `y`, then the keys that make the word, and at last Enter; and only
with credentials. -/
theorem revokes_iff_confirmed {σ : Type} (ui : Screens σ) (screens : σ) (ephemeral : Bool) (past : List (AppEvent σ))
    (event : AppEvent σ) :
    AppEffect.revokeAll ∈ ((appLoop ui).step ((appLoop ui).run (.new screens ephemeral) past) event).2 ↔
      ∃ input key world, Typing ui (.new screens ephemeral) past input ∧ input.content = "REVOKE" ∧
        event = .key key world ∧ key.event.code = .enter ∧
        ((appLoop ui).run (.new screens ephemeral) past).ephemeral = false := by
  constructor
  · intro sent
    have tells := tells_run ui screens ephemeral past
    generalize (appLoop ui).run (.new screens ephemeral) past = app at sent tells ⊢
    cases active : app.running with
    | false => cases event <;> simp [appLoop, App.step, active] at sent
    | true =>
      cases event with
      | tick refresh => simp [appLoop, App.step] at sent
      | key key world =>
        simp only [appLoop, App.step, active, if_true] at sent
        obtain ⟨asks, known⟩ := App.perform_revokes.1 sent
        have keyed := app.keyed_handleKey ui world.gateOps key
        rw [asks] at keyed
        generalize (app.handleKey ui world.gateOps key).1 = next at keyed known
        cases keyed with
        | @revoked input stage held pressed text =>
          have typing := (tells active).typing stage input held
          obtain ⟨-, -, -, typed, -, -, -, -, rfl⟩ := id typing
          exact ⟨_, key, world, typing, content_of_trim (typeIn_maxLen _ _) text, rfl, pressed, known⟩
        | stopAnswered idle asked answered =>
          rcases answered with ⟨wrong, -⟩ | wrong <;> cases wrong
        | elsewhere idle stop origin =>
          rcases origin with plain | ⟨screens, active, same⟩
          · cases plain
          · exact absurd same (ui.harmless screens active key.event).1
  · rintro ⟨input, key, world, typing, word, rfl, pressed, known⟩
    rw [typingIn_enter typing.typingIn word pressed]
    exact App.perform_revokes.2 ⟨rfl, known⟩

/-- Screens that do nothing. -/
def blankScreens : Screens Unit where
  handleKey := fun screens _ _ => (screens, .noop)
  isModal := fun _ _ => false
  needsConfirmInput := fun _ _ => false
  harmless := fun _ _ _ => ⟨nofun, nofun⟩

/-- A gate that can be stopped and does what it is asked to do. -/
def readyWorld : World Unit where
  gateOps := some ⟨true, true, true⟩
  action := fun screens => (screens, some none)
  restartRequest := fun screens => (screens, false)
  revokeAll := .ok ()
  stop := .ok ()
  start := .ok (.ok false)
  reload := .ok (0, "")
  init := fun screens => (screens, none)
  refresh := ⟨id, true, false, id⟩

def pressed (code : KeyCode) : AppEvent Unit :=
  .key (.key { code }) readyWorld

example : ((appLoop blankScreens).step ((appLoop blankScreens).run (.new () false)
    ([.char 'R', .char 'y', .char 'R', .char 'E', .char 'V', .char 'O', .char 'K', .char 'E'].map pressed))
      (pressed .enter)).2 = [.revokeAll] := by
  decide

end Latchgate.Tui
