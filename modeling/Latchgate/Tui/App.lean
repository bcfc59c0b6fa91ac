import Latchgate.Core.Text
import Latchgate.Machine.Run
import Latchgate.Tui.Client
import Latchgate.Tui.Input

namespace Latchgate.Tui

/-! The application around the screens. -/

inductive RevokeStage where
  | confirm
  | typeConfirm
  deriving DecidableEq

inductive AppAction where
  | noop
  | navigate (screen : Nat)
  | flash (message : FlashMessage)
  | quit
  | beginInput
  | endInput
  | asyncAction
  | suspendForEditor (path : String)
  | runInit
  | revokeEpoch
  | gateUp
  | gateDown
  | gateRestart
  | gateReload

inductive AppKey where
  | key (key : KeyEvent)
  | tab
  | backTab
  deriving DecidableEq

/-- The key as a screen gets it. -/
def AppKey.event : AppKey → KeyEvent
  | key event => event
  | tab => { code := .other }
  | backTab => { code := .other }

/-- The number of screens. -/
def screenCount : Nat :=
  6

/-- All screens with what they hold. None of them revokes or stops the gate by
itself. -/
structure Screens (σ : Type) where
  handleKey : σ → Nat → KeyEvent → σ × AppAction
  isModal : σ → Nat → Bool
  needsConfirmInput : σ → Nat → Bool
  harmless : ∀ screens active key, (handleKey screens active key).2 ≠ .revokeEpoch ∧
    (handleKey screens active key).2 ≠ .gateDown

structure App (σ : Type) where
  screens : σ
  activeScreen : Nat := 0
  flash : Option FlashMessage := none
  inputMode : Bool := false
  showHelp : Bool := false
  ephemeral : Bool
  gateConnected : Bool := true
  revokeStage : Option RevokeStage := none
  revokeInput : Option TextInput := none
  gateDownConfirm : Bool := false
  diagnostic : Option String := none
  running : Bool := true

structure GateOps where
  canStop : Bool
  canStart : Bool
  canReload : Bool

/-- What a refresh leaves: it reads the screen anew, probes the gate and looks for
credentials. -/
structure Refresh (σ : Type) where
  screens : σ → σ
  gateConnected : Bool
  ephemeral : Bool
  flash : Option FlashMessage → Option FlashMessage

/-- What the gate, the screens and the wizard do while one key is handled. -/
structure World (σ : Type) where
  gateOps : Option GateOps
  /-- There is no message where the action of the screen takes too long. -/
  action : σ → σ × Option (Option FlashMessage)
  restartRequest : σ → σ × Bool
  revokeAll : Except ClientError Unit
  stop : Except String Unit
  /-- The credentials of a new client, or why there is none. -/
  start : Except String (Except String Bool)
  reload : Except String (Nat × String)
  init : σ → σ × Option FlashMessage
  refresh : Refresh σ

inductive AppEffect where
  | revokeAll
  | stopGate
  | startGate
  | reloadGate
  deriving DecidableEq

namespace App
variable {σ : Type} (ui : Screens σ) (app : App σ)

/-- The application before its first tick. -/
def new (screens : σ) (ephemeral : Bool) : App σ where
  screens
  ephemeral

def refresh (refresh : Refresh σ) : App σ :=
  { app with
    screens := refresh.screens app.screens
    gateConnected := refresh.gateConnected
    ephemeral := refresh.ephemeral
    flash := refresh.flash app.flash }

def setFlash (message : FlashMessage) : App σ :=
  { app with flash := some message }

def switchScreen (screen : Nat) : App σ :=
  if screen < screenCount then { app with activeScreen := screen, inputMode := false, showHelp := false } else app

def cancelRevoke : App σ :=
  { app with revokeStage := none, revokeInput := none, inputMode := false }

/-- The line that asks for the word. -/
def revokeLine : TextInput :=
  .new " Type REVOKE to confirm (Esc to cancel) " 6

/-! The keys. -/

def handleRevokeKey (key : KeyEvent) : App σ × AppAction :=
  match app.revokeStage with
  | some .confirm =>
    if key.code = .char 'y' then
      ({ app with
          revokeStage := some .typeConfirm
          revokeInput := some revokeLine }, .noop)
    else (app.cancelRevoke, .noop)
  | some .typeConfirm =>
    match app.revokeInput with
    | some input =>
      match input.handleKey key with
      | (_, .submit text) =>
        if trim text.toList = "REVOKE".toList then (app.cancelRevoke, .revokeEpoch)
        else (app.cancelRevoke.setFlash (.error "Revoke cancelled — confirmation text didn't match"), .noop)
      | (_, .cancel) => (app.cancelRevoke, .noop)
      | (input, .continue_) => ({ app with revokeInput := some input }, .noop)
    | none => (app.cancelRevoke, .noop)
  | none => (app, .noop)

def handleGateDownKey (key : KeyEvent) : App σ × AppAction :=
  ({ app with gateDownConfirm := false, inputMode := false }, if key.code = .char 'y' then .gateDown else .noop)

def screenKey (key : KeyEvent) : App σ × AppAction :=
  let (screens, action) := ui.handleKey app.screens app.activeScreen key
  ({ app with screens }, action)

def nextScreen : Nat :=
  (app.activeScreen + 1) % screenCount

def prevScreen : Nat :=
  if app.activeScreen = 0 then screenCount - 1 else app.activeScreen - 1

/-- The number of a digit from 1 to 6. -/
def digit? : KeyCode → Option Nat
  | .char c => if '1' ≤ c ∧ c ≤ '6' then some (c.toNat - '1'.toNat) else none
  | _ => none

def askStop (gateOps : Option GateOps) : App σ × AppAction :=
  if gateOps.any GateOps.canStop then ({ app with gateDownConfirm := true, inputMode := true }, .noop)
  else (app, .flash (.success "Gate is externally managed — stop from the host"))

/-- A key when nothing is typed. The last screen has the digits for itself. -/
def handleGlobalKey (gateOps : Option GateOps) (key : AppKey) : App σ × AppAction :=
  match key with
  | .tab => (app, .navigate app.nextScreen)
  | .backTab => (app, .navigate app.prevScreen)
  | .key event =>
    match event.code with
    | .char 'q' => (app, .quit)
    | .char 'R' => ({ app with revokeStage := some .confirm, inputMode := true }, .noop)
    | .char 'S' => app.askStop gateOps
    | code =>
      match digit? code with
      | some screen => if app.activeScreen = screenCount - 1 then app.screenKey ui event else (app, .navigate screen)
      | none => app.screenKey ui event

/-- A key when a screen has the input. -/
def handleInputKey (key : AppKey) : App σ × AppAction :=
  if key.event.code = .esc then
    match app.screenKey ui key.event with
    | (app, .endInput) => ({ app with inputMode := false }, .endInput)
    | outcome => outcome
  else if ui.isModal app.screens app.activeScreen then app.screenKey ui key.event
  else match key with
    | .tab => ({ app with inputMode := false }, .navigate app.nextScreen)
    | .backTab => ({ app with inputMode := false }, .navigate app.prevScreen)
    | .key event =>
      match digit? event.code with
      | some screen => ({ app with inputMode := false }, .navigate screen)
      | none => app.screenKey ui event

def handleKey (gateOps : Option GateOps) (key : AppKey) : App σ × AppAction :=
  if key.event.code = .char 'c' ∧ key.event.control then (app, .quit)
  else if app.diagnostic.isSome then ({ app with diagnostic := none }, .noop)
  else if app.revokeStage.isSome then app.handleRevokeKey key.event
  else if app.gateDownConfirm then app.handleGateDownKey key.event
  else if ¬app.inputMode ∧ key.event.code = .char '?' then ({ app with showHelp := !app.showHelp }, .noop)
  else if app.showHelp then ({ app with showHelp := false }, .noop)
  else if app.inputMode then app.handleInputKey ui key
  else app.handleGlobalKey ui gateOps key

/-! What the event loop does with an action. -/

def applyStartResult (result : Except String (Except String Bool)) (message : String) (diagnostic : Bool) : App σ :=
  match result with
  | .ok (.ok ephemeral) => { app with ephemeral, gateConnected := true }.setFlash (.success message)
  | .ok (.error e) => app.setFlash (.error ("Client init failed: " ++ e))
  | .error e => if diagnostic then { app with diagnostic := some e } else app.setFlash (.error ("Start failed: " ++ e))

def externallyManaged : FlashMessage :=
  .success "Gate is externally managed — restart from the host"

def startFromCli : FlashMessage :=
  .success "Start gate with `latchgate up` from the CLI"

def startGate (world : World σ) (ops : GateOps) : App σ × List AppEffect :=
  if ops.canStart then (app.applyStartResult world.start "✓ Gate restarted — changes applied" true, [.startGate])
  else (app, [])

def restartGate (world : World σ) (ops : GateOps) : App σ × List AppEffect :=
  if ops.canStop then
    match world.stop with
    | .error e => (app.setFlash (.error ("Restart: stop failed: " ++ e)), [.stopGate])
    | .ok () =>
      let (app, effects) := app.startGate world ops
      (app, .stopGate :: effects)
  else if ops.canStart then app.startGate world ops
  else (app.setFlash externallyManaged, [])

/-- The action of the screen with what it says. -/
def handleAction (world : World σ) : App σ :=
  let (screens, message) := world.action app.screens
  let app := { app with screens, inputMode := false }
  match message with
  | none => app.setFlash actionTimedOut
  | some none => app
  | some (some message) => app.setFlash message

/-- A screen that still waits for a confirmation keeps the keys. -/
def keepInput : App σ :=
  { app with inputMode := app.inputMode || ui.needsConfirmInput app.screens app.activeScreen }

/-- The restart that the action of a screen may ask for. -/
def takeRestart (world : World σ) : App σ × List AppEffect :=
  let (screens, restart) := world.restartRequest app.screens
  match restart, world.gateOps with
  | true, some ops => { app with screens }.restartGate world ops
  | _, _ => ({ app with screens }, [])

def runAction (world : World σ) : App σ × List AppEffect :=
  ((app.handleAction world).keepInput ui).takeRestart world

def revokeEpoch (world : World σ) : App σ × List AppEffect :=
  let app := { app with inputMode := false }
  if app.ephemeral then
    (app.setFlash (.error
      "Cannot revoke — no operator credentials. Run `latchgate init` or provide --operator-key."), [])
  else match world.revokeAll with
    | .ok () => (app.setFlash (.success "✓ All grants revoked — new epoch started"), [.revokeAll])
    | .error e => (app.setFlash (.error ("Revoke failed: " ++ e.display)), [.revokeAll])

def gateUp (world : World σ) : App σ × List AppEffect :=
  if app.gateConnected then (app.setFlash (.success "Gate is already running"), [])
  else match world.gateOps with
    | some ops =>
      if ops.canStart then (app.applyStartResult world.start "✓ Gate started" false, [.startGate])
      else (app.setFlash (.success "Cannot start — an up session already exists"), [])
    | none => (app.setFlash startFromCli, [])

def gateDown (world : World σ) : App σ × List AppEffect :=
  match world.gateOps with
  | none => (app, [])
  | some _ =>
    match world.stop with
    | .ok () => (app.setFlash (.success "✓ Gate stopped"), [.stopGate])
    | .error e => (app.setFlash (.error ("Stop failed: " ++ e)), [.stopGate])

def gateRestart (world : World σ) : App σ × List AppEffect :=
  let app := { app with inputMode := false }
  match world.gateOps with
  | none => (app.setFlash startFromCli, [])
  | some ops => app.restartGate world ops

def gateReload (world : World σ) : App σ × List AppEffect :=
  let app := { app with inputMode := false }
  match world.gateOps with
  | none => (app, [])
  | some ops =>
    if ops.canReload then
      match world.reload with
      | .ok (actions, version) =>
        (app.setFlash (.success ("✓ Reloaded — " ++ toString actions ++ " actions, policy " ++ version)), [.reloadGate])
      | .error e => (app.setFlash (.error ("Reload failed: " ++ e)), [.reloadGate])
    else (app.setFlash (.success "Gate does not support hot reload — restart from the host"), [])

def runInit (world : World σ) : App σ :=
  let (screens, message) := world.init app.screens
  { app with screens, flash := message.orElse fun _ => app.flash }

def perform (world : World σ) : AppAction → App σ × List AppEffect
  | .quit => ({ app with running := false }, [])
  | .navigate screen => ((app.switchScreen screen).refresh world.refresh, [])
  | .flash message => (app.setFlash message, [])
  | .asyncAction => (app.runAction ui world).map (·.refresh world.refresh) id
  | .revokeEpoch => (app.revokeEpoch world).map (·.refresh world.refresh) id
  | .gateUp => (app.gateUp world).map (·.refresh world.refresh) id
  | .gateDown => (app.gateDown world).map (·.refresh world.refresh) id
  | .gateRestart => (app.gateRestart world).map (·.refresh world.refresh) id
  | .gateReload => (app.gateReload world).map (·.refresh world.refresh) id
  | .beginInput => ({ app with inputMode := true }, [])
  | .endInput => ({ app with inputMode := false }, [])
  | .suspendForEditor _ => (app, [])
  | .runInit => (app.runInit world, [])
  | .noop => (app, [])

end App

inductive AppEvent (σ : Type) where
  | key (key : AppKey) (world : World σ)
  | tick (refresh : Refresh σ)

/-- After the end of the loop nothing happens. -/
def App.step {σ : Type} (ui : Screens σ) (app : App σ) : AppEvent σ → App σ × List AppEffect
  | .tick refresh => (if app.running then app.refresh refresh else app, [])
  | .key key world =>
    if app.running then
      let (app, action) := app.handleKey ui world.gateOps key
      app.perform ui world action
    else (app, [])

def appLoop {σ : Type} (ui : Screens σ) : Machine (App σ) (AppEvent σ) (List AppEffect) where
  step := App.step ui

end Latchgate.Tui
