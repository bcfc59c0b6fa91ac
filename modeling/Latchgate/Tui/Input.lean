import Latchgate.Json.Value

namespace Latchgate.Tui

/-! Keys, and a line of text that is edited with them. -/

inductive KeyCode where
  | char (c : Char)
  | enter
  | esc
  | backspace
  | delete
  | left
  | right
  | up
  | down
  | home
  | end_
  | other
  deriving DecidableEq

structure KeyEvent where
  code : KeyCode
  control : Bool := false
  deriving DecidableEq

/-- What the event loop is told to do next. -/
inductive ScreenAction where
  | noop
  | navigate (screen : Nat)
  | beginInput
  | endInput
  | asyncAction
  deriving DecidableEq

inductive FlashStyle where
  | success
  | error
  | info
  deriving DecidableEq

structure FlashMessage where
  text : String
  style : FlashStyle
  deriving DecidableEq

namespace FlashMessage

def success (text : String) : FlashMessage :=
  ⟨text, .success⟩

def error (text : String) : FlashMessage :=
  ⟨text, .error⟩

def info (text : String) : FlashMessage :=
  ⟨text, .info⟩

end FlashMessage

/-- What is shown when the action of a screen takes too long. -/
def actionTimedOut : FlashMessage :=
  .error "Action timed out — the gate may be unresponsive"

inductive InputAction where
  | continue_
  | submit (value : String)
  | cancel
  deriving DecidableEq

/-- The cursor stands between the two parts of the text. A limit of zero is
none. -/
structure TextInput where
  before : List Char
  after : List Char
  label : String
  maxLen : Nat
  fits : maxLen = 0 ∨ before.length + after.length ≤ maxLen

namespace TextInput

def new (label : String) (maxLen : Nat) : TextInput where
  before := []
  after := []
  label
  maxLen
  fits := .inr (Nat.zero_le _)

variable (input : TextInput)

def content : String :=
  String.ofList (input.before ++ input.after)

/-- The same line with another text that is no longer. -/
def rewrite (before after : List Char) (shorter : before.length + after.length ≤ input.before.length + input.after.length) :
    TextInput :=
  { input with before, after, fits := input.fits.imp_right (Nat.le_trans shorter) }

def insert (c : Char) : TextInput :=
  if room : input.maxLen = 0 ∨ input.before.length + input.after.length < input.maxLen then
    { input with
      before := input.before ++ [c]
      fits := by
        rw [List.length_append, List.length_singleton]
        omega }
  else input

def clear : TextInput :=
  input.rewrite [] [] (Nat.zero_le _)

def removeBefore : TextInput :=
  input.rewrite input.before.dropLast input.after (by rw [List.length_dropLast]; omega)

def removeAfter : TextInput :=
  input.rewrite input.before (input.after.drop 1) (by rw [List.length_drop]; omega)

def moveLeft : TextInput :=
  input.rewrite input.before.dropLast (input.before.getLast?.toList ++ input.after) (by
    rcases List.eq_nil_or_concat input.before with empty | ⟨front, c, split⟩
    · simp [empty]
    · simp [split]
      omega)

def moveRight : TextInput :=
  input.rewrite (input.before ++ input.after.head?.toList) (input.after.drop 1) (by
    cases input.after with
    | nil => simp
    | cons c rest =>
      simp
      omega)

def moveHome : TextInput :=
  input.rewrite [] (input.before ++ input.after) (by simp)

def moveEnd : TextInput :=
  input.rewrite (input.before ++ input.after) [] (by simp)

def handleKey (key : KeyEvent) : TextInput × InputAction :=
  match key.code with
  | .enter => (input, .submit input.content)
  | .esc => (input, .cancel)
  | .char c => if c = 'u' ∧ key.control then (input.clear, .continue_) else (input.insert c, .continue_)
  | .backspace => (input.removeBefore, .continue_)
  | .delete => (input.removeAfter, .continue_)
  | .left => (input.moveLeft, .continue_)
  | .right => (input.moveRight, .continue_)
  | .home => (input.moveHome, .continue_)
  | .end_ => (input.moveEnd, .continue_)
  | _ => (input, .continue_)

/-- A text is submitted with Enter only. -/
theorem handleKey_submit {key : KeyEvent} {value : String} (submitted : (input.handleKey key).2 = .submit value) :
    key.code = .enter ∧ value = input.content := by
  cases code : key.code with
  | enter =>
    simp only [handleKey, code] at submitted
    exact ⟨rfl, (InputAction.submit.inj submitted).symm⟩
  | char c =>
    simp only [handleKey, code] at submitted
    split_ifs at submitted
  | _ =>
    simp only [handleKey, code] at submitted
    cases submitted

end TextInput
end Latchgate.Tui
