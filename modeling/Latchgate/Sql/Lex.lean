import Mathlib.Data.List.Basic

/-! The lexical structure of SQL: quoted texts, in which a doubled quote stands
for one, line comments, semicolons, and everything else by its characters. -/

namespace Sql

inductive Token where
  | blank (c : Char)
  | comment
  | semicolon
  | quoted (quote : Char) (body : List Char)
  | symbol (c : Char)
  deriving DecidableEq

/-- What has been read of a token. After a quote that may end a quoted text the
next character decides, and so it does after a hyphen. -/
inductive Mode where
  | code
  | hyphen
  | comment
  | quoted (quote : Char) (body : List Char)
  | ended (quote : Char) (body : List Char)

variable (isBlank : Char → Bool)

/-- A character that stands outside of quotes and comments. -/
def start (c : Char) : List Token × Mode :=
  if c = '\'' ∨ c = '"' then ([], .quoted c [])
  else if c = '-' then ([], .hyphen)
  else if c = ';' then ([.semicolon], .code)
  else if isBlank c then ([.blank c], .code)
  else ([.symbol c], .code)

def step : Mode → Char → List Token × Mode
  | .code, c => start isBlank c
  | .hyphen, c => if c = '-' then ([], .comment) else (.symbol '-' :: (start isBlank c).1, (start isBlank c).2)
  | .comment, c => if c = '\n' then ([.comment], .code) else ([], .comment)
  | .quoted quote body, c => if c = quote then ([], .ended quote body) else ([], .quoted quote (body ++ [c]))
  | .ended quote body, c =>
    if c = quote then ([], .quoted quote (body ++ [c]))
    else (.quoted quote body :: (start isBlank c).1, (start isBlank c).2)

/-- A quoted text and a comment may be left open at the end. -/
def finish : Mode → List Token
  | .code => []
  | .hyphen => [.symbol '-']
  | .comment => [.comment]
  | .quoted quote body => [.quoted quote body]
  | .ended quote body => [.quoted quote body]

def lexFrom (m : Mode) : List Char → List Token
  | [] => finish m
  | c :: rest => (step isBlank m c).1 ++ lexFrom (step isBlank m c).2 rest

def lex (text : List Char) : List Token :=
  lexFrom isBlank .code text

/-- Neither white space nor a comment nor a separator of statements. -/
def Token.solid : Token → Bool
  | .symbol _ => true
  | .quoted _ _ => true
  | _ => false

/-- Something stands behind a semicolon. -/
def Several (tokens : List Token) : Prop :=
  ∃ before token after, tokens = before ++ token :: after ∧ .semicolon ∈ before ∧ token.solid = true

/-- Letters, digits and what else may stand in a word. -/
def isWordChar (c : Char) : Bool :=
  c.isAlphanum || c = '_' || c = '$' || 128 ≤ c.toNat

def Token.wordChar? : Token → Option Char
  | .symbol c => if isWordChar c then some c else none
  | _ => none

/-- The words outside of quotes and comments. -/
def words (tokens : List Token) : List (List Char) :=
  (tokens.splitOnP fun token => token.wordChar?.isNone).map (·.filterMap Token.wordChar?)

/-- A keyword, given in upper case, stands outside of quotes and comments. -/
def hasKeyword (text : List Char) (keyword : String) : Bool :=
  (words (lex isBlank text)).any fun word => word.map Char.toUpper = keyword.toList

variable {isBlank}

/-- What has been read of a quoted text is the front of it. -/
theorem lexFrom_quoted (quote : Char) (body rest : List Char) :
    (∃ more after, lexFrom isBlank (.quoted quote body) rest = .quoted quote (body ++ more) :: after) ∧
      ∃ more after, lexFrom isBlank (.ended quote body) rest = .quoted quote (body ++ more) :: after := by
  induction rest generalizing body with
  | nil => exact ⟨⟨[], [], by rw [List.append_nil]; rfl⟩, [], [], by rw [List.append_nil]; rfl⟩
  | cons c rest ih =>
    constructor
    · by_cases ends : c = quote
      · obtain ⟨more, after, found⟩ := (ih body).2
        refine ⟨more, after, ?_⟩
        simp only [lexFrom, step, if_pos ends, List.nil_append, found]
      · obtain ⟨more, after, found⟩ := (ih (body ++ [c])).1
        refine ⟨c :: more, after, ?_⟩
        simp only [lexFrom, step, if_neg ends, List.nil_append, found, List.append_assoc, List.singleton_append]
    · by_cases doubled : c = quote
      · obtain ⟨more, after, found⟩ := (ih (body ++ [c])).1
        refine ⟨c :: more, after, ?_⟩
        simp only [lexFrom, step, if_pos doubled, List.nil_append, found, List.append_assoc, List.singleton_append]
      · refine ⟨[], (start isBlank c).1 ++ lexFrom isBlank (start isBlank c).2 rest, ?_⟩
        simp only [lexFrom, step, if_neg doubled, List.cons_append, List.append_nil]

end Sql
