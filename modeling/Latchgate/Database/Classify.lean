import Latchgate.Core.Text
import Latchgate.Providers.Task
import Latchgate.Sql.Lex

namespace Latchgate.Database

/-- The variables of the loop in `contains_multiple_statements`, and whether it
is in the inner loop that skips a comment. -/
structure Scan where
  inSingleQuote : Bool := false
  inDoubleQuote : Bool := false
  prevChar : Char := '\x00'
  foundSemi : Bool := false
  inComment : Bool := false

/-- One character, with the one that follows it. There is no next state where
the text is known to have several statements. -/
def scanStep (s : Scan) (c : Char) (next : Option Char) : Option Scan :=
  if s.inComment then some { s with inComment := decide (c ≠ '\n') }
  else if c = '\'' ∧ s.inDoubleQuote = false then
    if s.inSingleQuote = true ∧ s.prevChar ≠ '\'' then some { s with inSingleQuote := false, prevChar := c }
    else some { s with inSingleQuote := true, prevChar := c }
  else if c = '"' ∧ s.inSingleQuote = false then
    some { s with inDoubleQuote := !s.inDoubleQuote, prevChar := c }
  else if c = '-' ∧ s.inSingleQuote = false ∧ s.inDoubleQuote = false then
    if next = some '-' then some { s with inComment := true } else some { s with prevChar := c }
  else if c = ';' ∧ s.inSingleQuote = false ∧ s.inDoubleQuote = false then
    some { s with foundSemi := true, prevChar := c }
  else if s.foundSemi = true ∧ isWhitespace c = false then none
  else some { s with prevChar := c }

def scanFrom (s : Scan) : List Char → Bool
  | [] => false
  | c :: rest =>
    match scanStep s c rest.head? with
    | some s => scanFrom s rest
    | none => true

def containsMultipleStatements (sql : List Char) : Bool :=
  scanFrom {} sql

/-- The operation that a first word in upper case stands for. -/
def firstWordClass (word : List Char) : OperationClass :=
  let word := String.ofList word
  if word ∈ ["SELECT", "WITH", "TABLE", "VALUES"] then .select
  else if word = "INSERT" then .insert
  else if word = "UPDATE" then .update
  else if word = "DELETE" then .delete
  else if word ∈ ["CREATE", "ALTER", "DROP", "TRUNCATE", "RENAME", "COMMENT"] then .ddl
  else if word ∈ ["GRANT", "REVOKE"] then .grantRevoke
  else if word = "COPY" then .copyIo
  else if word ∈ ["BEGIN", "COMMIT", "ROLLBACK", "SAVEPOINT", "RELEASE", "SET", "RESET", "LOCK", "UNLOCK"] then
    .transactionControl
  else .unknown

def classifySql (sql : List Char) : OperationClass :=
  let trimmed := trim sql
  if trimmed = [] then .unknown
  else if containsMultipleStatements trimmed then .multiStatement
  else firstWordClass ((splitWhitespace (trimmed.map Char.toUpper)).headD [])

def hasWhereClause (sql : List Char) : Bool :=
  (splitWhitespace (sql.map Char.toUpper)).any fun word => word = ['W', 'H', 'E', 'R', 'E']

/-! The scanner beside the lexer. -/

/-- A literal that the scanner takes to be open when it has ended: the quote at
its end stands directly behind another quote. -/
def misread : Sql.Token → Bool
  | .quoted '\'' body => body.getLast?.getD '\'' = '\''
  | _ => false

/-- A token that shows the scanner that there is another statement: it has a
character that is no white space, hyphen, quote or semicolon. -/
def telling : Sql.Token → Bool
  | .symbol c => c ≠ '-'
  | .quoted quote body => body.any fun c => c ≠ quote && !isWhitespace c
  | _ => false

/-- Behind a semicolon there is a token that tells, and no literal before it is
misread. -/
def told (foundSemi : Bool) : List Sql.Token → Bool
  | [] => false
  | token :: rest =>
    (foundSemi && telling token) || (!misread token && told (foundSemi || token = .semicolon) rest)

/-- Outside of quotes and comments. -/
def Plain (s : Scan) : Prop :=
  s.inSingleQuote = false ∧ s.inDoubleQuote = false ∧ s.inComment = false

/-- Of a quoted text that has been read in part nothing tells yet. -/
def Silent (s : Scan) (quote : Char) (body : List Char) : Prop :=
  s.foundSemi = true → telling (.quoted quote body) = false

/-- The scanner is where the lexer is, with the same text before it. -/
def Follows : Sql.Mode → List Char → Scan → Prop
  | .code, _, s => Plain s
  | .hyphen, rest, s => s.inSingleQuote = false ∧ s.inDoubleQuote = false ∧ s.inComment = decide (rest.head? = some '-')
  | .comment, _, s => s.inSingleQuote = false ∧ s.inDoubleQuote = false ∧ s.inComment = true
  | .quoted quote body, _, s =>
    s.inComment = false ∧ Silent s quote body ∧
      ((quote = '\'' ∧ s.inSingleQuote = true ∧ s.inDoubleQuote = false ∧ s.prevChar = body.getLast?.getD '\'') ∨
        (quote = '"' ∧ s.inSingleQuote = false ∧ s.inDoubleQuote = true))
  | .ended quote body, _, s =>
    s.inComment = false ∧ Silent s quote body ∧ s.inDoubleQuote = false ∧
      ((quote = '\'' ∧ s.inSingleQuote = misread (.quoted quote body) ∧ s.prevChar = '\'') ∨
        (quote = '"' ∧ s.inSingleQuote = false))

/-- What the scanner makes of a character, beside the lexer: both go on, or the
scanner has seen enough, or the lexer has passed a literal that is misread. -/
inductive Meets (m : Sql.Mode) (c : Char) (rest : List Char) (s : Scan) : Prop
  | on (next : Scan) : scanStep s c rest.head? = some next → Follows (Sql.step isWhitespace m c).2 rest next →
      (∀ tokens, told s.foundSemi ((Sql.step isWhitespace m c).1 ++ tokens) = told next.foundSemi tokens) → Meets m c rest s
  | seen : scanStep s c rest.head? = none → told s.foundSemi (Sql.lexFrom isWhitespace m (c :: rest)) = true → Meets m c rest s
  | lost : told s.foundSemi (Sql.lexFrom isWhitespace m (c :: rest)) = false →
      (∃ token ∈ Sql.lexFrom isWhitespace m (c :: rest), misread token = true) → Meets m c rest s

theorem told_nil (foundSemi : Bool) : told foundSemi [] = false := rfl

/-- Outside of quotes and comments the two go on together, or a symbol behind a
semicolon is seen. -/
theorem start_follows {s : Scan} (plain : Plain s) (c : Char) (rest : List Char) :
    (∃ next, scanStep s c rest.head? = some next ∧ Follows (Sql.start isWhitespace c).2 rest next ∧
      ∀ tokens, told s.foundSemi ((Sql.start isWhitespace c).1 ++ tokens) = told next.foundSemi tokens) ∨
    (scanStep s c rest.head? = none ∧ ∀ tokens, told s.foundSemi ((Sql.start isWhitespace c).1 ++ tokens) = true) := by
  obtain ⟨single, double, comment⟩ := plain
  by_cases literal : c = '\''
  · subst literal
    left
    refine ⟨{ s with inSingleQuote := true, prevChar := '\'' }, ?_, ?_, fun tokens => rfl⟩
    · simp [scanStep, single, double, comment]
    · exact ⟨comment, fun _ => rfl, .inl ⟨rfl, rfl, double, rfl⟩⟩
  by_cases identifier : c = '"'
  · subst identifier
    left
    refine ⟨{ s with inDoubleQuote := true, prevChar := '"' }, ?_, ?_, fun tokens => rfl⟩
    · simp [scanStep, single, double, comment]
    · exact ⟨comment, fun _ => rfl, .inr ⟨rfl, single, rfl⟩⟩
  by_cases hyphen : c = '-'
  · subst hyphen
    left
    by_cases next : rest.head? = some '-'
    · refine ⟨{ s with inComment := true }, ?_, ?_, fun tokens => rfl⟩
      · simp [scanStep, single, double, comment, next]
      · exact ⟨single, double, by simp [next]⟩
    · refine ⟨{ s with prevChar := '-' }, ?_, ?_, fun tokens => rfl⟩
      · simp [scanStep, single, double, comment, next]
      · exact ⟨single, double, by simp [next, comment]⟩
  by_cases semicolon : c = ';'
  · subst semicolon
    left
    refine ⟨{ s with foundSemi := true, prevChar := ';' }, ?_, ⟨single, double, comment⟩, fun tokens => ?_⟩
    · simp [scanStep, single, double, comment]
    · simp [Sql.start, told, telling, misread]
  by_cases blank : isWhitespace c = true
  · left
    refine ⟨{ s with prevChar := c }, ?_, ?_, fun tokens => ?_⟩
    · simp [scanStep, single, double, comment, literal, identifier, hyphen, semicolon, blank]
    · simp only [Sql.start, literal, identifier, hyphen, semicolon, blank, or_false, if_false, if_true]
      exact ⟨single, double, comment⟩
    · simp [Sql.start, literal, identifier, hyphen, semicolon, blank, told, telling, misread]
  · cases found : s.foundSemi with
    | true =>
      right
      refine ⟨?_, fun tokens => ?_⟩
      · simp [scanStep, single, double, comment, literal, identifier, hyphen, semicolon, blank, found]
      · simp [Sql.start, literal, identifier, hyphen, semicolon, blank, told, telling]
    | false =>
      left
      refine ⟨{ s with prevChar := c }, ?_, ?_, fun tokens => ?_⟩
      · simp [scanStep, single, double, comment, literal, identifier, hyphen, semicolon, blank, found]
      · simp only [Sql.start, literal, identifier, hyphen, semicolon, blank, or_false, if_false]
        exact ⟨single, double, comment⟩
      · simp [Sql.start, literal, identifier, hyphen, semicolon, blank, told, telling, misread, found]

/-- A token that shows nothing and is not misread may be passed. -/
theorem told_skip {foundSemi : Bool} {token : Sql.Token} (silent : foundSemi = true → telling token = false)
    (read : misread token = false) (other : token ≠ .semicolon) (tokens : List Sql.Token) :
    told foundSemi (token :: tokens) = told foundSemi tokens := by
  cases foundSemi with
  | true => simp [told, silent rfl, read]
  | false => simp [told, read, other]

/-- Behind a token that may be passed the scanner is outside of quotes. -/
theorem meets_start {m : Sql.Mode} {c : Char} {rest : List Char} {s : Scan} {before : List Sql.Token} (plain : Plain s)
    (steps : Sql.step isWhitespace m c = (before ++ (Sql.start isWhitespace c).1, (Sql.start isWhitespace c).2))
    (passed : ∀ tokens, told s.foundSemi (before ++ tokens) = told s.foundSemi tokens) : Meets m c rest s := by
  rcases start_follows plain c rest with ⟨next, scanned, follows, same⟩ | ⟨scanned, seen⟩
  · refine .on next scanned (by rwa [steps]) fun tokens => ?_
    rw [steps, List.append_assoc, passed, same]
  · refine .seen scanned ?_
    rw [Sql.lexFrom, steps, List.append_assoc, passed, seen]

/-- A character inside of quotes that does not end them. -/
theorem meets_inside {quote : Char} {body : List Char} {c : Char} {rest : List Char} {s : Scan} (inside : c ≠ quote)
    (silent : Silent s quote body)
    (scanned : scanStep s c rest.head? =
      if s.foundSemi = true ∧ isWhitespace c = false then none else some { s with prevChar := c })
    (follows : Silent s quote (body ++ [c]) → Follows (.quoted quote (body ++ [c])) rest { s with prevChar := c }) :
    Meets (.quoted quote body) c rest s := by
  have steps : Sql.step isWhitespace (.quoted quote body) c = ([], .quoted quote (body ++ [c])) := by
    simp only [Sql.step, if_neg inside]
  by_cases shows : s.foundSemi = true ∧ isWhitespace c = false
  · refine .seen (by rw [scanned, if_pos shows]) ?_
    obtain ⟨more, after, found⟩ := (@Sql.lexFrom_quoted isWhitespace quote (body ++ [c]) rest).1
    rw [Sql.lexFrom, steps, List.nil_append, found]
    simp [told, shows.1, telling, inside, shows.2]
  · refine .on { s with prevChar := c } (by rw [scanned, if_neg shows]) ?_ fun tokens => by rw [steps]; rfl
    rw [steps]
    refine follows fun found => ?_
    have blank : isWhitespace c = true := by simpa [found] using shows
    have before := silent found
    simp only [telling] at before ⊢
    rw [List.any_append, before]
    simp [blank]

theorem scanStep_meets {m : Sql.Mode} {c : Char} {rest : List Char} {s : Scan} (follows : Follows m (c :: rest) s) :
    Meets m c rest s := by
  cases m with
  | code => exact @meets_start .code c rest s [] follows rfl fun tokens => rfl
  | hyphen =>
    obtain ⟨single, double, comment⟩ := follows
    by_cases hyphen : c = '-'
    · subst hyphen
      have inside : s.inComment = true := by simpa using comment
      refine .on { s with inComment := true } ?_ ⟨single, double, rfl⟩ fun tokens => rfl
      simp [scanStep, inside]
    · have outside : s.inComment = false := by simpa [hyphen] using comment
      refine @meets_start .hyphen c rest s [.symbol '-'] ⟨single, double, outside⟩ (by simp [Sql.step, hyphen]) fun tokens => ?_
      exact told_skip (fun _ => rfl) rfl (by simp) tokens
  | comment =>
    obtain ⟨single, double, comment⟩ := follows
    by_cases newline : c = '\n'
    · subst newline
      refine .on { s with inComment := false } (by simp [scanStep, comment]) ⟨single, double, rfl⟩ fun tokens => ?_
      exact told_skip (fun _ => rfl) rfl (by simp) tokens
    · refine .on { s with inComment := true } (by simp [scanStep, comment, newline]) ?_ fun tokens => ?_
      · simp only [Sql.step, if_neg newline]
        exact ⟨single, double, rfl⟩
      · simp only [Sql.step, if_neg newline, List.nil_append]
  | quoted quote body =>
    obtain ⟨comment, silent, ⟨rfl, single, double, prev⟩ | ⟨rfl, single, double⟩⟩ := follows
    · by_cases ends : c = '\''
      · subst ends
        by_cases adjacent : s.prevChar = '\''
        · refine .on { s with inSingleQuote := true, prevChar := '\'' } ?_ ?_ fun tokens => rfl
          · simp [scanStep, comment, double, adjacent]
          · exact ⟨comment, silent, double, .inl ⟨rfl, by simp [misread, ← prev, adjacent], rfl⟩⟩
        · refine .on { s with inSingleQuote := false, prevChar := '\'' } ?_ ?_ fun tokens => rfl
          · simp [scanStep, comment, single, double, adjacent]
          · exact ⟨comment, silent, double, .inl ⟨rfl, by simp [misread, ← prev, adjacent], rfl⟩⟩
      · refine meets_inside ends silent ?_ fun still => ?_
        · simp [scanStep, comment, single, ends]
        · exact ⟨comment, still, .inl ⟨rfl, single, double, by simp⟩⟩
    · by_cases ends : c = '"'
      · subst ends
        refine .on { s with inDoubleQuote := false, prevChar := '"' } ?_ ?_ fun tokens => rfl
        · simp [scanStep, comment, single, double]
        · exact ⟨comment, silent, rfl, .inr ⟨rfl, single⟩⟩
      · refine meets_inside ends silent ?_ fun still => ?_
        · simp [scanStep, comment, single, double, ends]
        · exact ⟨comment, still, .inr ⟨rfl, single, double⟩⟩
  | ended quote body =>
    obtain ⟨comment, silent, double, ⟨rfl, single, prev⟩ | ⟨rfl, single⟩⟩ := follows
    · by_cases doubled : c = '\''
      · subst doubled
        refine .on { s with inSingleQuote := true, prevChar := '\'' } ?_ ?_ fun tokens => rfl
        · simp [scanStep, comment, double, prev]
        · refine ⟨comment, fun found => ?_, .inl ⟨rfl, rfl, double, by simp⟩⟩
          simpa [telling] using silent found
      · cases lost : misread (.quoted '\'' body) with
        | true =>
          have split : Sql.lexFrom isWhitespace (.ended '\'' body) (c :: rest) =
              .quoted '\'' body :: ((Sql.start isWhitespace c).1 ++ Sql.lexFrom isWhitespace (Sql.start isWhitespace c).2 rest) := by
            simp [Sql.lexFrom, Sql.step, doubled]
          refine .lost ?_ ⟨.quoted '\'' body, by rw [split]; exact List.mem_cons_self, lost⟩
          rw [split, told, lost]
          cases found : s.foundSemi with
          | true => simp [silent found]
          | false => rfl
        | false =>
          refine @meets_start (.ended '\'' body) c rest s [.quoted '\'' body] ⟨by rw [single, lost], double, comment⟩
            (by simp [Sql.step, doubled]) fun tokens => ?_
          exact told_skip silent lost (by simp) tokens
    · by_cases doubled : c = '"'
      · subst doubled
        refine .on { s with inDoubleQuote := true, prevChar := '"' } ?_ ?_ fun tokens => rfl
        · simp [scanStep, comment, single, double]
        · refine ⟨comment, fun found => ?_, .inr ⟨rfl, single, rfl⟩⟩
          simpa [telling] using silent found
      · refine @meets_start (.ended '"' body) c rest s [.quoted '"' body] ⟨single, double, comment⟩ (by simp [Sql.step, doubled]) fun tokens => ?_
        exact told_skip silent rfl (by simp) tokens

theorem told_open {s : Scan} {quote : Char} {body : List Char} (silent : Silent s quote body) :
    told s.foundSemi [.quoted quote body] = false := by
  cases found : s.foundSemi with
  | true => simp [told, silent found]
  | false => simp [told]

theorem told_finish {m : Sql.Mode} {s : Scan} (follows : Follows m [] s) : told s.foundSemi (Sql.finish m) = false := by
  cases m with
  | code => rfl
  | hyphen => exact told_skip (fun _ => rfl) rfl (by simp) []
  | comment => exact told_skip (fun _ => rfl) rfl (by simp) []
  | quoted quote body => exact told_open follows.2.1
  | ended quote body => exact told_open follows.2.1

/-- What is told is found, and nothing else if no literal is misread. -/
theorem scanFrom_told {m : Sql.Mode} {s : Scan} (text : List Char) (follows : Follows m text s) :
    (told s.foundSemi (Sql.lexFrom isWhitespace m text) = true → scanFrom s text = true) ∧
      ((∀ token ∈ Sql.lexFrom isWhitespace m text, misread token = false) → scanFrom s text = true →
        told s.foundSemi (Sql.lexFrom isWhitespace m text) = true) := by
  induction text generalizing m s with
  | nil =>
    have untold := told_finish follows
    exact ⟨fun seen => absurd (untold.symm.trans seen) (by simp), fun _ found => absurd found (by simp [scanFrom])⟩
  | cons c rest ih =>
    cases scanStep_meets follows with
    | on next scanned follows same =>
      obtain ⟨found, exact_⟩ := ih follows
      rw [scanFrom, scanned, Sql.lexFrom, same]
      exact ⟨found, fun read => exact_ fun token member => read token (List.mem_append_right _ member)⟩
    | seen scanned seen =>
      rw [scanFrom, scanned]
      exact ⟨fun _ => rfl, fun _ _ => seen⟩
    | lost untold misses =>
      obtain ⟨token, member, lost⟩ := misses
      refine ⟨fun seen => absurd (untold.symm.trans seen) (by simp), fun read => ?_⟩
      exact absurd (lost.symm.trans (read token member)) (by simp)

/-! White space around a text. -/

theorem told_append {before : List Sql.Token} {first second : List Sql.Token}
    (same : ∀ foundSemi, told foundSemi first = told foundSemi second) (foundSemi : Bool) :
    told foundSemi (before ++ first) = told foundSemi (before ++ second) := by
  induction before generalizing foundSemi with
  | nil => exact same foundSemi
  | cons token before ih => simp only [List.cons_append, told, ih]

theorem told_blank {c : Char} (foundSemi : Bool) (tokens : List Sql.Token) :
    told foundSemi (.blank c :: tokens) = told foundSemi tokens :=
  told_skip (fun _ => rfl) rfl (by simp) tokens

theorem start_blank {c : Char} (blank : isWhitespace c = true) : Sql.start isWhitespace c = ([.blank c], .code) := by
  have plain : c ≠ '\'' ∧ c ≠ '"' ∧ c ≠ '-' ∧ c ≠ ';' := by
    refine ⟨?_, ?_, ?_, ?_⟩
    all_goals
      rintro rfl
      exact absurd blank (by decide)
  simp [Sql.start, plain, blank]

theorem told_code_blanks {blanks : List Char} (all : ∀ c ∈ blanks, isWhitespace c = true) (foundSemi : Bool) (text : List Char) :
    told foundSemi (Sql.lexFrom isWhitespace .code (blanks ++ text)) = told foundSemi (Sql.lexFrom isWhitespace .code text) := by
  induction blanks with
  | nil => rfl
  | cons c blanks ih =>
    rw [List.cons_append, Sql.lexFrom, Sql.step, start_blank (all c List.mem_cons_self), List.singleton_append, told_blank]
    exact ih fun c member => all c (List.mem_cons_of_mem _ member)

theorem telling_blanks {quote : Char} {blanks : List Char} (all : ∀ c ∈ blanks, isWhitespace c = true) (body : List Char) :
    telling (.quoted quote (body ++ blanks)) = telling (.quoted quote body) := by
  have silent : (blanks.any fun c => c ≠ quote && !isWhitespace c) = false :=
    List.any_eq_false.mpr fun c member => by simp [all c member]
  simp only [telling, List.any_append, silent, Bool.or_false]

/-- White space alone. -/
theorem told_code {blanks : List Char} (all : ∀ c ∈ blanks, isWhitespace c = true) (foundSemi : Bool) :
    told foundSemi (Sql.lexFrom isWhitespace .code blanks) = false := by
  have same := told_code_blanks all foundSemi []
  rw [List.append_nil] at same
  exact same

/-- White space in a comment. -/
theorem told_comment {blanks : List Char} (all : ∀ c ∈ blanks, isWhitespace c = true) (foundSemi : Bool) :
    told foundSemi (Sql.lexFrom isWhitespace .comment blanks) = false := by
  induction blanks with
  | nil => exact told_skip (fun _ => rfl) rfl (by simp) []
  | cons c blanks ih =>
    have later : ∀ d ∈ blanks, isWhitespace d = true := fun d member => all d (List.mem_cons_of_mem c member)
    by_cases newline : c = '\n'
    · simp only [Sql.lexFrom, Sql.step, if_pos newline, List.singleton_append]
      exact (told_skip (fun _ => rfl) rfl (by simp) _).trans (told_code later foundSemi)
    · simp only [Sql.lexFrom, Sql.step, if_neg newline, List.nil_append]
      exact ih later

/-- White space in quotes stays there. -/
theorem lexFrom_quoted_blanks {quote : Char} (visible : isWhitespace quote = false) {blanks : List Char}
    (all : ∀ c ∈ blanks, isWhitespace c = true) (body : List Char) :
    Sql.lexFrom isWhitespace (.quoted quote body) blanks = [.quoted quote (body ++ blanks)] := by
  induction blanks generalizing body with
  | nil => rw [List.append_nil]; rfl
  | cons c blanks ih =>
    have inside : c ≠ quote := by
      rintro rfl
      exact absurd (visible.symm.trans (all c List.mem_cons_self)) (by simp)
    have later := ih (fun d member => all d (List.mem_cons_of_mem c member)) (body ++ [c])
    simp only [Sql.lexFrom, Sql.step, if_neg inside, List.nil_append, later, List.append_assoc, List.singleton_append]

theorem told_single (foundSemi : Bool) (token : Sql.Token) : told foundSemi [token] = (foundSemi && telling token) := by
  simp [told]

/-- A quote is no white space. -/
def Visible : Sql.Mode → Prop
  | .quoted quote _ => isWhitespace quote = false
  | .ended quote _ => isWhitespace quote = false
  | _ => True

theorem visible_start (c : Char) : Visible (Sql.start isWhitespace c).2 := by
  unfold Sql.start
  split_ifs with quote hyphen semicolon blank
  · rcases quote with rfl | rfl
    · exact (by decide : isWhitespace '\'' = false)
    · exact (by decide : isWhitespace '"' = false)
  all_goals trivial

theorem visible_step {m : Sql.Mode} (visible : Visible m) (c : Char) : Visible (Sql.step isWhitespace m c).2 := by
  cases m with
  | code => exact visible_start c
  | hyphen =>
    rw [Sql.step]
    split_ifs
    · trivial
    · exact visible_start c
  | comment =>
    rw [Sql.step]
    split_ifs <;> trivial
  | quoted quote body =>
    rw [Sql.step]
    split_ifs <;> exact visible
  | ended quote body =>
    rw [Sql.step]
    split_ifs
    · exact visible
    · exact visible_start c

/-- White space at the end tells nothing. -/
theorem told_blanks {m : Sql.Mode} (visible : Visible m) {blanks : List Char} (all : ∀ c ∈ blanks, isWhitespace c = true)
    (foundSemi : Bool) :
    told foundSemi (Sql.lexFrom isWhitespace m blanks) = told foundSemi (Sql.finish m) := by
  cases blanks with
  | nil => rfl
  | cons c blanks =>
    have blank := start_blank (all c List.mem_cons_self)
    have later : ∀ d ∈ blanks, isWhitespace d = true := fun d member => all d (List.mem_cons_of_mem c member)
    cases m with
    | code => exact told_code all foundSemi
    | hyphen =>
      have other : c ≠ '-' := by
        rintro rfl
        exact absurd (all '-' List.mem_cons_self) (by decide)
      have split : Sql.lexFrom isWhitespace .hyphen (c :: blanks) =
          .symbol '-' :: .blank c :: Sql.lexFrom isWhitespace .code blanks := by
        simp only [Sql.lexFrom, Sql.step, if_neg other, blank]
        rfl
      rw [split, told_skip (fun _ => rfl) rfl (by simp), told_blank, told_code later]
      exact (told_skip (fun _ => rfl) rfl (by simp) []).symm
    | comment =>
      rw [told_comment all]
      exact (told_skip (fun _ => rfl) rfl (by simp) []).symm
    | quoted quote body =>
      rw [lexFrom_quoted_blanks visible all, Sql.finish, told_single, told_single, telling_blanks all]
    | ended quote body =>
      have other : c ≠ quote := by
        rintro rfl
        exact absurd (Eq.symm visible |>.trans (all c List.mem_cons_self)) (by simp)
      have split : Sql.lexFrom isWhitespace (.ended quote body) (c :: blanks) =
          [Sql.Token.quoted quote body] ++ Sql.Token.blank c :: Sql.lexFrom isWhitespace .code blanks := by
        simp only [Sql.lexFrom, Sql.step, if_neg other, blank]
        rfl
      have nothing : ∀ found, told found (.blank c :: Sql.lexFrom isWhitespace .code blanks) = told found [] :=
        fun found => (told_blank found _).trans (told_code later found)
      rw [split]
      exact told_append nothing foundSemi

theorem told_trailing {blanks : List Char} (all : ∀ c ∈ blanks, isWhitespace c = true) {m : Sql.Mode} (visible : Visible m)
    (text : List Char) (foundSemi : Bool) :
    told foundSemi (Sql.lexFrom isWhitespace m (text ++ blanks)) = told foundSemi (Sql.lexFrom isWhitespace m text) := by
  induction text generalizing m foundSemi with
  | nil => exact told_blanks visible all foundSemi
  | cons c text ih => exact told_append (ih (visible_step visible c)) foundSemi

/-- What is told of a text is told of it without the white space around it. -/
theorem told_trim (foundSemi : Bool) (text : List Char) :
    told foundSemi (Sql.lex isWhitespace (trim text)) = told foundSemi (Sql.lex isWhitespace text) := by
  have front : ∀ c ∈ text.takeWhile isWhitespace, isWhitespace c = true := fun c member => List.mem_takeWhile_imp member
  have back : ∀ c ∈ (text.dropWhile isWhitespace).rtakeWhile isWhitespace, isWhitespace c = true :=
    fun c member => List.mem_rtakeWhile_imp member
  have split : text.takeWhile isWhitespace ++ (trim text ++ (text.dropWhile isWhitespace).rtakeWhile isWhitespace) = text := by
    rw [trim, List.rdropWhile_append_rtakeWhile, List.takeWhile_append_dropWhile]
  have same : told foundSemi (Sql.lex isWhitespace (text.takeWhile isWhitespace ++
      (trim text ++ (text.dropWhile isWhitespace).rtakeWhile isWhitespace))) = told foundSemi (Sql.lex isWhitespace (trim text)) :=
    (told_code_blanks front foundSemi _).trans (@told_trailing _ back .code trivial (trim text) foundSemi)
  rw [← same, split]

/-- What `told` computes. -/
theorem told_iff {foundSemi : Bool} {tokens : List Sql.Token} :
    told foundSemi tokens = true ↔ ∃ before token after, tokens = before ++ token :: after ∧
      (foundSemi = true ∨ .semicolon ∈ before) ∧ telling token = true ∧ ∀ earlier ∈ before, misread earlier = false := by
  induction tokens generalizing foundSemi with
  | nil => simp [told]
  | cons first rest ih =>
    simp only [told, Bool.or_eq_true, Bool.and_eq_true, ih, Bool.not_eq_true', decide_eq_true_eq]
    constructor
    · rintro (⟨found, tells⟩ | ⟨read, before, token, after, rfl, found, tells, earlier⟩)
      · exact ⟨[], first, rest, rfl, .inl found, tells, by simp⟩
      · refine ⟨first :: before, token, after, rfl, ?_, tells, List.forall_mem_cons.mpr ⟨read, earlier⟩⟩
        rcases found with (found | same) | member
        · exact .inl found
        · exact .inr (same ▸ List.mem_cons_self)
        · exact .inr (List.mem_cons_of_mem _ member)
    · rintro ⟨before, token, after, split, found, tells, earlier⟩
      cases before with
      | nil =>
        obtain ⟨rfl, rfl⟩ := List.cons.inj split
        exact .inl ⟨found.resolve_right List.not_mem_nil, tells⟩
      | cons other before =>
        obtain ⟨rfl, rfl⟩ := List.cons.inj split
        refine .inr ⟨earlier _ List.mem_cons_self, before, token, after, rfl, ?_, tells, ?_⟩
        · rcases found with found | member
          · exact .inl (.inl found)
          · rcases List.mem_cons.mp member with same | later
            · exact .inl (.inr same.symm)
            · exact .inr later
        · exact fun t member => earlier t (List.mem_cons_of_mem _ member)

end Latchgate.Database
