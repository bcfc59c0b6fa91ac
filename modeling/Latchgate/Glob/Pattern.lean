import Mathlib.Data.List.DropRight

/-! Glob patterns over paths whose wildcards do not cross a separator. -/

namespace Glob

/-- What a double star stands for, by where it is found. -/
inductive Recursive where
  | leading
  | trailing
  | between
  | alone

def Recursive.Matches : Recursive → List Char → Prop
  | .leading, text => text = [] ∨ ∃ front, text = front ++ ['/']
  | .trailing, text => ∃ rest, text = '/' :: rest
  | .between, text => text = ['/'] ∨ ∃ middle, text = '/' :: (middle ++ ['/'])
  | .alone, _ => True

inductive Token where
  | literal (c : Char)
  | any
  | zeroOrMore
  | recursive (form : Recursive)
  | charClass (accepts : Char → Bool)
  | alternates (branches : List (List Token))

mutual

/-- The texts that one token stands for. -/
def Token.Matches : Token → List Char → Prop
  | .literal c, text => text = [c]
  | .any, text => ∃ c, c ≠ '/' ∧ text = [c]
  | .zeroOrMore, text => '/' ∉ text
  | .recursive form, text => form.Matches text
  | .charClass accepts, text => ∃ c, accepts c = true ∧ text = [c]
  | .alternates branches, text => MatchesAny branches text

def MatchesAll : List Token → List Char → Prop
  | [], text => text = []
  | token :: tokens, text => ∃ front rest, text = front ++ rest ∧ token.Matches front ∧ MatchesAll tokens rest

def MatchesAny : List (List Token) → List Char → Prop
  | [], _ => False
  | branch :: branches, text => MatchesAll branch text ∨ MatchesAny branches text

end

def metacharacters : List Char :=
  ['*', '?', '[', '{', '}', '\\']

/-- A pattern that is no more than a text. -/
def Plain (pattern : List Char) : Prop :=
  ∀ c ∈ pattern, c ∉ metacharacters

instance (pattern : List Char) : Decidable (Plain pattern) :=
  List.decidableBAll _ pattern

mutual

/-- The documented forms. A bracket expression stands for one character; which
ones its text accepts is left open, and so is how stars and separators around
`**` are taken together. -/
inductive Reads : List Char → List Token → Prop
  | nil : Reads [] []
  | literal {pattern tokens} (c : Char) : c ∉ metacharacters → Reads pattern tokens →
      Reads (c :: pattern) (.literal c :: tokens)
  | escaped {pattern tokens} (c : Char) : Reads pattern tokens → Reads ('\\' :: c :: pattern) (.literal c :: tokens)
  | any {pattern tokens} : Reads pattern tokens → Reads ('?' :: pattern) (.any :: tokens)
  | zeroOrMore {pattern tokens} : Reads pattern tokens → Reads ('*' :: pattern) (.zeroOrMore :: tokens)
  | recursive {pattern tokens} (stars : List Char) (form : Recursive) : ['*', '*'] <:+: stars →
      (∀ c ∈ stars, c ∈ ['*', '/', '\\']) → Reads pattern tokens → Reads (stars ++ pattern) (.recursive form :: tokens)
  | charClass {pattern tokens} (body : List Char) (accepts : Char → Bool) : body ≠ [] → Reads pattern tokens →
      Reads ('[' :: (body ++ ']' :: pattern)) (.charClass accepts :: tokens)
  | alternates {body branches pattern tokens} : ReadsBranches body branches → Reads pattern tokens →
      Reads ('{' :: (body ++ '}' :: pattern)) (.alternates branches :: tokens)

/-- Branches between commas. One without text may be left out. -/
inductive ReadsBranches : List Char → List (List Token) → Prop
  | last {body tokens} : Reads body tokens → ReadsBranches body [tokens]
  | next {body tokens rest branches} : Reads body tokens → ReadsBranches rest branches →
      ReadsBranches (body ++ ',' :: rest) (tokens :: branches)
  | emptyFirst {rest branches} (empty : List Char) : (∀ c ∈ empty, c ∈ ['{', '}', ',']) → ReadsBranches rest branches →
      ReadsBranches (empty ++ ',' :: rest) branches
  | emptyLast {body branches} (empty : List Char) : (∀ c ∈ empty, c ∈ ['{', '}', ',']) → ReadsBranches body branches →
      ReadsBranches (body ++ ',' :: empty) branches

end

/-- Another text has the property too. -/
def Loose (matched : List Char → Prop) (text : List Char) : Prop :=
  ∃ other, other ≠ text ∧ matched other

/-! Plain patterns. -/

theorem not_plain_append {front pattern : List Char} {c : Char} (member : c ∈ front) (special : c ∈ metacharacters) :
    ¬Plain (front ++ pattern) :=
  fun plain => plain c (List.mem_append_left pattern member) special

theorem not_plain_head {c : Char} {pattern : List Char} (special : c ∈ metacharacters) : ¬Plain (c :: pattern) :=
  fun plain => plain c List.mem_cons_self special

theorem Reads.literals {pattern : List Char} {tokens : List Token} : Reads pattern tokens → Plain pattern →
    tokens = pattern.map .literal
  | .nil, _ => rfl
  | .literal c _ rest, plain => by
    rw [rest.literals fun d member => plain d (List.mem_cons_of_mem c member), List.map_cons]
  | .escaped _ _, plain => absurd plain (not_plain_head (by decide))
  | .any _, plain => absurd plain (not_plain_head (by decide))
  | .zeroOrMore _, plain => absurd plain (not_plain_head (by decide))
  | .recursive _ _ double _ _, plain => absurd plain (not_plain_append (double.mem List.mem_cons_self) (by decide))
  | .charClass _ _ _ _, plain => absurd plain (not_plain_head (by decide))
  | .alternates _ _, plain => absurd plain (not_plain_head (by decide))

theorem Reads.literal_front {front : List Char} (plain : Plain front) {pattern : List Char} {tokens : List Token}
    (reads : Reads pattern tokens) : Reads (front ++ pattern) (front.map .literal ++ tokens) := by
  induction front with
  | nil => exact reads
  | cons c front ih => exact .literal c (plain c List.mem_cons_self) (ih fun d member => plain d (List.mem_cons_of_mem c member))

theorem matchesAll_literal_front (front : List Char) (tokens : List Token) (text : List Char) :
    MatchesAll (front.map .literal ++ tokens) text ↔ ∃ rest, text = front ++ rest ∧ MatchesAll tokens rest := by
  induction front generalizing text with
  | nil => simp only [List.map_nil, List.nil_append, exists_eq_left']
  | cons c front ih =>
    simp only [List.map_cons, List.cons_append, MatchesAll, Token.Matches, ih]
    constructor
    · rintro ⟨_, _, rfl, rfl, rest, rfl, matched⟩
      exact ⟨rest, rfl, matched⟩
    · rintro ⟨rest, rfl, matched⟩
      exact ⟨[c], front ++ rest, rfl, rfl, rest, rfl, matched⟩

theorem matchesAll_literals (pattern text : List Char) : MatchesAll (pattern.map .literal) text ↔ text = pattern := by
  have front := matchesAll_literal_front pattern [] text
  simpa only [List.append_nil, MatchesAll, exists_eq_right] using front

/-! The text before the first metacharacter. -/

/-- What stands before the first metacharacter, without separators at its end. -/
def literalFront (pattern : List Char) : List Char :=
  (pattern.takeWhile fun c => c ∉ metacharacters).rdropWhile (· = '/')

theorem rdropWhile_cons {α : Type} (drops : α → Bool) (a : α) (items : List α) :
    (a :: items).rdropWhile drops <+: a :: items.rdropWhile drops := by
  induction items using List.reverseRecOn with
  | nil =>
    rw [List.rdropWhile_nil]
    exact List.rdropWhile_prefix drops _
  | append_singleton items b ih =>
    rw [← List.cons_append]
    by_cases dropped : drops b = true
    · rw [List.rdropWhile_concat_pos _ _ _ dropped, List.rdropWhile_concat_pos _ _ _ dropped]
      exact ih
    · rw [List.rdropWhile_concat_neg _ _ _ dropped, List.rdropWhile_concat_neg _ _ _ dropped]
      exact List.prefix_rfl

theorem literalFront_cons {c : Char} (ordinary : c ∉ metacharacters) (pattern : List Char) :
    literalFront (c :: pattern) <+: c :: literalFront pattern := by
  unfold literalFront
  rw [List.takeWhile_cons_of_pos (by simpa using ordinary)]
  exact rdropWhile_cons _ c _

theorem literalFront_special {c : Char} (special : c ∈ metacharacters) (pattern : List Char) :
    literalFront (c :: pattern) = [] := by
  rw [literalFront, List.takeWhile_cons_of_neg (by simpa using special), List.rdropWhile_nil]

theorem literalFront_stars {stars : List Char} (star : '*' ∈ stars) (only : ∀ c ∈ stars, c ∈ ['*', '/', '\\'])
    (pattern : List Char) : literalFront (stars ++ pattern) = [] := by
  unfold literalFront
  rw [List.rdropWhile_eq_nil_iff]
  induction stars with
  | nil => cases star
  | cons c stars ih =>
    intro d member
    rw [List.cons_append, List.takeWhile_cons] at member
    split at member
    · rename_i ordinary
      have slash : c = '/' := by
        rcases only c List.mem_cons_self with _ | ⟨_, _ | ⟨_, _ | ⟨_, ⟨⟩⟩⟩⟩
        · exact absurd ordinary (by decide)
        · rfl
        · exact absurd ordinary (by decide)
      rcases List.mem_cons.mp member with rfl | later
      · exact decide_eq_true slash
      · refine ih ?_ (fun e inside => only e (List.mem_cons_of_mem c inside)) d later
        rcases List.mem_cons.mp star with first | rest
        · exact absurd (first.trans slash) (by decide)
        · exact rest
    · cases member

theorem begins_literalFront (pattern : List Char) : literalFront pattern <+: pattern :=
  (List.rdropWhile_prefix _ _).trans (List.takeWhile_prefix _)

/-- A text begins with the literal front of the pattern that it matches. -/
theorem Reads.begins {pattern : List Char} {tokens : List Token} :
    Reads pattern tokens → ∀ {text}, MatchesAll tokens text → literalFront pattern <+: text
  | .nil, _, _ => List.nil_prefix
  | .literal c ordinary later, _, matched => by
    rw [MatchesAll] at matched
    obtain ⟨front, rest, rfl, first, second⟩ := matched
    rw [Token.Matches] at first
    subst first
    exact (literalFront_cons ordinary _).trans ((List.prefix_cons_inj c).mpr (later.begins second))
  | .escaped _ _, _, _ => by
    rw [literalFront_special (by decide)]
    exact List.nil_prefix
  | .any _, _, _ => by
    rw [literalFront_special (by decide)]
    exact List.nil_prefix
  | .zeroOrMore _, _, _ => by
    rw [literalFront_special (by decide)]
    exact List.nil_prefix
  | .recursive stars _ double only _, _, _ => by
    rw [literalFront_stars (double.mem List.mem_cons_self) only]
    exact List.nil_prefix
  | .charClass _ _ _ _, _, _ => by
    rw [literalFront_special (by decide)]
    exact List.nil_prefix
  | .alternates _ _, _, _ => by
    rw [literalFront_special (by decide)]
    exact List.nil_prefix

/-! What a match costs. `counts` are characters that are counted, all with a
meaning in patterns among them. -/

section Counting
variable {counts : Char → Bool}

/-- A match that is not loose has no more counted characters than the pattern,
and less where the pattern is not plain. -/
def Costs (counts : Char → Bool) (pattern text : List Char) : Prop :=
  text.countP counts ≤ pattern.countP counts ∧ (¬Plain pattern → text.countP counts < pattern.countP counts)

theorem loose_cons {token : Token} {tokens : List Token} {front rest : List Char} (first : token.Matches front)
    (loose : Loose (MatchesAll tokens) rest) : Loose (MatchesAll (token :: tokens)) (front ++ rest) := by
  obtain ⟨other, different, matched⟩ := loose
  exact ⟨front ++ other, fun same => different (List.append_cancel_left same), front, other, rfl, first, matched⟩

theorem loose_append {token : Token} {tokens : List Token} {front rest : List Char} (loose : Loose token.Matches front)
    (second : MatchesAll tokens rest) : Loose (MatchesAll (token :: tokens)) (front ++ rest) := by
  obtain ⟨other, different, matched⟩ := loose
  exact ⟨other ++ rest, fun same => different (List.append_cancel_right same), other, rest, rfl, matched, second⟩

theorem loose_any {text : List Char} (matched : Token.any.Matches text) : Loose Token.any.Matches text := by
  rw [Token.Matches] at matched
  obtain ⟨c, -, rfl⟩ := matched
  by_cases same : c = 'a'
  · refine ⟨['b'], ?_, ?_⟩
    · rw [same]
      decide
    · rw [Token.Matches]
      exact ⟨'b', by decide, rfl⟩
  · refine ⟨['a'], ?_, ?_⟩
    · simpa using Ne.symm same
    · rw [Token.Matches]
      exact ⟨'a', by decide, rfl⟩

theorem loose_of_longer {matched : List Char → Prop} {text other : List Char} (longer : text.length < other.length)
    (holds : matched other) : Loose matched text :=
  ⟨other, fun same => by rw [same] at longer; exact Nat.lt_irrefl _ longer, holds⟩

theorem loose_zeroOrMore {text : List Char} (matched : Token.zeroOrMore.Matches text) : Loose Token.zeroOrMore.Matches text := by
  rw [Token.Matches] at matched
  refine @loose_of_longer _ text ('a' :: text) (Nat.lt_succ_self _) ?_
  rw [Token.Matches, List.mem_cons, not_or]
  exact ⟨by decide, matched⟩

theorem loose_recursive (form : Recursive) (text : List Char) : Loose (Token.recursive form).Matches text := by
  refine @loose_of_longer _ text ('/' :: (text ++ ['/'])) (by rw [List.length_cons, List.length_append]; omega) ?_
  rw [Token.Matches]
  cases form with
  | leading => exact .inr ⟨'/' :: text, rfl⟩
  | trailing => exact ⟨text ++ ['/'], rfl⟩
  | between => exact .inr ⟨text, rfl⟩
  | alone => trivial

theorem not_plain_cons {c : Char} {pattern : List Char} (ordinary : c ∉ metacharacters) (unplain : ¬Plain (c :: pattern)) :
    ¬Plain pattern := by
  intro plain
  refine unplain fun d member => ?_
  rcases List.mem_cons.mp member with rfl | later
  · exact ordinary
  · exact plain d later

/-- A token over a pattern that costs more than what it stands for. -/
theorem costs_append {head pattern front rest : List Char} (dear : front.countP counts < head.countP counts)
    (costs : Costs counts pattern rest) : Costs counts (head ++ pattern) (front ++ rest) := by
  obtain ⟨most, -⟩ := costs
  unfold Costs
  rw [List.countP_append, List.countP_append]
  exact ⟨by omega, fun _ => by omega⟩

mutual

theorem Reads.loose_or_costs (all : ∀ c ∈ ']' :: metacharacters, counts c = true) {pattern : List Char}
    {tokens : List Token} : Reads pattern tokens → ∀ text,
    MatchesAll tokens text → Loose (MatchesAll tokens) text ∨ Costs counts pattern text
  | .nil, text, matched => by
    rw [MatchesAll] at matched
    subst matched
    exact .inr ⟨Nat.le_refl _, fun unplain => absurd (fun c member => absurd member List.not_mem_nil) unplain⟩
  | .literal c ordinary later, text, matched => by
    rw [MatchesAll] at matched
    obtain ⟨front, rest, rfl, first, second⟩ := matched
    refine (later.loose_or_costs all rest second).imp (loose_cons first) fun costs => ?_
    rw [Token.Matches] at first
    subst first
    obtain ⟨most, less⟩ := costs
    refine ⟨?_, fun unplain => ?_⟩
    · rw [List.singleton_append, List.countP_cons, List.countP_cons]
      omega
    · have fewer := less (not_plain_cons ordinary unplain)
      rw [List.singleton_append, List.countP_cons, List.countP_cons]
      omega
  | .escaped c later, text, matched => by
    rw [MatchesAll] at matched
    obtain ⟨front, rest, rfl, first, second⟩ := matched
    refine (later.loose_or_costs all rest second).imp (loose_cons first) fun costs => ?_
    rw [Token.Matches] at first
    subst first
    have counted := all '\\' (by decide)
    refine @costs_append _ ['\\', c] _ _ _ ?_ costs
    simp only [List.countP_cons, counted, List.countP_nil]
    split_ifs <;> omega
  | .any later, text, matched => by
    rw [MatchesAll] at matched
    obtain ⟨front, rest, rfl, first, second⟩ := matched
    exact .inl (loose_append (loose_any first) second)
  | .zeroOrMore later, text, matched => by
    rw [MatchesAll] at matched
    obtain ⟨front, rest, rfl, first, second⟩ := matched
    exact .inl (loose_append (loose_zeroOrMore first) second)
  | .recursive _ form _ _ later, text, matched => by
    rw [MatchesAll] at matched
    obtain ⟨front, rest, rfl, first, second⟩ := matched
    exact .inl (loose_append (loose_recursive form front) second)
  | @Reads.charClass pattern tokens body accepts some_ later, text, matched => by
    rw [MatchesAll] at matched
    obtain ⟨front, rest, rfl, first, second⟩ := matched
    refine (later.loose_or_costs all rest second).imp (loose_cons first) fun costs => ?_
    rw [Token.Matches] at first
    obtain ⟨c, -, rfl⟩ := first
    have opening := all '[' (by decide)
    have closing := all ']' (by decide)
    have split : '[' :: (body ++ ']' :: pattern) = ('[' :: (body ++ [']'])) ++ pattern := by simp
    rw [split]
    refine costs_append ?_ costs
    simp only [List.countP_cons, List.countP_append, opening, closing, List.countP_nil]
    split_ifs <;> omega
  | @Reads.alternates body branches pattern tokens inside later, text, matched => by
    rw [MatchesAll] at matched
    obtain ⟨front, rest, rfl, first, second⟩ := matched
    rcases later.loose_or_costs all rest second with loose | costs
    · exact .inl (loose_cons first loose)
    · have branch := first
      rw [Token.Matches] at branch
      rcases inside.loose_or_costs all front branch with loose | most
      · refine .inl (loose_append ?_ second)
        obtain ⟨other, different, matched⟩ := loose
        exact ⟨other, different, by rw [Token.Matches]; exact matched⟩
      · have opening := all '{' (by decide)
        have split : '{' :: (body ++ '}' :: pattern) = ('{' :: (body ++ ['}'])) ++ pattern := by simp
        rw [split]
        refine .inr (costs_append ?_ costs)
        simp only [List.countP_cons, List.countP_append, opening, List.countP_nil]
        split_ifs <;> omega

theorem ReadsBranches.loose_or_costs (all : ∀ c ∈ ']' :: metacharacters, counts c = true) {body : List Char}
    {branches : List (List Token)} : ReadsBranches body branches → ∀ text,
    MatchesAny branches text → Loose (MatchesAny branches) text ∨ text.countP counts ≤ body.countP counts
  | .last only, text, matched => by
    rw [MatchesAny, MatchesAny, or_false] at matched
    refine (only.loose_or_costs all text matched).imp ?_ fun costs => costs.1
    rintro ⟨other, different, holds⟩
    exact ⟨other, different, by rw [MatchesAny]; exact .inl holds⟩
  | @ReadsBranches.next body tokens rest branches one more, text, matched => by
    rw [MatchesAny] at matched
    rw [List.countP_append, List.countP_cons]
    rcases matched with first | later
    · refine (one.loose_or_costs all text first).imp ?_ fun costs => Nat.le_trans costs.1 (by omega)
      rintro ⟨other, different, holds⟩
      exact ⟨other, different, by rw [MatchesAny]; exact .inl holds⟩
    · refine (more.loose_or_costs all text later).imp ?_ fun most => Nat.le_trans most (by omega)
      rintro ⟨other, different, holds⟩
      exact ⟨other, different, by rw [MatchesAny]; exact .inr holds⟩
  | .emptyFirst empty _ more, text, matched => by
    rw [List.countP_append, List.countP_cons]
    exact (more.loose_or_costs all text matched).imp_right fun most => Nat.le_trans most (by omega)
  | .emptyLast empty _ more, text, matched => by
    rw [List.countP_append]
    exact (more.loose_or_costs all text matched).imp_right fun most => Nat.le_trans most (by omega)

end

/-- A pattern that matches one text only, with no fewer counted characters, is
plain and is that text. -/
theorem plain_of_only (all : ∀ c ∈ ']' :: metacharacters, counts c = true) {pattern text : List Char} {tokens : List Token}
    (reads : Reads pattern tokens) (only : ∀ other, MatchesAll tokens other ↔ other = text)
    (enough : pattern.countP counts ≤ text.countP counts) : Plain pattern ∧ text = pattern := by
  have plain : Plain pattern := by
    by_contra unplain
    rcases reads.loose_or_costs all text ((only text).mpr rfl) with ⟨other, different, matched⟩ | costs
    · exact different ((only other).mp matched)
    · exact absurd (costs.2 unplain) (Nat.not_lt.mpr enough)
  refine ⟨plain, ?_⟩
  have own := (only pattern).mp (by rw [reads.literals plain, matchesAll_literals])
  exact own.symm

end Counting

end Glob
