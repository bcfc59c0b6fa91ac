import Mathlib.Data.List.Basic

/-- A program that puts questions to its surroundings and goes on with their
replies; each question has replies of its own type. -/
inductive Dialogue (κ : Type) (ρ : κ → Type) (α : Type) where
  | done (a : α)
  | ask (question : κ) (next : ρ question → Dialogue κ ρ α)

namespace Dialogue
variable {κ : Type} {ρ : κ → Type} {α β : Type}

/-- A question with the reply it got. -/
abbrev Event (ρ : κ → Type) := (question : κ) × ρ question

def bind : Dialogue κ ρ α → (α → Dialogue κ ρ β) → Dialogue κ ρ β
  | done a, f => f a
  | ask question next, f => ask question fun reply => bind (next reply) f

instance : Monad (Dialogue κ ρ) where
  pure := done
  bind := bind

/-- The question itself as a program. -/
def put (question : κ) : Dialogue κ ρ (ρ question) :=
  ask question done

/-- A program whose questions are answered by programs that put questions of
another kind, with a state between them. -/
def handle {κ' σ : Type} {ρ' : κ' → Type} (answer : (question : κ) → σ → Dialogue κ' ρ' (ρ question × σ)) :
    Dialogue κ ρ α → σ → Dialogue κ' ρ' (α × σ)
  | done a, s => done (a, s)
  | ask question next, s => (answer question s).bind fun reply => handle answer (next reply.1) reply.2

/-- What the surroundings see when they give some replies, whichever these
are: until the program is done, or up to some point of it. -/
inductive Plays : Dialogue κ ρ α → List (Event ρ) → Option α → Prop
  | done (a : α) : Plays (.done a) [] (some a)
  | cut (d : Dialogue κ ρ α) : Plays d [] none
  | reply {question : κ} {next : ρ question → Dialogue κ ρ α} {reply : ρ question} {events : List (Event ρ)}
      {result : Option α} : Plays (next reply) events result →
      Plays (.ask question next) (⟨question, reply⟩ :: events) result

/-- What one step of a program shows first. -/
theorem plays_bind {d : Dialogue κ ρ α} {f : α → Dialogue κ ρ β} {events : List (Event ρ)} {result : Option β} :
    Plays (d.bind f) events result ↔ (result = none ∧ Plays d events none) ∨
      ∃ before after a, events = before ++ after ∧ Plays d before (some a) ∧ Plays (f a) after result := by
  induction d generalizing events with
  | done a =>
    constructor
    · intro play
      exact .inr ⟨[], events, a, rfl, .done a, play⟩
    · rintro (⟨rfl, play⟩ | ⟨before, after, b, rfl, first, play⟩)
      · cases play
        exact .cut _
      · cases first
        exact play
  | ask question next ih =>
    constructor
    · intro play
      cases play with
      | cut => exact .inl ⟨rfl, .cut _⟩
      | reply later =>
        rcases (ih _).mp later with ⟨stopped, inner⟩ | ⟨before, after, a, rfl, first, second⟩
        · exact .inl ⟨stopped, .reply inner⟩
        · exact .inr ⟨_ :: before, after, a, rfl, .reply first, second⟩
    · rintro (⟨rfl, play⟩ | ⟨before, after, b, rfl, first, play⟩)
      · cases play with
        | cut => exact .cut _
        | reply later => exact .reply ((ih _).mpr (.inl ⟨rfl, later⟩))
      · cases first with
        | reply later => exact .reply ((ih _).mpr (.inr ⟨_, after, b, rfl, later, play⟩))

/-- What was seen of a program is also seen of it before it goes on. -/
theorem Plays.cut_short {d : Dialogue κ ρ α} {events : List (Event ρ)} {result : Option α}
    (play : Plays d events result) : Plays d events none := by
  induction play with
  | done => exact .cut _
  | cut => exact .cut _
  | reply _ ih => exact .reply ih

/-- Whatever the replies are, what is seen of the program meets `post`, at
every point of it. -/
def Ensures (d : Dialogue κ ρ α) (post : List (Event ρ) → Option α → Prop) : Prop :=
  ∀ events result, Plays d events result → post events result

section Rules
variable {post mid : List (Event ρ) → Option α → Prop}

theorem Ensures.weaken {d : Dialogue κ ρ α} (ensures : Ensures d mid)
    (weaker : ∀ events result, mid events result → post events result) : Ensures d post :=
  fun events result play => weaker events result (ensures events result play)

theorem Ensures.cut_short {d : Dialogue κ ρ α} (ensures : Ensures d post) :
    Ensures d fun events result => post events result ∧ post events none :=
  fun events result play => ⟨ensures events result play, ensures events none play.cut_short⟩

theorem ensures_done {a : α} (start : post [] none) (stop : post [] (some a)) :
    Ensures (.done a : Dialogue κ ρ α) post := by
  intro events result play
  cases play with
  | done => exact stop
  | cut => exact start

theorem ensures_ask {question : κ} {next : ρ question → Dialogue κ ρ α} (start : post [] none)
    (continues : ∀ reply, Ensures (next reply) fun events => post (⟨question, reply⟩ :: events)) :
    Ensures (.ask question next) post := by
  intro events result play
  cases play with
  | cut => exact start
  | reply later => exact continues _ _ _ later

/-- One program after the other. -/
theorem ensures_bind {d : Dialogue κ ρ α} {f : α → Dialogue κ ρ β} {last : List (Event ρ) → Option β → Prop}
    (first : Ensures d mid) (stopped : ∀ events, mid events none → last events none)
    (continues : ∀ events a, mid events (some a) → Ensures (f a) fun later => last (events ++ later)) :
    Ensures (d.bind f) last := by
  intro events result play
  rcases plays_bind.1 play with ⟨rfl, inner⟩ | ⟨before, after, a, rfl, inner, rest⟩
  · exact stopped events (first events none inner)
  · exact continues before a (first before (some a) inner) after result rest

end Rules
end Dialogue
