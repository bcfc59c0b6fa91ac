import Latchgate.Machine.Dialogue

/-! A client of a database. A statement takes effect at once, or within the one
transaction that is open; what has taken effect stands in a log. -/

namespace Transaction
open Dialogue

inductive Command (Stmt : Type) where
  | fetchAll (stmt : Stmt)
  | execute (stmt : Stmt)
  | begin
  | executeIn (stmt : Stmt)
  | commit
  | rollback
  /-- The client lets go of the open transaction. -/
  | drop

variable {Stmt Row Count Failure α β σ κ : Type} {ρ : κ → Type}

abbrev Reply (Stmt Row Count Failure : Type) : Command Stmt → Type
  | .fetchAll _ => Except Failure (List Row)
  | .execute _ | .executeIn _ => Except Failure Count
  | .begin | .commit | .rollback => Except Failure Unit
  | .drop => Unit

/-- A statement with the number of rows that it changed. -/
abbrev Effect (Stmt Count : Type) := Stmt × Count

structure Store (Stmt Count : Type) where
  log : List (Effect Stmt Count)
  pending : Option (List (Effect Stmt Count))

/-- What a command leaves behind that got a reply. A failure can be a reply that
was lost, so that the statement or the transaction took effect all the same;
only a transaction that was not to be committed never does. -/
inductive Serves : Store Stmt Count → Event (Reply Stmt Row Count Failure) → Store Stmt Count → Prop
  | fetched {log pending stmt rows} (n : Count) :
      Serves ⟨log, pending⟩ ⟨.fetchAll stmt, .ok rows⟩ ⟨log ++ [(stmt, n)], pending⟩
  | fetchFailed {s stmt e} : Serves s ⟨.fetchAll stmt, .error e⟩ s
  | fetchLost {log pending stmt e} (n : Count) :
      Serves ⟨log, pending⟩ ⟨.fetchAll stmt, .error e⟩ ⟨log ++ [(stmt, n)], pending⟩
  | executed {log pending stmt n} : Serves ⟨log, pending⟩ ⟨.execute stmt, .ok n⟩ ⟨log ++ [(stmt, n)], pending⟩
  | executeFailed {s stmt e} : Serves s ⟨.execute stmt, .error e⟩ s
  | executeLost {log pending stmt e} (n : Count) :
      Serves ⟨log, pending⟩ ⟨.execute stmt, .error e⟩ ⟨log ++ [(stmt, n)], pending⟩
  | begun {log} : Serves ⟨log, none⟩ ⟨.begin, .ok ()⟩ ⟨log, some []⟩
  | beginFailed {s e} : Serves s ⟨.begin, .error e⟩ s
  | executedIn {log open_ stmt n} :
      Serves ⟨log, some open_⟩ ⟨.executeIn stmt, .ok n⟩ ⟨log, some (open_ ++ [(stmt, n)])⟩
  | executeInFailed {log open_ stmt e} (left : List (Effect Stmt Count)) :
      Serves ⟨log, some open_⟩ ⟨.executeIn stmt, .error e⟩ ⟨log, some left⟩
  | committed {log open_} : Serves ⟨log, some open_⟩ ⟨.commit, .ok ()⟩ ⟨log ++ open_, none⟩
  | commitFailed {log open_ e} : Serves ⟨log, some open_⟩ ⟨.commit, .error e⟩ ⟨log, none⟩
  | commitLost {log open_ e} : Serves ⟨log, some open_⟩ ⟨.commit, .error e⟩ ⟨log ++ open_, none⟩
  | rolledBack {log open_ reply} : Serves ⟨log, some open_⟩ ⟨.rollback, reply⟩ ⟨log, none⟩
  | dropped {log open_ reply} : Serves ⟨log, some open_⟩ ⟨.drop, reply⟩ ⟨log, none⟩

inductive Serving : Store Stmt Count → List (Event (Reply Stmt Row Count Failure)) → Store Stmt Count → Prop
  | nil (s : Store Stmt Count) : Serving s [] s
  | cons {s t u event events} : Serves s event t → Serving t events u → Serving s (event :: events) u

theorem serving_append {s u : Store Stmt Count} {events later : List (Event (Reply Stmt Row Count Failure))} :
    Serving s (events ++ later) u ↔ ∃ t, Serving s events t ∧ Serving t later u := by
  induction events generalizing s with
  | nil =>
    constructor
    · exact fun served => ⟨s, .nil s, served⟩
    · rintro ⟨t, none_, served⟩
      cases none_
      exact served
  | cons event events ih =>
    constructor
    · intro served
      cases served with
      | cons first rest =>
        obtain ⟨t, before, after⟩ := ih.mp rest
        exact ⟨t, .cons first before, after⟩
    · rintro ⟨t, before, after⟩
      cases before with
      | cons first rest => exact .cons first (ih.mpr ⟨t, rest, after⟩)

/-- Whatever the database replies to a client that has so much pending, what is
added to the log meets `post`, at every point; and a client that is done has no
transaction open. -/
def Adds (pending : Option (List (Effect Stmt Count))) (d : Dialogue (Command Stmt) (Reply Stmt Row Count Failure) α)
    (post : Option α → List (Effect Stmt Count) → Prop) : Prop :=
  ∀ log, Ensures d fun events result => ∀ t, Serving ⟨log, pending⟩ events t →
    ∃ added, t.log = log ++ added ∧ post result added ∧ (result.isSome → t.pending = none)

section Rules
variable {pending : Option (List (Effect Stmt Count))} {open_ : List (Effect Stmt Count)}
variable {post mid : Option α → List (Effect Stmt Count) → Prop} {stmt : Stmt}

theorem Adds.weaken {d : Dialogue (Command Stmt) (Reply Stmt Row Count Failure) α} (adds : Adds pending d mid)
    (weaker : ∀ result added, mid result added → post result added) : Adds pending d post := by
  intro log
  refine (adds log).weaken fun events result met t served => ?_
  obtain ⟨added, logged, met, closed⟩ := met t served
  exact ⟨added, logged, weaker _ _ met, closed⟩

theorem adds_done {a : α} (start : post none []) (stop : post (some a) []) :
    Adds none (.done a : Dialogue (Command Stmt) (Reply Stmt Row Count Failure) α) post := by
  intro log
  refine ensures_done ?_ ?_
  · intro t served
    cases served
    exact ⟨[], (List.append_nil log).symm, start, nofun⟩
  · intro t served
    cases served
    exact ⟨[], (List.append_nil log).symm, stop, fun _ => rfl⟩

theorem adds_ask {command : Command Stmt}
    {next : Reply Stmt Row Count Failure command → Dialogue (Command Stmt) (Reply Stmt Row Count Failure) α}
    (start : post none [])
    (continues : ∀ log reply t, Serves ⟨log, pending⟩ ⟨command, reply⟩ t →
      ∃ more, t.log = log ++ more ∧ Adds t.pending (next reply) fun result later => post result (more ++ later)) :
    Adds pending (.ask command next) post := by
  intro log
  refine ensures_ask ?_ ?_
  · intro t served
    cases served
    exact ⟨[], (List.append_nil log).symm, start, nofun⟩
  · intro reply events result play u served
    cases served with
    | @cons _ t _ _ _ first rest =>
      obtain ⟨more, logged, adds⟩ := continues log reply t first
      obtain ⟨later, grown, met, closed⟩ := adds t.log events result play u rest
      refine ⟨more ++ later, ?_, met, closed⟩
      rw [grown, logged, List.append_assoc]

theorem adds_fetchAll {next : Except Failure (List Row) → Dialogue (Command Stmt) (Reply Stmt Row Count Failure) α}
    (start : post none [])
    (fetched : ∀ rows n, Adds pending (next (.ok rows)) fun result later => post result ((stmt, n) :: later))
    (failed : ∀ e, Adds pending (next (.error e)) post)
    (lost : ∀ e n, Adds pending (next (.error e)) fun result later => post result ((stmt, n) :: later)) :
    Adds pending (.ask (.fetchAll stmt) next) post := by
  refine adds_ask start fun log reply t serves => ?_
  cases serves with
  | fetched n => exact ⟨[(stmt, n)], rfl, fetched _ n⟩
  | fetchFailed => exact ⟨[], (List.append_nil log).symm, failed _⟩
  | fetchLost n => exact ⟨[(stmt, n)], rfl, lost _ n⟩

theorem adds_execute {next : Except Failure Count → Dialogue (Command Stmt) (Reply Stmt Row Count Failure) α}
    (start : post none [])
    (executed : ∀ n, Adds pending (next (.ok n)) fun result later => post result ((stmt, n) :: later))
    (failed : ∀ e, Adds pending (next (.error e)) post)
    (lost : ∀ e n, Adds pending (next (.error e)) fun result later => post result ((stmt, n) :: later)) :
    Adds pending (.ask (.execute stmt) next) post := by
  refine adds_ask start fun log reply t serves => ?_
  cases serves with
  | executed => exact ⟨[(stmt, _)], rfl, executed _⟩
  | executeFailed => exact ⟨[], (List.append_nil log).symm, failed _⟩
  | executeLost n => exact ⟨[(stmt, n)], rfl, lost _ n⟩

theorem adds_begin {next : Except Failure Unit → Dialogue (Command Stmt) (Reply Stmt Row Count Failure) α}
    (start : post none []) (begun : Adds (some []) (next (.ok ())) post) (failed : ∀ e, Adds none (next (.error e)) post) :
    Adds none (.ask .begin next) post := by
  refine adds_ask start fun log reply t serves => ?_
  cases serves with
  | begun => exact ⟨[], (List.append_nil log).symm, begun⟩
  | beginFailed => exact ⟨[], (List.append_nil log).symm, failed _⟩

theorem adds_executeIn {next : Except Failure Count → Dialogue (Command Stmt) (Reply Stmt Row Count Failure) α}
    (start : post none []) (executed : ∀ n, Adds (some (open_ ++ [(stmt, n)])) (next (.ok n)) post)
    (failed : ∀ e left, Adds (some left) (next (.error e)) post) :
    Adds (some open_) (.ask (.executeIn stmt) next) post := by
  refine adds_ask start fun log reply t serves => ?_
  cases serves with
  | executedIn => exact ⟨[], (List.append_nil log).symm, executed _⟩
  | executeInFailed left => exact ⟨[], (List.append_nil log).symm, failed _ left⟩

theorem adds_commit {next : Except Failure Unit → Dialogue (Command Stmt) (Reply Stmt Row Count Failure) α}
    (start : post none []) (committed : Adds none (next (.ok ())) fun result later => post result (open_ ++ later))
    (failed : ∀ e, Adds none (next (.error e)) post)
    (lost : ∀ e, Adds none (next (.error e)) fun result later => post result (open_ ++ later)) :
    Adds (some open_) (.ask .commit next) post := by
  refine adds_ask start fun log reply t serves => ?_
  cases serves with
  | committed => exact ⟨open_, rfl, committed⟩
  | commitFailed => exact ⟨[], (List.append_nil log).symm, failed _⟩
  | commitLost => exact ⟨open_, rfl, lost _⟩

theorem adds_rollback {next : Except Failure Unit → Dialogue (Command Stmt) (Reply Stmt Row Count Failure) α}
    (start : post none []) (continues : ∀ reply, Adds none (next reply) post) :
    Adds (some open_) (.ask .rollback next) post := by
  refine adds_ask start fun log reply t serves => ?_
  cases serves with
  | rolledBack => exact ⟨[], (List.append_nil log).symm, continues _⟩

theorem adds_drop {next : Unit → Dialogue (Command Stmt) (Reply Stmt Row Count Failure) α}
    (start : post none []) (continues : Adds none (next ()) post) : Adds (some open_) (.ask .drop next) post := by
  refine adds_ask start fun log reply t serves => ?_
  cases serves with
  | dropped => exact ⟨[], (List.append_nil log).symm, continues⟩

theorem adds_bind {d : Dialogue (Command Stmt) (Reply Stmt Row Count Failure) α}
    {f : α → Dialogue (Command Stmt) (Reply Stmt Row Count Failure) β} {last : Option β → List (Effect Stmt Count) → Prop}
    (first : Adds pending d mid) (stopped : ∀ added, mid none added → last none added)
    (continues : ∀ a added, mid (some a) added → Adds none (f a) fun result later => last result (added ++ later)) :
    Adds pending (d.bind f) last := by
  intro log events result play t served
  rcases plays_bind.1 play with ⟨rfl, inner⟩ | ⟨before, after, a, rfl, inner, rest⟩
  · obtain ⟨added, logged, met, -⟩ := first log events none inner t served
    exact ⟨added, logged, stopped added met, nofun⟩
  · obtain ⟨⟨middle, left⟩, early, late⟩ := serving_append.1 served
    obtain ⟨added, logged, met, closed⟩ := first log before (some a) inner _ early
    obtain rfl : left = none := closed rfl
    obtain ⟨later, grown, met, closed⟩ := continues a added met middle after result rest t late
    have reached : middle = log ++ added := logged
    refine ⟨added ++ later, ?_, met, closed⟩
    rw [grown, reached, List.append_assoc]

/-- What every answer keeps, the whole program keeps. -/
theorem adds_handle {answer : (question : κ) → σ → Dialogue (Command Stmt) (Reply Stmt Row Count Failure) (ρ question × σ)}
    {invariant : σ → List (Effect Stmt Count) → Prop} {always : List (Effect Stmt Count) → Prop}
    (implies : ∀ s added, invariant s added → always added)
    (keeps : ∀ question s added, invariant s added → Adds none (answer question s) fun result later =>
      always (added ++ later) ∧ ∀ reply s', result = some (reply, s') → invariant s' (added ++ later))
    (d : Dialogue κ ρ α) (s : σ) (added : List (Effect Stmt Count)) (holds : invariant s added) :
    Adds none (d.handle answer s) fun result later =>
      always (added ++ later) ∧ ∀ a s', result = some (a, s') → invariant s' (added ++ later) := by
  induction d generalizing s added with
  | done a =>
    have always_ : always (added ++ []) := by simpa using implies s added holds
    refine adds_done ⟨always_, nofun⟩ ⟨always_, ?_⟩
    rintro b s' same
    cases same
    simpa using holds
  | ask question next ih =>
    refine adds_bind (keeps question s added holds) (fun later met => ⟨met.1, nofun⟩) ?_
    rintro ⟨reply, s'⟩ later ⟨-, kept⟩
    refine (ih reply s' (added ++ later) (kept reply s' rfl)).weaken fun result more met => ?_
    rwa [List.append_assoc] at met

end Rules
end Transaction
