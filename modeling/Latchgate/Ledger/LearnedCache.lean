import Latchgate.Ledger.LearnedAllowlist
import Latchgate.Machine.Actor

namespace Latchgate
open LearnedTable

inductive LearnedCall where
  | getCached (actionId : String)
  | insertEntry (addedAt : String) (params : InsertParams)
  | deleteEntry (actionId value : String)
  | clearForAction (actionId : String)

inductive LearnedAnswer where
  | waits
  | values (values : List String)
  | inserted (result : Except LedgerError Bool)
  | deleted (result : Bool)
  | cleared (count : Nat)
  deriving DecidableEq

/-- A table and its cache. Of the past we keep what the table was before each
change, oldest first, and which of the changes is the last whose call has
returned. -/
structure LearnedStore where
  rows : List EntryRow
  cache : Option LearnedSnapshot := none
  earlier : List (List EntryRow) := []
  completed : Nat := 0

/-- Where a thread is. A reader remembers how often the table had changed when
it was called, and the last change that had returned by then. -/
inductive LearnedThread where
  | idle
  | missed (actionId : String) (called completed : Nat)
  | populated (actionId : String) (called completed : Nat) (queried : Bool)
  | committed (answer : LearnedAnswer) (version : Nat)

/-- Ten seconds. Instants are in nanoseconds. -/
def cacheTtl : Nat := 10 * 10 ^ 9

namespace LearnedStore
variable (s : LearnedStore)

def version : Nat :=
  s.earlier.length

/-- What the table was when it had changed `t` times. -/
def contents (t : Nat) : Option (List EntryRow) :=
  (s.earlier ++ [s.rows])[t]?

def commit (rows : List EntryRow) : LearnedStore :=
  { s with rows, earlier := s.earlier ++ [s.rows] }

def fresh (now : Nat) : Option LearnedSnapshot :=
  s.cache.filter fun snapshot => now - snapshot.createdAt < cacheTtl

/-- A change is committed under the lock of the writer and invalidates the
cache after that. A call that changes nothing returns at once. -/
def change (changed : Bool) (rows : List EntryRow) (answer : LearnedAnswer) :
    LearnedStore × LearnedThread × LearnedAnswer :=
  if changed then (s.commit rows, .committed answer (s.version + 1), .waits) else (s, .idle, answer)

def begin (call : LearnedCall) (now : Nat) : LearnedStore × LearnedThread × LearnedAnswer :=
  match call with
  | .getCached actionId => match s.fresh now with
    | some snapshot => (s, .idle, .values (snapshot.get actionId))
    | none => (s, .missed actionId s.version s.completed, .waits)
  | .insertEntry addedAt params =>
    let (result, rows) := LearnedTable.insertEntry addedAt params s.rows
    s.change (result.toOption = some true) rows (.inserted result)
  | .deleteEntry actionId value =>
    let (deleted, rows) := LearnedTable.deleteEntry actionId value s.rows
    s.change deleted rows (.deleted deleted)
  | .clearForAction actionId =>
    let (count, rows) := LearnedTable.clearForAction actionId s.rows
    s.change (0 < count) rows (.cleared count)

/-- One locked step of a thread: the first read of the cache or a commit, then
`populate_cache` or the invalidation, then the last read of the cache. -/
def threads : Actor LearnedStore LearnedThread (LearnedCall × Nat) LearnedAnswer where
  act s thread input :=
    let (call, now) := input
    match thread with
    | .idle => s.begin call now
    | .missed actionId called completed => match s.fresh now with
      | some _ => (s, .populated actionId called completed false, .waits)
      | none => ({ s with cache := some (.ofRows s.rows now) }, .populated actionId called completed true, .waits)
    | .populated actionId _ _ _ => (s, .idle, .values ((s.cache.map fun snapshot => snapshot.get actionId).getD []))
    | .committed answer version => ({ s with cache := none, completed := max s.completed version }, .idle, answer)

def start (rows : List EntryRow) : LearnedStore × (Nat → LearnedThread) :=
  ({ rows }, fun _ => .idle)

/-- When a reader comes back to the cache it has not been invalidated, or there
is nothing for its action. -/
def StillCached (s : LearnedStore × (Nat → LearnedThread)) (e : Nat × (LearnedCall × Nat)) : Prop :=
  match s.2 e.1 with
  | .populated actionId _ _ _ => s.1.cache ≠ none ∨ getValuesForAction actionId s.1.rows = []
  | _ => True

/-- What the table had for an action at some instant since it had changed
`since` times. -/
def HeldSince (since : Nat) (actionId : String) (values : List String) : Prop :=
  ∃ t rows, since ≤ t ∧ s.contents t = some rows ∧ values = getValuesForAction actionId rows

/-- A reader that has read the table answers for an instant since its call, and
one that is served from the cache for an instant since the last change that had
returned before its call. -/
def since : LearnedThread → Nat
  | .idle => s.completed
  | .missed _ _ completed => completed
  | .populated _ called completed queried => if queried then called else completed
  | .committed _ _ => s.completed

def readsFor (call : LearnedCall) : LearnedThread → Option String
  | .idle => match call with
    | .getCached actionId => some actionId
    | _ => none
  | .missed actionId _ _ => some actionId
  | .populated actionId _ _ _ => some actionId
  | .committed _ _ => none

/-! What a step keeps. -/

variable {s}

theorem contents_lt {t : Nat} {rows : List EntryRow} (was : s.contents t = some rows) : t ≤ s.version := by
  obtain ⟨inside, -⟩ := List.getElem?_eq_some_iff.mp was
  simp only [List.length_append, List.length_singleton] at inside
  exact Nat.lt_succ_iff.mp inside

theorem contents_version : s.contents s.version = some s.rows := by
  simp [contents, version]

theorem contents_commit {t : Nat} {rows : List EntryRow} (was : s.contents t = some rows) (next : List EntryRow) :
    (s.commit next).contents t = some rows := by
  rw [contents, commit]
  rw [List.getElem?_append_left]
  · exact was
  · have inside := contents_lt was
    simp only [List.length_append, List.length_singleton]
    exact Nat.lt_succ_of_le inside

/-- A snapshot is of an instant since the table had changed `since` times. -/
def Reflects (s : LearnedStore) (since : Nat) (snapshot : LearnedSnapshot) : Prop :=
  ∃ t rows, since ≤ t ∧ s.contents t = some rows ∧ ∀ actionId, snapshot.get actionId = getValuesForAction actionId rows

theorem Reflects.heldSince {since : Nat} {snapshot : LearnedSnapshot} (reflects : s.Reflects since snapshot)
    (actionId : String) : s.HeldSince since actionId (snapshot.get actionId) := by
  obtain ⟨t, rows, after, was, same⟩ := reflects
  exact ⟨t, rows, after, was, same actionId⟩

theorem Reflects.mono {since since' : Nat} {snapshot : LearnedSnapshot} (reflects : s.Reflects since snapshot)
    (earlier : since' ≤ since) : s.Reflects since' snapshot := by
  obtain ⟨t, rows, after, was, same⟩ := reflects
  exact ⟨t, rows, earlier.trans after, was, same⟩

theorem reflects_ofRows {since : Nat} (before : since ≤ s.version) (now : Nat) : s.Reflects since (.ofRows s.rows now) :=
  ⟨s.version, s.rows, before, contents_version, LearnedSnapshot.get_ofRows s.rows now⟩

/-- What a step can do to the table and the cache. -/
structure Extends (s s' : LearnedStore) : Prop where
  version : s.version ≤ s'.version
  completed : s.completed ≤ s'.completed
  contents : ∀ t rows, s.contents t = some rows → s'.contents t = some rows
  cache : s'.cache = none ∨ (s'.cache = s.cache ∧ s'.completed = s.completed) ∨
    ∃ now, s'.cache = some (.ofRows s'.rows now)

theorem Extends.refl (s : LearnedStore) : s.Extends s :=
  ⟨Nat.le_refl _, Nat.le_refl _, fun _ _ was => was, .inr (.inl ⟨rfl, rfl⟩)⟩

theorem Extends.commit (s : LearnedStore) (next : List EntryRow) : s.Extends (s.commit next) := by
  refine ⟨?_, Nat.le_refl _, fun _ _ was => contents_commit was next, .inr (.inl ⟨rfl, rfl⟩)⟩
  simp [LearnedStore.version, LearnedStore.commit]

/-- The cache misses no change that has returned. -/
structure Sound (s : LearnedStore) : Prop where
  completed : s.completed ≤ s.version
  cached : ∀ snapshot, s.cache = some snapshot → s.Reflects s.completed snapshot

/-- What a reader will find in the cache is of an instant that its call allows. -/
def Fits (s : LearnedStore) : LearnedThread → Prop
  | .idle => True
  | .missed _ called completed => called ≤ s.version ∧ completed ≤ s.completed
  | .populated _ called completed queried => called ≤ s.version ∧ completed ≤ s.completed ∧
      ∀ snapshot, s.cache = some snapshot → s.Reflects (if queried then called else completed) snapshot
  | .committed answer version => version ≤ s.version ∧ ∀ values, answer ≠ .values values

theorem Reflects.extend {s' : LearnedStore} {since : Nat} {snapshot : LearnedSnapshot} (reflects : s.Reflects since snapshot)
    (ext : s.Extends s') : s'.Reflects since snapshot := by
  obtain ⟨t, rows, after, was, same⟩ := reflects
  exact ⟨t, rows, after, ext.contents t rows was, same⟩

/-- A snapshot stays as old as it was, or is made anew. -/
theorem Extends.reflects {s' : LearnedStore} (ext : s.Extends s') {since : Nat} (before : since ≤ s'.version)
    (cached : ∀ snapshot, s.cache = some snapshot → s.Reflects since snapshot) {snapshot : LearnedSnapshot}
    (found : s'.cache = some snapshot) : s'.Reflects since snapshot := by
  rcases ext.cache with gone | ⟨same, -⟩ | ⟨now, anew⟩
  · rw [gone] at found
    cases found
  · rw [same] at found
    exact (cached snapshot found).extend ext
  · rw [anew] at found
    cases found
    exact reflects_ofRows before now

theorem Fits.extend {s' : LearnedStore} {thread : LearnedThread} (fits : s.Fits thread) (sound : s.Sound)
    (ext : s.Extends s') : s'.Fits thread := by
  cases thread with
  | idle => trivial
  | missed actionId called completed => exact ⟨fits.1.trans ext.version, fits.2.trans ext.completed⟩
  | committed answer version => exact ⟨fits.1.trans ext.version, fits.2⟩
  | populated actionId called completed queried =>
    obtain ⟨calledBefore, completedBefore, reads⟩ := fits
    refine ⟨calledBefore.trans ext.version, completedBefore.trans ext.completed, fun snapshot found => ?_⟩
    refine ext.reflects ?_ reads found
    have enough := completedBefore.trans (sound.completed.trans ext.version)
    split
    · exact calledBefore.trans ext.version
    · exact enough

theorem Sound.extend {s' : LearnedStore} (sound : s.Sound) (ext : s.Extends s') (bound : s'.completed ≤ s'.version) :
    s'.Sound := by
  refine ⟨bound, fun snapshot found => ?_⟩
  rcases ext.cache with gone | ⟨-, completed⟩ | ⟨now, anew⟩
  · rw [gone] at found
    cases found
  · rw [completed]
    exact ext.reflects (completed ▸ bound) sound.cached found
  · rw [anew] at found
    cases found
    exact reflects_ofRows bound now

theorem change_extends (changed : Bool) (rows : List EntryRow) {answer : LearnedAnswer} (sound : s.Sound)
    (other : ∀ values, answer ≠ .values values) :
    s.Extends (s.change changed rows answer).1 ∧ (s.change changed rows answer).1.Sound ∧
      (s.change changed rows answer).1.Fits (s.change changed rows answer).2.1 := by
  cases changed with
  | false => exact ⟨.refl s, sound, trivial⟩
  | true =>
    have ext := Extends.commit s rows
    refine ⟨ext, sound.extend ext (sound.completed.trans ext.version), Nat.le_of_eq ?_, other⟩
    simp [change, version, LearnedStore.commit]

theorem change_answers (changed : Bool) (rows : List EntryRow) {answer : LearnedAnswer} {values : List String}
    (other : ∀ values, answer ≠ .values values) : (s.change changed rows answer).2.2 ≠ .values values := by
  cases changed with
  | false => exact other values
  | true => exact fun same => nomatch same

theorem begin_extends (call : LearnedCall) (now : Nat) (sound : s.Sound) :
    s.Extends (s.begin call now).1 ∧ (s.begin call now).1.Sound ∧ (s.begin call now).1.Fits (s.begin call now).2.1 := by
  cases call with
  | getCached actionId =>
    rw [begin]
    cases s.fresh now with
    | some snapshot => exact ⟨.refl s, sound, trivial⟩
    | none => exact ⟨.refl s, sound, Nat.le_refl _, Nat.le_refl _⟩
  | insertEntry addedAt params => exact change_extends _ _ sound fun _ same => nomatch same
  | deleteEntry actionId value => exact change_extends _ _ sound fun _ same => nomatch same
  | clearForAction actionId => exact change_extends _ _ sound fun _ same => nomatch same

/-- A step leaves the cache sound and the thread with what it needs. -/
theorem act_extends (thread : LearnedThread) (input : LearnedCall × Nat) (sound : s.Sound) (fits : s.Fits thread) :
    s.Extends (threads.act s thread input).1 ∧ (threads.act s thread input).1.Sound ∧
      (threads.act s thread input).1.Fits (threads.act s thread input).2.1 := by
  obtain ⟨call, now⟩ := input
  cases thread with
  | idle => exact begin_extends call now sound
  | missed actionId called completed =>
    obtain ⟨calledBefore, completedBefore⟩ := fits
    simp only [threads]
    cases found : s.fresh now with
    | some snapshot =>
      refine ⟨.refl s, sound, calledBefore, completedBefore, fun cached here => ?_⟩
      exact (sound.cached cached here).mono completedBefore
    | none =>
      have ext : s.Extends { s with cache := some (.ofRows s.rows now) } :=
        ⟨Nat.le_refl _, Nat.le_refl _, fun _ _ was => was, .inr (.inr ⟨now, rfl⟩)⟩
      refine ⟨ext, sound.extend ext sound.completed, calledBefore, completedBefore, fun cached here => ?_⟩
      cases here
      exact reflects_ofRows calledBefore now
  | populated actionId called completed queried => exact ⟨.refl s, sound, trivial⟩
  | committed answer version =>
    have ext : s.Extends { s with cache := none, completed := max s.completed version } :=
      ⟨Nat.le_refl _, Nat.le_max_left _ _, fun _ _ was => was, .inl rfl⟩
    exact ⟨ext, sound.extend ext (Nat.max_le.mpr ⟨sound.completed, fits.1⟩), trivial⟩

theorem run_sound {rows : List EntryRow} {inputs : List (Nat × (LearnedCall × Nat))} (i : Nat) :
    (threads.machine.run (start rows) inputs).1.Sound ∧
      (threads.machine.run (start rows) inputs).1.Fits ((threads.machine.run (start rows) inputs).2 i) := by
  refine @Actor.invariant _ _ _ _ threads (fun _ _ s thread => s.Sound ∧ s.Fits thread) ?_ ?_ (start rows) ?_ inputs i
  · intro past s i e each
    exact (act_extends (s.2 i) e (each i).1 (each i).2).2
  · intro past s i j e differs each
    obtain ⟨ext, sound, -⟩ := act_extends (s.2 j) e (each j).1 (each j).2
    exact ⟨sound, (each i).2.extend (each i).1 ext⟩
  · exact fun _ => ⟨⟨Nat.le_refl _, fun _ found => nomatch found⟩, trivial⟩

/-- In every run in which no reader comes back to a cache that was invalidated
meanwhile, a reader gets what the table had for its action at an instant that
its call allows. -/
theorem reads_held {rows : List EntryRow} {inputs : List (Nat × (LearnedCall × Nat))} {i now : Nat} {call : LearnedCall}
    (meets : threads.machine.Meets StillCached (start rows) (inputs ++ [(i, call, now)])) (values : List String)
    (answered : (threads.machine.step (threads.machine.run (start rows) inputs) (i, call, now)).2 = .values values) :
    let s := threads.machine.run (start rows) inputs
    ∃ actionId, readsFor call (s.2 i) = some actionId ∧ s.1.HeldSince (s.1.since (s.2 i)) actionId values := by
  intro s
  obtain ⟨sound, fits⟩ : s.1.Sound ∧ s.1.Fits (s.2 i) := run_sound i
  have still : StillCached s (i, call, now) := (Machine.meets_append.1 meets).2.1
  rw [Actor.step_answer] at answered
  change (threads.act s.1 (s.2 i) (call, now)).2.2 = .values values at answered
  unfold StillCached at still
  cases thread : s.2 i with
  | idle =>
    rw [thread] at answered
    cases call with
    | getCached actionId =>
      refine ⟨actionId, rfl, ?_⟩
      simp only [threads, begin] at answered
      cases found : s.1.fresh now with
      | none => simp [found] at answered
      | some snapshot =>
        simp only [found, LearnedAnswer.values.injEq] at answered
        rw [← answered]
        exact (sound.cached snapshot (Option.filter_eq_some_iff.mp found).1).heldSince actionId
    | insertEntry addedAt params => exact absurd answered (change_answers _ _ fun _ same => nomatch same)
    | deleteEntry actionId value => exact absurd answered (change_answers _ _ fun _ same => nomatch same)
    | clearForAction actionId => exact absurd answered (change_answers _ _ fun _ same => nomatch same)
  | missed actionId called completed =>
    rw [thread] at answered
    simp only [threads] at answered
    cases found : s.1.fresh now with
    | none => simp [found] at answered
    | some snapshot => simp [found] at answered
  | populated actionId called completed queried =>
    rw [thread] at answered fits
    simp only [thread] at still
    obtain ⟨calledBefore, completedBefore, reads⟩ := fits
    refine ⟨actionId, rfl, ?_⟩
    simp only [threads, LearnedAnswer.values.injEq] at answered
    rw [← answered]
    cases found : s.1.cache with
    | some snapshot => exact (reads snapshot found).heldSince actionId
    | none =>
      have nothing : getValuesForAction actionId s.1.rows = [] := still.resolve_left fun kept => kept found
      refine ⟨s.1.version, s.1.rows, ?_, contents_version, nothing.symm⟩
      have enough := completedBefore.trans sound.completed
      simp only [since]
      split
      · exact calledBefore
      · exact enough
  | committed answer version =>
    rw [thread] at answered fits
    exact absurd answered (fits.2 values)

/-! A reader that comes back to an invalidated cache. -/

def plainRow (value : String) : EntryRow where
  actionId := "fetch"
  value := value
  addedBy := "operator"
  addedAt := "2026-01-01T00:00:00Z"
  source := EntrySource.cli.asStr
  approvalId := none

def plainInsert (value : String) : LearnedCall :=
  .insertEntry "2026-01-02T00:00:00Z" { actionId := "fetch", value := value, addedBy := "operator", source := "cli",
                                        approvalId := none, maxPerAction := none }

theorem reads_held_sample :
    let s := threads.machine.run (start [plainRow "a.example.com"]) [(0, .getCached "fetch", 0), (0, .getCached "fetch", 0)]
    ∃ actionId, readsFor (.getCached "fetch") (s.2 0) = some actionId ∧
      s.1.HeldSince (s.1.since (s.2 0)) actionId ["a.example.com"] := by
  have meets : threads.machine.Meets StillCached (start [plainRow "a.example.com"])
      ([(0, .getCached "fetch", 0), (0, .getCached "fetch", 0)] ++ [(0, .getCached "fetch", 0)]) := by
    refine ⟨trivial, trivial, .inl ?_, trivial⟩
    exact Option.some_ne_none _
  exact reads_held meets ["a.example.com"] (by decide +kernel)

/-- The entry is in the table all the time, and the reader is told that there
is nothing. -/
theorem entry_missing :
    let s := threads.machine.run (start [plainRow "a.example.com"])
      [(0, .getCached "fetch", 0), (0, .getCached "fetch", 0), (1, plainInsert "b.example.com", 0),
        (1, plainInsert "b.example.com", 0)]
    (threads.machine.step s (0, .getCached "fetch", 0)).2 = .values [] ∧
      ∀ rows ∈ s.1.earlier ++ [s.1.rows], isEntryPresent "fetch" "a.example.com" rows = true := by
  decide

end LearnedStore
end Latchgate
