import Latchgate.Machine.Actor
import Latchgate.Providers.FsWriteFailure
import Mathlib.Data.List.Nodup

namespace Latchgate

/-- An overwrite call that carries an expected hash. -/
structure OverwriteCall where
  expected : List UInt8
  content : List UInt8
  deriving DecidableEq

/-- How far an overwrite call has come, one system call after the other. -/
inductive OverwritePhase where
  | idle
  | opened (call : OverwriteCall)
  | reading (call : OverwriteCall) (existing : List UInt8)
  | agreed (call : OverwriteCall)
  | cut (call : OverwriteCall)
  | writing (call : OverwriteCall) (written : Nat)
  | written (call : OverwriteCall)
  | succeeded (call : OverwriteCall)
  | failed (call : OverwriteCall)
  deriving DecidableEq

namespace OverwritePhase

def call : OverwritePhase → Option OverwriteCall
  | idle => none
  | opened c | reading c _ | agreed c | cut c | writing c _ | written c | succeeded c | failed c => some c

/-- From the truncation to the last write. -/
def Changing : OverwritePhase → Prop
  | cut _ | writing _ _ => True
  | _ => False

/-- From the first byte that is read to the last one that is written. -/
def UnderWay : OverwritePhase → Prop
  | reading _ existing => existing ≠ []
  | agreed _ | cut _ | writing _ _ => True
  | _ => False

end OverwritePhase

namespace Overwrites

section Calls
variable (sha256 : List UInt8 → Vector UInt8 32) (maxFileBytes : Nat)

/-- The optimistic check: the bytes hash to what the call expects. -/
def Agrees (call : OverwriteCall) (existing : List UInt8) : Prop :=
  call.expected.length = 32 ∧ call.expected = (sha256 existing).toList

instance (call : OverwriteCall) (existing : List UInt8) : Decidable (Agrees sha256 call existing) :=
  inferInstanceAs (Decidable (_ ∧ _))

/-- The next system call of an overwrite on the contents of its file. It fails,
or moves at most so many bytes behind the first. -/
def overwriteStep (file : List UInt8) : OverwritePhase → Option Nat → List UInt8 × OverwritePhase
  | .idle, _ => (file, .idle)
  | .succeeded call, _ => (file, .succeeded call)
  | .failed call, _ => (file, .failed call)
  | .opened call, none | .reading call _, none | .agreed call, none | .cut call, none | .writing call _, none
  | .written call, none => (file, .failed call)
  | .opened call, some _ => (file, if maxFileBytes < file.length then .failed call else .reading call [])
  | .reading call existing, some more =>
    if file.length ≤ existing.length then
      (file, if Agrees sha256 call existing then .agreed call else .failed call)
    else (file, .reading call (existing ++ (file.drop existing.length).take (more + 1)))
  | .agreed call, some _ => ([], .cut call)
  | .cut call, some _ => (file, if call.content = [] then .written call else .writing call 0)
  | .writing call done, some more =>
    let data := (call.content.drop done).take (more + 1)
    (writeAt file data done,
      if call.content.length ≤ done + data.length then .written call else .writing call (done + data.length))
  | .written call, some _ => (file, .succeeded call)

/-- Overwrites of one file, the system calls of which come in any order. -/
def overwriteActor : Actor (List UInt8) OverwritePhase (Option Nat) Unit where
  act file phase outcome :=
    let next := overwriteStep sha256 maxFileBytes file phase outcome
    (next.1, next.2, ())

def startOverwrites (file : List UInt8) (calls : Nat → Option OverwriteCall) : List UInt8 × (Nat → OverwritePhase) :=
  (file, fun i => match calls i with
    | some call => .opened call
    | none => .idle)

variable (calls : Nat → Option OverwriteCall)

/-- Changes one after the other, with what each has left in the file: every call
changes it once at most, and replaces contents that hash to what it expects. -/
inductive Replaced (file : List UInt8) : List (Nat × List UInt8) → List UInt8 → Prop
  | start : Replaced file [] file
  | change {changes : List (Nat × List UInt8)} {before : List UInt8} {i : Nat} {call : OverwriteCall} (left : List UInt8) :
      Replaced file changes before → calls i = some call → Agrees sha256 call before → i ∉ changes.map Prod.fst →
        Replaced file (changes ++ [(i, left)]) left

/-- The calls that succeed have replaced one another's contents in some order, and
no update is lost. Two that expect the same have had those contents put back
between them. -/
def Serialised (file : List UInt8) (s : List UInt8 × (Nat → OverwritePhase)) : Prop :=
  ∃ changes final, Replaced sha256 calls file changes final ∧
    (∀ i call, s.2 i = .succeeded call → (i, call.content) ∈ changes) ∧
    ((∀ i, ¬(s.2 i).Changing) → s.1 = final) ∧
    ∀ i j first second, i ≠ j → s.2 i = .succeeded first → s.2 j = .succeeded second → first.expected = second.expected →
      ∃ change ∈ changes, (sha256 change.2).toList = first.expected

/-- The step changes the file. -/
def Changes : OverwritePhase → Option Nat → Prop
  | .agreed _, some _ | .writing _ _, some _ => True
  | _, _ => False

/-- A step changes the file only while no other call is between the first byte it
reads and the last one it writes. -/
def AloneInChange (s : List UInt8 × (Nat → OverwritePhase)) (e : Nat × Option Nat) : Prop :=
  Changes (s.2 e.1) e.2 → ∀ j, j ≠ e.1 → ¬(s.2 j).UnderWay

/-- What is known of a call that has come to a phase. -/
def Held (changes : List (Nat × List UInt8)) (final contents : List UInt8) (i : Nat) : OverwritePhase → Prop
  | .idle | .failed _ => True
  | .opened call => calls i = some call ∧ i ∉ changes.map Prod.fst
  | .reading call existing => calls i = some call ∧ i ∉ changes.map Prod.fst ∧ existing <+: contents
  | .agreed call => calls i = some call ∧ i ∉ changes.map Prod.fst ∧ Agrees sha256 call contents
  | .cut call => calls i = some call ∧ i ∉ changes.map Prod.fst ∧ Agrees sha256 call final ∧ contents = []
  | .writing call done => calls i = some call ∧ i ∉ changes.map Prod.fst ∧ Agrees sha256 call final ∧
      contents = call.content.take done ∧ done ≤ call.content.length
  | .written call | .succeeded call => calls i = some call ∧ (i, call.content) ∈ changes

/-- The invariant of guarded runs. At most one call is changing the file, and the
contents are those of the last change while none is. -/
structure Sound (file : List UInt8) (changes : List (Nat × List UInt8)) (final contents : List UInt8)
    (phases : Nat → OverwritePhase) : Prop where
  replaced : Replaced sha256 calls file changes final
  held : ∀ i, Held sha256 calls changes final contents i (phases i)
  rest : (∀ i, ¬(phases i).Changing) → contents = final
  one : ∀ i j, (phases i).Changing → (phases j).Changing → i = j

end Calls

variable {sha256 : List UInt8 → Vector UInt8 32} {maxFileBytes : Nat} {calls : Nat → Option OverwriteCall}
  {file final contents contents' : List UInt8} {changes : List (Nat × List UInt8)} {i : Nat} {call : OverwriteCall}
  {phases : Nat → OverwritePhase} {phase : OverwritePhase}

theorem changing_underWay (changing : phase.Changing) : phase.UnderWay := by
  cases phase <;> trivial

/-- A call that is not under way does not see what is in the file. -/
theorem Held.of_idle (held : Held sha256 calls changes final contents i phase) (idle : ¬phase.UnderWay) :
    Held sha256 calls changes final contents' i phase := by
  cases phase with
  | idle => trivial
  | failed call => trivial
  | opened call => exact held
  | reading call existing =>
    have nothing : existing = [] := not_not.mp idle
    exact ⟨held.1, held.2.1, nothing ▸ List.nil_prefix⟩
  | agreed call => exact absurd trivial idle
  | cut call => exact absurd trivial idle
  | writing call done => exact absurd trivial idle
  | written call => exact held
  | succeeded call => exact held

/-- A call that is not changing the file does not see another one's change end. -/
theorem Held.extend {j : Nat} {left : List UInt8} (held : Held sha256 calls changes final contents j phase) (other : j ≠ i)
    (calm : ¬phase.Changing) : Held sha256 calls (changes ++ [(i, left)]) left contents j phase := by
  have fresh : j ∉ changes.map Prod.fst → j ∉ (changes ++ [(i, left)]).map Prod.fst := by
    intro new
    simpa [other] using new
  cases phase with
  | idle => trivial
  | failed call => trivial
  | opened call => exact ⟨held.1, fresh held.2⟩
  | reading call existing => exact ⟨held.1, fresh held.2.1, held.2.2⟩
  | agreed call => exact ⟨held.1, fresh held.2.1, held.2.2⟩
  | cut call => exact absurd trivial calm
  | writing call done => exact absurd trivial calm
  | written call => exact ⟨held.1, List.mem_append_left _ held.2⟩
  | succeeded call => exact ⟨held.1, List.mem_append_left _ held.2⟩

/-- A step that leaves the file, and neither begins nor ends a change. -/
theorem Sound.quiet (sound : Sound sha256 calls file changes final contents phases) (held : Held sha256 calls changes final contents i phase)
    (same : phase.Changing ↔ (phases i).Changing) : Sound sha256 calls file changes final contents (Function.update phases i phase) where
  replaced := sound.replaced
  held j := by
    by_cases here : j = i
    · subst here
      rw [Function.update_self]
      exact held
    · rw [Function.update_of_ne here]
      exact sound.held j
  rest none_ := by
    refine sound.rest fun j => ?_
    have calm := none_ j
    by_cases here : j = i
    · subst here
      rw [Function.update_self, same] at calm
      exact calm
    · rw [Function.update_of_ne here] at calm
      exact calm
  one j k first second := by
    have back : ∀ l, (Function.update phases i phase l).Changing → (phases l).Changing := by
      intro l changing
      by_cases here : l = i
      · subst here
        rw [Function.update_self, same] at changing
        exact changing
      · rw [Function.update_of_ne here] at changing
        exact changing
    exact sound.one j k (back j first) (back k second)

/-- A change goes on, or begins, while no other call is under way. -/
theorem Sound.goOn (sound : Sound sha256 calls file changes final contents phases) (alone : ∀ j, j ≠ i → ¬(phases j).UnderWay)
    (held : Held sha256 calls changes final contents' i phase) (changing : phase.Changing) :
    Sound sha256 calls file changes final contents' (Function.update phases i phase) where
  replaced := sound.replaced
  held j := by
    by_cases here : j = i
    · subst here
      rw [Function.update_self]
      exact held
    · rw [Function.update_of_ne here]
      exact (sound.held j).of_idle (alone j here)
  rest none_ := by
    have calm := none_ i
    rw [Function.update_self] at calm
    exact absurd changing calm
  one j k first second := by
    have only : ∀ l, (Function.update phases i phase l).Changing → l = i := by
      intro l changing
      by_contra other
      rw [Function.update_of_ne other] at changing
      exact alone l other (changing_underWay changing)
    rw [only j first, only k second]

/-- A change ends. -/
theorem Sound.finish (sound : Sound sha256 calls file changes final contents phases) (known : calls i = some call) (fresh : i ∉ changes.map Prod.fst)
    (agrees : Agrees sha256 call final) (others : ∀ j, j ≠ i → Held sha256 calls changes final contents' j (phases j))
    (calm : ∀ j, j ≠ i → ¬(phases j).Changing) (ended : ¬phase.Changing)
    (held : Held sha256 calls (changes ++ [(i, contents')]) contents' contents' i phase) :
    Sound sha256 calls file (changes ++ [(i, contents')]) contents' contents' (Function.update phases i phase) where
  replaced := .change contents' sound.replaced known agrees fresh
  held j := by
    by_cases here : j = i
    · subst here
      rw [Function.update_self]
      exact held
    · rw [Function.update_of_ne here]
      exact (others j here).extend here (calm j here)
  rest _ := rfl
  one j k first _ := by
    by_cases here : j = i
    · subst here
      rw [Function.update_self] at first
      exact absurd first ended
    · rw [Function.update_of_ne here] at first
      exact absurd first (calm j here)

theorem writeAt_end (old data : List UInt8) : writeAt old data old.length = old ++ data := by
  simp [writeAt]

/-- A write behind the front of the new contents makes a longer front. -/
theorem writeAt_take {content : List UInt8} {done : Nat} (bound : done ≤ content.length) (more : Nat) :
    let data := (content.drop done).take more
    writeAt (content.take done) data done = content.take (done + data.length) ∧ done + data.length ≤ content.length := by
  intro data
  have front : (content.take done).length = done := by simp [bound]
  have size : data.length ≤ content.length - done := by
    simp only [data, List.length_take, List.length_drop]
    omega
  have whole : data = (content.drop done).take data.length := by
    simp only [data, List.length_take, List.length_drop]
    by_cases short : more ≤ content.length - done
    · rw [min_eq_left short]
    · rw [min_eq_right (by omega), List.take_of_length_le (by simp; omega), List.take_of_length_le (by simp)]
  refine ⟨?_, by omega⟩
  have ends := writeAt_end (content.take done) data
  rw [front] at ends
  rw [ends, List.take_add, ← whole]

/-- One step of a guarded run. -/
theorem step_sound (sound : Sound sha256 calls file changes final contents phases) (outcome : Option Nat)
    (alone : Changes (phases i) outcome → ∀ j, j ≠ i → ¬(phases j).UnderWay) :
    ∃ changes' final', Sound sha256 calls file changes' final' (overwriteStep sha256 maxFileBytes contents (phases i) outcome).1
      (Function.update phases i (overwriteStep sha256 maxFileBytes contents (phases i) outcome).2) := by
  have held := sound.held i
  have calm : (phases i).Changing → ∀ j, j ≠ i → ¬(phases j).Changing :=
    fun changing j other also => other (sound.one j i also changing)
  cases here : phases i with
  | idle => exact ⟨changes, final, sound.quiet trivial (by rw [here]; exact Iff.rfl)⟩
  | succeeded call =>
    rw [here] at held
    exact ⟨changes, final, sound.quiet held (by rw [here]; exact Iff.rfl)⟩
  | failed call => exact ⟨changes, final, sound.quiet trivial (by rw [here]; exact Iff.rfl)⟩
  | opened call =>
    rw [here] at held
    cases outcome with
    | none => exact ⟨changes, final, sound.quiet trivial (by rw [here]; exact Iff.rfl)⟩
    | some more =>
      simp only [overwriteStep]
      split_ifs with large
      · exact ⟨changes, final, sound.quiet trivial (by rw [here]; exact Iff.rfl)⟩
      · exact ⟨changes, final, sound.quiet ⟨held.1, held.2, List.nil_prefix⟩ (by rw [here]; exact Iff.rfl)⟩
  | reading call existing =>
    rw [here] at held
    obtain ⟨known, fresh, front⟩ := held
    cases outcome with
    | none => exact ⟨changes, final, sound.quiet trivial (by rw [here]; exact Iff.rfl)⟩
    | some more =>
      simp only [overwriteStep]
      split_ifs with ended agrees
      · have whole : existing = contents := front.eq_of_length_le ended
        rw [whole] at agrees
        exact ⟨changes, final, sound.quiet ⟨known, fresh, agrees⟩ (by rw [here]; exact Iff.rfl)⟩
      · exact ⟨changes, final, sound.quiet trivial (by rw [here]; exact Iff.rfl)⟩
      · have longer : existing ++ (contents.drop existing.length).take (more + 1) <+: contents := by
          have taken : existing = contents.take existing.length := List.prefix_iff_eq_take.mp front
          nth_rewrite 1 [taken]
          rw [← List.take_add]
          exact List.take_prefix _ _
        exact ⟨changes, final, sound.quiet ⟨known, fresh, longer⟩ (by rw [here]; exact Iff.rfl)⟩
  | agreed call =>
    rw [here] at held alone
    obtain ⟨known, fresh, agrees⟩ := held
    cases outcome with
    | none => exact ⟨changes, final, sound.quiet trivial (by rw [here]; exact Iff.rfl)⟩
    | some more =>
      have others := alone trivial
      have still : ∀ j, ¬(phases j).Changing := by
        intro j
        by_cases same : j = i
        · rw [same, here]
          exact id
        · exact fun changing => others j same (changing_underWay changing)
      have current := sound.rest still
      rw [current] at agrees
      exact ⟨changes, final, sound.goOn others ⟨known, fresh, agrees, rfl⟩ trivial⟩
  | cut call =>
    rw [here] at held calm
    obtain ⟨known, fresh, agrees, empty⟩ := held
    cases outcome with
    | none =>
      exact ⟨_, _, sound.finish known fresh agrees (fun j other => sound.held j) (calm trivial) id trivial⟩
    | some more =>
      simp only [overwriteStep]
      split_ifs with void
      · have last : (i, call.content) ∈ changes ++ [(i, contents)] := by simp [void, empty]
        exact ⟨_, _, sound.finish known fresh agrees (fun j other => sound.held j) (calm trivial) id ⟨known, last⟩⟩
      · exact ⟨changes, final, sound.quiet ⟨known, fresh, agrees, by simp [empty], Nat.zero_le _⟩ (by rw [here]; exact Iff.rfl)⟩
  | writing call done =>
    rw [here] at held calm alone
    obtain ⟨known, fresh, agrees, front, bound⟩ := held
    cases outcome with
    | none =>
      exact ⟨_, _, sound.finish known fresh agrees (fun j other => sound.held j) (calm trivial) id trivial⟩
    | some more =>
      have others := alone trivial
      obtain ⟨written, within⟩ := writeAt_take bound (more + 1)
      simp only [overwriteStep]
      rw [front, written]
      split_ifs with all
      · have whole : call.content.take (done + ((call.content.drop done).take (more + 1)).length) = call.content :=
          List.take_of_length_le all
        rw [whole]
        have last : (i, call.content) ∈ changes ++ [(i, call.content)] := by simp
        exact ⟨_, _, sound.finish known fresh agrees (fun j other => (sound.held j).of_idle (others j other))
          (calm trivial) id ⟨known, last⟩⟩
      · exact ⟨changes, final, sound.goOn others ⟨known, fresh, agrees, rfl, within⟩ trivial⟩
  | written call =>
    rw [here] at held
    cases outcome with
    | none => exact ⟨changes, final, sound.quiet trivial (by rw [here]; exact Iff.rfl)⟩
    | some more => exact ⟨changes, final, sound.quiet held (by rw [here]; exact Iff.rfl)⟩

theorem Replaced.last (replaced : Replaced sha256 calls file changes final) (some_ : changes ≠ []) :
    ∃ change ∈ changes, change.2 = final := by
  cases replaced with
  | start => exact absurd rfl some_
  | change left earlier known agrees fresh => exact ⟨_, List.mem_append_right _ List.mem_cons_self, rfl⟩

/-- Between two changes that expect the same contents these are put back. -/
theorem Replaced.restored (replaced : Replaced sha256 calls file changes final) {j : Nat} {first second : OverwriteCall}
    {a b : List UInt8} (differ : i ≠ j) (atFirst : calls i = some first) (atSecond : calls j = some second)
    (same : first.expected = second.expected) (one : (i, a) ∈ changes) (two : (j, b) ∈ changes) :
    ∃ change ∈ changes, (sha256 change.2).toList = first.expected := by
  induction replaced with
  | start => cases one
  | @change changes before k call left earlier known agrees fresh ih =>
    have back : call.expected = first.expected → changes ≠ [] →
        ∃ change ∈ changes ++ [(k, left)], (sha256 change.2).toList = first.expected := by
      intro expected some_
      obtain ⟨change, member, left⟩ := earlier.last some_
      exact ⟨change, List.mem_append_left _ member, by rw [left, ← agrees.2, expected]⟩
    rcases List.mem_append.mp one with old | new
    · rcases List.mem_append.mp two with old' | new'
      · obtain ⟨change, member, hash⟩ := ih old old'
        exact ⟨change, List.mem_append_left _ member, hash⟩
      · cases List.mem_singleton.mp new'
        rw [atSecond, Option.some.injEq] at known
        exact back (by rw [← known, same]) (List.ne_nil_of_mem old)
    · cases List.mem_singleton.mp new
      rw [atFirst, Option.some.injEq] at known
      rcases List.mem_append.mp two with old' | new'
      · exact back (by rw [← known]) (List.ne_nil_of_mem old')
      · cases List.mem_singleton.mp new'
        exact absurd rfl differ

theorem Sound.serialised (sound : Sound sha256 calls file changes final contents phases) :
    Serialised sha256 calls file (contents, phases) := by
  have done : ∀ i call, phases i = .succeeded call → calls i = some call ∧ (i, call.content) ∈ changes := by
    intro i call succeeded
    have held := sound.held i
    rw [succeeded] at held
    exact held
  refine ⟨changes, final, sound.replaced, fun i call succeeded => (done i call succeeded).2, sound.rest, ?_⟩
  intro i j first second differ one two same
  exact sound.replaced.restored differ (done i first one).1 (done j second two).1 same (done i first one).2 (done j second two).2

theorem start_sound (calls : Nat → Option OverwriteCall) (file : List UInt8) :
    Sound sha256 calls file [] file (startOverwrites file calls).1 (startOverwrites file calls).2 where
  replaced := .start
  held i := by
    cases given : calls i with
    | none => simp [startOverwrites, given, Held]
    | some call => simp [startOverwrites, given, Held]
  rest _ := rfl
  one i j first _ := by
    cases given : calls i <;> simp [startOverwrites, given, OverwritePhase.Changing] at first

/-- Overwrites are serialised in every run in which a call changes the file only
while no other one is between what it reads and what it writes. -/
theorem overwrites_serialised (sha256 : List UInt8 → Vector UInt8 32) (maxFileBytes : Nat) (calls : Nat → Option OverwriteCall)
    (file : List UInt8) (steps : List (Nat × Option Nat))
    (alone : (overwriteActor sha256 maxFileBytes).machine.Meets AloneInChange (startOverwrites file calls) steps) :
    Serialised sha256 calls file ((overwriteActor sha256 maxFileBytes).machine.run (startOverwrites file calls) steps) := by
  have kept : ∀ (s : List UInt8 × (Nat → OverwritePhase)) e, AloneInChange s e →
      (∃ changes final, Sound sha256 calls file changes final s.1 s.2) →
        ∃ changes final, Sound sha256 calls file changes final ((overwriteActor sha256 maxFileBytes).machine.step s e).1.1
          ((overwriteActor sha256 maxFileBytes).machine.step s e).1.2 := by
    rintro s ⟨i, outcome⟩ guarded ⟨changes, final, sound⟩
    exact step_sound sound outcome guarded
  obtain ⟨changes, final, sound⟩ := alone.run_invariant kept ⟨[], file, start_sound calls file⟩
  exact sound.serialised

theorem run_other {s : List UInt8 × (Nat → OverwritePhase)} {steps : List (Nat × Option Nat)} {j : Nat}
    (elsewhere : ∀ e ∈ steps, e.1 ≠ j) : ((overwriteActor sha256 maxFileBytes).machine.run s steps).2 j = s.2 j := by
  induction steps generalizing s with
  | nil => rfl
  | cons e steps ih =>
    rw [Machine.run_cons, ih fun e' member => elsewhere e' (List.mem_cons_of_mem e member)]
    exact Actor.step_other s (elsewhere e List.mem_cons_self).symm e.2

/-- A call that runs while no other is under way meets the condition. -/
theorem meets_single {s : List UInt8 × (Nat → OverwritePhase)} {outcomes : List (Option Nat)}
    (quiet : ∀ j, j ≠ i → ¬(s.2 j).UnderWay) :
    (overwriteActor sha256 maxFileBytes).machine.Meets AloneInChange s (outcomes.map fun o => (i, o)) := by
  induction outcomes generalizing s with
  | nil => trivial
  | cons outcome outcomes ih =>
    refine ⟨fun _ => quiet, ih fun j other => ?_⟩
    have same := @run_other sha256 maxFileBytes s [(i, outcome)] j (by simpa using Ne.symm other)
    rw [Machine.run_cons, Machine.run_nil] at same
    rw [same]
    exact quiet j other

/-- A call on its own, from system call to system call. -/
def overwriteRun (sha256 : List UInt8 → Vector UInt8 32) (maxFileBytes : Nat) :
    List UInt8 → OverwritePhase → List (Option Nat) → List UInt8 × OverwritePhase
  | file, phase, [] => (file, phase)
  | file, phase, outcome :: rest =>
    let next := overwriteStep sha256 maxFileBytes file phase outcome
    overwriteRun sha256 maxFileBytes next.1 next.2 rest

theorem overwriteRun_append (first second : List (Option Nat)) :
    overwriteRun sha256 maxFileBytes file phase (first ++ second) =
      overwriteRun sha256 maxFileBytes (overwriteRun sha256 maxFileBytes file phase first).1
        (overwriteRun sha256 maxFileBytes file phase first).2 second := by
  induction first generalizing file phase with
  | nil => rfl
  | cons outcome first ih => exact ih

theorem run_single {s : List UInt8 × (Nat → OverwritePhase)} (outcomes : List (Option Nat)) :
    (overwriteActor sha256 maxFileBytes).machine.run s (outcomes.map fun o => (i, o)) =
      ((overwriteRun sha256 maxFileBytes s.1 (s.2 i) outcomes).1,
        Function.update s.2 i (overwriteRun sha256 maxFileBytes s.1 (s.2 i) outcomes).2) := by
  induction outcomes generalizing s with
  | nil => exact Prod.ext rfl (Function.update_eq_self i s.2).symm
  | cons outcome outcomes ih =>
    rw [List.map_cons, Machine.run_cons, ih]
    simp [Actor.machine, overwriteActor, overwriteRun]

/-- A call that runs on its own and expects what is there puts its contents in. -/
theorem overwriteRun_succeeds {old : List UInt8} (small : old.length ≤ maxFileBytes) (agrees : Agrees sha256 call old) :
    ∃ outcomes, overwriteRun sha256 maxFileBytes old (.opened call) outcomes = (call.content, .succeeded call) := by
  have checked : ∃ outcomes, overwriteRun sha256 maxFileBytes old (.opened call) outcomes = (old, .agreed call) := by
    have opened : ¬maxFileBytes < old.length := not_lt.mpr small
    by_cases void : old = []
    · exact ⟨[some 0, some 0], by simp [overwriteRun, overwriteStep, void, void ▸ agrees]⟩
    · refine ⟨[some 0, some old.length, some 0], ?_⟩
      have whole : old.take (old.length + 1) = old := List.take_of_length_le (by omega)
      simp [overwriteRun, overwriteStep, opened, void, whole, agrees]
  have changed : ∃ outcomes, overwriteRun sha256 maxFileBytes old (.agreed call) outcomes = (call.content, .succeeded call) := by
    by_cases void : call.content = []
    · exact ⟨[some 0, some 0, some 0], by simp [overwriteRun, overwriteStep, void]⟩
    · refine ⟨[some 0, some 0, some call.content.length, some 0], ?_⟩
      simp [overwriteRun, overwriteStep, void, writeAt]
  obtain ⟨checks, first⟩ := checked
  obtain ⟨changes, second⟩ := changed
  refine ⟨checks ++ changes, ?_⟩
  rw [overwriteRun_append, first, second]

/-- What an overwrite of the host does is what its call does on its own. -/
theorem writeOverwriteSync_alone {env : FsEnv} {config : FsHostConfig} {path : String} {content expected : List UInt8}
    {afterHash : Vector UInt8 32} {result : FsWriteResult} {s t : FsState}
    (ran : (env.writeOverwriteSync config path content afterHash (some expected)).run s = .ok result t) :
    ∃ place old, s.volume.node place = some (.regular old) ∧ t.volume.node place = some (.regular content) ∧
      ∃ outcomes : List (Option Nat),
        let calls : Nat → Option OverwriteCall := fun i => if i = 0 then some { expected, content } else none
        let final := (overwriteActor env.sha256 config.maxFileBytes.toNat).machine.run (startOverwrites old calls)
          (outcomes.map fun o => (0, o))
        final.1 = content ∧ final.2 0 = .succeeded { expected, content } := by
  obtain ⟨⟨fd, beforeHash, bytesBefore⟩, u, opened, ran⟩ := Sys.bind_eq_ok.1 ran
  obtain ⟨made, relative, v, old, found, -, -, stands, same, small, hash, agrees⟩ := FsEnv.overwriteTarget_opens opened
  obtain ⟨_, w, replaced, ran⟩ := Sys.bind_eq_ok.1 ran
  obtain ⟨-, nodes⟩ := FsEnv.replaceContents_eq_ok replaced
  obtain ⟨-, rfl⟩ := Sys.pure_eq_ok.1 ran
  rw [(FsEnv.quiet_secureOpen path rfl).ok _ _ _ found] at stands
  rw [FsEnv.secureOpen_start found, List.drop_zero] at hash
  have expects := agrees expected rfl
  rw [hash] at expects
  obtain ⟨outcomes, done⟩ := @overwriteRun_succeeds env.sha256 config.maxFileBytes.toNat { expected, content } old small expects
  refine ⟨fd.place, old, stands, by rw [nodes, if_pos rfl], outcomes, ?_⟩
  dsimp only
  rw [run_single]
  have start : (startOverwrites old fun i => if i = 0 then some { expected, content } else none).2 0 =
      .opened { expected, content } := rfl
  rw [start]
  dsimp only
  rw [Function.update_self]
  exact ⟨congrArg Prod.fst done, congrArg Prod.snd done⟩

/-- A hash for examples: the first bytes. -/
def frontHash (data : List UInt8) : Vector UInt8 32 :=
  Vector.ofFn fun i => data.getD i 0

/-- Two calls that expect the same contents. -/
def rivals : Nat → Option OverwriteCall
  | 0 => some { expected := (frontHash [104, 105]).toList, content := [1] }
  | 1 => some { expected := (frontHash [104, 105]).toList, content := [2] }
  | _ => none

/-- The checks of a call on a file of two bytes, and its change to one byte. -/
def checkSteps : List (Option Nat) :=
  [some 0, some 1, some 0]

def changeSteps : List (Option Nat) :=
  [some 0, some 0, some 0, some 0]

theorem overwrites_serialised_rivals :
    Serialised frontHash rivals [104, 105] ((overwriteActor frontHash 100).machine.run (startOverwrites [104, 105] rivals)
      ((checkSteps ++ changeSteps).map (fun o => (0, o)) ++ (checkSteps ++ changeSteps).map (fun o => (1, o)))) := by
  refine overwrites_serialised frontHash 100 rivals [104, 105] _ (Machine.meets_append.2 ⟨meets_single ?_, meets_single ?_⟩)
  · intro j _
    cases given : rivals j <;> simp [startOverwrites, given, OverwritePhase.UnderWay]
  · intro j other
    by_cases first : j = 0
    · subst first
      have done : ((overwriteActor frontHash 100).machine.run (startOverwrites [104, 105] rivals)
          ((checkSteps ++ changeSteps).map fun o => (0, o))).2 0 =
          .succeeded { expected := (frontHash [104, 105]).toList, content := [1] } := by decide
      rw [done]
      exact id
    · rw [run_other (by simp; omega)]
      cases given : rivals j <;> simp [startOverwrites, given, OverwritePhase.UnderWay]

theorem Replaced.callers (replaced : Replaced sha256 calls file changes final) :
    (changes.map Prod.fst).Nodup ∧ ∀ change ∈ changes, (calls change.1).isSome := by
  induction replaced with
  | start => simp
  | @change changes before k call left earlier known agrees fresh ih =>
    refine ⟨?_, ?_⟩
    · rw [List.map_append, List.nodup_append]
      exact ⟨ih.1, by simp, by simpa using fun a b member => fun same => fresh (by subst same; exact List.mem_map.mpr ⟨_, member, rfl⟩)⟩
    · intro change member
      rcases List.mem_append.mp member with old | new
      · exact ih.2 change old
      · rw [List.mem_singleton.mp new, known]
        rfl

/-- Both calls check the file before either changes it. -/
def racing : List (Nat × Option Nat) :=
  checkSteps.map (fun o => (0, o)) ++ checkSteps.map (fun o => (1, o)) ++
    (changeSteps.map (fun o => (0, o)) ++ changeSteps.map (fun o => (1, o)))

/-- Both succeed, and what the first has written is lost. -/
theorem update_lost : ¬Serialised frontHash rivals [104, 105]
    ((overwriteActor frontHash 100).machine.run (startOverwrites [104, 105] rivals) racing) := by
  rintro ⟨changes, final, replaced, succeeded, -, restored⟩
  have first : ((overwriteActor frontHash 100).machine.run (startOverwrites [104, 105] rivals) racing).2 0 =
      .succeeded { expected := (frontHash [104, 105]).toList, content := [1] } := by decide
  have second : ((overwriteActor frontHash 100).machine.run (startOverwrites [104, 105] rivals) racing).2 1 =
      .succeeded { expected := (frontHash [104, 105]).toList, content := [2] } := by decide
  obtain ⟨⟨k, left⟩, member, hash⟩ := restored 0 1 _ _ (by decide) first second rfl
  obtain ⟨distinct, known⟩ := replaced.callers
  have only : ∀ j content, (j, content) ∈ changes → k = j → left = content := by
    rintro j content inside rfl
    exact congrArg Prod.snd (List.inj_on_of_nodup_map distinct member inside rfl)
  have caller := known _ member
  rcases k with _ | _ | k
  · obtain rfl := only 0 _ (succeeded 0 _ first) rfl
    exact absurd hash (by decide)
  · obtain rfl := only 1 _ (succeeded 1 _ second) rfl
    exact absurd hash (by decide)
  · exact absurd caller (by simp [rivals])

end Overwrites
end Latchgate
