import Latchgate.Machine.Run
import Latchgate.Providers.Secrets
import Mathlib.Logic.Function.Basic

namespace Latchgate.Secrets

variable {κ : Type*}

/-- One state of a file: what `stat` says of it, and what is in it. The time of
the last change is in nanoseconds of the epoch, and may lie before it. -/
structure Version (κ : Type*) where
  mtime : Int
  inode : Nat
  content : κ

structure FileCacheKey where
  path : String
  mtimeNanos : Nat
  inode : Nat
  deriving DecidableEq

/-- A time before the epoch counts as the epoch. -/
def fileCacheKey {κ : Type*} (path : String) (v : Version κ) : FileCacheKey :=
  ⟨path, v.mtime.toNat, v.inode⟩

structure CacheEntry where
  secrets : Plaintext
  cachedAt : Nat

/-- Where a call of `decrypt_all` has come to. Of a version that it has looked
at it keeps the key. -/
inductive Call (κ : Type*) where
  | idle
  | keyed (path : String) (seen : Version κ)
  | missed (path : String)
  | decrypted (path : String) (secrets : Plaintext)
  | storing (path : String) (seen : Version κ) (secrets : Plaintext)

/-- The manager in its surroundings: the clock in nanoseconds, the files, the
cache with one entry a key, and the calls under way. -/
structure State (κ : Type*) where
  now : Nat := 0
  files : String → Option (Version κ)
  cache : List (FileCacheKey × CacheEntry) := []
  calls : Nat → Call κ := fun _ => .idle

/-- One thing that happens. The parts of a call come in any order with the
parts of other calls. `sops` can fail for a reason that is not in the file. -/
inductive Event (κ : Type*) where
  | pass (nanos : Nat)
  | replace (path : String) (file : Option (Version κ))
  | start (call : Nat) (path : String)
  | lookUp (call : Nat)
  | runSops (call : Nat) (failure : Option SecretsError)
  | stat (call : Nat)
  | insert (call : Nat)

inductive Answer where
  | quiet
  | fromCache (secrets : Plaintext)
  | fromSops (secrets : Plaintext)
  | failed (e : SecretsError)

namespace State

def goTo (s : State κ) (call : Nat) (c : Call κ) : State κ :=
  { s with calls := Function.update s.calls call c }

/-- An entry under the same key is replaced. -/
def store (s : State κ) (key : FileCacheKey) (secrets : Plaintext) : State κ :=
  { s with cache := (key, ⟨secrets, s.now⟩) :: s.cache.filter fun entry => entry.1 ≠ key }

end State

namespace SecretsManager
variable (m : SecretsManager κ)

/-- The parts of `decrypt_all`, as far as each runs without a break. A cache
with no lifetime is neither looked into nor filled. -/
def decryptAll (s : State κ) : Event κ → State κ × Answer
  | .pass nanos => ({ s with now := s.now + nanos }, .quiet)
  | .replace path file => ({ s with files := Function.update s.files path file }, .quiet)
  | .start call path =>
    match s.calls call, m.cacheTtl, s.files path with
    | .idle, _ + 1, some v => (s.goTo call (.keyed path v), .quiet)
    | .idle, _, _ => (s.goTo call (.missed path), .quiet)
    | _, _, _ => (s, .quiet)
  | .lookUp call =>
    match s.calls call with
    | .keyed path v =>
      match s.cache.lookup (fileCacheKey path v) with
      | some entry =>
        if s.now - entry.cachedAt < m.cacheTtl then (s.goTo call .idle, .fromCache entry.secrets)
        else (s.goTo call (.missed path), .quiet)
      | none => (s.goTo call (.missed path), .quiet)
    | _ => (s, .quiet)
  | .runSops call failure =>
    match s.calls call with
    | .missed path =>
      match failure, s.files path with
      | some e, _ => (s.goTo call .idle, .failed e)
      | none, none => (s.goTo call .idle, .failed m.noFile)
      | none, some v =>
        match m.decrypt v.content with
        | .error e => (s.goTo call .idle, .failed e)
        | .ok secrets => (s.goTo call (.decrypted path secrets), .quiet)
    | _ => (s, .quiet)
  | .stat call =>
    match s.calls call with
    | .decrypted path secrets =>
      match m.cacheTtl, s.files path with
      | _ + 1, some v => (s.goTo call (.storing path v secrets), .quiet)
      | _, _ => (s.goTo call .idle, .fromSops secrets)
    | _ => (s, .quiet)
  | .insert call =>
    match s.calls call with
    | .storing path v secrets =>
      ((s.store (fileCacheKey path v) secrets).goTo call .idle, .fromSops secrets)
    | _ => (s, .quiet)

def machine : Machine (State κ) (Event κ) Answer where
  step := m.decryptAll

/-- What a call that holds a key takes to be the decryption under it. -/
def fact : Call κ → Option (FileCacheKey × Except SecretsError Plaintext)
  | .keyed path seen => some (fileCacheKey path seen, m.decrypt seen.content)
  | .storing path seen secrets => some (fileCacheKey path seen, .ok secrets)
  | _ => none

/-- The keys that stand for something, and what they stand for. -/
inductive Known (s : State κ) : FileCacheKey → Except SecretsError Plaintext → Prop
  | file {path v} : s.files path = some v → Known s (fileCacheKey path v) (m.decrypt v.content)
  | call {c key result} : m.fact (s.calls c) = some (key, result) → Known s key result
  | cached {key entry} : (key, entry) ∈ s.cache → Known s key (.ok entry.secrets)

/-- A key stands for one decryption. -/
def Coherent (s : State κ) : Prop :=
  ∀ key first second, m.Known s key first → m.Known s key second → first = second

/-- A new version does not get a key that still stands for another
decryption, and the version that `sops` has read is still there when a call
looks for the key of its entry. -/
def Undisturbed (s : State κ) : Event κ → Prop
  | .replace path (some v) => ∀ result, m.Known s (fileCacheKey path v) result → result = m.decrypt v.content
  | .stat call => ∀ path secrets v, s.calls call = .decrypted path secrets → s.files path = some v →
      m.decrypt v.content = .ok secrets
  | _ => True

/-- No entry is older than the lifetime of the cache. -/
def Retained (s : State κ) : Prop :=
  ∀ entry ∈ s.cache, s.now ≤ entry.2.cachedAt + m.cacheTtl

/-- Time that passes does not outlast an entry. -/
def Outlived (s : State κ) : Event κ → Prop
  | .pass nanos => ∀ entry ∈ s.cache, s.now + nanos ≤ entry.2.cachedAt + m.cacheTtl
  | _ => True

variable {m} {s : State κ}

theorem known_goTo {call : Nat} {c : Call κ} {key : FileCacheKey} {result : Except SecretsError Plaintext}
    (before : ∀ key result, m.fact c = some (key, result) → m.Known s key result)
    (after : m.Known (s.goTo call c) key result) : m.Known s key result := by
  cases after with
  | file at_ => exact .file at_
  | @call other _ _ holds =>
    by_cases same : other = call
    · subst same
      exact before key result (by simpa [State.goTo] using holds)
    · exact .call (c := other) (by simpa [State.goTo, same] using holds)
  | cached member => exact .cached member

/-- A call that lets go of its key adds nothing. -/
theorem known_dropped {call : Nat} {c : Call κ} {key : FileCacheKey} {result : Except SecretsError Plaintext}
    (none_ : m.fact c = none) (after : m.Known (s.goTo call c) key result) : m.Known s key result :=
  known_goTo (fun _ _ holds => absurd (none_.symm.trans holds) (by simp)) after

theorem known_store {key at_ : FileCacheKey} {secrets : Plaintext} {result : Except SecretsError Plaintext}
    (before : m.Known s at_ (.ok secrets)) (after : m.Known (s.store at_ secrets) key result) : m.Known s key result := by
  cases after with
  | file at_ => exact .file at_
  | call holds => exact .call holds
  | cached member =>
    rcases List.mem_cons.mp member with same | old
    · obtain ⟨rfl, rfl⟩ := Prod.mk.inj same
      exact before
    · exact .cached (List.mem_filter.mp old).1

/-- What an event can do. -/
inductive Effect (s : State κ) : Event κ → State κ → Prop
  | pass (nanos : Nat) : Effect s (.pass nanos) { s with now := s.now + nanos }
  | replace (path : String) (file : Option (Version κ)) :
      Effect s (.replace path file) { s with files := Function.update s.files path file }
  | keyed {call path v} : s.files path = some v → Effect s (.start call path) (s.goTo call (.keyed path v))
  | storing {call path v secrets} : s.calls call = .decrypted path secrets → s.files path = some v →
      Effect s (.stat call) (s.goTo call (.storing path v secrets))
  | stored {call path v secrets} : s.calls call = .storing path v secrets →
      Effect s (.insert call) ((s.store (fileCacheKey path v) secrets).goTo call .idle)
  | dropped {event call c} : (∀ nanos, event ≠ .pass nanos) → m.fact c = none → Effect s event (s.goTo call c)
  | nothing {event} : (∀ nanos, event ≠ .pass nanos) → Effect s event s

theorem decryptAll_effect (s : State κ) (event : Event κ) : m.Effect s event (m.decryptAll s event).1 := by
  cases event with
  | pass nanos => exact .pass nanos
  | replace path file => exact .replace path file
  | start call path =>
    simp only [decryptAll]
    split
    · next at_ => exact .keyed at_
    · exact .dropped nofun rfl
    · exact .nothing nofun
  | lookUp call =>
    simp only [decryptAll]
    split
    · split
      · split_ifs
        · exact .dropped nofun rfl
        · exact .dropped nofun rfl
      · exact .dropped nofun rfl
    · exact .nothing nofun
  | runSops call failure =>
    simp only [decryptAll]
    split
    · split
      · exact .dropped nofun rfl
      · exact .dropped nofun rfl
      · split
        · exact .dropped nofun rfl
        · exact .dropped nofun rfl
    · exact .nothing nofun
  | stat call =>
    simp only [decryptAll]
    split
    · next running =>
      split
      · next present => exact .storing running present
      · exact .dropped nofun rfl
    · exact .nothing nofun
  | insert call =>
    simp only [decryptAll]
    split
    · next running => exact .stored running
    · exact .nothing nofun

/-- Only a new version of a file brings a new fact. -/
theorem known_step {event : Event κ} {key : FileCacheKey} {result : Except SecretsError Plaintext}
    (undisturbed : m.Undisturbed s event) (after : m.Known (m.decryptAll s event).1 key result) :
    m.Known s key result ∨
      ∃ path v, event = .replace path (some v) ∧ key = fileCacheKey path v ∧ result = m.decrypt v.content := by
  have effect := m.decryptAll_effect s event
  generalize (m.decryptAll s event).1 = next at after effect
  cases effect with
  | pass nanos =>
    left
    cases after with
    | file at_ => exact .file at_
    | call holds => exact .call holds
    | cached member => exact .cached member
  | replace path file =>
    cases after with
    | @file other v at_ =>
      by_cases same : other = path
      · subst same
        have new : file = some v := by simpa using at_
        exact .inr ⟨other, v, by rw [new], rfl, rfl⟩
      · exact .inl (.file (by simpa [same] using at_))
    | call holds => exact .inl (.call holds)
    | cached member => exact .inl (.cached member)
  | @keyed call path v at_ =>
    refine .inl (known_goTo (fun key result holds => ?_) after)
    obtain ⟨rfl, rfl⟩ := Prod.mk.inj (Option.some.inj holds)
    exact .file at_
  | @storing call path v secrets running at_ =>
    have same := undisturbed path secrets v running at_
    refine .inl (known_goTo (fun key result holds => ?_) after)
    obtain ⟨rfl, rfl⟩ := Prod.mk.inj (Option.some.inj holds)
    exact same ▸ .file at_
  | stored running => exact .inl (known_store (.call (by rw [running]; rfl)) (known_dropped rfl after))
  | dropped _ none_ => exact .inl (known_dropped none_ after)
  | nothing _ => exact .inl after

theorem coherent_step {event : Event κ} (coherent : m.Coherent s) (undisturbed : m.Undisturbed s event) :
    m.Coherent (m.decryptAll s event).1 := by
  intro key first second one other
  rcases known_step undisturbed one with old | ⟨path, v, rfl, rfl, rfl⟩
  · rcases known_step undisturbed other with old' | ⟨path, v, rfl, rfl, rfl⟩
    · exact coherent key first second old old'
    · exact undisturbed first old
  · rcases known_step undisturbed other with old' | ⟨path', v', same, same', rfl⟩
    · exact (undisturbed second old').symm
    · obtain ⟨-, same⟩ := Event.replace.inj same
      rw [Option.some.inj same]

/-- Before anything has happened only the files vouch for a key, and a key
names its file. -/
theorem coherent_start (empty : s.cache = []) (idle : ∀ call, s.calls call = .idle) : m.Coherent s := by
  have fromFile : ∀ {key result}, m.Known s key result → ∃ v, s.files key.path = some v ∧ result = m.decrypt v.content := by
    intro key result known
    cases known with
    | file at_ => exact ⟨_, at_, rfl⟩
    | @call c _ _ holds => exact absurd holds (by simp [idle c, fact])
    | cached member => exact absurd member (by simp [empty])
  intro key first second one other
  obtain ⟨v, at_, rfl⟩ := fromFile one
  obtain ⟨w, at', rfl⟩ := fromFile other
  rw [Option.some.inj (at_.symm.trans at')]

theorem fromCache_coherent {call : Nat} {secrets : Plaintext} (coherent : m.Coherent s)
    (hit : (m.decryptAll s (.lookUp call)).2 = .fromCache secrets) :
    ∃ path seen, s.calls call = .keyed path seen ∧ m.decrypt seen.content = .ok secrets := by
  simp only [decryptAll] at hit
  split at hit
  · next path seen running =>
    split at hit
    · next entry found =>
      split_ifs at hit
      obtain rfl := Answer.fromCache.inj hit
      obtain ⟨_, _, split, _⟩ := List.lookup_eq_some_iff.mp found
      have cached : m.Known s (fileCacheKey path seen) (.ok entry.secrets) := .cached (by rw [split]; simp)
      exact ⟨path, seen, running, coherent _ _ _ (.call (by rw [running]; rfl)) cached⟩
    · simp at hit
  · simp at hit

/-- A call that holds a key has looked at the file it is of. -/
theorem keyed_started (idle : ∀ call, s.calls call = .idle) (past : List (Event κ)) {call : Nat} {path : String}
    {seen : Version κ} (running : (m.machine.run s past).calls call = .keyed path seen) :
    ∃ before after, past = before ++ .start call path :: after ∧ (m.machine.run s before).files path = some seen := by
  induction past using List.reverseRecOn with
  | nil => exact absurd running (by simp [idle call])
  | append_singleton earlier event ih =>
    have effect := m.decryptAll_effect (m.machine.run s earlier) event
    rw [Machine.run_concat] at running
    change (m.decryptAll (m.machine.run s earlier) event).1.calls call = _ at running
    have earlier_ (still : (m.machine.run s earlier).calls call = .keyed path seen) :
        ∃ before after, earlier ++ [event] = before ++ Event.start call path :: after ∧
          (m.machine.run s before).files path = some seen := by
      obtain ⟨before, after, rfl, at_⟩ := ih still
      exact ⟨before, after ++ [event], by simp, at_⟩
    generalize (m.decryptAll (m.machine.run s earlier) event).1 = next at running effect
    -- The key is new only in the call that the event starts.
    have moved {t : State κ} {c : Call κ} {other : Nat} (calls : t.calls = (m.machine.run s earlier).calls)
        (after : (t.goTo other c).calls call = .keyed path seen) (differs : c ≠ .keyed path seen ∨ call ≠ other) :
        (m.machine.run s earlier).calls call = .keyed path seen := by
      by_cases same : call = other
      · subst same
        exact absurd (by simpa [State.goTo] using after) (differs.resolve_right (not_not.mpr rfl))
      · simpa [State.goTo, same, calls] using after
    cases effect with
    | pass nanos => exact earlier_ running
    | replace path file => exact earlier_ running
    | @keyed other path' v at_ =>
      by_cases same : call = other
      · subst same
        obtain ⟨rfl, rfl⟩ := Call.keyed.inj (by simpa [State.goTo] using running)
        exact ⟨earlier, [], rfl, at_⟩
      · exact earlier_ (moved rfl running (.inr same))
    | storing _ _ => exact earlier_ (moved rfl running (.inl nofun))
    | stored _ => exact earlier_ (moved rfl running (.inl nofun))
    | dropped _ none_ =>
      refine earlier_ (moved rfl running (.inl ?_))
      rintro rfl
      exact absurd none_ (by simp [fact])
    | nothing _ => exact earlier_ running

/-- Only time makes an entry old. -/
theorem retained_step (event : Event κ) (retained : m.Retained s) :
    m.Retained (m.machine.step s event).1 ↔ m.Outlived s event := by
  have effect := m.decryptAll_effect s event
  change m.Retained (m.decryptAll s event).1 ↔ _
  generalize (m.decryptAll s event).1 = next at effect
  cases effect with
  | pass nanos => exact Iff.rfl
  | replace path file => exact iff_of_true retained trivial
  | keyed _ => exact iff_of_true retained trivial
  | storing _ _ => exact iff_of_true retained trivial
  | stored _ =>
    refine iff_of_true ?_ trivial
    intro entry member
    rcases List.mem_cons.mp member with rfl | old
    · exact Nat.le_add_right _ _
    · exact retained entry (List.mem_filter.mp old).1
  | dropped moves _ =>
    refine iff_of_true retained ?_
    cases event with
    | pass nanos => exact absurd rfl (moves nanos)
    | _ => trivial
  | nothing moves =>
    refine iff_of_true retained ?_
    cases event with
    | pass nanos => exact absurd rfl (moves nanos)
    | _ => trivial

variable (m)

end SecretsManager

/-- A manager that keeps what it has decrypted for five minutes, in seconds. -/
def keeping : SecretsManager String where
  cacheTtl := 300
  decrypt text := .ok [("token", .string text)]

/-- A file with one secret. -/
def oneFile : State String where
  files path := if path = "secrets.json" then some ⟨1, 7, "old"⟩ else none

/-- One call fills the cache, and the next looks into it. -/
def twoCalls : List (Event String) :=
  [.start 0 "secrets.json", .lookUp 0, .runSops 0 none, .stat 0, .insert 0, .pass 10, .start 1 "secrets.json", .lookUp 1]

/-- The file is replaced between the run of `sops` and the second look at the
file, and another call follows. -/
def rotation : List (Event String) :=
  [.start 0 "secrets.json", .lookUp 0, .runSops 0 none, .replace "secrets.json" (some ⟨2, 7, "new"⟩), .stat 0, .insert 0,
    .start 1 "secrets.json"]

end Latchgate.Secrets
