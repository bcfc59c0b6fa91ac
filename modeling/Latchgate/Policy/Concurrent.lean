import Latchgate.Machine.Actor
import Latchgate.Policy.Wildcard

namespace Latchgate

/-- A request that works on the policy document, under the registry it has
loaded. -/
inductive PolicyCall where
  | edit (registry : RegistryStore) (request : AdminRequest)
  | reload

/-- The files under the two names, by the inodes they name, and the text that
the embedded evaluator holds. Every edit writes through the one temporary
name. -/
structure PolicyDisk where
  contents : Nat → String
  data : Nat
  tmp : Option Nat
  unused : Nat
  evaluator : Option String

def PolicyDisk.text (disk : PolicyDisk) : String :=
  disk.contents disk.data

/-- How far a request has come. An edit keeps what it read and what it is to
write. -/
inductive CallState where
  | idle
  | waiting (call : PolicyCall)
  | edited (read new : String)
  | opened (inode : Nat) (read new : String)
  | wrote (read new : String)
  | renamed (new : String)
  | loaded (read : String)
  | finished
  | failed

/-- A write through an open file replaces the characters from the start on. -/
def overwrite (new old : String) : String :=
  String.ofList (new.toList ++ old.toList.drop new.toList.length)

namespace PolicyDisk

/-- An existing file is emptied, and those who have it open share it. -/
def createTmp (disk : PolicyDisk) : PolicyDisk × Nat :=
  let inode := disk.tmp.getD disk.unused
  let contents := Function.update disk.contents inode ""
  ({ disk with contents, tmp := some inode, unused := max disk.unused (inode + 1) }, inode)

def write (inode : Nat) (new : String) (disk : PolicyDisk) : PolicyDisk :=
  { disk with contents := Function.update disk.contents inode (overwrite new (disk.contents inode)) }

end PolicyDisk

section
variable (env : GateEnv)

/-- The text that an edit makes of a text, if it writes one. -/
def editText (registry : RegistryStore) (request : AdminRequest) (text : String) : Except EditError (Option String) := do
  let doc ← (env.parse text).mapError EditError.failed
  (request.edit registry doc).map fun written => written.map env.pretty

/-- What a request makes of the document when nobody else is there. -/
def applyCall (call : Option PolicyCall) (text : String) : Except EditError String :=
  match call with
  | some (.edit registry request) => (editText env registry request text).map fun written => written.getD text
  | some .reload | none => .ok text

/-- A document that the engine does not take is not loaded. -/
def loadEvaluator (text : String) (disk : PolicyDisk) : PolicyDisk :=
  if env.accepts (some text) then { disk with evaluator := some text } else disk

/-- The next step of a request. The answer says whether the request takes
effect in it. -/
def policyActor : Actor PolicyDisk CallState Unit Bool where
  act disk state _ :=
    match state with
    | .waiting (.edit registry request) =>
      match editText env registry request disk.text with
      | .error _ => (disk, .failed, false)
      | .ok none => (disk, .finished, true)
      | .ok (some new) => (disk, .edited disk.text new, false)
    | .waiting .reload => (disk, .loaded disk.text, false)
    | .edited read new =>
      let (opened, inode) := disk.createTmp
      (opened, .opened inode read new, false)
    | .opened inode read new => (disk.write inode new, .wrote read new, false)
    | .wrote _ new =>
      match disk.tmp with
      | none => (disk, .failed, false)
      | some inode => ({ disk with data := inode, tmp := none }, .renamed new, true)
    | .renamed new => (loadEvaluator env new disk, .finished, false)
    | .loaded read => (loadEvaluator env read disk, .finished, true)
    | .idle | .finished | .failed => (disk, state, false)

end

/-- A request holds the temporary file open. -/
def CallState.holdsTmp : CallState → Prop
  | opened _ _ _ | wrote _ _ => True
  | _ => False

/-- What has to hold of a step. The temporary file is nobody else's when it is
opened, the document is still the one that was read when it is replaced, and
what is loaded is what stands on file and is taken by the engine. -/
def SerialGuard (env : GateEnv) (s : PolicyDisk × (Nat → CallState)) (input : Nat × Unit) : Prop :=
  match s.2 input.1 with
  | .edited _ _ => ∀ other, ¬(s.2 other).holdsTmp
  | .wrote read _ => s.1.text = read
  | .renamed text | .loaded text => s.1.text = text ∧ env.accepts (some text) = true
  | .idle | .waiting _ | .opened _ _ _ | .finished | .failed => True

/-- The requests in the order in which they took effect. -/
def effectOrder (past : List ((Nat × Unit) × Bool)) : List Nat :=
  Machine.agents (fun input => some input.1) (· = true) past

/-- The effect of a request is behind it. -/
def CallState.effective : CallState → Prop
  | renamed _ | finished => True
  | _ => False

section
variable (env : GateEnv) (calls : Nat → Option PolicyCall)

/-- What is known of a request from where it has come to. -/
def Known (disk : PolicyDisk) (i : Nat) : CallState → Prop
  | .idle => calls i = none
  | .waiting call => calls i = some call
  | .edited read new => (calls i).isSome ∧ applyCall env (calls i) read = .ok new
  | .opened inode read new => ((calls i).isSome ∧ applyCall env (calls i) read = .ok new) ∧
    disk.tmp = some inode ∧ disk.contents inode = ""
  | .wrote read new => ((calls i).isSome ∧ applyCall env (calls i) read = .ok new) ∧
    ∃ inode, disk.tmp = some inode ∧ disk.contents inode = new
  | .loaded _ => calls i = some .reload
  | .renamed _ | .finished => (calls i).isSome
  | .failed => True

/-- The document on file is what the requests that took effect make of the
first one, in their order. What the evaluator holds is on file, or the request
that replaced the document is about to load it. -/
structure Serial (start : String) (past : List ((Nat × Unit) × Bool)) (s : PolicyDisk × (Nat → CallState)) : Prop where
  order : (effectOrder past).foldlM (fun text i => applyCall env (calls i) text) start = .ok s.1.text
  distinct : (effectOrder past).Nodup
  effective : ∀ i, i ∈ effectOrder past ↔ (s.2 i).effective
  known : ∀ i, Known env calls s.1 i (s.2 i)
  single : ∀ i j, (s.2 i).holdsTmp → (s.2 j).holdsTmp → i = j
  dataOld : s.1.data < s.1.unused
  tmpOld : ∀ inode, s.1.tmp = some inode → inode < s.1.unused ∧ inode ≠ s.1.data
  pending : s.1.evaluator = some s.1.text ∨ ∃ i, s.2 i = .renamed s.1.text

end

section Steps
variable {env : GateEnv} {calls : Nat → Option PolicyCall} {start : String} {past : List ((Nat × Unit) × Bool)}
  {s : PolicyDisk × (Nat → CallState)} {i : Nat}

theorem effectOrder_concat (past : List ((Nat × Unit) × Bool)) (i : Nat) (effect : Bool) :
    effectOrder (past ++ [((i, ()), effect)]) = effectOrder past ++ if effect = true then [i] else [] := by
  unfold effectOrder
  rw [Machine.agents_concat]
  rfl

/-- A request that holds the temporary file keeps what is known of it where
that file is left alone. -/
theorem Known.frame {disk disk' : PolicyDisk} {state : CallState} (known : Known env calls disk i state)
    (alone : state.holdsTmp → disk'.tmp = disk.tmp ∧
      ∀ inode, disk.tmp = some inode → disk'.contents inode = disk.contents inode) :
    Known env calls disk' i state := by
  cases state with
  | opened inode read new =>
    obtain ⟨same, kept⟩ := alone trivial
    obtain ⟨applied, named, empty⟩ := known
    exact ⟨applied, same.trans named, (kept inode named).trans empty⟩
  | wrote read new =>
    obtain ⟨same, kept⟩ := alone trivial
    obtain ⟨applied, inode, named, written⟩ := known
    exact ⟨applied, inode, same.trans named, (kept inode named).trans written⟩
  | _ => exact known

/-- What a step of one request has to show. -/
structure StepShows (env : GateEnv) (calls : Nat → Option PolicyCall) (s : PolicyDisk × (Nat → CallState)) (i : Nat)
    (disk : PolicyDisk) (own : CallState) (effect : Bool) : Prop where
  document : if effect = true then applyCall env (calls i) s.1.text = .ok disk.text else disk.text = s.1.text
  fresh : effect = true → ¬(s.2 i).effective
  effective : own.effective ↔ effect = true ∨ (s.2 i).effective
  known : Known env calls disk i own
  alone : ∀ j, j ≠ i → (s.2 j).holdsTmp →
    disk.tmp = s.1.tmp ∧ ∀ inode, s.1.tmp = some inode → disk.contents inode = s.1.contents inode
  single : own.holdsTmp → (s.2 i).holdsTmp ∨ ∀ j, ¬(s.2 j).holdsTmp
  dataOld : disk.data < disk.unused
  tmpOld : ∀ inode, disk.tmp = some inode → inode < disk.unused ∧ inode ≠ disk.data
  pending : disk.evaluator = some disk.text ∨ own = .renamed disk.text ∨
    ∃ j, j ≠ i ∧ s.2 j = .renamed disk.text

theorem Serial.next {disk : PolicyDisk} {own : CallState} {effect : Bool} (serial : Serial env calls start past s)
    (shows : StepShows env calls s i disk own effect) :
    Serial env calls start (past ++ [((i, ()), effect)]) (disk, Function.update s.2 i own) where
  order := by
    rw [effectOrder_concat, List.foldlM_append, serial.order]
    have document := shows.document
    cases effect with
    | true =>
      rw [if_pos rfl] at document
      show List.foldlM (fun text i => applyCall env (calls i) text) s.1.text [i] = _
      rw [List.foldlM_cons, document]
      rfl
    | false =>
      rw [if_neg (by decide)] at document
      exact congrArg Except.ok document.symm
  distinct := by
    rw [effectOrder_concat]
    cases effect with
    | true =>
      refine List.nodup_append.mpr ⟨serial.distinct, List.nodup_singleton i, ?_⟩
      rintro j before k here rfl
      obtain rfl := List.mem_singleton.mp here
      exact shows.fresh rfl ((serial.effective j).mp before)
    | false => simpa using serial.distinct
  effective j := by
    rw [effectOrder_concat, List.mem_append, serial.effective]
    dsimp only
    by_cases same : j = i
    · subst same
      rw [Function.update_self, shows.effective]
      cases effect <;> simp
    · rw [Function.update_of_ne same]
      cases effect <;> simp [same]
  known j := by
    dsimp only
    by_cases same : j = i
    · subst same
      rw [Function.update_self]
      exact shows.known
    · rw [Function.update_of_ne same]
      exact (serial.known j).frame (shows.alone j same)
  single j k first second := by
    dsimp only at first second
    have others : ∀ {j k}, j ≠ i → (s.2 j).holdsTmp → k = i → own.holdsTmp → False := by
      rintro j k differs holds rfl mine
      rcases shows.single mine with before | free
      · exact differs (serial.single j _ holds before)
      · exact free j holds
    by_cases one : j = i
    · by_cases two : k = i
      · rw [one, two]
      · subst one
        rw [Function.update_self] at first
        rw [Function.update_of_ne two] at second
        exact (others two second rfl first).elim
    · rw [Function.update_of_ne one] at first
      by_cases two : k = i
      · subst two
        rw [Function.update_self] at second
        exact (others one first rfl second).elim
      · rw [Function.update_of_ne two] at second
        exact serial.single j k first second
  dataOld := shows.dataOld
  tmpOld := shows.tmpOld
  pending := by
    rcases shows.pending with held | mine | ⟨j, differs, theirs⟩
    · exact .inl held
    · exact .inr ⟨i, (Function.update_self ..).trans mine⟩
    · exact .inr ⟨j, (Function.update_of_ne differs ..).trans theirs⟩

/-- Nobody else's pending load is touched by a request that has none. -/
theorem Serial.pending_others (serial : Serial env calls start past s) (none : ∀ text, s.2 i ≠ .renamed text) :
    s.1.evaluator = some s.1.text ∨ ∃ j, j ≠ i ∧ s.2 j = .renamed s.1.text := by
  rcases serial.pending with held | ⟨j, theirs⟩
  · exact .inl held
  · refine .inr ⟨j, ?_, theirs⟩
    rintro rfl
    exact none _ theirs

/-- A step that leaves the files and the evaluator. -/
theorem Serial.shows_same (serial : Serial env calls start past s) {own : CallState} {effect : Bool}
    (none : ∀ text, s.2 i ≠ .renamed text)
    (applied : effect = true → applyCall env (calls i) s.1.text = .ok s.1.text) (fresh : ¬(s.2 i).effective)
    (effective : own.effective ↔ effect = true) (known : Known env calls s.1 i own) (free : ¬own.holdsTmp) :
    StepShows env calls s i s.1 own effect where
  document := by
    split_ifs with yes
    · exact applied yes
    · rfl
  fresh _ := fresh
  effective := by
    rw [effective]
    simp [fresh]
  known := known
  alone _ _ _ := ⟨rfl, fun _ _ => rfl⟩
  single holds := absurd holds free
  dataOld := serial.dataOld
  tmpOld := serial.tmpOld
  pending := (serial.pending_others none).imp_right .inr

theorem shows_waiting (serial : Serial env calls start past s) {call : PolicyCall} (state : s.2 i = .waiting call) :
    let (disk, own, effect) := (policyActor env).act s.1 (s.2 i) ()
    StepShows env calls s i disk own effect := by
  have known := serial.known i
  rw [state] at known
  have called : calls i = some call := known
  have none : ∀ text, s.2 i ≠ .renamed text := by simp [state]
  have fresh : ¬(s.2 i).effective := by simp [state, CallState.effective]
  rw [state]
  cases call with
  | reload =>
    simp only [policyActor]
    exact serial.shows_same none (fun yes => by cases yes) fresh (by simp [CallState.effective]) called id
  | edit registry request =>
    have applied : applyCall env (calls i) s.1.text =
        (editText env registry request s.1.text).map fun written => written.getD s.1.text := by
      rw [called]
      rfl
    show StepShows env calls s i _ _ _
    cases edited : editText env registry request s.1.text with
    | error e =>
      simp only [policyActor, edited]
      exact serial.shows_same none (fun yes => by cases yes) fresh (by simp [CallState.effective]) trivial id
    | ok written =>
      rw [edited] at applied
      cases written with
      | none =>
        simp only [policyActor, edited]
        exact serial.shows_same none (fun _ => applied) fresh (by simp [CallState.effective]) (by simp [Known, called]) id
      | some new =>
        simp only [policyActor, edited]
        exact serial.shows_same none (fun yes => by cases yes) fresh (by simp [CallState.effective])
          ⟨by simp [called], applied⟩ id

theorem overwrite_empty (new : String) : overwrite new "" = new := by
  simp [overwrite]

theorem shows_edited (serial : Serial env calls start past s) {read new : String} (state : s.2 i = .edited read new)
    (free : ∀ other, ¬(s.2 other).holdsTmp) :
    let (disk, own, effect) := (policyActor env).act s.1 (s.2 i) ()
    StepShows env calls s i disk own effect := by
  have known := serial.known i
  rw [state] at known
  have apart : s.1.tmp.getD s.1.unused ≠ s.1.data := by
    cases named : s.1.tmp with
    | none =>
      have := serial.dataOld
      simp only [Option.getD_none]
      omega
    | some inode => exact (serial.tmpOld inode named).2
  have text : s.1.createTmp.1.text = s.1.text := Function.update_of_ne (Ne.symm apart) ..
  have dataOld := serial.dataOld
  rw [state]
  show StepShows env calls s i s.1.createTmp.1 (.opened s.1.createTmp.2 read new) false
  refine ⟨by simpa using text, by simp, by simp [CallState.effective, state], ⟨known, rfl, Function.update_self ..⟩,
    fun j _ holds => absurd holds (free j), fun _ => .inr free, ?_, ?_, ?_⟩
  · exact lt_of_lt_of_le dataOld (le_max_left ..)
  · rintro inode ⟨⟩
    exact ⟨lt_of_lt_of_le (Nat.lt_succ_self _) (le_max_right ..), apart⟩
  · rw [text]
    exact (serial.pending_others (by simp [state])).imp_right .inr

theorem shows_opened (serial : Serial env calls start past s) {inode : Nat} {read new : String}
    (state : s.2 i = .opened inode read new) :
    let (disk, own, effect) := (policyActor env).act s.1 (s.2 i) ()
    StepShows env calls s i disk own effect := by
  have known := serial.known i
  rw [state] at known
  obtain ⟨applied, named, empty⟩ := known
  have holds : (s.2 i).holdsTmp := by
    rw [state]
    trivial
  have text : (s.1.write inode new).text = s.1.text :=
    Function.update_of_ne (Ne.symm (serial.tmpOld inode named).2) ..
  have written : (s.1.write inode new).contents inode = new := by
    show Function.update _ _ _ _ = _
    rw [Function.update_self, empty, overwrite_empty]
  rw [state]
  show StepShows env calls s i (s.1.write inode new) (.wrote read new) false
  refine ⟨by simpa using text, by simp, by simp [CallState.effective, state], ⟨applied, inode, named, written⟩,
    fun j differs theirs => absurd (serial.single j i theirs holds) differs, fun _ => .inl holds, serial.dataOld,
    serial.tmpOld, ?_⟩
  rw [text]
  exact (serial.pending_others (by simp [state])).imp_right .inr

theorem shows_wrote (serial : Serial env calls start past s) {read new : String} (state : s.2 i = .wrote read new)
    (unchanged : s.1.text = read) :
    let (disk, own, effect) := (policyActor env).act s.1 (s.2 i) ()
    StepShows env calls s i disk own effect := by
  have known := serial.known i
  rw [state] at known
  obtain ⟨⟨called, applied⟩, inode, named, written⟩ := known
  have holds : (s.2 i).holdsTmp := by
    rw [state]
    trivial
  have text : ({ s.1 with data := inode, tmp := none } : PolicyDisk).text = new := written
  rw [state]
  simp only [policyActor, named]
  refine ⟨?_, fun _ => by simp [state, CallState.effective], by simp [CallState.effective], called,
    fun j differs theirs => absurd (serial.single j i theirs holds) differs, fun mine => mine.elim,
    (serial.tmpOld inode named).1, by simp, ?_⟩
  · rw [if_pos rfl, unchanged, text]
    exact applied
  · rw [text]
    exact .inr (.inl rfl)

/-- Loading what stands on file and is taken. -/
theorem shows_load (serial : Serial env calls start past s) {new : String} {effect : Bool}
    (current : s.1.text = new) (taken : env.accepts (some new) = true) (called : (calls i).isSome)
    (applied : effect = true → applyCall env (calls i) s.1.text = .ok s.1.text)
    (fresh : effect = true → ¬(s.2 i).effective) (effective : effect = true ∨ (s.2 i).effective) :
    StepShows env calls s i (loadEvaluator env new s.1) .finished effect := by
  have loaded : loadEvaluator env new s.1 = { s.1 with evaluator := some new } := if_pos taken
  rw [loaded]
  refine ⟨?_, fresh, iff_of_true trivial effective, called, fun _ _ _ => ⟨rfl, fun _ _ => rfl⟩,
    fun mine => mine.elim, serial.dataOld, serial.tmpOld, .inl (congrArg some current.symm)⟩
  split_ifs with yes
  · exact applied yes
  · rfl

theorem step_shows (serial : Serial env calls start past s) (guarded : SerialGuard env s (i, ())) :
    let (disk, own, effect) := (policyActor env).act s.1 (s.2 i) ()
    StepShows env calls s i disk own effect := by
  have known := serial.known i
  unfold SerialGuard at guarded
  cases state : s.2 i with
  | waiting call => exact state ▸ shows_waiting serial state
  | edited read new =>
    simp only [state] at guarded
    exact state ▸ shows_edited serial state guarded
  | opened inode read new => exact state ▸ shows_opened serial state
  | wrote read new =>
    simp only [state] at guarded
    exact state ▸ shows_wrote serial state guarded
  | renamed new =>
    simp only [state] at guarded
    rw [state] at known
    exact shows_load serial guarded.1 guarded.2 known (fun no => by cases no) (fun no => by cases no)
      (.inr (by simp [state, CallState.effective]))
  | loaded read =>
    simp only [state] at guarded
    rw [state] at known
    have called : calls i = some .reload := known
    exact shows_load serial guarded.1 guarded.2 (by simp [called]) (fun _ => by rw [called]; rfl)
      (fun _ => by simp [state, CallState.effective]) (.inl rfl)
  | idle =>
    rw [state] at known
    show StepShows env calls s i s.1 .idle false
    exact serial.shows_same (by simp [state]) (fun no => by cases no) (by simp [state, CallState.effective])
      (by simp [CallState.effective]) known id
  | failed =>
    show StepShows env calls s i s.1 .failed false
    exact serial.shows_same (by simp [state]) (fun no => by cases no) (by simp [state, CallState.effective])
      (by simp [CallState.effective]) trivial id
  | finished =>
    rw [state] at known
    show StepShows env calls s i s.1 .finished false
    refine ⟨by simp, fun no => absurd no (by decide), by simp [state], known, fun _ _ _ => ⟨rfl, fun _ _ => rfl⟩,
      fun mine => mine.elim, serial.dataOld, serial.tmpOld, (serial.pending_others (by simp [state])).imp_right .inr⟩

end Steps

/-- Requests that have not begun, on a document that the evaluator holds. -/
structure PolicyStart (calls : Nat → Option PolicyCall) (s : PolicyDisk × (Nat → CallState)) : Prop where
  waiting : ∀ i, s.2 i = match calls i with
    | some call => .waiting call
    | none => .idle
  held : s.1.evaluator = some s.1.text
  dataOld : s.1.data < s.1.unused
  tmpOld : ∀ inode, s.1.tmp = some inode → inode < s.1.unused ∧ inode ≠ s.1.data

theorem PolicyStart.serial {env : GateEnv} {calls : Nat → Option PolicyCall} {s : PolicyDisk × (Nat → CallState)}
    (start : PolicyStart calls s) : Serial env calls s.1.text [] s where
  order := rfl
  distinct := List.nodup_nil
  effective i := by
    rw [start.waiting i]
    cases calls i <;> simp [CallState.effective, effectOrder]
  known i := by
    rw [start.waiting i]
    cases called : calls i with
    | none => exact called
    | some call => exact called
  single i j holds _ := by
    rw [start.waiting i] at holds
    cases called : calls i <;> simp [called, CallState.holdsTmp] at holds
  dataOld := start.dataOld
  tmpOld := start.tmpOld
  pending := .inl start.held

section Samples
open PolicyData

/-- One file, which the evaluator holds, and these requests. -/
def policyStart (text : String) (calls : Nat → Option PolicyCall) : PolicyDisk × (Nat → CallState) :=
  (⟨fun _ => text, 0, none, 1, some text⟩, fun i => match calls i with
    | some call => .waiting call
    | none => .idle)

theorem policyStart_starts (text : String) (calls : Nat → Option PolicyCall) : PolicyStart calls (policyStart text calls) :=
  ⟨fun _ => rfl, rfl, Nat.zero_lt_one, by simp [policyStart]⟩

def twoCalls (first second : PolicyCall) : Nat → Option PolicyCall
  | 0 => some first
  | 1 => some second
  | _ => none

/-- What is left to do for an edit that has read, when the temporary file is
not there. -/
theorem run_edited {env : GateEnv} {s : PolicyDisk × (Nat → CallState)} {i : Nat} {read new : String}
    (state : s.2 i = .edited read new) (free : s.1.tmp = none) (taken : env.accepts (some new) = true) :
    ∃ disk, (policyActor env).machine.run s (List.replicate 4 (i, ())) = (disk, Function.update s.2 i .finished) ∧
      disk.text = new ∧ disk.tmp = none ∧ disk.evaluator = some new := by
  obtain ⟨disk, states⟩ := s
  dsimp only at state free
  refine ⟨_, Prod.ext rfl ?_, ?_, ?_, ?_⟩
  · simp only [List.replicate, Machine.run, Actor.machine, policyActor, state, PolicyDisk.createTmp, PolicyDisk.write,
      Function.update_self, Function.update_idem]
  all_goals
    simp only [List.replicate, Machine.run, Actor.machine, policyActor, state, PolicyDisk.createTmp, PolicyDisk.write,
      Function.update_self, loadEvaluator, taken, if_true, PolicyDisk.text, overwrite_empty]

/-- The agent may read and write; a revocation and an allowlisted pair. -/
def revocation : PolicyCall :=
  .edit twoActions (.revoke "agent" ["http_write"])

def pairing : PolicyCall :=
  .edit twoActions (.allow "http_read" "agent")

def revokedDoc : Json :=
  .object [("acl", .object [
      ("*", .object [("allowed_actions", textArray ["http_read"]), ("allowed_sinks", textArray ["http_read"])]),
      ("agent", .object (agentFields ["http_read"]))]),
    ("policy_version", .string "v1-1")]

def pairedDoc : Json :=
  .object [("acl", .object [
      ("*", .object [("allowed_actions", textArray ["http_read"]), ("allowed_sinks", textArray ["http_read"])]),
      ("agent", .object (agentFields ["http_read", "http_write"]))]),
    ("latchgate", .object [("allowlist", .object [("http_read", .object [("agent", .bool true)])])]),
    ("policy_version", .string "v1")]

def bothDoc : Json :=
  .object [("acl", .object [
      ("*", .object [("allowed_actions", textArray ["http_read"]), ("allowed_sinks", textArray ["http_read"])]),
      ("agent", .object (agentFields ["http_read"]))]),
    ("latchgate", .object [("allowlist", .object [("http_read", .object [("agent", .bool true)])])]),
    ("policy_version", .string "v1-1")]

def fourDocs : List Json :=
  [agentMay ["http_read", "http_write"], revokedDoc, pairedDoc, bothDoc]

theorem editText_wire {docs : List Json} {doc after : Json} {registry : RegistryStore} {request : AdminRequest}
    (member : doc ∈ docs) (done : request.edit registry doc = .ok (some after)) :
    editText (wireEnv docs) registry request doc.toCompactString = .ok (some after.toCompactString) := by
  simp only [editText, Except.bind_eq_ok, Except.mapError_eq_ok]
  exact ⟨doc, wireEnv_parse_pretty member, by rw [done]; rfl⟩

theorem applyCall_wire {docs : List Json} {doc after : Json} {registry : RegistryStore} {request : AdminRequest}
    (member : doc ∈ docs) (done : request.edit registry doc = .ok (some after)) :
    applyCall (wireEnv docs) (some (.edit registry request)) doc.toCompactString = .ok after.toCompactString := by
  rw [applyCall, editText_wire member done]
  rfl

theorem act_waiting {env : GateEnv} {disk : PolicyDisk} {registry : RegistryStore} {request : AdminRequest} {new : String}
    (edited : editText env registry request disk.text = .ok (some new)) :
    (policyActor env).act disk (.waiting (.edit registry request)) () = (disk, .edited disk.text new, false) := by
  simp only [policyActor, edited]

/-- Both requests read, the revocation is written and loaded, and then the pair
is, on top of what was read. -/
def lostSteps : List (Nat × Unit) :=
  [(1, ()), (0, ())] ++ (List.replicate 4 (0, ()) ++ List.replicate 4 (1, ()))

theorem run_lostSteps : ∃ disk : PolicyDisk,
    (policyActor (wireEnv fourDocs)).machine.run
        (policyStart (agentMay ["http_read", "http_write"]).toCompactString (twoCalls revocation pairing)) lostSteps =
      (disk, fun i => if i = 0 ∨ i = 1 then .finished else .idle) ∧ disk.text = pairedDoc.toCompactString := by
  have paired := @editText_wire fourDocs _ pairedDoc twoActions (.allow "http_read" "agent") List.mem_cons_self rfl
  have revoked := @editText_wire fourDocs _ revokedDoc twoActions (.revoke "agent" ["http_write"]) List.mem_cons_self rfl
  generalize (agentMay ["http_read", "http_write"]).toCompactString = text at *
  let read : Nat → CallState := Function.update (Function.update (policyStart text (twoCalls revocation pairing)).2 1
    (.edited text pairedDoc.toCompactString)) 0 (.edited text revokedDoc.toCompactString)
  have begun : (policyActor (wireEnv fourDocs)).machine.run (policyStart text (twoCalls revocation pairing))
      [(1, ()), (0, ())] = ((policyStart text (twoCalls revocation pairing)).1, read) := by
    have readPair := @act_waiting _ (policyStart text (twoCalls revocation pairing)).1 _ _ _ paired
    have readRevocation := @act_waiting _ (policyStart text (twoCalls revocation pairing)).1 _ _ _ revoked
    have atOne : (policyStart text (twoCalls revocation pairing)).2 1 =
      .waiting (.edit twoActions (.allow "http_read" "agent")) := rfl
    have atZero : (policyStart text (twoCalls revocation pairing)).2 0 =
      .waiting (.edit twoActions (.revoke "agent" ["http_write"])) := rfl
    simp only [Machine.run, Actor.machine, atOne, readPair, Function.update_of_ne Nat.zero_ne_one, atZero, readRevocation,
      read]
    rfl
  obtain ⟨first, ran, -, free, -⟩ := @run_edited (wireEnv fourDocs)
    ((policyStart text (twoCalls revocation pairing)).1, read) 0 text revokedDoc.toCompactString rfl rfl rfl
  obtain ⟨second, done, final, -, -⟩ := @run_edited (wireEnv fourDocs)
    (first, Function.update read 0 .finished) 1 text pairedDoc.toCompactString rfl free rfl
  refine ⟨second, ?_, final⟩
  rw [lostSteps, Machine.run_append, begun, Machine.run_append, ran, done]
  refine Prod.ext rfl (funext fun i => ?_)
  rcases i with _ | _ | i
  · rfl
  · rfl
  · rfl

end Samples

end Latchgate
