import Latchgate.Core.Domain
import Latchgate.Core.FsPath
import Latchgate.Ledger.LearnedAllowlist
import Latchgate.Machine.Run
import Mathlib.Data.Finset.Card
import Mathlib.Data.Finset.Dedup

namespace Latchgate
open LearnedTable

/-! What the store does with learned domains and paths. -/

inductive LearnedKind where
  | domain
  | path
  deriving DecidableEq

def maxLearnedPathsPerAction : Nat := 50

namespace LearnedKind

/-- The check of a new entry, and the form in which it is stored. A path is
stored as it is. -/
def accept (allowUnsafeWildcard : Bool) (value : String) : LearnedKind → Except LedgerError String
  | .domain => (validateDomainEntry value allowUnsafeWildcard).mapError fun e => .io e.display
  | .path => do
    (FsPath.validatePathGlobEntry value).mapError fun e => .io e.display
    .ok value

def maxPerAction : LearnedKind → Option Nat
  | .domain => none
  | .path => some maxLearnedPathsPerAction

def addLearned (kind : LearnedKind) (now actionId value addedBy : String) (source : EntrySource)
    (approvalId : Option String) (allowUnsafeWildcard : Bool) (rows : List EntryRow) :
    Except LedgerError Bool × List EntryRow :=
  match kind.accept allowUnsafeWildcard value with
  | .error e => (.error e, rows)
  | .ok entry => insertEntry now { actionId, value := entry, addedBy, source := source.asStr, approvalId,
                                   maxPerAction := kind.maxPerAction } rows

end LearnedKind

def addLearnedDomain (now actionId domain addedBy : String) (source : EntrySource) (approvalId : Option String)
    (allowUnsafeWildcard : Bool) : List EntryRow → Except LedgerError Bool × List EntryRow :=
  LearnedKind.domain.addLearned now actionId domain addedBy source approvalId allowUnsafeWildcard

def addLearnedPath (now actionId pathGlob addedBy : String) (source : EntrySource) (approvalId : Option String) :
    List EntryRow → Except LedgerError Bool × List EntryRow :=
  LearnedKind.path.addLearned now actionId pathGlob addedBy source approvalId false

def removeLearnedDomain (actionId domain : String) : List EntryRow → Bool × List EntryRow :=
  deleteEntry actionId domain

def removeLearnedPath (actionId pathGlob : String) : List EntryRow → Bool × List EntryRow :=
  deleteEntry actionId pathGlob

def isDomainLearned (actionId domain : String) : List EntryRow → Bool :=
  isEntryPresent actionId domain

def isPathLearned (actionId pathGlob : String) : List EntryRow → Bool :=
  isEntryPresent actionId pathGlob

namespace LearnedSets

/-- The calls on the entries of one kind. -/
inductive Op where
  | add (now actionId value addedBy : String) (source : EntrySource) (approvalId : Option String)
      (allowUnsafeWildcard : Bool)
  | remove (actionId value : String)
  | isLearned (actionId value : String)
  | clear (actionId : String)
  | list (actionId : Option String)
  | get (actionId : String)

inductive Answer where
  | added (result : Except LedgerError Bool)
  | flag (result : Bool)
  | cleared (count : Nat)
  | listed (rows : List EntryRow)
  | got (actionId : String) (values : List String)

def perform (kind : LearnedKind) (rows : List EntryRow) (op : Op) : List EntryRow × Answer :=
  match op with
  | .add now actionId value addedBy source approvalId allowUnsafeWildcard =>
    let (result, rows) := match kind with
      | .domain => addLearnedDomain now actionId value addedBy source approvalId allowUnsafeWildcard rows
      | .path => addLearnedPath now actionId value addedBy source approvalId rows
    (rows, .added result)
  | .remove actionId value =>
    let (result, rows) := match kind with
      | .domain => removeLearnedDomain actionId value rows
      | .path => removeLearnedPath actionId value rows
    (rows, .flag result)
  | .isLearned actionId value => (rows, .flag (match kind with
    | .domain => isDomainLearned actionId value rows
    | .path => isPathLearned actionId value rows))
  | .clear actionId =>
    let (count, rows) := clearForAction actionId rows
    (rows, .cleared count)
  | .list actionId => (rows, .listed (listEntries actionId rows))
  | .get actionId => (rows, .got actionId (getValuesForAction actionId rows))

/-- The action that a call is about. -/
def Op.actionId : Op → Option String
  | .add _ actionId _ _ _ _ _ => some actionId
  | .remove actionId _ => some actionId
  | .isLearned actionId _ => some actionId
  | .clear actionId => some actionId
  | .list actionId => actionId
  | .get actionId => some actionId

def table (kind : LearnedKind) : Machine (List EntryRow) Op Answer where
  step := perform kind

/-! One set of entries in normal form for each action. -/

/-- What an answer says about the set. -/
inductive View where
  | refused
  | flag (result : Bool)
  | cleared (count : Nat)
  | listed (entries : Multiset (String × String))

def Answer.view : Answer → View
  | .added (.error _) => .refused
  | .added (.ok result) => .flag result
  | .flag result => .flag result
  | .cleared count => .cleared count
  | .listed rows => .listed (rows.map EntryRow.key)
  | .got actionId values => .listed (values.map fun value => (actionId, value))

/-- The form under which a spelling is stored, if `add` accepts it at all. -/
def normalForm (kind : LearnedKind) (value : String) : String :=
  match kind.accept true value with
  | .ok entry => entry
  | .error _ => value

def forAction (actionId : String) (set : Finset (String × String)) : Finset (String × String) :=
  set.filter fun entry => entry.1 = actionId

/-- A kind with a cap takes a new entry while there are fewer. -/
def hasRoom (kind : LearnedKind) (count : Nat) : Bool :=
  match kind.maxPerAction with
  | none => true
  | some cap => count < cap

def performOnSet (kind : LearnedKind) (set : Finset (String × String)) (op : Op) : Finset (String × String) × View :=
  match op with
  | .add _ actionId value _ _ _ allowUnsafeWildcard =>
    match kind.accept allowUnsafeWildcard value with
    | .error _ => (set, .refused)
    | .ok entry =>
      if (actionId, entry) ∈ set then (set, .flag false)
      else if hasRoom kind (forAction actionId set).card then (insert (actionId, entry) set, .flag true)
      else (set, .refused)
  | .remove actionId value =>
    let entry := (actionId, normalForm kind value)
    (set.erase entry, .flag (entry ∈ set))
  | .isLearned actionId value => (set, .flag ((actionId, normalForm kind value) ∈ set))
  | .clear actionId => (set \ forAction actionId set, .cleared (forAction actionId set).card)
  | .list none => (set, .listed set.val)
  | .list (some actionId) => (set, .listed (forAction actionId set).val)
  | .get actionId => (set, .listed (forAction actionId set).val)

def sets (kind : LearnedKind) : Machine (Finset (String × String)) Op View where
  step := performOnSet kind

/-- An entry is not added again when the action is at its cap, and an entry is
removed and looked up under its normal form. -/
def Plain (kind : LearnedKind) (rows : List EntryRow) : Op → Prop
  | .add _ actionId value _ _ _ allowUnsafeWildcard =>
    ∀ entry, kind.accept allowUnsafeWildcard value = .ok entry → isEntryPresent actionId entry rows = true →
      hasRoom kind (countForAction actionId rows) = true
  | .remove _ value => normalForm kind value = value
  | .isLearned _ value => normalForm kind value = value
  | _ => True

/-! The rows of a table as a set. -/

theorem accept_true {kind : LearnedKind} {allowUnsafeWildcard : Bool} {value entry : String}
    (accepted : kind.accept allowUnsafeWildcard value = .ok entry) : kind.accept true value = .ok entry := by
  cases kind with
  | path => exact accepted
  | domain => exact Except.mapError_eq_ok.2 (validateDomainEntry_anyWildcard (Except.mapError_eq_ok.1 accepted))

theorem normalForm_of_accepted {kind : LearnedKind} {allowUnsafeWildcard : Bool} {value entry : String}
    (accepted : kind.accept allowUnsafeWildcard value = .ok entry) : normalForm kind value = entry := by
  rw [normalForm, accept_true accepted]

/-- The rows are the entries of the set, each once. -/
structure Represents (rows : List EntryRow) (set : Finset (String × String)) : Prop where
  nodup : (rows.map EntryRow.key).Nodup
  mem : ∀ entry, entry ∈ set ↔ entry ∈ rows.map EntryRow.key

variable {rows : List EntryRow} {set : Finset (String × String)}

theorem Represents.val (represents : Represents rows set) : (rows.map EntryRow.key : Multiset (String × String)) = set.val := by
  refine (Multiset.Nodup.ext (Multiset.coe_nodup.mpr represents.nodup) set.nodup).mpr fun entry => ?_
  rw [Multiset.mem_coe, Finset.mem_val, represents.mem]

theorem Represents.isEntryPresent (represents : Represents rows set) (actionId value : String) :
    isEntryPresent actionId value rows = decide ((actionId, value) ∈ set) := by
  rw [Bool.eq_iff_iff, decide_eq_true_eq, represents.mem, LearnedTable.isEntryPresent]
  simp

theorem Represents.filter (represents : Represents rows set) (keep : String × String → Bool) :
    Represents (rows.filter fun row => keep row.key) (set.filter fun entry => keep entry = true) := by
  have same : (rows.filter fun row => keep row.key).map EntryRow.key = (rows.map EntryRow.key).filter keep := by
    rw [List.filter_map]
    rfl
  refine ⟨same ▸ represents.nodup.filter _, fun entry => ?_⟩
  rw [same, Finset.mem_filter, List.mem_filter, represents.mem]

theorem Represents.card (represents : Represents rows set) : rows.length = set.card := by
  rw [Finset.card, ← represents.val, Multiset.coe_card, List.length_map]

theorem Represents.forAction (represents : Represents rows set) (actionId : String) :
    Represents (rows.filter fun row => row.actionId = actionId) (forAction actionId set) := by
  have filtered := represents.filter fun entry => entry.1 = actionId
  have same : LearnedSets.forAction actionId set = set.filter fun entry => decide (entry.1 = actionId) = true := by
    ext entry
    simp [LearnedSets.forAction]
  exact same ▸ filtered

theorem Represents.countForAction (represents : Represents rows set) (actionId : String) :
    countForAction actionId rows = (LearnedSets.forAction actionId set).card := by
  rw [LearnedTable.countForAction, List.countP_eq_length_filter, (represents.forAction actionId).card]

theorem Represents.insert (represents : Represents rows set) {row : EntryRow} (absent : row.key ∉ set) :
    Represents (rows ++ [row]) (insert row.key set) := by
  have fresh : row.key ∉ rows.map EntryRow.key := fun member => absent ((represents.mem _).mpr member)
  refine ⟨?_, fun entry => ?_⟩
  · rw [List.map_append]
    refine List.nodup_append.mpr ⟨represents.nodup, List.nodup_singleton _, ?_⟩
    rintro entry member _ single rfl
    exact fresh (List.mem_singleton.mp single ▸ member)
  · rw [Finset.mem_insert, List.map_append, List.mem_append, represents.mem]
    simp [or_comm]

theorem Represents.delete (represents : Represents rows set) (actionId value : String) :
    Represents (deleteEntry actionId value rows).2 (set.erase (actionId, value)) := by
  have filtered := represents.filter fun entry => entry ≠ (actionId, value)
  have same : set.erase (actionId, value) = set.filter fun entry => decide (entry ≠ (actionId, value)) = true := by
    ext entry
    simp [and_comm]
  exact same ▸ filtered

theorem Represents.clear (represents : Represents rows set) (actionId : String) :
    Represents (clearForAction actionId rows).2 (set \ LearnedSets.forAction actionId set) := by
  have filtered := represents.filter fun entry => entry.1 ≠ actionId
  have same : set \ LearnedSets.forAction actionId set = set.filter fun entry => decide (entry.1 ≠ actionId) = true := by
    ext entry
    simp only [LearnedSets.forAction, Finset.mem_sdiff, Finset.mem_filter, decide_eq_true_eq]
    tauto
  exact same ▸ filtered

/-- The cap refuses an entry when there is no room. -/
theorem insertEntry_room (kind : LearnedKind) (count : Nat) :
    (kind.maxPerAction.filter fun cap => decide (cap ≤ count)) = none ↔ hasRoom kind count = true := by
  unfold hasRoom
  cases kind.maxPerAction with
  | none => simp
  | some cap => simp [Option.filter]

/-- Adding an entry does to the table what it does to the set. -/
theorem Represents.add (represents : Represents rows set) {kind : LearnedKind} {allowUnsafeWildcard : Bool}
    {value : String} (now actionId addedBy : String) (source : EntrySource) (approvalId : Option String)
    (plain : ∀ entry, kind.accept allowUnsafeWildcard value = .ok entry → LearnedTable.isEntryPresent actionId entry rows = true →
      hasRoom kind (LearnedTable.countForAction actionId rows) = true) :
    let added := kind.addLearned now actionId value addedBy source approvalId allowUnsafeWildcard rows
    let op := Op.add now actionId value addedBy source approvalId allowUnsafeWildcard
    (Answer.added added.1).view = (performOnSet kind set op).2 ∧ Represents added.2 (performOnSet kind set op).1 := by
  intro added op
  simp only [added, op, LearnedKind.addLearned, performOnSet]
  cases accepted : kind.accept allowUnsafeWildcard value with
  | error e => exact ⟨rfl, represents⟩
  | ok entry =>
    have present := represents.isEntryPresent actionId entry
    have allowed := plain entry accepted
    rw [represents.countForAction] at allowed
    by_cases member : (actionId, entry) ∈ set
    · have room := allowed (by rw [present, decide_eq_true member])
      have within := (insertEntry_room kind _).mpr room
      simp only [insertEntry, represents.countForAction, within, present, member, decide_true, if_true]
      exact ⟨rfl, represents⟩
    · by_cases room : hasRoom kind (LearnedSets.forAction actionId set).card = true
      · have within := (insertEntry_room kind _).mpr room
        simp only [insertEntry, represents.countForAction, within, present, member, decide_false, if_false, room, if_true,
          Bool.false_eq_true]
        exact ⟨rfl, represents.insert member⟩
      · obtain ⟨cap, full⟩ := Option.ne_none_iff_exists'.mp fun within => room ((insertEntry_room kind _).mp within)
        simp only [insertEntry, represents.countForAction, full, member, if_false, room, Bool.false_eq_true]
        exact ⟨rfl, represents⟩

/-- One call does to the table what it does to the set. -/
theorem Represents.perform (represents : Represents rows set) {kind : LearnedKind} {op : Op} (plain : Plain kind rows op) :
    (LearnedSets.perform kind rows op).2.view = (performOnSet kind set op).2 ∧
      Represents (LearnedSets.perform kind rows op).1 (performOnSet kind set op).1 := by
  cases op with
  | add now actionId value addedBy source approvalId allowUnsafeWildcard =>
    cases kind with
    | domain => exact represents.add now actionId addedBy source approvalId plain
    | path => exact represents.add now actionId addedBy source approvalId plain
  | remove actionId value =>
    have same : normalForm kind value = value := plain
    have removed := represents.delete actionId value
    have answered := represents.isEntryPresent actionId value
    cases kind with
    | domain =>
      simp only [performOnSet, same]
      exact ⟨congrArg View.flag answered, removed⟩
    | path =>
      simp only [performOnSet, same]
      exact ⟨congrArg View.flag answered, removed⟩
  | isLearned actionId value =>
    have same : normalForm kind value = value := plain
    have answered := represents.isEntryPresent actionId value
    cases kind with
    | domain =>
      simp only [performOnSet, same]
      exact ⟨congrArg View.flag answered, represents⟩
    | path =>
      simp only [performOnSet, same]
      exact ⟨congrArg View.flag answered, represents⟩
  | clear actionId => exact ⟨congrArg View.cleared (represents.countForAction actionId), represents.clear actionId⟩
  | list actionId =>
    cases actionId with
    | none =>
      refine ⟨congrArg View.listed ((Multiset.coe_eq_coe.mpr ?_).trans represents.val), represents⟩
      exact (List.mergeSort_perm _ _).map _
    | some actionId =>
      refine ⟨congrArg View.listed ((Multiset.coe_eq_coe.mpr ?_).trans (represents.forAction actionId).val), represents⟩
      exact (List.mergeSort_perm _ _).map _
  | get actionId =>
    refine ⟨congrArg View.listed ((Multiset.coe_eq_coe.mpr ?_).trans (represents.forAction actionId).val), represents⟩
    refine ((List.mergeSort_perm _ _).map _).trans ?_
    rw [List.map_map]
    refine List.Perm.of_eq (List.map_congr_left fun row member => ?_)
    have here : row.actionId = actionId := by simpa using List.of_mem_filter member
    simp [EntryRow.key, here]

/-! What a call can do to the rows. -/

theorem addLearned_rows (kind : LearnedKind) (now actionId value addedBy : String) (source : EntrySource)
    (approvalId : Option String) (allowUnsafeWildcard : Bool) (rows : List EntryRow) :
    (kind.addLearned now actionId value addedBy source approvalId allowUnsafeWildcard rows).2 = rows ∨
      ∃ row, row.actionId = actionId ∧ hasRoom kind (countForAction actionId rows) = true ∧
        (kind.addLearned now actionId value addedBy source approvalId allowUnsafeWildcard rows).2 = rows ++ [row] := by
  unfold LearnedKind.addLearned
  split
  · exact .inl rfl
  · simp only [insertEntry]
    split
    · exact .inl rfl
    · rename_i within
      split
      · exact .inl rfl
      · exact .inr ⟨_, rfl, (insertEntry_room kind _).mp within, rfl⟩

/-- The rows stay, or one is added for the action of the call and there is room
for it, or some of that action are removed. -/
theorem perform_rows (kind : LearnedKind) (rows : List EntryRow) (op : Op) :
    (LearnedSets.perform kind rows op).1 = rows ∨
      (∃ row, op.actionId = some row.actionId ∧ hasRoom kind (countForAction row.actionId rows) = true ∧
        (LearnedSets.perform kind rows op).1 = rows ++ [row]) ∨
      ∃ keep : EntryRow → Bool, (∀ row, keep row = false → op.actionId = some row.actionId) ∧
        (LearnedSets.perform kind rows op).1 = rows.filter keep := by
  cases op with
  | add now actionId value addedBy source approvalId allowUnsafeWildcard =>
    cases kind with
    | domain =>
      rcases addLearned_rows .domain now actionId value addedBy source approvalId allowUnsafeWildcard rows with
        same | ⟨row, rfl, room, added⟩
      · exact .inl same
      · exact .inr (.inl ⟨row, rfl, room, added⟩)
    | path =>
      rcases addLearned_rows .path now actionId value addedBy source approvalId false rows with
        same | ⟨row, rfl, room, added⟩
      · exact .inl same
      · exact .inr (.inl ⟨row, rfl, room, added⟩)
  | remove actionId value =>
    refine .inr (.inr ⟨fun row => row.key ≠ (actionId, value), fun row removed => ?_, ?_⟩)
    · have same : row.key = (actionId, value) := by simpa using removed
      exact congrArg some (congrArg Prod.fst same).symm
    · cases kind with
      | domain => rfl
      | path => rfl
  | isLearned actionId value => exact .inl rfl
  | clear actionId =>
    refine .inr (.inr ⟨fun row => row.actionId ≠ actionId, fun row removed => ?_, rfl⟩)
    have same : row.actionId = actionId := by simpa using removed
    exact congrArg some same.symm
  | list actionId => exact .inl rfl
  | get actionId => exact .inl rfl

/-- A call leaves the rows of other actions as they are. -/
theorem perform_other (kind : LearnedKind) (rows : List EntryRow) (op : Op) {actionId : String}
    (other : op.actionId ≠ some actionId) :
    (LearnedSets.perform kind rows op).1.filter (fun row => row.actionId = actionId) =
      rows.filter fun row => row.actionId = actionId := by
  rcases perform_rows kind rows op with same | ⟨row, about, -, added⟩ | ⟨keep, about, kept⟩
  · rw [same]
  · have differs : row.actionId ≠ actionId := fun same => other (same ▸ about)
    rw [added, List.filter_append, List.filter_cons_of_neg (by simpa using differs), List.filter_nil, List.append_nil]
  · rw [kept, List.filter_filter]
    refine List.filter_congr fun row _ => ?_
    cases stays : keep row with
    | true => simp
    | false =>
      have differs : row.actionId ≠ actionId := fun same => other (same ▸ about row stays)
      simp [differs]

/-- No action has more entries than the cap. -/
def Capped (kind : LearnedKind) (rows : List EntryRow) : Prop :=
  ∀ cap, kind.maxPerAction = some cap → ∀ actionId, countForAction actionId rows ≤ cap

theorem Capped.perform {kind : LearnedKind} {rows : List EntryRow} (capped : Capped kind rows) (op : Op) :
    Capped kind (LearnedSets.perform kind rows op).1 := by
  intro cap bound actionId
  have before := capped cap bound actionId
  rcases perform_rows kind rows op with same | ⟨row, -, room, added⟩ | ⟨keep, -, kept⟩
  · rw [same]
    exact before
  · rw [added]
    simp only [LearnedTable.countForAction, List.countP_append] at before ⊢
    by_cases here : row.actionId = actionId
    · subst here
      rw [hasRoom, bound] at room
      have below : countForAction row.actionId rows < cap := of_decide_eq_true room
      simp only [LearnedTable.countForAction] at below
      simp only [List.countP_cons, List.countP_nil, decide_true, if_true]
      omega
    · simpa [here] using before
  · rw [kept]
    exact (List.filter_sublist.countP_le).trans before

/-- In every run in which no entry is added again at the cap, and entries are
removed and looked up under their normal form, the answers are those of a
finite set. In every run an action stays within the cap, and a call leaves
other actions as they are. -/
theorem behaves_as_set (kind : LearnedKind) {ops : List Op} (meets : (table kind).Meets (Plain kind) [] ops) :
    ((table kind).trace [] ops).map (fun entry => entry.2.view) = ((sets kind).trace ∅ ops).map Prod.snd ∧
      Represents ((table kind).run [] ops) ((sets kind).run ∅ ops) ∧ Capped kind ((table kind).run [] ops) ∧
      ∀ op actionId, op.actionId ≠ some actionId →
        ((table kind).step ((table kind).run [] ops) op).1.filter (fun row => row.actionId = actionId) =
          ((table kind).run [] ops).filter fun row => row.actionId = actionId := by
  have empty : Represents [] ∅ := ⟨List.nodup_nil, by simp⟩
  have both : ∀ rows set, Represents rows set → (table kind).Meets (Plain kind) rows ops →
      ((table kind).trace rows ops).map (fun entry => entry.2.view) = ((sets kind).trace set ops).map Prod.snd ∧
        Represents ((table kind).run rows ops) ((sets kind).run set ops) := by
    clear meets
    induction ops with
    | nil => exact fun rows set represents _ => ⟨rfl, represents⟩
    | cons op rest ih =>
      rintro rows set represents ⟨plain, later⟩
      obtain ⟨answered, next⟩ := represents.perform plain
      obtain ⟨answers, last⟩ := ih _ _ next later
      refine ⟨?_, last⟩
      simp only [Machine.trace, List.map_cons]
      exact congrArg₂ List.cons answered answers
  have capped : Capped kind ((table kind).run [] ops) :=
    Machine.run_invariant (fun rows op capped => capped.perform op) (fun _ _ _ => Nat.zero_le _) ops
  obtain ⟨answers, represents⟩ := both [] ∅ empty meets
  exact ⟨answers, represents, capped, fun op actionId other => perform_other kind _ op other⟩

/-! Other spellings, and an action at its cap. -/

def plainAdd (value : String) : Op :=
  .add "2026-01-01T00:00:00Z" "fetch" value "operator" .cli none false

theorem behaves_as_set_sample :
    ((table .domain).trace [] [plainAdd "Hooks.Slack.com.", .remove "fetch" "hooks.slack.com"]).map
        (fun entry => entry.2.view) =
      ((sets .domain).trace ∅ [plainAdd "Hooks.Slack.com.", .remove "fetch" "hooks.slack.com"]).map Prod.snd := by
  have meets : (table .domain).Meets (Plain .domain) [] [plainAdd "Hooks.Slack.com.", .remove "fetch" "hooks.slack.com"] := by
    refine ⟨fun entry _ _ => rfl, ?_, trivial⟩
    exact (by decide : normalForm .domain "hooks.slack.com" = "hooks.slack.com")
  exact (behaves_as_set .domain meets).1

/-- A domain is added, and neither found nor removed under the spelling it was
added with. A path that is there is refused when the action is at its cap. -/
theorem spelling_missed :
    let domains := (table .domain).run [] [plainAdd "Hooks.Slack.com."]
    let paths := (table .path).run [] ((List.range 50).map fun i => plainAdd ("p" ++ toString i))
    (addLearnedDomain "2026-01-01T00:00:00Z" "fetch" "Hooks.Slack.com." "operator" .cli none false []).1 = .ok true ∧
      isDomainLearned "fetch" "Hooks.Slack.com." domains = false ∧
      removeLearnedDomain "fetch" "Hooks.Slack.com." domains = (false, domains) ∧
      isPathLearned "fetch" "p0" paths = true ∧
      (addLearnedPath "2026-01-01T00:00:00Z" "fetch" "p0" "operator" .cli none paths).1 ≠ .ok false := by
  decide +kernel

end LearnedSets
end Latchgate
