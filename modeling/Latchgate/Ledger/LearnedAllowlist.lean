import Latchgate.Ledger.Error
import Mathlib.Data.List.Sort
import Mathlib.Data.String.Basic

namespace Latchgate

inductive EntrySource where
  | approval
  | cli
  | bulk
  | api
  deriving DecidableEq

def EntrySource.asStr : EntrySource → String
  | approval => "approval"
  | cli => "cli"
  | bulk => "import"
  | api => "api"

structure EntryRow where
  actionId : String
  value : String
  addedBy : String
  addedAt : String
  source : String
  approvalId : Option String
  deriving DecidableEq

/-- What the rows of a table are told apart by. -/
def EntryRow.key (row : EntryRow) : String × String :=
  (row.actionId, row.value)

structure InsertParams where
  actionId : String
  value : String
  addedBy : String
  source : String
  approvalId : Option String
  maxPerAction : Option Nat

/-! The statements on a table of learned entries, each under the lock of the
writer. -/

namespace LearnedTable

def countForAction (actionId : String) (rows : List EntryRow) : Nat :=
  rows.countP fun row => row.actionId = actionId

def isEntryPresent (actionId value : String) (rows : List EntryRow) : Bool :=
  rows.any fun row => row.key = (actionId, value)

/-- The cap comes first, and then a row is inserted unless there is one. -/
def insertEntry (now : String) (params : InsertParams) (rows : List EntryRow) :
    Except LedgerError Bool × List EntryRow :=
  let count := countForAction params.actionId rows
  match params.maxPerAction.filter fun cap => cap ≤ count with
  | some cap =>
    (.error (.io ("action '" ++ params.actionId ++ "' already has " ++ toString count ++ " learned entries (limit: " ++
      toString cap ++ ") — widen the static allowlist in the manifest instead")), rows)
  | none =>
    if isEntryPresent params.actionId params.value rows then (.ok false, rows)
    else (.ok true, rows ++ [{ actionId := params.actionId, value := params.value, addedBy := params.addedBy,
                               addedAt := now, source := params.source, approvalId := params.approvalId }])

def deleteEntry (actionId value : String) (rows : List EntryRow) : Bool × List EntryRow :=
  (isEntryPresent actionId value rows, rows.filter fun row => row.key ≠ (actionId, value))

def clearForAction (actionId : String) (rows : List EntryRow) : Nat × List EntryRow :=
  (countForAction actionId rows, rows.filter fun row => row.actionId ≠ actionId)

def listEntries (actionId : Option String) (rows : List EntryRow) : List EntryRow :=
  match actionId with
  | some aid => (rows.filter fun row => row.actionId = aid).mergeSort fun a b => a.addedAt ≤ b.addedAt
  | none => rows.mergeSort fun a b => a.actionId < b.actionId ∨ (a.actionId = b.actionId ∧ a.addedAt ≤ b.addedAt)

def getValuesForAction (actionId : String) (rows : List EntryRow) : List String :=
  ((rows.filter fun row => row.actionId = actionId).map EntryRow.value).mergeSort (· ≤ ·)

/-- `ORDER BY action_id, value` -/
def before (a b : String × String) : Bool :=
  a.1 < b.1 ∨ (a.1 = b.1 ∧ a.2 ≤ b.2)

/-- What the cache is filled from. -/
def selectCache (rows : List EntryRow) : List (String × String) :=
  (rows.map EntryRow.key).mergeSort before

end LearnedTable

/-! The snapshot of a table. -/

structure LearnedSnapshot where
  byAction : List (String × List String)
  createdAt : Nat
  deriving DecidableEq

namespace LearnedSnapshot

/-- `raw.entry(action_id).or_default().push(value)` -/
def push (raw : List (String × List String)) (row : String × String) : List (String × List String) :=
  match raw with
  | [] => [(row.1, [row.2])]
  | (action, values) :: rest =>
    if action = row.1 then (action, values ++ [row.2]) :: rest else (action, values) :: push rest row

def ofRows (rows : List EntryRow) (now : Nat) : LearnedSnapshot where
  byAction := (LearnedTable.selectCache rows).foldl push []
  createdAt := now

/-- An action without learned entries has an empty list. -/
def get (actionId : String) (snapshot : LearnedSnapshot) : List String :=
  (snapshot.byAction.lookup actionId).getD []

theorem lookup_push (raw : List (String × List String)) (row : String × String) (actionId : String) :
    ((push raw row).lookup actionId).getD [] =
      (raw.lookup actionId).getD [] ++ if row.1 = actionId then [row.2] else [] := by
  induction raw with
  | nil =>
    by_cases same : actionId = row.1
    · simp [push, same]
    · have differs : (actionId == row.1) = false := beq_eq_false_iff_ne.mpr same
      simp [push, List.lookup_cons, differs, Ne.symm same]
  | cons entry rest ih =>
    obtain ⟨action, values⟩ := entry
    rw [push]
    by_cases same : actionId = action
    · subst same
      by_cases here : actionId = row.1
      · simp [here]
      · simp [here, Ne.symm here]
    · have differs : (actionId == action) = false := beq_eq_false_iff_ne.mpr same
      by_cases here : action = row.1
      · have other : row.1 ≠ actionId := fun h => same (h.symm.trans here.symm)
        simp [here, List.lookup_cons, beq_eq_false_iff_ne.mpr other.symm, other]
      · simp only [if_neg here, List.lookup_cons, differs]
        exact ih

theorem lookup_foldl_push (rows : List (String × String)) (raw : List (String × List String)) (actionId : String) :
    ((rows.foldl push raw).lookup actionId).getD [] =
      (raw.lookup actionId).getD [] ++ (rows.filter fun row => row.1 = actionId).map Prod.snd := by
  induction rows generalizing raw with
  | nil => simp
  | cons row rest ih =>
    rw [List.foldl_cons, ih, lookup_push, List.append_assoc, List.filter_cons]
    by_cases same : row.1 = actionId
    · simp [same]
    · simp [same]

end LearnedSnapshot

namespace LearnedTable

theorem before_trans (a b c : String × String) (first : before a b = true) (second : before b c = true) :
    before a c = true := by
  simp only [before, decide_eq_true_eq] at *
  rcases first with lower | ⟨same, le⟩
  · rcases second with lower' | ⟨same', -⟩
    · exact .inl (lower.trans lower')
    · exact .inl (same' ▸ lower)
  · rcases second with lower' | ⟨same', le'⟩
    · exact .inl (same ▸ lower')
    · exact .inr ⟨same.trans same', le.trans le'⟩

theorem before_total (a b : String × String) : (before a b || before b a) = true := by
  simp only [before, Bool.or_eq_true, decide_eq_true_eq]
  rcases lt_trichotomy a.1 b.1 with lower | same | higher
  · exact .inl (.inl lower)
  · rcases le_total a.2 b.2 with le | ge
    · exact .inl (.inr ⟨same, le⟩)
    · exact .inr (.inr ⟨same.symm, ge⟩)
  · exact .inr (.inl higher)

/-- The rows of an action come in the order of their values. -/
theorem selectCache_forAction (actionId : String) (rows : List EntryRow) :
    ((selectCache rows).filter fun row => row.1 = actionId).map Prod.snd = getValuesForAction actionId rows := by
  have listed : (((selectCache rows).filter fun row => row.1 = actionId).map Prod.snd).Perm
      (getValuesForAction actionId rows) := by
    refine (((List.mergeSort_perm _ _).filter _).map _).trans ?_
    refine List.Perm.trans ?_ (List.mergeSort_perm _ _).symm
    rw [List.filter_map, List.map_map]
    exact List.Perm.refl _
  have sorted : (((selectCache rows).filter fun row => row.1 = actionId).map Prod.snd).SortedLE := by
    have all := List.pairwise_mergeSort before_trans before_total (rows.map EntryRow.key)
    refine List.Pairwise.sortedLE ?_
    rw [List.pairwise_map, List.pairwise_filter]
    refine all.imp ?_
    intro a b ordered first second
    simp only [before, decide_eq_true_eq] at ordered first second
    rcases ordered with lower | ⟨-, le⟩
    · exact absurd (first.trans second.symm) lower.ne
    · exact le
  exact listed.eq_of_sortedLE sorted List.sortedLE_mergeSort

end LearnedTable

/-- A snapshot has for each action what the table has. -/
theorem LearnedSnapshot.get_ofRows (rows : List EntryRow) (now : Nat) (actionId : String) :
    (ofRows rows now).get actionId = LearnedTable.getValuesForAction actionId rows := by
  rw [get, ofRows, lookup_foldl_push, ← LearnedTable.selectCache_forAction]
  rfl

end Latchgate
