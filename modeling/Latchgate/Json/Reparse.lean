import Latchgate.Json.Value

namespace Except

variable {ε δ α β : Type} {result : Except ε α}

theorem bind_eq_ok {next : α → Except ε β} {b : β} :
    result >>= next = .ok b ↔ ∃ a, result = .ok a ∧ next a = .ok b := by
  cases result <;> simp [bind, Except.bind]

theorem bind_eq_error {next : α → Except ε β} {e : ε} :
    result >>= next = .error e ↔ result = .error e ∨ ∃ a, result = .ok a ∧ next a = .error e := by
  cases result <;> simp [bind, Except.bind]

theorem map_eq_ok {f : α → β} {b : β} : result.map f = .ok b ↔ ∃ a, result = .ok a ∧ f a = b := by
  cases result <;> simp [Except.map]

theorem map_eq_error {f : α → β} {e : ε} : result.map f = .error e ↔ result = .error e := by
  cases result <;> simp [Except.map]

theorem mapError_eq_ok {describe : ε → δ} {a : α} :
    result.mapError describe = .ok a ↔ result = .ok a := by
  cases result <;> simp [Except.mapError]

theorem toOption_eq_some_iff {a : α} : result.toOption = some a ↔ result = .ok a := by
  cases result <;> simp [Except.toOption]

theorem forM_eq_ok {check : α → Except ε Unit} {items : List α} {u : Unit} :
    items.forM check = .ok u ↔ ∀ item ∈ items, check item = .ok () := by
  induction items with
  | nil => exact iff_of_true rfl (by simp)
  | cons item items ih =>
    change (check item >>= fun _ => items.forM check) = .ok u ↔ _
    rw [bind_eq_ok, List.forall_mem_cons, ← ih]
    constructor
    · rintro ⟨_, first, rest⟩
      exact ⟨first, rest⟩
    · exact fun passed => ⟨(), passed⟩

end Except

namespace Json

mutual

/-- What comes back when a printed document is parsed again. Only the
doubles depend on the parser: `read` is its reading of their text, or its
complaint. -/
def reparse (read : FloatText → Except String FloatText) : Json → Except String Json
  | null => .ok null
  | bool b => .ok (bool b)
  | number (.int z) => .ok (number (.int z))
  | number (.float t) => (read t).map fun u => number (.float u)
  | string s => .ok (string s)
  | array items => (reparseItems read items).map array
  | object fields => (reparseFields read fields).map object

def reparseItems (read : FloatText → Except String FloatText) : List Json → Except String (List Json)
  | [] => .ok []
  | v :: rest => do
    let w ← reparse read v
    let others ← reparseItems read rest
    .ok (w :: others)

def reparseFields (read : FloatText → Except String FloatText) :
    List (String × Json) → Except String (List (String × Json))
  | [] => .ok []
  | (k, v) :: rest => do
    let w ← reparse read v
    let others ← reparseFields read rest
    .ok ((k, w) :: others)

end

mutual

/-- A reader that keeps every double keeps every document. -/
theorem reparse_ok : ∀ v : Json, v.reparse .ok = .ok v
  | null => rfl
  | bool _ => rfl
  | number (.int _) => rfl
  | number (.float _) => rfl
  | string _ => rfl
  | array items => by rw [reparse, reparseItems_ok items]; rfl
  | object fields => by rw [reparse, reparseFields_ok fields]; rfl

theorem reparseItems_ok : ∀ items : List Json, reparseItems .ok items = .ok items
  | [] => rfl
  | v :: rest => by rw [reparseItems, reparse_ok v, reparseItems_ok rest]; rfl

theorem reparseFields_ok : ∀ fields : List (String × Json), reparseFields .ok fields = .ok fields
  | [] => rfl
  | (k, v) :: rest => by rw [reparseFields, reparse_ok v, reparseFields_ok rest]; rfl

end

end Json
