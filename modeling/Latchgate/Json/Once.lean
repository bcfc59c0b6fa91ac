import Latchgate.Json.Decode

namespace Json

/-- The members of a record in a document as it was written, where a name of the
record stands once at most. -/
def membersOnce (names : List String) : Json → Option (String → Option Json)
  | object fields =>
    if ((fields.map Prod.fst).filter (· ∈ names)).Nodup then (object fields).members names else none
  | v => v.members names

section Once
variable {read : FloatText → Except String FloatText} {α : Type}

theorem reparseFields_names {fields others : List (String × Json)} (reparsed : reparseFields read fields = .ok others) :
    others.map Prod.fst = fields.map Prod.fst := by
  induction fields generalizing others with
  | nil =>
    cases reparsed
    rfl
  | cons field rest ih =>
    obtain ⟨w, more, _, tail, rfl⟩ := reparseFields_cons.1 reparsed
    rw [List.map_cons, List.map_cons, ih tail]

theorem Stable.recordOnce {names : List String} {build : (String → Option Json) → Option α}
    (congr : ∀ {read : FloatText → Except String FloatText} {m n : String → Option Json},
      (∀ name, Reread read (m name) (n name)) → build n = build m) :
    Stable fun v => (v.membersOnce names).bind build := by
  have plain := @Stable.record α names build congr
  intro read v w reparsed
  cases v with
  | object fields =>
    obtain ⟨others, inner, rfl⟩ := Except.map_eq_ok.1 reparsed
    have same := plain _ _ _ reparsed
    simp only [membersOnce, reparseFields_names inner]
    split_ifs
    · exact same
    · rfl
  | array items =>
    obtain ⟨others, inner, rfl⟩ := Except.map_eq_ok.1 reparsed
    exact plain _ _ _ reparsed
  | number n =>
    cases n with
    | int z => cases reparsed; rfl
    | float t =>
      obtain ⟨u, _, rfl⟩ := Except.map_eq_ok.1 reparsed
      rfl
  | null => cases reparsed; rfl
  | bool b => cases reparsed; rfl
  | string s => cases reparsed; rfl

end Once
end Json
