import Latchgate.Json.Value

/-! The part of the policy language that rules over a document are made of. A
reference that leads nowhere is undefined, and a rule gives the values of those
of its definitions whose body holds. -/

namespace Rego

/-- A reference as a statement: everything but `false` and the undefined holds. -/
def holds : Option Json → Bool
  | none | some (.bool false) => false
  | some _ => true

/-- A reference compared with `true`. -/
def isTrue : Option Json → Bool
  | some (.bool true) => true
  | _ => false

/-- What `some x in value` runs through. -/
def members : Option Json → List Json
  | some (.array items) => items
  | some (.object fields) => fields.map Prod.snd
  | _ => []

def isText (text : String) (item : Json) : Bool :=
  item.asStr? = some text

/-- Some member of the value is this text. -/
def contains (value : Option Json) (text : String) : Bool :=
  (members value).any (isText text)

/-- A reference by key into what may itself be undefined. -/
def at_ (value : Option Json) (key : String) : Option Json :=
  value.bind (Json.get? key)

theorem holds_of_isTrue {value : Option Json} (yes : isTrue value = true) : holds value = true := by
  unfold isTrue at yes
  split at yes
  · rfl
  · cases yes

theorem contains_none (text : String) : contains none text = false :=
  rfl

/-- Nothing is found in what is neither an array nor an object. -/
theorem at_eq_none {value : Option Json} (missing : holds value = false) (key : String) : at_ value key = none := by
  cases value with
  | none => rfl
  | some v =>
    cases v with
    | bool b => rfl
    | _ => cases missing

section Rules
variable {α : Type*}

/-- No two definitions of a rule give different values. -/
def SingleValued (values : List α) : Prop :=
  ∀ v ∈ values, ∀ w ∈ values, v = w

/-- Where the body holds, the value. -/
def rule (body : Bool) (values : List α) : List α :=
  if body then values else []

/-- A chain of definitions, each taken only where none before it has a value. -/
def elseChain : List (List α) → List α
  | [] => []
  | values :: rest => if values.isEmpty then elseChain rest else values

@[simp] theorem mem_rule {body : Bool} {values : List α} {v : α} : v ∈ rule body values ↔ body = true ∧ v ∈ values := by
  unfold rule
  split <;> simp_all

theorem singleValued_nil : SingleValued ([] : List α) := by
  intro v member
  cases member

theorem SingleValued.rule {values : List α} (single : SingleValued values) (body : Bool) :
    SingleValued (Rego.rule body values) := by
  intro v first w second
  exact single v (mem_rule.1 first).2 w (mem_rule.1 second).2

theorem singleValued_singleton (v : α) : SingleValued [v] := by
  intro w first x second
  rw [List.mem_singleton.mp first, List.mem_singleton.mp second]

/-- Two definitions that never hold together, or agree where they do. -/
theorem SingleValued.append {first second : List α} (left : SingleValued first) (right : SingleValued second)
    (agree : ∀ v ∈ first, ∀ w ∈ second, v = w) : SingleValued (first ++ second) := by
  intro v one w other
  rcases List.mem_append.mp one with inFirst | inSecond
  · rcases List.mem_append.mp other with alsoFirst | alsoSecond
    · exact left v inFirst w alsoFirst
    · exact agree v inFirst w alsoSecond
  · rcases List.mem_append.mp other with alsoFirst | alsoSecond
    · exact (agree w alsoFirst v inSecond).symm
    · exact right v inSecond w alsoSecond

theorem SingleValued.elseChain {chain : List (List α)} (each : ∀ values ∈ chain, SingleValued values) :
    SingleValued (Rego.elseChain chain) := by
  induction chain with
  | nil => exact singleValued_nil
  | cons values rest ih =>
    unfold Rego.elseChain
    split
    · exact ih fun later member => each later (List.mem_cons_of_mem _ member)
    · exact each values List.mem_cons_self

/-- A value of a chain is that of its first link with one. -/
theorem mem_elseChain_cons {values : List α} {rest : List (List α)} {v : α} :
    v ∈ elseChain (values :: rest) ↔ v ∈ values ∨ values = [] ∧ v ∈ elseChain rest := by
  cases values with
  | nil => simp [elseChain]
  | cons first more => simp [elseChain]

theorem rule_eq_nil {body : Bool} {v : α} : rule body [v] = [] ↔ body = false := by
  cases body <;> simp [rule]

end Rules

end Rego
