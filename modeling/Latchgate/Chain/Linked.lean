import Mathlib.Data.List.Induction

namespace Chain
variable {α β : Type*} (link : α → Option (Option β × β))

/-- Every entry names the digest of the entry before it, the first one `head`.
An entry that can be read has a link: the digest it names and its own. -/
def Linked : Option β → List α → Prop
  | _, [] => True
  | head, a :: rest => ∃ d, link a = some (head, d) ∧ Linked (some d) rest

/-- The digest of the newest entry, or `head` when there is none. -/
def tip (head : Option β) : List α → Option β
  | [] => head
  | a :: rest => tip ((link a).map Prod.snd) rest

theorem tip_concat (head : Option β) (log : List α) (a : α) :
    tip link head (log ++ [a]) = (link a).map Prod.snd := by
  induction log generalizing head with
  | nil => rfl
  | cons b rest ih => exact ih _

variable {link}

theorem linked_append {head : Option β} {log more : List α} :
    Linked link head (log ++ more) ↔ Linked link head log ∧ Linked link (tip link head log) more := by
  induction log generalizing head with
  | nil => simp [Linked, tip]
  | cons a rest ih =>
    constructor
    · rintro ⟨d, here, later⟩
      obtain ⟨first, second⟩ := ih.mp later
      refine ⟨⟨d, here, first⟩, ?_⟩
      simpa [tip, here] using second
    · rintro ⟨⟨d, here, first⟩, second⟩
      simp only [tip, here, Option.map_some] at second
      exact ⟨d, here, ih.mpr ⟨first, second⟩⟩

theorem linked_concat {head : Option β} {log : List α} {a : α} :
    Linked link head (log ++ [a]) ↔ Linked link head log ∧ ∃ d, link a = some (tip link head log, d) := by
  simp [linked_append, Linked]

theorem Linked.exists_link {head : Option β} {log : List α} (linked : Linked link head log) :
    ∀ a ∈ log, ∃ entry, link a = some entry := by
  induction log generalizing head with
  | nil => simp
  | cons first rest ih =>
    obtain ⟨d, here, later⟩ := linked
    intro a member
    rcases List.mem_cons.mp member with rfl | member
    · exact ⟨_, here⟩
    · exact ih later a member

/-- Entries with the same links are as good as each other. -/
theorem Linked.congr {head : Option β} {log other : List α} (same : log.map link = other.map link)
    (linked : Linked link head log) : Linked link head other := by
  induction log generalizing head other with
  | nil =>
    obtain rfl := List.map_eq_nil_iff.mp same.symm
    trivial
  | cons a rest ih =>
    obtain ⟨b, more, rfl, here, later⟩ := List.map_eq_cons_iff.mp same.symm
    obtain ⟨d, linkA, linkedRest⟩ := linked
    exact ⟨d, here.trans linkA, ih later.symm linkedRest⟩

theorem Linked.tip_eq_none {log : List α} (linked : Linked link none log) (ends : tip link none log = none) :
    log = [] := by
  rcases List.eq_nil_or_concat log with rfl | ⟨rest, a, rfl⟩
  · rfl
  · rw [List.concat_eq_append] at linked ends
    obtain ⟨-, d, here⟩ := linked_concat.1 linked
    simp [tip_concat, here] at ends

/-- When a digest determines the digest that its entry names, two chains from
the start that end in the same digest have the same links throughout. -/
theorem Linked.eq_of_tip (unique : ∀ a b p q d, link a = some (p, d) → link b = some (q, d) → p = q)
    {log other : List α} (first : Linked link none log) (second : Linked link none other)
    (same : tip link none log = tip link none other) : log.map link = other.map link := by
  -- Backwards: the last entries agree, hence the digests they name, hence the rest.
  induction log using List.reverseRecOn generalizing other with
  | nil =>
    rw [second.tip_eq_none same.symm]
  | append_singleton log a ih =>
    obtain ⟨linked, d, here⟩ := linked_concat.1 first
    rw [tip_concat, here, Option.map_some] at same
    rcases List.eq_nil_or_concat other with rfl | ⟨rest, b, rfl⟩
    · simp [tip] at same
    · rw [List.concat_eq_append] at second same ⊢
      obtain ⟨otherLinked, d', there⟩ := linked_concat.1 second
      rw [tip_concat, there, Option.map_some] at same
      obtain rfl := Option.some.inj same
      have before := unique a b _ _ d here there
      rw [List.map_append, List.map_append, ih linked otherLinked before, List.map_singleton, List.map_singleton, here,
        there, before]

end Chain
