import Mathlib.Data.List.Perm.Subperm
import Mathlib.Order.Lattice

/-! A window on the newest entries of a log that only grows. It is filled from
answers that are sorted and cut at a limit. -/

namespace Feed

variable {α τ : Type*} [LinearOrder τ] {rank : α → τ} {limit cap : Nat} {log log' : α → Prop} {held answer : List α}

/-- Newest first. -/
def Newest (rank : α → τ) (held : List α) : Prop :=
  held.Pairwise fun a b => rank b ≤ rank a

/-- All entries of a kind, newest first. -/
structure Listing (rank : α → τ) (log : α → Prop) (answer : List α) : Prop where
  nodup : answer.Nodup
  mem : ∀ a, a ∈ answer ↔ log a
  newest : Newest rank answer

/-- The list holds entries of the log, each once and newest first, and all that
are strictly between its ends. When it does not hold all that are older than its
newest, it has at least `limit`. -/
structure Window (rank : α → τ) (limit : Nat) (log : α → Prop) (held : List α) : Prop where
  nodup : held.Nodup
  known : ∀ a ∈ held, log a
  newest : Newest rank held
  gapFree : ∀ a, log a → ∀ first last, held.head? = some first → held.getLast? = some last →
    rank last < rank a → rank a < rank first → a ∈ held
  full : ∀ a, log a → a ∉ held → ∀ first, held.head? = some first → rank a < rank first → limit ≤ held.length

theorem Newest.le_head (newest : Newest rank held) {first a : α} (head : held.head? = some first) (member : a ∈ held) :
    rank a ≤ rank first := by
  cases held with
  | nil => cases head
  | cons b rest =>
    obtain rfl := Option.some.inj head
    rcases List.mem_cons.mp member with rfl | later
    · exact le_rfl
    · exact List.rel_of_pairwise_cons newest later

theorem Newest.last_le (newest : Newest rank held) {last a : α} (tail : held.getLast? = some last) (member : a ∈ held) :
    rank last ≤ rank a := by
  obtain ⟨front, rfl⟩ := List.getLast?_eq_some_iff.mp tail
  rcases List.mem_append.mp member with earlier | same
  · exact (List.pairwise_append.mp newest).2.2 a earlier last (List.mem_singleton_self _)
  · exact (List.mem_singleton.mp same) ▸ le_rfl

/-- What is newer than something in a prefix is in the prefix. -/
theorem Newest.mem_take (newest : Newest rank held) {count : Nat} {a b : α} (member : a ∈ held) (kept : b ∈ held.take count)
    (later : rank b < rank a) : a ∈ held.take count := by
  by_contra dropped
  have behind : a ∈ held.drop count := by
    rw [← List.take_append_drop count held] at member
    exact (List.mem_append.mp member).resolve_left dropped
  unfold Newest at newest
  rw [← List.take_append_drop count held] at newest
  exact absurd ((List.pairwise_append.mp newest).2.2 b kept a behind) (not_le.mpr later)

/-- What is as new as a bound is among the first entries, if there are not more of
these than are taken. -/
theorem Newest.mem_take_of_count (newest : Newest rank held) {bound : τ} {count : Nat} {a : α} (member : a ∈ held)
    (recent : bound ≤ rank a) (fits : held.countP (fun b => decide (bound ≤ rank b)) ≤ count) : a ∈ held.take count := by
  by_contra dropped
  have behind : a ∈ held.drop count := by
    rw [← List.take_append_drop count held] at member
    exact (List.mem_append.mp member).resolve_left dropped
  have long : (held.take count).length = count := by
    have positive := List.length_pos_of_mem behind
    rw [List.length_drop] at positive
    rw [List.length_take]
    omega
  unfold Newest at newest
  rw [← List.take_append_drop count held] at newest fits
  have before : (held.take count).countP (fun b => decide (bound ≤ rank b)) = count := by
    refine (List.countP_eq_length.mpr fun b kept => ?_).trans long
    exact decide_eq_true (recent.trans ((List.pairwise_append.mp newest).2.2 b kept a behind))
  have after : 0 < (held.drop count).countP fun b => decide (bound ≤ rank b) :=
    List.countP_pos_iff.mpr ⟨a, behind, decide_eq_true recent⟩
  rw [List.countP_append] at fits
  omega

theorem Window.nil : Window rank limit log [] where
  nodup := List.nodup_nil
  known := nofun
  newest := List.Pairwise.nil
  gapFree := nofun
  full := nofun

/-- The first entries of a whole listing. -/
theorem Listing.window (listing : Listing rank log answer) : Window rank limit log (answer.take limit) where
  nodup := listing.nodup.sublist (List.take_sublist _ _)
  known a member := (listing.mem a).mp (List.mem_of_mem_take member)
  newest := listing.newest.sublist (List.take_sublist _ _)
  gapFree a entry _ last _ tail older _ :=
    listing.newest.mem_take ((listing.mem a).mpr entry) (List.mem_of_getLast? tail) older
  full a entry absent _ _ _ := by
    rw [List.length_take]
    refine le_min le_rfl (not_lt.mp fun short => absent ?_)
    rw [List.take_of_length_le short.le]
    exact (listing.mem a).mpr entry

/-- An entry that is not older than the window may come to the log. -/
theorem Window.grow (window : Window rank limit log held) {entry : α} (grown : ∀ a, log' a ↔ log a ∨ a = entry)
    (recent : ∀ first, held.head? = some first → rank first ≤ rank entry) : Window rank limit log' held where
  nodup := window.nodup
  known a member := (grown a).mpr (.inl (window.known a member))
  newest := window.newest
  gapFree a known first last head tail older newer := by
    rcases (grown a).mp known with old | rfl
    · exact window.gapFree a old first last head tail older newer
    · exact absurd (recent first head) (not_le.mpr newer)
  full a known absent first head newer := by
    rcases (grown a).mp known with old | rfl
    · exact window.full a old absent first head newer
    · exact absurd (recent first head) (not_le.mpr newer)

theorem Window.congr (window : Window rank limit log held) (same : ∀ a, log' a ↔ log a) : Window rank limit log' held where
  nodup := window.nodup
  known a member := (same a).mpr (window.known a member)
  newest := window.newest
  gapFree a known := window.gapFree a ((same a).mp known)
  full a known := window.full a ((same a).mp known)

section Merge
variable {fresh : List α} {first last : α}

/-- Cutting off the oldest leaves a window, if as many remain as the limit asks
for. -/
theorem Window.take (window : Window rank limit log held) (room : limit ≤ cap) : Window rank limit log (held.take cap) where
  nodup := window.nodup.sublist (List.take_sublist _ _)
  known a member := window.known a (List.mem_of_mem_take member)
  newest := window.newest.sublist (List.take_sublist _ _)
  gapFree a entry first last head tail older newer := by
    have kept := List.mem_of_getLast? tail
    obtain ⟨b, rest, rfl⟩ : ∃ b rest, held = b :: rest := by
      cases held with
      | nil => simp at tail
      | cons b rest => exact ⟨b, rest, rfl⟩
    have positive : cap ≠ 0 := by
      rintro rfl
      simp at tail
    have same : b = first := by
      obtain ⟨n, rfl⟩ := Nat.exists_eq_succ_of_ne_zero positive
      exact Option.some.inj head
    subst same
    refine window.newest.mem_take ?_ kept older
    obtain ⟨end_, tail'⟩ : ∃ end_, (b :: rest).getLast? = some end_ := ⟨_, List.getLast?_eq_some_getLast (List.cons_ne_nil _ _)⟩
    exact window.gapFree a entry b end_ rfl tail'
      (lt_of_le_of_lt (window.newest.last_le tail' (List.mem_of_mem_take kept)) older) newer
  full a entry absent first head newer := by
    rw [List.length_take]
    refine le_min room ?_
    by_cases dropped : a ∈ held
    · have cut : cap < held.length := not_le.mp fun whole => absent (by rw [List.take_of_length_le whole]; exact dropped)
      exact room.trans cut.le
    · cases held with
      | nil => simp at head
      | cons b rest =>
        cases cap with
        | zero => cases head
        | succ n => exact window.full a entry dropped first head newer

/-- What an answer that is cut at the limit has of the entries after a mark is put
in front. It is cut below the newest entry that is held, and where the window begins
after the mark, the entries beside its oldest one are in it. -/
theorem Window.prepend (window : Window rank limit log held) (head : held.head? = some first) (tail : held.getLast? = some last)
    {mark : τ} (listing : Listing rank (fun a => log a ∧ mark < rank a) answer)
    (reached : ∀ a, log a → rank first ≤ rank a → a ∈ answer.take limit)
    (whole : ∀ a, log a → mark < rank a → rank a < rank first → rank a = rank last → a ∈ held)
    (nodup : fresh.Nodup) (mem : ∀ a, a ∈ fresh ↔ a ∈ answer.take limit ∧ a ∉ held) (sorted : Newest rank fresh) :
    Window rank limit log (fresh ++ held) := by
  have entries : ∀ a ∈ fresh, log a ∧ mark < rank a := fun a member =>
    (listing.mem a).mp (List.mem_of_mem_take ((mem a).mp member).1)
  have recent : ∀ a ∈ fresh, rank first ≤ rank a := by
    -- an older one that is missing means that the window alone fills the answer
    intro a member
    by_contra before
    have older : rank a < rank first := not_le.mp before
    obtain ⟨answered, absent⟩ := (mem a).mp member
    obtain ⟨entry, above⟩ := entries a member
    have many := window.full a entry absent first head older
    have oldest : rank a < rank last := by
      refine lt_of_le_of_ne (not_lt.mp fun newer => absent ?_) fun same => absent ?_
      · exact window.gapFree a entry first last head tail newer older
      · exact whole a entry above older same
    have inside : a :: held ⊆ answer.take limit := by
      intro b known
      rcases List.mem_cons.mp known with rfl | old
      · exact answered
      · have newer : rank a < rank b := lt_of_lt_of_le oldest (window.newest.last_le tail old)
        have listed := (listing.mem b).mpr ⟨window.known b old, lt_trans above newer⟩
        exact listing.newest.mem_take listed answered newer
    have count := List.Nodup.subperm (List.nodup_cons.mpr ⟨absent, window.nodup⟩) inside
    have size := count.length_le.trans (List.length_take_le _ _)
    rw [List.length_cons] at size
    omega
  have taken : ∀ a, log a → rank first ≤ rank a → a ∈ fresh ++ held := by
    intro a entry newer
    by_cases old : a ∈ held
    · exact List.mem_append_right _ old
    · exact List.mem_append_left _ ((mem a).mpr ⟨reached a entry newer, old⟩)
  refine ⟨?_, ?_, ?_, ?_, ?_⟩
  · exact List.nodup_append.mpr ⟨nodup, window.nodup, fun a new b old same => ((mem a).mp new).2 (same ▸ old)⟩
  · intro a member
    rcases List.mem_append.mp member with new | old
    · exact (entries a new).1
    · exact window.known a old
  · exact List.pairwise_append.mpr ⟨sorted, window.newest,
      fun a new b old => (window.newest.le_head head old).trans (recent a new)⟩
  · intro a entry newest oldest _ end_ older _
    rcases le_or_gt (rank first) (rank a) with newer | inside
    · exact taken a entry newer
    · refine List.mem_append_right _ (window.gapFree a entry first last head tail ?_ inside)
      rw [List.getLast?_append_of_ne_nil _ (List.ne_nil_of_mem (List.mem_of_mem_head? head)), tail] at end_
      exact Option.some.inj end_ ▸ older
  · intro a entry absent newest _ _
    have older : rank a < rank first := not_le.mp fun newer => absent (taken a entry newer)
    have many := window.full a entry (fun old => absent (List.mem_append_right _ old)) first head older
    rw [List.length_append]
    omega

/-- Of what is older than a mark above the oldest entry, the newest are put at the
end, when all entries between the two are held. -/
theorem Window.extend (window : Window rank limit log held) (head : held.head? = some first)
    (tail : held.getLast? = some last) {mark : τ} (above : rank last < mark)
    (overlap : ∀ a, log a → rank last < rank a → rank a < mark → a ∈ held)
    (listing : Listing rank (fun a => log a ∧ rank a < mark) answer) {count : Nat} (nodup : fresh.Nodup)
    (mem : ∀ a, a ∈ fresh ↔ a ∈ answer.take count ∧ a ∉ held) (sorted : Newest rank fresh) :
    Window rank limit log (held ++ fresh) := by
  have entries : ∀ a ∈ fresh, log a ∧ rank a < mark := fun a member =>
    (listing.mem a).mp (List.mem_of_mem_take ((mem a).mp member).1)
  have older : ∀ a ∈ fresh, rank a ≤ rank last := fun a member =>
    not_lt.mp fun newer => ((mem a).mp member).2 (overlap a (entries a member).1 newer (entries a member).2)
  have same : (held ++ fresh).head? = some first := by
    rw [List.head?_append, head]
    rfl
  refine ⟨?_, ?_, ?_, ?_, ?_⟩
  · exact List.nodup_append.mpr ⟨window.nodup, nodup, fun a old b new equal => ((mem b).mp new).2 (equal ▸ old)⟩
  · intro a member
    rcases List.mem_append.mp member with old | new
    · exact window.known a old
    · exact (entries a new).1
  · exact List.pairwise_append.mpr ⟨window.newest, sorted,
      fun a old b new => (older b new).trans (window.newest.last_le tail old)⟩
  · intro a entry newest oldest begin_ end_ after before
    obtain rfl := Option.some.inj (same.symm.trans begin_)
    by_cases newer : rank last < rank a
    · exact List.mem_append_left _ (window.gapFree a entry _ last head tail newer before)
    · by_cases old : a ∈ held
      · exact List.mem_append_left _ old
      · refine List.mem_append_right _ ((mem a).mpr ⟨?_, old⟩)
        rcases List.mem_append.mp (List.mem_of_getLast? end_) with held_ | new
        · exact absurd (window.newest.last_le tail held_) (not_le.mpr (lt_of_lt_of_le after (not_lt.mp newer)))
        · exact listing.newest.mem_take ((listing.mem a).mpr ⟨entry, lt_of_le_of_lt (not_lt.mp newer) above⟩)
            ((mem oldest).mp new).1 after
  · intro a entry absent newest begin_ newer
    obtain rfl := Option.some.inj (same.symm.trans begin_)
    have notOld : a ∉ held := fun old => absent (List.mem_append_left _ old)
    have many := window.full a entry notOld _ head newer
    rw [List.length_append]
    omega

end Merge
end Feed
