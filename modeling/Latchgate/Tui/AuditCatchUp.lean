import Latchgate.Tui.AuditRuns

namespace Latchgate.Tui

/-! A log whose matching events fit into one answer. -/

def matching (view : AuditView) : List AuditEvent :=
  view.log.events.filter fun e => view.screen.filter.matches e

/-- Events are written in the order of time, and when a refresh is answered all that
match can be fetched at once. -/
def Calm (view : AuditView) : AuditStep → Prop
  | .tick (.answered _) => (matching view).length ≤ fetchLimit
  | step => Orderly view step

section Calm
variable {toLowercase : String → String} {view : AuditView} {held : List AuditEvent} {order : TimestampOrder}

theorem mem_matching {e : AuditEvent} : e ∈ matching view ↔ Logged view e := by
  rw [matching, List.mem_filter]
  rfl

theorem Holds.subperm (holds : Holds view held) : held.Subperm (matching view) :=
  holds.nodup.subperm fun e member => mem_matching.2 (holds.known e member)

/-- Nothing older than the newest event held is missing. -/
theorem KeepsUp.held_of_older (keepsUp : KeepsUp view held) (holds : Holds view held)
    (few : (matching view).length ≤ fetchLimit) {e first : AuditEvent} (logged : Logged view e)
    (head : held.head? = some first) (older : e.timestamp < first.timestamp) : e ∈ held := by
  by_contra absent
  have many := keepsUp.full e logged absent first head older
  have inside : (e :: held).Subperm (matching view) := by
    refine List.Nodup.subperm (List.nodup_cons.mpr ⟨absent, holds.nodup⟩) fun a member => ?_
    rcases List.mem_cons.mp member with rfl | old
    · exact mem_matching.2 logged
    · exact holds.subperm.subset old
  have size := inside.length_le
  rw [List.length_cons] at size
  omega

theorem Calm.orderly {step : AuditStep} (calm : Calm view step) (holds : Holds view held) (keepsUp : KeepsUp view held) :
    Orderly view step := by
  cases step with
  | write event => exact calm
  | key key reply => exact calm
  | tick reply =>
    cases reply with
    | failed e => trivial
    | cutOff => trivial
    | answered order =>
      have few : (matching view).length ≤ fetchLimit := calm
      intro newest oldest held_ _
      constructor
      · refine (List.countP_mono_left fun e _ counted => ?_).trans ((List.countP_eq_length_filter ..).trans_le few)
        exact (Bool.and_eq_true _ _ ▸ counted).1
      · intro e logged _ older _
        obtain ⟨first, head, rfl⟩ : ∃ first, held.head? = some first ∧ first.timestamp = newest := by
          have ends := held_.symm.trans holds.newest
          cases head : held.head? with
          | none =>
            rw [head] at ends
            cases ends
          | some first =>
            rw [head] at ends
            exact ⟨first, rfl, (Option.some.inj ends).symm⟩
        rw [holds.events]
        exact List.mem_map_of_mem (keepsUp.held_of_older holds few logged head older)

theorem orderly_of_calm {steps : List AuditStep} (calm : (auditView toLowercase).Meets Calm {} steps) :
    (auditView toLowercase).Meets Orderly {} steps := by
  induction steps using List.reverseRecOn with
  | nil => trivial
  | append_singleton steps step ih =>
    obtain ⟨earlier, here, -⟩ := Machine.meets_append.1 calm
    obtain ⟨held, holds, keepsUp⟩ := holds_after toLowercase steps
    exact Machine.meets_append.2 ⟨ih earlier, here.orderly holds (keepsUp (ih earlier)), trivial⟩

/-- What is fetched is held afterwards, if there is room for all of it. -/
theorem mergeHead_fetched {s : ActivityScreen} {fetched : List Json} {row : Json} (member : row ∈ fetched)
    (room : (s.unheld fetched ++ s.events).length ≤ maxEvents) :
    EventKey.of row ∈ (s.mergeHead toLowercase fetched).events.map EventKey.of := by
  have known : row ∉ s.unheld fetched → EventKey.of row ∈ s.events.map EventKey.of := fun old => by
    by_contra new
    exact old (List.mem_filter.mpr ⟨member, decide_eq_true new⟩)
  rcases mergeHead_cases toLowercase s fetched with same | relisted
  · rw [same]
    refine known fun new => ?_
    -- with a new event the list is not the one from before
    have longer := congrArg (fun t : ActivityScreen => t.events.length) same
    have positive := List.length_pos_of_mem new
    have fresh : (if s.events.isEmpty then fetched else s.unheld fetched) = s.unheld fetched := by
      split_ifs with empty
      · exact (unheld_of_empty (List.isEmpty_iff.mp empty) fetched).symm
      · rfl
    rw [ActivityScreen.mergeHead, fresh, if_neg fun none_ => List.ne_nil_of_mem member (List.isEmpty_iff.mp none_)] at longer
    dsimp only at longer
    rw [if_neg fun none_ => List.ne_nil_of_mem new (List.isEmpty_iff.mp none_)] at longer
    rw [(reanchor_relisted toLowercase s _ _).events, List.take_of_length_le room, List.length_append] at longer
    omega
  · rw [relisted.events, List.take_of_length_le room, List.map_append, List.mem_append]
    by_cases new : row ∈ s.unheld fetched
    · exact .inl (List.mem_map_of_mem new)
    · exact .inr (known new)

/-- All that match after the cursor are in the answer. -/
theorem answered_of_few (few : (matching view).length ≤ fetchLimit) {e : AuditEvent} (logged : Logged view e)
    (after : ∀ cursor, view.screen.headAfterCursor = some cursor → cursor < e.timestamp) :
    e ∈ view.log.queryEvents order view.screen.headParams := by
  rw [queryEvents_head, List.take_of_length_le]
  · exact AuditLog.mem_sort.2 ⟨logged.1, admits_headParams.2 ⟨logged.2, after⟩⟩
  · rw [(order.perm _).length_eq]
    refine (List.Sublist.length_le (List.monotone_filter_right _ fun a admitted => ?_)).trans few
    exact (admits_headParams.1 admitted).1

/-- What is held stays, if there is room for all of it. -/
theorem mergeHead_held {s : ActivityScreen} {fetched : List Json} {row : Json} (member : row ∈ s.events)
    (room : (s.unheld fetched ++ s.events).length ≤ maxEvents) : row ∈ (s.mergeHead toLowercase fetched).events := by
  rcases mergeHead_cases toLowercase s fetched with same | relisted
  · rw [same]
    exact member
  · rw [relisted.events, List.take_of_length_le room]
    exact List.mem_append_right _ member

theorem tick_filter (toLowercase : String → String) {s : ActivityScreen}
    (fetch : EventFilter → Option (Except ClientError (List Json))) : (s.tick toLowercase fetch).filter = s.filter := by
  rcases tick_cases toLowercase s fetch with same | ⟨_, _, relisted⟩
  · exact same.filter
  · exact relisted.filter

theorem refresh_gets_all (toLowercase : String → String) (order : TimestampOrder) (holds : Holds view held) (keepsUp : KeepsUp view held)
    (few : (matching view).length ≤ fetchLimit) {e : AuditEvent} (logged : Logged view e) :
    EventKey.of e.toJson ∈
      (handleStep toLowercase view (.tick (.answered order))).1.screen.events.map EventKey.of := by
  have room : (view.screen.unheld (answer view.log order view.screen.headParams) ++ view.screen.events).length ≤ maxEvents := by
    rw [answer, unheld_map holds.events, holds.events, ← List.map_append, List.length_map]
    refine (List.Subperm.length_le (holds.nodup_append.subperm fun a member => ?_)).trans (few.trans (by decide))
    exact mem_matching.2 (logged_of_headParams holds member)
  by_cases after : ∀ cursor, view.screen.headAfterCursor = some cursor → cursor < e.timestamp
  · exact @mergeHead_fetched toLowercase { view.screen with error := none } _ _
      (List.mem_map_of_mem (answered_of_few few logged after)) room
  · push Not at after
    obtain ⟨cursor, begun, before⟩ := after
    obtain ⟨first, head⟩ : ∃ first, held.head? = some first := by
      cases head : held.head? with
      | none =>
        rw [ActivityScreen.headAfterCursor, holds.newest, head] at begun
        cases begun
      | some first => exact ⟨first, rfl⟩
    have newest : view.screen.newestTimestamp = some first.timestamp := by
      rw [holds.newest, head]
      rfl
    obtain ⟨mark, same, below⟩ :=
      headAfterCursor_lt (holds.stamped first (holds.known first (List.mem_of_mem_head? head)).1) newest
    obtain rfl := Option.some.inj (begun.symm.trans same)
    have old := keepsUp.held_of_older holds few logged head (lt_of_le_of_lt before below)
    refine List.mem_map_of_mem (@mergeHead_held toLowercase { view.screen with error := none } _ _ ?_ room)
    rw [holds.events]
    exact List.mem_map_of_mem old

end Calm

end Latchgate.Tui
