import Latchgate.Tui.AuditWindow

namespace Latchgate.Tui
open Calendar

/-! The selected row. -/

def Selected (toLowercase : String → String) (view : AuditView) (row : Json) : Prop :=
  (view.screen.visibleEvents toLowercase)[view.screen.selected]? = some row

section Selection
variable (toLowercase : String → String) {s t : ActivityScreen} {row : Json}

theorem visibleEvents_congr (events : t.events = s.events) (term : t.searchTerm = s.searchTerm) :
    t.visibleEvents toLowercase = s.visibleEvents toLowercase := by
  rw [ActivityScreen.visibleEvents, ActivityScreen.visibleEvents, ActivityScreen.searchedEvents, ActivityScreen.searchedEvents,
    events, term]

theorem visibleEvents_reanchor (anchor : Option EventKey) :
    (s.reanchor toLowercase anchor).visibleEvents toLowercase = s.visibleEvents toLowercase := by
  cases anchor with
  | none => rfl
  | some key => exact visibleEvents_congr toLowercase rfl rfl

theorem reanchor_selected (member : row ∈ s.visibleEvents toLowercase) :
    ∃ found, (s.visibleEvents toLowercase)[(s.reanchor toLowercase (some (EventKey.of row))).selected]? = some found ∧
      EventKey.of found = EventKey.of row := by
  obtain ⟨index, found⟩ : ∃ index,
      (s.visibleEvents toLowercase).findIdx? (fun event => EventKey.of event = EventKey.of row) = some index := by
    refine Option.isSome_iff_exists.mp ?_
    rw [List.findIdx?_isSome, List.any_eq_true]
    exact ⟨row, member, decide_eq_true rfl⟩
  obtain ⟨bound, here, -⟩ := List.findIdx?_eq_some_iff_getElem.mp found
  refine ⟨(s.visibleEvents toLowercase)[index], ?_, of_decide_eq_true here⟩
  simp only [ActivityScreen.reanchor, found, Option.getD_some, List.getElem?_eq_getElem bound]

theorem mergeHead_eq (fetched : List Json) : s.mergeHead toLowercase fetched = s ∨
    ∃ merged : ActivityScreen, s.mergeHead toLowercase fetched = merged.reanchor toLowercase (s.anchor toLowercase) := by
  unfold ActivityScreen.mergeHead
  dsimp only
  split_ifs
  · exact .inl rfl
  · exact .inr ⟨_, rfl⟩
  · exact .inl rfl
  · exact .inr ⟨_, rfl⟩

/-- A refresh keeps the selection at the event by which it is known, if this is
still visible. -/
theorem mergeHead_selected (fetched : List Json) (selected : (s.visibleEvents toLowercase)[s.selected]? = some row)
    (visible : row ∈ (s.mergeHead toLowercase fetched).visibleEvents toLowercase) :
    ∃ found, ((s.mergeHead toLowercase fetched).visibleEvents toLowercase)[(s.mergeHead toLowercase fetched).selected]? =
      some found ∧ EventKey.of found = EventKey.of row := by
  have anchor : s.anchor toLowercase = some (EventKey.of row) := by
    rw [ActivityScreen.anchor, selected]
    rfl
  rcases mergeHead_eq toLowercase fetched with same | ⟨merged, reanchored⟩
  · rw [same]
    exact ⟨row, selected, rfl⟩
  · rw [anchor] at reanchored
    rw [reanchored, visibleEvents_reanchor] at visible ⊢
    exact reanchor_selected toLowercase visible

theorem tick_selected (fetch : EventFilter → Option (Except ClientError (List Json)))
    (selected : (s.visibleEvents toLowercase)[s.selected]? = some row)
    (visible : row ∈ (s.tick toLowercase fetch).visibleEvents toLowercase) :
    ∃ found, ((s.tick toLowercase fetch).visibleEvents toLowercase)[(s.tick toLowercase fetch).selected]? = some found ∧
      EventKey.of found = EventKey.of row := by
  unfold ActivityScreen.tick at visible ⊢
  split at visible
  · exact ⟨row, selected, rfl⟩
  · exact mergeHead_selected toLowercase _ selected visible
  all_goals exact ⟨row, selected, rfl⟩

theorem searchedEvents_append {more : List Json} (events : t.events = s.events ++ more) (term : t.searchTerm = s.searchTerm) :
    ∃ found, t.searchedEvents toLowercase = s.searchedEvents toLowercase ++ found := by
  rw [ActivityScreen.searchedEvents, ActivityScreen.searchedEvents, events, term]
  cases s.searchTerm with
  | none => exact ⟨more, rfl⟩
  | some term =>
    dsimp only
    split_ifs
    · exact ⟨more, rfl⟩
    · exact ⟨_, List.filter_append _ _⟩

theorem resolvedApprovals_append (first second : List Json) :
    resolvedApprovals (first ++ second) = resolvedApprovals first ++ resolvedApprovals second := by
  rw [resolvedApprovals, List.filter_append, List.filterMap_append]
  rfl

theorem superseded_mono {fewer more : List String} (mono : fewer ⊆ more) (hidden : superseded fewer row = true) :
    superseded more row = true := by
  unfold superseded at hidden ⊢
  rw [Bool.and_eq_true, Option.any_eq_true] at hidden ⊢
  obtain ⟨pending, approvalId, held, resolved⟩ := hidden
  exact ⟨pending, approvalId, held, decide_eq_true (mono (of_decide_eq_true resolved))⟩

/-- Rows that are added at the end hide others or leave them all in their places. -/
theorem visibleEvents_append {more : List Json} (events : t.events = s.events ++ more) (term : t.searchTerm = s.searchTerm)
    (visible : ∀ row ∈ s.visibleEvents toLowercase, row ∈ t.visibleEvents toLowercase) :
    ∃ found, t.visibleEvents toLowercase = s.visibleEvents toLowercase ++ found := by
  obtain ⟨found, searched⟩ := searchedEvents_append toLowercase events term
  rw [ActivityScreen.visibleEvents, ActivityScreen.visibleEvents, searched, List.filter_append]
  refine ⟨_, congrArg (· ++ _) (List.filter_congr fun row member => ?_)⟩
  rw [Bool.not_inj_iff]
  have mono : resolvedApprovals (s.searchedEvents toLowercase) ⊆
      resolvedApprovals (s.searchedEvents toLowercase ++ found) := by
    rw [resolvedApprovals_append]
    exact List.subset_append_left _ _
  cases hidden : superseded (resolvedApprovals (s.searchedEvents toLowercase)) row with
  | true => exact superseded_mono mono hidden
  | false =>
    have shown : row ∈ s.visibleEvents toLowercase := List.mem_filter.mpr ⟨member, by rw [hidden]; rfl⟩
    have still := (List.mem_filter.mp (visible row shown)).2
    rw [searched] at still
    exact (Bool.not_eq_true' _).mp still

/-- Older events are put behind those that are held, and the selection stays where
it is. -/
theorem handleAction_appends (fetch : EventFilter → Option (Except ClientError (List Json)))
    (bound : s.events.length ≤ maxEvents) :
    (s.handleAction fetch).1.selected = s.selected ∧ (s.handleAction fetch).1.searchTerm = s.searchTerm ∧
      ∃ more, (s.handleAction fetch).1.events = s.events ++ more := by
  have kept : ∃ more, s.events = s.events ++ more := ⟨[], (List.append_nil _).symm⟩
  unfold ActivityScreen.handleAction
  split_ifs
  · dsimp only
    split
    · exact ⟨rfl, rfl, kept⟩
    · split
      · exact ⟨rfl, rfl, kept⟩
      · split_ifs
        · exact ⟨rfl, rfl, kept⟩
        · refine ⟨rfl, rfl, ?_⟩
          rw [ActivityScreen.appendOlder]
          dsimp only
          rw [List.take_append, List.take_of_length_le bound]
          exact ⟨_, rfl⟩
      · exact ⟨rfl, rfl, kept⟩
  · exact ⟨rfl, rfl, kept⟩

end Selection

/-! Whole runs. -/

def auditAfter (toLowercase : String → String) (steps : List AuditStep) : AuditView :=
  (auditView toLowercase).run {} steps

theorem holds_after (toLowercase : String → String) (steps : List AuditStep) :
    ∃ held, Holds (auditAfter toLowercase steps) held ∧
      ((auditView toLowercase).Meets Orderly {} steps → KeepsUp (auditAfter toLowercase steps) held) := by
  induction steps using List.reverseRecOn with
  | nil => exact ⟨[], ⟨rfl, List.nodup_nil, List.forall_mem_nil _, Nat.zero_le _, rfl, rfl, List.forall_mem_nil _⟩, fun _ => Feed.Window.nil⟩
  | append_singleton steps step ih =>
    obtain ⟨held, holds, keepsUp⟩ := ih
    have last : auditAfter toLowercase (steps ++ [step]) = (handleStep toLowercase (auditAfter toLowercase steps) step).1 :=
      Machine.run_concat _ _ _ _
    obtain ⟨held', holds', keepsUp'⟩ := holds.step (change_of_step toLowercase (auditAfter toLowercase steps) step)
    refine ⟨held', last ▸ holds', fun meets => ?_⟩
    obtain ⟨earlier, here, -⟩ := Machine.meets_append.1 meets
    exact last ▸ keepsUp' here (keepsUp earlier)

/-- The step is a write, or a refresh after which the row is visible, or a fetch of
older events that hides no row. -/
def Keeps (toLowercase : String → String) (view : AuditView) (row : Json) : AuditStep → Prop
  | .write _ => True
  | .tick reply => row ∈ (handleStep toLowercase view (.tick reply)).1.screen.visibleEvents toLowercase
  | .key key reply => view.screen.inputMode = none ∧ key.code = .char 'o' ∧
    ∀ shown ∈ view.screen.visibleEvents toLowercase,
      shown ∈ (handleStep toLowercase view (.key key reply)).1.screen.visibleEvents toLowercase

theorem visible_held {toLowercase : String → String} {view : AuditView} {held : List AuditEvent} {row : Json}
    (holds : Holds view held) (visible : row ∈ view.screen.visibleEvents toLowercase) : ∃ e ∈ held, row = e.toJson := by
  have listed : row ∈ view.screen.events := by
    have searched := List.mem_of_mem_filter visible
    unfold ActivityScreen.searchedEvents at searched
    split at searched
    · split_ifs at searched
      · exact searched
      · exact List.mem_of_mem_filter searched
    · exact searched
  rw [holds.events] at listed
  obtain ⟨e, member, same⟩ := List.mem_map.mp listed
  exact ⟨e, member, same.symm⟩

theorem selected_step (toLowercase : String → String) {view : AuditView} {held : List AuditEvent} (holds : Holds view held)
    {step : AuditStep} {row : Json} (selected : Selected toLowercase view row) (keeps : Keeps toLowercase view row step) :
    Selected toLowercase (handleStep toLowercase view step).1 row := by
  cases step with
  | write event => exact selected
  | tick reply =>
    obtain ⟨found, here, same⟩ := tick_selected toLowercase (fun params => reply.fetch view.log params) selected keeps
    obtain ⟨held', holds', -⟩ := holds.step (change_of_step toLowercase view (.tick reply))
    obtain ⟨a, first, rfl⟩ := visible_held holds' keeps
    obtain ⟨b, second, rfl⟩ := visible_held holds' (List.mem_of_getElem? here)
    rw [Selected, ← eq_of_key (holds'.known b second).1 (holds'.known a first).1 same]
    exact here
  | key key reply =>
    obtain ⟨free, pressed, visible⟩ := keeps
    rcases handleKey_cases toLowercase view.screen key with ⟨-, quiet⟩ | ⟨-, -, asked⟩
    · -- without an oldest event the key does nothing
      have nothing : (handleStep toLowercase view (.key key reply)).1 = view := by
        have command : view.screen.handleKey toLowercase key = view.screen.handleCommand toLowercase (.char 'o') := by
          simp only [ActivityScreen.handleKey, free, pressed]
        have idle : view.screen.handleKey toLowercase key = (view.screen, .noop) := by
          rw [command] at quiet ⊢
          unfold ActivityScreen.handleCommand at quiet ⊢
          split_ifs at quiet ⊢
          · exact absurd rfl quiet
          · rfl
        simp only [handleStep, idle]
      rw [nothing]
      exact selected
    · have started : (handleStep toLowercase view (.key key reply)).1 =
          { view with
            screen := ({ view.screen with loadOlder := true }.handleAction fun params => reply.fetch view.log params).1 } := by
        simp only [handleStep, asked]
      have bound : view.screen.events.length ≤ maxEvents := by
        rw [holds.events, List.length_map]
        exact holds.bound
      obtain ⟨place, term, more, events⟩ :=
        @handleAction_appends { view.screen with loadOlder := true } (fun params => reply.fetch view.log params) bound
      rw [started] at visible ⊢
      obtain ⟨found, longer⟩ := @visibleEvents_append toLowercase view.screen _ more events term visible
      obtain ⟨inside, -⟩ := List.getElem?_eq_some_iff.mp selected
      rw [Selected, longer, place, List.getElem?_append_left inside]
      exact selected

/-- After every run the screen holds at most the allowed number of events, which
are events of the log that the filter admits, each once. After an orderly run they
are in the order of time, and none that is between the first and the last of them is
missing. The selected row stays selected when events are written, when it is still
visible after a refresh, and when older events hide no row. -/
theorem held_events_keep_up (toLowercase : String → String) (steps : List AuditStep) :
    ∃ held, Holds (auditAfter toLowercase steps) held ∧
      ((auditView toLowercase).Meets Orderly {} steps →
        (held.Pairwise fun a b => b.timestamp ≤ a.timestamp) ∧
        ∀ e, Logged (auditAfter toLowercase steps) e →
          ∀ first last, held.head? = some first → held.getLast? = some last →
            last.timestamp < e.timestamp → e.timestamp < first.timestamp → e ∈ held) ∧
      ∀ step row, Selected toLowercase (auditAfter toLowercase steps) row →
        Keeps toLowercase (auditAfter toLowercase steps) row step →
        Selected toLowercase (auditAfter toLowercase (steps ++ [step])) row := by
  obtain ⟨held, holds, keepsUp⟩ := holds_after toLowercase steps
  refine ⟨held, holds, fun meets => ⟨(keepsUp meets).newest, (keepsUp meets).gapFree⟩, fun step row selected keeps => ?_⟩
  have last : auditAfter toLowercase (steps ++ [step]) = (handleStep toLowercase (auditAfter toLowercase steps) step).1 :=
    Machine.run_concat _ _ _ _
  rw [last]
  exact selected_step toLowercase holds selected keeps

/-! A request for an approval, the decision about it, and an event that comes late. -/

def sortedOrder : TimestampOrder where
  sort events := events.insertionSort fun a b => b.timestamp ≤ a.timestamp
  perm events := List.perm_insertionSort _ events
  newest events := List.pairwise_insertionSort _ events

def pendingEvent : AuditEvent :=
  { traceId := "a", timestamp := "2026-01-01T00:00:05.000Z", eventType := .actionCall
    policy := { decision := .pendingApproval }, approval := { approvalId := some "r" } }

def decidedEvent : AuditEvent :=
  { traceId := "b", timestamp := "2026-01-01T00:00:06.000Z", eventType := .actionCall
    policy := { decision := .allow }, approval := { approvalId := some "r" } }

def lateEvent : AuditEvent :=
  { traceId := "c", timestamp := "2026-01-01T00:00:04.500Z", eventType := .actionCall }

def requestSteps : List AuditStep :=
  [.write ⟨pendingEvent, 63934444805000, by decide, by decide, by decide⟩, .tick (.answered sortedOrder)]

def decisionSteps : List AuditStep :=
  [.write ⟨decidedEvent, 63934444806000, by decide, by decide, by decide⟩, .tick (.answered sortedOrder)]

def lateSteps : List AuditStep :=
  [.write ⟨lateEvent, 63934444804500, by decide, by decide, by decide⟩, .tick (.answered sortedOrder)]

theorem orderly_sample : (auditView id).Meets Orderly {} (requestSteps ++ decisionSteps) := by
  have newest : (auditAfter id requestSteps).screen.newestTimestamp = some pendingEvent.timestamp := by decide
  have oldest : (auditAfter id requestSteps).screen.oldestTimestamp = some pendingEvent.timestamp := by decide
  have fits : (auditAfter id (requestSteps ++ decisionSteps.take 1)).log.events.countP
      (fun e => (auditAfter id requestSteps).screen.filter.matches e && pendingEvent.timestamp ≤ e.timestamp) ≤ fetchLimit := by
    decide
  refine ⟨fun _ _ held => ?_, fun _ _ held => ?_, fun _ first held => ?_, fun first last held end_ => ?_, trivial⟩
  · cases held
  · cases held
  · obtain rfl := Option.some.inj (newest.symm.trans held)
    decide
  · obtain rfl := Option.some.inj (newest.symm.trans held)
    obtain rfl := Option.some.inj (oldest.symm.trans end_)
    exact ⟨fits, fun e _ _ older level => absurd level older.ne⟩

theorem held_events_keep_up_sample : ∃ held, Holds (auditAfter id (requestSteps ++ decisionSteps)) held ∧
    held.Pairwise fun a b => b.timestamp ≤ a.timestamp := by
  obtain ⟨held, holds, orderly, -⟩ := held_events_keep_up id (requestSteps ++ decisionSteps)
  exact ⟨held, holds, (orderly orderly_sample).1⟩

/-- The row of a request that is decided gives way to that of the decision, and the
selection with it. An event that is written after a newer one is put in front of it. -/
theorem selection_moves_and_late_event_leads :
    ((((auditAfter id requestSteps).screen.visibleEvents id)[(auditAfter id requestSteps).screen.selected]?).map EventKey.of =
        some (EventKey.of pendingEvent.toJson) ∧
      EventKey.of pendingEvent.toJson ∈ (auditAfter id (requestSteps ++ decisionSteps)).screen.events.map EventKey.of ∧
      (((auditAfter id (requestSteps ++ decisionSteps)).screen.visibleEvents id)[
          (auditAfter id (requestSteps ++ decisionSteps)).screen.selected]?).map EventKey.of =
        some (EventKey.of decidedEvent.toJson)) ∧
    (auditAfter id (requestSteps ++ lateSteps)).screen.events.map (textField "timestamp") =
      [some lateEvent.timestamp, some pendingEvent.timestamp] ∧
    lateEvent.timestamp < pendingEvent.timestamp := by
  refine ⟨⟨?_, ?_, ?_⟩, ?_, ?_⟩ <;> decide

end Latchgate.Tui
