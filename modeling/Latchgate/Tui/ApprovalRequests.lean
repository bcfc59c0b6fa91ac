import Latchgate.Tui.Approvals

namespace Latchgate.Tui
open ApprovalsScreen

/-- The screen after some events. -/
def after (events : List Event) : ApprovalsScreen :=
  approvalsScreen.run {} events

/-- A refresh has got this record as the one of the approval. -/
def Fetched (events : List Event) (approvalId : String) (detail : Json) : Prop :=
  ∃ gate : ApprovalsScreen.Gate, Event.tick gate ∈ events ∧ gate.getApproval approvalId = some (.ok detail)

/-- The approval is selected, and its record is on the screen. -/
structure Shown (events : List Event) (approvalId : String) (detail : Json) : Prop where
  held : (after events).detail = some detail
  selected : (after events).selectedId = some approvalId
  fetched : Fetched events approvalId detail

/-- One of the keys was pressed while this was shown, and nothing has been sent
since then. -/
def Begun (keys : List KeyCode) (events : List Event) (approvalId : String) (detail : Json) : Prop :=
  ∃ before key reply later, events = before ++ .key key reply :: later ∧ key.code ∈ keys ∧
    Shown before approvalId detail ∧
    ∀ entry ∈ approvalsScreen.trace (after before) (.key key reply :: later), entry.2.sent = []

/-! What a key can do. -/

inductive Pressed (s : ApprovalsScreen) (key : KeyCode) : ApprovalsScreen → List ClientRequest → Prop where
  | kept : Pressed s key s []
  | unselected {t : ApprovalsScreen} (detail : t.detail = none) (deny : t.denyInput = s.denyInput)
      (confirm : t.confirmAction = s.confirmAction) : Pressed s key t []
  | asked {approvalId : String} {detail : Json} {action : ConfirmAction} (held : s.detail = some detail)
      (selected : s.selectedId = some approvalId) (free : s.denyInput = none) (pressed : key ∈ [.char 'a', .char 'l'])
      (request : action.confirmed.request =
        approveApproval approvalId (firstUnresolvedDomain detail) (firstUnresolvedPath detail)) :
      Pressed s key { s with confirmAction := some action } []
  | dismissed : Pressed s key { s with confirmAction := none } []
  | confirmed {t : ApprovalsScreen} {action : ConfirmAction} (question : s.confirmAction = some action)
      (free : s.denyInput = none) (pressed : key = .char 'y') (detail : t.detail = none) (deny : t.denyInput = none)
      (confirm : t.confirmAction = none) : Pressed s key t [action.confirmed.request]
  | opened {approvalId : String} {detail : Json} {input : TextInput} (held : s.detail = some detail)
      (selected : s.selectedId = some approvalId) (free : s.confirmAction = none) (pressed : key = .char 'd') :
      Pressed s key { s with denyInput := some { approvalId, input } } []
  | edited {deny : DenyInput} {input : TextInput} (typing : s.denyInput = some deny) :
      Pressed s key { s with denyInput := some { deny with input } } []
  | cancelled : Pressed s key { s with denyInput := none } []
  | submitted {t : ApprovalsScreen} {deny : DenyInput} {reason : Option String} (typing : s.denyInput = some deny)
      (pressed : key = .enter) (detail : t.detail = none) (input : t.denyInput = none)
      (confirm : t.confirmAction = s.confirmAction) : Pressed s key t [denyApproval deny.approvalId reason]

section Keys
variable {s : ApprovalsScreen}

/-- Nothing is first where there is nothing. -/
theorem firstUnresolved_eq_none {key : String} {detail : Json} (resolved : anyUnresolved key detail = false) :
    firstUnresolved key detail = none := by
  unfold anyUnresolved at resolved
  unfold firstUnresolved
  cases found : listField key detail with
  | none => rfl
  | some items =>
    rw [found] at resolved
    have empty : items = [] := by simpa using resolved
    rw [empty]
    rfl

theorem askApprove_eq (approvalId : String) (detail : Json) :
    ∃ action : ConfirmAction, s.askApprove approvalId detail = { s with confirmAction := some action } ∧
      action.confirmed.request =
        approveApproval approvalId (firstUnresolvedDomain detail) (firstUnresolvedPath detail) := by
  unfold askApprove
  split_ifs with unresolved
  · exact ⟨_, rfl, rfl⟩
  · have resolved := Bool.or_eq_false_iff.mp (Bool.eq_false_iff.mpr unresolved)
    refine ⟨_, rfl, ?_⟩
    rw [firstUnresolvedDomain, firstUnresolvedPath, firstUnresolved_eq_none resolved.1, firstUnresolved_eq_none resolved.2]
    rfl

theorem beginWith_cases (start : String → Json → ApprovalsScreen) :
    s.beginWith start = (s, .noop) ∨
      ∃ approvalId detail, s.detail = some detail ∧ s.selectedId = some approvalId ∧
        s.beginWith start = (start approvalId detail, .beginInput) := by
  unfold beginWith
  split
  · rename_i detail approvalId held selected
    split_ifs
    · exact .inr ⟨approvalId, detail, held, selected, rfl⟩
    · exact .inl rfl
  · exact .inl rfl

theorem pressed_command (s : ApprovalsScreen) (key : KeyCode) (noInput : s.denyInput = none)
    (noQuestion : s.confirmAction = none) :
    Pressed s key (s.handleCommand key).1 [] ∧ (s.handleCommand key).2 ≠ .asyncAction := by
  unfold handleCommand
  split
  case h_1 | h_2 =>
    refine ⟨?_, nofun⟩
    unfold moveUp
    split_ifs
    · exact .unselected rfl rfl rfl
    · exact .kept
  case h_3 | h_4 =>
    refine ⟨?_, nofun⟩
    unfold moveDown
    split_ifs
    · exact .unselected rfl rfl rfl
    · exact .kept
  case h_5 =>
    rcases beginWith_cases s.askApprove with nothing | ⟨approvalId, detail, held, selected, begun⟩
    · rw [nothing]
      exact ⟨.kept, nofun⟩
    · obtain ⟨action, asks, request⟩ := @askApprove_eq s approvalId detail
      rw [begun, asks]
      exact ⟨.asked held selected noInput (by simp) request, nofun⟩
  case h_6 =>
    split_ifs
    · rcases beginWith_cases s.askLearn with nothing | ⟨approvalId, detail, held, selected, begun⟩
      · rw [nothing]
        exact ⟨.kept, nofun⟩
      · rw [begun]
        exact ⟨.asked held selected noInput (by simp) rfl, nofun⟩
    · exact ⟨.kept, nofun⟩
  case h_7 =>
    rcases beginWith_cases (fun approvalId _ => s.askReason approvalId) with
      nothing | ⟨approvalId, detail, held, selected, begun⟩
    · rw [nothing]
      exact ⟨.kept, nofun⟩
    · rw [begun]
      exact ⟨.opened held selected noQuestion rfl, nofun⟩
  case h_8 => exact ⟨.unselected rfl rfl rfl, nofun⟩
  case h_9 =>
    refine ⟨.kept, ?_⟩
    split_ifs <;> nofun
  case h_10 => exact ⟨.kept, nofun⟩

/-- Of all keys only the confirmation of a question and the end of a reason send
something. -/
theorem pressed_key (s : ApprovalsScreen) (key : KeyEvent) (reply : ClientRequest → Option (Except ClientError Json)) :
    Pressed s key.code (handleEvent s (.key key reply)).1 (handleEvent s (.key key reply)).2.sent := by
  cases typing : s.denyInput with
  | some deny =>
    cases action : (deny.input.handleKey key).2 with
    | submit reason =>
      have step : s.handleKey key =
          ({ s with denyInput := none, pendingAction := some (.deny deny.approvalId reason) }, .asyncAction) := by
        simp only [handleKey, typing, action]
      simp only [handleEvent, step, handleAction]
      exact .submitted typing (deny.input.handleKey_submit action).1 rfl rfl rfl
    | cancel =>
      have step : s.handleKey key = ({ s with denyInput := none }, .endInput) := by simp only [handleKey, typing, action]
      simp only [handleEvent, step]
      exact .cancelled
    | continue_ =>
      have step : s.handleKey key =
          ({ s with denyInput := some { deny with input := (deny.input.handleKey key).1 } }, .noop) := by
        simp only [handleKey, typing, action]
      simp only [handleEvent, step]
      exact .edited typing
  | none =>
    cases question : s.confirmAction with
    | some action =>
      by_cases yes : key.code = .char 'y'
      · have step : s.handleKey key =
            ({ s with confirmAction := none, pendingAction := some action.confirmed }, .asyncAction) := by
          simp only [handleKey, typing, question, if_pos yes]
        simp only [handleEvent, step, handleAction]
        exact .confirmed question typing yes rfl typing rfl
      · have step : s.handleKey key = ({ s with confirmAction := none }, .endInput) := by
          simp only [handleKey, typing, question, if_neg yes]
        simp only [handleEvent, step]
        exact .dismissed
    | none =>
      have step : s.handleKey key = s.handleCommand key.code := by simp only [handleKey, typing, question]
      obtain ⟨pressed, waits⟩ := pressed_command s key.code typing question
      cases command : s.handleCommand key.code with
      | mk t action =>
        rw [command] at pressed waits
        have quiet : handleEvent s (.key key reply) = (t, ⟨[], none⟩) := by
          simp only [handleEvent, step, command]
        rw [quiet]
        exact pressed

end Keys

/-! What a refresh can do. -/

section Refresh
variable {s : ApprovalsScreen} {gate : ApprovalsScreen.Gate} {list : List Json} {detail : Json}

/-- A record that stays is that of the approval that stays selected. -/
theorem replaceList_detail (held : (s.replaceList list).detail = some detail) :
    s.detail = some detail ∧ ∀ approvalId, s.selectedId = some approvalId →
      (s.replaceList list).selectedId = some approvalId := by
  unfold replaceList at held ⊢
  dsimp only at held ⊢
  split_ifs at held ⊢ with empty
  cases was : s.selectedId with
  | none =>
    rw [was] at held
    exact ⟨held, nofun⟩
  | some approvalId =>
    rw [was] at held
    cases found : (s.arrange list).findIdx? fun approval => textField "approval_id" approval = some approvalId with
    | none =>
      simp only [found] at held
      cases held
    | some index =>
      simp only [found] at held
      refine ⟨held, fun same selected => ?_⟩
      obtain ⟨bound, here, -⟩ := List.findIdx?_eq_some_iff_getElem.mp found
      simp only [found, selectedId, List.getElem?_eq_getElem bound, Option.bind_some]
      rw [of_decide_eq_true here, ← selected]

theorem fetchDetail_selectedId (s : ApprovalsScreen) (gate : ApprovalsScreen.Gate) : (s.fetchDetail gate).selectedId = s.selectedId := by
  unfold fetchDetail
  split
  · rfl
  · rfl
  · split <;> rfl

theorem fetchDetail_detail (held : (s.fetchDetail gate).detail = some detail) :
    s.detail = some detail ∨
      ∃ approvalId, s.selectedId = some approvalId ∧ gate.getApproval approvalId = some (.ok detail) := by
  unfold fetchDetail at held
  split at held
  · exact .inl held
  · exact .inl held
  · rename_i approvalId none_ selected
    split at held
    · exact .inl held
    · rename_i fetched replied
      cases held
      exact .inr ⟨approvalId, selected, replied⟩
    · exact .inl held

/-- The record on the screen has just been fetched, or it stays with its approval. -/
theorem tick_detail (held : (s.tick gate).detail = some detail) :
    (∃ approvalId, (s.tick gate).selectedId = some approvalId ∧ gate.getApproval approvalId = some (.ok detail)) ∨
      s.detail = some detail ∧ ∀ approvalId, s.selectedId = some approvalId →
        (s.tick gate).selectedId = some approvalId := by
  unfold tick at held ⊢
  dsimp only at held ⊢
  split at held
  · exact .inr ⟨held, fun _ selected => selected⟩
  · rename_i list replied
    split_ifs at held ⊢ with empty
    · exact .inr (replaceList_detail held)
    · rw [fetchDetail_selectedId]
      rcases fetchDetail_detail held with stays | fetched
      · exact .inr (replaceList_detail stays)
      · exact .inl fetched
  · exact .inr ⟨held, fun _ selected => selected⟩
  · cases held
  · exact .inr ⟨held, fun _ selected => selected⟩

theorem replaceList_dialogs (s : ApprovalsScreen) (list : List Json) :
    (s.replaceList list).denyInput = s.denyInput ∧ (s.replaceList list).confirmAction = s.confirmAction := by
  unfold replaceList
  dsimp only
  split_ifs
  · exact ⟨rfl, rfl⟩
  · split
    · split <;> exact ⟨rfl, rfl⟩
    · exact ⟨rfl, rfl⟩

theorem fetchDetail_dialogs (s : ApprovalsScreen) (gate : ApprovalsScreen.Gate) :
    (s.fetchDetail gate).denyInput = s.denyInput ∧ (s.fetchDetail gate).confirmAction = s.confirmAction := by
  unfold fetchDetail
  split
  · exact ⟨rfl, rfl⟩
  · exact ⟨rfl, rfl⟩
  · split <;> exact ⟨rfl, rfl⟩

/-- A refresh does not touch what is asked or typed. -/
theorem tick_dialogs (s : ApprovalsScreen) (gate : ApprovalsScreen.Gate) :
    (s.tick gate).denyInput = s.denyInput ∧ (s.tick gate).confirmAction = s.confirmAction := by
  unfold tick
  dsimp only
  split
  · exact ⟨rfl, rfl⟩
  · rename_i list replied
    have replaced := replaceList_dialogs { s with tickCount := (s.tickCount + 1) % 2 ^ 64 } list
    split_ifs
    · exact replaced
    · exact ⟨(fetchDetail_dialogs _ gate).1.trans replaced.1, (fetchDetail_dialogs _ gate).2.trans replaced.2⟩
  · exact ⟨rfl, rfl⟩
  · exact ⟨rfl, rfl⟩
  · exact ⟨rfl, rfl⟩

end Refresh

/-! What holds after any events. -/

theorem after_concat (events : List Event) (event : Event) :
    after (events ++ [event]) = (handleEvent (after events) event).1 :=
  Machine.run_concat _ _ _ _

theorem Fetched.later {events : List Event} {approvalId : String} {detail : Json} (fetched : Fetched events approvalId detail)
    (more : List Event) : Fetched (events ++ more) approvalId detail := by
  obtain ⟨gate, member, replied⟩ := fetched
  exact ⟨gate, List.mem_append_left _ member, replied⟩

/-- Questions stay open over events that send nothing. -/
theorem Begun.later {keys : List KeyCode} {events : List Event} {approvalId : String} {detail : Json}
    (begun : Begun keys events approvalId detail) {event : Event} (quiet : (handleEvent (after events) event).2.sent = []) :
    Begun keys (events ++ [event]) approvalId detail := by
  obtain ⟨before, key, reply, later, rfl, pressed, shown, silent⟩ := begun
  refine ⟨before, key, reply, later ++ [event], by rw [List.append_assoc, List.cons_append], pressed, shown, ?_⟩
  have whole : Event.key key reply :: (later ++ [event]) = (.key key reply :: later) ++ [event] := rfl
  rw [whole, Machine.trace_concat]
  refine List.forall_mem_append.mpr ⟨silent, List.forall_mem_singleton.mpr ?_⟩
  rw [after, Machine.run_append] at quiet
  exact quiet

theorem Shown.begun {events : List Event} {approvalId : String} {detail : Json} (shown : Shown events approvalId detail)
    {keys : List KeyCode} {key : KeyEvent} (pressed : key.code ∈ keys)
    {reply : ClientRequest → Option (Except ClientError Json)}
    (quiet : (handleEvent (after events) (.key key reply)).2.sent = []) :
    Begun keys (events ++ [.key key reply]) approvalId detail :=
  ⟨events, key, reply, [], rfl, pressed, shown, List.forall_mem_singleton.mpr quiet⟩

/-- The record is that of the selection, and what is asked or typed is about the
approval that was shown when it was opened. -/
structure Sound (events : List Event) (s : ApprovalsScreen) : Prop where
  detail : ∀ detail, s.detail = some detail →
    ∃ approvalId, s.selectedId = some approvalId ∧ Fetched events approvalId detail
  confirm : ∀ action, s.confirmAction = some action → ∃ approvalId detail,
    Begun [.char 'a', .char 'l'] events approvalId detail ∧
      action.confirmed.request = approveApproval approvalId (firstUnresolvedDomain detail) (firstUnresolvedPath detail)
  deny : ∀ deny, s.denyInput = some deny → ∃ detail, Begun [.char 'd'] events deny.approvalId detail
  apart : s.denyInput = none ∨ s.confirmAction = none

section Soundness
variable {events : List Event}

theorem Sound.tick (sound : Sound events (after events)) (gate : ApprovalsScreen.Gate) :
    Sound (events ++ [.tick gate]) ((after events).tick gate) := by
  obtain ⟨sameDeny, sameConfirm⟩ := tick_dialogs (after events) gate
  have quiet : (handleEvent (after events) (.tick gate)).2.sent = [] := rfl
  refine ⟨fun detail held => ?_, fun action asked => ?_, fun deny typing => ?_, ?_⟩
  · rcases tick_detail held with ⟨approvalId, selected, replied⟩ | ⟨stays, anchored⟩
    · exact ⟨approvalId, selected, gate, List.mem_append_right _ (List.mem_singleton_self _), replied⟩
    · obtain ⟨approvalId, selected, fetched⟩ := sound.detail detail stays
      exact ⟨approvalId, anchored approvalId selected, fetched.later _⟩
  · obtain ⟨approvalId, detail, begun, request⟩ := sound.confirm action (sameConfirm ▸ asked)
    exact ⟨approvalId, detail, begun.later quiet, request⟩
  · obtain ⟨detail, begun⟩ := sound.deny deny (sameDeny ▸ typing)
    exact ⟨detail, begun.later quiet⟩
  · rw [sameDeny, sameConfirm]
    exact sound.apart

theorem Sound.shown (sound : Sound events (after events)) {approvalId : String} {detail : Json}
    (held : (after events).detail = some detail) (selected : (after events).selectedId = some approvalId) :
    Shown events approvalId detail := by
  obtain ⟨other, same, fetched⟩ := sound.detail detail held
  obtain rfl := Option.some.inj (selected.symm.trans same)
  exact ⟨held, selected, fetched⟩

theorem Sound.key (sound : Sound events (after events)) (key : KeyEvent)
    (reply : ClientRequest → Option (Except ClientError Json)) {t : ApprovalsScreen} {sent : List ClientRequest}
    (state : (handleEvent (after events) (.key key reply)).1 = t)
    (output : (handleEvent (after events) (.key key reply)).2.sent = sent)
    (pressed : Pressed (after events) key.code t sent) : Sound (events ++ [.key key reply]) t := by
  have fetchedStill : ∀ detail, (after events).detail = some detail →
      ∃ approvalId, (after events).selectedId = some approvalId ∧ Fetched (events ++ [.key key reply]) approvalId detail := by
    intro detail held
    obtain ⟨approvalId, selected, fetched⟩ := sound.detail detail held
    exact ⟨approvalId, selected, fetched.later _⟩
  have askedStill : sent = [] → ∀ action, (after events).confirmAction = some action → ∃ approvalId detail,
      Begun [.char 'a', .char 'l'] (events ++ [.key key reply]) approvalId detail ∧
        action.confirmed.request =
          approveApproval approvalId (firstUnresolvedDomain detail) (firstUnresolvedPath detail) := by
    intro quiet action asked
    obtain ⟨approvalId, detail, begun, request⟩ := sound.confirm action asked
    exact ⟨approvalId, detail, begun.later (output.trans quiet), request⟩
  have typedStill : sent = [] → ∀ deny, (after events).denyInput = some deny →
      ∃ detail, Begun [.char 'd'] (events ++ [.key key reply]) deny.approvalId detail := by
    intro quiet deny typing
    obtain ⟨detail, begun⟩ := sound.deny deny typing
    exact ⟨detail, begun.later (output.trans quiet)⟩
  cases pressed with
  | kept => exact ⟨fetchedStill, askedStill rfl, typedStill rfl, sound.apart⟩
  | unselected none_ deny confirm =>
    refine ⟨fun detail held => absurd (none_.symm.trans held) nofun, ?_, ?_, ?_⟩
    · rw [confirm]
      exact askedStill rfl
    · rw [deny]
      exact typedStill rfl
    · rw [deny, confirm]
      exact sound.apart
  | asked held selected free code request =>
    refine ⟨fetchedStill, fun action asked => ?_, typedStill rfl, .inl free⟩
    obtain rfl := Option.some.inj asked
    exact ⟨_, _, (sound.shown held selected).begun code output, request⟩
  | dismissed => exact ⟨fetchedStill, nofun, typedStill rfl, .inr rfl⟩
  | confirmed question free code none_ deny confirm =>
    exact ⟨fun detail held => absurd (none_.symm.trans held) nofun, fun action asked => absurd (confirm.symm.trans asked) nofun,
      fun input typing => absurd (deny.symm.trans typing) nofun, .inl deny⟩
  | opened held selected free code =>
    refine ⟨fetchedStill, fun action asked => absurd (free.symm.trans asked) nofun, fun deny typing => ?_, .inr free⟩
    obtain rfl := Option.some.inj typing
    exact ⟨_, (sound.shown held selected).begun (List.mem_singleton.mpr code) output⟩
  | edited typing =>
    have free := sound.apart.resolve_left (typing ▸ nofun)
    refine ⟨fetchedStill, askedStill rfl, fun deny typed => ?_, .inr free⟩
    obtain rfl := Option.some.inj typed
    obtain ⟨detail, begun⟩ := typedStill rfl _ typing
    exact ⟨detail, begun⟩
  | cancelled => exact ⟨fetchedStill, askedStill rfl, nofun, .inl rfl⟩
  | submitted typing code none_ input confirm =>
    have free := sound.apart.resolve_left (typing ▸ nofun)
    exact ⟨fun detail held => absurd (none_.symm.trans held) nofun,
      fun action asked => absurd ((confirm.trans free).symm.trans asked) nofun,
      fun deny typed => absurd (input.symm.trans typed) nofun, .inl input⟩

end Soundness

theorem sound_after (events : List Event) : Sound events (after events) := by
  induction events using List.reverseRecOn with
  | nil => exact ⟨nofun, nofun, nofun, .inl rfl⟩
  | append_singleton events event ih =>
    rw [after_concat]
    cases event with
    | tick gate => exact ih.tick gate
    | key key reply => exact ih.key key reply rfl rfl (pressed_key _ key reply)

/-- After any events the record on the screen is that of the approval that is
selected. A request is sent only when a question is confirmed or a reason is
entered, and then it is the only one: it names the approval that was shown when
this was begun, learns what its record has as unresolved, and no other has been
sent since. -/
theorem requests_follow_what_was_shown (events : List Event) :
    (∀ detail, (after events).detail = some detail →
      ∃ approvalId, (after events).selectedId = some approvalId ∧ Fetched events approvalId detail) ∧
    ∀ event request, request ∈ (handleEvent (after events) event).2.sent →
      (handleEvent (after events) event).2.sent = [request] ∧
      ∃ approvalId detail key reply, event = .key key reply ∧
        (∀ other, request.Names other ↔ other = approvalId) ∧
        ((key.code = .char 'y' ∧ Begun [.char 'a', .char 'l'] events approvalId detail ∧
            request = approveApproval approvalId (firstUnresolvedDomain detail) (firstUnresolvedPath detail)) ∨
          key.code = .enter ∧ Begun [.char 'd'] events approvalId detail ∧
            ∃ reason, request = denyApproval approvalId reason) := by
  have sound := sound_after events
  refine ⟨sound.detail, fun event request member => ?_⟩
  cases event with
  | tick gate => cases member
  | key key reply =>
    have pressed := pressed_key (after events) key reply
    generalize (handleEvent (after events) (.key key reply)).1 = t at pressed
    generalize (handleEvent (after events) (.key key reply)).2.sent = sent at pressed member ⊢
    cases pressed with
    | @confirmed _ action question free code none_ deny confirm =>
      obtain rfl := List.mem_singleton.mp member
      obtain ⟨approvalId, detail, begun, same⟩ := sound.confirm action question
      refine ⟨rfl, approvalId, detail, key, reply, rfl, fun other => ?_, .inl ⟨code, begun, same⟩⟩
      rw [same]
      exact approveApproval_names
    | @submitted _ deny reason typing code none_ input confirm =>
      obtain rfl := List.mem_singleton.mp member
      obtain ⟨detail, begun⟩ := sound.deny deny typing
      exact ⟨rfl, deny.approvalId, detail, key, reply, rfl, fun other => denyApproval_names, .inr ⟨code, begun, reason, rfl⟩⟩
    | _ => cases member

end Latchgate.Tui
