import Latchgate.Chain.Linked
import Latchgate.Json.Compact
import Latchgate.Ledger.Store

namespace Latchgate
open Chain

namespace Codec

/-- What a document was printed as is read as that document, its doubles as
`read` has them and its objects as maps, when it is read at all. -/
def Faithful (codec : Codec) (read : FloatText → Except String FloatText) : Prop :=
  ∀ v w, codec.fromStr (Json.toCompactString v) = .ok w → ∃ u, v.reparse read = .ok u ∧ w = u.sorted

/-- What a stored event names as its predecessor, and its own hash. -/
def link (codec : Codec) (row : EventRow) : Option (Option String × String) :=
  match codec.readEvent row.eventJson, codec.hashText row.eventJson with
  | .ok event, .ok hash => some (event.prevHash, hash)
  | _, _ => none

/-- The event can be hashed as it stands: it is parsed again, it is at most 64
levels deep, and its canonical form has at most 256 KiB. -/
def Hashable (codec : Codec) (event : AuditEvent) : Prop :=
  ∃ hash, codec.hashText event.toText = .ok hash

variable {codec : Codec} {read : FloatText → Except String FloatText} {event : AuditEvent} {hash : String}

theorem hashText_eq_ok {eventJson : String} :
    codec.hashText eventJson = .ok hash ↔
      ∃ v, codec.fromStr eventJson = .ok v ∧ codec.computeEventHash v = .ok hash := by
  simp only [hashText, Except.bind_eq_ok, Except.mapError_eq_ok]

theorem readEvent_eq_ok {eventJson : String} :
    codec.readEvent eventJson = .ok event ↔
      ∃ v, codec.fromStr eventJson = .ok v ∧ AuditEvent.decode v = some event := by
  simp only [readEvent, Except.bind_eq_ok, Except.mapError_eq_ok]
  constructor
  · rintro ⟨v, parsed, decoded⟩
    cases found : AuditEvent.decode v with
    | none => simp [found] at decoded
    | some e => exact ⟨v, parsed, by simpa [found] using decoded⟩
  · rintro ⟨v, parsed, decoded⟩
    exact ⟨v, parsed, by simp [decoded]⟩

theorem link_eq_some {row : EventRow} {prev : Option String} :
    codec.link row = some (prev, hash) ↔
      (∃ event, codec.readEvent row.eventJson = .ok event ∧ event.prevHash = prev) ∧
        codec.hashText row.eventJson = .ok hash := by
  unfold link
  cases codec.readEvent row.eventJson with
  | error e => simp
  | ok event => cases codec.hashText row.eventJson <;> simp

/-- The walk of `verify_chain` ends well exactly on a linked log. -/
theorem verifyFrom_intact_iff {expected : Option String} {total verified : Nat} {rows : List EventRow} :
    (∃ report, codec.verifyFrom expected total verified rows = .ok report ∧ report.isIntact) ↔
      Linked codec.link expected rows := by
  induction rows generalizing expected total verified with
  | nil => simp [verifyFrom, Linked, ChainVerification.isIntact]
  | cons row rest ih =>
    constructor
    · rintro ⟨report, walked, intact⟩
      obtain ⟨event, readable, walked⟩ := Except.bind_eq_ok.1 walked
      split_ifs at walked with differs
      · cases walked
        simp [ChainVerification.isIntact] at intact
      · obtain ⟨hash, hashed, walked⟩ := Except.bind_eq_ok.1 walked
        have same : event.prevHash = expected := not_not.mp differs
        exact ⟨hash, link_eq_some.2 ⟨⟨event, readable, same⟩, hashed⟩, ih.mp ⟨report, walked, intact⟩⟩
    · rintro ⟨hash, here, later⟩
      obtain ⟨⟨event, readable, same⟩, hashed⟩ := link_eq_some.1 here
      obtain ⟨report, walked, intact⟩ := ih.mpr later
      refine ⟨report, ?_, intact⟩
      unfold verifyFrom
      refine Except.bind_eq_ok.2 ⟨event, readable, ?_⟩
      rw [if_neg (not_not.mpr same)]
      exact Except.bind_eq_ok.2 ⟨hash, hashed, walked⟩

/-- An event that can be hashed links to what it names. -/
theorem Faithful.link_row (faithful : codec.Faithful read) (hashed : codec.hashText event.toText = .ok hash) :
    codec.link event.row = some (event.prevHash, hash) := by
  obtain ⟨v, parsed, -⟩ := hashText_eq_ok.1 hashed
  obtain ⟨u, reparsed, rfl⟩ := faithful _ _ parsed
  obtain ⟨before, after, decoded⟩ := AuditEvent.decode_of_reparse reparsed
  exact link_eq_some.2 ⟨⟨_, readEvent_eq_ok.2 ⟨_, parsed, decoded⟩, rfl⟩, hashed⟩

/-- After a restart the head is the end of the chain. -/
theorem recoverChainHead_eq {t : Tables} (linked : Linked codec.link none t.auditEvents) :
    codec.recoverChainHead t = .ok (tip codec.link none t.auditEvents) := by
  unfold recoverChainHead
  rcases List.eq_nil_or_concat t.auditEvents with empty | ⟨older, row, last⟩
  · rw [empty]
    rfl
  · rw [List.concat_eq_append] at last
    rw [last] at linked ⊢
    obtain ⟨-, hash, here⟩ := linked_concat.1 linked
    rw [tip_concat, here, List.getLast?_concat]
    dsimp only
    rw [(link_eq_some.1 here).2]
    rfl

/-- A JSON library that can read one document, and prints what is canonical as
it stands. -/
def ofDocument (sha256 : List UInt8 → String) (document : Json) : Codec where
  fromStr text :=
    if text = document.toCompactString then .ok document.sorted else .error "expected value at line 1 column 1"
  jcs v := .ok v.toCompactString
  sha256 := sha256

theorem faithful_ofDocument (sha256 : List UInt8 → String) (document : Json) :
    (ofDocument sha256 document).Faithful .ok := by
  intro v w parsed
  unfold ofDocument at parsed
  dsimp only at parsed
  split_ifs at parsed with same
  obtain rfl : v = document := Json.toCompactString_injective same
  cases parsed
  exact ⟨v, v.reparse_ok, rfl⟩

end Codec

/-- The table with one more event. -/
def Tables.withEvent (t : Tables) (row : EventRow) : Tables :=
  { t with auditEvents := t.auditEvents ++ [row] }

/-- The table of receipts after `INSERT OR IGNORE`. -/
def Tables.withReceipt (t : Tables) (receipt : ReceiptRow) : Tables :=
  if t.receipts.any fun old => old.receiptId = receipt.receiptId then t
  else { t with receipts := t.receipts ++ [receipt] }

theorem Tables.auditEvents_withReceipt (t : Tables) (receipt : ReceiptRow) :
    (t.withReceipt receipt).auditEvents = t.auditEvents := by
  unfold withReceipt
  split <;> rfl

theorem Tables.insertOrIgnoreReceipt_eq (t : Tables) (receipt : ReceiptRow) :
    t.insertOrIgnoreReceipt receipt = .ok (t.withReceipt receipt) := by
  unfold insertOrIgnoreReceipt withReceipt
  split <;> rfl

theorem Tables.insertEvent_eq {t : Tables} {row : EventRow} :
    (∀ old ∈ t.auditEvents, old.traceId ≠ row.traceId) ∧ t.insertEvent row = .ok (t.withEvent row) ∨
      ¬(∀ old ∈ t.auditEvents, old.traceId ≠ row.traceId) ∧ ∃ e, t.insertEvent row = .error e := by
  unfold insertEvent withEvent
  by_cases fresh : ∀ old ∈ t.auditEvents, old.traceId ≠ row.traceId
  · refine .inl ⟨fresh, if_neg ?_⟩
    simpa using fresh
  · refine .inr ⟨fresh, ⟨_, if_pos ?_⟩⟩
    simpa using fresh

theorem AuditEvent.row_eventJson (e : AuditEvent) : e.row.eventJson = e.toText := rfl

namespace LedgerStore
variable {codec : Codec} {s : LedgerStore} {event : AuditEvent} {receipt : ReceiptRow} {io : LedgerIo}

/-- The insert of the event goes through. -/
def Inserted (s : LedgerStore) (event : AuditEvent) (io : LedgerIo) : Prop :=
  io.lockPoisoned = false ∧ io.insertEvent = none ∧ ∀ old ∈ s.view.auditEvents, old.traceId ≠ event.traceId

/-- The transaction of the evidence goes through. -/
def Committed (s : LedgerStore) (event : AuditEvent) (io : LedgerIo) : Prop :=
  s.Inserted event io ∧ s.transaction = none ∧ io.beginTransaction = none ∧ io.insertReceipt = none ∧
    io.commit.isNone

theorem execute_insertEvent :
    (io.insertEvent = none ∧ (∀ old ∈ s.view.auditEvents, old.traceId ≠ event.traceId)) ∧
        s.execute io.insertEvent (Tables.insertEvent event.row) = .ok (s.put (s.view.withEvent event.row)) ∨
      ¬(io.insertEvent = none ∧ (∀ old ∈ s.view.auditEvents, old.traceId ≠ event.traceId)) ∧
        ∃ e, s.execute io.insertEvent (Tables.insertEvent event.row) = .error e := by
  cases fault : io.insertEvent with
  | some message => exact .inr ⟨by simp, _, rfl⟩
  | none =>
    rcases @Tables.insertEvent_eq s.view event.row with ⟨fresh, inserted⟩ | ⟨known, e, refused⟩
    · refine .inl ⟨⟨rfl, fresh⟩, ?_⟩
      simp [execute, inserted, Except.map]
    · refine .inr ⟨fun both => known both.2, e, ?_⟩
      simp [execute, refused, Except.map]

theorem writeEvent_of_inserted (inserted : s.Inserted event io) :
    writeEvent codec s event io =
      match moveHead codec (s.put (s.view.withEvent (s.chained event).row)) (s.chained event).toText,
        (s.put (s.view.withEvent (s.chained event).row)).jsonlSink, io.sink with
      | (s, .ok ()), true, some message => (s, .error (.io message))
      | outcome, _, _ => outcome := by
  obtain ⟨unlocked, accepted⟩ := inserted
  rcases @execute_insertEvent s (s.chained event) io with ⟨-, done⟩ | ⟨refused, -⟩
  · unfold writeEvent
    rw [unlocked]
    simp only [Bool.false_eq_true, if_false, done]
    rfl
  · exact absurd accepted refused

/-- The store after the insert: only the head has moved, if it could. -/
theorem writeEvent_store (inserted : s.Inserted event io) :
    (writeEvent codec s event io).1 =
      (moveHead codec (s.put (s.view.withEvent (s.chained event).row)) (s.chained event).toText).1 := by
  rw [writeEvent_of_inserted inserted]
  obtain ⟨moved, result⟩ := moveHead codec (s.put (s.view.withEvent (s.chained event).row)) (s.chained event).toText
  cases result with
  | error e => rfl
  | ok done =>
    cases (s.put (s.view.withEvent (s.chained event).row)).jsonlSink <;> cases io.sink <;> rfl

theorem writeEvent_of_not_inserted (codec : Codec) (refused : ¬s.Inserted event io) :
    ∃ e, writeEvent codec s event io = (s, .error e) := by
  unfold writeEvent
  cases locked : io.lockPoisoned with
  | true => exact ⟨_, rfl⟩
  | false =>
    rcases @execute_insertEvent s (s.chained event) io with ⟨accepted, -⟩ | ⟨-, e, failed⟩
    · exact absurd ⟨locked, accepted⟩ refused
    · exact ⟨.sqlite e, by simp [failed]⟩

theorem evidenceStatements_eq {opened : LedgerStore} (active : opened.transaction = some opened.committed) :
    ((io.insertEvent = none ∧ (∀ old ∈ opened.committed.auditEvents, old.traceId ≠ event.traceId)) ∧
        io.insertReceipt = none ∧ io.commit.isNone) ∧
        evidenceStatements opened receipt event.row io = .ok
          { opened with committed := (opened.committed.withReceipt receipt).withEvent event.row, transaction := none } ∨
      ¬((io.insertEvent = none ∧ (∀ old ∈ opened.committed.auditEvents, old.traceId ≠ event.traceId)) ∧
        io.insertReceipt = none ∧ io.commit.isNone) ∧
        ∃ e, evidenceStatements opened receipt event.row io = .error e := by
  have seen : opened.view = opened.committed := by simp [view, active]
  cases receiptFault : io.insertReceipt with
  | some message => exact .inr ⟨by simp, _, by simp [evidenceStatements, receiptFault, execute]; rfl⟩
  | none =>
    have stored : opened.execute io.insertReceipt (Tables.insertOrIgnoreReceipt receipt) =
        .ok { opened with transaction := some (opened.committed.withReceipt receipt) } := by
      simp [execute, receiptFault, seen, Tables.insertOrIgnoreReceipt_eq, Except.map, put, active]
    have kept := opened.committed.auditEvents_withReceipt receipt
    rcases @execute_insertEvent { opened with transaction := some (opened.committed.withReceipt receipt) } event io with
      ⟨accepted, written⟩ | ⟨refused, e, failed⟩
    · simp only [view, Option.getD_some, kept] at accepted written
      cases commitFault : io.commit with
      | none =>
        refine .inl ⟨⟨accepted, rfl, rfl⟩, ?_⟩
        rw [receiptFault] at stored
        simp [evidenceStatements, receiptFault, stored, written, commit, commitFault, put, view, bind, Except.bind,
          Except.mapError]
      | some fault =>
        refine .inr ⟨by simp, ?_⟩
        obtain ⟨message, stillActive⟩ := fault
        rw [receiptFault] at stored
        cases stillActive <;>
          exact ⟨_, by
            simp [evidenceStatements, receiptFault, stored, written, commit, commitFault, bind, Except.bind,
              Except.mapError]
            rfl⟩
    · simp only [view, Option.getD_some, kept] at refused failed
      refine .inr ⟨fun all => refused all.1, e, ?_⟩
      rw [receiptFault] at stored
      simp [evidenceStatements, receiptFault, stored, failed, bind, Except.bind]

theorem finalizeEvidence_of_committed (committed : s.Committed event io) :
    finalizeEvidence codec s receipt event io =
      moveHead codec { s with committed := (s.committed.withReceipt receipt).withEvent (s.chained event).row }
        (s.chained event).toText := by
  obtain ⟨⟨unlocked, accepted, fresh⟩, idle, begun, receiptOk, commitOk⟩ := committed
  have seen : s.view = s.committed := by simp [view, idle]
  rw [seen] at fresh
  have opened : s.beginImmediate io.beginTransaction = .ok { s with transaction := some s.committed } := by
    simp [beginImmediate, begun, idle]
  rcases @evidenceStatements_eq (s.chained event) receipt io { s with transaction := some s.committed } rfl with
    ⟨-, done⟩ | ⟨refused, -⟩
  · unfold finalizeEvidence
    rw [unlocked, opened]
    simp only [Bool.false_eq_true, if_false, done, ← idle]
    rfl
  · exact absurd ⟨⟨accepted, fresh⟩, receiptOk, commitOk⟩ refused

theorem finalizeEvidence_of_not_committed (codec : Codec) (receipt : ReceiptRow) (refused : ¬s.Committed event io) :
    ∃ e, finalizeEvidence codec s receipt event io = (s, .error e) := by
  unfold finalizeEvidence
  cases locked : io.lockPoisoned with
  | true => exact ⟨_, rfl⟩
  | false =>
    cases begun : io.beginTransaction with
    | some message => exact ⟨.sqlite (.failure message), by simp [beginImmediate]⟩
    | none =>
      cases idle : s.transaction with
      | some t => exact ⟨.sqlite (.failure "cannot start a transaction within a transaction"), by simp [beginImmediate, idle]⟩
      | none =>
        have seen : s.view = s.committed := by simp [view, idle]
        have opened : s.beginImmediate none = .ok { s with transaction := some s.committed } := by
          simp [beginImmediate, idle]
        rcases @evidenceStatements_eq (s.chained event) receipt io { s with transaction := some s.committed } rfl with
          ⟨⟨⟨accepted, fresh⟩, receiptOk, commitOk⟩, -⟩ | ⟨-, e, failed⟩
        · refine absurd ⟨⟨locked, accepted, ?_⟩, idle, begun, receiptOk, commitOk⟩ refused
          rw [seen]
          exact fresh
        · refine ⟨.sqlite e, ?_⟩
          rw [opened]
          simp only [Bool.false_eq_true, if_false, failed, rollback]
          rw [← idle]

/-- A call that failed left the store as it was. -/
def LeavesNothing (s : LedgerStore) (outcome : LedgerStore × Except LedgerError Unit) : Prop :=
  ∀ e, outcome.2 = .error e → outcome.1.committed = s.committed ∧ outcome.1.transaction = s.transaction ∧
    outcome.1.chainHead = s.chainHead

theorem view_put (s : LedgerStore) (t : Tables) : (s.put t).view = t := by
  cases idle : s.transaction <;> simp [put, view, idle]

theorem not_leavesNothing (row : EventRow) (e : LedgerError) {outcome : LedgerStore × Except LedgerError Unit}
    (tables : outcome.1.view = s.view.withEvent row) (failed : outcome.2 = .error e) :
    ¬s.LeavesNothing outcome := by
  intro leaves
  obtain ⟨committed, transaction, -⟩ := leaves e failed
  have same : outcome.1.view = s.view := by simp [view, committed, transaction]
  rw [tables] at same
  simpa [Tables.withEvent] using congrArg Tables.auditEvents same

theorem moveHead_ok {eventJson hash : String} (hashed : codec.hashText eventJson = .ok hash) (s : LedgerStore) :
    moveHead codec s eventJson = ({ s with chainHead := some hash }, .ok ()) := by
  simp only [moveHead, hashed]

theorem moveHead_error {eventJson : String} {e : LedgerError} (refused : codec.hashText eventJson = .error e)
    (s : LedgerStore) : moveHead codec s eventJson = (s, .error e) := by
  simp only [moveHead, refused]

theorem moveHead_view (s : LedgerStore) (eventJson : String) : (moveHead codec s eventJson).1.view = s.view := by
  unfold moveHead
  cases codec.hashText eventJson <;> rfl

theorem leavesNothing_of_ok {outcome : LedgerStore × Except LedgerError Unit} (ok : outcome.2 = .ok ()) :
    s.LeavesNothing outcome := by
  intro e failed
  rw [ok] at failed
  cases failed

/-- A failed write of an event leaves no trace exactly when it failed before
its insert was done: else the event must be one that can be hashed, and the
sink must take it. -/
theorem writeEvent_leavesNothing_iff :
    s.LeavesNothing (writeEvent codec s event io) ↔
      (s.Inserted event io → codec.Hashable (s.chained event) ∧ (s.jsonlSink = true → io.sink = none)) := by
  by_cases inserted : s.Inserted event io
  · have sinkKept : ∀ t, (s.put t).jsonlSink = s.jsonlSink := by
      intro t
      unfold put
      cases s.transaction <;> rfl
    rw [writeEvent_of_inserted inserted, sinkKept]
    have seen := view_put s (s.view.withEvent (s.chained event).row)
    cases hashed : codec.hashText (s.chained event).toText with
    | error e =>
      refine iff_of_false ?_ ?_
      · refine not_leavesNothing (s.chained event).row e ?_ ?_
        · simp [moveHead, hashed, seen]
        · simp [moveHead, hashed]
      · intro both
        obtain ⟨⟨hash, ok⟩, -⟩ := both inserted
        rw [hashed] at ok
        cases ok
    | ok hash =>
      cases sink : io.sink with
      | none =>
        refine iff_of_true (leavesNothing_of_ok ?_) (fun _ => ⟨⟨hash, hashed⟩, fun _ => rfl⟩)
        simp [moveHead, hashed]
      | some message =>
        cases configured : s.jsonlSink with
        | false =>
          refine iff_of_true (leavesNothing_of_ok ?_) (fun _ => ⟨⟨hash, hashed⟩, fun on => by cases on⟩)
          simp [moveHead, hashed]
        | true =>
          refine iff_of_false ?_ (fun both => by simpa using (both inserted).2 rfl)
          refine not_leavesNothing (s.chained event).row (.io message) ?_ ?_
          · simpa [moveHead, hashed, view] using seen
          · simp [moveHead, hashed]
  · obtain ⟨e, unchanged⟩ := writeEvent_of_not_inserted codec inserted
    rw [unchanged]
    exact iff_of_true (fun _ _ => ⟨rfl, rfl, rfl⟩) (fun done => absurd done inserted)

theorem finalizeEvidence_leavesNothing_iff :
    s.LeavesNothing (finalizeEvidence codec s receipt event io) ↔
      (s.Committed event io → codec.Hashable (s.chained event)) := by
  by_cases committed : s.Committed event io
  · rw [finalizeEvidence_of_committed committed]
    cases hashed : codec.hashText (s.chained event).toText with
    | error e =>
      refine iff_of_false ?_ ?_
      · intro leaves
        obtain ⟨same, -, -⟩ := leaves e (by simp [moveHead, hashed])
        have events := congrArg Tables.auditEvents same
        simp [moveHead, hashed, Tables.withEvent, Tables.auditEvents_withReceipt] at events
      · intro both
        obtain ⟨hash, ok⟩ := both committed
        rw [hashed] at ok
        cases ok
    | ok hash =>
      refine iff_of_true (leavesNothing_of_ok ?_) (fun _ => ⟨hash, hashed⟩)
      simp [moveHead, hashed]
  · obtain ⟨e, unchanged⟩ := finalizeEvidence_of_not_committed codec receipt committed
    rw [unchanged]
    exact iff_of_true (fun _ _ => ⟨rfl, rfl, rfl⟩) (fun done => absurd done committed)

/-- Both writers, on every store, event and receipt. -/
theorem failed_writes_leave_nothing_iff (codec : Codec) (s : LedgerStore) (receipt : ReceiptRow) (event : AuditEvent)
    (io : LedgerIo) :
    (s.LeavesNothing (writeEvent codec s event io) ↔
      (s.Inserted event io → codec.Hashable (s.chained event) ∧ (s.jsonlSink = true → io.sink = none))) ∧
    (s.LeavesNothing (finalizeEvidence codec s receipt event io) ↔
      (s.Committed event io → codec.Hashable (s.chained event))) :=
  ⟨writeEvent_leavesNothing_iff, finalizeEvidence_leavesNothing_iff⟩

/-! An event nested too deeply to be hashed. -/

def nested : Nat → Json
  | 0 => .null
  | n + 1 => .array [nested n]

def deepEvent : AuditEvent where
  traceId := "t-deep"
  timestamp := "2026-02-26T12:34:56.789Z"
  eventType := .actionCall
  budgetsBefore := some (nested 64)

theorem depth_nested (n : Nat) : (nested n).depth = n := by
  induction n with
  | zero => rfl
  | succ n ih =>
    simp only [nested, Json.depth, Json.depthItems, ih]
    omega

theorem reparse_nested (read : FloatText → Except String FloatText) (n : Nat) :
    (nested n).reparse read = .ok (nested n) := by
  induction n with
  | zero => rfl
  | succ n ih => simp [nested, Json.reparse, Json.reparseItems, ih, bind, Except.bind, Except.map]

theorem sorted_nested (n : Nat) : (nested n).sorted = nested n := by
  induction n with
  | zero => rfl
  | succ n ih => simp [nested, Json.sorted, Json.sortedItems, ih]

theorem depth_lt_of_get? {v j : Json} {name : String} (found : v.get? name = some j) : j.depth < v.depth := by
  cases v with
  | object fields =>
    have bound : j.depth ≤ Json.depthFields fields := by
      have looked : fields.lookup name = some j := found
      clear found
      induction fields with
      | nil => cases looked
      | cons field rest ih =>
        obtain ⟨key, value⟩ := field
        rw [Json.depthFields]
        by_cases same : name = key
        · subst same
          rw [List.lookup_cons_self] at looked
          cases looked
          omega
        · have other : (name == key) = false := by simpa using same
          rw [List.lookup_cons, other] at looked
          have tail := ih looked
          omega
    rw [Json.depth]
    omega
  | _ => cases found

/-- Whatever it is chained to, the event is refused by the hash. -/
theorem hashText_deepEvent {read : FloatText → Except String FloatText} (faithful : codec.Faithful read)
    (prevHash : Option String) : ∃ e, codec.hashText { deepEvent with prevHash := prevHash }.toText = .error e := by
  cases parsed : codec.fromStr { deepEvent with prevHash := prevHash }.toText with
  | error message => exact ⟨.serialization message, by simp [Codec.hashText, parsed, Except.mapError]; rfl⟩
  | ok w =>
    obtain ⟨u, reparsed, rfl⟩ := faithful _ _ parsed
    have back := AuditEvent.readBack_of_reparse reparsed
    obtain ⟨found, alike, looked⟩ := back "budgets_before"
    have place : ({ deepEvent with prevHash := prevHash } : AuditEvent).members[19]? =
        some ("budgets_before", some (nested 64)) := rfl
    rw [AuditEvent.lookup_of_getElem? (AuditEvent.names_nodup _) place] at alike
    cases alike with
    | @present _ w kept =>
      have same : nested 64 = w := Except.ok.inj ((reparse_nested read 64).symm.trans kept)
      subst same
      rw [Option.map_some, sorted_nested] at looked
      have deep := depth_lt_of_get? looked
      rw [depth_nested] at deep
      have tooDeep : codec.canonicalHash u.sorted eventChainLimits = .error (.tooDeep u.sorted.depth 64) := by
        have exceeds : eventChainLimits.maxDepth < u.sorted.depth := deep
        unfold Codec.canonicalHash Codec.validatedCanonical
        rw [if_pos exceeds]
        rfl
      refine ⟨.canonicalization (.tooDeep u.sorted.depth 64), ?_⟩
      simp [Codec.hashText, parsed, Codec.computeEventHash, tooDeep, Except.mapError, bind, Except.bind]

theorem writeEvent_deepEvent {read : FloatText → Except String FloatText} (faithful : codec.Faithful read) :
    ∃ e, writeEvent codec {} deepEvent {} = ({ committed := { auditEvents := [deepEvent.row] } }, .error e) := by
  have inserted : ({} : LedgerStore).Inserted deepEvent {} := ⟨rfl, rfl, by simp [view]⟩
  obtain ⟨e, failed⟩ := hashText_deepEvent faithful none
  refine ⟨e, ?_⟩
  rw [writeEvent_of_inserted inserted]
  have refused : codec.hashText (({} : LedgerStore).chained deepEvent).toText = .error e := failed
  rw [moveHead_error refused]
  rfl

/-- A JSON library that can read the event. -/
def deepCodec : Codec :=
  .ofDocument (fun _ => "") (.object deepEvent.fields)

theorem faithful_deepCodec : deepCodec.Faithful .ok :=
  Codec.faithful_ofDocument _ _

/-- The write fails, and yet its row is there. -/
theorem deepEvent_half_written :
    ∃ e, (writeEvent deepCodec {} deepEvent {}).2 = .error e ∧
      (writeEvent deepCodec {} deepEvent {}).1.committed.auditEvents = [deepEvent.row] := by
  obtain ⟨e, written⟩ := writeEvent_deepEvent faithful_deepCodec
  exact ⟨e, by rw [written], by rw [written]⟩

end LedgerStore

namespace ChainRun
open LedgerStore

inductive ChainOp where
  | writeEvent (event : AuditEvent) (io : LedgerIo)
  | finalizeEvidence (receipt : ReceiptRow) (event : AuditEvent) (io : LedgerIo)
  | reopen (fault : Option LedgerError)

/-- The ledger of a process. After an `open` that failed there is no store to
write to. -/
structure Process where
  store : LedgerStore
  isOpen : Bool := true

section Steps
variable (codec : Codec)

def step (p : Process) : ChainOp → Process × Option (Except LedgerError Unit)
  | .reopen fault =>
    match p.store.reopen codec fault with
    | .ok store => (⟨store, true⟩, some (.ok ()))
    | .error e => (⟨p.store.rollback, false⟩, some (.error e))
  | .writeEvent event io =>
    if p.isOpen then
      let (store, result) := p.store.writeEvent codec event io
      (⟨store, true⟩, some result)
    else (p, none)
  | .finalizeEvidence receipt event io =>
    if p.isOpen then
      let (store, result) := p.store.finalizeEvidence codec receipt event io
      (⟨store, true⟩, some result)
    else (p, none)

def machine : Machine Process ChainOp (Option (Except LedgerError Unit)) where
  step := step codec

/-- A new ledger, with or without a sink. -/
def fresh (jsonlSink : Bool) : Process :=
  ⟨{ jsonlSink }, true⟩

/-- No event is persisted that cannot be hashed. -/
def Guard (p : Process) : ChainOp → Prop
  | .writeEvent event io => p.isOpen → p.store.Inserted event io → codec.Hashable (p.store.chained event)
  | .finalizeEvidence _ event io => p.isOpen → p.store.Committed event io → codec.Hashable (p.store.chained event)
  | .reopen _ => True

structure Sound (p : Process) : Prop where
  idle : p.store.transaction = none
  linked : Linked codec.link none p.store.committed.auditEvents
  head : p.isOpen → p.store.chainHead = tip codec.link none p.store.committed.auditEvents

end Steps

variable {codec : Codec} {read : FloatText → Except String FloatText} {p : Process}

/-- An event that is appended at the head, and moves it. -/
theorem Sound.append (faithful : codec.Faithful read) (sound : Sound codec p) (running : p.isOpen) {event : AuditEvent}
    (hashable : codec.Hashable (p.store.chained event)) {store : LedgerStore} (idle : store.transaction = none)
    (events : store.committed.auditEvents = p.store.committed.auditEvents ++ [(p.store.chained event).row]) :
    Sound codec ⟨(moveHead codec store (p.store.chained event).toText).1, true⟩ := by
  obtain ⟨hash, hashed⟩ := hashable
  have linkEvent := faithful.link_row hashed
  have named : (p.store.chained event).prevHash = tip codec.link none p.store.committed.auditEvents :=
    sound.head running
  rw [named] at linkEvent
  have moved : (moveHead codec store (p.store.chained event).toText).1 = { store with chainHead := some hash } := by
    simp [moveHead, hashed]
  rw [moved]
  refine ⟨idle, ?_, ?_⟩
  · rw [events]
    exact linked_concat.2 ⟨sound.linked, hash, linkEvent⟩
  · intro _
    rw [events, tip_concat, linkEvent]
    rfl

theorem step_writeEvent (faithful : codec.Faithful read) (sound : Sound codec p) {event : AuditEvent} {io : LedgerIo}
    (running : p.isOpen) (guard : Guard codec p (.writeEvent event io)) :
    Sound codec ⟨(p.store.writeEvent codec event io).1, true⟩ := by
  by_cases inserted : p.store.Inserted event io
  · have hashable := guard running inserted
    obtain ⟨hash, hashed⟩ := hashable
    have seen : p.store.view = p.store.committed := by simp [view, sound.idle]
    have stored : p.store.put (p.store.view.withEvent (p.store.chained event).row) =
        { p.store with committed := p.store.committed.withEvent (p.store.chained event).row } := by
      simp [put, sound.idle, seen]
    rw [writeEvent_store inserted, stored]
    exact sound.append faithful running ⟨hash, hashed⟩ sound.idle rfl
  · obtain ⟨e, unchanged⟩ := writeEvent_of_not_inserted codec inserted
    rw [unchanged]
    exact ⟨sound.idle, sound.linked, fun _ => sound.head running⟩

theorem step_finalizeEvidence (faithful : codec.Faithful read) (sound : Sound codec p) {receipt : ReceiptRow}
    {event : AuditEvent} {io : LedgerIo} (running : p.isOpen)
    (guard : Guard codec p (.finalizeEvidence receipt event io)) :
    Sound codec ⟨(p.store.finalizeEvidence codec receipt event io).1, true⟩ := by
  by_cases committed : p.store.Committed event io
  · rw [finalizeEvidence_of_committed committed]
    refine sound.append faithful running (guard running committed) sound.idle ?_
    simp [Tables.withEvent, Tables.auditEvents_withReceipt]
  · obtain ⟨e, unchanged⟩ := finalizeEvidence_of_not_committed codec receipt committed
    rw [unchanged]
    exact ⟨sound.idle, sound.linked, fun _ => sound.head running⟩

/-- An `open` recovers the head that the last store had. -/
theorem step_reopen (sound : Sound codec p) (fault : Option LedgerError) :
    Sound codec ((machine codec).step p (.reopen fault)).1 := by
  have recovered := Codec.recoverChainHead_eq sound.linked
  cases fault with
  | some e => exact ⟨rfl, sound.linked, fun off => by cases off⟩
  | none =>
    have reopened : p.store.reopen codec none = .ok
        { p.store with transaction := none, chainHead := tip codec.link none p.store.committed.auditEvents } := by
      simp [reopen, recovered, bind, Except.bind]
    simp only [machine, step, reopened]
    exact ⟨rfl, sound.linked, fun _ => rfl⟩

theorem step_sound (faithful : codec.Faithful read) {op : ChainOp} (guard : Guard codec p op) (sound : Sound codec p) :
    Sound codec ((machine codec).step p op).1 := by
  cases op with
  | reopen fault => exact step_reopen sound fault
  | writeEvent event io =>
    by_cases running : p.isOpen
    · simpa [machine, step, running] using step_writeEvent faithful sound running guard
    · simpa [machine, step, running] using sound
  | finalizeEvidence receipt event io =>
    by_cases running : p.isOpen
    · simpa [machine, step, running] using step_finalizeEvidence faithful sound running guard
    · simpa [machine, step, running] using sound

theorem run_sound (faithful : codec.Faithful read) (jsonlSink : Bool) {ops : List ChainOp}
    (meets : (machine codec).Meets (Guard codec) (fresh jsonlSink) ops) :
    Sound codec ((machine codec).run (fresh jsonlSink) ops) := by
  have start : Sound codec (fresh jsonlSink) := ⟨rfl, trivial, fun _ => rfl⟩
  exact meets.run_invariant (fun _ _ guard sound => step_sound faithful guard sound) start

/-- After every run in which only events are persisted that can be hashed, the
chain is intact, and the head of an open store is the hash of the newest row. -/
theorem chain_stays_intact (faithful : codec.Faithful read) (jsonlSink : Bool) (ops : List ChainOp)
    (meets : (machine codec).Meets (Guard codec) (fresh jsonlSink) ops) :
    let p := (machine codec).run (fresh jsonlSink) ops
    (∃ report, p.store.verifyChain codec = .ok report ∧ report.isIntact) ∧
      (p.isOpen → codec.recoverChainHead p.store.committed = .ok p.store.chainHead) := by
  have sound := run_sound faithful jsonlSink meets
  refine ⟨Codec.verifyFrom_intact_iff.2 sound.linked, ?_⟩
  intro running
  rw [Codec.recoverChainHead_eq sound.linked, sound.head running]

end ChainRun

section Sample
variable {sha256 : List UInt8 → String} {document : Json}

theorem utf8_length_le (text : List Char) : (Encoding.utf8 text).length ≤ 4 * text.length := by
  induction text with
  | nil => simp [Encoding.utf8]
  | cons c rest ih =>
    have size : (String.utf8EncodeChar c).length ≤ 4 := by
      rw [String.length_utf8EncodeChar]
      exact c.utf8Size_le_four
    simp only [Encoding.utf8, List.flatMap_cons, List.length_append, List.length_cons] at *
    omega

theorem Codec.hashText_ofDocument (shallow : document.sorted.depth ≤ 64)
    (short : document.sorted.compact.length ≤ 65536) :
    (Codec.ofDocument sha256 document).hashText document.toCompactString =
      .ok ("sha256:" ++ sha256 (Encoding.utf8 document.sorted.toCompactString.toList)) := by
  have bytes := utf8_length_le document.sorted.toCompactString.toList
  have chars : document.sorted.toCompactString.toList = document.sorted.compact := String.toList_ofList
  rw [chars] at bytes
  have small : ¬256 * 1024 < (Encoding.utf8 document.sorted.compact).length := by omega
  have deep : ¬64 < document.sorted.depth := by omega
  have canonical : (Codec.ofDocument sha256 document).validatedCanonical document.sorted eventChainLimits =
      .ok document.sorted.toCompactString := by
    simp [validatedCanonical, eventChainLimits, ofDocument, deep, chars, small]
  refine hashText_eq_ok.2 ⟨document.sorted, if_pos rfl, ?_⟩
  unfold computeEventHash canonicalHash
  rw [canonical]
  rfl

def sampleEvent : AuditEvent where
  traceId := "t-1"
  timestamp := "2026-02-26T12:34:56.789Z"
  eventType := .actionCall

def sampleCodec (sha256 : List UInt8 → String) : Codec :=
  .ofDocument sha256 (.object sampleEvent.fields)

theorem faithful_sampleCodec : (sampleCodec sha256).Faithful .ok :=
  Codec.faithful_ofDocument _ _

theorem hashable_sampleEvent : (sampleCodec sha256).Hashable sampleEvent := by
  have shallow : (Json.object sampleEvent.fields).sorted.depth ≤ 64 := by decide
  have short : (Json.object sampleEvent.fields).sorted.compact.length ≤ 65536 := by decide +kernel
  exact ⟨_, Codec.hashText_ofDocument shallow short⟩

end Sample

namespace ChainRun

/-- An event, a write that finds the disk full, and a restart. -/
def sampleRun : List ChainOp :=
  [.writeEvent sampleEvent {}, .writeEvent { sampleEvent with traceId := "t-2" } { insertEvent := some "disk full" },
    .reopen none]

theorem chain_stays_intact_sampleRun :
    (machine (sampleCodec fun _ => "")).Meets (Guard (sampleCodec fun _ => "")) (fresh false) sampleRun ∧
      ∃ report, LedgerStore.verifyChain (sampleCodec fun _ => "")
        ((machine (sampleCodec fun _ => "")).run (fresh false) sampleRun).store = .ok report ∧ report.isIntact := by
  have meets : (machine (sampleCodec fun _ => "")).Meets (Guard (sampleCodec fun _ => "")) (fresh false) sampleRun := by
    have refused : ∀ p, Guard (sampleCodec fun _ => "") p
        (.writeEvent { sampleEvent with traceId := "t-2" } { insertEvent := some "disk full" }) := by
      intro p _ inserted
      cases inserted.2.1
    exact ⟨fun _ _ => hashable_sampleEvent, refused _, trivial, trivial⟩
  exact ⟨meets, (chain_stays_intact faithful_sampleCodec false sampleRun meets).1⟩

theorem run_writeEvent (codec : Codec) (event : AuditEvent) (io : LedgerIo) :
    ((machine codec).run (fresh false) [.writeEvent event io]).store = (LedgerStore.writeEvent codec {} event io).1 :=
  rfl

/-- After the write of an event that is too deep the log cannot be verified. -/
theorem deepEvent_breaks_chain :
    ¬∃ report, LedgerStore.verifyChain LedgerStore.deepCodec ((machine LedgerStore.deepCodec).run (fresh false)
        [.writeEvent LedgerStore.deepEvent {}]).store = .ok report ∧ report.isIntact := by
  intro intact
  obtain ⟨e, written⟩ := LedgerStore.writeEvent_deepEvent LedgerStore.faithful_deepCodec
  obtain ⟨e', unhashable⟩ := LedgerStore.hashText_deepEvent LedgerStore.faithful_deepCodec none
  have stored : ((machine LedgerStore.deepCodec).run (fresh false) [.writeEvent LedgerStore.deepEvent {}]).store =
      { committed := { auditEvents := [LedgerStore.deepEvent.row] } } := by
    rw [run_writeEvent, written]
  rw [stored] at intact
  obtain ⟨d, here, -⟩ := Codec.verifyFrom_intact_iff.1 intact
  have hashed := (Codec.link_eq_some.1 here).2
  have plain : ({ LedgerStore.deepEvent with prevHash := none } : AuditEvent) = LedgerStore.deepEvent := rfl
  rw [plain] at unhashable
  rw [AuditEvent.row_eventJson, unhashable] at hashed
  cases hashed

end ChainRun
end Latchgate
