import Latchgate.Ledger.Chain

namespace Latchgate

/-- The intents after `INSERT OR IGNORE`. -/
def Tables.intentsWith (t : Tables) (intent : ExecutionIntent) : List ExecutionIntent :=
  if (t.executionIntents.any fun old => old.grantId = intent.grantId) then t.executionIntents
  else t.executionIntents ++ [intent]

/-- The tables with an intent and its consumed grant. -/
def Tables.withIntent (t : Tables) (intent : ExecutionIntent) (grant : ConsumedGrant) : Tables :=
  { t with executionIntents := t.intentsWith intent, consumedGrants := t.consumedGrants ++ [grant] }

/-- The grant was not consumed. -/
def Tables.Unconsumed (t : Tables) (grantId : String) : Prop :=
  ∀ old ∈ t.consumedGrants, old.grantId ≠ grantId

namespace LedgerStore
variable {s : LedgerStore} {grant : ConsumedGrant} {intent : ExecutionIntent} {io : LedgerIo}

theorem execute_insertConsumedGrant (s : LedgerStore) (grant : ConsumedGrant) (fault : Option String) :
    s.view.Unconsumed grant.grantId ∧ s.execute fault (Tables.insertConsumedGrant grant) =
        .ok (s.put { s.view with consumedGrants := s.view.consumedGrants ++ [grant] }) ∨
      ∃ e, s.execute fault (Tables.insertConsumedGrant grant) = .error e := by
  cases fault with
  | some message => exact .inr ⟨_, rfl⟩
  | none =>
    by_cases fresh : s.view.Unconsumed grant.grantId
    · have absent : ¬(s.view.consumedGrants.any fun old => old.grantId = grant.grantId) := by
        simpa [Tables.Unconsumed] using fresh
      refine .inl ⟨fresh, ?_⟩
      simp [execute, Tables.insertConsumedGrant, absent, Except.map]
    · have found : s.view.consumedGrants.any fun old => old.grantId = grant.grantId := by
        simpa [Tables.Unconsumed] using fresh
      exact .inr ⟨_, by simp only [execute, Tables.insertConsumedGrant, found, if_true]; rfl⟩

/-- A grant is consumed when it was not, and only then. -/
theorem tryConsumeGrant_cases (s : LedgerStore) (grant : ConsumedGrant) (io : LedgerIo) :
    (∃ e, s.tryConsumeGrant grant io = (s, .error e)) ∨
      s.view.Unconsumed grant.grantId ∧ s.tryConsumeGrant grant io =
        (s.put { s.view with consumedGrants := s.view.consumedGrants ++ [grant] }, .ok ()) := by
  unfold tryConsumeGrant
  cases io.lockPoisoned with
  | true => exact .inl ⟨_, rfl⟩
  | false =>
    rcases execute_insertConsumedGrant s grant io.insertGrant with ⟨fresh, inserted⟩ | ⟨e, failed⟩
    · exact .inr ⟨fresh, by simp [inserted]⟩
    · refine .inl ?_
      cases e with
      | constraintViolation message => exact ⟨.grantAlreadyConsumed grant.grantId, by simp [failed]⟩
      | failure message => exact ⟨.sqlite (.failure message), by simp [failed]⟩

theorem execute_insertIntent (opened : LedgerStore) {t : Tables} (active : opened.transaction = some t) :
    (∃ e, opened.execute io.insertIntent (Tables.insertOrIgnoreIntent intent) = .error e) ∨
      opened.execute io.insertIntent (Tables.insertOrIgnoreIntent intent) =
        .ok { opened with transaction := some { t with executionIntents := t.intentsWith intent } } := by
  cases io.insertIntent with
  | some message => exact .inl ⟨_, rfl⟩
  | none =>
    refine .inr ?_
    have seen : opened.view = t := by simp [view, active]
    by_cases known : t.executionIntents.any fun old => old.grantId = intent.grantId <;>
      simp [execute, seen, Tables.insertOrIgnoreIntent, Tables.intentsWith, known, Except.map, put, active]

/-- The statements within the transaction write both rows, or fail. -/
theorem intentStatements_cases (s : LedgerStore) (intent : ExecutionIntent) (grant : ConsumedGrant) (io : LedgerIo) :
    (∃ e, intentStatements { s with transaction := some s.committed } intent grant io = .error e) ∨
      s.committed.Unconsumed grant.grantId ∧
        intentStatements { s with transaction := some s.committed } intent grant io =
          .ok { s with transaction := some (s.committed.withIntent intent grant) } := by
  unfold intentStatements
  rcases @execute_insertIntent intent io { s with transaction := some s.committed } s.committed rfl with
    ⟨e, failed⟩ | written
  · exact .inl ⟨.sqlite e, by rw [failed]; rfl⟩
  · rw [written]
    rcases execute_insertConsumedGrant
        { s with transaction := some { s.committed with executionIntents := s.committed.intentsWith intent } } grant
        io.insertGrant with ⟨fresh, inserted⟩ | ⟨e, failed⟩
    · refine .inr ⟨fresh, ?_⟩
      simp only [Except.mapError, bind, Except.bind, inserted]
      rfl
    · refine .inl ?_
      cases e with
      | constraintViolation message =>
        exact ⟨.grantAlreadyConsumed intent.grantId, by simp only [Except.mapError, bind, Except.bind, failed]⟩
      | failure message => exact ⟨.sqlite (.failure message), by simp only [Except.mapError, bind, Except.bind, failed]⟩

/-- What `write_intent_and_consume_grant` comes to: nothing, both rows, or both
rows in a transaction that stays open. -/
theorem writeIntent_cases (s : LedgerStore) (intent : ExecutionIntent) (actionId principal consumedAt : String)
    (io : LedgerIo) :
    (∃ e, s.writeIntentAndConsumeGrant intent actionId principal consumedAt io = (s, .error e)) ∨
      s.transaction = none ∧ s.committed.Unconsumed intent.grantId ∧
        (s.writeIntentAndConsumeGrant intent actionId principal consumedAt io =
            ({ s with committed := s.committed.withIntent intent ⟨intent.grantId, actionId, principal, consumedAt⟩ },
              .ok ()) ∨
          (∃ fault, io.commit = some fault ∧ fault.stillActive) ∧
            ∃ e, s.writeIntentAndConsumeGrant intent actionId principal consumedAt io =
              ({ s with transaction := some (s.committed.withIntent intent
                  ⟨intent.grantId, actionId, principal, consumedAt⟩) }, .error e)) := by
  unfold writeIntentAndConsumeGrant
  cases io.lockPoisoned with
  | true => exact .inl ⟨_, rfl⟩
  | false =>
    cases io.beginTransaction with
    | some message => exact .inl ⟨.sqlite (.failure message), by simp [beginImmediate]⟩
    | none =>
      cases idle : s.transaction with
      | some t => exact .inl ⟨.sqlite (.failure "cannot start a transaction within a transaction"), by simp [beginImmediate, idle]⟩
      | none =>
        have opened : s.beginImmediate none = .ok { s with transaction := some s.committed } := by
          simp [beginImmediate, idle]
        have restored : ({ s with transaction := none } : LedgerStore) = s := by rw [← idle]
        rw [opened]
        rcases intentStatements_cases s intent ⟨intent.grantId, actionId, principal, consumedAt⟩ io with
          ⟨e, failed⟩ | ⟨fresh, written⟩
        · exact .inl ⟨e, by simp [failed, rollback, restored]⟩
        · cases commitFault : io.commit with
          | none =>
            refine .inr ⟨rfl, fresh, .inl ?_⟩
            simp [written, commit, view, ← idle]
          | some fault =>
            obtain ⟨message, stillActive⟩ := fault
            cases stillActive with
            | true =>
              refine .inr ⟨rfl, fresh, .inr ⟨⟨_, rfl, rfl⟩, .sqlite (.failure message), ?_⟩⟩
              simp [written, commit]
            | false => exact .inl ⟨.sqlite (.failure message), by simp [written, commit, restored]⟩

end LedgerStore

namespace IntentRun
open LedgerStore

/-- The calls of the store. The writer's mutex is held over a whole call, and a
reader sees what is committed, so that calls follow one another. -/
inductive IntentOp where
  | tryConsumeGrant (grant : ConsumedGrant) (io : LedgerIo)
  | writeIntentAndConsumeGrant (intent : ExecutionIntent) (actionId principal consumedAt : String) (io : LedgerIo)
  | finalizeEvidence (receipt : ReceiptRow) (event : AuditEvent) (io : LedgerIo)
  | getUnresolvedIntents (fault : Option String)

inductive IntentAnswer where
  | done (result : Except LedgerError Unit)
  | intents (result : Except LedgerError (List ExecutionIntent))

def IntentAnswer.succeeded : IntentAnswer → Bool
  | done (.ok ()) => true
  | intents (.ok _) => true
  | _ => false

def machine (codec : Codec) : Machine LedgerStore IntentOp IntentAnswer where
  step s
    | .tryConsumeGrant grant io =>
      let (s, result) := s.tryConsumeGrant grant io
      (s, .done result)
    | .writeIntentAndConsumeGrant intent actionId principal consumedAt io =>
      let (s, result) := s.writeIntentAndConsumeGrant intent actionId principal consumedAt io
      (s, .done result)
    | .finalizeEvidence receipt event io =>
      let (s, result) := s.finalizeEvidence codec receipt event io
      (s, .done result)
    | .getUnresolvedIntents fault => (s, .intents (s.getUnresolvedIntents fault))

def IntentOp.grant? : IntentOp → Option String
  | tryConsumeGrant grant _ => some grant.grantId
  | writeIntentAndConsumeGrant intent _ _ _ _ => some intent.grantId
  | _ => none

def IntentOp.intent? : IntentOp → Option ExecutionIntent
  | writeIntentAndConsumeGrant intent _ _ _ _ => some intent
  | _ => none

def IntentOp.receiptGrant? : IntentOp → Option String
  | finalizeEvidence receipt _ _ => some receipt.grantId
  | _ => none

abbrev History := List (IntentOp × IntentAnswer)

/-- The grants that were consumed, the intents that were written, and the
grants whose evidence was finalised, as the callers were told. -/
def consumed (past : History) : List String :=
  Machine.agents IntentOp.grant? (fun answer => answer.succeeded) past

def written (past : History) : List ExecutionIntent :=
  Machine.agents IntentOp.intent? (fun answer => answer.succeeded) past

def finalised (past : History) : List String :=
  Machine.agents IntentOp.receiptGrant? (fun answer => answer.succeeded) past

/-- A commit of an intent that fails is given up by the database; evidence that
is committed can be hashed, and its receipt id is not that of another grant. -/
def Guard (codec : Codec) (s : LedgerStore) : IntentOp → Prop
  | .writeIntentAndConsumeGrant _ _ _ _ io => ∀ fault, io.commit = some fault → fault.stillActive = false
  | .finalizeEvidence receipt event io => s.Committed event io → codec.Hashable (s.chained event) ∧
      ∀ old ∈ s.committed.receipts, old.receiptId = receipt.receiptId → old.grantId = receipt.grantId
  | _ => True

variable {codec : Codec}

section Once

/-- Every grant of which a caller was told that it is consumed is in the table
as the writer sees it. -/
structure Recorded (past : History) (s : LedgerStore) : Prop where
  once : (consumed past).Nodup
  stored : ∀ grantId ∈ consumed past, ∃ row ∈ s.view.consumedGrants, row.grantId = grantId

theorem Recorded.keep {past : History} {s t : LedgerStore} {op : IntentOp} {answer : IntentAnswer}
    (recorded : Recorded past s) (nothing : answer.succeeded → op.grant? = none)
    (kept : ∀ row ∈ s.view.consumedGrants, row ∈ t.view.consumedGrants) : Recorded (past ++ [(op, answer)]) t := by
  have same : consumed (past ++ [(op, answer)]) = consumed past := by
    unfold consumed
    rw [Machine.agents_concat]
    by_cases ok : answer.succeeded
    · simp [ok, nothing ok]
    · simp [ok]
  refine ⟨same ▸ recorded.once, ?_⟩
  intro grantId member
  rw [same] at member
  obtain ⟨row, stored, named⟩ := recorded.stored grantId member
  exact ⟨row, kept row stored, named⟩

theorem Recorded.consume {past : History} {s t : LedgerStore} {op : IntentOp} {answer : IntentAnswer}
    (recorded : Recorded past s) (grant : ConsumedGrant) (ok : answer.succeeded) (named : op.grant? = some grant.grantId)
    (fresh : s.view.Unconsumed grant.grantId)
    (table : t.view.consumedGrants = s.view.consumedGrants ++ [grant]) : Recorded (past ++ [(op, answer)]) t := by
  have more : consumed (past ++ [(op, answer)]) = consumed past ++ [grant.grantId] := by
    unfold consumed
    rw [Machine.agents_concat]
    simp [ok, named]
  have unseen : grant.grantId ∉ consumed past := by
    intro member
    obtain ⟨row, stored, same⟩ := recorded.stored _ member
    exact fresh row stored same
  constructor
  · rw [more, List.nodup_append]
    refine ⟨recorded.once, List.nodup_singleton _, ?_⟩
    intro grantId member other last same
    rw [List.mem_singleton] at last
    exact unseen (last ▸ same ▸ member)
  · intro grantId member
    rw [table]
    rw [more] at member
    rcases List.mem_append.mp member with old | new
    · obtain ⟨row, stored, same⟩ := recorded.stored grantId old
      exact ⟨row, List.mem_append_left _ stored, same⟩
    · exact ⟨grant, List.mem_append_right _ (List.mem_singleton_self grant), (List.mem_singleton.mp new).symm⟩

theorem view_consumedGrants_finalizeEvidence (s : LedgerStore) (receipt : ReceiptRow) (event : AuditEvent)
    (io : LedgerIo) :
    (s.finalizeEvidence codec receipt event io).1.view.consumedGrants = s.view.consumedGrants := by
  by_cases committed : s.Committed event io
  · have idle := committed.2.1
    rw [finalizeEvidence_of_committed committed, moveHead_view]
    simp only [view, idle, Option.getD_none, Tables.withEvent, Tables.withReceipt]
    split <;> rfl
  · obtain ⟨e, unchanged⟩ := finalizeEvidence_of_not_committed codec receipt committed
    rw [unchanged]

theorem step_recorded {past : History} {s : LedgerStore} (op : IntentOp) (recorded : Recorded past s) :
    Recorded (past ++ [(op, ((machine codec).step s op).2)]) ((machine codec).step s op).1 := by
  cases op with
  | tryConsumeGrant grant io =>
    rcases tryConsumeGrant_cases s grant io with ⟨e, refused⟩ | ⟨fresh, inserted⟩
    · simp only [machine, refused]
      refine recorded.keep ?_ (fun _ member => member)
      intro ok
      cases ok
    · simp only [machine, inserted]
      exact recorded.consume grant rfl rfl fresh (by rw [view_put])
  | writeIntentAndConsumeGrant intent actionId principal consumedAt io =>
    rcases writeIntent_cases s intent actionId principal consumedAt io with
      ⟨e, refused⟩ | ⟨idle, fresh, written | ⟨-, e, left⟩⟩
    · simp only [machine, refused]
      refine recorded.keep ?_ (fun _ member => member)
      intro ok
      cases ok
    · have seen : s.view = s.committed := by simp [view, idle]
      simp only [machine, written]
      refine recorded.consume ⟨intent.grantId, actionId, principal, consumedAt⟩ rfl rfl (seen ▸ fresh) ?_
      simp [view, idle, Tables.withIntent]
    · simp only [machine, left]
      refine recorded.keep ?_ ?_
      · intro ok
        cases ok
      · intro row member
        simp only [view, idle, Option.getD_none] at member
        exact List.mem_append_left _ member
  | finalizeEvidence receipt event io =>
    refine recorded.keep (fun _ => rfl) ?_
    intro row member
    simp only [machine]
    rwa [view_consumedGrants_finalizeEvidence]
  | getUnresolvedIntents fault => exact recorded.keep (fun _ => rfl) (fun _ member => member)

end Once

section Exact

/-- The tables are what the callers were told. -/
structure Exact (past : History) (s : LedgerStore) : Prop where
  idle : s.transaction = none
  intents : s.committed.executionIntents = written past
  guarded : ∀ intent ∈ s.committed.executionIntents, ∃ row ∈ s.committed.consumedGrants, row.grantId = intent.grantId
  receipts : ∀ grantId, (∃ receipt ∈ s.committed.receipts, receipt.grantId = grantId) ↔ grantId ∈ finalised past

variable {past : History} {s : LedgerStore}

theorem finalised_concat (past : History) (op : IntentOp) (answer : IntentAnswer) :
    finalised (past ++ [(op, answer)]) = finalised past ++ if answer.succeeded then op.receiptGrant?.toList else [] :=
  Machine.agents_concat _ _ _ _ _

theorem written_concat (past : History) (op : IntentOp) (answer : IntentAnswer) :
    written (past ++ [(op, answer)]) = written past ++ if answer.succeeded then op.intent?.toList else [] :=
  Machine.agents_concat _ _ _ _ _

/-- A call that says nothing of intents or receipts, or that failed. -/
theorem Exact.keep {op : IntentOp} {answer : IntentAnswer} {t : LedgerStore} (told : Exact past s)
    (silent : answer.succeeded → op.intent? = none ∧ op.receiptGrant? = none) (idle : t.transaction = none)
    (intents : t.committed.executionIntents = s.committed.executionIntents)
    (receipts : t.committed.receipts = s.committed.receipts)
    (grants : ∀ row ∈ s.committed.consumedGrants, row ∈ t.committed.consumedGrants) :
    Exact (past ++ [(op, answer)]) t := by
  have sameWritten : written (past ++ [(op, answer)]) = written past := by
    rw [written_concat]
    by_cases ok : answer.succeeded
    · simp [ok, (silent ok).1]
    · simp [ok]
  have sameFinalised : finalised (past ++ [(op, answer)]) = finalised past := by
    rw [finalised_concat]
    by_cases ok : answer.succeeded
    · simp [ok, (silent ok).2]
    · simp [ok]
  refine ⟨idle, ?_, ?_, ?_⟩
  · rw [sameWritten, intents]
    exact told.intents
  · intro intent member
    rw [intents] at member
    obtain ⟨row, stored, named⟩ := told.guarded intent member
    exact ⟨row, grants row stored, named⟩
  · rw [sameFinalised, receipts]
    exact told.receipts

/-- An intent is written under a grant that was not consumed, so that none of
this grant was there. -/
theorem Exact.intent {op : IntentOp} {answer : IntentAnswer} (told : Exact past s) {intent : ExecutionIntent}
    (grant : ConsumedGrant) (named : grant.grantId = intent.grantId) (fresh : s.committed.Unconsumed intent.grantId)
    (ok : answer.succeeded) (isIntent : op.intent? = some intent) (noReceipt : op.receiptGrant? = none) :
    Exact (past ++ [(op, answer)]) { s with committed := s.committed.withIntent intent grant } := by
  have unknown : ¬(s.committed.executionIntents.any fun old => old.grantId = intent.grantId) := by
    intro known
    simp only [List.any_eq_true, decide_eq_true_eq] at known
    obtain ⟨old, member, same⟩ := known
    obtain ⟨row, stored, consumedRow⟩ := told.guarded old member
    exact fresh row stored (consumedRow.trans same)
  have appended : (s.committed.withIntent intent grant).executionIntents = s.committed.executionIntents ++ [intent] := by
    simp only [Tables.withIntent, Tables.intentsWith]
    rw [if_neg unknown]
  refine ⟨told.idle, ?_, ?_, ?_⟩
  · rw [written_concat, appended, told.intents]
    simp [ok, isIntent]
  · intro other member
    rw [appended] at member
    rcases List.mem_append.mp member with old | new
    · obtain ⟨row, stored, same⟩ := told.guarded other old
      exact ⟨row, List.mem_append_left _ stored, same⟩
    · obtain rfl := List.mem_singleton.mp new
      exact ⟨grant, List.mem_append_right _ (List.mem_singleton_self grant), named⟩
  · rw [finalised_concat, noReceipt]
    simpa [Tables.withIntent] using told.receipts

/-- A receipt that is committed is the receipt of its grant. -/
theorem mem_withReceipt {t : Tables} {receipt : ReceiptRow}
    (own : ∀ old ∈ t.receipts, old.receiptId = receipt.receiptId → old.grantId = receipt.grantId) (grantId : String) :
    (∃ row ∈ (t.withReceipt receipt).receipts, row.grantId = grantId) ↔
      (∃ row ∈ t.receipts, row.grantId = grantId) ∨ receipt.grantId = grantId := by
  unfold Tables.withReceipt
  split_ifs with known
  · simp only [List.any_eq_true, decide_eq_true_eq] at known
    obtain ⟨old, member, same⟩ := known
    constructor
    · exact .inl
    · rintro (stored | rfl)
      · exact stored
      · exact ⟨old, member, own old member same⟩
  · simp [or_and_right, exists_or]

theorem step_finalizeEvidence {receipt : ReceiptRow} {event : AuditEvent} {io : LedgerIo} (told : Exact past s)
    (guard : Guard codec s (.finalizeEvidence receipt event io)) :
    Exact (past ++ [(.finalizeEvidence receipt event io, .done (s.finalizeEvidence codec receipt event io).2)])
      (s.finalizeEvidence codec receipt event io).1 := by
  by_cases committed : s.Committed event io
  · obtain ⟨⟨hash, hashed⟩, own⟩ := guard committed
    have intents : ((s.committed.withReceipt receipt).withEvent (s.chained event).row).executionIntents =
        s.committed.executionIntents := by
      unfold Tables.withEvent Tables.withReceipt
      split <;> rfl
    have grants : ((s.committed.withReceipt receipt).withEvent (s.chained event).row).consumedGrants =
        s.committed.consumedGrants := by
      unfold Tables.withEvent Tables.withReceipt
      split <;> rfl
    rw [finalizeEvidence_of_committed committed]
    rw [moveHead_ok hashed]
    refine ⟨told.idle, ?_, ?_, ?_⟩
    · rw [written_concat, intents, told.intents]
      simp [IntentOp.intent?]
    · rw [intents, grants]
      exact told.guarded
    · intro grantId
      have receipts := mem_withReceipt own grantId
      rw [told.receipts grantId] at receipts
      rw [finalised_concat]
      simpa [IntentAnswer.succeeded, IntentOp.receiptGrant?, Tables.withEvent, eq_comm] using receipts
  · obtain ⟨e, unchanged⟩ := finalizeEvidence_of_not_committed codec receipt committed
    rw [unchanged]
    refine told.keep ?_ told.idle rfl rfl (fun _ member => member)
    intro ok
    cases ok

theorem step_exact (op : IntentOp) (guard : Guard codec s op) (told : Exact past s) :
    Exact (past ++ [(op, ((machine codec).step s op).2)]) ((machine codec).step s op).1 := by
  cases op with
  | tryConsumeGrant grant io =>
    rcases tryConsumeGrant_cases s grant io with ⟨e, refused⟩ | ⟨fresh, inserted⟩
    · simp only [machine, refused]
      exact told.keep (fun _ => ⟨rfl, rfl⟩) told.idle rfl rfl (fun _ member => member)
    · have seen : s.view = s.committed := by simp [view, told.idle]
      have stored : s.put { s.view with consumedGrants := s.view.consumedGrants ++ [grant] } =
          { s with committed := { s.committed with consumedGrants := s.committed.consumedGrants ++ [grant] } } := by
        simp [put, told.idle, seen]
      simp only [machine, inserted, stored]
      refine told.keep (fun _ => ⟨rfl, rfl⟩) told.idle rfl rfl ?_
      intro row member
      exact List.mem_append_left _ member
  | writeIntentAndConsumeGrant intent actionId principal consumedAt io =>
    rcases writeIntent_cases s intent actionId principal consumedAt io with
      ⟨e, refused⟩ | ⟨-, fresh, written | ⟨⟨fault, failed, active⟩, -⟩⟩
    · simp only [machine, refused]
      refine told.keep ?_ told.idle rfl rfl (fun _ member => member)
      intro ok
      cases ok
    · simp only [machine, written]
      exact told.intent _ rfl fresh rfl rfl rfl
    · rw [guard fault failed] at active
      cases active
  | finalizeEvidence receipt event io => exact step_finalizeEvidence told guard
  | getUnresolvedIntents fault =>
    exact told.keep (fun _ => ⟨rfl, rfl⟩) told.idle rfl rfl (fun _ member => member)

/-- The answer to a listing is the intents that were written and whose grant
has no finalised evidence. -/
theorem unresolvedIntents_perm (told : Exact past s) :
    s.committed.unresolvedIntents.Perm
      ((written past).filter fun intent => intent.grantId ∉ finalised past) := by
  unfold Tables.unresolvedIntents
  refine (List.perm_insertionSort _ _).trans (.of_eq ?_)
  rw [told.intents]
  refine List.filter_congr ?_
  intro intent _
  have receipts := told.receipts intent.grantId
  by_cases known : intent.grantId ∈ finalised past
  · obtain ⟨receipt, member, same⟩ := receipts.mpr known
    simpa [known] using ⟨receipt, member, same⟩
  · have absent : ¬∃ receipt ∈ s.committed.receipts, receipt.grantId = intent.grantId := fun found =>
      known (receipts.mp found)
    simpa [known] using absent

end Exact

def fresh (jsonlSink : Bool) : LedgerStore :=
  { jsonlSink }

theorem run_recorded (codec : Codec) (jsonlSink : Bool) (ops : List IntentOp) :
    Recorded ((machine codec).trace (fresh jsonlSink) ops) ((machine codec).run (fresh jsonlSink) ops) := by
  have start : Recorded [] (fresh jsonlSink) := by
    refine ⟨List.nodup_nil, ?_⟩
    intro grantId member
    cases member
  exact Machine.trace_invariant start (fun _ _ op recorded => step_recorded op recorded) ops

theorem run_exact {jsonlSink : Bool} {ops : List IntentOp}
    (meets : (machine codec).Meets (Guard codec) (fresh jsonlSink) ops) :
    Exact ((machine codec).trace (fresh jsonlSink) ops) ((machine codec).run (fresh jsonlSink) ops) := by
  have start : Exact [] (fresh jsonlSink) := by
    refine ⟨rfl, rfl, ?_, ?_⟩
    · intro intent member
      cases member
    · simp [fresh, finalised]
  have preserved : ∀ past s op, Guard codec s op → Exact past s →
      Exact (past ++ [(op, ((machine codec).step s op).2)]) ((machine codec).step s op).1 :=
    fun _ _ op guard told => step_exact op guard told
  exact meets.trace_invariant start preserved

/-- A failed write of an intent leaves no row. -/
theorem writeIntent_failed {s : LedgerStore} {intent : ExecutionIntent} {actionId principal consumedAt : String}
    {io : LedgerIo} (guard : Guard codec s (.writeIntentAndConsumeGrant intent actionId principal consumedAt io))
    {e : LedgerError} (failed : (s.writeIntentAndConsumeGrant intent actionId principal consumedAt io).2 = .error e) :
    (s.writeIntentAndConsumeGrant intent actionId principal consumedAt io).1 = s := by
  rcases writeIntent_cases s intent actionId principal consumedAt io with
    ⟨e, refused⟩ | ⟨-, -, written | ⟨⟨fault, commitFailed, active⟩, -⟩⟩
  · rw [refused]
  · rw [written] at failed
    cases failed
  · rw [guard fault commitFailed] at active
    cases active

/-- In every run a grant is consumed at most once. In a run whose commits of
intents do not hang and whose evidence is hashed under receipt ids of its own, a
failed write of an intent leaves the store as it was, and a listing has the
intents that were written and whose evidence was not finalised. -/
theorem grants_once_and_intents_exact (codec : Codec) (jsonlSink : Bool) (ops : List IntentOp) :
    (consumed ((machine codec).trace (fresh jsonlSink) ops)).Nodup ∧
      ((machine codec).Meets (Guard codec) (fresh jsonlSink) ops → ∀ past op rest, ops = past ++ op :: rest →
        let s := (machine codec).run (fresh jsonlSink) past
        let told := (machine codec).trace (fresh jsonlSink) past
        (∀ intent actionId principal consumedAt io e,
          op = .writeIntentAndConsumeGrant intent actionId principal consumedAt io →
          ((machine codec).step s op).2 = .done (.error e) → ((machine codec).step s op).1 = s) ∧
        (∀ fault listed, op = .getUnresolvedIntents fault →
          ((machine codec).step s op).2 = .intents (.ok listed) →
          listed.Perm ((written told).filter fun intent => intent.grantId ∉ finalised told))) := by
  refine ⟨(run_recorded codec jsonlSink ops).once, ?_⟩
  rintro meets past op rest rfl s told
  obtain ⟨earlier, guard, -⟩ := Machine.meets_append.1 meets
  have tables : Exact told s := run_exact earlier
  constructor
  · rintro intent actionId principal consumedAt io e rfl failed
    exact writeIntent_failed guard (IntentAnswer.done.inj failed)
  · rintro fault listed rfl answered
    have answer := IntentAnswer.intents.inj answered
    cases fault with
    | some message => cases answer
    | none =>
      cases answer
      exact unresolvedIntents_perm tables

def sampleIntent (grantId : String) : ExecutionIntent where
  traceId := "t-1"
  grantId := grantId
  actionId := "http_fetch"
  principal := "agent:x"
  providerModuleDigest := "builtin:http_api"
  requestHash := "sha256:0"
  approvedBy := none
  startedAt := "2026-02-26T12:34:56.789Z"

def writeSample (grantId : String) (io : LedgerIo) : IntentOp :=
  .writeIntentAndConsumeGrant (sampleIntent grantId) "http_fetch" "agent:x" "2026-02-26T12:34:56Z" io

/-- Two dispatches, of which one gets its evidence. -/
def dispatches : List IntentOp :=
  [writeSample "g-1" {}, writeSample "g-2" {}, .finalizeEvidence ⟨"r-1", "g-1", ""⟩ sampleEvent {}]

def sampleRun : List IntentOp :=
  dispatches ++ [.getUnresolvedIntents none]

theorem grants_once_sampleRun :
    (machine (sampleCodec fun _ => "")).Meets (Guard (sampleCodec fun _ => "")) (fresh false) sampleRun ∧
      (consumed ((machine (sampleCodec fun _ => "")).trace (fresh false) sampleRun)).Nodup ∧
      ∀ listed, ((machine (sampleCodec fun _ => "")).step
          ((machine (sampleCodec fun _ => "")).run (fresh false) dispatches) (.getUnresolvedIntents none)).2 =
            .intents (.ok listed) →
        listed.Perm ((written ((machine (sampleCodec fun _ => "")).trace (fresh false) dispatches)).filter fun intent =>
          intent.grantId ∉ finalised ((machine (sampleCodec fun _ => "")).trace (fresh false) dispatches)) := by
  have silent : ∀ fault : CommitFault, (none : Option CommitFault) = some fault → fault.stillActive = false := by
    intro fault failed
    cases failed
  have meets : (machine (sampleCodec fun _ => "")).Meets (Guard (sampleCodec fun _ => "")) (fresh false) sampleRun := by
    refine ⟨silent, silent, ?_, trivial, trivial⟩
    intro _
    refine ⟨hashable_sampleEvent, ?_⟩
    intro old member
    cases member
  have main := grants_once_and_intents_exact (sampleCodec fun _ => "") false sampleRun
  obtain ⟨-, exact⟩ := main.2 meets dispatches (.getUnresolvedIntents none) [] rfl
  exact ⟨meets, main.1, fun listed answered => exact none listed rfl answered⟩

theorem machine_finalizeEvidence (codec : Codec) (s : LedgerStore) (receipt : ReceiptRow) (event : AuditEvent)
    (io : LedgerIo) :
    (machine codec).step s (.finalizeEvidence receipt event io) =
      ((s.finalizeEvidence codec receipt event io).1, .done (s.finalizeEvidence codec receipt event io).2) :=
  rfl

theorem unresolvedIntents_withEvent (t : Tables) (row : EventRow) :
    (t.withEvent row).unresolvedIntents = t.unresolvedIntents :=
  rfl

/-- The store after one intent. -/
theorem run_writeSample (codec : Codec) :
    (machine codec).run (fresh false) [writeSample "g-1" {}] =
      { committed := ({} : Tables).withIntent (sampleIntent "g-1")
          ⟨"g-1", "http_fetch", "agent:x", "2026-02-26T12:34:56Z"⟩ } :=
  rfl

/-- A commit that fails and is not given up leaves both rows in the writer's
transaction; and evidence that is committed but cannot be hashed is reported as
failed, while its intent counts as resolved. -/
theorem hanging_commit_keeps_rows :
    ((machine deepCodec).step (fresh false) (writeSample "g-1" { commit := some ⟨"database is locked", true⟩ })).2 =
        .done (.error (.sqlite (.failure "database is locked"))) ∧
      ((machine deepCodec).step (fresh false)
        (writeSample "g-1" { commit := some ⟨"database is locked", true⟩ })).1.view.executionIntents =
          [sampleIntent "g-1"] ∧
      ∃ e, ((machine deepCodec).step ((machine deepCodec).run (fresh false) [writeSample "g-1" {}])
          (.finalizeEvidence ⟨"r-1", "g-1", ""⟩ deepEvent {})).2 = .done (.error e) ∧
        ((machine deepCodec).step ((machine deepCodec).run (fresh false) [writeSample "g-1" {}])
          (.finalizeEvidence ⟨"r-1", "g-1", ""⟩ deepEvent {})).1.committed.unresolvedIntents = [] := by
  refine ⟨rfl, rfl, ?_⟩
  obtain ⟨e, unhashable⟩ := hashText_deepEvent faithful_deepCodec none
  rw [run_writeSample]
  generalize kept : ({} : Tables).withIntent (sampleIntent "g-1")
    ⟨"g-1", "http_fetch", "agent:x", "2026-02-26T12:34:56Z"⟩ = tables
  have accepted : Committed { committed := tables } deepEvent {} := by
    refine ⟨⟨rfl, rfl, ?_⟩, rfl, rfl, rfl, rfl⟩
    intro old member
    rw [← kept] at member
    cases member
  have refused : deepCodec.hashText (chained { committed := tables } deepEvent).toText = .error e := unhashable
  have failed := @finalizeEvidence_of_committed deepCodec _ _ ⟨"r-1", "g-1", ""⟩ _ accepted
  rw [moveHead_error refused] at failed
  refine ⟨e, ?_, ?_⟩
  · rw [machine_finalizeEvidence, failed]
  · rw [machine_finalizeEvidence, failed, unresolvedIntents_withEvent, ← kept]
    rfl

end IntentRun
end Latchgate
