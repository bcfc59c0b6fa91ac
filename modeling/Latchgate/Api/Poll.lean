import Latchgate.Api.Approvals
import Latchgate.Auth.Replay
import Latchgate.Json.Decode
import Latchgate.Machine.Keyed

namespace Json

mutual

/-- A reader of doubles that never fails reads every document. -/
theorem reparse_total {read : FloatText → Except String FloatText} (total : ∀ text, ∃ value, read text = .ok value) :
    ∀ v : Json, ∃ w, v.reparse read = .ok w
  | null => ⟨_, rfl⟩
  | bool _ => ⟨_, rfl⟩
  | number (.int _) => ⟨_, rfl⟩
  | number (.float t) => by
    obtain ⟨value, ok⟩ := total t
    exact ⟨_, by rw [reparse, ok]; rfl⟩
  | string _ => ⟨_, rfl⟩
  | array items => by
    obtain ⟨others, ok⟩ := reparseItems_total total items
    exact ⟨_, by rw [reparse, ok]; rfl⟩
  | object fields => by
    obtain ⟨others, ok⟩ := reparseFields_total total fields
    exact ⟨_, by rw [reparse, ok]; rfl⟩

theorem reparseItems_total {read : FloatText → Except String FloatText}
    (total : ∀ text, ∃ value, read text = .ok value) :
    ∀ items : List Json, ∃ others, reparseItems read items = .ok others
  | [] => ⟨_, rfl⟩
  | v :: rest => by
    obtain ⟨w, first⟩ := reparse_total total v
    obtain ⟨others, more⟩ := reparseItems_total total rest
    exact ⟨_, reparseItems_cons.2 ⟨w, others, first, more, rfl⟩⟩

theorem reparseFields_total {read : FloatText → Except String FloatText}
    (total : ∀ text, ∃ value, read text = .ok value) :
    ∀ fields : List (String × Json), ∃ others, reparseFields read fields = .ok others
  | [] => ⟨_, rfl⟩
  | (key, v) :: rest => by
    obtain ⟨w, first⟩ := reparse_total total v
    obtain ⟨others, more⟩ := reparseFields_total total rest
    exact ⟨_, reparseFields_cons.2 ⟨w, others, first, more, rfl⟩⟩

end

end Json

namespace Latchgate
namespace ApprovalBackend

/-- What a backend has under the id of one approval. -/
inductive Cell where
  | inMemory (entry : Option InMemoryEntry)
  | sqlite (row : Option SqliteRow)
  | redis (hash : Option RedisHash)

def peek : ApprovalBackend → String → Cell
  | inMemory map, id => .inMemory (map.lookup id)
  | sqlite db, id => .sqlite (db.lookup id)
  | redis db, id => .redis (db.lookup id)

variable {config : StoreConfig}

theorem lookup_frame {β : Type} (db : AList fun _ : String => β) {id other : String} (row : β)
    (elsewhere : some id ≠ some other) : (db.insert id row).lookup other = db.lookup other :=
  AList.lookup_insert_ne fun same => elsewhere (congrArg some same.symm)


theorem inMemory_frame (map : InMemoryMap) (call : ApprovalCall) (id : String) (elsewhere : call.op.target ≠ some id) :
    (InMemory.step config map call).1.lookup id = map.lookup id := by
  have effect := InMemory.step_effect config map call
  generalize InMemory.step config map call = result at effect
  cases effect with
  | unchanged => rfl
  | created op =>
    rw [op] at elsewhere
    exact lookup_frame map _ elsewhere
  | claimed op =>
    rw [op] at elsewhere
    exact lookup_frame map _ elsewhere
  | marked op =>
    rw [op] at elsewhere
    exact lookup_frame map _ elsewhere
  | completed op =>
    rw [op] at elsewhere
    exact lookup_frame map _ elsewhere

theorem sqlite_frame (db : SqliteDb) (call : ApprovalCall) (id : String) (elsewhere : call.op.target ≠ some id) :
    (Sqlite.step config db call).1.lookup id = db.lookup id := by
  obtain ⟨now, op⟩ := call
  cases op with
  | getPending => rfl
  | getStatus => rfl
  | listApprovals => rfl
  | createPending pending =>
    simp only [Sqlite.step, Sqlite.create]
    split
    · rfl
    · exact lookup_frame db _ elsewhere
  | claimPending =>
    simp only [Sqlite.step, Sqlite.claim]
    repeat' split
    all_goals first | rfl | exact lookup_frame db _ elsewhere
  | writeOutcomeMarker =>
    simp only [Sqlite.step, Sqlite.writeOutcome]
    repeat' split
    all_goals first | rfl | exact lookup_frame db _ elsewhere
  | complete =>
    simp only [Sqlite.step, Sqlite.complete]
    repeat' split
    all_goals first | rfl | exact lookup_frame db _ elsewhere

theorem redis_frame (db : RedisDb) (call : ApprovalCall) (id : String) (elsewhere : call.op.target ≠ some id) :
    (Redis.step config db call).1.lookup id = db.lookup id := by
  obtain ⟨now, op⟩ := call
  cases op with
  | getPending => rfl
  | getStatus => rfl
  | listApprovals => rfl
  | createPending pending =>
    simp only [Redis.step, Redis.create]
    split
    · rfl
    · exact lookup_frame db _ elsewhere
  | claimPending =>
    simp only [Redis.step, Redis.claim]
    repeat' split
    all_goals first | rfl | exact lookup_frame db _ elsewhere
  | writeOutcomeMarker =>
    simp only [Redis.step, Redis.writeOutcome]
    repeat' split
    all_goals first | rfl | exact lookup_frame db _ elsewhere
  | complete =>
    simp only [Redis.step, Redis.complete]
    repeat' split
    all_goals first | rfl | exact lookup_frame db _ elsewhere

theorem inMemory_entry {map other : InMemoryMap} {call : ApprovalCall} {id : String}
    (about : call.op.target = some id) (same : map.lookup id = other.lookup id) :
    (InMemory.step config map call).1.lookup id = (InMemory.step config other call).1.lookup id ∧
      (InMemory.step config map call).2 = (InMemory.step config other call).2 := by
  obtain ⟨now, op⟩ := call
  cases op with
  | listApprovals => cases about
  | getPending =>
    cases about
    simp only [InMemory.step, InMemory.getPending, same, and_self]
  | getStatus =>
    cases about
    simp only [InMemory.step, InMemory.getRecord, same, and_self]
  | createPending pending =>
    cases about
    simp only [InMemory.step, InMemory.create, ApprovalRecord.newPending] at same ⊢
    rw [same]
    split
    · exact ⟨same, rfl⟩
    · simp
  | claimPending =>
    cases about
    simp only [InMemory.step, InMemory.claim, same]
    repeat' split
    all_goals simp [same]
  | writeOutcomeMarker =>
    cases about
    simp only [InMemory.step, InMemory.writeOutcome, same]
    repeat' split
    all_goals simp [same]
  | complete =>
    cases about
    simp only [InMemory.step, InMemory.complete, same]
    repeat' split
    all_goals simp [same]

theorem sqlite_entry {db other : SqliteDb} {call : ApprovalCall} {id : String}
    (about : call.op.target = some id) (same : db.lookup id = other.lookup id) :
    (Sqlite.step config db call).1.lookup id = (Sqlite.step config other call).1.lookup id ∧
      (Sqlite.step config db call).2 = (Sqlite.step config other call).2 := by
  obtain ⟨now, op⟩ := call
  cases op with
  | listApprovals => cases about
  | getPending =>
    cases about
    simp only [Sqlite.step, Sqlite.getPending, same, and_self]
  | getStatus =>
    cases about
    simp only [Sqlite.step, Sqlite.getRecord, same, and_self]
  | createPending pending =>
    cases about
    simp only [Sqlite.step, Sqlite.create, ApprovalRecord.newPending] at same ⊢
    rw [same]
    split
    · exact ⟨same, rfl⟩
    · simp
  | claimPending =>
    cases about
    simp only [Sqlite.step, Sqlite.claim, same]
    repeat' split
    all_goals simp [same]
  | writeOutcomeMarker =>
    cases about
    simp only [Sqlite.step, Sqlite.writeOutcome, same]
    repeat' split
    all_goals simp [same]
  | complete =>
    cases about
    simp only [Sqlite.step, Sqlite.complete, same]
    repeat' split
    all_goals simp [same]

theorem redis_entry {db other : RedisDb} {call : ApprovalCall} {id : String}
    (about : call.op.target = some id) (same : db.lookup id = other.lookup id) :
    (Redis.step config db call).1.lookup id = (Redis.step config other call).1.lookup id ∧
      (Redis.step config db call).2 = (Redis.step config other call).2 := by
  obtain ⟨now, op⟩ := call
  -- An expired key is gone for both.
  have found : Redis.find db id now = Redis.find other id now := by simp only [Redis.find, same]
  cases op with
  | listApprovals => cases about
  | getPending =>
    cases about
    simp only [Redis.step, Redis.getPending, same, found, and_self]
  | getStatus =>
    cases about
    simp only [Redis.step, Redis.getRecord, same, found, and_self]
  | createPending pending =>
    cases about
    simp only [Redis.step, Redis.create, ApprovalRecord.newPending] at same found ⊢
    rw [found]
    split
    · exact ⟨same, rfl⟩
    · simp
  | claimPending =>
    cases about
    simp only [Redis.step, Redis.claim, found]
    repeat' split
    all_goals simp [same]
  | writeOutcomeMarker =>
    cases about
    simp only [Redis.step, Redis.writeOutcome, found]
    repeat' split
    all_goals simp [same]
  | complete =>
    cases about
    simp only [Redis.step, Redis.complete, found]
    repeat' split
    all_goals simp [same]

/-- No call reads or writes what is kept for another approval. -/
theorem keyed (config : StoreConfig) :
    (machine config).KeyLocal peek fun call => call.op.target where
  frame := by
    intro b call id elsewhere
    cases b with
    | inMemory map => exact congrArg Cell.inMemory (inMemory_frame map call id elsewhere)
    | sqlite db => exact congrArg Cell.sqlite (sqlite_frame db call id elsewhere)
    | redis db => exact congrArg Cell.redis (redis_frame db call id elsewhere)
  entry := by
    intro b c call id about same
    cases b with
    | inMemory map =>
      cases c with
      | inMemory other =>
        obtain ⟨next, answer⟩ := @inMemory_entry config _ _ _ _ about (Cell.inMemory.inj same)
        exact ⟨congrArg Cell.inMemory next, answer⟩
      | sqlite => cases same
      | redis => cases same
    | sqlite db =>
      cases c with
      | sqlite other =>
        obtain ⟨next, answer⟩ := @sqlite_entry config _ _ _ _ about (Cell.sqlite.inj same)
        exact ⟨congrArg Cell.sqlite next, answer⟩
      | inMemory => cases same
      | redis => cases same
    | redis db =>
      cases c with
      | redis other =>
        obtain ⟨next, answer⟩ := @redis_entry config _ _ _ _ about (Cell.redis.inj same)
        exact ⟨congrArg Cell.redis next, answer⟩
      | inMemory => cases same
      | sqlite => cases same

end ApprovalBackend
/-- The statuses a poll is refused with. -/
inductive PollRefusal where
  | unauthorized
  | notFound
  | serviceUnavailable
  deriving DecidableEq

structure ApprovalPollResponse where
  status : String
  receiptId : Option String := none
  reason : Option String := none
  retryAfterSeconds : Option Nat := none
  deriving DecidableEq

def ApprovalPollResponse.ofStatus (status : ApprovalStatus) : ApprovalPollResponse :=
  match status.state with
  | .pending => { status := "pending", retryAfterSeconds := some 2 }
  | .claimed => { status := "pending", retryAfterSeconds := some 1 }
  | .approved => { status := "approved", receiptId := status.receiptId }
  | .denied => { status := "denied", reason := status.denyReason.or (some "no reason provided") }
  | .failed => { status := "failed", reason := status.errorCode.or (some "execution_failed") }

/-- The endpoint after the agent has been authenticated, or has not. -/
def pollApprovalStatus (config : StoreConfig) (b : ApprovalBackend) (agent : Except AuthError AuthContext)
    (io : StoreIo) (approvalId : String) : Except PollRefusal ApprovalPollResponse :=
  match agent with
  | .error _ => .error .unauthorized
  | .ok ctx => match b.getStatus config io approvalId with
    | .error _ => .error .serviceUnavailable
    | .ok none => .error .notFound
    | .ok (some status) =>
      if ctx.sessionId ≠ status.sessionId then .error .notFound else .ok (.ofStatus status)

namespace AgentPoll

/-- What happens to the store: the kernel and the operators call it, and agents poll. -/
inductive Input where
  | call (io : StoreIo) (op : ApprovalOp)
  | poll (agent : Except AuthError AuthContext) (io : StoreIo) (approvalId : String)

inductive Answer where
  | called (result : Except ApprovalError ApprovalAnswer)
  | polled (result : Except PollRefusal ApprovalPollResponse)

def machine (config : StoreConfig) : Machine ApprovalBackend Input Answer where
  step b
    | .call io op => ((b.call config io op).1, .called (b.call config io op).2)
    | .poll agent io id => (b, .polled (pollApprovalStatus config b agent io id))

/-- An approval is made for the session that its id belongs to. -/
def MadeFor (owner : String → String) : Input → Prop
  | .call _ (.createPending pending) => pending.authContext.sessionId = owner pending.approvalId
  | _ => True

/-- What a session has to do with: the approvals made for it, and its own polls. -/
def concerns (owner : String → String) (session : String) : Input → Bool
  | .call _ op => op.target.any fun id => decide (owner id = session)
  | .poll (.ok ctx) _ _ => decide (ctx.sessionId = session)
  | .poll (.error _) _ _ => false

/-- Every approval that is kept was made for the session its id belongs to. -/
structure Owned (owner : String → String) (b : ApprovalBackend) : Prop where
  sound : b.Sound
  session : ∀ id, ∀ r ∈ b.view id, r.payload.authContext.sessionId = owner id

variable {config : StoreConfig} {owner : String → String}

theorem RecordStep.session {traits : Traits} {id : String} {call : ApprovalCall} {answer : ApprovalAnswer}
    {before after : Option ApprovalRecord} (step : RecordStep traits id call answer before after)
    (made : ∀ pending, call.op = .createPending pending → pending.authContext.sessionId = owner pending.approvalId)
    (old : ∀ r ∈ before, r.payload.authContext.sessionId = owner id) :
    ∀ r ∈ after, r.payload.authContext.sessionId = owner id := by
  cases step with
  | stay => exact old
  | create op named =>
    rintro r ⟨⟩
    have session := made _ op
    rwa [named] at session
  | @claim r =>
    rintro _ ⟨⟩
    exact old r rfl
  | @mark r =>
    rintro _ ⟨⟩
    exact old r rfl
  | @complete r =>
    rintro _ ⟨⟩
    exact old r rfl

theorem Owned.step {b : ApprovalBackend} (owned : Owned owner b) (call : ApprovalCall)
    (made : ∀ pending, call.op = .createPending pending → pending.authContext.sessionId = owner pending.approvalId) :
    Owned owner (b.step config call).1 := by
  obtain ⟨sound, records⟩ := ApprovalBackend.step_record config owned.sound call
  exact ⟨sound, fun id => RecordStep.session (records id) made (owned.session id)⟩

theorem Owned.call {b : ApprovalBackend} (owned : Owned owner b) (io : StoreIo) {op : ApprovalOp}
    (made : MadeFor owner (.call io op)) : Owned owner (b.call config io op).1 := by
  have stepped : Owned owner (b.step config ⟨io.clock, op⟩).1 := by
    refine owned.step _ fun pending same => ?_
    obtain rfl : op = .createPending pending := same
    exact made
  unfold ApprovalBackend.call
  cases io.fault with
  | none => exact stepped
  | some fault =>
    cases fault with
    | refused => exact owned
    | answerLost => exact stepped

/-- The calls of the store, with their failures. -/
def calls (config : StoreConfig) :
    Machine ApprovalBackend (StoreIo × ApprovalOp) (Except ApprovalError ApprovalAnswer) where
  step b i := b.call config i.1 i.2

theorem calls_keyed (config : StoreConfig) : (calls config).KeyLocal ApprovalBackend.peek fun i => i.2.target where
  frame := by
    rintro b ⟨⟨clock, fault⟩, op⟩ id elsewhere
    have kept := (ApprovalBackend.keyed config).frame b ⟨clock, op⟩ id elsewhere
    cases fault with
    | none => exact kept
    | some fault =>
      cases fault with
      | refused => rfl
      | answerLost => exact kept
  entry := by
    rintro b c ⟨⟨clock, fault⟩, op⟩ id about same
    obtain ⟨next, answer⟩ := (ApprovalBackend.keyed config).entry b c ⟨clock, op⟩ id about same
    cases fault with
    | none => exact ⟨next, congrArg Except.ok answer⟩
    | some fault =>
      cases fault with
      | refused => exact ⟨same, rfl⟩
      | answerLost => exact ⟨next, rfl⟩

section Status
variable (reads : ∀ text, ∃ value, config.readFloat text = .ok value)

theorem thawOption_total {read : FloatText → Except String FloatText}
    (total : ∀ text, ∃ value, read text = .ok value) (doc : Option Json) : ∃ again, thawOption read doc = .ok again := by
  cases doc with
  | none => exact ⟨_, rfl⟩
  | some v =>
    by_cases absent : v = .null
    · subst v
      exact ⟨_, rfl⟩
    · obtain ⟨w, ok⟩ := Json.reparse_total total v
      refine ⟨some w, ?_⟩
      rw [thawOption, ok]
      · rfl
      · exact absent

include reads in
/-- A stored payload is read back for the session it was stored for. -/
theorem readPayload_total (payload : PendingApproval) :
    ∃ pending, config.readPayload payload = .ok pending ∧ pending.authContext = payload.authContext := by
  obtain ⟨body, first⟩ := Json.reparse_total reads payload.requestBody
  obtain ⟨verification, second⟩ := thawOption_total reads payload.plan.verificationConfig
  obtain ⟨database, third⟩ := thawOption_total reads payload.plan.databaseConfig
  obtain ⟨fs, fourth⟩ := thawOption_total reads payload.plan.fs
  refine ⟨{ payload with
    requestBody := body
    plan := { payload.plan with verificationConfig := verification, databaseConfig := database, fs := fs } }, ?_, rfl⟩
  simp only [StoreConfig.readPayload, PendingApproval.thaw, first, second, third, fourth]
  rfl

include reads in
/-- The status of an approval names the session its id belongs to. -/
theorem getStatus_session {b : ApprovalBackend} (owned : Owned owner b) {io : StoreIo} (working : io.fault = none)
    (id : String) : b.getStatus config io id = .ok none ∨
      ∃ status, b.getStatus config io id = .ok (some status) ∧ status.sessionId = owner id := by
  have answer : b.getStatus config io id = ApprovalBackend.statusResult
      (.ok (b.step config ⟨io.clock, .getStatus id⟩).2) := by
    simp only [ApprovalBackend.getStatus, ApprovalBackend.call, working]
  rw [answer]
  cases b with
  | inMemory map =>
    cases stored : InMemory.getRecord map id with
    | none => exact .inl (by simp [ApprovalBackend.step, InMemory.step, ApprovalBackend.statusResult, stored])
    | some r =>
      refine .inr ⟨r.toStatus, ?_, owned.session id r stored⟩
      simp [ApprovalBackend.step, InMemory.step, ApprovalBackend.statusResult, stored]
  | sqlite db =>
    cases stored : db.lookup id with
    | none =>
      exact .inl (by simp [ApprovalBackend.step, Sqlite.step, Sqlite.getRecord, ApprovalBackend.statusResult, stored, Except.map])
    | some row =>
      obtain ⟨fields, createdAt, expires⟩ := row
      obtain ⟨r, rfl, -, -⟩ := owned.sound id _ stored
      obtain ⟨pending, read, context⟩ := readPayload_total reads r.payload
      have column : (StoredFields.ofRecord r).payload = r.payload := rfl
      refine .inr ⟨(Sqlite.recordFromRow r.state pending (StoredFields.ofRecord r)).toStatus, ?_, ?_⟩
      · simp only [ApprovalBackend.step, Sqlite.step, Sqlite.getRecord, ApprovalBackend.statusResult, stored,
          Sqlite.state_ofRecord, column, read, Except.map, Option.map_some]
      · have session := owned.session id r (Table.view_of_lookup stored rfl)
        rw [← session, ← context]
        rfl
  | redis db =>
    cases found : Redis.find db id io.clock with
    | none =>
      exact .inl (by simp [ApprovalBackend.step, Redis.step, Redis.getRecord, ApprovalBackend.statusResult, found, Except.map])
    | some hash =>
      obtain ⟨fields, expireAt⟩ := hash
      obtain ⟨r, rfl, -, -⟩ := owned.sound id _ (Redis.lookup_of_find found)
      obtain ⟨pending, read, context⟩ := readPayload_total reads r.payload
      have column : (StoredFields.ofRecord r).payload = r.payload := rfl
      refine .inr ⟨(Redis.recordFromHash r.state pending (StoredFields.ofRecord r)).toStatus, ?_, ?_⟩
      · simp only [ApprovalBackend.step, Redis.step, Redis.getRecord, ApprovalBackend.statusResult, found,
          Sqlite.state_ofRecord, column, read, Except.map, Option.map_some]
      · have session := owned.session id r (Table.view_of_lookup (Redis.lookup_of_find found) rfl)
        rw [← session, ← context]
        rfl

include reads in
/-- A poll for an approval of another session is answered as one for an
approval that does not exist. -/
theorem poll_foreign {b : ApprovalBackend} (owned : Owned owner b) (ctx : AuthContext) (io : StoreIo) {id : String}
    (foreign : owner id ≠ ctx.sessionId) : pollApprovalStatus config b (.ok ctx) io id =
      if io.fault = none then .error .notFound else .error .serviceUnavailable := by
  cases fault : io.fault with
  | none =>
    rcases getStatus_session reads owned fault id with missing | ⟨status, found, session⟩
    · simp [pollApprovalStatus, missing]
    · have other : ctx.sessionId ≠ status.sessionId := fun same => foreign (session.symm.trans same.symm)
      simp [pollApprovalStatus, found, other]
  | some fault' =>
    cases fault' with
    | refused => simp [pollApprovalStatus, ApprovalBackend.getStatus, ApprovalBackend.call, ApprovalBackend.statusResult, fault]
    | answerLost => simp [pollApprovalStatus, ApprovalBackend.getStatus, ApprovalBackend.call, ApprovalBackend.statusResult, fault]

end Status

/-- Two stores of which a session cannot see the difference. -/
structure Blind (owner : String → String) (session : String) (b c : ApprovalBackend) : Prop where
  left : Owned owner b
  right : Owned owner c
  agree : Machine.KeyLocal.Agree ApprovalBackend.peek (fun id => owner id = session) b c

theorem Blind.poll {session : String} {b c : ApprovalBackend}
    (reads : ∀ text, ∃ value, config.readFloat text = .ok value) (blind : Blind owner session b c) {ctx : AuthContext}
    (own : ctx.sessionId = session) (io : StoreIo) (id : String) :
    pollApprovalStatus config b (.ok ctx) io id = pollApprovalStatus config c (.ok ctx) io id := by
  by_cases mine : owner id = session
  · obtain ⟨-, answer⟩ := (calls_keyed config).agree_step (io, .getStatus id) blind.agree rfl mine
    have same : b.getStatus config io id = c.getStatus config io id := congrArg ApprovalBackend.statusResult answer
    simp only [pollApprovalStatus, same]
  · have foreign : owner id ≠ ctx.sessionId := by rwa [own]
    rw [poll_foreign reads blind.left ctx io foreign, poll_foreign reads blind.right ctx io foreign]

theorem Empty.owned {b : ApprovalBackend} (empty : b.Empty) : Owned owner b := by
  refine ⟨empty.sound, ?_⟩
  cases empty with
  | inMemory =>
    intro id r stored
    cases stored
  | sqlite =>
    intro id r stored
    cases stored
  | redis =>
    intro id r stored
    cases stored

/-- What a session learns from its polls and from the calls for its approvals
is what it would learn if no other session had any approvals, and if nobody
else polled. -/
theorem polls_isolated (config : StoreConfig) (reads : ∀ text, ∃ value, config.readFloat text = .ok value)
    (owner : String → String) (session : String) {b : ApprovalBackend} (empty : b.Empty) {inputs : List Input}
    (made : ∀ i ∈ inputs, MadeFor owner i) :
    ((machine config).trace b inputs).filter (fun entry => concerns owner session entry.1) =
      (machine config).trace b (inputs.filter (concerns owner session)) := by
  have kept : ∀ s t i, MadeFor owner i → concerns owner session i = true → Blind owner session s t →
      Blind owner session ((machine config).step s i).1 ((machine config).step t i).1 ∧
        ((machine config).step s i).2 = ((machine config).step t i).2 := by
    intro s t i made mine blind
    cases i with
    | call io op =>
      cases about : op.target with
      | none => simp [concerns, about] at mine
      | some id =>
        have owned : owner id = session := by simpa [concerns, about] using mine
        obtain ⟨agree, answer⟩ := (calls_keyed config).agree_step (io, op) blind.agree about owned
        exact ⟨⟨blind.left.call io made, blind.right.call io made, agree⟩, congrArg Answer.called answer⟩
    | poll agent io id =>
      cases agent with
      | error => simp [concerns] at mine
      | ok ctx =>
        have own : ctx.sessionId = session := by simpa [concerns] using mine
        exact ⟨blind, congrArg Answer.polled (blind.poll reads own io id)⟩
  have dropped : ∀ s t i, MadeFor owner i → concerns owner session i = false → Blind owner session s t →
      Blind owner session ((machine config).step s i).1 t := by
    intro s t i made others blind
    cases i with
    | poll => exact blind
    | call io op =>
      have agree := (calls_keyed config).agree_skip (io, op) blind.agree (by
        intro id about owned
        simp [concerns, show op.target = some id from about, owned] at others)
      exact ⟨blind.left.call io made, blind.right, agree⟩
  exact Machine.trace_filter _ kept dropped ⟨Empty.owned empty, Empty.owned empty, fun _ _ => rfl⟩ made

def otherAgent : AuthContext :=
  ⟨"agent:other", "sess-other", "jti-def", [], "dpop-1", "thumb-other"⟩

def polledAt : StoreIo where
  clock := .atSecond 1 "1970-01-01T00:00:01+00:00"

/-- An approval is made for one session, and another polls for it. -/
def polledRun : List Input :=
  [.call polledAt (.createPending (.testDefault "a1")), .poll (.ok otherAgent) polledAt "a1"]

theorem polls_isolated_sample :
    ((machine defaultConfig).trace (.redis ∅) polledRun).filter
        (fun entry => concerns (fun _ => "sess-001") "sess-other" entry.1) =
      [(.poll (.ok otherAgent) polledAt "a1", .polled (.error .notFound))] := by
  have made : ∀ i ∈ polledRun, MadeFor (fun _ => "sess-001") i := by
    intro i member
    simp only [polledRun, List.mem_cons, List.not_mem_nil, or_false] at member
    rcases member with rfl | rfl
    · exact rfl
    · trivial
  rw [polls_isolated defaultConfig (fun text => ⟨text, rfl⟩) _ _ .redis made]
  rfl

end AgentPoll
end Latchgate
