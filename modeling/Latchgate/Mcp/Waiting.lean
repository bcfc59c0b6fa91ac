import Latchgate.Api.Poll
import Latchgate.Json.Canonical
import Latchgate.Kernel.Receipts
import Latchgate.Mcp.Answers

namespace Latchgate

/-- The response as it is sent: what is absent is left out. -/
def ApprovalPollResponse.fields (r : ApprovalPollResponse) : List (String × Json) :=
  ("status", .string r.status) :: ((r.receiptId.map fun id => ("receipt_id", Json.string id)).toList ++
    (r.reason.map fun reason => ("reason", Json.string reason)).toList ++
    (r.retryAfterSeconds.map fun (seconds : Nat) => ("retry_after_seconds", Json.number (.int seconds))).toList)

def ApprovalPollResponse.toJson (r : ApprovalPollResponse) : Json :=
  .object r.fields

def PollRefusal.status : PollRefusal → Nat
  | unauthorized => 401
  | notFound => 404
  | serviceUnavailable => 503

/-- The status and the body of the gate's answer to a poll. -/
def pollReply : Except PollRefusal ApprovalPollResponse → Nat × String
  | .ok r => (200, r.toJson.toCompactString)
  | .error refusal => (refusal.status, "")

/-- The status of an approval that a poll is answered from. -/
def ownStatus (config : StoreConfig) (b : ApprovalBackend) (agent : Except AuthError AuthContext) (io : StoreIo)
    (approvalId : String) : Except PollRefusal ApprovalStatus :=
  match agent with
  | .error _ => .error .unauthorized
  | .ok ctx => match b.getStatus config io approvalId with
    | .error _ => .error .serviceUnavailable
    | .ok none => .error .notFound
    | .ok (some status) => if ctx.sessionId ≠ status.sessionId then .error .notFound else .ok status

theorem pollApprovalStatus_eq (config : StoreConfig) (b : ApprovalBackend) (agent : Except AuthError AuthContext)
    (io : StoreIo) (approvalId : String) :
    pollApprovalStatus config b agent io approvalId =
      (ownStatus config b agent io approvalId).map ApprovalPollResponse.ofStatus := by
  unfold pollApprovalStatus ownStatus
  cases agent with
  | error e => rfl
  | ok ctx =>
    dsimp only
    cases b.getStatus config io approvalId with
    | error e => rfl
    | ok found =>
      cases found with
      | none => rfl
      | some status =>
        dsimp only
        split_ifs <;> rfl

end Latchgate

namespace Latchgate.Mcp.Stdio

/-- The JSON library reads what was printed, unless it is nested too deep, and
reads nothing from an empty text. -/
structure ReadsBack (lib : Libraries) : Prop where
  parses : ∀ v : Json, (v.Numbers fun n => ∃ k : UInt64, n = .int k.toNat) → v.depth ≤ 127 →
    lib.parse v.toCompactString = .ok v
  empty : ∃ e, lib.parse "" = .error e

/-- Indexing of a record that was read. -/
theorem field_sorted {fields : List (String × Json)} (distinct : (fields.map Prod.fst).Nodup) (name : String) :
    field (Json.object fields).sorted name = ((fields.lookup name).map Json.sorted).getD .null := by
  rw [field, Json.get?_sorted_object name distinct]

section Fields
variable (r : ApprovalPollResponse)

theorem fields_nodup : (r.fields.map Prod.fst).Nodup := by
  obtain ⟨status, receiptId, reason, retryAfterSeconds⟩ := r
  cases receiptId <;> cases reason <;> cases retryAfterSeconds <;> simp [ApprovalPollResponse.fields]

theorem fields_lookup (name : String) : r.fields.lookup name =
    if name = "status" then some (.string r.status)
    else if name = "receipt_id" then r.receiptId.map Json.string
    else if name = "reason" then r.reason.map Json.string
    else if name = "retry_after_seconds" then r.retryAfterSeconds.map fun (seconds : Nat) => Json.number (.int seconds)
    else none := by
  obtain ⟨status, receiptId, reason, retryAfterSeconds⟩ := r
  split_ifs with first second third fourth
  · subst first
    rfl
  · subst second
    cases receiptId <;> cases reason <;> cases retryAfterSeconds <;> rfl
  · subst third
    cases receiptId <;> cases reason <;> cases retryAfterSeconds <;> rfl
  · subst fourth
    cases receiptId <;> cases reason <;> cases retryAfterSeconds <;> rfl
  · refine List.lookup_eq_none_iff.mpr fun entry member => ?_
    have key : entry.1 ∈ (ApprovalPollResponse.fields ⟨status, receiptId, reason, retryAfterSeconds⟩).map Prod.fst :=
      List.mem_map_of_mem member
    have differs : name ≠ entry.1 := by
      rintro rfl
      cases receiptId <;> cases reason <;> cases retryAfterSeconds <;>
        simp [ApprovalPollResponse.fields, first, second, third, fourth] at key
    simpa using differs

/-- What the adapter finds in the response. -/
theorem field_toJson (name : String) :
    field r.toJson.sorted name = ((r.fields.lookup name).map Json.sorted).getD .null :=
  field_sorted (fields_nodup r) name

theorem toJson_numbers (small : ∀ seconds, r.retryAfterSeconds = some seconds → seconds < 2 ^ 64) :
    r.toJson.Numbers fun n => ∃ k : UInt64, n = .int k.toNat := by
  obtain ⟨status, receiptId, reason, retryAfterSeconds⟩ := r
  cases retryAfterSeconds with
  | none => cases receiptId <;> cases reason <;> trivial
  | some seconds =>
    have fits := small seconds rfl
    have number : ∃ k : UInt64, JsonNumber.int seconds = .int k.toNat :=
      ⟨UInt64.ofNat seconds, by rw [UInt64.toNat_ofNat_of_lt' fits]⟩
    cases receiptId <;> cases reason <;> exact ⟨trivial, by simpa [Json.NumbersFields, Json.Numbers] using number⟩

theorem toJson_depth : r.toJson.depth ≤ 127 := by
  obtain ⟨status, receiptId, reason, retryAfterSeconds⟩ := r
  cases receiptId <;> cases reason <;> cases retryAfterSeconds <;>
    simp [ApprovalPollResponse.toJson, ApprovalPollResponse.fields, Json.depth, Json.depthFields]

end Fields

/-! What the adapter makes of the gate's answer. -/

/-- The outcome of an approval, as far as it is decided. An execution that has
failed counts as undecided. -/
def outcomeOf (status : ApprovalStatus) : Option (ApprovalState × Option String) :=
  match status.state with
  | .approved => some (.approved, status.receiptId)
  | .denied => some (.denied, status.denyReason)
  | .pending | .claimed | .failed => none

theorem polled_refused {lib : Libraries} (reads : ReadsBack lib) (approvalId : String) (refusal : PollRefusal) :
    ∃ e, GateClient.polled lib approvalId (.ok (pollReply (.error refusal))) = .error e := by
  obtain ⟨e, unread⟩ := reads.empty
  refine ⟨.unexpectedResponse ("non-JSON response from " ++ GateClient.pollPath approvalId ++ " (HTTP " ++
    refusal.status.repr ++ "): " ++ e), ?_⟩
  simp only [GateClient.polled, pollReply, GateClient.received, Libraries.parseValue, unread]
  rfl

theorem polled_ok {lib : Libraries} (reads : ReadsBack lib) (approvalId : String) {r : ApprovalPollResponse}
    (small : ∀ seconds, r.retryAfterSeconds = some seconds → seconds < 2 ^ 64) :
    ∃ retry, GateClient.polled lib approvalId (.ok (pollReply (.ok r))) =
      (GateClient.approvalOutcome r.toJson.sorted).map fun outcome => (outcome, retry) := by
  refine ⟨(Json.decodeU64 (field r.toJson.sorted "retry_after_seconds")).map UInt64.toNat, ?_⟩
  have read := reads.parses r.toJson (toJson_numbers r small) (toJson_depth r)
  have known : (200 : Nat) ≠ 404 := by decide
  simp only [GateClient.polled, pollReply, GateClient.received, Libraries.parseValue, read, Except.map, if_neg known]
  cases GateClient.approvalOutcome r.toJson.sorted <;> rfl

theorem approvalOutcome_toJson (r : ApprovalPollResponse) :
    GateClient.approvalOutcome r.toJson.sorted =
      if r.status = "approved" ∨ r.status = "executed" then .ok (.approved r.toJson.sorted)
      else if r.status = "denied" then .ok (.denied (r.reason.getD "no reason provided"))
      else if r.status = "expired" then .ok .expired
      else .ok .pending := by
  have status : field r.toJson.sorted "status" = .string r.status := by
    rw [field_toJson, fields_lookup]
    rfl
  have reason : (field r.toJson.sorted "reason").asStr? = r.reason := by
    have apart : ¬("reason" : String) = "status" ∧ ¬("reason" : String) = "receipt_id" := by decide
    rw [field_toJson, fields_lookup, if_neg apart.1, if_neg apart.2, if_pos rfl]
    cases r.reason <;> rfl
  rw [GateClient.approvalOutcome, status, reason]
  rfl

namespace Server
variable (server : Server) (call : CallContext) (approvalId : String)

/-- The success that an approval is answered with: the gate tells the receipt,
and neither the output nor the verification. -/
def approvedAnswer (receiptId : Option String) : JsonRpcResponse :=
  toolSuccess call.id (server.formatSuccessOutput .null (receiptId.getD "unknown") false)

def deniedAnswer (reason : Option String) : JsonRpcResponse :=
  structuredToolError call.id ToolErrorCodes.policyDenied
    ("Action '" ++ call.actionId ++ "' was denied: " ++ reason.getD "no reason provided") (some call.actionId)
    call.traceId none

def waitsAnswer : JsonRpcResponse :=
  pendingApprovalFallback call.id call.actionId approvalId call.traceId

/-- What one poll ends the call with: the reply was lost, the gate refused, or
the approval has come to an outcome. -/
def toldBy : Option (Except PollRefusal ApprovalStatus) → Option JsonRpcResponse
  | none => some (waitsAnswer call approvalId)
  | some (.error _) => some (waitsAnswer call approvalId)
  | some (.ok status) => match outcomeOf status with
    | some (.approved, receiptId) => some (server.approvedAnswer call receiptId)
    | some (_, reason) => some (deniedAnswer call reason)
    | none => none

theorem approvedText_toJson (r : ApprovalPollResponse) :
    server.approvedText r.toJson.sorted = server.formatSuccessOutput .null (r.receiptId.getD "unknown") false := by
  have receipt : (field r.toJson.sorted "receipt_id").asStr? = r.receiptId := by
    have apart : ¬("receipt_id" : String) = "status" := by decide
    rw [field_toJson, fields_lookup, if_neg apart, if_pos rfl]
    cases r.receiptId <;> rfl
  have absent : ∀ name ∈ ["output", "execution", "verification"], field r.toJson.sorted name = .null := by
    intro name member
    have apart : ¬name = "status" ∧ ¬name = "receipt_id" ∧ ¬name = "reason" ∧ ¬name = "retry_after_seconds" := by
      fin_cases member <;> decide
    rw [field_toJson, fields_lookup, if_neg apart.1, if_neg apart.2.1, if_neg apart.2.2.1, if_neg apart.2.2.2]
    rfl
  rw [approvedText, absent "output" (by simp), absent "execution" (by simp), absent "verification" (by simp), receipt]
  cases r.receiptId <;> rfl

/-- The adapter ends the call exactly when the gate's answer ends it, and says
what the gate has said. -/
theorem pollVerdict_status (reads : ReadsBack server.lib) (answer : Except PollRefusal ApprovalStatus) :
    server.pollVerdict call approvalId
        (GateClient.polled server.lib approvalId (.ok (pollReply (answer.map ApprovalPollResponse.ofStatus)))) =
      server.toldBy call approvalId (some answer) := by
  cases answer with
  | error refusal =>
    obtain ⟨e, refused⟩ := polled_refused reads approvalId refusal
    rw [Except.map, refused]
    rfl
  | ok status =>
    have small : ∀ seconds, (ApprovalPollResponse.ofStatus status).retryAfterSeconds = some seconds → seconds < 2 ^ 64 := by
      intro seconds
      unfold ApprovalPollResponse.ofStatus
      cases status.state <;> simp <;> omega
    obtain ⟨retry, polled⟩ := polled_ok reads approvalId small
    rw [Except.map, polled, approvalOutcome_toJson]
    unfold toldBy outcomeOf
    cases state : status.state with
    | pending | claimed | failed => simp [ApprovalPollResponse.ofStatus, state, Except.map, pollVerdict]
    | approved =>
      have text := server.approvedText_toJson (ApprovalPollResponse.ofStatus status)
      simp only [ApprovalPollResponse.ofStatus, state] at text ⊢
      simp [Except.map, pollVerdict, text, approvedAnswer]
    | denied =>
      simp only [ApprovalPollResponse.ofStatus, state]
      cases status.denyReason <;> simp [Except.map, pollVerdict, deniedAnswer]

/-! The gate goes on while the adapter waits. -/

/-- The store changes between the polls for an approval, and each poll is lost
or answered from the store as it is then, whoever the gate takes the adapter
for. -/
inductive Attends (config : StoreConfig) (approvalId : String) :
    ApprovalBackend → List Exchange → List (Option (Except PollRefusal ApprovalStatus)) → Prop
  | done (b : ApprovalBackend) : Attends config approvalId b [] []
  | moved {b io op seen answers} : Attends config approvalId (b.call config io op).1 seen answers →
      Attends config approvalId b seen answers
  | lost {b e seen answers} : Attends config approvalId b seen answers →
      Attends config approvalId b (pollExchange approvalId (.error e) :: seen) (none :: answers)
  | answered {b agent io seen answers} : Attends config approvalId b seen answers →
      Attends config approvalId b
        (pollExchange approvalId (.ok (pollReply (pollApprovalStatus config b agent io approvalId))) :: seen)
        (some (ownStatus config b agent io approvalId) :: answers)

variable {server call approvalId}

/-- How one poll goes into the story of a call. -/
theorem PollStory.split {reply : Except LinkError (Nat × String)} {seen : List Exchange} {resp : JsonRpcResponse}
    (story : server.PollStory call approvalId (pollExchange approvalId reply :: seen) (some resp)) :
    server.pollVerdict call approvalId (GateClient.polled server.lib approvalId reply) = some resp ∧ seen = [] ∨
      server.pollVerdict call approvalId (GateClient.polled server.lib approvalId reply) = none ∧
        server.PollStory call approvalId seen (some resp) := by
  generalize shape : pollExchange approvalId reply :: seen = all at story
  cases story with
  | late => cases shape
  | ended verdict =>
    obtain ⟨same, rfl⟩ := List.cons.inj shape
    obtain rfl := pollExchange_inj same
    exact .inl ⟨verdict, rfl⟩
  | pending verdict inner =>
    obtain ⟨same, rfl⟩ := List.cons.inj shape
    obtain rfl := pollExchange_inj same
    exact .inr ⟨verdict, inner⟩

theorem PollStory.agrees (reads : ReadsBack server.lib) {config : StoreConfig} {b : ApprovalBackend}
    {seen : List Exchange} {answers : List (Option (Except PollRefusal ApprovalStatus))}
    (attends : Attends config approvalId b seen answers) {resp : JsonRpcResponse}
    (story : server.PollStory call approvalId seen (some resp)) :
    resp = (answers.findSome? (server.toldBy call approvalId)).getD (waitsAnswer call approvalId) := by
  induction attends with
  | done => cases story with
    | late => rfl
  | moved _ ih => exact ih story
  | @lost b e seen answers _ ih =>
    have told : server.pollVerdict call approvalId (GateClient.polled server.lib approvalId (.error e)) =
        server.toldBy call approvalId none := rfl
    rcases story.split with ⟨verdict, -⟩ | ⟨verdict, inner⟩
    · rw [told] at verdict
      rw [List.findSome?_cons, verdict]
      rfl
    · rw [told] at verdict
      cases verdict
  | @answered b agent io seen answers _ ih =>
    have told := server.pollVerdict_status call approvalId reads (ownStatus config b agent io approvalId)
    rw [← pollApprovalStatus_eq] at told
    rcases story.split with ⟨verdict, -⟩ | ⟨verdict, inner⟩
    · rw [told] at verdict
      rw [List.findSome?_cons, verdict]
      rfl
    · rw [told] at verdict
      rw [List.findSome?_cons, verdict]
      exact ih inner

/-- A call that waits for an approval is answered with what the first decided
poll says, whatever happens to the store meanwhile: the receipt of an approval,
the reason of a denial, and in any other case that it still waits. -/
theorem waiting_agrees (reads : ReadsBack server.lib) (call : CallContext) (approvalId : String) (config : StoreConfig) :
    Shows (server.pollForApproval call approvalId) fun seen result =>
      ∀ resp b answers, result = some resp → Attends config approvalId b seen answers →
        resp = (answers.findSome? (server.toldBy call approvalId)).getD (waitsAnswer call approvalId) := by
  refine (server.shows_pollForApproval call approvalId).weaken ?_
  rintro seen _ story resp b answers rfl attends
  exact story.agrees reads attends

/-- A library that reads what is printed, and nothing else. -/
noncomputable def printedLibrary : Libraries where
  parse text := match Receipts.readerOf Json.toCompactString text with
    | some v => .ok v
    | none => .error "EOF while parsing a value at line 1 column 0"
  complainRequest _ := "invalid type"
  complainCall _ := "missing field"
  pretty := Json.toCompactString
  schemaError _ _ := none

theorem printedLibrary_reads : ReadsBack printedLibrary where
  parses v _ _ := by
    simp only [printedLibrary, Receipts.readerOf_print Json.toCompactString_injective]
  empty := by
    have unknown : ¬∃ v : Json, v.toCompactString = "" := by
      rintro ⟨v, none_⟩
      obtain ⟨c, rest, text, -⟩ := Json.compact_head v
      rw [Json.toCompactString, text] at none_
      exact absurd (congrArg String.toList none_) (by simp)
    refine ⟨"EOF while parsing a value at line 1 column 0", ?_⟩
    simp only [printedLibrary, Receipts.readerOf, dif_neg unknown]

noncomputable def printedServer : Server :=
  ⟨printedLibrary, "agent-1", "session-1", "0.1.0"⟩

theorem waiting_agrees_printed :
    Shows (printedServer.pollForApproval ⟨some (.number 7), "fs_write", "t-1", none⟩ "ap-1") fun seen result =>
      ∀ resp b answers, result = some resp → Attends defaultConfig "ap-1" b seen answers →
        resp = (answers.findSome? (printedServer.toldBy ⟨some (.number 7), "fs_write", "t-1", none⟩ "ap-1")).getD
          (waitsAnswer ⟨some (.number 7), "fs_write", "t-1", none⟩ "ap-1") :=
  waiting_agrees printedLibrary_reads _ _ _

end Server

end Latchgate.Mcp.Stdio
