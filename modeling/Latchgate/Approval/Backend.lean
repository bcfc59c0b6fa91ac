import Latchgate.Approval.InMemory
import Latchgate.Approval.Sqlite
import Latchgate.Approval.Redis

namespace Latchgate

/-- The state of an approval store, in whichever backend keeps it. -/
inductive ApprovalBackend where
  | inMemory (map : InMemoryMap)
  | sqlite (db : SqliteDb)
  | redis (db : RedisDb)

namespace ApprovalBackend
variable (config : StoreConfig)

def step : ApprovalBackend → ApprovalCall → ApprovalBackend × ApprovalAnswer
  | inMemory map, call =>
    let (next, answer) := InMemory.step config map call
    (inMemory next, answer)
  | sqlite db, call =>
    let (next, answer) := Sqlite.step config db call
    (sqlite next, answer)
  | redis db, call =>
    let (next, answer) := Redis.step config db call
    (redis next, answer)

def machine : Machine ApprovalBackend ApprovalCall ApprovalAnswer where
  step := step config

/-- The record that the status of an approval is made from. -/
def getRecord (b : ApprovalBackend) (approvalId : String) (now : Clock) :
    Except ApprovalError (Option ApprovalRecord) :=
  match b with
  | inMemory map => .ok (InMemory.getRecord map approvalId)
  | sqlite db => Sqlite.getRecord config db approvalId
  | redis db => Redis.getRecord config db approvalId now

/-- The record kept for an approval, whether or not it can still be read. -/
def view : ApprovalBackend → String → Option ApprovalRecord
  | inMemory map, id => InMemory.getRecord map id
  | sqlite db, id => Sqlite.view db id
  | redis db, id => Redis.view db id

def traits : ApprovalBackend → Traits
  | inMemory _ => InMemory.traits config
  | sqlite _ => Sqlite.traits config
  | redis _ => Redis.traits config

inductive Empty : ApprovalBackend → Prop
  | inMemory : Empty (.inMemory ∅)
  | sqlite : Empty (.sqlite ∅)
  | redis : Empty (.redis ∅)

/-- Every approval is kept as a well-formed record under its own id. -/
def Sound : ApprovalBackend → Prop
  | inMemory map => ∀ id, ∀ r ∈ InMemory.getRecord map id, r.WellFormed ∧ r.payload.approvalId = id
  | sqlite db => Sqlite.Laid db
  | redis db => Redis.Laid db

variable {config}

theorem Empty.sound {b : ApprovalBackend} (empty : b.Empty) : b.Sound := by
  cases empty with
  | inMemory =>
    intro id r stored
    cases stored
  | sqlite =>
    intro id row stored
    cases stored
  | redis =>
    intro id row stored
    cases stored

theorem view_of_laid {β : Type} {fields : β → StoredFields} {db : AList fun _ : String => β} {id : String}
    (laid : Table.Laid fields db) :
    ∀ r ∈ Table.view fields db id, r.WellFormed ∧ r.payload.approvalId = id := by
  intro r member
  cases stored : db.lookup id with
  | none => simp [Table.view, stored] at member
  | some row =>
    obtain ⟨s, same, formed, named⟩ := laid id row stored
    rw [Table.view_of_lookup stored same] at member
    cases member
    exact ⟨formed, named⟩

theorem Sound.view {b : ApprovalBackend} (sound : b.Sound) (id : String) :
    ∀ r ∈ b.view id, r.WellFormed ∧ r.payload.approvalId = id := by
  cases b with
  | inMemory map => exact sound id
  | sqlite db => exact view_of_laid sound
  | redis db => exact view_of_laid sound

theorem step_record (config : StoreConfig) {b : ApprovalBackend} (sound : b.Sound) (call : ApprovalCall) :
    (step config b call).1.Sound ∧ ∀ id, RecordStep (b.traits config) id call (step config b call).2
      (b.view id) ((step config b call).1.view id) := by
  cases b with
  | inMemory map =>
    refine ⟨fun id => ?_, InMemory.step_record map call⟩
    have step : RecordStep (InMemory.traits config) id call (InMemory.step config map call).2
        (InMemory.getRecord map id) (InMemory.getRecord (InMemory.step config map call).1 id) :=
      InMemory.step_record map call id
    intro r stored
    exact ⟨step.wellFormed (fun s m => (sound id s m).1) r stored, step.approvalId (fun s m => (sound id s m).2) r stored⟩
  | sqlite db => exact Sqlite.step_record sound call
  | redis db => exact Redis.step_record sound call

theorem run_sound {b : ApprovalBackend} (sound : b.Sound) (calls : List ApprovalCall) :
    ((machine config).run b calls).Sound := by
  have preserved : ∀ (c : ApprovalBackend) call, c.Sound → ((machine config).step c call).1.Sound :=
    fun _ call before => (step_record config before call).1
  exact Machine.run_invariant preserved sound calls

/-- What is read for an approval differs from what is kept only in the payload
and the claim token. -/
theorem getRecord_view {b : ApprovalBackend} {id : String} {now : Clock} {r : ApprovalRecord} (sound : b.Sound)
    (read : b.getRecord config id now = .ok (some r)) :
    ∃ s, b.view id = some s ∧ r.state = s.state ∧ r.outcomeMarker = s.outcomeMarker ∧
      r.completion = s.completion ∧ r.claim.map ClaimInfo.claimedBy = s.claim.map ClaimInfo.claimedBy ∧
      r.claim.map ClaimInfo.claimedAt = s.claim.map ClaimInfo.claimedAt := by
  cases b with
  | inMemory map => exact ⟨r, Except.ok.inj read, rfl, rfl, rfl, rfl, rfl⟩
  | sqlite db =>
    cases stored : db.lookup id with
    | none => simp [getRecord, Sqlite.getRecord, stored] at read
    | some row =>
      obtain ⟨fields, createdAt, expires⟩ := row
      obtain ⟨s, rfl, formed, named⟩ := sound id _ stored
      simp only [getRecord, Sqlite.getRecord, stored, Sqlite.state_ofRecord] at read
      split at read
      · rename_i payload _
        rw [StoredFields.recordFromRow_ofRecord] at read
        cases read
        exact ⟨s, Table.view_of_lookup stored rfl, rfl, rfl, rfl, rfl, rfl⟩
      · cases read
  | redis db =>
    cases stored : Redis.find db id now with
    | none => simp [getRecord, Redis.getRecord, stored] at read
    | some hash =>
      obtain ⟨fields, expireAt⟩ := hash
      obtain ⟨s, rfl, formed, named⟩ := sound id _ (Redis.lookup_of_find stored)
      simp only [getRecord, Redis.getRecord, stored, Sqlite.state_ofRecord] at read
      split at read
      · rename_i payload _
        cases read
        refine ⟨s, Table.view_of_lookup (Redis.lookup_of_find stored) rfl, ?_⟩
        obtain ⟨state, original, claim, marker, completion⟩ := s
        cases claim <;> cases marker <;> cases completion <;> exact ⟨rfl, rfl, rfl, rfl, rfl⟩
      · cases read

end ApprovalBackend
end Latchgate
