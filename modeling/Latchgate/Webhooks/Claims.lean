import Latchgate.Machine.Actor
import Latchgate.Webhooks.Outbox
import Mathlib.Algebra.Group.Nat.Defs

namespace Latchgate

def staleClaimSeconds : Nat := 300

/-- The time library and SQLite. Times are in nanoseconds. The threshold of a
time is the text of 300 seconds before it, and a claim below it is that old. -/
structure OutboxClock where
  rfc3339 : Nat → String
  threshold : Nat → String
  stale : ∀ t now, rfc3339 t < threshold now → t + staleClaimSeconds * 10 ^ 9 ≤ now

structure OutboxWorld where
  outbox : WebhookOutbox := {}
  now : Nat := 0

/-- A poller with the entries of its batch that it has not yet reported on, and
when they were claimed. -/
structure Poller where
  pollerId : String
  held : List (Nat × Nat) := []

inductive OutboxOp where
  | enqueue (eventId endpointName payloadJson : String)
  | pollPending (limit : Nat)
  | markDelivered (id : Nat)
  | recordFailure (id : Nat) (error : String) (maxAttempts : Nat) (backoffSeconds : List Nat)
  | crash
  | retryDeadLetter (id : Nat)

/-- The entry that a poller reports on. -/
def OutboxOp.reportsOn : OutboxOp → Option Nat
  | .markDelivered id => some id
  | .recordFailure id _ _ _ => some id
  | _ => none

inductive RowState where
  | pending
  | claimed
  | delivered
  | deadLettered

namespace OutboxRow
variable (r : OutboxRow)

def Is : RowState → Prop
  | .pending => r.claimedBy = none ∧ r.deliveredAt = none ∧ r.deadLetteredAt = none
  | .claimed => r.claimedBy ≠ none
  | .delivered => r.deliveredAt ≠ none
  | .deadLettered => r.deadLetteredAt ≠ none

def pair : String × String :=
  (r.eventId, r.endpointName)

end OutboxRow

namespace Poller
variable (clock : OutboxClock)

def holds (poller : Poller) (id : Nat) : Bool :=
  poller.held.any fun entry => entry.1 = id

def drop (poller : Poller) (id : Nat) : Poller :=
  { poller with held := poller.held.filter fun entry => entry.1 ≠ id }

/-- A poller reports on what it holds. -/
def perform (poller : Poller) (now : Nat) (op : OutboxOp) (o : WebhookOutbox) : WebhookOutbox × Poller :=
  match op with
  | .enqueue eventId endpointName payloadJson => (o.enqueue eventId endpointName payloadJson (clock.rfc3339 now), poller)
  | .pollPending limit =>
    let (entries, o) := o.pollPending limit poller.pollerId (clock.rfc3339 now) (clock.threshold now)
    (o, { poller with held := entries.map fun entry => (entry.id, now) })
  | .markDelivered id => if poller.holds id then (o.markDelivered id (clock.rfc3339 now), poller.drop id) else (o, poller)
  | .recordFailure id error maxAttempts backoffSeconds =>
    if poller.holds id then
      (o.recordFailure id error maxAttempts backoffSeconds (clock.rfc3339 now)
        (fun seconds => clock.rfc3339 (now + seconds * 10 ^ 9)), poller.drop id)
    else (o, poller)
  | .crash => (o, { poller with held := [] })
  | .retryDeadLetter id => (o.retryDeadLetter id (clock.rfc3339 now), poller)

/-- Some time passes, then a party makes a call. -/
def parties : Actor OutboxWorld Poller (Nat × OutboxOp) Unit where
  act w poller input :=
    let now := w.now + input.1
    let (outbox, poller) := poller.perform clock now input.2 w.outbox
    ({ outbox, now }, poller, ())

def start (pollerId : Nat → String) : OutboxWorld × (Nat → Poller) :=
  ({}, fun i => { pollerId := pollerId i })

/-- A claim of `t` is younger than a stale one. -/
def Young (t now : Nat) : Prop :=
  now < t + staleClaimSeconds * 10 ^ 9

/-- A poller reports before its claim is stale, and the operator retries rows
that are dead-lettered. -/
def Timely (s : OutboxWorld × (Nat → Poller)) (e : Nat × (Nat × OutboxOp)) : Prop :=
  match e.2.2 with
  | .markDelivered id => ∀ t, (id, t) ∈ (s.2 e.1).held → Young t (s.1.now + e.2.1)
  | .recordFailure id _ _ _ => ∀ t, (id, t) ∈ (s.2 e.1).held → Young t (s.1.now + e.2.1)
  | .retryDeadLetter id => ∀ r ∈ s.1.outbox.rows, r.id = id → r.deadLetteredAt ≠ none
  | _ => True

end Poller

/-! What a call can do to a row. -/

namespace WebhookOutbox

/-- A claim that the threshold of the time leaves behind. -/
def Stale (clock : OutboxClock) (now : Nat) (r : OutboxRow) : Prop :=
  r.claimedBy ≠ none ∧ ∃ claimedAt, r.claimedAt = some claimedAt ∧ claimedAt < clock.threshold now

inductive RowChange (clock : OutboxClock) (now : Nat) (poller : Poller) (op : OutboxOp) : OutboxRow → OutboxRow → Prop
  | same (r : OutboxRow) : RowChange clock now poller op r r
  | released (r : OutboxRow) (stale : Stale clock now r) :
      RowChange clock now poller op r { r with claimedBy := none, claimedAt := none }
  | claimed (r : OutboxRow) (undelivered : r.deliveredAt = none) (live : r.deadLetteredAt = none)
      (free : r.claimedBy = none ∨ Stale clock now r) :
      RowChange clock now poller op r
        { r with claimedBy := some poller.pollerId, claimedAt := some (clock.rfc3339 now) }
  | reported (r after : OutboxRow) (about : op.reportsOn = some r.id) (holds : poller.holds r.id = true)
      (id : after.id = r.id) (pair : after.pair = r.pair) (free : after.claimedBy = none)
      (kept : after.deliveredAt = r.deliveredAt ∨ after.deadLetteredAt = r.deadLetteredAt) :
      RowChange clock now poller op r after
  | retried (r after : OutboxRow) (about : op = .retryDeadLetter r.id) (id : after.id = r.id) (pair : after.pair = r.pair)
      (free : after.claimedBy = none) (delivered : after.deliveredAt = r.deliveredAt) (live : after.deadLetteredAt = none) :
      RowChange clock now poller op r after

variable {clock : OutboxClock} {now : Nat} {poller : Poller} {op : OutboxOp} {r after : OutboxRow}

theorem RowChange.id_eq (change : RowChange clock now poller op r after) : after.id = r.id := by
  cases change with
  | same => rfl
  | released => rfl
  | claimed => rfl
  | reported _ _ _ id => exact id
  | retried _ _ id => exact id

theorem RowChange.pair_eq (change : RowChange clock now poller op r after) : after.pair = r.pair := by
  cases change with
  | same => rfl
  | released => rfl
  | claimed => rfl
  | reported _ _ _ _ pair => exact pair
  | retried _ _ _ pair => exact pair

/-- At most one of the columns is set. -/
structure Exclusive (r : OutboxRow) : Prop where
  claimed : r.claimedBy ≠ none → r.deliveredAt = none ∧ r.deadLetteredAt = none
  delivered : r.deliveredAt ≠ none → r.deadLetteredAt = none

theorem Exclusive.state (exclusive : Exclusive r) : ∃! state, r.Is state := by
  by_cases claimed : r.claimedBy = none
  · by_cases delivered : r.deliveredAt = none
    · by_cases dead : r.deadLetteredAt = none
      · refine ⟨.pending, ⟨claimed, delivered, dead⟩, fun state is => ?_⟩
        cases state with
        | pending => rfl
        | claimed => exact absurd claimed is
        | delivered => exact absurd delivered is
        | deadLettered => exact absurd dead is
      · refine ⟨.deadLettered, dead, fun state is => ?_⟩
        cases state with
        | pending => exact absurd is.2.2 dead
        | claimed => exact absurd claimed is
        | delivered => exact absurd delivered is
        | deadLettered => rfl
    · refine ⟨.delivered, delivered, fun state is => ?_⟩
      cases state with
      | pending => exact absurd is.2.1 delivered
      | claimed => exact absurd claimed is
      | delivered => rfl
      | deadLettered => exact absurd (exclusive.delivered delivered) is
  · refine ⟨.claimed, claimed, fun state is => ?_⟩
    cases state with
    | pending => exact absurd is.1 claimed
    | claimed => rfl
    | delivered => exact absurd (exclusive.claimed claimed).1 is
    | deadLettered => exact absurd (exclusive.claimed claimed).2 is

/-- Rows have their own numbers and pairs, and are in one state each. -/
structure Sound (o : WebhookOutbox) : Prop where
  ids : (o.rows.map OutboxRow.id).Nodup
  bound : ∀ r ∈ o.rows, r.id < o.nextId
  pairs : (o.rows.map OutboxRow.pair).Nodup
  exclusive : ∀ r ∈ o.rows, Exclusive r

theorem Sound.count_pair {o : WebhookOutbox} (sound : o.Sound) {pair : String × String}
    (member : pair ∈ o.rows.map OutboxRow.pair) : o.rows.countP (fun r => r.pair = pair) = 1 := by
  have once := List.count_eq_one_of_mem sound.pairs member
  rw [List.count, List.countP_map] at once
  rw [← once]
  exact List.countP_congr fun r _ => by simp

theorem Sound.unique {o : WebhookOutbox} (sound : o.Sound) {r r' : OutboxRow} (member : r ∈ o.rows) (member' : r' ∈ o.rows)
    (same : r.id = r'.id) : r = r' :=
  List.inj_on_of_nodup_map sound.ids member member' same

/-- A call changes rows in their places, or puts a new one in. -/
def Changes (clock : OutboxClock) (now : Nat) (poller : Poller) (op : OutboxOp) (o after : WebhookOutbox) : Prop :=
  (∃ f, after.rows = o.rows.map f ∧ after.nextId = o.nextId ∧ ∀ r ∈ o.rows, RowChange clock now poller op r (f r)) ∨
    ∃ row, after.rows = o.rows ++ [row] ∧ after.nextId = o.nextId + 1 ∧ row.id = o.nextId ∧ row.Is .pending ∧
      row.pair ∉ o.rows.map OutboxRow.pair

theorem Changes.refl (o : WebhookOutbox) : Changes clock now poller op o o :=
  .inl ⟨id, (List.map_id _).symm, rfl, fun r _ => .same r⟩

theorem changes_updateRow {o : WebhookOutbox} {id : Nat} {f : OutboxRow → OutboxRow}
    (change : ∀ r, r.id = id → RowChange clock now poller op r (f r)) : Changes clock now poller op o (o.updateRow id f) := by
  refine .inl ⟨fun r => if r.id = id then f r else r, rfl, rfl, fun r _ => ?_⟩
  dsimp only
  split
  · rename_i here
    exact change r here
  · exact .same r

theorem releaseStale_cases (now : Nat) (r : OutboxRow) :
    releaseStale (clock.threshold now) r = r ∨
      Stale clock now r ∧ releaseStale (clock.threshold now) r = { r with claimedBy := none, claimedAt := none } := by
  unfold releaseStale
  split
  · rename_i claimedAt by_eq stampedAt
    split
    · rename_i below
      exact .inr ⟨⟨by simp [by_eq], claimedAt, stampedAt, below⟩, rfl⟩
    · exact .inl rfl
  · exact .inl rfl

/-- A row that gets a claim was free, or its claim was stale. -/
theorem rowChange_claim (poller : Poller) (op : OutboxOp)
    (due : claimable (clock.rfc3339 now) (releaseStale (clock.threshold now) r) = true) :
    RowChange clock now poller op r
      { releaseStale (clock.threshold now) r with
        claimedBy := some poller.pollerId
        claimedAt := some (clock.rfc3339 now) } := by
  simp only [claimable, decide_eq_true_eq] at due
  obtain ⟨undelivered, live, free, -⟩ := due
  rcases releaseStale_cases now r with same | ⟨stale, released⟩
  · rw [same] at undelivered live free ⊢
    exact .claimed r undelivered live (.inl free)
  · rw [released] at undelivered live ⊢
    exact .claimed r undelivered live (.inr stale)

theorem rowChange_releaseStale (poller : Poller) (op : OutboxOp) (r : OutboxRow) :
    RowChange clock now poller op r (releaseStale (clock.threshold now) r) := by
  rcases releaseStale_cases now r with same | ⟨stale, released⟩
  · rw [same]
    exact .same r
  · rw [released]
    exact .released r stale

theorem releaseStale_id (threshold : String) (r : OutboxRow) : (releaseStale threshold r).id = r.id := by
  unfold releaseStale
  split
  · split <;> rfl
  · rfl

/-- The rows that a poll selects are free and due. -/
theorem Sound.due {o : WebhookOutbox} (sound : o.Sound) {limit : Nat} (member : r ∈ o.rows)
    (selected : r.id ∈ ((earliestFirst ((o.rows.map (releaseStale (clock.threshold now))).filter
      (claimable (clock.rfc3339 now)))).take limit).map OutboxRow.id) :
    claimable (clock.rfc3339 now) (releaseStale (clock.threshold now) r) = true := by
  obtain ⟨chosen, taken, same⟩ := List.mem_map.mp selected
  have sorted := List.mem_of_mem_take taken
  obtain ⟨listed, due⟩ := List.mem_filter.mp ((List.mem_insertionSort _).mp sorted)
  obtain ⟨old, present, rfl⟩ := List.mem_map.mp listed
  rw [releaseStale_id] at same
  rw [sound.unique member present same.symm]
  exact due

theorem Sound.poll_changes {o : WebhookOutbox} (sound : o.Sound) (poller : Poller) (op : OutboxOp) (now limit : Nat) :
    Changes clock now poller op o
      (o.pollPending limit poller.pollerId (clock.rfc3339 now) (clock.threshold now)).2 := by
  refine .inl ⟨_, List.map_map, rfl, fun r member => ?_⟩
  dsimp only [Function.comp]
  split
  · rename_i selected
    rw [releaseStale_id] at selected
    exact rowChange_claim poller op (sound.due member selected)
  · exact rowChange_releaseStale poller op r

theorem Sound.perform_changes {o : WebhookOutbox} (sound : o.Sound) (poller : Poller) (now : Nat) (op : OutboxOp) :
    Changes clock now poller op o (poller.perform clock now op o).1 := by
  cases op with
  | enqueue eventId endpointName payloadJson =>
    simp only [Poller.perform, enqueue]
    split
    · exact .refl o
    · rename_i absent
      refine .inr ⟨_, rfl, rfl, rfl, ⟨rfl, rfl, rfl⟩, fun member => absent ?_⟩
      obtain ⟨r, listed, same⟩ := List.mem_map.mp member
      rw [List.any_eq_true]
      exact ⟨r, listed, by simpa [OutboxRow.pair] using same⟩
  | pollPending limit => exact sound.poll_changes poller _ now limit
  | markDelivered id =>
    simp only [Poller.perform]
    split
    · rename_i holds
      exact changes_updateRow fun r here => .reported r _ (here ▸ rfl) (here ▸ holds) rfl rfl rfl (.inr rfl)
    · exact .refl o
  | recordFailure id error maxAttempts backoffSeconds =>
    simp only [Poller.perform]
    split
    · rename_i holds
      refine changes_updateRow fun r here => ?_
      dsimp only
      split
      · exact .reported r _ (here ▸ rfl) (here ▸ holds) rfl rfl rfl (.inl rfl)
      · exact .reported r _ (here ▸ rfl) (here ▸ holds) rfl rfl rfl (.inl rfl)
    · exact .refl o
  | crash => exact .refl o
  | retryDeadLetter id => exact changes_updateRow fun r here => .retried r _ (here ▸ rfl) rfl rfl rfl rfl rfl

/-- The change of a call that keeps to its row: a report on a row that is
claimed, a retry of one that is dead. -/
structure Proper (poller : Poller) (op : OutboxOp) (o : WebhookOutbox) : Prop where
  report : ∀ r ∈ o.rows, op.reportsOn = some r.id → poller.holds r.id = true → r.claimedBy = some poller.pollerId
  retry : ∀ r ∈ o.rows, op = .retryDeadLetter r.id → r.deadLetteredAt ≠ none

theorem Exclusive.change (exclusive : Exclusive r) (change : RowChange clock now poller op r after)
    (report : op.reportsOn = some r.id → poller.holds r.id = true → r.claimedBy = some poller.pollerId) :
    Exclusive after := by
  cases change with
  | same => exact exclusive
  | released => exact ⟨fun claimed => absurd rfl claimed, exclusive.delivered⟩
  | claimed undelivered live => exact ⟨fun _ => ⟨undelivered, live⟩, fun delivered => absurd undelivered delivered⟩
  | reported _ about holds _ _ free kept =>
    have claimed : r.claimedBy ≠ none := by simp [report about holds]
    obtain ⟨undelivered, live⟩ := exclusive.claimed claimed
    refine ⟨fun taken => absurd free taken, fun delivered => ?_⟩
    rcases kept with same | same
    · exact absurd (same.trans undelivered) delivered
    · exact same.trans live
  | retried _ about _ _ free delivered live => exact ⟨fun taken => absurd free taken, fun _ => live⟩

/-- What is delivered stays as it is. -/
theorem Exclusive.delivered_stays (exclusive : Exclusive r) (delivered : r.deliveredAt ≠ none)
    (change : RowChange clock now poller op r after)
    (report : op.reportsOn = some r.id → poller.holds r.id = true → r.claimedBy = some poller.pollerId)
    (retry : op = .retryDeadLetter r.id → r.deadLetteredAt ≠ none) : after = r := by
  cases change with
  | same => rfl
  | released stale => exact absurd (exclusive.claimed stale.1).1 delivered
  | claimed undelivered => exact absurd undelivered delivered
  | reported _ about holds =>
    have claimed : r.claimedBy ≠ none := by simp [report about holds]
    exact absurd (exclusive.claimed claimed).1 delivered
  | retried _ about => exact absurd (exclusive.delivered delivered) (retry about)

theorem Sound.change {o after : WebhookOutbox} (sound : o.Sound) (changes : Changes clock now poller op o after)
    (proper : Proper poller op o) : after.Sound := by
  rcases changes with ⟨f, rows, nextId, each⟩ | ⟨row, rows, nextId, id, pending, fresh⟩
  · have ids : after.rows.map OutboxRow.id = o.rows.map OutboxRow.id := by
      rw [rows, List.map_map]
      exact List.map_congr_left fun r member => (each r member).id_eq
    have pairs : after.rows.map OutboxRow.pair = o.rows.map OutboxRow.pair := by
      rw [rows, List.map_map]
      exact List.map_congr_left fun r member => (each r member).pair_eq
    refine ⟨ids ▸ sound.ids, fun r member => ?_, pairs ▸ sound.pairs, fun r member => ?_⟩
    · rw [rows] at member
      obtain ⟨old, listed, rfl⟩ := List.mem_map.mp member
      rw [(each old listed).id_eq, nextId]
      exact sound.bound old listed
    · rw [rows] at member
      obtain ⟨old, listed, rfl⟩ := List.mem_map.mp member
      exact (sound.exclusive old listed).change (each old listed) (proper.report old listed)
  · have single : ∀ r ∈ after.rows, r ∈ o.rows ∨ r = row := by
      intro r member
      rw [rows] at member
      rcases List.mem_append.mp member with old | new
      · exact .inl old
      · exact .inr (List.mem_singleton.mp new)
    refine ⟨?_, fun r member => ?_, ?_, fun r member => ?_⟩
    · rw [rows, List.map_append]
      refine List.nodup_append.mpr ⟨sound.ids, List.nodup_singleton _, ?_⟩
      rintro number member _ new rfl
      obtain ⟨r, listed, same⟩ := List.mem_map.mp member
      have below := sound.bound r listed
      rw [List.mem_singleton.mp new, id] at same
      omega
    · rcases single r member with old | rfl
      · have below := sound.bound r old
        omega
      · omega
    · rw [rows, List.map_append]
      refine List.nodup_append.mpr ⟨sound.pairs, List.nodup_singleton _, ?_⟩
      rintro pair member _ new rfl
      exact fresh (List.mem_singleton.mp new ▸ member)
    · rcases single r member with old | rfl
      · exact sound.exclusive r old
      · exact ⟨fun claimed => absurd pending.1 claimed, fun _ => pending.2.2⟩

theorem Sound.delivered_mem {o after : WebhookOutbox} (sound : o.Sound) (changes : Changes clock now poller op o after)
    (proper : Proper poller op o) (member : r ∈ o.rows) (delivered : r.deliveredAt ≠ none) : r ∈ after.rows := by
  rcases changes with ⟨f, rows, -, each⟩ | ⟨row, rows, -⟩
  · have same := (sound.exclusive r member).delivered_stays delivered (each r member) (proper.report r member)
      (proper.retry r member)
    rw [rows]
    exact List.mem_map.mpr ⟨r, member, same⟩
  · rw [rows]
    exact List.mem_append_left _ member

/-- A pair that has a row keeps it. -/
theorem Changes.pair_mem {o after : WebhookOutbox} (changes : Changes clock now poller op o after) {pair : String × String}
    (member : pair ∈ o.rows.map OutboxRow.pair) : pair ∈ after.rows.map OutboxRow.pair := by
  rcases changes with ⟨f, rows, -, each⟩ | ⟨row, rows, -⟩
  · obtain ⟨r, listed, rfl⟩ := List.mem_map.mp member
    rw [rows, List.map_map]
    exact List.mem_map.mpr ⟨r, listed, (each r listed).pair_eq⟩
  · rw [rows, List.map_append]
    exact List.mem_append_left _ member

/-- A poller's claim on a row. -/
def ClaimedBy (clock : OutboxClock) (o : WebhookOutbox) (pollerId : String) (id t : Nat) : Prop :=
  ∃ r ∈ o.rows, r.id = id ∧ r.claimedBy = some pollerId ∧ r.claimedAt = some (clock.rfc3339 t)

/-- A young claim stays until its poller reports. -/
theorem ClaimedBy.change {o after : WebhookOutbox} {pollerId : String} {id t : Nat}
    (claim : ClaimedBy clock o pollerId id t) (sound : o.Sound) (young : Poller.Young t now)
    (changes : Changes clock now poller op o after) (proper : Proper poller op o)
    (other : op.reportsOn = some id → poller.holds id = true → pollerId ≠ poller.pollerId) :
    ClaimedBy clock after pollerId id t := by
  obtain ⟨r, member, rfl, claimed, claimedAt⟩ := claim
  have taken : r.claimedBy ≠ none := by simp [claimed]
  have fresh : ¬Stale clock now r := by
    rintro ⟨-, c, since, below⟩
    have same : c = clock.rfc3339 t := Option.some.inj (since.symm.trans claimedAt)
    have old := clock.stale t now (same ▸ below)
    simp only [Poller.Young] at young
    omega
  rcases changes with ⟨f, rows, -, each⟩ | ⟨row, rows, -⟩
  · have stays : f r = r := by
      have change := each r member
      generalize f r = after at change
      cases change with
      | same => rfl
      | released stale => exact absurd stale fresh
      | claimed _ _ free => exact absurd free fun either => either.elim taken fresh
      | reported _ about holds =>
        have mine := proper.report r member about holds
        exact absurd (Option.some.inj (claimed.symm.trans mine)) (other about holds)
      | retried _ about => exact absurd ((sound.exclusive r member).claimed taken).2 (proper.retry r member about)
    exact ⟨r, rows ▸ List.mem_map.mpr ⟨r, member, stays⟩, rfl, claimed, claimedAt⟩
  · exact ⟨r, rows ▸ List.mem_append_left _ member, rfl, claimed, claimedAt⟩

theorem enqueue_mem (eventId endpointName payloadJson now : String) (o : WebhookOutbox) :
    (eventId, endpointName) ∈ (o.enqueue eventId endpointName payloadJson now).rows.map OutboxRow.pair := by
  unfold enqueue
  split
  · rename_i present
    obtain ⟨r, listed, same⟩ := List.any_eq_true.mp present
    exact List.mem_map.mpr ⟨r, listed, by simpa [OutboxRow.pair] using same⟩
  · simp [OutboxRow.pair]

/-- What a poll returns has the claim of the poller. -/
theorem polled_claimed {limit : Nat} {pollerId stamp threshold : String} {o : WebhookOutbox} {r : OutboxRow}
    (polled : r ∈ (o.pollPending limit pollerId stamp threshold).1) :
    r.claimedBy = some pollerId ∧ r.claimedAt = some stamp := by
  obtain ⟨member, selected⟩ := List.mem_filter.mp polled
  obtain ⟨released, _, rfl⟩ := List.mem_map.mp member
  split
  · exact ⟨rfl, rfl⟩
  · rename_i missed
    simp only [if_neg missed, decide_eq_true_eq] at selected
    exact absurd selected missed

end WebhookOutbox

/-! What a poller holds. -/

namespace Poller
open WebhookOutbox

variable {clock : OutboxClock} {now : Nat} {poller : Poller} {op : OutboxOp} {o : WebhookOutbox}

theorem perform_pollerId : (poller.perform clock now op o).2.pollerId = poller.pollerId := by
  cases op with
  | enqueue eventId endpointName payloadJson => rfl
  | pollPending limit => rfl
  | markDelivered id =>
    simp only [perform]
    split
    · rfl
    · rfl
  | recordFailure id error maxAttempts backoffSeconds =>
    simp only [perform]
    split
    · rfl
    · rfl
  | crash => rfl
  | retryDeadLetter id => rfl

theorem mem_drop {id number t : Nat} : (number, t) ∈ (poller.drop id).held ↔ (number, t) ∈ poller.held ∧ number ≠ id := by
  simp [drop]

/-- After a call a poller holds what it held and has not reported on, or what
it has just claimed. -/
theorem perform_held {id t : Nat} (held : (id, t) ∈ (poller.perform clock now op o).2.held) :
    ((id, t) ∈ poller.held ∧ (op.reportsOn = some id → poller.holds id = false)) ∨
      (t = now ∧ ClaimedBy clock (poller.perform clock now op o).1 poller.pollerId id now) := by
  cases op with
  | enqueue eventId endpointName payloadJson => exact .inl ⟨held, fun same => nomatch same⟩
  | pollPending limit =>
    obtain ⟨entry, polled, same⟩ := List.mem_map.mp held
    cases same
    obtain ⟨claimed, claimedAt⟩ := polled_claimed polled
    exact .inr ⟨rfl, entry, polled_mem polled, rfl, claimed, claimedAt⟩
  | markDelivered number =>
    left
    simp only [perform] at held
    split at held
    · obtain ⟨kept, differs⟩ := mem_drop.1 held
      exact ⟨kept, fun same => absurd (Option.some.inj same).symm differs⟩
    · rename_i missing
      exact ⟨held, fun same => Option.some.inj same ▸ Bool.not_eq_true _ ▸ missing⟩
  | recordFailure number error maxAttempts backoffSeconds =>
    left
    simp only [perform] at held
    split at held
    · obtain ⟨kept, differs⟩ := mem_drop.1 held
      exact ⟨kept, fun same => absurd (Option.some.inj same).symm differs⟩
    · rename_i missing
      exact ⟨held, fun same => Option.some.inj same ▸ Bool.not_eq_true _ ▸ missing⟩
  | crash => cases held
  | retryDeadLetter number => exact .inl ⟨held, fun same => nomatch same⟩

theorem Young.earlier {t elapsed : Nat} (young : Young t (now + elapsed)) : Young t now := by
  simp only [Young] at young ⊢
  omega

/-- The table is sound, it has every pair that was enqueued, and whoever holds
a young claim has it in the table. -/
structure Good (clock : OutboxClock) (pollerId : Nat → String) (past : List ((Nat × (Nat × OutboxOp)) × Unit)) (i : Nat)
    (w : OutboxWorld) (poller : Poller) : Prop where
  sound : w.outbox.Sound
  enqueued : ∀ j elapsed eventId endpointName payloadJson,
    ((j, elapsed, .enqueue eventId endpointName payloadJson), ()) ∈ past →
      (eventId, endpointName) ∈ w.outbox.rows.map OutboxRow.pair
  name : poller.pollerId = pollerId i
  claims : ∀ id t, (id, t) ∈ poller.held → Young t w.now → ClaimedBy clock w.outbox poller.pollerId id t

variable {pollerId : Nat → String} {past : List ((Nat × (Nat × OutboxOp)) × Unit)} {s : OutboxWorld × (Nat → Poller)}
  {i : Nat} {e : Nat × OutboxOp}

/-- In a timely step a poller reports on rows that have its claim. -/
theorem Good.proper (good : Good clock pollerId past i s.1 (s.2 i)) (timely : Timely s (i, e)) :
    WebhookOutbox.Proper (s.2 i) e.2 s.1.outbox := by
  obtain ⟨elapsed, op⟩ := e
  have claimed : ∀ r ∈ s.1.outbox.rows, (s.2 i).holds r.id = true →
      (∀ t, (r.id, t) ∈ (s.2 i).held → Young t (s.1.now + elapsed)) → r.claimedBy = some (s.2 i).pollerId := by
    intro r member holds young
    obtain ⟨⟨id, t⟩, held, same⟩ := List.any_eq_true.mp holds
    have here : id = r.id := of_decide_eq_true same
    subst here
    obtain ⟨row, listed, number, mine, -⟩ := good.claims r.id t held (young t held).earlier
    rw [← good.sound.unique listed member number]
    exact mine
  refine ⟨fun r member about holds => claimed r member holds ?_, fun r member about => ?_⟩
  · cases op with
    | markDelivered id =>
      cases about
      exact timely
    | recordFailure id error maxAttempts backoffSeconds =>
      cases about
      exact timely
    | enqueue => cases about
    | pollPending => cases about
    | crash => cases about
    | retryDeadLetter => cases about
  · subst about
    exact timely r member rfl

/-- What a timely step of one poller leaves of what any poller holds. -/
theorem Good.claims_change {k : Nat} (good : Good clock pollerId past i s.1 (s.2 i))
    (other : Good clock pollerId past k s.1 (s.2 k)) (timely : Timely s (i, e)) {id t : Nat} (held : (id, t) ∈ (s.2 k).held)
    (young : Young t (s.1.now + e.1))
    (apart : e.2.reportsOn = some id → (s.2 i).holds id = true → (s.2 k).pollerId ≠ (s.2 i).pollerId) :
    ClaimedBy clock ((s.2 i).perform clock (s.1.now + e.1) e.2 s.1.outbox).1 (s.2 k).pollerId id t :=
  (other.claims id t held young.earlier).change good.sound young (good.sound.perform_changes _ _ _) (good.proper timely) apart

theorem Good.enqueued_change (good : Good clock pollerId past i s.1 (s.2 i)) :
    ∀ j elapsed eventId endpointName payloadJson,
      ((j, elapsed, .enqueue eventId endpointName payloadJson), ()) ∈ past ++ [((i, e), ())] →
        (eventId, endpointName) ∈
          ((s.2 i).perform clock (s.1.now + e.1) e.2 s.1.outbox).1.rows.map OutboxRow.pair := by
  intro j elapsed eventId endpointName payloadJson member
  rcases List.mem_append.mp member with old | new
  · exact (good.sound.perform_changes _ _ _).pair_mem (good.enqueued j elapsed eventId endpointName payloadJson old)
  · cases List.mem_singleton.mp new
    exact enqueue_mem eventId endpointName payloadJson _ s.1.outbox

theorem good_start (clock : OutboxClock) (pollerId : Nat → String) (i : Nat) :
    Good clock pollerId [] i (start pollerId).1 ((start pollerId).2 i) := by
  refine ⟨⟨List.nodup_nil, ?_, List.nodup_nil, ?_⟩, ?_, rfl, ?_⟩
  · intro r member
    cases member
  · intro r member
    cases member
  · intro j elapsed eventId endpointName payloadJson member
    cases member
  · intro id t held
    cases held

theorem good_run (clock : OutboxClock) {pollerId : Nat → String} (distinct : Function.Injective pollerId)
    {inputs : List (Nat × (Nat × OutboxOp))} (meets : (parties clock).machine.Meets Timely (start pollerId) inputs) (i : Nat) :
    Good clock pollerId ((parties clock).machine.trace (start pollerId) inputs) i
      ((parties clock).machine.run (start pollerId) inputs).1 (((parties clock).machine.run (start pollerId) inputs).2 i) := by
  refine @Actor.guarded_invariant _ _ _ _ (parties clock) Timely (Good clock pollerId) ?_ ?_ _ (good_start clock pollerId)
    _ meets i
  · intro past s i e timely each
    have good := each i
    have changes := @Sound.perform_changes clock _ good.sound (s.2 i) (s.1.now + e.1) e.2
    refine ⟨good.sound.change changes (good.proper timely), good.enqueued_change, (perform_pollerId).trans good.name, ?_⟩
    intro id t held young
    rw [show ((parties clock).act s.1 (s.2 i) e).2.1.pollerId = (s.2 i).pollerId from perform_pollerId]
    rcases perform_held held with ⟨kept, unreported⟩ | ⟨rfl, claimed⟩
    · refine good.claims_change good timely kept young fun about holds => ?_
      rw [unreported about] at holds
      cases holds
    · exact claimed
  · intro past s i j e differs timely each
    have good := each j
    have changes := @Sound.perform_changes clock _ good.sound (s.2 j) (s.1.now + e.1) e.2
    refine ⟨good.sound.change changes (good.proper timely), good.enqueued_change, (each i).name, ?_⟩
    intro id t held young
    refine good.claims_change (each i) timely held young fun _ _ same => differs (distinct ?_)
    rw [← (each i).name, ← good.name]
    exact same

/-- A row that is delivered after a part of a timely run is there at its end. -/
theorem delivered_stays (clock : OutboxClock) {pollerId : Nat → String} (distinct : Function.Injective pollerId)
    {inputs later : List (Nat × (Nat × OutboxOp))} {r : OutboxRow}
    (meets : (parties clock).machine.Meets Timely (start pollerId) (inputs ++ later))
    (member : r ∈ ((parties clock).machine.run (start pollerId) inputs).1.outbox.rows) (delivered : r.Is .delivered) :
    r ∈ ((parties clock).machine.run (start pollerId) (inputs ++ later)).1.outbox.rows := by
  induction later using List.reverseRecOn with
  | nil => simpa using member
  | append_singleton past e ih =>
    rw [← List.append_assoc] at meets ⊢
    obtain ⟨before, timely, -⟩ := Machine.meets_append.1 meets
    obtain ⟨i, e⟩ := e
    have good := good_run clock distinct before i
    rw [Machine.run_concat]
    exact good.sound.delivered_mem (good.sound.perform_changes _ _ _) (good.proper timely) (ih before) delivered

/-- In every run whose steps are timely: each pair that was enqueued has one
row, each row is in one state, what is delivered stays as it is, no two pollers
hold young claims on one row, and the row that a poller reports on has its
claim. -/
theorem outbox_claims (clock : OutboxClock) {pollerId : Nat → String} (distinct : Function.Injective pollerId)
    {inputs later : List (Nat × (Nat × OutboxOp))}
    (meets : (parties clock).machine.Meets Timely (start pollerId) (inputs ++ later)) :
    let s := (parties clock).machine.run (start pollerId) inputs
    let last := (parties clock).machine.run (start pollerId) (inputs ++ later)
    (∀ i elapsed eventId endpointName payloadJson, (i, elapsed, .enqueue eventId endpointName payloadJson) ∈ inputs →
      s.1.outbox.rows.countP (fun r => r.pair = (eventId, endpointName)) = 1) ∧
    (∀ r ∈ s.1.outbox.rows, ∃! state, r.Is state) ∧
    (∀ r ∈ s.1.outbox.rows, r.Is .delivered → r ∈ last.1.outbox.rows) ∧
    (∀ i j, i ≠ j → ∀ id t u, (id, t) ∈ (s.2 i).held → (id, u) ∈ (s.2 j).held →
      ¬(Young t s.1.now ∧ Young u s.1.now)) ∧
    ∀ i e, Timely s (i, e) → ∀ r ∈ s.1.outbox.rows, e.2.reportsOn = some r.id → (s.2 i).holds r.id = true →
      r.claimedBy = some (pollerId i) := by
  intro s last
  obtain ⟨before, after⟩ := Machine.meets_append.1 meets
  have good := good_run clock distinct before
  refine ⟨?_, fun r member => ((good 0).sound.exclusive r member).state, ?_, ?_, ?_⟩
  · intro i elapsed eventId endpointName payloadJson member
    refine (good 0).sound.count_pair ((good 0).enqueued i elapsed eventId endpointName payloadJson ?_)
    rw [← Machine.trace_inputs (parties clock).machine (start pollerId) inputs] at member
    obtain ⟨⟨input, ⟨⟩⟩, traced, rfl⟩ := List.mem_map.mp member
    exact traced
  · exact fun r member delivered => delivered_stays clock distinct meets member delivered
  · intro i j differs id t u heldI heldJ ⟨youngI, youngJ⟩
    obtain ⟨r, member, rfl, mine, -⟩ := (good i).claims id t heldI youngI
    obtain ⟨r', member', same, yours, -⟩ := (good j).claims _ u heldJ youngJ
    rw [(good i).sound.unique member' member same, mine, (good i).name, (good j).name] at yours
    exact differs (distinct (Option.some.inj yours))
  · intro i e timely r member about holds
    rw [← (good i).name]
    exact ((good i).proper timely).report r member about holds

/-! A poller that reports late. -/

/-- The clock around a midnight: the poll at 23:59:00 is six minutes and one
second before that at 00:05:01. -/
def plainClock : OutboxClock where
  rfc3339 t := if t < 61 * 10 ^ 9 then "2026-01-01T23:59:00+00:00" else "2026-01-02T00:05:01+00:00"
  threshold now := if now < 361 * 10 ^ 9 then "2026-01-01 23:54:00" else "2026-01-02 00:00:01"
  stale t now below := by
    have texts : ¬"2026-01-01T23:59:00+00:00" < "2026-01-01 23:54:00" ∧
        ¬"2026-01-02T00:05:01+00:00" < "2026-01-01 23:54:00" ∧ ¬"2026-01-02T00:05:01+00:00" < "2026-01-02 00:00:01" := by
      decide
    split_ifs at below with first last
    · exact absurd below texts.1
    · simp only [staleClaimSeconds]
      omega
    · exact absurd below texts.2.1
    · exact absurd below texts.2.2

def plainPoller (i : Nat) : String :=
  String.ofList (List.replicate i 'p')

theorem plainPoller_injective : Function.Injective plainPoller := by
  intro i j same
  have lengths := congrArg List.length (String.ofList_injective same)
  simpa using lengths

theorem outbox_claims_sample :
    let s := (parties plainClock).machine.run (start plainPoller)
      [(0, 0, .enqueue "event" "endpoint" "payload"), (0, 0, .pollPending 10)]
    ∀ r ∈ s.1.outbox.rows, ∃! state, r.Is state := by
  have meets : (parties plainClock).machine.Meets Timely (start plainPoller)
      ([(0, 0, .enqueue "event" "endpoint" "payload"), (0, 0, .pollPending 10)] ++ []) := ⟨trivial, trivial, trivial⟩
  exact (outbox_claims plainClock plainPoller_injective meets).2.1

/-- The second poller delivers the entry, and the first one reports a failure:
the row is delivered and dead-lettered. -/
theorem late_report :
    let s := (parties plainClock).machine.run (start plainPoller)
      [(0, 0, .enqueue "event" "endpoint" "payload"), (0, 0, .pollPending 10), (1, 361 * 10 ^ 9, .pollPending 10),
        (1, 0, .markDelivered 1), (0, 0, .recordFailure 1 "delivery timed out" 1 [])]
    ∃ r ∈ s.1.outbox.rows, r.deliveredAt.isSome = true ∧ r.deadLetteredAt.isSome = true := by
  decide

end Poller
end Latchgate
