import Latchgate.Machine.Run
import Latchgate.Sandbox.Streams

namespace Latchgate.Sandbox

/-! The relay between bounded channels: the socket buffers in each direction of
either connection. -/

structure Capacities where
  fromClient : Nat
  toRemote : Nat
  fromRemote : Nat
  toClient : Nat
  positive : 0 < toClient

inductive RelayResult where
  | finished
  | ioError
  | idleTimeout
  deriving DecidableEq

/-- Where the one task of the relay is: at `select!`, or inside the `write_all`
of one of its branches, where neither read nor the idle timer is polled. -/
inductive Activity where
  | selecting
  | writingRemote (left : List UInt8)
  | writingClient (left : List UInt8)
  | returned (result : RelayResult)

structure Relay where
  fromClient : List UInt8 := []
  toRemote : List UInt8 := []
  fromRemote : List UInt8 := []
  toClient : List UInt8 := []
  activity : Activity := .selecting
  c2rDone : Bool := false
  r2cDone : Bool := false
  /-- What the remote's own write has left. -/
  remoteWrite : List UInt8 := []
  clientClosed : Bool := false
  remoteClosed : Bool := false
  failed : Bool := false

/-- What the peers do, and what the relay does. -/
inductive RelayInput where
  | clientSends (bytes : List UInt8)
  | clientReads (count : Nat)
  | clientCloses
  | remoteWrites (bytes : List UInt8)
  | remoteSends (count : Nat)
  | remoteReads (count : Nat)
  | remoteCloses
  | connectionFails
  | readsClient (count : Nat)
  | readsRemote (count : Nat)
  | clientEnds
  | remoteEnds
  | writes (count : Nat)
  | meetsFailure
  | idles

namespace Relay
variable (cap : Capacities) (s : Relay)

/-- The loop ends when both directions have. -/
def settle : Relay :=
  if s.c2rDone ∧ s.r2cDone then { s with activity := .returned .finished } else s

/-- One write of so many bytes inside the `write_all` that runs. -/
def write (count : Nat) : Relay :=
  match s.activity with
  | .writingRemote left =>
    if 0 < count ∧ count ≤ left.length ∧ s.toRemote.length + count ≤ cap.toRemote then
      { s with
        toRemote := s.toRemote ++ left.take count
        activity := if left.drop count = [] then .selecting else .writingRemote (left.drop count) }
    else s
  | .writingClient left =>
    if 0 < count ∧ count ≤ left.length ∧ s.toClient.length + count ≤ cap.toClient then
      { s with
        toClient := s.toClient ++ left.take count
        activity := if left.drop count = [] then .selecting else .writingClient (left.drop count) }
    else s
  | _ => s

def isSelecting : Bool :=
  match s.activity with
  | .selecting => true
  | _ => false

/-- What is not enabled leaves the state as it is. -/
def next : RelayInput → Relay
  | .clientSends bytes =>
    if s.clientClosed = false ∧ s.fromClient.length + bytes.length ≤ cap.fromClient then
      { s with fromClient := s.fromClient ++ bytes } else s
  | .clientReads count => { s with toClient := s.toClient.drop count }
  | .clientCloses => { s with clientClosed := true }
  | .remoteWrites bytes =>
    if s.remoteClosed = false ∧ s.remoteWrite = [] then { s with remoteWrite := bytes } else s
  | .remoteSends count =>
    if count ≤ s.remoteWrite.length ∧ s.fromRemote.length + count ≤ cap.fromRemote then
      { s with fromRemote := s.fromRemote ++ s.remoteWrite.take count, remoteWrite := s.remoteWrite.drop count } else s
  | .remoteReads count => { s with toRemote := s.toRemote.drop count }
  | .remoteCloses => { s with remoteClosed := true }
  | .connectionFails => { s with failed := true }
  | .readsClient count =>
    if s.isSelecting ∧ s.c2rDone = false ∧ 0 < count ∧ count ≤ s.fromClient.length ∧ count ≤ relayBufSize then
      { s with fromClient := s.fromClient.drop count, activity := .writingRemote (s.fromClient.take count) } else s
  | .readsRemote count =>
    if s.isSelecting ∧ s.r2cDone = false ∧ 0 < count ∧ count ≤ s.fromRemote.length ∧ count ≤ relayBufSize then
      { s with fromRemote := s.fromRemote.drop count, activity := .writingClient (s.fromRemote.take count) } else s
  | .clientEnds =>
    if s.isSelecting ∧ s.c2rDone = false ∧ s.fromClient = [] ∧ s.clientClosed then settle { s with c2rDone := true } else s
  | .remoteEnds =>
    if s.isSelecting ∧ s.r2cDone = false ∧ s.fromRemote = [] ∧ s.remoteWrite = [] ∧ s.remoteClosed then
      settle { s with r2cDone := true } else s
  | .writes count => s.write cap count
  | .meetsFailure =>
    if s.failed then
      match s.activity with
      | .selecting => { s with activity := .returned .ioError }
      | .writingRemote _ | .writingClient _ => { s with activity := .returned .finished }
      | .returned _ => s
    else s
  | .idles => if s.isSelecting then { s with activity := .returned .idleTimeout } else s

def machine : Machine Relay RelayInput Unit where
  step s input := (s.next cap input, ())

/-- Neither side has closed or failed, and the relay runs. -/
structure Running : Prop where
  client : s.clientClosed = false
  remote : s.remoteClosed = false
  connections : s.failed = false
  relay : ∀ result, s.activity ≠ .returned result

/-- The client can accept data. -/
def ClientAccepts : Prop :=
  s.toClient.length < cap.toClient

/-- The relay is at `select!` with both reads, or its write moves a byte. -/
def Progresses : Prop :=
  match s.activity with
  | .selecting => s.c2rDone = false ∧ s.r2cDone = false
  | .writingRemote left => left ≠ [] ∧ s.toRemote.length < cap.toRemote
  | .writingClient left => left ≠ [] ∧ s.toClient.length < cap.toClient
  | .returned _ => False

/-- The relay waits for the remote to read. -/
def WaitsForRemote : Prop :=
  ∃ left, s.activity = .writingRemote left ∧ left ≠ [] ∧ cap.toRemote ≤ s.toRemote.length

/-- The remote waits for the relay to read. -/
def RemoteWaits : Prop :=
  s.remoteWrite ≠ [] ∧ cap.fromRemote ≤ s.fromRemote.length

structure DeadlockFree : Prop where
  progresses : s.Running → s.ClientAccepts cap → s.Progresses cap
  noCircle : ¬(s.WaitsForRemote cap ∧ s.RemoteWaits cap)

/-- The relay takes no more from the client than fits towards the remote. -/
def Roomy (input : RelayInput) : Prop :=
  ∀ count, input = .readsClient count → s.toRemote.length + count ≤ cap.toRemote

/-- What holds while the relay takes no more than fits: its write towards the
remote has room for all that it has left. -/
structure Sound : Prop where
  towardsRemote : ∀ left, s.activity = .writingRemote left →
    left ≠ [] ∧ s.toRemote.length + left.length ≤ cap.toRemote
  towardsClient : ∀ left, s.activity = .writingClient left → left ≠ []
  c2r : s.c2rDone = true → s.clientClosed = true
  r2c : s.r2cDone = true → s.remoteClosed = true

variable {cap s}

theorem Sound.deadlockFree (sound : s.Sound cap) : s.DeadlockFree cap := by
  constructor
  · intro running accepts
    unfold Progresses
    split
    · have c2r : s.c2rDone ≠ true := fun done => by
        have closed := sound.c2r done
        rw [running.client] at closed
        cases closed
      have r2c : s.r2cDone ≠ true := fun done => by
        have closed := sound.r2c done
        rw [running.remote] at closed
        cases closed
      exact ⟨by simpa using c2r, by simpa using r2c⟩
    · rename_i left writing
      obtain ⟨some_, room⟩ := sound.towardsRemote left writing
      have length := List.length_pos_iff.mpr some_
      exact ⟨some_, by omega⟩
    · rename_i left writing
      exact ⟨sound.towardsClient left writing, accepts⟩
    · rename_i result returned
      exact running.relay result returned
  · rintro ⟨⟨left, writing, some_, full⟩, -⟩
    have room := (sound.towardsRemote left writing).2
    have length := List.length_pos_iff.mpr some_
    omega

theorem Sound.write (sound : s.Sound cap) (count : Nat) : (s.write cap count).Sound cap := by
  unfold Relay.write
  split
  · rename_i left writing
    obtain ⟨-, room⟩ := sound.towardsRemote left writing
    split_ifs with enabled rest
    · exact ⟨nofun, nofun, sound.c2r, sound.r2c⟩
    · refine ⟨?_, nofun, sound.c2r, sound.r2c⟩
      intro more writing'
      obtain rfl := Activity.writingRemote.inj writing'
      refine ⟨rest, ?_⟩
      rw [List.length_append, List.length_take, List.length_drop]
      omega
    · exact sound
  · rename_i left writing
    split_ifs with enabled rest
    · exact ⟨nofun, nofun, sound.c2r, sound.r2c⟩
    · refine ⟨nofun, ?_, sound.c2r, sound.r2c⟩
      intro more writing'
      obtain rfl := Activity.writingClient.inj writing'
      exact rest
    · exact sound
  · exact sound

theorem Sound.settle (sound : s.Sound cap) : s.settle.Sound cap := by
  unfold Relay.settle
  split_ifs
  · exact ⟨nofun, nofun, sound.c2r, sound.r2c⟩
  · exact sound

/-- A step that takes no more from the client than fits keeps what holds. -/
theorem Sound.next (sound : s.Sound cap) {input : RelayInput} (roomy : s.Roomy cap input) : (s.next cap input).Sound cap := by
  obtain ⟨towardsRemote, towardsClient, c2r, r2c⟩ := sound
  cases input with
  | clientSends bytes =>
    rw [Relay.next]
    split_ifs
    · exact ⟨towardsRemote, towardsClient, c2r, r2c⟩
    · exact ⟨towardsRemote, towardsClient, c2r, r2c⟩
  | clientReads count => exact ⟨towardsRemote, towardsClient, c2r, r2c⟩
  | clientCloses => exact ⟨towardsRemote, towardsClient, fun _ => rfl, r2c⟩
  | remoteWrites bytes =>
    rw [Relay.next]
    split_ifs
    · exact ⟨towardsRemote, towardsClient, c2r, r2c⟩
    · exact ⟨towardsRemote, towardsClient, c2r, r2c⟩
  | remoteSends count =>
    rw [Relay.next]
    split_ifs
    · exact ⟨towardsRemote, towardsClient, c2r, r2c⟩
    · exact ⟨towardsRemote, towardsClient, c2r, r2c⟩
  | remoteReads count =>
    refine ⟨fun left writing => ?_, towardsClient, c2r, r2c⟩
    obtain ⟨some_, room⟩ := towardsRemote left writing
    refine ⟨some_, ?_⟩
    change (s.toRemote.drop count).length + left.length ≤ cap.toRemote
    rw [List.length_drop]
    omega
  | remoteCloses => exact ⟨towardsRemote, towardsClient, c2r, fun _ => rfl⟩
  | connectionFails => exact ⟨towardsRemote, towardsClient, c2r, r2c⟩
  | readsClient count =>
    rw [Relay.next]
    split_ifs with enabled
    · obtain ⟨-, -, some_, inside, -⟩ := enabled
      have room := roomy count rfl
      refine ⟨fun left writing => ?_, nofun, c2r, r2c⟩
      obtain rfl := Activity.writingRemote.inj writing
      have length : (s.fromClient.take count).length = count := by rw [List.length_take]; omega
      refine ⟨?_, by rw [length]; exact room⟩
      rw [← List.length_pos_iff, length]
      exact some_
    · exact ⟨towardsRemote, towardsClient, c2r, r2c⟩
  | readsRemote count =>
    rw [Relay.next]
    split_ifs with enabled
    · obtain ⟨-, -, some_, inside, -⟩ := enabled
      refine ⟨nofun, fun left writing => ?_, c2r, r2c⟩
      obtain rfl := Activity.writingClient.inj writing
      rw [← List.length_pos_iff, List.length_take]
      omega
    · exact ⟨towardsRemote, towardsClient, c2r, r2c⟩
  | clientEnds =>
    rw [Relay.next]
    split_ifs with enabled
    · exact Sound.settle ⟨towardsRemote, towardsClient, fun _ => enabled.2.2.2, r2c⟩
    · exact ⟨towardsRemote, towardsClient, c2r, r2c⟩
  | remoteEnds =>
    rw [Relay.next]
    split_ifs with enabled
    · exact Sound.settle ⟨towardsRemote, towardsClient, c2r, fun _ => enabled.2.2.2.2⟩
    · exact ⟨towardsRemote, towardsClient, c2r, r2c⟩
  | writes count => exact Sound.write ⟨towardsRemote, towardsClient, c2r, r2c⟩ count
  | meetsFailure =>
    rw [Relay.next]
    split_ifs
    · split
      · exact ⟨nofun, nofun, c2r, r2c⟩
      · exact ⟨nofun, nofun, c2r, r2c⟩
      · exact ⟨nofun, nofun, c2r, r2c⟩
      · exact ⟨towardsRemote, towardsClient, c2r, r2c⟩
    · exact ⟨towardsRemote, towardsClient, c2r, r2c⟩
  | idles =>
    rw [Relay.next]
    split_ifs
    · exact ⟨nofun, nofun, c2r, r2c⟩
    · exact ⟨towardsRemote, towardsClient, c2r, r2c⟩

theorem sound_start (cap : Capacities) : Sound cap {} :=
  ⟨nofun, nofun, nofun, nofun⟩

/-- A write that has something left for a full channel stands still, although
the client has read all that there is for it. -/
theorem stands_still {left : List UInt8} (running : s.Running) (writing : s.activity = .writingRemote left)
    (full : cap.toRemote ≤ s.toRemote.length) : ¬(s.next cap (.clientReads s.toClient.length)).DeadlockFree cap := by
  intro free
  have accepts : (s.next cap (.clientReads s.toClient.length)).ClientAccepts cap := by
    change (s.toClient.drop s.toClient.length).length < cap.toClient
    rw [List.drop_length]
    exact cap.positive
  have progresses := free.progresses ⟨running.client, running.remote, running.connections, running.relay⟩ accepts
  change (match s.activity with
    | .selecting => s.c2rDone = false ∧ s.r2cDone = false
    | .writingRemote left => left ≠ [] ∧ s.toRemote.length < cap.toRemote
    | .writingClient left => left ≠ [] ∧ (s.toClient.drop s.toClient.length).length < cap.toClient
    | .returned _ => False) at progresses
  rw [writing] at progresses
  exact absurd progresses.2 (Nat.not_lt.mpr full)

/-- A read that takes more than fits gets stuck, if the remote does not read:
the relay's own write fills the channel. -/
theorem stuck_of_not_roomy (running : s.Running) (selecting : s.isSelecting = true) (open_ : s.c2rDone = false) {count : Nat}
    (some_ : 0 < count) (inside : count ≤ s.fromClient.length) (buffer : count ≤ relayBufSize)
    (tooMuch : ¬s.Roomy cap (.readsClient count)) :
    ∃ more, (∀ input ∈ more, ∃ n, input = .clientReads n ∨ input = .writes n) ∧
      ¬((machine cap).run s (.readsClient count :: more)).DeadlockFree cap := by
  have beyond : cap.toRemote < s.toRemote.length + count := by
    by_contra fits
    exact tooMuch fun n same => by
      obtain rfl := RelayInput.readsClient.inj same
      omega
  have length : (s.fromClient.take count).length = count := by rw [List.length_take]; omega
  obtain ⟨t, taken⟩ : ∃ t, t = s.next cap (.readsClient count) := ⟨_, rfl⟩
  rw [Relay.next, if_pos ⟨selecting, open_, some_, inside, buffer⟩] at taken
  have moved : (machine cap).run s [.readsClient count] = t := by
    rw [taken]
    change s.next cap (.readsClient count) = _
    rw [Relay.next, if_pos ⟨selecting, open_, some_, inside, buffer⟩]
  have runs : t.Running := by
    rw [taken]
    exact ⟨running.client, running.remote, running.connections, nofun⟩
  have writing : t.activity = .writingRemote (s.fromClient.take count) := by rw [taken]
  have channel : t.toRemote = s.toRemote := by rw [taken]
  by_cases full : cap.toRemote ≤ s.toRemote.length
  · refine ⟨[.clientReads t.toClient.length], by simp, ?_⟩
    have still := @stands_still cap t _ runs writing (channel ▸ full)
    rw [← moved] at still ⊢
    exact still
  · have rest : (s.fromClient.take count).drop (cap.toRemote - s.toRemote.length) ≠ [] := by
      rw [← List.length_pos_iff, List.length_drop, length]
      omega
    obtain ⟨u, wrote⟩ : ∃ u, u = t.write cap (cap.toRemote - s.toRemote.length) := ⟨_, rfl⟩
    have moved' : (machine cap).run s [.readsClient count, .writes (cap.toRemote - s.toRemote.length)] = u := by
      rw [wrote, ← moved]
      rfl
    rw [Relay.write, writing] at wrote
    dsimp only at wrote
    rw [if_pos (by rw [length, channel]; omega), if_neg rest] at wrote
    refine ⟨[.writes (cap.toRemote - s.toRemote.length), .clientReads u.toClient.length], by simp, ?_⟩
    have still := @stands_still cap u _ (by rw [wrote]; exact ⟨runs.client, runs.remote, runs.connections, nofun⟩)
      (by rw [wrote]) (by
        rw [wrote]
        change cap.toRemote ≤ (t.toRemote ++ _).length
        rw [List.length_append, List.length_take, length, channel]
        omega)
    rw [← moved'] at still ⊢
    exact still

/-- Whatever the peers do, the relay is free of circular waits after every run
in which it takes no more from the client than fits towards the remote; and a
read that takes more leads on, without another step of the remote, to a state
in which the relay stands still. -/
theorem relay_deadlock_free (cap : Capacities) :
    (∀ inputs, (machine cap).Meets (Roomy cap) {} inputs → ((machine cap).run {} inputs).DeadlockFree cap) ∧
    ∀ (s : Relay) (count : Nat), s.Running → s.isSelecting = true → s.c2rDone = false → 0 < count →
      count ≤ s.fromClient.length → count ≤ relayBufSize → ¬s.Roomy cap (.readsClient count) →
        ∃ more, (∀ input ∈ more, ∃ n, input = .clientReads n ∨ input = .writes n) ∧
          ¬((machine cap).run s (.readsClient count :: more)).DeadlockFree cap := by
  refine ⟨fun inputs meets => ?_, fun s count running selecting open_ some_ inside buffer tooMuch =>
    stuck_of_not_roomy running selecting open_ some_ inside buffer tooMuch⟩
  have sound : Sound cap ((machine cap).run {} inputs) :=
    meets.run_invariant (fun s input roomy before => before.next roomy) (sound_start cap)
  exact sound.deadlockFree

/-- Channels of one byte each, but for the client's. -/
def narrow : Capacities :=
  ⟨2, 1, 1, 1, by decide⟩

/-- Both peers send two bytes; the relay takes both of the client's. -/
def bothSend : List RelayInput :=
  [.clientSends [1, 2], .readsClient 2, .writes 1, .remoteWrites [7, 8], .remoteSends 1]

theorem relay_and_remote_wait : ¬((machine narrow).run {} bothSend).DeadlockFree narrow := by
  intro free
  exact free.noCircle ⟨⟨[2], rfl, by decide, by decide⟩, by decide, by decide⟩

end Relay

end Latchgate.Sandbox
