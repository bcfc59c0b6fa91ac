import Latchgate.Ledger.Chain
import Latchgate.Plan.Hash

namespace Latchgate
open Chain

namespace Codec
variable {codec : Codec}

/-- The canonical form of a row's event: all that its hash covers. -/
def canonicalOf (codec : Codec) (row : EventRow) : Option String :=
  match codec.fromStr row.eventJson with
  | .ok v => (codec.validatedCanonical v eventChainLimits).toOption
  | .error _ => none

/-- A canonical form has every text member of its document. -/
def KeepsTexts (codec : Codec) : Prop :=
  ∀ v w text, codec.jcs v = .ok text → codec.jcs w = .ok text →
    ∀ name, (v.get? name).bind Json.asStr? = (w.get? name).bind Json.asStr?

theorem prevHash_eq {v : Json} {event : AuditEvent} (decoded : AuditEvent.decode v = some event) :
    event.prevHash = (v.get? "prev_hash").bind Json.asStr? := by
  obtain ⟨traceId, -, decoded⟩ := Option.bind_eq_some_iff.mp decoded
  obtain ⟨timestamp, -, decoded⟩ := Option.bind_eq_some_iff.mp decoded
  obtain ⟨eventType, -, decoded⟩ := Option.bind_eq_some_iff.mp decoded
  obtain ⟨subject, -, decoded⟩ := Option.bind_eq_some_iff.mp decoded
  obtain ⟨action, -, decoded⟩ := Option.bind_eq_some_iff.mp decoded
  obtain ⟨request, -, decoded⟩ := Option.bind_eq_some_iff.mp decoded
  obtain ⟨policy, -, decoded⟩ := Option.bind_eq_some_iff.mp decoded
  obtain ⟨budgetsBefore, -, decoded⟩ := Option.bind_eq_some_iff.mp decoded
  obtain ⟨budgetsAfter, -, decoded⟩ := Option.bind_eq_some_iff.mp decoded
  obtain ⟨execution, -, decoded⟩ := Option.bind_eq_some_iff.mp decoded
  obtain ⟨approval, -, decoded⟩ := Option.bind_eq_some_iff.mp decoded
  obtain ⟨prevHash, member, decoded⟩ := Option.bind_eq_some_iff.mp decoded
  obtain ⟨devMode, -, decoded⟩ := Option.bind_eq_some_iff.mp decoded
  obtain ⟨sandboxDegraded, -, decoded⟩ := Option.bind_eq_some_iff.mp decoded
  cases decoded
  cases found : v.get? "prev_hash" with
  | none =>
    rw [found] at member
    cases member
    rfl
  | some j =>
    rw [found] at member
    cases j with
    | null =>
      cases member
      rfl
    | string s =>
      cases member
      rfl
    | _ => cases member

theorem validatedCanonical_eq_ok {v : Json} {limits : Limits} {text : String}
    (canonical : codec.validatedCanonical v limits = .ok text) : codec.jcs v = .ok text := by
  unfold validatedCanonical at canonical
  split_ifs at canonical
  split at canonical
  · cases canonical
  · split_ifs at canonical
    cases canonical
    assumption

/-- What a link says of a row: its canonical form, which has the hash of the
link and names its predecessor. -/
theorem canonicalOf_of_link {row : EventRow} {prev : Option String} {hash : String}
    (linked : codec.link row = some (prev, hash)) :
    ∃ v text, codec.jcs v = .ok text ∧ codec.canonicalOf row = some text ∧
      hash = codec.sha256Digest (Encoding.utf8 text.toList) ∧ prev = (v.get? "prev_hash").bind Json.asStr? := by
  obtain ⟨⟨event, readable, rfl⟩, hashed⟩ := link_eq_some.1 linked
  obtain ⟨v, parsed, decoded⟩ := readEvent_eq_ok.1 readable
  obtain ⟨w, parsedAgain, computed⟩ := hashText_eq_ok.1 hashed
  obtain rfl : v = w := Except.ok.inj (parsed.symm.trans parsedAgain)
  obtain ⟨text, canonical, same⟩ := Except.bind_eq_ok.1 (Except.mapError_eq_ok.1 computed)
  cases same
  refine ⟨v, text, validatedCanonical_eq_ok canonical, ?_, rfl, prevHash_eq decoded⟩
  simp [canonicalOf, parsed, canonical, Except.toOption]

section Injective
variable (injective : Function.Injective codec.sha256) (keeps : codec.KeepsTexts)
include injective

theorem canonical_of_hash {text other : String}
    (same : codec.sha256Digest (Encoding.utf8 text.toList) = codec.sha256Digest (Encoding.utf8 other.toList)) :
    text = other := by
  unfold sha256Digest at same
  have digests := (String.append_right_inj _).mp same
  exact String.toList_injective (Encoding.utf8_injective (injective digests))

theorem canonicalOf_eq {a b : EventRow} {link : Option String × String} (first : codec.link a = some link)
    (second : codec.link b = some link) : codec.canonicalOf a = codec.canonicalOf b := by
  obtain ⟨prev, hash⟩ := link
  obtain ⟨-, text, -, canonicalA, hashA, -⟩ := canonicalOf_of_link first
  obtain ⟨-, other, -, canonicalB, hashB, -⟩ := canonicalOf_of_link second
  rw [canonicalA, canonicalB, canonical_of_hash injective (hashA.symm.trans hashB)]

include keeps

theorem link_unique (a b : EventRow) (p q : Option String) (d : String) (first : codec.link a = some (p, d))
    (second : codec.link b = some (q, d)) : p = q := by
  obtain ⟨v, text, formV, -, hashA, rfl⟩ := canonicalOf_of_link first
  obtain ⟨w, other, formW, -, hashB, rfl⟩ := canonicalOf_of_link second
  obtain rfl := canonical_of_hash injective (hashA.symm.trans hashB)
  exact keeps v w text formV formW "prev_hash"

end Injective
end Codec

namespace Tampering

/-- What `verify_chain` says of a table of events. -/
def Intact (codec : Codec) (log : List EventRow) : Prop :=
  ∃ report, LedgerStore.verifyChain codec { committed := { auditEvents := log } } = .ok report ∧ report.isIntact

/-- What somebody can make of a log who has no access to its `kept` newest
rows. Rows that agree with a row of the log in their canonical form and differ
elsewhere (in the columns that are searched by, or in the layout of the text)
are among it when `beside` is set. -/
def Within (codec : Codec) (kept : Nat) (beside : Bool) (log tampered : List EventRow) : Prop :=
  (∃ older, tampered = older ++ log.drop (log.length - kept)) ∧
    (beside = false → ∀ row ∈ tampered, ∀ old ∈ log, codec.canonicalOf row = codec.canonicalOf old → row = old)

variable {codec : Codec} {log tampered : List EventRow}

theorem intact_iff : Intact codec log ↔ Linked codec.link none log :=
  Codec.verifyFrom_intact_iff

/-- The newest rows of a log end in its newest row. -/
theorem tip_of_kept {kept : Nat} (positive : 0 < kept) (bounded : kept ≤ log.length) (older : List EventRow) :
    tip codec.link none (older ++ log.drop (log.length - kept)) = tip codec.link none log := by
  rcases List.eq_nil_or_concat log with rfl | ⟨rest, row, rfl⟩
  · simp only [List.length_nil] at bounded
    omega
  · rw [List.concat_eq_append] at bounded ⊢
    rw [List.length_append, List.length_singleton] at bounded ⊢
    have cut : rest.length + 1 - kept ≤ rest.length := by omega
    rw [List.drop_append_of_le_length cut, ← List.append_assoc, tip_concat, tip_concat]

theorem eq_of_map_eq {α β : Type} {f : α → β} {xs ys : List α} (same : xs.map f = ys.map f)
    (determined : ∀ x ∈ xs, ∀ y ∈ ys, f x = f y → x = y) : xs = ys := by
  induction xs generalizing ys with
  | nil => exact (List.map_eq_nil_iff.mp same.symm).symm
  | cons x xs ih =>
    obtain ⟨y, rest, rfl, head, tail⟩ := List.map_eq_cons_iff.mp same.symm
    have first := determined x List.mem_cons_self y List.mem_cons_self head.symm
    have others := ih tail.symm fun a memberA b memberB =>
      determined a (List.mem_cons_of_mem x memberA) b (List.mem_cons_of_mem y memberB)
    rw [first, others]

/-- A log that ends as the original does and is intact is the original, up to
what the hashes do not cover. -/
theorem eq_of_intact (injective : Function.Injective codec.sha256) (keeps : codec.KeepsTexts)
    (written : Linked codec.link none log) {kept : Nat} {beside : Bool} (positive : 0 < kept)
    (bounded : kept ≤ log.length) (whole : beside = true → log.length ≤ kept)
    (within : Within codec kept beside log tampered) (intact : Linked codec.link none tampered) : tampered = log := by
  obtain ⟨⟨older, rfl⟩, plain⟩ := within
  have links := intact.eq_of_tip (Codec.link_unique injective keeps) written (tip_of_kept positive bounded older)
  cases beside with
  | false =>
    refine eq_of_map_eq links ?_
    intro row member old memberOld same
    obtain ⟨link, here⟩ := intact.exists_link row member
    exact plain rfl row member old memberOld (Codec.canonicalOf_eq injective here (same.symm.trans here))
  | true =>
    have lengths := congrArg List.length links
    have all := whole rfl
    have nothing : log.length - kept = 0 := by omega
    rw [nothing, List.drop_zero] at lengths ⊢
    have empty : older = [] := by
      refine List.length_eq_zero_iff.mp ?_
      simp only [List.length_map, List.length_append] at lengths
      omega
    rw [empty, List.nil_append]

/-- The oldest row with another principal in its column. -/
def recolumned : List EventRow → List EventRow
  | [] => []
  | row :: rest => { row with principal := row.principal ++ "x" } :: rest

theorem recolumned_ne (nonempty : log ≠ []) : recolumned log ≠ log := by
  cases log with
  | nil => exact absurd rfl nonempty
  | cons row rest =>
    intro same
    have principals := congrArg EventRow.principal (List.cons.inj same).1
    have lengths := congrArg String.length principals
    simp [recolumned] at lengths

theorem map_link_recolumned : (recolumned log).map codec.link = log.map codec.link := by
  cases log <;> rfl

theorem recolumned_within {kept : Nat} (more : kept < log.length) : Within codec kept true log (recolumned log) := by
  refine ⟨?_, fun off => by cases off⟩
  cases log with
  | nil => exact absurd more (Nat.not_lt_zero kept)
  | cons row rest =>
    have cut : (row :: rest).length - kept = (rest.length - kept) + 1 := by
      simp only [List.length_cons] at more ⊢
      omega
    refine ⟨{ row with principal := row.principal ++ "x" } :: rest.take (rest.length - kept), ?_⟩
    rw [cut, List.drop_succ_cons, recolumned, List.cons_append, List.take_append_drop]

/-- For every log that the store wrote with events it could hash, and for a
reach that leaves the `kept` newest rows alone: an intact log is always the
original exactly when at least the newest row is out of reach, and the parts of
the rows that the hashes do not cover are too. -/
theorem tampering_detected_iff {read : FloatText → Except String FloatText} (faithful : codec.Faithful read)
    (injective : Function.Injective codec.sha256) (keeps : codec.KeepsTexts)
    (forgeable : ∃ row hash, codec.link row = some (none, hash)) (jsonlSink : Bool) (ops : List ChainRun.ChainOp)
    (meets : (ChainRun.machine codec).Meets (ChainRun.Guard codec) (ChainRun.fresh jsonlSink) ops) (kept : Nat)
    (beside : Bool) :
    let log := ((ChainRun.machine codec).run (ChainRun.fresh jsonlSink) ops).store.committed.auditEvents
    kept ≤ log.length →
      ((∀ tampered, Within codec kept beside log tampered → Intact codec tampered → tampered = log) ↔
        0 < kept ∧ (beside = true → log.length ≤ kept)) := by
  intro log bounded
  have written : Linked codec.link none log := (ChainRun.run_sound faithful jsonlSink meets).linked
  constructor
  · intro detected
    constructor
    · by_contra zero
      obtain rfl : kept = 0 := by omega
      by_cases empty : log = []
      · -- Nothing was written yet: a first event can be put in its place.
        obtain ⟨row, hash, first⟩ := forgeable
        have within : Within codec 0 beside log [row] := by
          refine ⟨⟨[row], by simp⟩, ?_⟩
          intro _ row _ old member
          rw [empty] at member
          cases member
        have same := detected [row] within (intact_iff.2 ⟨hash, first, trivial⟩)
        rw [empty] at same
        cases same
      · have within : Within codec 0 beside log [] := ⟨⟨[], by simp⟩, fun _ row member => by cases member⟩
        exact empty (detected [] within (intact_iff.2 trivial)).symm
    · rintro rfl
      by_contra short
      have more : kept < log.length := by omega
      have nonempty : log ≠ [] := List.ne_nil_of_length_pos (by omega)
      have intact : Intact codec (recolumned log) := intact_iff.2 (written.congr (map_link_recolumned).symm)
      exact recolumned_ne nonempty (detected _ (recolumned_within more) intact)
  · rintro ⟨positive, whole⟩ tampered within intact
    exact eq_of_intact injective keeps written positive bounded whole within (intact_iff.1 intact)

/-! The log of one event. -/

def oneEvent : List ChainRun.ChainOp :=
  [.writeEvent sampleEvent {}]

theorem keepsTexts_ofDocument (sha256 : List UInt8 → String) (document : Json) :
    (Codec.ofDocument sha256 document).KeepsTexts := by
  intro v w text first second name
  have same : v.toCompactString = w.toCompactString := Except.ok.inj (first.trans second.symm)
  rw [Json.toCompactString_injective same]

theorem link_sampleEvent (sha256 : List UInt8 → String) :
    ∃ hash, (sampleCodec sha256).link sampleEvent.row = some (none, hash) := by
  obtain ⟨hash, hashed⟩ := @hashable_sampleEvent sha256
  exact ⟨hash, faithful_sampleCodec.link_row hashed⟩

theorem log_oneEvent (sha256 : List UInt8 → String) :
    ((ChainRun.machine (sampleCodec sha256)).run (ChainRun.fresh false) oneEvent).store.committed.auditEvents =
      [sampleEvent.row] := by
  obtain ⟨hash, hashed⟩ := @hashable_sampleEvent sha256
  have inserted : LedgerStore.Inserted {} sampleEvent {} := ⟨rfl, rfl, by simp [LedgerStore.view]⟩
  have plain : LedgerStore.chained {} sampleEvent = sampleEvent := rfl
  have stored : (LedgerStore.writeEvent (sampleCodec sha256) {} sampleEvent {}).1.committed.auditEvents =
      [sampleEvent.row] := by
    rw [LedgerStore.writeEvent_of_inserted inserted, plain, LedgerStore.moveHead_ok hashed]
    simp [LedgerStore.put, LedgerStore.view, Tables.withEvent]
  rw [oneEvent, ChainRun.run_writeEvent, stored]

theorem oneEvent_meets (sha256 : List UInt8 → String) :
    (ChainRun.machine (sampleCodec sha256)).Meets (ChainRun.Guard (sampleCodec sha256)) (ChainRun.fresh false) oneEvent := by
  refine ⟨?_, trivial⟩
  intro _ _
  exact hashable_sampleEvent

theorem tampering_detected_oneEvent :
    Intact (sampleCodec sampleDigest) [sampleEvent.row] ∧
      ∀ tampered, Within (sampleCodec sampleDigest) 1 false [sampleEvent.row] tampered →
        Intact (sampleCodec sampleDigest) tampered → tampered = [sampleEvent.row] := by
  obtain ⟨hash, linked⟩ := link_sampleEvent sampleDigest
  have log := log_oneEvent sampleDigest
  have injective : Function.Injective (sampleCodec sampleDigest).sha256 := sampleDigest_injective
  have keeps : (sampleCodec sampleDigest).KeepsTexts := keepsTexts_ofDocument _ _
  have detected := tampering_detected_iff faithful_sampleCodec injective keeps ⟨_, hash, linked⟩ false oneEvent
    (oneEvent_meets sampleDigest) 1 false
  rw [log] at detected
  refine ⟨intact_iff.2 ⟨hash, linked, trivial⟩, (detected (Nat.le_refl 1)).mpr ⟨by decide, ?_⟩⟩
  intro off
  cases off

/-- The newest row can be deleted, and another name be put in its column. -/
theorem newest_row_unprotected :
    Intact (sampleCodec sampleDigest) [] ∧ Intact (sampleCodec sampleDigest) (recolumned [sampleEvent.row]) ∧
      recolumned [sampleEvent.row] ≠ [sampleEvent.row] ∧
      ((ChainRun.machine (sampleCodec sampleDigest)).run (ChainRun.fresh false) oneEvent).store.committed.auditEvents =
        [sampleEvent.row] := by
  obtain ⟨hash, linked⟩ := link_sampleEvent sampleDigest
  have written : Linked (sampleCodec sampleDigest).link none [sampleEvent.row] := ⟨hash, linked, trivial⟩
  refine ⟨intact_iff.2 trivial, intact_iff.2 (written.congr (map_link_recolumned).symm), recolumned_ne (by simp), ?_⟩
  exact log_oneEvent sampleDigest

end Tampering
end Latchgate
