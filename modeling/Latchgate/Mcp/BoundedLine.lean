import Latchgate.Stream.Lines

namespace Latchgate.Mcp

/-- A piece of a stream as it lies in the buffer of a reader. -/
abbrev Chunk := { bytes : List UInt8 // bytes ≠ [] }

/-- What a buffered reader has still to give, in the chunks in which it comes. -/
abbrev Reader := List Chunk

def Reader.bytes (r : Reader) : List UInt8 :=
  (r.map Subtype.val).flatten

/-- What is left when bytes of the first chunk are consumed. -/
def consume (n : Nat) (available : Chunk) (later : Reader) : Reader :=
  if left : n < available.1.length then
    ⟨available.1.drop n, by rwa [ne_eq, List.drop_eq_nil_iff, Nat.not_le]⟩ :: later
  else later

inductive ErrorKind where
  | invalidData
  | other
  deriving DecidableEq

structure ReadError where
  kind : ErrorKind
  message : String
  deriving DecidableEq

def oversize : ReadError := ⟨.invalidData, "message exceeds maximum size"⟩

def invalidUtf8 : ReadError := ⟨.invalidData, "stdin contained invalid UTF-8"⟩

def isNewline (b : UInt8) : Bool :=
  b = 10

def memchrNewline (haystack : List UInt8) : Option Nat :=
  haystack.findIdx? isNewline

def drainUntilNewline : Reader → Reader
  | [] => []
  | available :: later =>
    match memchrNewline available.1 with
    | some pos => consume (pos + 1) available later
    | none => drainUntilNewline later

def utf8Bytes (s : String) : List UInt8 :=
  s.toByteArray.data.toList

def fromUtf8 (bytes : List UInt8) : Option String :=
  String.fromUTF8? ⟨bytes.toArray⟩

/-- The count of the bytes that were read, with the buffer. -/
abbrev Line := Except ReadError (Nat × String)

/-- What is done with the bytes of a line. -/
def finish (raw : List UInt8) : Line :=
  if raw.length = 0 then .ok (0, "")
  else match fromUtf8 raw with
    | some s => .ok (raw.length, s)
    | none => .error invalidUtf8

/-- The loop of `read_bounded_line`, with what it has read of the line. -/
def readLoop (limit : Nat) (raw : List UInt8) : Reader → Line × Reader
  | [] => (finish raw, [])
  | available :: later =>
    match memchrNewline available.1 with
    | some pos =>
      if limit < raw.length + (pos + 1) then (.error oversize, consume (pos + 1) available later)
      else (finish (raw ++ available.1.take (pos + 1)), consume (pos + 1) available later)
    | none =>
      if limit < raw.length + available.1.length then (.error oversize, drainUntilNewline later)
      else readLoop limit (raw ++ available.1) later

def readBoundedLine (r : Reader) (limit : Nat) : Line × Reader :=
  readLoop limit [] r

/-- The answer of a later call: as many calls come before it. -/
def nthLine (limit : Nat) : Nat → Reader → Line
  | 0, r => (readBoundedLine r limit).1
  | k + 1, r => nthLine limit k (readBoundedLine r limit).2

/-- What a piece of the stream is answered with. -/
def verdict (limit : Nat) (piece : List UInt8) : Line :=
  if limit < piece.length then .error oversize else finish piece

theorem bytes_cons (available : Chunk) (later : Reader) :
    Reader.bytes (available :: later) = available.1 ++ later.bytes :=
  rfl

theorem bytes_consume {n : Nat} {available : Chunk} {later : Reader} :
    (consume n available later).bytes = available.1.drop n ++ later.bytes := by
  rw [consume]
  split_ifs with left
  · rfl
  · rw [List.drop_of_length_le (Nat.not_lt.mp left), List.nil_append]

theorem fromUtf8_eq_some {bytes : List UInt8} {s : String} : fromUtf8 bytes = some s ↔ utf8Bytes s = bytes := by
  rw [fromUtf8, String.fromUTF8?]
  constructor
  · intro decoded
    split_ifs at decoded with valid
    obtain rfl := Option.some.inj decoded
    rfl
  · rintro rfl
    have same : (⟨(utf8Bytes s).toArray⟩ : ByteArray) = s.toByteArray := by simp [utf8Bytes]
    have valid : (⟨(utf8Bytes s).toArray⟩ : ByteArray).IsValidUTF8 := same ▸ s.isValidUTF8
    rw [dif_pos valid]
    exact congrArg some (String.toByteArray_inj.mp same)

/-- Draining leaves the reader behind the line. -/
theorem drainUntilNewline_bytes (r : Reader) :
    (drainUntilNewline r).bytes = (Lines.cutAfter isNewline r.bytes).2 := by
  induction r with
  | nil => rfl
  | cons available later ih =>
    rw [drainUntilNewline, bytes_cons]
    cases found : memchrNewline available.1 with
    | some pos =>
      rw [Lines.cutAfter_append_found found]
      exact bytes_consume
    | none =>
      rw [Lines.cutAfter_append_none found]
      exact ih

/-- The loop judges the whole line, and leaves the reader behind it. -/
theorem readLoop_spec {limit : Nat} {raw : List UInt8} (fits : raw.length ≤ limit) (r : Reader) :
    (readLoop limit raw r).1 = verdict limit (raw ++ (Lines.cutAfter isNewline r.bytes).1) ∧
      (readLoop limit raw r).2.bytes = (Lines.cutAfter isNewline r.bytes).2 := by
  induction r generalizing raw with
  | nil =>
    refine ⟨?_, rfl⟩
    rw [show Reader.bytes [] = [] from rfl, Lines.cutAfter, List.append_nil, verdict, if_neg (Nat.not_lt.mpr fits)]
    rfl
  | cons available later ih =>
    rw [bytes_cons]
    cases found : memchrNewline available.1 with
    | some pos =>
      obtain ⟨inside, _⟩ := List.findIdx?_eq_some_iff_getElem.mp found
      have taken : (raw ++ available.1.take (pos + 1)).length = raw.length + (pos + 1) := by
        rw [List.length_append, List.length_take, Nat.min_eq_left inside]
      rw [Lines.cutAfter_append_found found]
      simp only [readLoop, found, verdict, taken]
      split_ifs with long
      · exact ⟨rfl, bytes_consume⟩
      · exact ⟨rfl, bytes_consume⟩
    | none =>
      rw [Lines.cutAfter_append_none found]
      simp only [readLoop, found]
      split_ifs with long
      · refine ⟨?_, drainUntilNewline_bytes later⟩
        rw [verdict, if_pos]
        simp only [List.length_append]
        omega
      · have next : (raw ++ available.1).length ≤ limit := by
          rw [List.length_append]
          omega
        rw [← List.append_assoc]
        exact ih next

/-- The calls answer with the pieces in turn, and with nothing after the last. -/
theorem nthLine_eq (limit k : Nat) (r : Reader) :
    nthLine limit k r = match (Lines.splitAfter isNewline r.bytes)[k]? with
      | some piece => verdict limit piece
      | none => .ok (0, "") := by
  induction k generalizing r with
  | zero =>
    rw [nthLine, readBoundedLine, (@readLoop_spec limit [] (Nat.zero_le limit) r).1, List.nil_append]
    by_cases ended : r.bytes = []
    · rw [ended]
      rfl
    · rw [Lines.splitAfter_eq_cons ended]
      rfl
  | succ k ih =>
    rw [nthLine, ih, readBoundedLine, (@readLoop_spec limit [] (Nat.zero_le limit) r).2]
    by_cases ended : r.bytes = []
    · rw [ended]
      rfl
    · rw [Lines.splitAfter_eq_cons ended, List.getElem?_cons_succ]

theorem finish_eq {piece : List UInt8} {s : String} (some_ : piece ≠ []) (text : utf8Bytes s = piece) :
    finish piece = .ok (piece.length, s) := by
  have decoded : fromUtf8 piece = some s := fromUtf8_eq_some.2 text
  rw [finish, if_neg (by simpa using some_), decoded]

theorem finish_invalid {piece : List UInt8} (some_ : piece ≠ []) (invalid : ∀ s, utf8Bytes s ≠ piece) :
    finish piece = .error invalidUtf8 := by
  have undecoded : fromUtf8 piece = none := by
    rw [Option.eq_none_iff_forall_ne_some]
    exact fun s decoded => invalid s (fromUtf8_eq_some.1 decoded)
  rw [finish, if_neg (by simpa using some_), undecoded]

theorem verdict_ne_empty {limit : Nat} {piece : List UInt8} {s : String} (some_ : piece ≠ []) :
    verdict limit piece ≠ .ok (0, s) := by
  intro answer
  rw [verdict] at answer
  split_ifs at answer
  rw [finish, if_neg (by simpa using some_)] at answer
  split at answer
  · have none_ := (Prod.mk.inj (Except.ok.inj answer)).1
    exact some_ (List.length_eq_zero_iff.mp none_)
  · cases answer

/-- A reader gives its lines one by one however they are cut into chunks: each
piece of the stream has one answer, and only the end of the stream is empty. -/
theorem lines_read (r : Reader) (limit k : Nat) :
    (∀ other : Reader, other.bytes = r.bytes → nthLine limit k other = nthLine limit k r) ∧
    (∀ piece, (Lines.splitAfter isNewline r.bytes)[k]? = some piece →
      (∀ s, piece.length ≤ limit → utf8Bytes s = piece → nthLine limit k r = .ok (piece.length, s)) ∧
      (limit < piece.length ∨ (∀ s, utf8Bytes s ≠ piece) →
        ∃ e, nthLine limit k r = .error e ∧ e.kind = .invalidData)) ∧
    ((∃ s, nthLine limit k r = .ok (0, s)) ↔ (Lines.splitAfter isNewline r.bytes).length ≤ k) := by
  refine ⟨?_, ?_, ?_⟩
  · intro other same
    rw [nthLine_eq, nthLine_eq, same]
  · intro piece at_
    have some_ : piece ≠ [] := Lines.ne_nil_of_mem_splitAfter (List.mem_of_getElem? at_)
    have answer : nthLine limit k r = verdict limit piece := by rw [nthLine_eq, at_]
    rw [answer, verdict]
    refine ⟨?_, ?_⟩
    · intro s fits text
      rw [if_neg (Nat.not_lt.mpr fits)]
      exact finish_eq some_ text
    · intro wrong
      by_cases long : limit < piece.length
      · exact ⟨oversize, if_pos long, rfl⟩
      · rw [if_neg long]
        exact ⟨invalidUtf8, finish_invalid some_ (wrong.resolve_left long), rfl⟩
  · rw [nthLine_eq, ← List.getElem?_eq_none_iff]
    cases at_ : (Lines.splitAfter isNewline r.bytes)[k]? with
    | none => exact iff_of_true ⟨"", rfl⟩ rfl
    | some piece =>
      have some_ : piece ≠ [] := Lines.ne_nil_of_mem_splitAfter (List.mem_of_getElem? at_)
      refine iff_of_false ?_ (by simp)
      rintro ⟨s, empty⟩
      exact verdict_ne_empty some_ empty

end Latchgate.Mcp
