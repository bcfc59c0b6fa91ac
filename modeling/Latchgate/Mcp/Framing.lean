import Latchgate.Encoding.Ascii
import Latchgate.Json.Compact
import Latchgate.Mcp.Session

namespace Json

theorem escapeChar_printable (c : Char) : '\n' ∉ escapeChar c := by
  unfold escapeChar
  split_ifs with quoted slash back feed line carriage tab control
  · decide
  · decide
  · decide
  · decide
  · decide
  · decide
  · decide
  · have digits : ∀ d < 16, hexDigit d ≠ '\n' := by decide
    have high := digits (c.toNat / 16) (by omega)
    have low := digits (c.toNat % 16) (by omega)
    simp [Ne.symm high, Ne.symm low]
  · simpa using Ne.symm line

theorem quote_printable (s : String) : '\n' ∉ quote s := by
  have inner : '\n' ∉ escape s.toList := by
    intro member
    obtain ⟨c, -, inside⟩ := List.mem_flatMap.mp member
    exact escapeChar_printable c inside
  simp [quote, inner]

theorem numberText_printable (n : JsonNumber) : '\n' ∉ n.text.toList := by
  intro member
  exact absurd (numberText_plain n _ member) (by decide)

mutual

/-- A document is printed on one line. -/
theorem compact_printable : ∀ v : Json, '\n' ∉ compact v
  | null => by decide
  | bool true => by decide
  | bool false => by decide
  | number n => numberText_printable n
  | string s => quote_printable s
  | array [] => by decide
  | array (v :: rest) => by
    have first := compact_printable v
    have others := compactItems_printable rest
    simp [compact, first, others]
  | object [] => by decide
  | object ((k, v) :: rest) => by
    have key := quote_printable k
    have first := compact_printable v
    have others := compactFields_printable rest
    simp [compact, key, first, others]

theorem compactItems_printable : ∀ items : List Json, '\n' ∉ compactItems items
  | [] => by decide
  | v :: rest => by
    have first := compact_printable v
    have others := compactItems_printable rest
    simp [compactItems, first, others]

theorem compactFields_printable : ∀ fields : List (String × Json), '\n' ∉ compactFields fields
  | [] => by decide
  | (k, v) :: rest => by
    have key := quote_printable k
    have first := compact_printable v
    have others := compactFields_printable rest
    simp [compactFields, key, first, others]

end

end Json

namespace Lines
variable {α : Type*} {sep : α → Bool}

/-- A text of separated pieces is cut into them again. -/
theorem splitAfter_flatten {pieces : List (List α)} {stop : α} (ends : sep stop = true)
    (plain : ∀ piece ∈ pieces, ∀ a ∈ piece, sep a = false) :
    splitAfter sep (pieces.flatMap fun piece => piece ++ [stop]) = pieces.map fun piece => piece ++ [stop] := by
  induction pieces with
  | nil => rfl
  | cons piece rest ih =>
    have later := ih fun other member => plain other (List.mem_cons_of_mem _ member)
    have here := plain piece List.mem_cons_self
    rw [List.flatMap_cons, List.map_cons, ← later]
    generalize rest.flatMap (fun piece => piece ++ [stop]) = tail
    clear later ih plain
    induction piece with
    | nil => simp [splitAfter, ends]
    | cons a more ih =>
      have kept := here a List.mem_cons_self
      have inner := ih fun b member => here b (List.mem_cons_of_mem _ member)
      simp only [List.cons_append, splitAfter, kept, Bool.false_eq_true, if_false, inner]

end Lines

namespace Latchgate.Mcp.Stdio
open Encoding (utf8)

/-- A message on its way to the client. -/
def written : Seen → Option Message
  | ⟨.write message, true⟩ => some message
  | _ => none

/-- `write_message`, without the end of the line. -/
def messageText (message : Message) : List UInt8 :=
  utf8Bytes message.toJson.toCompactString

/-- The bytes that a session writes. -/
def stdout (events : List Seen) : List UInt8 :=
  ((events.filterMap written).map messageText).flatMap fun text => text ++ [10]

theorem utf8Bytes_eq (s : String) : utf8Bytes s = utf8 s.toList := by
  have read : s.toByteArray = (utf8 s.toList).toByteArray := by
    conv_lhs => rw [← String.ofList_toList (s := s)]
    rfl
  rw [utf8Bytes, read]
  simp

theorem text_plain (message : Message) : ∀ b ∈ messageText message, isNewline b = false := by
  intro b member
  have absent : UInt8.ofNat ('\n').toNat ∉ utf8 message.toJson.compact :=
    Encoding.notMem_utf8 message.toJson.compact_printable (by decide)
  rw [messageText, utf8Bytes_eq, Json.toCompactString, String.toList_ofList] at member
  rw [isNewline, decide_eq_false_iff_not]
  rintro rfl
  exact absent member

def responseOf : Message → Option JsonRpcResponse
  | .response resp => some resp
  | .notification _ => none

theorem responses_eq (events : List Seen) :
    (events.filterMap written).filterMap responseOf = (exchanges events).filterMap Exchange.answered := by
  rw [exchanges, List.filterMap_filterMap, List.filterMap_filterMap]
  refine List.filterMap_congr fun event member => ?_
  clear member
  obtain ⟨question, reply⟩ := event
  cases question with
  | write message =>
    revert reply
    intro (reply : Bool)
    cases message with
    | response => cases reply <;> rfl
    | notification => cases reply <;> rfl
  | _ => rfl

theorem respond_mem {events : List Seen} {resp : JsonRpcResponse} {done : Bool} :
    .respond resp done ∈ exchanges events ↔ (⟨.write (.response resp), done⟩ : Seen) ∈ events := by
  constructor
  · intro member
    obtain ⟨⟨question, reply⟩, inside, same⟩ := List.mem_filterMap.mp member
    cases question with
    | write message =>
      cases message with
      | response other =>
        simp only [Exchange.ofSeen, Option.some.injEq] at same
        obtain ⟨rfl, rfl⟩ := same
        exact inside
      | notification => cases same
    | _ => cases same
  · intro inside
    exact List.mem_filterMap.mpr ⟨_, inside, rfl⟩

end Latchgate.Mcp.Stdio
