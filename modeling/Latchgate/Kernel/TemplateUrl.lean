import Latchgate.Core.Ip
import Latchgate.Encoding.Percent
import Latchgate.Encoding.Symbols
import Latchgate.Kernel.TemplateParts
import Mathlib.Data.List.Infix

namespace Latchgate
open Encoding (utf8)

namespace Template

/-! The path of a URL, as the parsers of URLs read it. -/

def endsPath (c : Char) : Bool :=
  c = '?' ∨ c = '#'

/-- A backslash separates in the URLs of the schemes of the web. -/
def separates (scheme : List Char) (c : Char) : Bool :=
  c = '/' ∨ c = '\\' ∧ scheme.map Char.toLower ∈ ["http", "https", "ws", "wss", "ftp", "file"].map String.toList

def segments {α : Type} (ends separators : α → Bool) (rest : List α) : List (List α) :=
  (rest.takeWhile fun a => !ends a).splitOnP separators

/-- What of a segment counts: tabs and line ends never do, blanks do not at the
end of the URL. -/
def counted (last : Bool) (segment : List Char) : List Char :=
  (if last then segment.rdropWhile fun c => c.toNat ≤ 32 else segment).filter fun c => c ∉ ['\t', '\n', '\r']

def dots : List (List Char) :=
  [['.'], ['%', '2', 'e'], ['%', '2', 'E']]

/-- The segments that stand for the directory itself and for the one above. -/
def DotSegment (last : Bool) (segment : List Char) : Prop :=
  counted last segment ∈ dots ++ dots.flatMap fun dot => dots.map (dot ++ ·)

instance (last : Bool) (segment : List Char) : Decidable (DotSegment last segment) :=
  inferInstanceAs (Decidable (_ ∈ _))

/-! The path of a template. -/

def Part.is (p : Char → Bool) : Part → Bool
  | char c => p c
  | placeholder _ => false

/-- A template whose scheme and authority have no placeholder. -/
structure LiteralOrigin (text scheme authority : List Char) (rest : List Part) : Prop where
  read : parts text = some ((scheme ++ "://".toList ++ authority).map .char ++ rest)
  present : scheme ≠ []
  schemeChars : ∀ c ∈ scheme, c.isAlphanum ∨ c ∈ ['+', '-', '.']
  authorityChars : ∀ c ∈ authority, c ∉ ['/', '\\', '?', '#']
  path : ∀ part ∈ rest.head?, part.is (separates scheme) ∨ part.is endsPath

def templateSegments (scheme : List Char) (rest : List Part) : List (List Part) :=
  segments (Part.is endsPath) (Part.is (separates scheme)) rest

/-- The path is the end of the URL. -/
def pathIsLast (rest : List Part) : Bool :=
  rest.all fun part => !part.is endsPath

section
variable (vars : List (String × String))

/-- The URL has the origin of the template and its segments in their order,
with the values in them that decode to the arguments, and no argument makes its
segment one of the dot segments. -/
structure Keeps (scheme authority : List Char) (rest : List Part) (url : List Char) : Prop where
  text : url = scheme ++ "://".toList ++ authority ++ rest.flatMap (Part.render vars true)
  origin : ∀ c ∈ (rest.flatMap (Part.render vars true)).head?, separates scheme c ∨ endsPath c
  path : segments endsPath (separates scheme) (rest.flatMap (Part.render vars true)) =
    (templateSegments scheme rest).map (·.flatMap (Part.render vars true))
  values : ∀ name value, .placeholder name ∈ rest → valueOf vars name = some value →
    Encoding.Percent.decode hexDigit (Part.render vars true (.placeholder name)) = utf8 value.toList ∧
      ∀ c ∈ Part.render vars true (.placeholder name), isUnreserved c ∨ c = '%'
  noDots : ∀ front segment back, templateSegments scheme rest = front ++ segment :: back →
    (∃ name, .placeholder name ∈ segment) →
    ¬DotSegment (back.isEmpty && pathIsLast rest) (segment.flatMap (Part.render vars true))

/-- A segment with placeholders of which its arguments, none of which has
anything to encode, make a dot segment. -/
def SpellsDots (last : Bool) (segment : List Part) : Prop :=
  (∃ name, .placeholder name ∈ segment) ∧
    (∀ name value, .placeholder name ∈ segment → valueOf vars name = some value →
      ∀ c ∈ value.toList, isUnreserved c = true) ∧
    DotSegment last (segment.flatMap (Part.render vars false))

end

/-! What is put in for a placeholder. -/

theorem toUTF8_toList (text : String) : text.toUTF8.data.toList = utf8 text.toList := by
  have read : text.toUTF8 = (utf8 text.toList).toByteArray := by
    conv_lhs => rw [← String.ofList_toList (s := text)]
    rfl
  rw [read]
  simp

/-- A byte that is not encoded. -/
def keptByte (b : UInt8) : Bool :=
  isUnreserved (Char.ofNat b.toNat)

theorem percentEncodePathSegment_eq (text : String) :
    percentEncodePathSegment text = Encoding.Percent.encode hexUpper keptByte (utf8 text.toList) := by
  rw [percentEncodePathSegment, toUTF8_toList]
  rfl

theorem unreserved_range {c : Char} (unreserved : isUnreserved c = true) :
    45 ≤ c.toNat ∧ c.toNat < 127 ∧ c.toNat ≠ 47 ∧ c.toNat ≠ 63 ∧ c.toNat ≠ 92 := by
  rcases of_decide_eq_true unreserved with letter | mark
  · delta Char.isAlphanum Char.isAlpha Char.isUpper Char.isLower Char.isDigit at letter
    simp only [Bool.or_eq_true, Bool.and_eq_true, decide_eq_true_eq] at letter
    have number : c.toNat = c.val.toNat := rfl
    simp only [UInt32.le_iff_toNat_le, ge_iff_le] at letter
    have bounds : 'A'.val.toNat = 65 ∧ 'Z'.val.toNat = 90 ∧ 'a'.val.toNat = 97 ∧ 'z'.val.toNat = 122 ∧
        '0'.val.toNat = 48 ∧ '9'.val.toNat = 57 := by decide
    omega
  · simp only [List.mem_cons, List.not_mem_nil, or_false] at mark
    rcases mark with rfl | rfl | rfl | rfl <;> decide

theorem toNat_ofNat_byte (b : UInt8) : (Char.ofNat b.toNat).toNat = b.toNat := by
  have small : b.toNat < 256 := b.toNat_lt
  rw [Char.ofNat, dif_pos (.inl (by omega) : b.toNat.isValidChar)]
  rfl

theorem kept_plain (b : UInt8) (kept : keptByte b = true) : b.toNat < 128 ∧ b.toNat ≠ 37 := by
  have range := unreserved_range (kept : isUnreserved (Char.ofNat b.toNat) = true)
  rw [toNat_ofNat_byte] at range
  omega

theorem hexDigit_hexUpper : ∀ n < 16, hexDigit (hexUpper n) = some n := by
  decide

theorem hexUpper_unreserved : ∀ n < 16, isUnreserved (hexUpper n) = true := by
  decide

theorem mem_percentEncodePathSegment {text : String} {c : Char} (member : c ∈ percentEncodePathSegment text) :
    isUnreserved c = true ∨ c = '%' := by
  rw [percentEncodePathSegment_eq] at member
  obtain ⟨b, -, inside⟩ := List.mem_flatMap.mp member
  have small : b.toNat < 256 := b.toNat_lt
  split at inside
  next kept => exact .inl (List.mem_singleton.mp inside ▸ kept)
  next other =>
    simp only [List.mem_cons, List.not_mem_nil, or_false] at inside
    rcases inside with rfl | rfl | rfl
    · exact .inr rfl
    · exact .inl (hexUpper_unreserved _ (by omega))
    · exact .inl (hexUpper_unreserved _ (by omega))

theorem decode_percentEncodePathSegment (text : String) :
    Encoding.Percent.decode hexDigit (percentEncodePathSegment text) = utf8 text.toList := by
  have whole := Encoding.Percent.decode_encode hexDigit_hexUpper kept_plain (utf8 text.toList) []
  rw [List.append_nil] at whole
  rw [percentEncodePathSegment_eq, whole]
  exact List.append_nil _

theorem percentEncodePathSegment_unreserved {text : String} (unreserved : ∀ c ∈ text.toList, isUnreserved c = true) :
    percentEncodePathSegment text = text.toList := by
  rw [percentEncodePathSegment_eq, Encoding.Percent.encode_kept]
  intro c member
  have range := unreserved_range (unreserved c member)
  have number : (UInt8.ofNat c.toNat).toNat = c.toNat := by
    rw [UInt8.toNat_ofNat']
    omega
  refine ⟨by omega, ?_⟩
  rw [keptByte, number, Char.ofNat_toNat]
  exact unreserved c member

/-- A character that is encoded leaves a sign with two digits, not those of a
dot. -/
theorem percentEncodePathSegment_split {text : String} {c : Char} (member : c ∈ text.toList)
    (other : isUnreserved c = false) :
    ∃ front back high low, percentEncodePathSegment text = front ++ '%' :: hexUpper high :: hexUpper low :: back ∧
      high < 16 ∧ low < 16 ∧ (high, low) ≠ (2, 14) := by
  obtain ⟨b, inside, encoded⟩ : ∃ b ∈ String.utf8EncodeChar c, keptByte b = false := by
    by_cases ascii : c.toNat < 128
    · have number : (UInt8.ofNat c.toNat).toNat = c.toNat := by
        rw [UInt8.toNat_ofNat']
        omega
      refine ⟨UInt8.ofNat c.toNat, by rw [Encoding.utf8EncodeChar_ascii ascii]; exact List.mem_singleton_self _, ?_⟩
      rw [keptByte, number, Char.ofNat_toNat]
      exact other
    · obtain ⟨b, inside⟩ := List.exists_mem_of_ne_nil _ (String.utf8EncodeChar_ne_nil (c := c))
      refine ⟨b, inside, Bool.eq_false_iff.mpr fun kept => ascii ?_⟩
      have low := (kept_plain b kept).1
      rw [Encoding.toNat_eq_of_mem_utf8EncodeChar inside low]
      exact low
  have small : b.toNat < 256 := b.toNat_lt
  have listed : b ∈ utf8 text.toList := List.mem_flatMap.mpr ⟨c, member, inside⟩
  obtain ⟨front, back, split⟩ := @Encoding.Percent.encode_split hexUpper keptByte _ b listed encoded
  refine ⟨front, back, b.toNat / 16, b.toNat % 16, ?_, by omega, by omega, fun same => ?_⟩
  · rw [percentEncodePathSegment_eq]
    exact split
  · obtain ⟨high, low⟩ := Prod.mk.inj same
    have dot : b.toNat = 46 := by omega
    rw [keptByte, dot] at encoded
    exact absurd encoded (by decide)

/-! Dot segments. -/

/-- In a dot segment a percent sign stands before the digits of a dot. -/
theorem dot_triple {front back : List Char} {x y : Char}
    (dot : front ++ '%' :: x :: y :: back ∈ dots ++ dots.flatMap fun dot => dots.map (dot ++ ·)) :
    x = '2' ∧ (y = 'e' ∨ y = 'E') := by
  have suffix : '%' :: x :: y :: back ∈ (front ++ '%' :: x :: y :: back).tails :=
    (List.mem_tails _ _).mpr (List.suffix_append front _)
  have each : ∀ d ∈ dots ++ dots.flatMap (fun dot => dots.map (dot ++ ·)), ∀ t ∈ d.tails, t.head? = some '%' →
      t[1]? = some '2' ∧ (t[2]? = some 'e' ∨ t[2]? = some 'E') := by decide
  have here := each _ dot _ suffix rfl
  simpa using here

theorem rdropWhile_keeps {α : Type} {p : α → Bool} (front : List α) {a : α} (back : List α) (kept : p a = false) :
    (front ++ a :: back).rdropWhile p = front ++ a :: back.rdropWhile p := by
  induction back using List.reverseRecOn with
  | nil => rw [List.rdropWhile_concat_neg _ _ _ (by simp [kept]), List.rdropWhile_nil]
  | append_singleton back b ih =>
    rw [← List.cons_append, ← List.append_assoc]
    by_cases dropped : p b = true
    · rw [List.rdropWhile_concat_pos _ _ _ dropped, List.rdropWhile_concat_pos _ _ _ dropped, ih]
    · rw [List.rdropWhile_concat_neg _ _ _ dropped, List.rdropWhile_concat_neg _ _ _ dropped, List.append_assoc]
      rfl

theorem counted_triple (last : Bool) (front back : List Char) {x y : Char} (first : isUnreserved x = true)
    (second : isUnreserved y = true) :
    ∃ before after, counted last (front ++ '%' :: x :: y :: back) = before ++ '%' :: x :: y :: after := by
  have visible {c : Char} (unreserved : isUnreserved c = true) : ¬c.toNat ≤ 32 ∧ c ∉ ['\t', '\n', '\r'] := by
    have range := unreserved_range unreserved
    refine ⟨by omega, fun member => ?_⟩
    simp only [List.mem_cons, List.not_mem_nil, or_false] at member
    rcases member with rfl | rfl | rfl <;> exact absurd range.1 (by decide)
  obtain ⟨after, kept⟩ : ∃ after, (if last then (front ++ '%' :: x :: y :: back).rdropWhile fun c => c.toNat ≤ 32
      else front ++ '%' :: x :: y :: back) = front ++ '%' :: x :: y :: after := by
    cases last with
    | true =>
      have whole := @rdropWhile_keeps Char (fun c => c.toNat ≤ 32) (front ++ ['%', x]) y back
        (decide_eq_false (visible second).1)
      rw [List.append_assoc, List.append_assoc] at whole
      exact ⟨_, whole⟩
    | false => exact ⟨back, rfl⟩
  refine ⟨front.filter fun c => c ∉ ['\t', '\n', '\r'], after.filter fun c => c ∉ ['\t', '\n', '\r'], ?_⟩
  rw [counted, kept, List.filter_append, List.filter_cons_of_pos (by decide), List.filter_cons_of_pos,
    List.filter_cons_of_pos]
  · exact decide_eq_true (visible second).2
  · exact decide_eq_true (visible first).2

section Render
variable {vars : List (String × String)}

theorem render_placeholder {name : List Char} {value : String} (known : valueOf vars name = some value) (urlEncode : Bool) :
    Part.render vars urlEncode (.placeholder name) = insertedText urlEncode value := by
  rw [Part.render, known]
  rfl

/-- Encoded values make a dot segment only where there was nothing to encode. -/
theorem dotSegment_render_iff (last : Bool) {segment : List Part} (supplied : Supplied vars segment) :
    DotSegment last (segment.flatMap (Part.render vars true)) ↔
      (∀ name value, .placeholder name ∈ segment → valueOf vars name = some value →
        ∀ c ∈ value.toList, isUnreserved c = true) ∧
        DotSegment last (segment.flatMap (Part.render vars false)) := by
  have plain (unreserved : ∀ name value, .placeholder name ∈ segment → valueOf vars name = some value →
      ∀ c ∈ value.toList, isUnreserved c = true) :
      segment.flatMap (Part.render vars true) = segment.flatMap (Part.render vars false) := by
    refine List.flatMap_congr fun part member => ?_
    cases part with
    | char c => rfl
    | placeholder name =>
      obtain ⟨value, known⟩ := supplied name member
      rw [render_placeholder known, render_placeholder known]
      exact percentEncodePathSegment_unreserved (unreserved name value member known)
  constructor
  · intro dot
    have unreserved : ∀ name value, .placeholder name ∈ segment → valueOf vars name = some value →
        ∀ c ∈ value.toList, isUnreserved c = true := by
      intro name value member known c inside
      by_contra other
      obtain ⟨front, back, high, low, code, highDigit, lowDigit, noDot⟩ :=
        percentEncodePathSegment_split inside (Bool.eq_false_iff.mpr other)
      obtain ⟨before, after, rfl⟩ := List.append_of_mem member
      have own : Part.render vars true (.placeholder name) = percentEncodePathSegment value := render_placeholder known true
      rw [DotSegment, List.flatMap_append, List.flatMap_cons, own, code, List.append_assoc, ← List.append_assoc] at dot
      obtain ⟨_, _, split⟩ := counted_triple last (before.flatMap (Part.render vars true) ++ front)
        (back ++ after.flatMap (Part.render vars true)) (hexUpper_unreserved _ highDigit) (hexUpper_unreserved _ lowDigit)
      have shape (tail : List Char) : ('%' :: hexUpper high :: hexUpper low :: back) ++ tail =
          '%' :: hexUpper high :: hexUpper low :: (back ++ tail) := rfl
      rw [shape, split] at dot
      obtain ⟨two, letter⟩ := dot_triple dot
      have highs : ∀ n < 16, hexUpper n = '2' → n = 2 := by decide
      have lows : ∀ n < 16, hexUpper n = 'e' ∨ hexUpper n = 'E' → n = 14 := by decide
      exact noDot (by rw [highs high highDigit two, lows low lowDigit letter])
    exact ⟨unreserved, plain unreserved ▸ dot⟩
  · rintro ⟨unreserved, dot⟩
    rw [plain unreserved]
    exact dot

end Render

/-! The scan of a URL with a literal origin. -/

theorem head_of_splitMarker {brace c b : Char} {text before after : List Char}
    (found : splitMarker brace (c :: text) = some (b :: before, after)) : b = c := by
  cases text with
  | nil => cases found
  | cons d rest =>
    rw [splitMarker] at found
    split_ifs at found
    · cases found
    · obtain ⟨_, _, same⟩ := Option.map_eq_some_iff.mp found
      exact (List.cons.inj (Prod.mk.inj same).1).1.symm

theorem head_of_parts {text : List Char} {c : Char} {ps : List Part} (read : parts text = some (.char c :: ps)) :
    ∃ rest, text = c :: rest := by
  cases text with
  | nil =>
    rw [parts_plain rfl] at read
    cases read
  | cons d text =>
    refine ⟨text, ?_⟩
    cases opening : splitMarker '\x7b' (d :: text) with
    | none =>
      rw [parts_plain opening, List.map_cons, Option.some.injEq, List.cons.injEq, Part.char.injEq] at read
      rw [read.1]
    | some halves =>
      obtain ⟨before, afterOpen⟩ := halves
      cases closing : splitMarker '\x7d' afterOpen with
      | none =>
        rw [parts_unclosed opening closing] at read
        cases read
      | some others =>
        obtain ⟨name, after⟩ := others
        rw [parts_placeholder opening closing] at read
        obtain ⟨later, -, same⟩ := Option.map_eq_some_iff.mp read
        cases before with
        | nil => cases same
        | cons b before =>
          rw [List.map_cons, List.cons_append, List.cons.injEq, Part.char.injEq] at same
          rw [← same.1, head_of_splitMarker opening]

theorem LiteralOrigin.singleVariable {text scheme authority : List Char} {rest : List Part}
    (literal : LiteralOrigin text scheme authority rest) : singleVariable text = none := by
  obtain ⟨c, others, rfl⟩ := List.exists_cons_of_ne_nil literal.present
  obtain ⟨tail, rfl⟩ := head_of_parts literal.read
  have visible : FsPath.isWhitespace c = false ∧ c ≠ '\x7b' := by
    rcases literal.schemeChars c List.mem_cons_self with letter | mark
    · have range := unreserved_range (decide_eq_true (.inl letter) : isUnreserved c = true)
      have below : c.toNat < 0x85 := by omega
      refine ⟨?_, fun same => ?_⟩
      · simp only [FsPath.isWhitespace, decide_eq_false_iff_not, List.mem_cons, List.not_mem_nil, or_false]
        omega
      · rw [same] at letter
        exact absurd letter (by decide)
    · simp only [List.mem_cons, List.not_mem_nil, or_false] at mark
      rcases mark with rfl | rfl | rfl <;> decide
  have trimmed : trim (c :: tail) = c :: tail.rdropWhile FsPath.isWhitespace := by
    rw [trim, List.dropWhile_cons_of_neg (by rw [visible.1]; exact Bool.false_ne_true)]
    exact rdropWhile_keeps [] tail visible.1
  have front : ¬['\x7b', '\x7b'].isPrefixOf (c :: tail.rdropWhile FsPath.isWhitespace) = true := by
    rw [List.isPrefixOf, Bool.and_eq_true, beq_iff_eq]
    exact fun same => visible.2 same.1.symm
  unfold Template.singleVariable
  rw [trimmed, if_neg fun all => front all.1]

theorem get_url (body : List (String × Json)) (resolved : body = [] ∨ ∃ v, body = [("body", v)])
    (headers method url : Json) :
    (Json.object (body ++ [("headers", headers), ("method", method), ("url", url)])).get? "url" = some url := by
  rcases resolved with rfl | ⟨v, rfl⟩ <;> rfl

theorem resolveBody_fields {parse : String → Option Json} {vars : List (String × String)} {template : Option Json}
    {body : List (String × Json)} (ok : resolveBody parse vars template = .ok body) :
    body = [] ∨ ∃ v, body = [("body", v)] := by
  cases template with
  | none =>
    cases ok
    exact .inl rfl
  | some template =>
    obtain ⟨v, -, rfl⟩ := Except.map_eq_ok.1 ok
    exact .inr ⟨v, rfl⟩

section Path
variable {vars : List (String × String)} {scheme : List Char} {rest : List Part}

theorem encoded_plain {c : Char} (encoded : isUnreserved c = true ∨ c = '%') :
    separates scheme c = false ∧ endsPath c = false := by
  have other : c ≠ '/' ∧ c ≠ '\\' ∧ c ≠ '?' ∧ c ≠ '#' := by
    rcases encoded with unreserved | rfl
    · have range := unreserved_range unreserved
      refine ⟨?_, ?_, ?_, ?_⟩
      all_goals
        rintro rfl
        revert range
        decide
    · decide
  obtain ⟨slash, backslash, question, hash⟩ := other
  simp [separates, endsPath, slash, backslash, question, hash]

theorem render_encoded {name : List Char} {c : Char} (member : c ∈ Part.render vars true (.placeholder name)) :
    isUnreserved c = true ∨ c = '%' :=
  mem_percentEncodePathSegment member

theorem render_is {p : Char → Bool} (plain : ∀ c, isUnreserved c = true ∨ c = '%' → p c = false) (part : Part) :
    (part.is p = true → ∃ c, part.render vars true = [c] ∧ p c = true) ∧
      (part.is p = false → ∀ c ∈ part.render vars true, p c = false) := by
  cases part with
  | char c => exact ⟨fun own => ⟨c, rfl, own⟩, fun other d member => List.mem_singleton.mp member ▸ other⟩
  | placeholder name => exact ⟨nofun, fun _ c member => plain c (render_encoded member)⟩

/-- The segments of the URL are those of the template with the values in them. -/
theorem segments_render (vars : List (String × String)) (scheme : List Char) (rest : List Part) :
    segments endsPath (separates scheme) (rest.flatMap (Part.render vars true)) =
      (templateSegments scheme rest).map (·.flatMap (Part.render vars true)) := by
  have ends (part : Part) := @render_is vars endsPath (fun c encoded => (@encoded_plain scheme c encoded).2) part
  have separators (part : Part) := @render_is vars (separates scheme) (fun c encoded => (encoded_plain encoded).1) part
  have stops : Encoding.Stops (Part.render vars true) (Part.is endsPath) endsPath :=
    ⟨fun part own => let ⟨c, written, stop⟩ := (ends part).1 own; ⟨c, [], written, stop⟩, fun part => (ends part).2⟩
  rw [segments, stops.takeWhile, templateSegments, segments]
  exact Encoding.splitOnP_flatMap (fun part => (separators part).1) (fun part => (separators part).2) _

theorem head_render (path : ∀ part ∈ rest.head?, part.is (separates scheme) ∨ part.is endsPath) :
    ∀ c ∈ (rest.flatMap (Part.render vars true)).head?, separates scheme c ∨ endsPath c := by
  cases rest with
  | nil => nofun
  | cons part rest =>
    cases part with
    | char c =>
      intro d here
      cases here
      exact path (.char c) rfl
    | placeholder name => exact absurd (path (.placeholder name) rfl) (by simp [Part.is])

theorem mem_of_segment {front back : List (List Part)} {segment : List Part}
    (here : templateSegments scheme rest = front ++ segment :: back) {part : Part} (member : part ∈ segment) :
    part ∈ rest := by
  have listed : segment ∈ templateSegments scheme rest := here ▸ List.mem_append_right front List.mem_cons_self
  exact (List.takeWhile_prefix _).subset (Encoding.mem_of_mem_splitOnP listed member)

end Path

/-- A URL with a literal origin keeps to its template exactly where no argument
makes its segment a dot segment. -/
theorem resolveTemplate_keeps (parse : String → Option Json) {template : TemplateConfig} {requestBody result : Json}
    {scheme authority : List Char} {rest : List Part}
    (literal : LiteralOrigin template.urlTemplate.toList scheme authority rest)
    (ok : resolveTemplate parse template requestBody = .ok result) :
    ∃ url, result.get? "url" = some (.string (String.ofList url)) ∧
      (Keeps (extractVariables requestBody) scheme authority rest url ↔
        ∀ front segment back, templateSegments scheme rest = front ++ segment :: back →
          ¬SpellsDots (extractVariables requestBody) (back.isEmpty && pathIsLast rest) segment) := by
  simp only [resolveTemplate, literal.singleVariable, Except.bind_eq_ok, resolveStringTemplate_eq_ok, literal.read,
    Option.some.injEq] at ok
  obtain ⟨_, ⟨_, rfl, supplied, rfl⟩, body, resolved, same⟩ := ok
  cases same
  refine ⟨_, get_url body (resolveBody_fields resolved) _ _ _, ?_⟩
  have known : Supplied (extractVariables requestBody) rest := fun name member => supplied name (List.mem_append_right _ member)
  have inner {front segment back} (here : templateSegments scheme rest = front ++ segment :: back) :
      Supplied (extractVariables requestBody) segment := fun name member => known name (mem_of_segment here member)
  constructor
  · rintro keeps front segment back here ⟨holds, unreserved, dot⟩
    exact keeps.noDots front segment back here holds ((dotSegment_render_iff _ (inner here)).mpr ⟨unreserved, dot⟩)
  · intro noneSpells
    refine ⟨?_, head_render literal.path, segments_render _ scheme rest, ?_, ?_⟩
    · rw [List.flatMap_append, render_chars]
      rfl
    · intro name value member value_
      rw [render_placeholder value_]
      exact ⟨decode_percentEncodePathSegment value, fun c => mem_percentEncodePathSegment⟩
    · intro front segment back here holds dot
      obtain ⟨unreserved, spelled⟩ := (dotSegment_render_iff _ (inner here)).mp dot
      exact noneSpells front segment back here ⟨holds, unreserved, spelled⟩

def pathTemplate : TemplateConfig where
  method := "GET"
  urlTemplate := "https://h/\x7b\x7bx\x7d\x7d"

theorem path_literal : LiteralOrigin pathTemplate.urlTemplate.toList "https".toList ['h'] [.char '/', .placeholder ['x']] where
  read := by
    have opening : splitMarker '\x7b' "https://h/\x7b\x7bx\x7d\x7d".toList =
      some ("https://h/".toList, "x\x7d\x7d".toList) := by decide
    have closing : splitMarker '\x7d' "x\x7d\x7d".toList = some (['x'], []) := by decide
    rw [show pathTemplate.urlTemplate = "https://h/\x7b\x7bx\x7d\x7d" from rfl, parts_placeholder opening closing,
      parts_plain rfl]
    rfl
  present := by decide
  schemeChars := by
    have letters : ("https".toList.all Char.isAlphanum) = true := by decide
    exact fun c member => .inl (List.all_eq_true.mp letters c member)
  authorityChars := by
    intro c member
    cases List.mem_singleton.mp member
    decide
  path := by
    intro part here
    cases here
    exact .inl (by decide)

theorem path_value (value : String) : valueOf [("x", value)] ['x'] = some value := by
  rw [valueOf, show String.ofList (trim ['x']) = "x" from by decide]
  rfl

theorem path_resolved (value : String) :
    resolveTemplate (fun _ => none) pathTemplate (.object [("x", .string value)]) =
      .ok (.object ([] ++ [("headers", Json.ofFields []), ("method", .string "GET"),
        ("url", .string (String.ofList ("https://h/".toList ++ percentEncodePathSegment value)))])) := by
  have variables_ : extractVariables (.object [("x", .string value)]) = [("x", value)] := rfl
  have url : resolveStringTemplate [("x", value)] true pathTemplate.urlTemplate.toList =
      .ok ("https://h/".toList ++ percentEncodePathSegment value) := by
    refine resolveStringTemplate_eq_ok.2 ⟨_, path_literal.read, fun name member => ?_, ?_⟩
    · rcases List.mem_append.mp member with literal | later
      · exact absurd literal (by simp)
      · rcases List.mem_cons.mp later with same | last
        · cases same
        · cases List.mem_singleton.mp last
          exact ⟨value, path_value value⟩
    · rw [List.flatMap_append, render_chars, List.flatMap_cons, List.flatMap_cons,
        render_placeholder (path_value value)]
      simp [insertedText, Part.render]
  have method : toAsciiUppercase pathTemplate.method = "GET" := by decide
  simp only [resolveTemplate, path_literal.singleVariable, variables_, Option.isSome_none, Bool.not_false, url, method]
  rfl

theorem path_segments : templateSegments "https".toList [.char '/', .placeholder ['x']] = [[], [.placeholder ['x']]] := by
  decide

/-- An argument that is no dot segment stands in its place. -/
theorem value_keeps : ∃ result url,
    resolveTemplate (fun _ => none) pathTemplate (.object [("x", .string "a/b")]) = .ok result ∧
    result.get? "url" = some (.string (String.ofList url)) ∧
    Keeps [("x", "a/b")] "https".toList ['h'] [.char '/', .placeholder ['x']] url := by
  obtain ⟨url, here, keeps⟩ := resolveTemplate_keeps (fun _ => none) path_literal (path_resolved "a/b")
  refine ⟨_, url, path_resolved "a/b", here, keeps.mpr ?_⟩
  rintro front segment back split ⟨⟨name, member⟩, unreserved, -⟩
  have listed : segment ∈ [[], [.placeholder ['x']]] := by
    rw [← path_segments, split]
    exact List.mem_append_right front List.mem_cons_self
  rcases List.mem_cons.mp listed with rfl | own
  · cases member
  · cases List.mem_singleton.mp own
    exact absurd (unreserved ['x'] "a/b" List.mem_cons_self (path_value "a/b") '/' (by decide)) (by decide)

/-- An argument of two dots is not encoded, and its segment goes up. -/
theorem dots_climb : ∃ result, resolveTemplate (fun _ => none) pathTemplate (.object [("x", .string "..")]) = .ok result ∧
    result.get? "url" = some (.string "https://h/..") ∧
    ¬Keeps [("x", "..")] "https".toList ['h'] [.char '/', .placeholder ['x']] "https://h/..".toList := by
  have code : String.ofList ("https://h/".toList ++ percentEncodePathSegment "..") = "https://h/.." := by decide
  refine ⟨_, path_resolved "..", ?_, fun keeps => ?_⟩
  · rw [get_url _ (.inl rfl), code]
  · exact keeps.noDots [[]] [.placeholder ['x']] [] path_segments ⟨['x'], List.mem_singleton_self _⟩ (by decide)

end Template
end Latchgate
