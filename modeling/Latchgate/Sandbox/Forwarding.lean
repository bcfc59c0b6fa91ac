import Latchgate.Encoding.Ascii
import Latchgate.Sandbox.Proxy

namespace Latchgate
open Encoding (utf8 utf8_append utf8_injective)

namespace Sandbox

/-! What the proxy has read of the agent's headers. -/

/-- How the loop leaves each header. -/
structure HeaderShape (header : List Char × List Char) : Prop where
  nameOneLine : '\n' ∉ header.1
  valueOneLine : '\n' ∉ header.2
  noColon : ':' ∉ header.1
  lowered : lowerText header.1 = header.1
  trimmedFront : header.2.dropWhile isWhitespace = header.2
  trimmedEnd : header.2.rdropWhile isWhitespace = header.2

theorem headerShape_of_split {line name value : List Char} (oneLine : '\n' ∉ line)
    (split : splitOnce ':' (trimEnd line) = some (name, value)) : HeaderShape (lowerText (trim name), trim value) := by
  obtain ⟨whole, clean⟩ := splitOnce_eq_some split
  have inside : ∀ c ∈ name ++ ':' :: value, c ∈ line := fun c member => mem_of_mem_trimEnd (whole ▸ member)
  constructor
  · intro feed
    have known := mem_of_mem_trim (mem_of_mem_lowerText (by decide) feed)
    exact oneLine (inside _ (List.mem_append_left _ known))
  · intro feed
    exact oneLine (inside _ (List.mem_append_right _ (List.mem_cons_of_mem _ (mem_of_mem_trim feed))))
  · intro colon
    exact clean (mem_of_mem_trim (mem_of_mem_lowerText (by decide) colon))
  · exact lowerText_lowerText _
  · exact Http.dropWhile_trimmed _ _
  · exact List.rdropWhile_idempotent _ _

theorem collectHeaders_shape {headers result : List (List Char × List Char)} {text : List (List Char)}
    (oneLine : ∀ line ∈ text, '\n' ∉ line) (before : ∀ header ∈ headers, HeaderShape header)
    (collected : collectHeaders headers text = .ok result) : ∀ header ∈ result, HeaderShape header := by
  induction text generalizing headers with
  | nil =>
    cases collected
    exact before
  | cons line text ih =>
    have later : ∀ line ∈ text, '\n' ∉ line := fun line member => oneLine line (List.mem_cons_of_mem _ member)
    rw [collectHeaders] at collected
    split_ifs at collected
    · cases collected
      exact before
    · split at collected
      · rename_i name value split
        have shape := headerShape_of_split (oneLine line List.mem_cons_self) split
        refine ih later ?_ collected
        intro header member
        rcases List.mem_append.mp member with old | new
        · exact before header old
        · rw [List.mem_singleton.mp new]
          exact shape
      · exact ih later before collected

theorem parseRequestHeaders_shape {raw : List Char} {request : ParsedRequest}
    (parsed : parseRequestHeaders raw = .ok request) : ∀ header ∈ request.headers, HeaderShape header := by
  unfold parseRequestHeaders at parsed
  have oneLine := lines_oneLine raw
  split at parsed
  · cases parsed
  · rename_i first rest split
    rw [split] at oneLine
    split at parsed
    · cases collected : collectHeaders [] rest with
      | error e =>
        rw [collected] at parsed
        cases parsed
      | ok headers =>
        rw [collected] at parsed
        cases parsed
        exact collectHeaders_shape (fun line member => oneLine line (List.mem_cons_of_mem _ member)) (by simp) collected
    · cases parsed

theorem readHttpRequest_shape {stream rest : List UInt8} {request : ParsedRequest}
    (read : readHttpRequest stream = .ok (request, rest)) : ∀ header ∈ request.headers, HeaderShape header := by
  unfold readHttpRequest at read
  split at read
  · split_ifs at read
  · split_ifs at read
    rename_i pos _ _
    cases parsed : parseRequestHeaders (fromUtf8Lossy (stream.take (pos + 4))) with
    | error e =>
      rw [parsed] at read
      cases read
    | ok result =>
      rw [parsed] at read
      cases read
      exact parseRequestHeaders_shape parsed

/-! Headers as fields. -/

/-- A header as it stands in the bytes. -/
def field (header : List Char × List Char) : Http.Field :=
  ⟨utf8 header.1, utf8 header.2⟩

theorem map_lower_utf8 {text : List Char} (lowered : lowerText text = text) :
    (utf8 text).map Http.lower = utf8 text := by
  have each : ∀ c ∈ text, c.toLower = c := by
    have same : text.map Char.toLower = text.map id := by simpa [lowerText] using lowered
    exact List.map_inj_left.mp same
  have kept : ∀ b ∈ utf8 text, Http.lower b = id b := by
    intro b member
    rw [Http.lower, id]
    split_ifs with upper
    · exfalso
      simp only [Bool.and_eq_true, decide_eq_true_eq, UInt8.le_iff_toNat_le] at upper
      have range : 65 ≤ b.toNat ∧ b.toNat ≤ 90 := upper
      obtain ⟨c, known, number⟩ := Encoding.mem_of_mem_utf8 member (by omega)
      rcases toLower_cases c with ⟨-, -, moved⟩ | ⟨outside, -⟩
      · rw [each c known] at moved
        omega
      · omega
    · rfl
  rw [List.map_congr_left kept, List.map_id]

/-- Lowered names are alike only when they are the same. -/
theorem alike_utf8 {name other : List Char} (lowered : lowerText name = name) (lowered' : lowerText other = other) :
    Http.alike (utf8 name) (utf8 other) = true ↔ name = other := by
  rw [Http.alike, decide_eq_true_eq, map_lower_utf8 lowered, map_lower_utf8 lowered']
  exact utf8_injective.eq_iff

theorem isOws_within (b : UInt8) (ows : Http.isOws b = true) :
    b.toNat < 128 ∧ ∀ c : Char, c.toNat = b.toNat → isWhitespace c = true := by
  simp only [Http.isOws, Bool.or_eq_true, decide_eq_true_eq] at ows
  rcases ows with rfl | rfl
  · exact ⟨by decide, fun c blank => by simp [isWhitespace, blank]⟩
  · exact ⟨by decide, fun c tab => by simp [isWhitespace, tab]⟩

namespace HeaderShape
variable {header : List Char × List Char} (shape : HeaderShape header)
include shape

theorem trimOws_value : Http.trimOws (field header).value = (field header).value := by
  have front := Encoding.dropWhile_utf8 isOws_within shape.trimmedFront
  have ends := Encoding.rdropWhile_utf8 isOws_within shape.trimmedEnd
  rw [Http.trimOws, field, front, ends]

theorem fieldLine_oneLine : 10 ∉ Http.fieldLine (field header) := by
  have name : 10 ∉ utf8 header.1 := Encoding.notMem_utf8 shape.nameOneLine (by decide)
  have value : 10 ∉ utf8 header.2 := Encoding.notMem_utf8 shape.valueOneLine (by decide)
  simp [Http.fieldLine, field, name, value]

theorem name_noColon : 58 ∉ (field header).name :=
  Encoding.notMem_utf8 shape.noColon (by decide)

end HeaderShape

theorem values_eq_nil {name : List UInt8} {fields : List Http.Field} :
    Http.values name fields = [] ↔ ∀ one ∈ fields, Http.alike one.name name = false := by
  simp [Http.values]

theorem alike_comm {name same : List UInt8} (alike : Http.alike name same = true) (other : List UInt8) :
    Http.alike name other = Http.alike other same := by
  rw [Http.alike, of_decide_eq_true alike, Http.alike]
  simp only [eq_comm]

/-- Under a lowered name stand the headers of exactly that name. -/
theorem values_field {name : List Char} (lowered : lowerText name = name) {headers : List (List Char × List Char)}
    (shape : ∀ header ∈ headers, HeaderShape header) :
    Http.values (utf8 name) (headers.map field) = (headers.filter fun header => header.1 = name).map fun header => utf8 header.2 := by
  have same : headers.filter (fun header => Http.alike (utf8 header.1) (utf8 name)) =
      headers.filter (fun header => header.1 = name) := by
    apply List.filter_congr
    intro header member
    rw [Bool.eq_iff_iff, alike_utf8 (shape header member).lowered lowered, decide_eq_true_eq]
  rw [Http.values, List.filter_map, List.map_map, ← same]
  rfl

/-! Lengths. -/

theorem isDigit_of_utf8 {value : List Char} (digits : (utf8 value).all Http.isDigit = true) :
    ∀ c ∈ value, 48 ≤ c.toNat ∧ c.toNat ≤ 57 := by
  intro c member
  cases bytes : String.utf8EncodeChar c with
  | nil => exact absurd bytes String.utf8EncodeChar_ne_nil
  | cons b more =>
    have inside : b ∈ String.utf8EncodeChar c := bytes ▸ List.mem_cons_self
    have known : b ∈ utf8 value := List.mem_flatMap.mpr ⟨c, member, inside⟩
    have digit := List.all_eq_true.mp digits b known
    simp only [Http.isDigit, Bool.and_eq_true, decide_eq_true_eq, UInt8.le_iff_toNat_le] at digit
    have range : 48 ≤ b.toNat ∧ b.toNat ≤ 57 := digit
    have number := Encoding.toNat_eq_of_mem_utf8EncodeChar inside (by omega)
    omega

theorem natOf_utf8 {value : List Char} (digits : ∀ c ∈ value, 48 ≤ c.toNat ∧ c.toNat ≤ 57) :
    Http.natOf (utf8 value) = value.foldl (fun n c => n * 10 + (c.toNat - 48)) 0 := by
  have ascii : ∀ c ∈ value, c.toNat < 128 := fun c member => by
    have range := digits c member
    omega
  rw [Encoding.utf8_ascii ascii, Http.natOf, List.foldl_map]
  apply List.foldl_ext
  intro n c member
  have range := digits c member
  rw [UInt8.toNat_ofNat']
  omega

/-- A length that a strict reader takes is the number that the proxy takes, as
long as it fits. -/
theorem parseUnsigned_trim {value : List Char} (length : Http.isLength (utf8 value) = true) :
    parseUnsigned (2 ^ 64) (trim value) =
      if Http.natOf (utf8 value) < 2 ^ 64 then some (Http.natOf (utf8 value)) else none := by
  simp only [Http.isLength, Bool.and_eq_true, decide_eq_true_eq] at length
  have digits := isDigit_of_utf8 length.2
  have plain : ∀ c ∈ value, isWhitespace c = false := by
    intro c member
    have range := digits c member
    simp [isWhitespace]
    omega
  have trimmed : trim value = value := Http.trimmed_eq_self plain
  have all : value.all Char.isDigit = true := by
    rw [List.all_eq_true]
    intro c member
    simpa [Char.isDigit, UInt32.le_iff_toNat_le] using digits c member
  have number := natOf_utf8 digits
  rw [trimmed, number]
  cases value with
  | nil => exact absurd rfl length.1
  | cons c rest =>
    have unsigned : c ≠ '+' := by
      rintro rfl
      have range := digits '+' List.mem_cons_self
      revert range
      decide
    unfold parseUnsigned
    split
    · rename_i same
      exact absurd (List.cons.inj same).1 unsigned
    · rw [if_pos ⟨by simp, all⟩]

namespace Forwarded
variable (f : Forwarded)

/-! What is written. -/

/-- The headers in the order in which they are written. -/
def outgoing : List (List Char × List Char) :=
  ("Host".toList, f.route.host) :: (f.route.injectHeader, f.route.injectValue) ::
    ("Connection".toList, "close".toList) :: f.kept

theorem utf8_headerLine (header : List Char × List Char) :
    utf8 (headerLine header) = Http.fieldLine (field header) ++ Http.crlf := by
  simp only [headerLine, utf8_append, Http.fieldLine, field, List.append_assoc, List.cons_append]
  rfl

theorem utf8_flatMap_headerLine (headers : List (List Char × List Char)) :
    utf8 (headers.flatMap headerLine) =
      ((headers.map field).map Http.fieldLine).flatMap fun line => line ++ Http.crlf := by
  induction headers with
  | nil => rfl
  | cons header headers ih =>
    rw [List.flatMap_cons, utf8_append, ih, utf8_headerLine]
    rfl

theorem head_eq : f.head = (f.request.method ++ ' ' :: (f.upstreamPath ++ " HTTP/1.1".toList)) ++ "\r\n".toList ++
    (f.outgoing.flatMap headerLine ++ "\r\n".toList) := by
  simp [head, outgoing, headerLine]

/-- The bytes are a head with one line for each header, and then the body. -/
theorem bytes_eq : f.bytes = Http.render
    (Http.requestLine (utf8 f.request.method) (utf8 f.upstreamPath) :: (f.outgoing.map field).map Http.fieldLine)
    f.relayedBody := by
  have first : utf8 (f.request.method ++ ' ' :: (f.upstreamPath ++ " HTTP/1.1".toList)) =
      Http.requestLine (utf8 f.request.method) (utf8 f.upstreamPath) := by
    rw [utf8_append, Encoding.utf8_cons, utf8_append]
    rfl
  have ending : utf8 "\r\n".toList = Http.crlf := rfl
  rw [bytes, head_eq, utf8_append, utf8_append, first, utf8_append, ending, utf8_flatMap_headerLine, Http.render_cons,
    Http.render]
  simp only [List.append_assoc]

theorem kept_named {name : List Char} (dropped : isForwardedHeader name = false) :
    ∀ header ∈ f.kept, header.1 ≠ name := by
  intro header member
  have kept := (List.mem_filter.mp member).2
  rintro rfl
  rw [dropped] at kept
  cases kept

/-- Which values stand under a name. -/
theorem values_outgoing (name : List UInt8) : Http.values name (f.outgoing.map field) =
    (if Http.alike (utf8 "Host".toList) name then [utf8 f.route.host] else []) ++
    (if Http.alike (utf8 f.route.injectHeader) name then [utf8 f.route.injectValue] else []) ++
    (if Http.alike (utf8 "Connection".toList) name then [utf8 "close".toList] else []) ++
    Http.values name (f.kept.map field) := by
  simp only [Http.values, outgoing, List.map_cons, List.filter_cons, field]
  split_ifs <;> simp

/-- The lengths that the agent declares. -/
def declaredLengths : List (List Char) :=
  (f.kept.filter fun header => header.1 = "content-length".toList).map Prod.snd

theorem contentLength_eq : f.request.contentLength =
    f.declaredLengths.head?.bind fun value => parseUnsigned (2 ^ 64) (trim value) := by
  have same : f.kept.filter (fun header => header.1 = "content-length".toList) =
      f.request.headers.filter (fun header => header.1 = "content-length".toList) := by
    rw [kept, List.filter_filter]
    apply List.filter_congr
    intro header _
    by_cases length : header.1 = "content-length".toList
    · rw [length]
      rfl
    · simp only [length, decide_false, Bool.false_and]
  rw [ParsedRequest.contentLength, ParsedRequest.findHeader, declaredLengths, same, List.head?_map, List.head?_filter]

theorem relayedBody_none (none : f.declaredLengths = []) : f.relayedBody = [] := by
  rw [relayedBody, contentLength_eq, none]
  rfl

theorem relayedBody_length {value : List Char} (one : f.declaredLengths = [value])
    (length : Http.isLength (utf8 value) = true) :
    f.relayedBody = if Http.natOf (utf8 value) < 2 ^ 64 then f.rest.take (Http.natOf (utf8 value)) else [] := by
  have declared : f.request.contentLength =
      if Http.natOf (utf8 value) < 2 ^ 64 then some (Http.natOf (utf8 value)) else none := by
    rw [contentLength_eq, one]
    exact parseUnsigned_trim length
  rw [relayedBody, declared]
  split_ifs <;> rfl

/-! What the upstream is to read. -/

/-- The bytes are exactly one request: the agent's method, and its target under
the base path of the route; the host of the route; one field for the
credential; no session token; and the body that the agent's headers delimit. -/
def Conforms : Prop :=
  ∃ msg, Http.parse f.bytes = some msg ∧ msg.method = utf8 f.request.method ∧
    (∃ rest, parseRoutePath f.request.target = some (f.route.name, rest) ∧ msg.target = utf8 (f.route.basePath ++ rest)) ∧
    Http.values Http.nameHost msg.fields = [utf8 f.route.host] ∧
    Http.values (utf8 f.route.injectHeader) msg.fields = [utf8 f.route.injectValue] ∧
    Http.values (utf8 sessionTokenHeader) msg.fields = [] ∧
    (Http.delimit (f.request.headers.map field) f.rest).map Prod.fst = some msg.body

/-- The route: a host and a credential field that can stand in a message, and a
field that is not one of those that the proxy writes or holds back. A length
can only be that of no body. -/
structure CleanRoute (route : ResolvedCredentialRoute) : Prop where
  host : Http.isHostValue (utf8 route.host) = true
  injectHeader : Http.isToken (utf8 route.injectHeader) = true
  injectValue : Http.isFieldValue (utf8 route.injectValue) = true
  distinct : ∀ name ∈ ["host", "connection", "x-gate-token", "transfer-encoding"],
    Http.alike (utf8 route.injectHeader) (utf8 name.toList) = false
  injectedLength : Http.alike (utf8 route.injectHeader) Http.nameContentLength = true →
    Http.isLength (utf8 route.injectValue) = true ∧ Http.natOf (utf8 route.injectValue) = 0

/-- The request: a method, a path and headers that can stand in a message, none
of them the credential's or a coding, and at most one length, of a body that is
there. -/
structure CleanRequest : Prop where
  method : Http.isToken (utf8 f.request.method) = true
  target : Http.isOriginForm (utf8 f.upstreamPath) = true
  headers : ∀ header ∈ f.kept, Http.isToken (utf8 header.1) = true ∧ (utf8 header.2).all Http.isFieldByte = true ∧
    Http.alike (utf8 header.1) (utf8 f.route.injectHeader) = false ∧ header.1 ≠ "transfer-encoding".toList
  length : f.declaredLengths = [] ∨ ∃ value, f.declaredLengths = [value] ∧ Http.isLength (utf8 value) = true ∧
    Http.natOf (utf8 value) < 2 ^ 64 ∧ Http.natOf (utf8 value) ≤ f.rest.length

/-! Framing. -/

section Framing
variable {f} (shape : ∀ header ∈ f.request.headers, HeaderShape header)
include shape

theorem kept_shape : ∀ header ∈ f.kept, HeaderShape header :=
  fun header member => shape header (List.mem_filter.mp member).1

theorem values_kept {name : List Char} (lowered : lowerText name = name) :
    Http.values (utf8 name) (f.kept.map field) =
      (f.kept.filter fun header => header.1 = name).map fun header => utf8 header.2 :=
  values_field lowered (kept_shape shape)

theorem values_length : Http.values Http.nameContentLength (f.kept.map field) = f.declaredLengths.map utf8 := by
  have named := @values_kept f shape "content-length".toList rfl
  rw [declaredLengths, List.map_map]
  exact named

/-- Under a name that is passed on stand the same values as in the agent's
message. -/
theorem values_agent {name : List Char} (lowered : lowerText name = name) (forwarded : isForwardedHeader name = true) :
    Http.values (utf8 name) (f.request.headers.map field) = Http.values (utf8 name) (f.kept.map field) := by
  rw [values_field lowered shape, values_kept shape lowered, kept, List.filter_filter]
  congr 1
  apply List.filter_congr
  intro header _
  by_cases same : header.1 = name
  · simp [same, forwarded]
  · simp [same]

theorem codings_eq_nil : Http.values Http.nameTransferEncoding (f.outgoing.map field) = [] ↔
    Http.alike (utf8 f.route.injectHeader) Http.nameTransferEncoding = false ∧
      ∀ header ∈ f.kept, header.1 ≠ "transfer-encoding".toList := by
  have named : Http.values Http.nameTransferEncoding (f.kept.map field) = _ :=
    @values_kept f shape "transfer-encoding".toList rfl
  have host : Http.alike (utf8 "Host".toList) Http.nameTransferEncoding = false := rfl
  have connection : Http.alike (utf8 "Connection".toList) Http.nameTransferEncoding = false := rfl
  rw [values_outgoing, host, connection, named]
  simp only [Bool.false_eq_true, if_false, List.nil_append, List.append_nil, List.append_eq_nil_iff,
    List.map_eq_nil_iff, List.filter_eq_nil_iff, decide_eq_true_eq]
  apply and_congr_left'
  cases Http.alike (utf8 f.route.injectHeader) Http.nameTransferEncoding <;> simp

theorem lengths_eq : Http.values Http.nameContentLength (f.outgoing.map field) =
    (if Http.alike (utf8 f.route.injectHeader) Http.nameContentLength then [utf8 f.route.injectValue] else []) ++
      f.declaredLengths.map utf8 := by
  have host : Http.alike (utf8 "Host".toList) Http.nameContentLength = false := rfl
  have connection : Http.alike (utf8 "Connection".toList) Http.nameContentLength = false := rfl
  rw [values_outgoing, host, connection, values_length shape]
  simp only [Bool.false_eq_true, if_false, List.nil_append, List.append_nil]

theorem agent_codings (plain : ∀ header ∈ f.kept, header.1 ≠ "transfer-encoding".toList) :
    Http.values Http.nameTransferEncoding (f.request.headers.map field) = [] := by
  have named := @values_agent f shape "transfer-encoding".toList rfl rfl
  rw [@values_kept f shape "transfer-encoding".toList rfl] at named
  have none : (f.kept.filter fun header => header.1 = "transfer-encoding".toList) = [] := by
    rw [List.filter_eq_nil_iff]
    exact fun header member same => plain header member (of_decide_eq_true same)
  rw [none] at named
  exact named

theorem agent_lengths :
    Http.values Http.nameContentLength (f.request.headers.map field) = f.declaredLengths.map utf8 :=
  (@values_agent f shape "content-length".toList rfl rfl).trans (values_length shape)

/-- Nothing is passed on when the agent announces a coding, so that no chunk
can be read. -/
theorem codings_of_framed {body : List UInt8}
    (framed : Http.delimit (f.outgoing.map field) f.relayedBody = some (body, [])) :
    Http.values Http.nameTransferEncoding (f.outgoing.map field) = [] := by
  have lengths := lengths_eq shape
  unfold Http.delimit at framed
  split at framed
  · rename_i plain _
    exact plain
  · rename_i plain _
    exact plain
  · rename_i none
    rw [none] at lengths
    have undeclared : f.declaredLengths = [] := by
      simpa using (List.append_eq_nil_iff.mp lengths.symm).2
    rw [f.relayedBody_none undeclared] at framed
    split_ifs at framed
    cases framed
  · cases framed

/-- The body that is read is the agent's only when the lengths say so. -/
theorem lengths_of_framed {body : List UInt8}
    (framed : Http.delimit (f.outgoing.map field) f.relayedBody = some (body, [])) :
    (Http.alike (utf8 f.route.injectHeader) Http.nameContentLength = true →
      Http.isLength (utf8 f.route.injectValue) = true ∧ Http.natOf (utf8 f.route.injectValue) = 0) ∧
    (f.declaredLengths = [] ∨ ∃ value, f.declaredLengths = [value] ∧ Http.isLength (utf8 value) = true ∧
      Http.natOf (utf8 value) < 2 ^ 64 ∧ Http.natOf (utf8 value) ≤ f.rest.length) := by
  rw [Http.delimit_plain (codings_of_framed shape framed), lengths_eq shape] at framed
  by_cases injected : Http.alike (utf8 f.route.injectHeader) Http.nameContentLength = true
  · rw [if_pos injected] at framed
    cases declared : f.declaredLengths with
    | nil =>
      rw [declared, f.relayedBody_none declared] at framed
      simp only [List.map_nil, List.append_nil] at framed
      split_ifs at framed with good
      exact ⟨fun _ => ⟨good.1, Nat.le_zero.mp good.2⟩, Or.inl rfl⟩
    | cons value others =>
      rw [declared] at framed
      cases framed
  · rw [if_neg injected, List.nil_append] at framed
    refine ⟨fun same => absurd same injected, ?_⟩
    rcases declared : f.declaredLengths with _ | ⟨value, _ | ⟨other, others⟩⟩
    · exact Or.inl rfl
    · rw [declared] at framed
      simp only [List.map_cons, List.map_nil] at framed
      split_ifs at framed with good
      obtain ⟨length, present⟩ := good
      rw [f.relayedBody_length declared length] at present
      right
      refine ⟨value, rfl, length, ?_⟩
      split_ifs at present with fits
      · rw [List.length_take] at present
        exact ⟨fits, present.trans (Nat.min_le_right _ _)⟩
      · have zero : Http.natOf (utf8 value) = 0 := Nat.le_zero.mp present
        exact absurd (zero ▸ Nat.two_pow_pos 64) fits
    · rw [declared] at framed
      cases framed

theorem framed_of_lengths (plain : Http.values Http.nameTransferEncoding (f.outgoing.map field) = [])
    (alone : Http.alike (utf8 f.route.injectHeader) Http.nameContentLength = true → f.declaredLengths = [])
    (injected : Http.alike (utf8 f.route.injectHeader) Http.nameContentLength = true →
      Http.isLength (utf8 f.route.injectValue) = true ∧ Http.natOf (utf8 f.route.injectValue) = 0)
    (declared : f.declaredLengths = [] ∨ ∃ value, f.declaredLengths = [value] ∧ Http.isLength (utf8 value) = true ∧
      Http.natOf (utf8 value) < 2 ^ 64 ∧ Http.natOf (utf8 value) ≤ f.rest.length) :
    ∃ body, Http.delimit (f.outgoing.map field) f.relayedBody = some (body, []) ∧
      (Http.delimit (f.request.headers.map field) f.rest).map Prod.fst = some body := by
  have agent := agent_codings shape ((codings_eq_nil shape).mp plain).2
  rw [Http.delimit_plain plain, Http.delimit_plain agent, lengths_eq shape, agent_lengths shape]
  rcases declared with none | ⟨value, one, length, fits, present⟩
  · rw [f.relayedBody_none none, none]
    refine ⟨[], ?_, rfl⟩
    split_ifs with same
    · obtain ⟨length, zero⟩ := injected same
      simp [length, zero]
    · rfl
  · have other : ¬Http.alike (utf8 f.route.injectHeader) Http.nameContentLength = true := by
      intro same
      rw [alone same] at one
      cases one
    rw [f.relayedBody_length one length, if_pos fits, one, if_neg other]
    refine ⟨f.rest.take (Http.natOf (utf8 value)), ?_, ?_⟩
    · simp [length, present, List.take_take]
    · simp [length, present]

end Framing

/-! Reading the bytes back. -/

section Reading
variable {f} (shape : ∀ header ∈ f.request.headers, HeaderShape header)
  (host : Http.isHostValue (utf8 f.route.host) = true) (name : Http.isToken (utf8 f.route.injectHeader) = true)
  (value : Http.isFieldValue (utf8 f.route.injectValue) = true)
include shape host name value

/-- Every header is one line, its name ends at the colon, and its value has
nothing to trim. -/
theorem outgoing_shape : ∀ header ∈ f.outgoing, (10 ∉ Http.fieldLine (field header) ∧ Http.fieldLine (field header) ≠ []) ∧
    58 ∉ (field header).name ∧ Http.trimOws (field header).value = (field header).value := by
  obtain ⟨hostOneLine, -, hostTrimmed⟩ := Http.isHostValue_plain host
  simp only [Http.isFieldValue, Bool.and_eq_true, decide_eq_true_eq] at value
  have valueOneLine : 10 ∉ utf8 f.route.injectValue := Http.not_mem_of_all value.1 rfl
  intro header member
  simp only [outgoing, List.mem_cons] at member
  rcases member with rfl | rfl | rfl | kept
  · have token : Http.isToken (utf8 "Host".toList) = true := by decide
    exact ⟨Http.fieldLine_oneLine (Http.not_mem_token token rfl) hostOneLine, Http.not_mem_token token rfl, hostTrimmed⟩
  · exact ⟨Http.fieldLine_oneLine (Http.not_mem_token name rfl) valueOneLine, Http.not_mem_token name rfl, value.2⟩
  · exact ⟨Http.fieldLine_oneLine (by decide) (by decide), by decide, by decide⟩
  · have one := kept_shape shape header kept
    exact ⟨⟨one.fieldLine_oneLine, by simp [Http.fieldLine]⟩, one.name_noColon, one.trimOws_value⟩

theorem fields_iff {fields : List Http.Field} :
    ((f.outgoing.map field).map Http.fieldLine).mapM Http.parseField = some fields ↔
      (∀ header ∈ f.kept, Http.isToken (utf8 header.1) = true ∧ (utf8 header.2).all Http.isFieldByte = true) ∧
        fields = f.outgoing.map field := by
  have written := outgoing_shape shape host name value
  have each : ∀ one ∈ f.outgoing.map field, ∀ parsed, Http.parseField (Http.fieldLine one) = some parsed ↔
      (Http.isToken one.name = true ∧ one.value.all Http.isFieldByte = true) ∧ parsed = id one := by
    intro one member parsed
    obtain ⟨header, known, rfl⟩ := List.mem_map.mp member
    obtain ⟨-, noColon, trimmed⟩ := written header known
    rw [Http.parseField_fieldLine noColon, trimmed, and_assoc]
    rfl
  rw [Http.mapM_eq_some_iff each, List.map_id]
  apply and_congr_left'
  simp only [Http.isFieldValue, Bool.and_eq_true] at value
  obtain ⟨-, hostPlain, -⟩ := Http.isHostValue_plain host
  simp only [outgoing, List.map_cons, List.forall_mem_cons, List.forall_mem_map]
  have token : Http.isToken (utf8 "Host".toList) = true := by decide
  constructor
  · intro all
    exact all.2.2.2
  · intro kept
    exact ⟨⟨token, hostPlain⟩, ⟨name, value.1⟩, ⟨by decide, by decide⟩, kept⟩

variable (method : Http.isToken (utf8 f.request.method) = true)
  (target : Http.isOriginForm (utf8 f.upstreamPath) = true)
include method target

theorem parse_iff {msg : Http.Message} : Http.parse f.bytes = some msg ↔
    (utf8 f.request.method = msg.method ∧ utf8 f.upstreamPath = msg.target) ∧
      ((∀ header ∈ f.kept, Http.isToken (utf8 header.1) = true ∧ (utf8 header.2).all Http.isFieldByte = true) ∧
        msg.fields = f.outgoing.map field) ∧
      (∃ host, Http.values Http.nameHost msg.fields = [host] ∧ Http.isHostValue host = true) ∧
      Http.delimit msg.fields f.relayedBody = some (msg.body, []) := by
  have oneLine : ∀ line ∈ Http.requestLine (utf8 f.request.method) (utf8 f.upstreamPath) ::
      (f.outgoing.map field).map Http.fieldLine, 10 ∉ line ∧ line ≠ [] := by
    intro line member
    rcases List.mem_cons.mp member with rfl | later
    · exact Http.requestLine_oneLine method target
    · rw [List.map_map] at later
      obtain ⟨header, known, rfl⟩ := List.mem_map.mp later
      exact (outgoing_shape shape host name value header known).1
  have first := Http.parseRequestLine_eq_some.2 ⟨rfl, method, target⟩
  rw [bytes_eq, Http.parse_render oneLine, Http.parseLines_eq_some, first, fields_iff shape host name value,
    Option.some.injEq, Prod.mk.injEq]

end Reading

theorem values_dropped (shape : ∀ header ∈ f.request.headers, HeaderShape header) {name : List Char}
    (lowered : lowerText name = name) (dropped : isForwardedHeader name = false) :
    Http.values (utf8 name) (f.kept.map field) = [] := by
  rw [values_kept shape lowered, List.map_eq_nil_iff, List.filter_eq_nil_iff]
  exact fun header member same => f.kept_named dropped header member (of_decide_eq_true same)

theorem host_alone (shape : ∀ header ∈ f.request.headers, HeaderShape header) :
    Http.values Http.nameHost (f.outgoing.map field) = [utf8 f.route.host] ↔
      Http.alike (utf8 f.route.injectHeader) (utf8 "host".toList) = false := by
  have kept : Http.values Http.nameHost (f.kept.map field) = [] := @values_dropped f shape "host".toList rfl rfl
  have host : Http.alike (utf8 "Host".toList) Http.nameHost = true := rfl
  have connection : Http.alike (utf8 "Connection".toList) Http.nameHost = false := rfl
  have same : utf8 "host".toList = Http.nameHost := rfl
  rw [values_outgoing, host, connection, kept, same]
  cases Http.alike (utf8 f.route.injectHeader) Http.nameHost <;> simp

theorem token_absent (shape : ∀ header ∈ f.request.headers, HeaderShape header) :
    Http.values (utf8 sessionTokenHeader) (f.outgoing.map field) = [] ↔
      Http.alike (utf8 f.route.injectHeader) (utf8 "x-gate-token".toList) = false := by
  have kept := @values_dropped f shape sessionTokenHeader rfl rfl
  have host : Http.alike (utf8 "Host".toList) (utf8 sessionTokenHeader) = false := rfl
  have connection : Http.alike (utf8 "Connection".toList) (utf8 sessionTokenHeader) = false := rfl
  rw [values_outgoing, host, connection, kept]
  change _ ↔ Http.alike (utf8 f.route.injectHeader) (utf8 sessionTokenHeader) = false
  cases Http.alike (utf8 f.route.injectHeader) (utf8 sessionTokenHeader) <;> simp

theorem credential_alone : Http.values (utf8 f.route.injectHeader) (f.outgoing.map field) = [utf8 f.route.injectValue] ↔
    Http.alike (utf8 f.route.injectHeader) (utf8 "host".toList) = false ∧
      Http.alike (utf8 f.route.injectHeader) (utf8 "connection".toList) = false ∧
      ∀ header ∈ f.kept, Http.alike (utf8 header.1) (utf8 f.route.injectHeader) = false := by
  have own : Http.alike (utf8 f.route.injectHeader) (utf8 f.route.injectHeader) = true := by simp [Http.alike]
  have host : Http.alike (utf8 "Host".toList) (utf8 f.route.injectHeader) =
      Http.alike (utf8 f.route.injectHeader) (utf8 "host".toList) := alike_comm (by decide) _
  have connection : Http.alike (utf8 "Connection".toList) (utf8 f.route.injectHeader) =
      Http.alike (utf8 f.route.injectHeader) (utf8 "connection".toList) := alike_comm (by decide) _
  have kept : Http.values (utf8 f.route.injectHeader) (f.kept.map field) = [] ↔
      ∀ header ∈ f.kept, Http.alike (utf8 header.1) (utf8 f.route.injectHeader) = false := by
    rw [values_eq_nil, List.forall_mem_map]
    rfl
  rw [values_outgoing, own, host, connection, ← kept]
  cases Http.alike (utf8 f.route.injectHeader) (utf8 "host".toList) <;>
    cases Http.alike (utf8 f.route.injectHeader) (utf8 "connection".toList) <;> simp

/-- The field of the credential, as the upstream reads it, says that the route's
own can stand in a message. -/
theorem injected_of_values {fields : List Http.Field} {name value : List UInt8}
    (well : ∀ one ∈ fields, Http.isToken one.name = true ∧ Http.isFieldValue one.value = true)
    (one : Http.values name fields = [value]) : Http.isToken name = true ∧ Http.isFieldValue value = true := by
  have member : value ∈ Http.values name fields := one ▸ List.mem_singleton_self value
  obtain ⟨credential, known, rfl⟩ := List.mem_map.mp member
  obtain ⟨inside, same⟩ := List.mem_filter.mp known
  obtain ⟨token, plain⟩ := well credential inside
  exact ⟨Http.isToken_of_alike same token, plain⟩

section Equivalence
variable {f} (shape : ∀ header ∈ f.request.headers, HeaderShape header)
  (path : parseRoutePath f.request.target = some (f.route.name, f.restPath))
include shape path

theorem Conforms.clean (conforms : f.Conforms) : CleanRoute f.route ∧ f.CleanRequest := by
  obtain ⟨msg, parsed, sameMethod, ⟨rest, route, sameTarget⟩, host, credential, token, -⟩ := conforms
  obtain ⟨method, target, well, known, one, hostValue⟩ := Http.parse_wellFormed parsed
  obtain ⟨name, value⟩ := injected_of_values well credential
  rw [path] at route
  cases route
  rw [sameMethod] at method
  rw [sameTarget] at target
  rw [host] at one
  cases one
  obtain ⟨-, ⟨kept, fields⟩, -, framed⟩ := (parse_iff shape hostValue name value method target).mp parsed
  rw [fields] at host credential token framed
  obtain ⟨plain, codings⟩ := (codings_eq_nil shape).mp (codings_of_framed shape framed)
  obtain ⟨injectedLength, declared⟩ := lengths_of_framed shape framed
  obtain ⟨notHost, notConnection, alone⟩ := f.credential_alone.mp credential
  refine ⟨⟨hostValue, name, value, ?_, injectedLength⟩, ⟨method, target, ?_, declared⟩⟩
  · have notToken := (f.token_absent shape).mp token
    simp only [List.forall_mem_cons]
    exact ⟨notHost, notConnection, notToken, plain, by simp⟩
  · intro header member
    exact ⟨(kept header member).1, (kept header member).2, alone header member, codings header member⟩

theorem Conforms.of_clean (route : CleanRoute f.route) (request : f.CleanRequest) : f.Conforms := by
  have distinct := route.distinct
  simp only [List.forall_mem_cons] at distinct
  obtain ⟨notHost, notConnection, notToken, notCoding, -⟩ := distinct
  have plain := (codings_eq_nil shape).mpr ⟨notCoding, fun header member => (request.headers header member).2.2.2⟩
  have alone : Http.alike (utf8 f.route.injectHeader) Http.nameContentLength = true → f.declaredLengths = [] := by
    intro same
    rw [declaredLengths, List.map_eq_nil_iff, List.filter_eq_nil_iff]
    intro header member length
    have other := (request.headers header member).2.2.1
    have named : Http.alike (utf8 header.1) Http.nameContentLength = true := by
      rw [of_decide_eq_true length]
      rfl
    rw [alike_comm named, same] at other
    cases other
  obtain ⟨body, framed, agent⟩ := framed_of_lengths shape plain alone route.injectedLength request.length
  have host := (f.host_alone shape).mpr notHost
  have parsed := (@parse_iff f shape route.host route.injectHeader route.injectValue request.method request.target
    ⟨utf8 f.request.method, utf8 f.upstreamPath, f.outgoing.map field, body⟩).mpr
      ⟨⟨rfl, rfl⟩, ⟨fun header member => ⟨(request.headers header member).1, (request.headers header member).2.1⟩, rfl⟩,
        ⟨_, host, route.host⟩, framed⟩
  have credential := f.credential_alone.mpr ⟨notHost, notConnection, fun header member => (request.headers header member).2.2.1⟩
  exact ⟨_, parsed, rfl, ⟨f.restPath, path, rfl⟩, host, credential, (f.token_absent shape).mpr notToken, agent⟩

end Equivalence

end Forwarded

namespace ProxyState
variable (st : ProxyState) (env : ProxyEnv)

/-- The request carries the session token, and its route leads to a listed host
and an address that is not private. -/
structure Authorised (f : Forwarded) : Prop where
  token : ∃ token text, st.sessionToken = some token ∧ token.length = 32 ∧
    f.request.findHeader sessionTokenHeader = some text ∧ hexPairs text = some token
  route : f.route ∈ st.credentialRoutes
  host : env.toLowercase f.route.host ∈ st.allowHosts
  resolved : ∃ addrs, env.lookupHost f.route.host f.route.port = some addrs ∧ f.address ∈ addrs
  routable : isPrivateIp f.address = false

variable {st env}

theorem token_of_carriesToken {request : ParsedRequest} (carries : st.carriesToken request = true) :
    ∃ token text, st.sessionToken = some token ∧ token.length = 32 ∧
      request.findHeader sessionTokenHeader = some text ∧ hexPairs text = some token := by
  unfold carriesToken at carries
  split at carries
  · rename_i token received known decoded
    obtain ⟨text, found, pairs⟩ := Option.bind_eq_some_iff.mp decoded
    simp only [Bool.and_eq_true, decide_eq_true_eq] at carries
    obtain ⟨length, rfl⟩ := carries
    exact ⟨received, text, known, length, found, pairs⟩
  · cases carries

theorem mem_resolveAndValidate {host : List Char} {port : Nat} {safe : List IpAddr}
    (resolved : resolveAndValidate env host port = some safe) {address : IpAddr} (member : address ∈ safe) :
    (∃ addrs, env.lookupHost host port = some addrs ∧ address ∈ addrs) ∧ isPrivateIp address = false := by
  obtain ⟨addrs, found, kept⟩ := Option.bind_eq_some_iff.mp resolved
  dsimp only at kept
  split_ifs at kept
  cases kept
  obtain ⟨known, routable⟩ := List.mem_filter.mp member
  refine ⟨⟨addrs, found, known⟩, ?_⟩
  simpa [isGloballyRoutable] using routable

/-- Everything that the steps before the first write have made sure of. -/
theorem handleReverseProxy_spec {request : ParsedRequest} {rest : List UInt8} {f : Forwarded}
    (forwarded : st.handleReverseProxy env request rest = some f) :
    f.request = request ∧ parseRoutePath f.request.target = some (f.route.name, f.restPath) ∧ st.Authorised env f := by
  unfold handleReverseProxy at forwarded
  split_ifs at forwarded with carries
  obtain ⟨⟨routeName, restPath⟩, path, forwarded⟩ := Option.bind_eq_some_iff.mp forwarded
  obtain ⟨route, found, forwarded⟩ := Option.bind_eq_some_iff.mp forwarded
  split_ifs at forwarded with listed
  obtain ⟨safe, resolved, forwarded⟩ := Option.bind_eq_some_iff.mp forwarded
  obtain ⟨address, reached, forwarded⟩ := Option.bind_eq_some_iff.mp forwarded
  split_ifs at forwarded
  cases forwarded
  have named : route.name = routeName := by
    simpa using List.find?_some found
  obtain ⟨addrs, routable⟩ := mem_resolveAndValidate resolved (List.mem_of_find?_eq_some reached)
  refine ⟨rfl, ?_, ?_⟩
  · rw [path, named]
  · constructor
    · exact token_of_carriesToken (by simpa using carries)
    · exact List.mem_of_find?_eq_some found
    · simpa using listed
    · exact addrs
    · exact routable

theorem handleConnection_spec {stream : List UInt8} {f : Forwarded} (forwarded : st.handleConnection env stream = some f) :
    (∀ header ∈ f.request.headers, HeaderShape header) ∧
      parseRoutePath f.request.target = some (f.route.name, f.restPath) ∧ st.Authorised env f := by
  unfold handleConnection at forwarded
  split at forwarded
  · cases forwarded
  · rename_i request rest read
    split_ifs at forwarded
    obtain ⟨same, path, authorised⟩ := handleReverseProxy_spec forwarded
    refine ⟨?_, path, authorised⟩
    rw [same]
    exact readHttpRequest_shape read

/-- Whatever the agent sends, what the proxy writes is the one request that it
is to write, for a request that is authorised, exactly when the route that it
takes and the request that it has read are clean. -/
theorem forwards_one_request (st : ProxyState) (env : ProxyEnv) (stream : List UInt8) :
    (∀ f, st.handleConnection env stream = some f → f.Conforms ∧ st.Authorised env f) ↔
      ∀ f, st.handleConnection env stream = some f → Forwarded.CleanRoute f.route ∧ f.CleanRequest := by
  constructor
  · intro holds f forwarded
    obtain ⟨shape, path, -⟩ := handleConnection_spec forwarded
    exact (holds f forwarded).1.clean shape path
  · intro clean f forwarded
    obtain ⟨shape, path, authorised⟩ := handleConnection_spec forwarded
    obtain ⟨route, request⟩ := clean f forwarded
    exact ⟨Forwarded.Conforms.of_clean shape path route request, authorised⟩

end ProxyState

/-! A route with a header of its own, and an agent that sends the same. -/

def customRoute : ResolvedCredentialRoute where
  name := "api".toList
  host := "api.example.com".toList
  port := 443
  basePath := []
  injectHeader := "X-Custom-Key".toList
  injectValue := "secret".toList

def customProxy : ProxyState where
  allowHosts := ["api.example.com".toList]
  sessionToken := some (List.replicate 32 0)
  credentialRoutes := [customRoute]
  accepted := by
    intro route member
    rw [List.mem_singleton.mp member]
    exact ⟨⟨"https://api.example.com", "X-Custom-Key", "\x7b\x7d", "env:KEY"⟩, "api", "secret", by decide, by decide⟩

def customEnv : ProxyEnv where
  toLowercase := lowerText
  lookupHost _ _ := some [.v4 93 184 216 34]
  reachable _ := true
  serverName _ := true
  handshake _ := true

def customStream : List UInt8 :=
  utf8 ("GET /api/v1 HTTP/1.1\r\nX-Gate-Token: ".toList ++ List.replicate 64 '0' ++
    "\r\nX-Custom-Key: mine\r\n\r\n".toList)

def customForwarded : Forwarded where
  request := { method := "GET".toList
               target := "/api/v1".toList
               headers := [("x-gate-token".toList, List.replicate 64 '0'), ("x-custom-key".toList, "mine".toList)] }
  rest := []
  route := customRoute
  restPath := "/v1".toList
  address := .v4 93 184 216 34

theorem customForwarded_eq : customProxy.handleConnection customEnv customStream = some customForwarded := by
  decide +kernel

/-- The agent's field stands beside the injected one. -/
theorem credential_sent_twice :
    customProxy.handleConnection customEnv customStream = some customForwarded ∧ ¬customForwarded.Conforms := by
  obtain ⟨shape, path, -⟩ := ProxyState.handleConnection_spec customForwarded_eq
  refine ⟨customForwarded_eq, ?_⟩
  intro conforms
  obtain ⟨-, request⟩ := conforms.clean shape path
  have member : ("x-custom-key".toList, "mine".toList) ∈ customForwarded.kept := by decide
  have alone := (request.headers _ member).2.2.1
  revert alone
  decide

end Sandbox
end Latchgate
