import Mathlib.Data.List.DropRight
import Mathlib.Data.List.Basic

/-! HTTP/1.1 requests as a strict server reads them: nothing but what the
grammar of RFC 9112 allows, and nothing before or after the one request. -/

namespace Http

/-! Bytes. -/

def isDigit (b : UInt8) : Bool :=
  48 ≤ b && b ≤ 57

def isAlpha (b : UInt8) : Bool :=
  (65 ≤ b && b ≤ 90) || (97 ≤ b && b ≤ 122)

def isHex (b : UInt8) : Bool :=
  isDigit b || (65 ≤ b && b ≤ 70) || (97 ≤ b && b ≤ 102)

/-- The bytes of a token. -/
def isTchar (b : UInt8) : Bool :=
  isDigit b || isAlpha b || b ∈ [33, 35, 36, 37, 38, 39, 42, 43, 45, 46, 94, 95, 96, 124, 126]

def isOws (b : UInt8) : Bool :=
  b = 32 || b = 9

/-- Visible bytes, blanks and tabs, and everything above ASCII. -/
def isFieldByte (b : UInt8) : Bool :=
  b = 9 || (32 ≤ b && b ≤ 126) || 128 ≤ b

/-- `unreserved / sub-delims` of a URI. -/
def isUriByte (b : UInt8) : Bool :=
  isDigit b || isAlpha b || b ∈ [33, 36, 38, 39, 40, 41, 42, 43, 44, 45, 46, 59, 61, 95, 126]

def isToken (bytes : List UInt8) : Bool :=
  bytes ≠ [] && bytes.all isTchar

/-- Segments and a query: a percent sign stands before two digits. -/
def isPathRest : List UInt8 → Bool
  | [] => true
  | 37 :: a :: b :: rest => isHex a && isHex b && isPathRest rest
  | b :: rest => (isUriByte b || b ∈ [58, 64, 47, 63]) && isPathRest rest

/-- A target in origin form. The other forms do not begin with a slash. -/
def isOriginForm : List UInt8 → Bool
  | 47 :: rest => isPathRest rest
  | _ => false

/-- The bytes of a host and a port. -/
def isHostValue (bytes : List UInt8) : Bool :=
  bytes.all fun b => isUriByte b || b ∈ [37, 58, 91, 93]

def lower (b : UInt8) : UInt8 :=
  if 65 ≤ b && b ≤ 90 then b + 32 else b

/-- Field names are compared without their case. -/
def alike (name other : List UInt8) : Bool :=
  name.map lower = other.map lower

def trimOws (bytes : List UInt8) : List UInt8 :=
  (bytes.dropWhile isOws).rdropWhile isOws

/-- What a field can have as its value. -/
def isFieldValue (bytes : List UInt8) : Bool :=
  bytes.all isFieldByte && trimOws bytes = bytes

def natOf (digits : List UInt8) : Nat :=
  digits.foldl (fun n b => n * 10 + (b.toNat - 48)) 0

def isLength (bytes : List UInt8) : Bool :=
  bytes ≠ [] && bytes.all isDigit

/-! Lines. -/

def crlf : List UInt8 :=
  [13, 10]

/-- The bytes before the first line end, and those after it. -/
def splitLine : List UInt8 → Option (List UInt8 × List UInt8)
  | [] => none
  | 13 :: 10 :: rest => some ([], rest)
  | b :: rest => do
    let (line, tail) ← splitLine rest
    some (b :: line, tail)

/-- The lines before the first empty one, and the bytes after it. -/
def headLines : Nat → List UInt8 → Option (List (List UInt8) × List UInt8)
  | 0, _ => none
  | fuel + 1, bytes => do
    let (line, rest) ← splitLine bytes
    if line = [] then some ([], rest)
    else
      let (lines, tail) ← headLines fuel rest
      some (line :: lines, tail)

/-- The bytes before the first separator, and those after it. -/
def splitOn (sep : UInt8) : List UInt8 → Option (List UInt8 × List UInt8)
  | [] => none
  | b :: rest =>
    if b = sep then some ([], rest)
    else do
      let (first, tail) ← splitOn sep rest
      some (b :: first, tail)

structure Field where
  name : List UInt8
  value : List UInt8
  deriving DecidableEq

structure Message where
  method : List UInt8
  target : List UInt8
  fields : List Field
  body : List UInt8
  deriving DecidableEq

def version : List UInt8 :=
  [72, 84, 84, 80, 47, 49, 46, 49]

def parseRequestLine (line : List UInt8) : Option (List UInt8 × List UInt8) := do
  let (method, rest) ← splitOn 32 line
  let (target, last) ← splitOn 32 rest
  if isToken method && isOriginForm target && last = version then some (method, target) else none

def parseField (line : List UInt8) : Option Field := do
  let (name, rest) ← splitOn 58 line
  if isToken name && (trimOws rest).all isFieldByte then some ⟨name, trimOws rest⟩ else none

/-- The values of the fields under a name. -/
def values (name : List UInt8) (fields : List Field) : List (List UInt8) :=
  (fields.filter fun field => alike field.name name).map Field.value

/-! Bodies. -/

def hexOf (digits : List UInt8) : Nat :=
  digits.foldl (fun n b => n * 16 + (if isDigit b then b.toNat - 48 else (lower b).toNat - 87)) 0

/-- The data of a chunked body, and the bytes after it. Extensions and
trailers are skipped. -/
def chunkedBody : Nat → List UInt8 → Option (List UInt8 × List UInt8)
  | 0, _ => none
  | fuel + 1, bytes => do
    let (line, rest) ← splitLine bytes
    let size := line.takeWhile isHex
    if size = [] then none
    else if hexOf size = 0 then do
      let (_, tail) ← headLines (rest.length + 1) rest
      some ([], tail)
    else if rest.length < hexOf size + 2 ∨ (rest.drop (hexOf size)).take 2 ≠ crlf then none
    else do
      let (data, tail) ← chunkedBody fuel (rest.drop (hexOf size + 2))
      some (rest.take (hexOf size) ++ data, tail)

def nameHost : List UInt8 := [104, 111, 115, 116]

/-- `transfer-encoding`. -/
def nameTransferEncoding : List UInt8 :=
  [116, 114, 97, 110, 115, 102, 101, 114, 45, 101, 110, 99, 111, 100, 105, 110, 103]

/-- `content-length`. -/
def nameContentLength : List UInt8 :=
  [99, 111, 110, 116, 101, 110, 116, 45, 108, 101, 110, 103, 116, 104]

/-- `chunked`. -/
def codingChunked : List UInt8 :=
  [99, 104, 117, 110, 107, 101, 100]

/-- The body that the fields delimit at the front of the bytes, and the bytes
after it. A message with both a coding and a length, with two lengths, or with
a coding that does not end in chunks is refused. -/
def delimit (fields : List Field) (bytes : List UInt8) : Option (List UInt8 × List UInt8) :=
  match values nameTransferEncoding fields, values nameContentLength fields with
  | [], [] => some ([], bytes)
  | [], [length] =>
    if isLength length ∧ natOf length ≤ bytes.length then
      some (bytes.take (natOf length), bytes.drop (natOf length))
    else none
  | coding :: codings, [] =>
    if codingChunked.isSuffixOf (((coding :: codings).getLast (by simp)).map lower) then
      chunkedBody (bytes.length + 1) bytes
    else none
  | _, _ => none

/-- The request with the given lines, when nothing follows its body. -/
def parseLines (lines : List (List UInt8)) (rest : List UInt8) : Option Message :=
  match lines with
  | [] => none
  | first :: others => do
    let (method, target) ← parseRequestLine first
    let fields ← others.mapM parseField
    let (body, more) ← delimit fields rest
    match values nameHost fields with
    | [host] => if isHostValue host && more = [] then some ⟨method, target, fields, body⟩ else none
    | _ => none

/-- Exactly one request. -/
def parse (bytes : List UInt8) : Option Message := do
  let (lines, rest) ← headLines (bytes.length + 1) bytes
  parseLines lines rest

/-! Writing lines and reading them back. -/

/-- A head of the given lines, and what follows it. -/
def render (lines : List (List UInt8)) (rest : List UInt8) : List UInt8 :=
  lines.flatMap (fun line => line ++ crlf) ++ (crlf ++ rest)

theorem splitLine_cons {b : UInt8} {rest : List UInt8} (notFeed : rest.head? ≠ some 10) :
    splitLine (b :: rest) = (splitLine rest).bind fun split => some (b :: split.1, split.2) := by
  rw [splitLine]
  · rfl
  · rintro tail rfl rfl
    exact notFeed rfl

theorem splitLine_append {line : List UInt8} (clean : 10 ∉ line) (rest : List UInt8) :
    splitLine (line ++ (crlf ++ rest)) = some (line, rest) := by
  induction line with
  | nil => rfl
  | cons b line ih =>
    have notFeed : (line ++ (crlf ++ rest)).head? ≠ some 10 := by
      cases line with
      | nil => simp [crlf]
      | cons c line =>
        have differs : c ≠ 10 := by
          rintro rfl
          exact clean (by simp)
        simpa using differs
    rw [List.cons_append, splitLine_cons notFeed, ih fun member => clean (List.mem_cons_of_mem _ member)]
    rfl

theorem render_cons (line : List UInt8) (lines : List (List UInt8)) (rest : List UInt8) :
    render (line :: lines) rest = line ++ (crlf ++ render lines rest) := by
  simp [render]

theorem headLines_render {lines : List (List UInt8)} (clean : ∀ line ∈ lines, 10 ∉ line ∧ line ≠ [])
    (rest : List UInt8) {fuel : Nat} (enough : lines.length < fuel) :
    headLines fuel (render lines rest) = some (lines, rest) := by
  induction lines generalizing fuel with
  | nil =>
    cases fuel with
    | zero => simp at enough
    | succ fuel => rfl
  | cons line lines ih =>
    cases fuel with
    | zero => simp at enough
    | succ fuel =>
      obtain ⟨oneLine, present⟩ := clean line List.mem_cons_self
      have later := ih (fun line member => clean line (List.mem_cons_of_mem _ member)) (by simpa using enough)
      rw [headLines, render_cons, splitLine_append oneLine]
      simp only [bind, Option.bind_some, if_neg present, later]

theorem length_le_render (lines : List (List UInt8)) (rest : List UInt8) : lines.length ≤ (render lines rest).length := by
  induction lines with
  | nil => simp
  | cons line lines ih =>
    rw [render_cons]
    simp only [List.length_cons, List.length_append, crlf]
    omega

theorem splitOn_eq_some {sep : UInt8} {bytes first rest : List UInt8} :
    splitOn sep bytes = some (first, rest) ↔ bytes = first ++ sep :: rest ∧ sep ∉ first := by
  induction bytes generalizing first with
  | nil => simp [splitOn]
  | cons b bytes ih =>
    rw [splitOn]
    split_ifs with same
    · subst same
      constructor
      · rintro ⟨⟩
        exact ⟨rfl, by simp⟩
      · rintro ⟨split, clean⟩
        cases first with
        | nil => simpa using split
        | cons c first =>
          obtain ⟨rfl, -⟩ := List.cons.inj split
          exact absurd List.mem_cons_self clean
    · constructor
      · intro found
        obtain ⟨⟨inner, tail⟩, here, same⟩ := Option.bind_eq_some_iff.mp found
        cases same
        obtain ⟨rfl, clean⟩ := ih.mp here
        refine ⟨rfl, ?_⟩
        simp only [List.mem_cons, not_or]
        exact ⟨fun equal => same equal.symm, clean⟩
      · rintro ⟨split, clean⟩
        cases first with
        | nil =>
          obtain ⟨rfl, -⟩ := List.cons.inj split
          exact absurd rfl same
        | cons c first =>
          obtain ⟨rfl, tail⟩ := List.cons.inj split
          have here := ih.mpr ⟨tail, fun member => clean (List.mem_cons_of_mem _ member)⟩
          simp [here]

theorem splitOn_append {sep : UInt8} {first : List UInt8} (clean : sep ∉ first) (rest : List UInt8) :
    splitOn sep (first ++ sep :: rest) = some (first, rest) :=
  splitOn_eq_some.2 ⟨rfl, clean⟩

/-! What can stand in the parts. -/

theorem not_mem_of_all {p : UInt8 → Bool} {bytes : List UInt8} (all : bytes.all p = true) {b : UInt8}
    (excluded : p b = false) : b ∉ bytes := by
  intro member
  have held := List.all_eq_true.mp all b member
  rw [excluded] at held
  cases held

theorem not_mem_token {bytes : List UInt8} (token : isToken bytes = true) {b : UInt8} (excluded : isTchar b = false) :
    b ∉ bytes := by
  simp only [isToken, Bool.and_eq_true] at token
  exact not_mem_of_all token.2 excluded

theorem isPathRest_visible {bytes : List UInt8} (path : isPathRest bytes = true) :
    ∀ b ∈ bytes, b ≠ 10 ∧ b ≠ 32 := by
  fun_induction isPathRest bytes with
  | case1 => simp
  | case2 a b rest ih =>
    simp only [Bool.and_eq_true] at path
    intro c member
    simp only [List.mem_cons] at member
    rcases member with rfl | rfl | rfl | later
    · decide
    · constructor <;> (rintro rfl; simp [isHex, isDigit] at path)
    · constructor <;> (rintro rfl; simp [isHex, isDigit] at path)
    · exact ih path.2 c later
  | case3 b rest _ ih =>
    simp only [Bool.and_eq_true] at path
    intro c member
    rcases List.mem_cons.mp member with rfl | later
    · constructor <;> (rintro rfl; simp [isUriByte, isDigit, isAlpha] at path)
    · exact ih path.2 c later

theorem isOriginForm_visible {bytes : List UInt8} (origin : isOriginForm bytes = true) :
    ∀ b ∈ bytes, b ≠ 10 ∧ b ≠ 32 := by
  cases bytes with
  | nil => simp
  | cons first rest =>
    unfold isOriginForm at origin
    split at origin
    · rename_i same
      cases same
      intro b member
      rcases List.mem_cons.mp member with rfl | later
      · decide
      · exact isPathRest_visible origin b later
    · cases origin

theorem parse_render {lines : List (List UInt8)} (clean : ∀ line ∈ lines, 10 ∉ line ∧ line ≠ [])
    (rest : List UInt8) : parse (render lines rest) = parseLines lines rest := by
  have enough : lines.length < (render lines rest).length + 1 := Nat.lt_succ_of_le (length_le_render lines rest)
  rw [parse, headLines_render clean rest enough]
  rfl

theorem trimOws_cons {b : UInt8} (blank : isOws b = true) (bytes : List UInt8) :
    trimOws (b :: bytes) = trimOws bytes := by
  rw [trimOws, List.dropWhile_cons_of_pos blank, trimOws]

theorem mem_of_mem_trimOws {b : UInt8} {bytes : List UInt8} (member : b ∈ trimOws bytes) : b ∈ bytes :=
  (List.dropWhile_sublist _).subset ((List.rdropWhile_prefix _ _).subset member)

/-- Nothing is left to drop in front of what was trimmed on both sides. -/
theorem dropWhile_trimmed {α : Type} (p : α → Bool) (items : List α) :
    ((items.dropWhile p).rdropWhile p).dropWhile p = (items.dropWhile p).rdropWhile p := by
  cases trimmed : (items.dropWhile p).rdropWhile p with
  | nil => rfl
  | cons a rest =>
    have before : a :: rest <+: items.dropWhile p := trimmed ▸ List.rdropWhile_prefix _ _
    obtain ⟨tail, split⟩ := before
    have first : p a = false := by
      have head := List.head?_dropWhile_not p items
      rw [← split] at head
      simpa using head
    rw [List.dropWhile_cons_of_neg (by simp [first])]

theorem trimmed_eq_self {α : Type} {p : α → Bool} {items : List α} (plain : ∀ a ∈ items, p a = false) :
    (items.dropWhile p).rdropWhile p = items := by
  have front : items.dropWhile p = items := by
    rw [List.dropWhile_eq_self_iff]
    intro present
    simpa using plain _ (List.getElem_mem present)
  rw [front, List.rdropWhile_eq_self_iff]
  intro present
  simpa using plain _ (List.getLast_mem present)

theorem trimOws_trimOws (bytes : List UInt8) : trimOws (trimOws bytes) = trimOws bytes := by
  have kept : (trimOws bytes).dropWhile isOws = trimOws bytes := dropWhile_trimmed isOws bytes
  rw [trimOws, kept]
  exact List.rdropWhile_idempotent _ _

theorem isTchar_lower (b : UInt8) : isTchar (lower b) = isTchar b := by
  have each : ∀ n : Fin 256, isTchar (lower (UInt8.ofNat n)) = isTchar (UInt8.ofNat n) := by decide +kernel
  have same := each ⟨b.toNat, b.toNat_lt⟩
  simpa using same

theorem isToken_of_alike {name other : List UInt8} (same : alike name other = true) (token : isToken name = true) :
    isToken other = true := by
  rw [alike, decide_eq_true_eq] at same
  simp only [isToken, Bool.and_eq_true, decide_eq_true_eq] at token ⊢
  have tchars : (fun b => isTchar (lower b)) = isTchar := funext isTchar_lower
  have kept : ∀ bytes : List UInt8, (bytes.map lower).all isTchar = bytes.all isTchar := by
    intro bytes
    rw [List.all_map]
    exact congrArg bytes.all tchars
  refine ⟨?_, ?_⟩
  · rintro rfl
    simp at same
    exact token.1 same
  · rw [← kept other, ← same, kept name]
    exact token.2

theorem isHostValue_plain {bytes : List UInt8} (host : isHostValue bytes = true) :
    10 ∉ bytes ∧ bytes.all isFieldByte = true ∧ trimOws bytes = bytes := by
  have each : ∀ n : Fin 256, let b := UInt8.ofNat n
      (isUriByte b || b ∈ [37, 58, 91, 93]) = true → isFieldByte b = true ∧ isOws b = false := by decide +kernel
  have bytesPlain : ∀ b ∈ bytes, isFieldByte b = true ∧ isOws b = false := by
    intro b member
    have held := List.all_eq_true.mp host b member
    have plain := each ⟨b.toNat, b.toNat_lt⟩
    simp only [UInt8.ofNat_toNat] at plain
    exact plain held
  have fields : bytes.all isFieldByte = true := List.all_eq_true.mpr fun b member => (bytesPlain b member).1
  exact ⟨not_mem_of_all fields rfl, fields, trimmed_eq_self fun b member => (bytesPlain b member).2⟩

/-- A field as it is written. -/
def fieldLine (field : Field) : List UInt8 :=
  field.name ++ 58 :: 32 :: field.value

def requestLine (method target : List UInt8) : List UInt8 :=
  method ++ 32 :: (target ++ 32 :: version)

theorem fieldLine_oneLine {field : Field} (name : 10 ∉ field.name) (value : 10 ∉ field.value) :
    10 ∉ fieldLine field ∧ fieldLine field ≠ [] := by
  simp [fieldLine, name, value]

theorem requestLine_oneLine {method target : List UInt8} (token : isToken method = true)
    (origin : isOriginForm target = true) : 10 ∉ requestLine method target ∧ requestLine method target ≠ [] := by
  have first : 10 ∉ method := not_mem_token token rfl
  have second : 10 ∉ target := fun member => (isOriginForm_visible origin 10 member).1 rfl
  simp [requestLine, first, second, version]

theorem parseRequestLine_eq_some {line method target : List UInt8} :
    parseRequestLine line = some (method, target) ↔
      line = requestLine method target ∧ isToken method = true ∧ isOriginForm target = true := by
  constructor
  · intro parsed
    obtain ⟨⟨m, rest⟩, first, parsed⟩ := Option.bind_eq_some_iff.mp parsed
    obtain ⟨⟨t, last⟩, second, parsed⟩ := Option.bind_eq_some_iff.mp parsed
    dsimp only at first second parsed
    split_ifs at parsed with good
    cases parsed
    obtain ⟨rfl, -⟩ := splitOn_eq_some.1 first
    obtain ⟨rfl, -⟩ := splitOn_eq_some.1 second
    simp only [Bool.and_eq_true, decide_eq_true_eq] at good
    exact ⟨by rw [good.2]; rfl, good.1⟩
  · rintro ⟨rfl, token, origin⟩
    have noBlank : 32 ∉ method := not_mem_token token rfl
    have noBlank' : 32 ∉ target := fun member => (isOriginForm_visible origin 32 member).2 rfl
    simp [parseRequestLine, requestLine, splitOn_append noBlank, splitOn_append noBlank', token, origin]

theorem parseField_eq_some {line : List UInt8} {field : Field} :
    parseField line = some field ↔ ∃ rest, line = field.name ++ 58 :: rest ∧ isToken field.name = true ∧
      field.value = trimOws rest ∧ field.value.all isFieldByte = true := by
  constructor
  · intro parsed
    obtain ⟨⟨name, rest⟩, first, parsed⟩ := Option.bind_eq_some_iff.mp parsed
    dsimp only at first parsed
    split_ifs at parsed with good
    cases parsed
    simp only [Bool.and_eq_true] at good
    exact ⟨rest, (splitOn_eq_some.1 first).1, good.1, rfl, good.2⟩
  · obtain ⟨name, value⟩ := field
    dsimp only
    rintro ⟨rest, rfl, token, rfl, plain⟩
    have noColon : 58 ∉ name := not_mem_token token rfl
    simp only [parseField, splitOn_append noColon, Option.bind_eq_bind, Option.bind_some, token, plain, Bool.and_self,
      if_true]

/-- The line of a field is read as that field, with its value trimmed. -/
theorem parseField_fieldLine {field parsed : Field} (noColon : 58 ∉ field.name) :
    parseField (fieldLine field) = some parsed ↔ isToken field.name = true ∧
      (trimOws field.value).all isFieldByte = true ∧ parsed = ⟨field.name, trimOws field.value⟩ := by
  have split := splitOn_append noColon (32 :: field.value)
  simp only [parseField, fieldLine, split, Option.bind_eq_bind, Option.bind_some, trimOws_cons (show isOws 32 = true from rfl)]
  split_ifs with good
  · simp only [Bool.and_eq_true] at good
    simp [good, eq_comm]
  · simp only [Bool.and_eq_true, not_and] at good
    constructor
    · rintro ⟨⟩
    · rintro ⟨token, plain, -⟩
      exact absurd plain (good token)

/-- Lines that are read one by one are read as a list. -/
theorem mapM_eq_some_iff {α β γ : Type} {line : α → β} {read : β → Option γ} {good : α → Prop} {made : α → γ}
    {items : List α} (each : ∀ a ∈ items, ∀ c, read (line a) = some c ↔ good a ∧ c = made a) {result : List γ} :
    (items.map line).mapM read = some result ↔ (∀ a ∈ items, good a) ∧ result = items.map made := by
  induction items generalizing result with
  | nil => simp [eq_comm]
  | cons a items ih =>
    have later := @ih fun b member => each b (List.mem_cons_of_mem _ member)
    have here := each a List.mem_cons_self
    rw [List.map_cons, List.mapM_cons]
    constructor
    · intro parsed
      obtain ⟨c, first, parsed⟩ := Option.bind_eq_some_iff.mp parsed
      obtain ⟨rest, others, same⟩ := Option.bind_eq_some_iff.mp parsed
      cases same
      obtain ⟨good', rfl⟩ := (here c).mp first
      obtain ⟨all, rfl⟩ := later.1 others
      exact ⟨List.forall_mem_cons.mpr ⟨good', all⟩, rfl⟩
    · rintro ⟨all, rfl⟩
      obtain ⟨good', others⟩ := List.forall_mem_cons.mp all
      rw [(here (made a)).mpr ⟨good', rfl⟩, later.2 ⟨others, rfl⟩]
      rfl

theorem exists_of_mem_mapM {β γ : Type} {read : β → Option γ} {lines : List β} {result : List γ}
    (parsed : lines.mapM read = some result) {c : γ} (member : c ∈ result) : ∃ b ∈ lines, read b = some c := by
  induction lines generalizing result with
  | nil =>
    cases parsed
    cases member
  | cons b lines ih =>
    rw [List.mapM_cons] at parsed
    obtain ⟨d, first, parsed⟩ := Option.bind_eq_some_iff.mp parsed
    obtain ⟨rest, others, same⟩ := Option.bind_eq_some_iff.mp parsed
    cases same
    rcases List.mem_cons.mp member with rfl | later
    · exact ⟨b, List.mem_cons_self, first⟩
    · obtain ⟨source, known, one⟩ := ih others later
      exact ⟨source, List.mem_cons_of_mem _ known, one⟩

theorem parseLines_eq_some {first : List UInt8} {others : List (List UInt8)} {rest : List UInt8} {msg : Message} :
    parseLines (first :: others) rest = some msg ↔
      parseRequestLine first = some (msg.method, msg.target) ∧ others.mapM parseField = some msg.fields ∧
        (∃ host, values nameHost msg.fields = [host] ∧ isHostValue host = true) ∧
        delimit msg.fields rest = some (msg.body, []) := by
  constructor
  · intro parsed
    obtain ⟨⟨method, target⟩, line, parsed⟩ := Option.bind_eq_some_iff.mp parsed
    obtain ⟨fields, lines, parsed⟩ := Option.bind_eq_some_iff.mp parsed
    obtain ⟨⟨body, more⟩, framed, parsed⟩ := Option.bind_eq_some_iff.mp parsed
    dsimp only at parsed
    split at parsed
    · rename_i host one
      split_ifs at parsed with good
      cases parsed
      simp only [Bool.and_eq_true, decide_eq_true_eq] at good
      obtain ⟨valid, rfl⟩ := good
      exact ⟨line, lines, ⟨host, one, valid⟩, framed⟩
    · cases parsed
  · rintro ⟨line, lines, ⟨host, one, valid⟩, framed⟩
    simp [parseLines, line, lines, framed, one, valid]

/-- Without codings, a body is cut off by the one length that there is. -/
theorem delimit_plain {fields : List Field} (plain : values nameTransferEncoding fields = [])
    (bytes : List UInt8) : delimit fields bytes = match values nameContentLength fields with
      | [] => some ([], bytes)
      | [length] => if isLength length ∧ natOf length ≤ bytes.length then
          some (bytes.take (natOf length), bytes.drop (natOf length)) else none
      | _ => none := by
  rw [delimit, plain]
  rcases values nameContentLength fields with _ | ⟨length, _ | ⟨_, _⟩⟩ <;> rfl

/-- What is accepted is well formed. -/
theorem parse_wellFormed {bytes : List UInt8} {msg : Message} (parsed : parse bytes = some msg) :
    isToken msg.method = true ∧ isOriginForm msg.target = true ∧
      (∀ field ∈ msg.fields, isToken field.name = true ∧ isFieldValue field.value = true) ∧
      ∃ host, values nameHost msg.fields = [host] ∧ isHostValue host = true := by
  obtain ⟨⟨lines, rest⟩, -, parsed⟩ := Option.bind_eq_some_iff.mp parsed
  cases lines with
  | nil => cases parsed
  | cons first others =>
    obtain ⟨line, lines, host, -⟩ := parseLines_eq_some.1 parsed
    obtain ⟨-, token, origin⟩ := parseRequestLine_eq_some.1 line
    refine ⟨token, origin, ?_, host⟩
    intro field member
    obtain ⟨source, -, one⟩ := exists_of_mem_mapM lines member
    obtain ⟨tail, -, name, trimmed, plain⟩ := parseField_eq_some.1 one
    refine ⟨name, ?_⟩
    rw [isFieldValue, plain, trimmed, trimOws_trimOws]
    simp

end Http
