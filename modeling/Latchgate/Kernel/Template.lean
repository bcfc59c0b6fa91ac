import Latchgate.Manifest.Load

namespace Latchgate

inductive TemplateError where
  | unresolvedVariable (name : String)
  deriving DecidableEq

/-- The braces of the source's message are all escaped: the name of the
variable is not printed. -/
def TemplateError.display : TemplateError → String
  | unresolvedVariable _ =>
    "unresolved template variable '\x7b\x7b\x7b0\x7d\x7d\x7d' — not present in request body"

namespace Template

def trim (text : List Char) : List Char :=
  (text.dropWhile FsPath.isWhitespace).rdropWhile FsPath.isWhitespace

/-- The text before and behind the first doubled `brace`. -/
def splitMarker (brace : Char) : List Char → Option (List Char × List Char)
  | c :: d :: rest =>
    if c = brace ∧ d = brace then some ([], rest)
    else (splitMarker brace (d :: rest)).map fun (before, after) => (c :: before, after)
  | _ => none

theorem splitMarker_length {brace : Char} {text before after : List Char}
    (found : splitMarker brace text = some (before, after)) :
    before.length + after.length + 2 = text.length := by
  fun_induction splitMarker brace text generalizing before after with
  | case1 c d rest doubled =>
    cases found
    simp
  | case2 c d rest other ih =>
    obtain ⟨⟨inner, tail⟩, deeper, split⟩ := Option.map_eq_some_iff.mp found
    cases split
    have shorter := ih deeper
    simp only [List.length_cons] at shorter ⊢
    omega
  | case3 => cases found

/-- The top-level strings and numbers of a request body. -/
def extractVariables : Json → List (String × String)
  | .object fields => fields.filterMap fun (key, v) =>
    match v with
    | .string s => some (key, s)
    | .number n => some (key, n.text)
    | _ => none
  | _ => []

/-- The inside of a text that is nothing but one placeholder. -/
def singleVariable (text : List Char) : Option (List Char) :=
  let trimmed := trim text
  let inner := (trimmed.drop 2).take (trimmed.length - 4)
  if ['\x7b', '\x7b'].isPrefixOf trimmed ∧ ['\x7d', '\x7d'].isSuffixOf trimmed ∧
      splitMarker '\x7b' inner = none then some inner
  else none

def hexUpper (n : Nat) : Char :=
  (Nat.digitChar n).toUpper

def isUnreserved (c : Char) : Bool :=
  c.isAlphanum ∨ c ∈ ['-', '.', '_', '~']

def percentEncodePathSegment (text : String) : List Char :=
  text.toUTF8.data.toList.flatMap fun byte =>
    let c := Char.ofNat byte.toNat
    if isUnreserved c then [c]
    else ['%', hexUpper (byte.toNat / 16), hexUpper (byte.toNat % 16)]

def lookupVariable (vars : List (String × String)) (name : List Char) : Except TemplateError String :=
  let name := String.ofList (trim name)
  match vars.lookup name with
  | some value => .ok value
  | none => .error (.unresolvedVariable name)

def insertedText (urlEncode : Bool) (value : String) : List Char :=
  if urlEncode then percentEncodePathSegment value else value.toList

/-- Replaces every placeholder of a text, from left to right. -/
def resolveStringTemplate (vars : List (String × String)) (urlEncode : Bool) (rest : List Char) :
    Except TemplateError (List Char) :=
  match opening : splitMarker '\x7b' rest with
  | none => .ok rest
  | some (before, afterOpen) =>
    match closing : splitMarker '\x7d' afterOpen with
    | none => .error (.unresolvedVariable "unclosed \x7b\x7b")
    | some (name, after) => do
      let value ← lookupVariable vars name
      have : after.length < rest.length := by
        have first := splitMarker_length opening
        have second := splitMarker_length closing
        omega
      let others ← resolveStringTemplate vars urlEncode after
      .ok (before ++ insertedText urlEncode value ++ others)
termination_by rest.length

section

variable {vars : List (String × String)} {urlEncode : Bool} {rest before afterOpen name after : List Char}

theorem resolveStringTemplate_plain (opening : splitMarker '\x7b' rest = none) :
    resolveStringTemplate vars urlEncode rest = .ok rest := by
  rw [resolveStringTemplate]
  split
  · rfl
  · simp_all

theorem resolveStringTemplate_placeholder
    (opening : splitMarker '\x7b' rest = some (before, afterOpen))
    (closing : splitMarker '\x7d' afterOpen = some (name, after)) :
    resolveStringTemplate vars urlEncode rest =
      lookupVariable vars name >>= fun value =>
        resolveStringTemplate vars urlEncode after >>= fun others =>
          .ok (before ++ insertedText urlEncode value ++ others) := by
  rw [resolveStringTemplate]
  split
  next absent => simp_all
  next start inside present =>
    obtain ⟨rfl, rfl⟩ := Prod.mk.inj (Option.some.inj (opening.symm.trans present))
    split
    next absent => simp_all
    next word others closed =>
      obtain ⟨rfl, rfl⟩ := Prod.mk.inj (Option.some.inj (closing.symm.trans closed))
      rfl

end

/-- `parse` is the JSON parser, asked whether the text of a variable is a
document of its own. -/
def resolveStringValue (parse : String → Option Json) (vars : List (String × String)) (text : String) :
    Except TemplateError Json :=
  match singleVariable text.toList with
  | some name => do
    let raw ← lookupVariable vars name
    .ok ((parse raw).getD (.string raw))
  | none =>
    if (splitMarker '\x7b' text.toList).isSome then
      (resolveStringTemplate vars false text.toList).map fun s => .string (String.ofList s)
    else .ok (.string text)

mutual

def resolveValueTemplate (parse : String → Option Json) (vars : List (String × String)) :
    Json → Except TemplateError Json
  | .string text => resolveStringValue parse vars text
  | .object fields => (resolveFields parse vars fields).map .object
  | .array items => (resolveItems parse vars items).map .array
  | .null => .ok .null
  | .bool b => .ok (.bool b)
  | .number n => .ok (.number n)

def resolveItems (parse : String → Option Json) (vars : List (String × String)) :
    List Json → Except TemplateError (List Json)
  | [] => .ok []
  | v :: rest => do
    let w ← resolveValueTemplate parse vars v
    let others ← resolveItems parse vars rest
    .ok (w :: others)

def resolveFields (parse : String → Option Json) (vars : List (String × String)) :
    List (String × Json) → Except TemplateError (List (String × Json))
  | [] => .ok []
  | (key, v) :: rest => do
    let w ← resolveValueTemplate parse vars v
    let others ← resolveFields parse vars rest
    .ok ((key, w) :: others)

end

def resolveBody (parse : String → Option Json) (vars : List (String × String)) :
    Option Json → Except TemplateError (List (String × Json))
  | some template => (resolveValueTemplate parse vars template).map fun body => [("body", body)]
  | none => .ok []

/-- The request that the built-in HTTP provider is handed. A URL that is one
placeholder is inserted as it stands, any other value is encoded. -/
def resolveTemplate (parse : String → Option Json) (template : TemplateConfig) (requestBody : Json) :
    Except TemplateError Json := do
  let vars := extractVariables requestBody
  let url := template.urlTemplate.toList
  let urlIsSingleVar := (singleVariable url).isSome
  let url ← resolveStringTemplate vars (!urlIsSingleVar) url
  let body ← resolveBody parse vars template.bodyTemplate
  .ok (.object (body ++
    [("headers", Json.ofFields (template.headers.map fun (name, value) => (name, .string value))),
      ("method", .string (toAsciiUppercase template.method)),
      ("url", .string (String.ofList url))]))

end Template
end Latchgate
