import Latchgate.Json.Reparse
import Latchgate.Kernel.Template

namespace Latchgate
namespace Template

/-! Templates as what they are made of. -/

inductive Part where
  | char (c : Char)
  | placeholder (name : List Char)
  deriving DecidableEq

theorem after_shorter {text before afterOpen name after : List Char} (opening : splitMarker '\x7b' text = some (before, afterOpen))
    (closing : splitMarker '\x7d' afterOpen = some (name, after)) : after.length < text.length := by
  have first := splitMarker_length opening
  have second := splitMarker_length closing
  omega

/-- The characters and the placeholders of a text, unless a marker is not
closed. -/
def parts (text : List Char) : Option (List Part) :=
  match opening : splitMarker '\x7b' text with
  | none => some (text.map .char)
  | some (before, afterOpen) =>
    match closing : splitMarker '\x7d' afterOpen with
    | none => none
    | some (name, after) =>
      have : after.length < text.length := after_shorter opening closing
      (parts after).map fun rest => before.map .char ++ .placeholder name :: rest
termination_by text.length

section Scan
variable {text before afterOpen name after : List Char}

theorem parts_plain (opening : splitMarker '\x7b' text = none) : parts text = some (text.map .char) := by
  rw [parts]
  split
  · rfl
  · rename_i present
    rw [opening] at present
    cases present

theorem parts_unclosed (opening : splitMarker '\x7b' text = some (before, afterOpen))
    (closing : splitMarker '\x7d' afterOpen = none) : parts text = none := by
  rw [parts]
  split
  · rename_i absent
    rw [opening] at absent
    cases absent
  · rename_i present
    rw [opening] at present
    cases present
    split
    · rfl
    · rename_i closed
      rw [closing] at closed
      cases closed

theorem parts_placeholder (opening : splitMarker '\x7b' text = some (before, afterOpen))
    (closing : splitMarker '\x7d' afterOpen = some (name, after)) :
    parts text = (parts after).map fun rest => before.map .char ++ .placeholder name :: rest := by
  rw [parts]
  split
  · rename_i absent
    rw [opening] at absent
    cases absent
  · rename_i present
    rw [opening] at present
    cases present
    split
    · rename_i unclosed
      rw [closing] at unclosed
      cases unclosed
    · rename_i closed
      rw [closing] at closed
      cases closed
      rfl

theorem resolveStringTemplate_unclosed {vars : List (String × String)} {urlEncode : Bool}
    (opening : splitMarker '\x7b' text = some (before, afterOpen)) (closing : splitMarker '\x7d' afterOpen = none) :
    resolveStringTemplate vars urlEncode text = .error (.unresolvedVariable "unclosed \x7b\x7b") := by
  rw [resolveStringTemplate]
  split
  · rename_i absent
    rw [opening] at absent
    cases absent
  · rename_i present
    rw [opening] at present
    cases present
    split
    · rfl
    · rename_i closed
      rw [closing] at closed
      cases closed

end Scan

section Resolution
variable (vars : List (String × String)) (urlEncode : Bool)

def valueOf (name : List Char) : Option String :=
  vars.lookup (String.ofList (trim name))

/-- What stands in the result for a part of the template. -/
def Part.render : Part → List Char
  | char c => [c]
  | placeholder name => insertedText urlEncode ((valueOf vars name).getD "")

def Supplied (parts : List Part) : Prop :=
  ∀ name, .placeholder name ∈ parts → ∃ value, valueOf vars name = some value

/-- A marker is not closed or a placeholder has no value. -/
def Fails (text : List Char) : Prop :=
  ∀ ps, parts text = some ps → ¬Supplied vars ps

variable {vars urlEncode}

theorem lookupVariable_eq_ok {name : List Char} {value : String} :
    lookupVariable vars name = .ok value ↔ valueOf vars name = some value := by
  unfold lookupVariable valueOf
  dsimp only
  cases vars.lookup (String.ofList (trim name)) <;> simp

theorem render_chars (text : List Char) : (text.map Part.char).flatMap (Part.render vars urlEncode) = text := by
  induction text with
  | nil => rfl
  | cons c text ih => rw [List.map_cons, List.flatMap_cons, ih]; rfl

theorem supplied_chars (text : List Char) : Supplied vars (text.map Part.char) := by
  intro name member
  obtain ⟨c, -, same⟩ := List.mem_map.mp member
  cases same

theorem supplied_placeholder {before name : List Char} {ps : List Part} :
    Supplied vars (before.map .char ++ .placeholder name :: ps) ↔ (∃ value, valueOf vars name = some value) ∧ Supplied vars ps := by
  constructor
  · intro supplied
    exact ⟨supplied name (List.mem_append_right _ List.mem_cons_self),
      fun other member => supplied other (List.mem_append_right _ (List.mem_cons_of_mem _ member))⟩
  · rintro ⟨own, later⟩ other member
    rcases List.mem_append.mp member with first | rest
    · exact supplied_chars before other first
    · rcases List.mem_cons.mp rest with same | behind
      · cases same
        exact own
      · exact later other behind

/-- A text is resolved part by part, where all of its placeholders have values.
What is put in for one is not looked at again. -/
theorem resolveStringTemplate_eq_ok {text result : List Char} :
    resolveStringTemplate vars urlEncode text = .ok result ↔
      ∃ ps, parts text = some ps ∧ Supplied vars ps ∧ result = ps.flatMap (Part.render vars urlEncode) := by
  induction size : text.length using Nat.strongRecOn generalizing text result with
  | _ n ih =>
    cases opening : splitMarker '\x7b' text with
    | none =>
      rw [resolveStringTemplate_plain opening, parts_plain opening]
      constructor
      · intro same
        cases same
        exact ⟨_, rfl, supplied_chars text, (render_chars text).symm⟩
      · rintro ⟨ps, same, -, rfl⟩
        cases same
        rw [render_chars]
    | some found =>
      obtain ⟨before, afterOpen⟩ := found
      cases closing : splitMarker '\x7d' afterOpen with
      | none =>
        rw [resolveStringTemplate_unclosed opening closing, parts_unclosed opening closing]
        constructor
        · intro same
          cases same
        · rintro ⟨ps, same, -⟩
          cases same
      | some split =>
        obtain ⟨name, after⟩ := split
        have shorter : after.length < n := by
          have first := splitMarker_length opening
          have second := splitMarker_length closing
          omega
        have rest := fun {result} => @ih after.length shorter after result rfl
        rw [resolveStringTemplate_placeholder opening closing, parts_placeholder opening closing]
        simp only [Except.bind_eq_ok, lookupVariable_eq_ok, rest]
        constructor
        · rintro ⟨value, found, _, ⟨ps, read, supplied, rfl⟩, same⟩
          cases same
          refine ⟨_, Option.map_eq_some_iff.mpr ⟨ps, read, rfl⟩, supplied_placeholder.2 ⟨⟨value, found⟩, supplied⟩, ?_⟩
          rw [List.flatMap_append, render_chars, List.flatMap_cons, Part.render, found, Option.getD_some, List.append_assoc]
        · rintro ⟨_, mapped, supplied, rfl⟩
          obtain ⟨ps, read, rfl⟩ := Option.map_eq_some_iff.mp mapped
          obtain ⟨⟨value, found⟩, later⟩ := supplied_placeholder.1 supplied
          refine ⟨value, found, _, ⟨ps, read, later, rfl⟩, ?_⟩
          rw [List.flatMap_append, render_chars, List.flatMap_cons, Part.render, found, Option.getD_some, List.append_assoc]

theorem resolveStringTemplate_eq_error {text : List Char} :
    (∃ e, resolveStringTemplate vars urlEncode text = .error e) ↔ Fails vars text := by
  unfold Fails
  cases resolved : resolveStringTemplate vars urlEncode text with
  | error e =>
    refine iff_of_true ⟨e, rfl⟩ fun ps read supplied => ?_
    have ok : resolveStringTemplate vars urlEncode text = .ok _ := resolveStringTemplate_eq_ok.2 ⟨ps, read, supplied, rfl⟩
    rw [resolved] at ok
    cases ok
  | ok result =>
    obtain ⟨ps, read, supplied, -⟩ := resolveStringTemplate_eq_ok.1 resolved
    exact iff_of_false (fun ⟨_, same⟩ => nomatch same) fun fails => fails ps read supplied

end Resolution

/-! Blanks around a text. -/

section Blanks
variable {brace : Char}

theorem splitMarker_cons {c : Char} (other : c ≠ brace) (text : List Char) :
    splitMarker brace (c :: text) = (splitMarker brace text).map fun (before, after) => (c :: before, after) := by
  cases text with
  | nil => rfl
  | cons d text => rw [splitMarker, if_neg fun doubled => other doubled.1]

theorem splitMarker_front {front : List Char} (clean : brace ∉ front) (text : List Char) :
    splitMarker brace (front ++ text) = (splitMarker brace text).map fun (before, after) => (front ++ before, after) := by
  induction front with
  | nil =>
    rw [List.nil_append]
    cases splitMarker brace text <;> rfl
  | cons c front ih =>
    rw [List.mem_cons, not_or] at clean
    rw [List.cons_append, splitMarker_cons (Ne.symm clean.1), ih clean.2, Option.map_map]
    rfl

theorem splitMarker_clean {text : List Char} (clean : brace ∉ text) : splitMarker brace text = none := by
  have whole := splitMarker_front clean []
  rw [List.append_nil] at whole
  exact whole

theorem splitMarker_back {back : List Char} (clean : brace ∉ back) (text : List Char) :
    splitMarker brace (text ++ back) = (splitMarker brace text).map fun (before, after) => (before, after ++ back) := by
  induction text with
  | nil => exact splitMarker_clean clean
  | cons c text ih =>
    cases text with
    | nil =>
      cases back with
      | nil => rfl
      | cons d back =>
        have later := splitMarker_clean clean
        rw [List.mem_cons, not_or] at clean
        rw [List.singleton_append, splitMarker, if_neg fun doubled => clean.1 doubled.2.symm, later]
        rfl
    | cons d text =>
      rw [List.cons_append, List.cons_append, splitMarker, splitMarker]
      rw [List.cons_append] at ih
      split_ifs with doubled
      · rfl
      · rw [ih, Option.map_map, Option.map_map]
        rfl

theorem parts_front {front : List Char} (clean : '\x7b' ∉ front) (text : List Char) :
    parts (front ++ text) = (parts text).map fun ps => front.map .char ++ ps := by
  have shifted := splitMarker_front clean text
  cases opening : splitMarker '\x7b' text with
  | none =>
    rw [opening] at shifted
    rw [parts_plain opening, parts_plain shifted, List.map_append]
    rfl
  | some found =>
    obtain ⟨before, afterOpen⟩ := found
    rw [opening] at shifted
    cases closing : splitMarker '\x7d' afterOpen with
    | none =>
      rw [parts_unclosed opening closing, parts_unclosed shifted closing]
      rfl
    | some split =>
      rw [parts_placeholder opening closing, parts_placeholder shifted closing, Option.map_map]
      congr 1
      funext ps
      rw [List.map_append, List.append_assoc]
      rfl

theorem parts_back {back : List Char} (open_ : '\x7b' ∉ back) (close : '\x7d' ∉ back) (text : List Char) :
    parts (text ++ back) = (parts text).map fun ps => ps ++ back.map .char := by
  induction size : text.length using Nat.strongRecOn generalizing text with
  | _ n ih =>
    have longer := splitMarker_back open_ text
    cases opening : splitMarker '\x7b' text with
    | none =>
      rw [opening] at longer
      rw [parts_plain opening, parts_plain longer, List.map_append]
      rfl
    | some found =>
      obtain ⟨before, afterOpen⟩ := found
      rw [opening] at longer
      have further := splitMarker_back close afterOpen
      cases closing : splitMarker '\x7d' afterOpen with
      | none =>
        rw [closing] at further
        rw [parts_unclosed opening closing, parts_unclosed longer further]
        rfl
      | some split =>
        obtain ⟨name, after⟩ := split
        rw [closing] at further
        have shorter : after.length < n := by
          have first := splitMarker_length opening
          have second := splitMarker_length closing
          omega
        rw [parts_placeholder opening closing, parts_placeholder longer further, ih after.length shorter after rfl,
          Option.map_map, Option.map_map]
        congr 1
        funext ps
        rw [Function.comp_apply, Function.comp_apply, List.append_assoc, List.cons_append]

theorem brace_notMem_blanks {blanks : List Char} (all : ∀ c ∈ blanks, FsPath.isWhitespace c = true) :
    '\x7b' ∉ blanks ∧ '\x7d' ∉ blanks :=
  ⟨fun member => absurd (all _ member) (by decide), fun member => absurd (all _ member) (by decide)⟩

/-- Blanks around a text stay around its parts. -/
theorem parts_trim (text : List Char) : ∃ front back : List Char,
    parts text = (parts (trim text)).map fun ps => front.map .char ++ (ps ++ back.map .char) := by
  have frontBlank : ∀ c ∈ text.takeWhile FsPath.isWhitespace, FsPath.isWhitespace c = true := fun c member =>
    List.mem_takeWhile_imp member
  have backBlank : ∀ c ∈ (text.dropWhile FsPath.isWhitespace).rtakeWhile FsPath.isWhitespace, FsPath.isWhitespace c = true :=
    fun c member => List.mem_rtakeWhile_imp member
  obtain ⟨frontOpen, -⟩ := brace_notMem_blanks frontBlank
  obtain ⟨backOpen, backClose⟩ := brace_notMem_blanks backBlank
  have whole : text = text.takeWhile FsPath.isWhitespace ++
      (trim text ++ (text.dropWhile FsPath.isWhitespace).rtakeWhile FsPath.isWhitespace) := by
    rw [trim, List.rdropWhile_append_rtakeWhile, List.takeWhile_append_dropWhile]
  refine ⟨text.takeWhile FsPath.isWhitespace, (text.dropWhile FsPath.isWhitespace).rtakeWhile FsPath.isWhitespace, ?_⟩
  conv_lhs => rw [whole]
  rw [parts_front frontOpen, parts_back backOpen backClose, Option.map_map]
  rfl

end Blanks

/-- Whether a text fails is not a matter of blanks around it. -/
theorem fails_trim {vars : List (String × String)} (text : List Char) : Fails vars (trim text) ↔ Fails vars text := by
  obtain ⟨front, back, whole⟩ := parts_trim text
  have same (ps : List Part) : Supplied vars (front.map Part.char ++ (ps ++ back.map Part.char)) ↔ Supplied vars ps := by
    constructor
    · intro supplied name member
      exact supplied name (List.mem_append_right _ (List.mem_append_left _ member))
    · intro supplied name member
      rcases List.mem_append.mp member with first | rest
      · exact supplied_chars front name first
      · rcases List.mem_append.mp rest with inside | last
        · exact supplied name inside
        · exact supplied_chars back name last
  unfold Fails
  rw [whole]
  cases parts (trim text) with
  | none => exact iff_of_true nofun nofun
  | some ps => simp only [Option.map_some, Option.some.injEq, forall_eq', same]

/-! Documents. -/

/-- The test for a single placeholder says what the scan says. -/
def Agrees (text : String) : Prop :=
  ∀ name, singleVariable text.toList = some name ↔ parts (trim text.toList) = some [.placeholder name]

mutual

def strings : Json → List String
  | .string text => [text]
  | .array items => stringsOfItems items
  | .object fields => stringsOfFields fields
  | _ => []

def stringsOfItems : List Json → List String
  | [] => []
  | v :: rest => strings v ++ stringsOfItems rest

def stringsOfFields : List (String × Json) → List String
  | [] => []
  | (_, v) :: rest => strings v ++ stringsOfFields rest

end

section Values
variable (parse : String → Option Json) (vars : List (String × String))

mutual

/-- What a document becomes. A string that is one placeholder becomes the
document that its value is the text of, or that text; any other string stays a
string. -/
inductive Resolves : Json → Json → Prop
  | null : Resolves .null .null
  | bool (b : Bool) : Resolves (.bool b) (.bool b)
  | number (n : JsonNumber) : Resolves (.number n) (.number n)
  | single {text value : String} {name : List Char} : parts (trim text.toList) = some [.placeholder name] →
    valueOf vars name = some value → Resolves (.string text) ((parse value).getD (.string value))
  | inline {text : String} {ps : List Part} : (∀ name, parts (trim text.toList) ≠ some [.placeholder name]) →
    parts text.toList = some ps → Supplied vars ps →
    Resolves (.string text) (.string (String.ofList (ps.flatMap (Part.render vars false))))
  | array {items results : List Json} : ResolvesItems items results → Resolves (.array items) (.array results)
  | object {fields results : List (String × Json)} : ResolvesFields fields results → Resolves (.object fields) (.object results)

inductive ResolvesItems : List Json → List Json → Prop
  | nil : ResolvesItems [] []
  | cons {v w : Json} {rest others : List Json} : Resolves v w → ResolvesItems rest others →
    ResolvesItems (v :: rest) (w :: others)

inductive ResolvesFields : List (String × Json) → List (String × Json) → Prop
  | nil : ResolvesFields [] []
  | cons {key : String} {v w : Json} {rest others : List (String × Json)} : Resolves v w → ResolvesFields rest others →
    ResolvesFields ((key, v) :: rest) ((key, w) :: others)

end

variable {parse vars}

/-- A text without markers is resolved as any other. -/
theorem resolveStringValue_inline {text : String} (several : singleVariable text.toList = none) :
    resolveStringValue parse vars text =
      (resolveStringTemplate vars false text.toList).map fun s => .string (String.ofList s) := by
  rw [resolveStringValue, several]
  dsimp only
  split_ifs with marked
  · rfl
  · rw [Bool.not_eq_true, Option.isSome_eq_false_iff, Option.isNone_iff_eq_none] at marked
    rw [resolveStringTemplate_plain marked, Except.map, String.ofList_toList]

theorem resolveStringValue_eq_ok {text : String} (agrees : Agrees text) {w : Json} :
    resolveStringValue parse vars text = .ok w ↔ Resolves parse vars (.string text) w := by
  cases one : singleVariable text.toList with
  | some name =>
    have read := (agrees name).mp one
    rw [resolveStringValue, one]
    simp only [Except.bind_eq_ok, lookupVariable_eq_ok]
    constructor
    · rintro ⟨value, found, same⟩
      cases same
      exact .single read found
    · intro resolves
      cases resolves with
      | @single _ value other alone found =>
        rw [read] at alone
        cases alone
        exact ⟨value, found, rfl⟩
      | inline several => exact absurd read (several name)
  | none =>
    have several (name : List Char) : parts (trim text.toList) ≠ some [.placeholder name] := fun alone => by
      rw [(agrees name).mpr alone] at one
      cases one
    rw [resolveStringValue_inline one, Except.map_eq_ok]
    constructor
    · rintro ⟨s, resolved, rfl⟩
      obtain ⟨ps, read, supplied, rfl⟩ := resolveStringTemplate_eq_ok.1 resolved
      exact .inline several read supplied
    · intro resolves
      cases resolves with
      | single alone _ => exact absurd alone (several _)
      | inline _ read supplied => exact ⟨_, resolveStringTemplate_eq_ok.2 ⟨_, read, supplied, rfl⟩, rfl⟩

theorem resolveStringValue_eq_error {text : String} (agrees : Agrees text) :
    (∃ e, resolveStringValue parse vars text = .error e) ↔ Fails vars text.toList := by
  cases one : singleVariable text.toList with
  | some name =>
    have read := (agrees name).mp one
    rw [← fails_trim, Fails, read, resolveStringValue, one]
    simp only [Option.some.injEq, forall_eq']
    cases found : lookupVariable vars name with
    | error e =>
      refine iff_of_true ⟨e, rfl⟩ fun supplied => ?_
      obtain ⟨value, looked⟩ := supplied name List.mem_cons_self
      rw [lookupVariable_eq_ok.2 looked] at found
      cases found
    | ok value =>
      refine iff_of_false (fun ⟨_, same⟩ => nomatch same) fun missing => missing fun other member => ?_
      cases List.mem_singleton.mp member
      exact ⟨value, lookupVariable_eq_ok.1 found⟩
  | none =>
    rw [resolveStringValue_inline one, ← @resolveStringTemplate_eq_error vars false]
    simp only [Except.map_eq_error]

mutual

theorem resolveValueTemplate_eq_ok : ∀ (v : Json) {w : Json}, (∀ text ∈ strings v, Agrees text) →
    (resolveValueTemplate parse vars v = .ok w ↔ Resolves parse vars v w)
  | .null, w, _ => by
    rw [resolveValueTemplate]
    exact ⟨fun same => by cases same; exact .null, fun resolves => by cases resolves; rfl⟩
  | .bool b, w, _ => by
    rw [resolveValueTemplate]
    exact ⟨fun same => by cases same; exact .bool b, fun resolves => by cases resolves; rfl⟩
  | .number n, w, _ => by
    rw [resolveValueTemplate]
    exact ⟨fun same => by cases same; exact .number n, fun resolves => by cases resolves; rfl⟩
  | .string text, w, agree => by
    rw [resolveValueTemplate]
    exact resolveStringValue_eq_ok (agree text List.mem_cons_self)
  | .array items, w, agree => by
    rw [resolveValueTemplate, Except.map_eq_ok]
    simp only [resolveItems_eq_ok items agree]
    constructor
    · rintro ⟨results, resolves, rfl⟩
      exact .array resolves
    · intro resolves
      cases resolves with
      | array inner => exact ⟨_, inner, rfl⟩
  | .object fields, w, agree => by
    rw [resolveValueTemplate, Except.map_eq_ok]
    simp only [resolveFields_eq_ok fields agree]
    constructor
    · rintro ⟨results, resolves, rfl⟩
      exact .object resolves
    · intro resolves
      cases resolves with
      | object inner => exact ⟨_, inner, rfl⟩

theorem resolveItems_eq_ok : ∀ (items : List Json) {results : List Json}, (∀ text ∈ stringsOfItems items, Agrees text) →
    (resolveItems parse vars items = .ok results ↔ ResolvesItems parse vars items results)
  | [], results, _ => by
    rw [resolveItems]
    exact ⟨fun same => by cases same; exact .nil, fun resolves => by cases resolves; rfl⟩
  | v :: rest, results, agree => by
    rw [stringsOfItems, List.forall_mem_append] at agree
    simp only [resolveItems, Except.bind_eq_ok, resolveValueTemplate_eq_ok v agree.1, resolveItems_eq_ok rest agree.2]
    constructor
    · rintro ⟨w, first, others, later, same⟩
      cases same
      exact .cons first later
    · intro resolves
      cases resolves with
      | cons first later => exact ⟨_, first, _, later, rfl⟩

theorem resolveFields_eq_ok : ∀ (fields : List (String × Json)) {results : List (String × Json)},
    (∀ text ∈ stringsOfFields fields, Agrees text) →
    (resolveFields parse vars fields = .ok results ↔ ResolvesFields parse vars fields results)
  | [], results, _ => by
    rw [resolveFields]
    exact ⟨fun same => by cases same; exact .nil, fun resolves => by cases resolves; rfl⟩
  | (key, v) :: rest, results, agree => by
    rw [stringsOfFields, List.forall_mem_append] at agree
    simp only [resolveFields, Except.bind_eq_ok, resolveValueTemplate_eq_ok v agree.1, resolveFields_eq_ok rest agree.2]
    constructor
    · rintro ⟨w, first, others, later, same⟩
      cases same
      exact .cons first later
    · intro resolves
      cases resolves with
      | cons first later => exact ⟨_, first, _, later, rfl⟩

end

/-- Two steps fail where one of them does. -/
theorem exists_error_pair {ε α β γ : Type} {first : Except ε α} {second : Except ε β} {both : α → β → γ} :
    (∃ e, (first >>= fun a => second >>= fun b => .ok (both a b)) = .error e) ↔
      (∃ e, first = .error e) ∨ ∃ e, second = .error e := by
  cases first <;> cases second <;> simp [bind, Except.bind]

mutual

theorem resolveValueTemplate_eq_error : ∀ v : Json, (∀ text ∈ strings v, Agrees text) →
    ((∃ e, resolveValueTemplate parse vars v = .error e) ↔ ∃ text ∈ strings v, Fails vars text.toList)
  | .null, _ => by simp [resolveValueTemplate, strings]
  | .bool b, _ => by simp [resolveValueTemplate, strings]
  | .number n, _ => by simp [resolveValueTemplate, strings]
  | .string text, agree => by
    rw [resolveValueTemplate, resolveStringValue_eq_error (agree text List.mem_cons_self)]
    simp [strings]
  | .array items, agree => by
    simp only [resolveValueTemplate, Except.map_eq_error]
    exact resolveItems_eq_error items agree
  | .object fields, agree => by
    simp only [resolveValueTemplate, Except.map_eq_error]
    exact resolveFields_eq_error fields agree

theorem resolveItems_eq_error : ∀ items : List Json, (∀ text ∈ stringsOfItems items, Agrees text) →
    ((∃ e, resolveItems parse vars items = .error e) ↔ ∃ text ∈ stringsOfItems items, Fails vars text.toList)
  | [], _ => by simp [resolveItems, stringsOfItems]
  | v :: rest, agree => by
    rw [stringsOfItems, List.forall_mem_append] at agree
    rw [resolveItems, exists_error_pair, resolveValueTemplate_eq_error v agree.1, resolveItems_eq_error rest agree.2]
    simp only [stringsOfItems, List.mem_append, or_and_right, exists_or]

theorem resolveFields_eq_error : ∀ fields : List (String × Json), (∀ text ∈ stringsOfFields fields, Agrees text) →
    ((∃ e, resolveFields parse vars fields = .error e) ↔ ∃ text ∈ stringsOfFields fields, Fails vars text.toList)
  | [], _ => by simp [resolveFields, stringsOfFields]
  | (key, v) :: rest, agree => by
    rw [stringsOfFields, List.forall_mem_append] at agree
    rw [resolveFields, exists_error_pair, resolveValueTemplate_eq_error v agree.1, resolveFields_eq_error rest agree.2]
    simp only [stringsOfFields, List.mem_append, or_and_right, exists_or]

end

end Values

/-! The request. -/

def templateStrings (template : TemplateConfig) : List String :=
  template.urlTemplate :: (template.bodyTemplate.map strings).getD []

def ResolvesBody (parse : String → Option Json) (vars : List (String × String)) :
    Option Json → List (String × Json) → Prop
  | some template, fields => ∃ body, Resolves parse vars template body ∧ fields = [("body", body)]
  | none, fields => fields = []

theorem resolveBody_eq_ok {parse : String → Option Json} {vars : List (String × String)} :
    ∀ {template : Option Json} {body : List (String × Json)}, (∀ text ∈ (template.map strings).getD [], Agrees text) →
    (resolveBody parse vars template = .ok body ↔ ResolvesBody parse vars template body)
  | none, body, _ => by
    rw [resolveBody, Except.ok.injEq]
    exact eq_comm
  | some template, body, agree => by
    simp only [resolveBody, Except.map_eq_ok, resolveValueTemplate_eq_ok template agree]
    exact exists_congr fun _ => and_congr_right fun _ => eq_comm

theorem resolveBody_eq_error {parse : String → Option Json} {vars : List (String × String)} :
    ∀ {template : Option Json}, (∀ text ∈ (template.map strings).getD [], Agrees text) →
    ((∃ e, resolveBody parse vars template = .error e) ↔
      ∃ text ∈ (template.map strings).getD [], Fails vars text.toList)
  | none, _ => by simp [resolveBody]
  | some template, agree => by
    simp only [resolveBody, Except.map_eq_error]
    exact resolveValueTemplate_eq_error template agree

/-- A request is not resolved exactly where a placeholder has no value or a
marker is not closed, and else every string of the template is resolved by its
parts in its place. A URL that is one placeholder is not encoded. -/
theorem resolveTemplate_spec (parse : String → Option Json) {template : TemplateConfig} (requestBody : Json)
    (agree : ∀ text ∈ templateStrings template, Agrees text) :
    ((∃ e, resolveTemplate parse template requestBody = .error e) ↔
      ∃ text ∈ templateStrings template, Fails (extractVariables requestBody) text.toList) ∧
    ∀ result, resolveTemplate parse template requestBody = .ok result ↔
      ∃ url urlEncode body, parts template.urlTemplate.toList = some url ∧ Supplied (extractVariables requestBody) url ∧
        (urlEncode = false ↔ ∃ name, parts (trim template.urlTemplate.toList) = some [.placeholder name]) ∧
        ResolvesBody parse (extractVariables requestBody) template.bodyTemplate body ∧
        result = .object (body ++
          [("headers", Json.ofFields (template.headers.map fun (name, value) => (name, .string value))),
            ("method", .string (toAsciiUppercase template.method)),
            ("url", .string (String.ofList (url.flatMap (Part.render (extractVariables requestBody) urlEncode))))]) := by
  rw [templateStrings, List.forall_mem_cons] at agree
  obtain ⟨urlAgrees, bodyAgrees⟩ := agree
  have encoded (urlEncode : Bool) : urlEncode = !(singleVariable template.urlTemplate.toList).isSome ↔
      (urlEncode = false ↔ ∃ name, parts (trim template.urlTemplate.toList) = some [.placeholder name]) := by
    simp only [← urlAgrees _, ← Option.isSome_iff_exists]
    cases urlEncode <;> cases (singleVariable template.urlTemplate.toList).isSome <;> decide
  constructor
  · rw [templateStrings]
    simp only [List.mem_cons, or_and_right, exists_or, exists_eq_left]
    rw [← resolveBody_eq_error bodyAgrees, ← resolveStringTemplate_eq_error]
    exact exists_error_pair
  · intro result
    simp only [resolveTemplate, Except.bind_eq_ok, resolveStringTemplate_eq_ok, resolveBody_eq_ok bodyAgrees]
    constructor
    · rintro ⟨_, ⟨url, read, supplied, rfl⟩, body, resolves, same⟩
      cases same
      exact ⟨url, _, body, read, supplied, (encoded _).mp rfl, resolves, rfl⟩
    · rintro ⟨url, urlEncode, body, read, supplied, single, resolves, rfl⟩
      have flag := (encoded urlEncode).mpr single
      subst flag
      exact ⟨_, ⟨url, read, supplied, rfl⟩, body, resolves, rfl⟩

def countTemplate : TemplateConfig where
  method := "POST"
  urlTemplate := "https://example.com"
  bodyTemplate := some (.string "\x7b\x7bcount\x7d\x7d")

theorem scan_url : parts "https://example.com".toList = some ("https://example.com".toList.map .char) :=
  parts_plain (by decide)

theorem scan_count : parts "\x7b\x7bcount\x7d\x7d".toList = some [.placeholder "count".toList] := by
  have opening : splitMarker '\x7b' "\x7b\x7bcount\x7d\x7d".toList = some ([], "count\x7d\x7d".toList) := by decide
  have closing : splitMarker '\x7d' "count\x7d\x7d".toList = some ("count".toList, []) := by decide
  rw [parts_placeholder opening closing, parts_plain rfl]
  rfl

theorem countTemplate_agrees : ∀ text ∈ templateStrings countTemplate, Agrees text := by
  intro text member name
  have url : singleVariable "https://example.com".toList = none := by decide
  have count : singleVariable "\x7b\x7bcount\x7d\x7d".toList = some "count".toList := by decide
  have urlTrim : trim "https://example.com".toList = "https://example.com".toList := by decide
  have countTrim : trim "\x7b\x7bcount\x7d\x7d".toList = "\x7b\x7bcount\x7d\x7d".toList := by decide
  rcases List.mem_cons.mp member with rfl | inBody
  · rw [show countTemplate.urlTemplate = "https://example.com" from rfl, urlTrim, scan_url, url]
    refine iff_of_false nofun fun same => ?_
    have length := congrArg List.length (Option.some.inj same)
    have long : "https://example.com".toList.length ≠ 1 := by decide
    rw [List.length_map] at length
    exact long length
  · rw [List.mem_singleton.mp inBody, countTrim, scan_count, count]
    simp only [Option.some.injEq, List.cons.injEq, Part.placeholder.injEq, and_true]

/-- A template whose placeholder has a value, which is no document. -/
theorem count_resolved :
    ¬∃ e, resolveTemplate (fun _ => none) countTemplate (.object [("count", .string "seven")]) = .error e := by
  rw [(resolveTemplate_spec (fun _ => none) _ countTemplate_agrees).1]
  rintro ⟨text, member, fails⟩
  rcases List.mem_cons.mp member with rfl | inBody
  · exact fails _ scan_url (supplied_chars _)
  · rw [List.mem_singleton.mp inBody] at fails
    refine fails _ scan_count fun name inside => ?_
    cases List.mem_singleton.mp inside
    exact ⟨"seven", by decide⟩

/-- A text that reads as a number becomes one. -/
theorem digits_become_number : ∃ parse : String → Option Json,
    (resolveTemplate parse countTemplate (.object [("count", .string "42")])).map (Json.get? "body") =
      .ok (some (.number (.int 42))) := by
  refine ⟨fun s => if s = "42" then some (.number (.int 42)) else none, ?_⟩
  have url : resolveStringTemplate [("count", "42")] true "https://example.com".toList = .ok "https://example.com".toList :=
    resolveStringTemplate_plain (by decide)
  have flag : (singleVariable countTemplate.urlTemplate.toList).isSome = false := by decide
  have single : singleVariable "\x7b\x7bcount\x7d\x7d".toList = some "count".toList := by decide
  unfold resolveTemplate
  dsimp only
  rw [flag]
  change Except.map _ (resolveStringTemplate [("count", "42")] true "https://example.com".toList >>= _) = _
  rw [url]
  simp only [countTemplate, resolveBody, resolveValueTemplate, resolveStringValue, single]
  rfl

end Template
end Latchgate
