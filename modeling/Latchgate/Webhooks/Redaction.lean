import Latchgate.Core.Egress
import Latchgate.Json.Value
import Mathlib.Data.List.Infix

/-! Places inside a document. -/

namespace Json

inductive PathStep where
  | key (name : String)
  | item (index : Nat)

/-- The value that a path from the root leads to. -/
def at? : List PathStep → Json → Option Json
  | [], v => some v
  | .key name :: path, object fields => (fields.lookup name).bind (at? path)
  | .item index :: path, array items => items[index]?.bind (at? path)
  | _ :: _, _ => none

/-- The keys of an object, in its order. -/
def keys? : Json → Option (List String)
  | object fields => some (fields.map (·.1))
  | _ => none

def IsContainer : Json → Prop
  | array _ | object _ => True
  | _ => False

end Json

namespace Latchgate.Webhooks
open Json (PathStep)

/-- Sentinel for a redacted value. -/
def redacted : Json :=
  .string "***REDACTED***"

def maxDepthMarker : Json :=
  .string "***TRUNCATED (max depth)***"

def maxSummaryDepth : Nat := 5

def maxStringPreviewBytes : Nat := 256

def maxStringPreviewChars : Nat := 200

def maxSummaryArrayItems : Nat := 10

def sensitiveKeyPatterns : List String :=
  ["password", "passwd", "secret", "token", "key", "credential", "auth", "api_key", "apikey", "private", "bearer",
    "cookie", "session", "pin", "cvv", "ssn"]

def isSensitiveKey (key : String) (secretNames : List String) : Bool :=
  (secretNames.any fun name => toAsciiLowercase key = toAsciiLowercase name) ||
    sensitiveKeyPatterns.any fun pattern => pattern.toList <:+: (toAsciiLowercase key).toList

def moreItems (count : Nat) : Json :=
  .string ("…[" ++ count.repr ++ " more items]")

def preview (text : String) : String :=
  String.ofList (text.toList.take maxStringPreviewChars) ++ "…[" ++ text.utf8ByteSize.repr ++ " bytes total]"

section Redaction
variable (secretNames : List String)

mutual

def redactInner (value : Json) (depth : Nat) : Json :=
  if maxSummaryDepth < depth then maxDepthMarker
  else
    match value with
    | .object fields => .object (redactFields fields (depth + 1))
    | .array items =>
      .array ((redactItems items (depth + 1)).take maxSummaryArrayItems ++
        if maxSummaryArrayItems < items.length then [moreItems (items.length - maxSummaryArrayItems)] else [])
    | .string text => if maxStringPreviewBytes < text.utf8ByteSize then .string (preview text) else .string text
    | .null => .null
    | .bool b => .bool b
    | .number n => .number n

def redactItems : List Json → Nat → List Json
  | [], _ => []
  | v :: rest, depth => redactInner v depth :: redactItems rest depth

/-- The key is looked at before its value is. -/
def redactFields : List (String × Json) → Nat → List (String × Json)
  | [], _ => []
  | (key, v) :: rest, depth =>
    (key, if isSensitiveKey key secretNames then redacted else redactInner v depth) :: redactFields rest depth

end

def redactSummary (value : Json) : Json :=
  redactInner secretNames value 0

/-! What a summary is for. -/

mutual

/-- The document without the values under sensitive keys, at any depth. -/
def hideSecrets : Json → Json
  | .object fields => .object (hideFields fields)
  | .array items => .array (hideItems items)
  | v => v

def hideItems : List Json → List Json
  | [] => []
  | v :: rest => hideSecrets v :: hideItems rest

def hideFields : List (String × Json) → List (String × Json)
  | [] => []
  | (key, v) :: rest => (key, if isSensitiveKey key secretNames then .null else hideSecrets v) :: hideFields rest

end

/-- The path goes under no sensitive key and to none of the items cut off. -/
def Open (path : List PathStep) : Prop :=
  ∀ step ∈ path, match step with
    | .key name => isSensitiveKey name secretNames = false
    | .item index => index < maxSummaryArrayItems

/-- A value without parts whose text is not over the bound. -/
def FitsWhole : Json → Prop
  | .string text => text.utf8ByteSize ≤ maxStringPreviewBytes
  | .array _ | .object _ => False
  | _ => True

/-- Short, or a count that follows at most so many characters. -/
def Bounded (text : String) : Prop :=
  text.utf8ByteSize ≤ maxStringPreviewBytes ∨
    ∃ (kept : List Char) (count : Nat) (what : String), kept.length ≤ maxStringPreviewChars ∧
      what ∈ [" more items]", " bytes total]"] ∧ text = String.ofList kept ++ "…[" ++ count.repr ++ what

/-- What a webhook may carry of a body. -/
structure Summarizes (body summary : Json) : Prop where
  /-- Another body that differs in secrets only has the same summary. -/
  nonInterference : ∀ other, hideSecrets secretNames other = hideSecrets secretNames body →
    redactSummary secretNames other = summary
  depth : ∀ path v, summary.at? path = some v →
    path.length ≤ maxSummaryDepth + 1 ∧ (v.IsContainer → path.length ≤ maxSummaryDepth)
  /-- So many items, and a count of the others. -/
  arrays : ∀ path items, summary.at? path = some (.array items) → items.length ≤ maxSummaryArrayItems + 1
  strings : ∀ path text, summary.at? path = some (.string text) → Bounded text
  leaves : ∀ path v, Open secretNames path → path.length ≤ maxSummaryDepth → FitsWhole v →
    body.at? path = some v → summary.at? path = some v
  /-- The objects of the summary are those of the body within the bounds, each
  with its own keys. -/
  keys : ∀ path keys, (summary.at? path).bind Json.keys? = some keys ↔
    Open secretNames path ∧ path.length ≤ maxSummaryDepth ∧ (body.at? path).bind Json.keys? = some keys

end Redaction

section Redaction
variable {secretNames : List String}

theorem redactItems_eq_map (items : List Json) (depth : Nat) :
    redactItems secretNames items depth = items.map fun v => redactInner secretNames v depth := by
  induction items with
  | nil => simp only [redactItems, List.map_nil]
  | cons v rest ih => simp only [redactItems, ih, List.map_cons]

theorem redactFields_eq_map (fields : List (String × Json)) (depth : Nat) :
    redactFields secretNames fields depth = fields.map fun field =>
      (field.1, if isSensitiveKey field.1 secretNames then redacted else redactInner secretNames field.2 depth) := by
  induction fields with
  | nil => simp only [redactFields, List.map_nil]
  | cons field rest ih => simp only [redactFields, ih, List.map_cons]

theorem lookup_redactFields (fields : List (String × Json)) (depth : Nat) (name : String) :
    (redactFields secretNames fields depth).lookup name = (fields.lookup name).map fun v =>
      if isSensitiveKey name secretNames then redacted else redactInner secretNames v depth := by
  induction fields with
  | nil => simp only [redactFields, List.lookup_nil, Option.map_none]
  | cons field rest ih =>
    obtain ⟨key, v⟩ := field
    simp only [redactFields, List.lookup_cons]
    by_cases found : name = key
    · simp only [found, beq_self_eq_true, Option.map_some]
    · simp only [beq_eq_false_iff_ne.mpr found, ih]

/-! The secrets do not reach the summary. -/

mutual

theorem redactInner_hideSecrets : ∀ (v : Json) (depth : Nat),
    redactInner secretNames (hideSecrets secretNames v) depth = redactInner secretNames v depth
  | .object fields, depth => by
    simp only [hideSecrets, redactInner, redactFields_hideFields fields]
  | .array items, depth => by
    have length := hideItems_length items
    simp only [hideSecrets, redactInner, redactItems_hideItems items, length]
  | .string _, _ => by simp only [hideSecrets]
  | .null, _ => by simp only [hideSecrets]
  | .bool _, _ => by simp only [hideSecrets]
  | .number _, _ => by simp only [hideSecrets]

theorem hideItems_length : ∀ items : List Json, (hideItems secretNames items).length = items.length
  | [] => by simp only [hideItems]
  | v :: rest => by simp only [hideItems, List.length_cons, hideItems_length rest]

theorem redactItems_hideItems : ∀ (items : List Json) (depth : Nat),
    redactItems secretNames (hideItems secretNames items) depth = redactItems secretNames items depth
  | [], _ => by simp only [hideItems]
  | v :: rest, depth => by
    simp only [hideItems, redactItems, redactInner_hideSecrets v, redactItems_hideItems rest]

theorem redactFields_hideFields : ∀ (fields : List (String × Json)) (depth : Nat),
    redactFields secretNames (hideFields secretNames fields) depth = redactFields secretNames fields depth
  | [], _ => by simp only [hideFields]
  | (key, v) :: rest, depth => by
    simp only [hideFields, redactFields, redactFields_hideFields rest]
    split_ifs with sensitive
    · rfl
    · rw [redactInner_hideSecrets v]

end

theorem redactInner_deep (v : Json) {depth : Nat} (deep : maxSummaryDepth < depth) :
    redactInner secretNames v depth = maxDepthMarker := by
  unfold redactInner
  rw [if_pos deep]

theorem redactInner_object (fields : List (String × Json)) {depth : Nat} (shallow : depth ≤ maxSummaryDepth) :
    redactInner secretNames (.object fields) depth = .object (redactFields secretNames fields (depth + 1)) := by
  rw [redactInner, if_neg (by omega)]

theorem redactInner_array (items : List Json) {depth : Nat} (shallow : depth ≤ maxSummaryDepth) :
    redactInner secretNames (.array items) depth =
      .array ((items.map fun v => redactInner secretNames v (depth + 1)).take maxSummaryArrayItems ++
        if maxSummaryArrayItems < items.length then [moreItems (items.length - maxSummaryArrayItems)] else []) := by
  have notDeep : ¬maxSummaryDepth < depth := by omega
  simp only [redactInner, if_neg notDeep, redactItems_eq_map]

theorem redactInner_fitsWhole {v : Json} (fits : FitsWhole v) {depth : Nat} (shallow : depth ≤ maxSummaryDepth) :
    redactInner secretNames v depth = v := by
  have notDeep : ¬maxSummaryDepth < depth := by omega
  cases v with
  | string text => simp only [redactInner, if_neg notDeep, if_neg (Nat.not_lt.mpr fits)]
  | array items => exact fits.elim
  | object fields => exact fits.elim
  | null => rw [redactInner, if_neg notDeep]
  | bool b => rw [redactInner, if_neg notDeep]
  | number n => rw [redactInner, if_neg notDeep]

/-! One step of a path. -/

theorem at?_string {text : String} {path : List PathStep} {w : Json} (found : Json.at? path (.string text) = some w) :
    path = [] ∧ w = .string text := by
  cases path with
  | nil => exact ⟨rfl, (Option.some.inj found).symm⟩
  | cons step rest => cases step <;> simp [Json.at?] at found

/-- Under a key there is the sentinel, or the value one level down. -/
theorem at?_key_redactInner (name : String) (path : List PathStep) (v : Json) {depth : Nat} (shallow : depth ≤ maxSummaryDepth) :
    (redactInner secretNames v depth).at? (.key name :: path) = (v.at? [.key name]).bind fun u =>
      (if isSensitiveKey name secretNames then redacted else redactInner secretNames u (depth + 1)).at? path := by
  have notDeep : ¬maxSummaryDepth < depth := by omega
  cases v with
  | object fields =>
    simp only [redactInner_object fields shallow, Json.at?, lookup_redactFields, Option.bind_map, Option.bind_assoc,
      Option.bind_some, Function.comp_def]
  | string text => simp only [redactInner, if_neg notDeep, Json.at?, Option.bind_none]; split_ifs <;> rfl
  | array items => simp only [redactInner_array items shallow, Json.at?, Option.bind_none]
  | null => simp only [redactInner, if_neg notDeep, Json.at?, Option.bind_none]
  | bool b => simp only [redactInner, if_neg notDeep, Json.at?, Option.bind_none]
  | number n => simp only [redactInner, if_neg notDeep, Json.at?, Option.bind_none]

theorem take_append_getElem? (items : List Json) (f : Json → Json) (i : Nat) (kept : i < maxSummaryArrayItems) :
    ((items.map f).take maxSummaryArrayItems ++ if maxSummaryArrayItems < items.length then
      [moreItems (items.length - maxSummaryArrayItems)] else [])[i]? = items[i]?.map f := by
  by_cases inside : i < items.length
  · have taken : i < ((items.map f).take maxSummaryArrayItems).length := by
      rw [List.length_take, List.length_map]
      omega
    rw [List.getElem?_append_left taken, List.getElem?_take_of_lt kept, List.getElem?_map]
  · have none_ : items[i]? = none := List.getElem?_eq_none (by omega)
    rw [none_, Option.map_none, if_neg (by omega), List.append_nil, List.getElem?_take_of_lt kept, List.getElem?_map, none_,
      Option.map_none]

theorem at?_item_redactInner (i : Nat) (kept : i < maxSummaryArrayItems) (path : List PathStep) (v : Json) {depth : Nat}
    (shallow : depth ≤ maxSummaryDepth) :
    (redactInner secretNames v depth).at? (.item i :: path) =
      (v.at? [.item i]).bind fun u => (redactInner secretNames u (depth + 1)).at? path := by
  have notDeep : ¬maxSummaryDepth < depth := by omega
  cases v with
  | array items =>
    simp only [redactInner_array items shallow, Json.at?, take_append_getElem? items _ i kept, Option.bind_map,
      Option.bind_assoc, Option.bind_some, Function.comp_def]
  | string text => simp only [redactInner, if_neg notDeep, Json.at?, Option.bind_none]; split_ifs <;> rfl
  | object fields => simp only [redactInner_object fields shallow, Json.at?, Option.bind_none]
  | null => simp only [redactInner, if_neg notDeep, Json.at?, Option.bind_none]
  | bool b => simp only [redactInner, if_neg notDeep, Json.at?, Option.bind_none]
  | number n => simp only [redactInner, if_neg notDeep, Json.at?, Option.bind_none]

/-- Past the items that are kept there is nothing but the count. -/
theorem at?_item_beyond {i : Nat} (beyond : maxSummaryArrayItems ≤ i) {path : List PathStep} {v w : Json} {depth : Nat}
    (shallow : depth ≤ maxSummaryDepth) (found : (redactInner secretNames v depth).at? (.item i :: path) = some w) :
    path = [] ∧ ∃ count, w = moreItems count := by
  have notDeep : ¬maxSummaryDepth < depth := by omega
  cases v with
  | array items =>
    simp only [redactInner_array items shallow, Json.at?] at found
    obtain ⟨u, item, found⟩ := Option.bind_eq_some_iff.mp found
    have past : ((items.map fun v => redactInner secretNames v (depth + 1)).take maxSummaryArrayItems).length ≤ i := by
      rw [List.length_take]
      omega
    rw [List.getElem?_append_right past] at item
    have member := List.mem_of_getElem? item
    split_ifs at member with more
    · obtain rfl := List.mem_singleton.mp member
      obtain ⟨rfl, rfl⟩ := at?_string found
      exact ⟨rfl, _, rfl⟩
    · cases member
  | string text => simp only [redactInner, if_neg notDeep] at found; split_ifs at found <;> simp [Json.at?] at found
  | object fields => simp [redactInner_object fields shallow, Json.at?] at found
  | null => simp [redactInner, if_neg notDeep, Json.at?] at found
  | bool b => simp [redactInner, if_neg notDeep, Json.at?] at found
  | number n => simp [redactInner, if_neg notDeep, Json.at?] at found

theorem at?_cons (step : PathStep) (path : List PathStep) (v : Json) :
    v.at? (step :: path) = (v.at? [step]).bind (Json.at? path) := by
  cases step <;> cases v <;> simp [Json.at?]

/-! Whole paths. -/

/-- What an open path leads to is in the summary, redacted at its depth. -/
theorem at?_redactInner_of_open {path : List PathStep} {v u : Json} {depth : Nat} (visible : Open secretNames path)
    (shallow : depth + path.length ≤ maxSummaryDepth + 1) (found : v.at? path = some u) :
    (redactInner secretNames v depth).at? path = some (redactInner secretNames u (depth + path.length)) := by
  induction path generalizing v depth with
  | nil =>
    obtain rfl := Option.some.inj found
    rfl
  | cons step rest ih =>
    rw [List.length_cons] at shallow
    have visibleRest : Open secretNames rest := fun s member => visible s (List.mem_cons_of_mem step member)
    rw [at?_cons] at found
    obtain ⟨w, first, found⟩ := Option.bind_eq_some_iff.mp found
    have next : (redactInner secretNames w (depth + 1)).at? rest =
        some (redactInner secretNames u (depth + 1 + rest.length)) := ih visibleRest (by omega) found
    have here := visible step List.mem_cons_self
    cases step with
    | key name =>
      rw [at?_key_redactInner name rest v (by omega), first, Option.bind_some, if_neg (by simpa using here), next,
        List.length_cons, Nat.add_right_comm, Nat.add_assoc]
    | item i =>
      rw [at?_item_redactInner i here rest v (by omega), first, Option.bind_some, next, List.length_cons,
        Nat.add_right_comm, Nat.add_assoc]

/-- Whatever is in a summary is a value of the body, redacted at its depth, or
a marker. -/
theorem of_at?_redactInner {path : List PathStep} {v w : Json} {depth : Nat} (start : depth ≤ maxSummaryDepth + 1)
    (found : (redactInner secretNames v depth).at? path = some w) :
    depth + path.length ≤ maxSummaryDepth + 1 ∧
      ((Open secretNames path ∧ ∃ u, v.at? path = some u ∧ w = redactInner secretNames u (depth + path.length)) ∨
        w = redacted ∨ ∃ count, w = moreItems count) := by
  induction path generalizing v depth with
  | nil =>
    obtain rfl := Option.some.inj found
    exact ⟨start, .inl ⟨fun _ member => absurd member List.not_mem_nil, v, rfl, rfl⟩⟩
  | cons step rest ih =>
    have shallow : depth ≤ maxSummaryDepth := by
      by_contra deep
      rw [redactInner_deep v (by omega)] at found
      exact absurd (at?_string found).1 (List.cons_ne_nil step rest)
    rw [List.length_cons, at?_cons step rest v]
    cases step with
    | key name =>
      rw [at?_key_redactInner name rest v shallow] at found
      obtain ⟨u, first, found⟩ := Option.bind_eq_some_iff.mp found
      split_ifs at found with sensitive
      · obtain ⟨rfl, rfl⟩ := at?_string found
        exact ⟨by simp only [List.length_nil]; omega, .inr (.inl rfl)⟩
      · obtain ⟨bound, reached⟩ := ih (show depth + 1 ≤ maxSummaryDepth + 1 by omega) found
        refine ⟨by omega, reached.imp_left ?_⟩
        rintro ⟨visible, u', found', rfl⟩
        refine ⟨List.forall_mem_cons.mpr ⟨by simpa using sensitive, visible⟩, u', ?_, by rw [Nat.add_right_comm, Nat.add_assoc]⟩
        rw [first, Option.bind_some, found']
    | item i =>
      by_cases kept : i < maxSummaryArrayItems
      · rw [at?_item_redactInner i kept rest v shallow] at found
        obtain ⟨u, first, found⟩ := Option.bind_eq_some_iff.mp found
        obtain ⟨bound, reached⟩ := ih (show depth + 1 ≤ maxSummaryDepth + 1 by omega) found
        refine ⟨by omega, reached.imp_left ?_⟩
        rintro ⟨visible, u', found', rfl⟩
        refine ⟨List.forall_mem_cons.mpr ⟨kept, visible⟩, u', ?_, by rw [Nat.add_right_comm, Nat.add_assoc]⟩
        rw [first, Option.bind_some, found']
      · obtain ⟨rfl, marker⟩ := at?_item_beyond (Nat.not_lt.mp kept) shallow found
        exact ⟨by simp only [List.length_nil]; omega, .inr (.inr marker)⟩

/-! What one redacted value is. -/

theorem bounded_preview (text : String) : Bounded (preview text) :=
  .inr ⟨_, _, _, List.length_take_le _ _, by decide, rfl⟩

theorem bounded_of_redactInner {v : Json} {depth : Nat} {text : String}
    (result : redactInner secretNames v depth = .string text) : Bounded text := by
  unfold redactInner at result
  split_ifs at result with deep
  · obtain rfl := Json.string.inj result
    exact .inl (by decide)
  · split at result
    · cases result
    · cases result
    · rename_i original
      split_ifs at result with long
      · obtain rfl := Json.string.inj result
        exact bounded_preview original
      · obtain rfl := Json.string.inj result
        exact .inl (Nat.not_lt.mp long)
    · cases result
    · cases result
    · cases result

theorem bounded_moreItems {text : String} {count : Nat} (marker : Json.string text = moreItems count) : Bounded text := by
  obtain rfl := Json.string.inj marker
  exact .inr ⟨[], count, " more items]", Nat.zero_le _, by decide, by simp⟩

theorem length_of_redactInner {v : Json} {depth : Nat} {items : List Json}
    (result : redactInner secretNames v depth = .array items) : items.length ≤ maxSummaryArrayItems + 1 := by
  have shallow : depth ≤ maxSummaryDepth := by
    by_contra deep
    rw [redactInner_deep v (by omega)] at result
    cases result
  have notDeep : ¬maxSummaryDepth < depth := by omega
  cases v with
  | array original =>
    rw [redactInner_array original shallow] at result
    obtain rfl := Json.array.inj result
    rw [List.length_append, List.length_take]
    split_ifs
    · simp only [List.length_singleton]
      omega
    · simp only [List.length_nil]
      omega
  | object fields =>
    rw [redactInner_object fields shallow] at result
    cases result
  | string text =>
    simp only [redactInner, if_neg notDeep] at result
    split_ifs at result
  | null | bool _ | number _ =>
    simp only [redactInner, if_neg notDeep] at result
    cases result

theorem keys?_redactInner (v : Json) {depth : Nat} (shallow : depth ≤ maxSummaryDepth) :
    (redactInner secretNames v depth).keys? = v.keys? := by
  have notDeep : ¬maxSummaryDepth < depth := by omega
  cases v with
  | object fields =>
    simp only [redactInner_object fields shallow, Json.keys?, redactFields_eq_map, List.map_map, Function.comp_def]
  | array items => rw [redactInner_array items shallow]; rfl
  | string text =>
    unfold redactInner
    simp only [if_neg notDeep]
    split_ifs <;> rfl
  | null | bool _ | number _ => simp only [redactInner, if_neg notDeep]

theorem isContainer_shallow {v : Json} {depth : Nat} (container : (redactInner secretNames v depth).IsContainer) :
    depth ≤ maxSummaryDepth := by
  by_contra deep
  rw [redactInner_deep v (by omega)] at container
  exact container

theorem summary_keys_iff (body : Json) (path : List PathStep) (keys : List String) :
    ((redactSummary secretNames body).at? path).bind Json.keys? = some keys ↔
      Open secretNames path ∧ path.length ≤ maxSummaryDepth ∧ (body.at? path).bind Json.keys? = some keys := by
  constructor
  · intro there
    obtain ⟨w, found, ofKeys⟩ := Option.bind_eq_some_iff.mp there
    obtain ⟨-, ⟨visible, u, inBody, rfl⟩ | rfl | ⟨count, rfl⟩⟩ := of_at?_redactInner (Nat.zero_le _) found
    · rw [Nat.zero_add] at ofKeys
      have shallow : path.length ≤ maxSummaryDepth := by
        by_contra deep
        rw [redactInner_deep u (by omega)] at ofKeys
        cases ofKeys
      rw [keys?_redactInner u shallow] at ofKeys
      exact ⟨visible, shallow, by rw [inBody, Option.bind_some, ofKeys]⟩
    · cases ofKeys
    · cases ofKeys
  · rintro ⟨visible, shallow, there⟩
    obtain ⟨u, found, ofKeys⟩ := Option.bind_eq_some_iff.mp there
    rw [redactSummary, at?_redactInner_of_open visible (by omega) found, Option.bind_some, Nat.zero_add,
      keys?_redactInner u shallow, ofKeys]

/-- The summary of every body, under every list of secret names, keeps the
secrets out, keeps to the bounds, and is faithful within them. -/
theorem redactSummary_summarizes (secretNames : List String) (body : Json) :
    Summarizes secretNames body (redactSummary secretNames body) where
  nonInterference other same := by
    rw [redactSummary, ← redactInner_hideSecrets other, same, redactInner_hideSecrets, redactSummary]
  depth path w found := by
    obtain ⟨bound, reached⟩ := of_at?_redactInner (Nat.zero_le _) found
    refine ⟨by omega, fun container => ?_⟩
    obtain ⟨-, u, -, rfl⟩ | rfl | ⟨count, rfl⟩ := reached
    · have shallow := isContainer_shallow container
      omega
    · exact container.elim
    · exact container.elim
  arrays path items found := by
    obtain ⟨-, ⟨-, u, -, made⟩ | made | ⟨count, made⟩⟩ := of_at?_redactInner (Nat.zero_le _) found
    · exact length_of_redactInner made.symm
    · cases made
    · cases made
  strings path text found := by
    obtain ⟨-, ⟨-, u, -, made⟩ | made | ⟨count, made⟩⟩ := of_at?_redactInner (Nat.zero_le _) found
    · exact bounded_of_redactInner made.symm
    · obtain rfl := Json.string.inj made
      exact .inl (by decide)
    · exact bounded_moreItems made
  leaves path v visible shallow fits found := by
    rw [redactSummary, at?_redactInner_of_open visible (by omega) found, redactInner_fitsWhole fits (by omega)]
  keys := summary_keys_iff body

end Redaction

end Latchgate.Webhooks
