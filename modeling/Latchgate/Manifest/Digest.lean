import Latchgate.Plan.Hash

namespace Latchgate
open Encoding

/-- Texts with a comma behind each. -/
def joined (texts : List String) : List Char :=
  texts.flatMap fun text => terminated ',' text.toList

def textsValue (texts : List String) : Json :=
  .array (texts.map .string)

def optionalValue {α : Type*} (toValue : α → Json) : Option α → Json
  | none => .null
  | some a => toValue a

def EgressConfig.toValue (egress : EgressConfig) : Json :=
  .object [("profile", .string egress.profile), ("allowed_domains", textsValue egress.allowedDomains),
    ("allowed_methods", textsValue egress.allowedMethods)]

/-- The headers are written in the order in which the map is walked. -/
def TemplateConfig.toValue (template : TemplateConfig) : Json :=
  .object [("method", .string template.method), ("url_template", .string template.urlTemplate),
    ("headers", .object (template.headers.map fun header => (header.1, .string header.2))),
    ("body_template", optionalValue id template.bodyTemplate)]

namespace ActionSpec

/-- The text whose bytes the digest is taken of. -/
def digestText (spec : ActionSpec) : List Char :=
  "latchgate-action-v1:".toList ++ (terminated '|' spec.actionId.toList ++ (terminated '|' spec.version.toList ++
    (terminated '|' spec.providerModuleDigest.toList ++ (terminated '|' (joined spec.requiredImports) ++
    (terminated '|' spec.resourceLimits.toValue.compact ++ (terminated '|' (Json.string spec.verifierKind.asStr).compact ++
    (terminated '|' (Json.string spec.riskLevel.asStr).compact ++ (terminated '|' (joined (spec.secrets.map SecretDecl.name)) ++
    (terminated '|' (joined spec.declaredSideEffects) ++ (terminated '|' spec.egress.toValue.compact ++
    (terminated '|' (joined spec.requiredScopes) ++ (terminated '|' (optionalValue id spec.databaseConfig).compact ++
    (terminated '|' (optionalValue TemplateConfig.toValue spec.template).compact ++
    (optionalValue FsConfig.toValue spec.fs).compact)))))))))))))

def digestPreimage (spec : ActionSpec) : List UInt8 :=
  utf8 spec.digestText

def computeDigest (sha256 : List UInt8 → String) (spec : ActionSpec) : String :=
  sha256 spec.digestPreimage

def headers (spec : ActionSpec) : List (String × String) :=
  (spec.template.map TemplateConfig.headers).getD []

/-- The same manifest, with its map of headers walked in another order. -/
def withHeaders (headers : List (String × String)) (spec : ActionSpec) : ActionSpec :=
  { spec with template := spec.template.map fun template => { template with headers } }

/-- What the file says, without what loading adds to it. -/
def declared (spec : ActionSpec) : ActionSpec :=
  { spec with
    fs := spec.fs.map fun fs => { fs with compiledAllowed := [], compiledDenied := [] }
    contentDigest := "" }

/-- The part of the declaration that reaches the digest. -/
def hashed (spec : ActionSpec) : ActionSpec :=
  { spec.declared with
    secrets := spec.secrets.map fun secret => { name := secret.name }
    io := {}
    verificationConfig := none }

/-- Two manifests that declare the same, up to the order of the headers. -/
def Agree (a b : ActionSpec) : Prop :=
  (a.withHeaders []).declared = (b.withHeaders []).declared ∧ a.headers.Perm b.headers

/-- The rest of the declaration. -/
def SameUnhashed (a b : ActionSpec) : Prop :=
  a.secrets = b.secrets ∧ a.io = b.io ∧ a.verificationConfig = b.verificationConfig

end ActionSpec

/-- A text without the separators of the digest. -/
def Unmarked (text : String) : Prop :=
  ',' ∉ text.toList ∧ '|' ∉ text.toList

/-- The free texts have no separators, and no optional value is an explicit
null (the reader of manifests leaves none). -/
structure ActionSpec.Plain (spec : ActionSpec) : Prop where
  version : '|' ∉ spec.version.toList
  requiredImports : ∀ name ∈ spec.requiredImports, Unmarked name
  secrets : ∀ secret ∈ spec.secrets, Unmarked secret.name
  declaredSideEffects : ∀ effect ∈ spec.declaredSideEffects, Unmarked effect
  databaseConfig : spec.databaseConfig ≠ some .null
  bodyTemplate : ∀ template ∈ spec.template, template.bodyTemplate ≠ some .null

theorem joined_cons (text : String) (rest : List String) :
    joined (text :: rest) = text.toList ++ ',' :: joined rest := by
  simp [joined, terminated]

theorem bar_notMem_joined {texts : List String} (unmarked : ∀ text ∈ texts, Unmarked text) : '|' ∉ joined texts := by
  intro member
  obtain ⟨text, listed, inside⟩ := List.mem_flatMap.mp member
  rcases List.mem_append.mp inside with within | comma
  · exact (unmarked text listed).2 within
  · exact absurd (List.mem_singleton.mp comma) (by decide)

theorem joined_inj {texts others : List String} (unmarked : ∀ text ∈ texts, Unmarked text)
    (plain : ∀ text ∈ others, Unmarked text) (same : joined texts = joined others) : texts = others := by
  induction texts generalizing others with
  | nil =>
    cases others with
    | nil => rfl
    | cons other rest => simp [joined, terminated] at same
  | cons text rest ih =>
    cases others with
    | nil => simp [joined, terminated] at same
    | cons other more =>
      rw [joined_cons, joined_cons] at same
      obtain ⟨first, later⟩ := append_cons_inj
        (clear_of_notMem (unmarked text (List.mem_cons_self ..)).1 (plain other (List.mem_cons_self ..)).1) same
      rw [String.toList_injective first, ih (fun t member => unmarked t (List.mem_cons_of_mem _ member))
        (fun t member => plain t (List.mem_cons_of_mem _ member)) later]

/-- A list of unmarked texts is read back up to the bar behind it. -/
theorem joined_append_inj {texts others : List String} {rest tail : List Char} (unmarked : ∀ text ∈ texts, Unmarked text)
    (plain : ∀ text ∈ others, Unmarked text)
    (same : terminated '|' (joined texts) ++ rest = terminated '|' (joined others) ++ tail) :
    texts = others ∧ rest = tail := by
  obtain ⟨lists, rests⟩ := terminated_append_inj
    (clear_of_notMem (bar_notMem_joined unmarked) (bar_notMem_joined plain)) same
  exact ⟨joined_inj unmarked plain lists, rests⟩

/-- A document is read back up to the bar behind it. -/
theorem value_append_inj {v w : Json} {rest tail : List Char}
    (same : terminated '|' v.compact ++ rest = terminated '|' w.compact ++ tail) : v = w ∧ rest = tail := by
  simp only [terminated, List.append_assoc, List.singleton_append] at same
  have delimited : ∀ more : List Char, Json.Delimited ('|' :: more) := by
    intro more c first
    simp only [List.head?_cons, Option.mem_def, Option.some.injEq] at first
    subst first
    rfl
  obtain ⟨values, rests⟩ := Json.compact_append_inj v w (delimited rest) (delimited tail) same
  exact ⟨values, (List.cons.inj rests).2⟩

theorem optionalValue_inj {α : Type*} {toValue : α → Json} {a b : Option α}
    (injective : ∀ x ∈ a, ∀ y ∈ b, toValue x = toValue y → x = y)
    (first : ∀ x ∈ a, toValue x ≠ .null) (second : ∀ y ∈ b, toValue y ≠ .null)
    (same : optionalValue toValue a = optionalValue toValue b) : a = b := by
  cases a with
  | none =>
    cases b with
    | none => rfl
    | some y => exact absurd same.symm (second y rfl)
  | some x =>
    cases b with
    | none => exact absurd same (first x rfl)
    | some y => rw [injective x rfl y rfl same]

theorem optionalJson_inj {a b : Option Json} (first : a ≠ some .null) (second : b ≠ some .null)
    (same : optionalValue id a = optionalValue id b) : a = b := by
  refine optionalValue_inj (fun _ _ _ _ same => same) ?_ ?_ same
  · rintro x member rfl
    exact first member
  · rintro y member rfl
    exact second member

theorem textsValue_injective : Function.Injective textsValue := by
  intro texts others same
  exact List.map_injective_iff.mpr string_injective (Json.array.inj same)

theorem FsOperation.asStr_injective : Function.Injective FsOperation.asStr := by
  intro a b same
  cases a <;> cases b <;> first | rfl | exact absurd same (by decide)

theorem EgressConfig.toValue_injective : Function.Injective EgressConfig.toValue := by
  intro a b same
  simp only [toValue, Json.object.injEq, List.cons.injEq, Prod.mk.injEq, Json.string.injEq, true_and, and_true] at same
  obtain ⟨profile, domains, methods⟩ := same
  cases a
  cases b
  simp_all [(textsValue_injective).eq_iff]

theorem TemplateConfig.toValue_inj {a b : TemplateConfig} (first : a.bodyTemplate ≠ some .null)
    (second : b.bodyTemplate ≠ some .null) (same : a.toValue = b.toValue) : a = b := by
  simp only [toValue, Json.object.injEq, List.cons.injEq, Prod.mk.injEq, Json.string.injEq, true_and, and_true] at same
  obtain ⟨method, url, headers, body⟩ := same
  have fields : Function.Injective fun header : String × String => (header.1, Json.string header.2) := by
    rintro ⟨name, value⟩ ⟨name', value'⟩ equal
    simpa using equal
  have headers := List.map_injective_iff.mpr fields headers
  have body := optionalJson_inj first second body
  cases a
  cases b
  simp_all

/-- Two sections of the same text differ only in what was compiled. -/
theorem FsConfig.toValue_inj {a b : FsConfig} (same : a.toValue = b.toValue) :
    { a with compiledAllowed := [], compiledDenied := [] } = { b with compiledAllowed := [], compiledDenied := [] } := by
  simp only [toValue, Json.object.injEq, List.cons.injEq, Prod.mk.injEq, Json.number.injEq, JsonNumber.int.injEq,
    Nat.cast_inj, true_and, and_true] at same
  obtain ⟨operations, allowed, denied, size⟩ := same
  have names : Function.Injective fun op : FsOperation => Json.string op.asStr :=
    (string_injective).comp FsOperation.asStr_injective
  have operations := List.map_injective_iff.mpr names (Json.array.inj operations)
  have allowed := List.map_injective_iff.mpr string_injective (Json.array.inj allowed)
  have denied := List.map_injective_iff.mpr string_injective (Json.array.inj denied)
  have size := UInt64.toNat_inj.mp size
  cases a
  cases b
  simp_all

theorem require_eq_ok {condition : Bool} {reason : String} {u : Unit} :
    require condition reason = .ok u ↔ condition = true := by
  unfold require
  split
  · simp [*]
  · simp [*]

theorem scope_unmarked {scope : String} (checked : validateScopeFormat scope = .ok ()) : Unmarked scope := by
  simp only [validateScopeFormat, Except.bind_eq_ok, require_eq_ok] at checked
  obtain ⟨_, _, _, _, _, plain, _⟩ := checked
  have letters := List.all_eq_true.mp plain
  exact ⟨fun comma => absurd (letters _ comma) (by decide), fun bar => absurd (letters _ bar) (by decide)⟩

namespace ActionSpec
variable {loader : Loader} {a b : ActionSpec}

/-- What validation says of the texts that stand between bars. -/
structure Checked (spec : ActionSpec) : Prop where
  actionId : '|' ∉ spec.actionId.toList
  providerModuleDigest : '|' ∉ spec.providerModuleDigest.toList
  requiredScopes : ∀ scope ∈ spec.requiredScopes, Unmarked scope

theorem checked_of_validate {spec : ActionSpec} (accepted : spec.validate loader = .ok ()) : spec.Checked := by
  simp only [validate, validateActionId, validateScopes, Except.bind_eq_ok, require_eq_ok] at accepted
  obtain ⟨_, ⟨_, _, _, _, letters⟩, provider, parsed, _, _, _, _, _, _, _, ⟨_, _, _, _, scopes⟩, _⟩ := accepted
  exact ⟨bar_notMem_of_all letters (by decide), bar_notMem_of_parse parsed,
    fun scope member => scope_unmarked (Except.forM_eq_ok.1 scopes scope member)⟩

theorem hashed_eq_of_digestText (checked : a.Checked) (checked' : b.Checked) (plain : a.Plain) (plain' : b.Plain)
    (same : a.digestText = b.digestText) : a.hashed = b.hashed := by
  have same := List.append_cancel_left same
  obtain ⟨actionId, same⟩ := terminated_append_inj (clear_of_notMem checked.actionId checked'.actionId) same
  obtain ⟨version, same⟩ := terminated_append_inj (clear_of_notMem plain.version plain'.version) same
  obtain ⟨provider, same⟩ := terminated_append_inj
    (clear_of_notMem checked.providerModuleDigest checked'.providerModuleDigest) same
  obtain ⟨imports, same⟩ := joined_append_inj plain.requiredImports plain'.requiredImports same
  obtain ⟨limits, same⟩ := value_append_inj same
  obtain ⟨verifier, same⟩ := value_append_inj same
  obtain ⟨risk, same⟩ := value_append_inj same
  obtain ⟨secrets, same⟩ := joined_append_inj (List.forall_mem_map.mpr plain.secrets)
    (List.forall_mem_map.mpr plain'.secrets) same
  obtain ⟨effects, same⟩ := joined_append_inj plain.declaredSideEffects plain'.declaredSideEffects same
  obtain ⟨egress, same⟩ := value_append_inj same
  obtain ⟨scopes, same⟩ := joined_append_inj checked.requiredScopes checked'.requiredScopes same
  obtain ⟨database, same⟩ := value_append_inj same
  obtain ⟨template, same⟩ := value_append_inj same
  have fs : optionalValue FsConfig.toValue a.fs = optionalValue FsConfig.toValue b.fs :=
    Json.toCompactString_injective (congrArg String.ofList same)
  have actionId := String.toList_injective actionId
  have version := String.toList_injective version
  have provider := String.toList_injective provider
  have limits := ResourceLimits.toValue_injective limits
  have verifier := VerifierKind.asStr_injective verifier
  have risk := RiskLevel.asStr_injective risk
  have egress := EgressConfig.toValue_injective egress
  have database := optionalJson_inj plain.databaseConfig plain'.databaseConfig database
  have template := optionalValue_inj
    (fun t member u other => TemplateConfig.toValue_inj (plain.bodyTemplate t member) (plain'.bodyTemplate u other))
    (fun t _ => nofun) (fun t _ => nofun) template
  have secrets : (a.secrets.map fun secret => ({ name := secret.name } : SecretDecl)) =
      b.secrets.map fun secret => { name := secret.name } := by
    have named := congrArg (List.map fun name => ({ name := name } : SecretDecl)) secrets
    rw [List.map_map, List.map_map] at named
    exact named
  have fs : (a.fs.map fun fs => { fs with compiledAllowed := [], compiledDenied := [] }) =
      b.fs.map fun fs => { fs with compiledAllowed := [], compiledDenied := [] } := by
    revert fs
    cases a.fs with
    | none =>
      cases b.fs with
      | none => exact fun _ => rfl
      | some fs => exact nofun
    | some fs =>
      cases b.fs with
      | none => exact nofun
      | some other => exact fun same => congrArg some (FsConfig.toValue_inj same)
  simp only [hashed, declared, actionId, version, provider, imports, limits, verifier, risk, secrets, effects, egress, scopes,
    database, template, fs]

theorem digestText_hashed (spec : ActionSpec) : spec.hashed.digestText = spec.digestText := by
  have names : (spec.hashed.secrets.map SecretDecl.name) = spec.secrets.map SecretDecl.name := by
    simp [hashed, Function.comp_def]
  have fs : optionalValue FsConfig.toValue spec.hashed.fs = optionalValue FsConfig.toValue spec.fs := by
    simp only [hashed, declared]
    cases spec.fs with
    | none => rfl
    | some fs => rfl
  unfold digestText
  rw [names, fs]
  simp only [hashed, declared]

/-- Between plain manifests the bytes stand for what is hashed. -/
theorem digestPreimage_eq_iff (accepted : a.validate loader = .ok ()) (accepted' : b.validate loader = .ok ())
    (plain : a.Plain) (plain' : b.Plain) : a.digestPreimage = b.digestPreimage ↔ a.hashed = b.hashed := by
  constructor
  · intro same
    exact hashed_eq_of_digestText (checked_of_validate accepted) (checked_of_validate accepted') plain plain'
      (utf8_injective same)
  · intro same
    rw [digestPreimage, digestPreimage, ← digestText_hashed, same, digestText_hashed]

theorem agree_iff_of_hashed (same : a.hashed = b.hashed) : a.Agree b ↔ a.SameUnhashed b := by
  constructor
  · intro agree
    have declared := ActionSpec.mk.inj agree.1
    simp only [withHeaders] at declared
    exact ⟨declared.2.2.2.2.2.2.2.2.2.1, declared.2.2.2.2.2.2.2.1, declared.2.2.2.2.2.2.1⟩
  · rintro ⟨secrets, io, verification⟩
    have declared : a.declared = b.declared := by
      have whole : ∀ spec : ActionSpec, spec.declared =
          { spec.hashed with secrets := spec.secrets, io := spec.io, verificationConfig := spec.verificationConfig } :=
        fun _ => rfl
      rw [whole a, whole b, same, secrets, io, verification]
    have template : a.declared.template = b.declared.template := congrArg _ declared
    have template : a.template = b.template := template
    refine ⟨?_, ?_⟩
    · have emptied : ∀ spec : ActionSpec, (spec.withHeaders []).declared = spec.declared.withHeaders [] := fun _ => rfl
      rw [emptied, emptied, declared]
    · rw [headers, headers, template]

/-- Whatever a manifest declares, another one that is as valid has the same
bytes and does not declare the same. -/
theorem digest_shared (accepted : a.validate loader = .ok ()) :
    ∃ b, b.validate loader = .ok () ∧ b.digestPreimage = a.digestPreimage ∧ ¬a.Agree b := by
  let size := if a.io.maxResponseBytes = 0 then 1 else 0
  refine ⟨{ a with io := { a.io with maxResponseBytes := size } }, accepted, rfl, ?_⟩
  intro agree
  have same : a.io.maxResponseBytes = size := congrArg (fun spec : ActionSpec => spec.io.maxResponseBytes) agree.1
  simp only [size] at same
  split at same
  · omega
  · omega

theorem withHeaders_headers (spec : ActionSpec) : spec.withHeaders spec.headers = spec := by
  have same : (spec.template.map fun template => { template with headers := spec.headers }) = spec.template := by
    cases given : spec.template with
    | none => rfl
    | some template => simp [headers, given]
  rw [withHeaders, same]

theorem digestText_withHeaders_inj {spec : ActionSpec} {first second : List (String × String)} {template : TemplateConfig}
    (given : spec.template = some template)
    (same : (spec.withHeaders first).digestText = (spec.withHeaders second).digestText) : first = second := by
  unfold digestText at same
  simp only [withHeaders, given, Option.map_some, List.append_cancel_left_eq] at same
  obtain ⟨values, -⟩ := value_append_inj same
  simp only [optionalValue, TemplateConfig.toValue, Json.object.injEq, List.cons.injEq, Prod.mk.injEq, true_and,
    and_true] at values
  refine List.map_injective_iff.mpr ?_ values
  rintro ⟨name, value⟩ ⟨name', value'⟩ equal
  simpa using equal

/-- The bytes do not depend on the walk through the headers just where there is
only one walk. -/
theorem digest_stable_iff {spec : ActionSpec} (keys : (spec.headers.map Prod.fst).Nodup) :
    (∀ walked, spec.headers.Perm walked → (spec.withHeaders walked).digestPreimage = spec.digestPreimage) ↔
      spec.headers.length ≤ 1 := by
  constructor
  · intro stable
    by_contra many
    cases given : spec.template with
    | none => simp [headers, given] at many
    | some template =>
      match listed : spec.headers with
      | [] => simp [listed] at many
      | [_] => simp [listed] at many
      | first :: second :: rest =>
        have swapped := stable (second :: first :: rest) (listed ▸ List.Perm.swap _ _ _)
        have texts : (spec.withHeaders (second :: first :: rest)).digestText = (spec.withHeaders spec.headers).digestText := by
          rw [withHeaders_headers]
          exact utf8_injective swapped
        have walks := digestText_withHeaders_inj given texts
        rw [listed] at walks keys
        rw [(List.cons.inj walks).1] at keys
        simp at keys
  · intro few walked perm
    have same : walked = spec.headers := by
      match listed : spec.headers with
      | [] => exact (listed ▸ perm).nil_eq.symm
      | [only] => exact (List.perm_singleton.mp (listed ▸ perm).symm)
      | first :: second :: rest => simp [listed] at few
    rw [same, withHeaders_headers]

/-- How far the digest covers a manifest: as long as no free text has a
separator, equal bytes mean the same declaration where the sections that are not
hashed go along with those that are; no manifest is told from every other one;
and the bytes are stable just where at most one header is declared. -/
theorem digest_covers (accepted : a.validate loader = .ok ()) (keys : (a.headers.map Prod.fst).Nodup) :
    (a.Plain → ∀ b, b.validate loader = .ok () → b.Plain →
      ((a.digestPreimage = b.digestPreimage → a.Agree b) ↔ (a.hashed = b.hashed → a.SameUnhashed b))) ∧
    ¬(∀ b, b.validate loader = .ok () → a.digestPreimage = b.digestPreimage → a.Agree b) ∧
    ((∀ walked, a.headers.Perm walked → (a.withHeaders walked).digestPreimage = a.digestPreimage) ↔
      a.headers.length ≤ 1) := by
  refine ⟨fun plain b accepted' plain' => ?_, ?_, digest_stable_iff keys⟩
  · rw [digestPreimage_eq_iff accepted accepted' plain plain']
    exact forall_congr' agree_iff_of_hashed
  · intro covered
    obtain ⟨b, accepted', same, differ⟩ := digest_shared accepted
    exact differ (covered b accepted' same.symm)

/-- A gate without glob patterns that takes every domain entry. -/
def openLoader : Loader where
  parse _ := .error "not a manifest"
  compile _ := .error "not a glob pattern"
  validateManifestDomainEntry := .ok
  computeDigest spec := spec.computeDigest fun bytes => toString bytes.length

def pinnedModule : String :=
  "sha256:5f5f5f5f5f5f5f5f5f5f5f5f5f5f5f5f5f5f5f5f5f5f5f5f5f5f5f5f5f5f5f5f"

/-- A provider that is pinned by its digest, under a version with bars in it. -/
def pinnedDeploy : ActionSpec where
  actionId := "deploy"
  version := "1|builtin:http_api|latchgate:io/http"
  providerModuleDigest := pinnedModule
  requiredImports := ["latchgate:io/log"]

/-- The provider of the binary, with the bars in the name of an import. -/
def builtinDeploy : ActionSpec where
  actionId := "deploy"
  version := "1"
  providerModuleDigest := "builtin:http_api"
  requiredImports := ["latchgate:io/http|" ++ pinnedModule ++ "|latchgate:io/log"]

def templateDeploy : ActionSpec where
  actionId := "deploy"
  version := "1"
  providerModuleDigest := "builtin:http_api"
  template := some {
    method := "POST"
    urlTemplate := "https://ci.example/deploy"
    headers := [("accept", "application/json"), ("x-stage", "prod")] }

/-- Three fields in the front that are printed alike leave the text as it is. -/
theorem digestText_fronts {spec : ActionSpec} {version version' digest digest' : String} {imports imports' : List String}
    (same : ∀ rest,
      terminated '|' version.toList ++ (terminated '|' digest.toList ++ (terminated '|' (joined imports) ++ rest)) =
        terminated '|' version'.toList ++ (terminated '|' digest'.toList ++ (terminated '|' (joined imports') ++ rest))) :
    { spec with version, providerModuleDigest := digest, requiredImports := imports }.digestText =
      { spec with version := version', providerModuleDigest := digest', requiredImports := imports' }.digestText :=
  congrArg (fun rest => "latchgate-action-v1:".toList ++ (terminated '|' spec.actionId.toList ++ rest)) (same _)

/-- The bars of a version and of an import are read as those between fields. -/
theorem digestText_swapped : pinnedDeploy.digestText = builtinDeploy.digestText := by
  have version : "1|builtin:http_api|latchgate:io/http" = "1" ++ ("|" ++ ("builtin:http_api" ++ ("|" ++ "latchgate:io/http"))) := rfl
  have first : "latchgate:io/http|" = "latchgate:io/http" ++ "|" := rfl
  have last : "|latchgate:io/log" = "|" ++ "latchgate:io/log" := rfl
  have bar : "|".toList = ['|'] := String.toList_ofList
  refine @digestText_fronts pinnedDeploy _ _ _ _ _ _ fun rest => ?_
  simp only [terminated, joined, List.flatMap_singleton, version, first, last, String.toList_append, bar, List.append_assoc,
    List.cons_append, List.nil_append]

/-- Two valid manifests with different providers and the same bytes, and a
manifest whose bytes depend on the walk through its headers. -/
theorem provider_swapped :
    (pinnedDeploy.validate openLoader = .ok () ∧ builtinDeploy.validate openLoader = .ok () ∧
      pinnedDeploy.digestPreimage = builtinDeploy.digestPreimage ∧ ¬pinnedDeploy.Agree builtinDeploy) ∧
    templateDeploy.validate openLoader = .ok () ∧
      (templateDeploy.withHeaders templateDeploy.headers.reverse).digestPreimage ≠ templateDeploy.digestPreimage := by
  refine ⟨⟨by decide, by decide, congrArg utf8 digestText_swapped, ?_⟩, by decide, ?_⟩
  · intro agree
    have providers := (ActionSpec.mk.inj agree.1).2.2.1
    exact absurd providers (by decide)
  · intro same
    have back : templateDeploy.digestText = (templateDeploy.withHeaders templateDeploy.headers).digestText := by
      rw [withHeaders_headers]
    have walks := digestText_withHeaders_inj rfl ((utf8_injective same).trans back)
    exact absurd walks (by decide)

/-- A manifest with one header is stable, and no other is as good as it. -/
theorem digest_covers_sample :
    (templateDeploy.withHeaders [("accept", "application/json")]).validate openLoader = .ok () ∧
      ∀ walked, [("accept", "application/json")].Perm walked →
        ((templateDeploy.withHeaders [("accept", "application/json")]).withHeaders walked).digestPreimage =
          (templateDeploy.withHeaders [("accept", "application/json")]).digestPreimage := by
  have accepted : (templateDeploy.withHeaders [("accept", "application/json")]).validate openLoader = .ok () := by
    decide
  exact ⟨accepted, (digest_covers accepted (by decide)).2.2.mpr (by decide)⟩

end ActionSpec

end Latchgate
