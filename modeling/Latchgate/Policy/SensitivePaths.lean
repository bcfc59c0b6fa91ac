import Latchgate.Core.PathNames
import Latchgate.Policy.Decision

namespace Latchgate

/-! Globs as the policy language documents them: two stars stand for any text,
one star for a text without a delimiter. -/

inductive GlobPart where
  | literal (c : Char)
  | wildcard
  | superWildcard

namespace GlobPart

def parse : List Char → List GlobPart
  | '*' :: '*' :: rest => superWildcard :: parse rest
  | '*' :: rest => wildcard :: parse rest
  | c :: rest => literal c :: parse rest
  | [] => []

def Matches (delimiter : Char) : List GlobPart → List Char → Prop
  | [], text => text = []
  | literal c :: parts, text => ∃ rest, text = c :: rest ∧ Matches delimiter parts rest
  | wildcard :: parts, text => ∃ front rest, text = front ++ rest ∧ delimiter ∉ front ∧ Matches delimiter parts rest
  | superWildcard :: parts, text => ∃ front rest, text = front ++ rest ∧ Matches delimiter parts rest

theorem matches_literals {delimiter : Char} (text : List Char) {parts : List GlobPart} {whole : List Char} :
    Matches delimiter (text.map literal ++ parts) whole ↔
      ∃ rest, whole = text ++ rest ∧ Matches delimiter parts rest := by
  induction text generalizing whole with
  | nil => simp
  | cons c text ih => simp [Matches, ih]

theorem matches_wildcard {delimiter : Char} {text : List Char} :
    Matches delimiter [wildcard] text ↔ delimiter ∉ text := by
  simp [Matches]

theorem matches_superWildcard {delimiter : Char} {text : List Char} : Matches delimiter [superWildcard] text := by
  simp [Matches]

/-- The matching tries every cut of the text. -/
def runs (delimiter : Char) : List GlobPart → List Char → Bool
  | [], text => text.isEmpty
  | literal c :: parts, text => text.head? = some c && runs delimiter parts text.tail
  | wildcard :: parts, text => (List.range (text.length + 1)).any fun n =>
    !(text.take n).contains delimiter && runs delimiter parts (text.drop n)
  | superWildcard :: parts, text => (List.range (text.length + 1)).any fun n => runs delimiter parts (text.drop n)

theorem exists_cut {text : List Char} {holds : List Char → List Char → Prop} :
    (∃ n ∈ List.range (text.length + 1), holds (text.take n) (text.drop n)) ↔
      ∃ front rest, text = front ++ rest ∧ holds front rest := by
  constructor
  · rintro ⟨n, -, held⟩
    exact ⟨_, _, (List.take_append_drop n text).symm, held⟩
  · rintro ⟨front, rest, rfl, held⟩
    refine ⟨front.length, List.mem_range.mpr (by rw [List.length_append]; omega), ?_⟩
    rwa [List.take_left, List.drop_left]

theorem runs_iff {delimiter : Char} {parts : List GlobPart} {text : List Char} :
    runs delimiter parts text = true ↔ Matches delimiter parts text := by
  induction parts generalizing text with
  | nil => rw [runs, Matches, List.isEmpty_iff]
  | cons part parts ih =>
    cases part with
    | literal c =>
      rw [runs, Matches, Bool.and_eq_true, decide_eq_true_iff, ih]
      cases text <;> simp
    | wildcard =>
      rw [runs, Matches, List.any_eq_true]
      simp only [Bool.and_eq_true, Bool.not_eq_true', List.contains_eq_mem, decide_eq_false_iff_not, ih]
      exact @exists_cut text fun front rest => delimiter ∉ front ∧ Matches delimiter parts rest
    | superWildcard =>
      rw [runs, Matches, List.any_eq_true]
      simp only [ih]
      exact @exists_cut text fun _ rest => Matches delimiter parts rest

/-- Any text, then the pattern's own, then what the rest of the pattern matches. -/
theorem matches_behind {delimiter : Char} (text : List Char) {parts : List GlobPart} {whole : List Char} :
    Matches delimiter (superWildcard :: (text.map literal ++ parts)) whole ↔
      ∃ front rest, whole = front ++ (text ++ rest) ∧ Matches delimiter parts rest := by
  simp only [Matches, matches_literals]
  constructor
  · rintro ⟨front, _, rfl, rest, rfl, matched⟩
    exact ⟨front, rest, rfl, matched⟩
  · rintro ⟨front, rest, rfl, matched⟩
    exact ⟨front, _, rfl, rest, rfl, matched⟩

end GlobPart

namespace Policy

/-- A glob is matched with the dot for a delimiter where none is given. -/
structure DocumentedGlobs (builtins : Builtins) : Prop where
  globMatch : ∀ pattern text, (∀ c ∈ pattern.toList, c ∉ ['?', '[', '{', '\\']) →
    (builtins.globMatch pattern [] text = true ↔ GlobPart.Matches '.' (GlobPart.parse pattern.toList) text.toList)

open Rego

def components (path : List Char) : List (List Char) :=
  path.splitOn '/'

/-- The names at the end of a path, or from somewhere on, for which an operator
is asked. -/
inductive SensitiveNames : List (List Char) → Prop
  | env : SensitiveNames [".env".toList]
  | envFile (suffix : List Char) (below : List (List Char)) (plain : ∀ name ∈ suffix :: below, '.' ∉ name) :
    SensitiveNames ((".env.".toList ++ suffix) :: below)
  | secrets (below : List (List Char)) (some_ : below ≠ []) : SensitiveNames ("secrets".toList :: below)
  | ssh (below : List (List Char)) (some_ : below ≠ []) : SensitiveNames (".ssh".toList :: below)
  | credentials : SensitiveNames [".aws".toList, "credentials".toList]

/-- The names are not the first ones of the path. -/
def SensitivePath (path : List Char) : Prop :=
  ∃ front behind, front ≠ [] ∧ components path = front ++ behind ∧ SensitiveNames behind

theorem components_append (front rest : List Char) :
    components (front ++ '/' :: rest) = components front ++ components rest :=
  List.splitOn_append_cons_of_beq _ _ (by decide)

theorem components_ne_nil (path : List Char) : components path ≠ [] :=
  List.splitOn_ne_nil '/' path

theorem components_injective : Function.Injective components := by
  intro first second same
  calc
    first = ['/'].intercalate (components first) := (List.intercalate_splitOn '/').symm
    _ = ['/'].intercalate (components second) := by rw [same]
    _ = second := List.intercalate_splitOn '/'

theorem components_eq_append {path : List Char} {front behind : List (List Char)} (first : front ≠ [])
    (second : behind ≠ []) :
    components path = front ++ behind ↔
      ∃ pre post, path = pre ++ '/' :: post ∧ components pre = front ∧ components post = behind := by
  constructor
  · intro split
    have plain : ∀ name ∈ front ++ behind, '/' ∉ name := fun name member =>
      FsPath.separator_notMem_of_mem_splitOn (split ▸ member)
    have before : components (['/'].intercalate front) = front :=
      List.splitOn_intercalate '/' (fun name member => plain name (List.mem_append_left _ member)) first
    have after : components (['/'].intercalate behind) = behind :=
      List.splitOn_intercalate '/' (fun name member => plain name (List.mem_append_right _ member)) second
    refine ⟨_, _, components_injective ?_, before, after⟩
    rw [components_append, before, after, split]
  · rintro ⟨pre, post, rfl, rfl, rfl⟩
    exact components_append pre post

theorem components_eq_singleton {path name : List Char} (plain : '/' ∉ name) :
    components path = [name] ↔ path = name := by
  have single : components name = [name] := by
    have joined := List.splitOn_intercalate '/' (List.forall_mem_singleton.mpr plain) (by simp)
    rwa [List.intercalate_singleton] at joined
  rw [← single, components_injective.eq_iff]

/-- What the patterns have behind their first separator. -/
def sensitiveTails : List (List Char × List GlobPart) :=
  [(".env".toList, []), (".env.".toList, [.wildcard]), ("secrets/".toList, [.superWildcard]),
    (".ssh/".toList, [.superWildcard]), (".aws/credentials".toList, [])]

theorem sensitivePatterns_parse : sensitivePatterns.map (fun pattern => GlobPart.parse pattern.toList) =
    sensitiveTails.map fun tail => .superWildcard :: (('/' :: tail.1).map .literal ++ tail.2) :=
  rfl

/-- The text in front of a directory, and the directory of that name. -/
theorem below_iff {name post : List Char} (plain : '/' ∉ name) :
    (∃ rest, post = name ++ '/' :: rest) ↔ ∃ below, below ≠ [] ∧ components post = name :: below := by
  constructor
  · rintro ⟨rest, rfl⟩
    refine ⟨components rest, components_ne_nil rest, ?_⟩
    rw [components_append, (components_eq_singleton plain).mpr rfl, List.singleton_append]
  · rintro ⟨below, some_, split⟩
    obtain ⟨pre, rest, rfl, single, -⟩ := (components_eq_append (List.cons_ne_nil name []) some_).mp split
    rw [(components_eq_singleton plain).mp single]
    exact ⟨rest, rfl⟩

theorem components_cons (c : Char) (text : List Char) (other : c ≠ '/') :
    components (c :: text) = (components text).modifyHead (List.cons c) := by
  rw [components, List.splitOn_cons_eq_if_modifyHead, if_neg (by simpa using other)]
  rfl

theorem notMem_iff {c : Char} (other : c ≠ '/') {text : List Char} :
    c ∉ text ↔ ∀ name ∈ components text, c ∉ name := by
  induction text with
  | nil => simp [components]
  | cons d text ih =>
    by_cases separator : d = '/'
    · subst separator
      have split : components ('/' :: text) = [] :: components text := components_append [] text
      rw [split, List.forall_mem_cons, ← ih, List.mem_cons, not_or]
      exact ⟨fun absent => ⟨List.not_mem_nil, absent.2⟩, fun absent => ⟨other, absent.2⟩⟩
    · obtain ⟨first, more, split⟩ := List.exists_cons_of_ne_nil (components_ne_nil text)
      rw [split, List.forall_mem_cons] at ih
      rw [components_cons d text separator, split, List.modifyHead_cons, List.forall_mem_cons, List.mem_cons, List.mem_cons,
        not_or, not_or, ih, and_assoc]

theorem components_below {name : List Char} (plain : '/' ∉ name) {text first : List Char} {below : List (List Char)}
    (split : components text = first :: below) : components (name ++ text) = (name ++ first) :: below := by
  induction name with
  | nil => exact split
  | cons c name ih =>
    rw [List.mem_cons, not_or] at plain
    rw [List.cons_append, components_cons c _ fun same => plain.1 same.symm, ih plain.2]
    rfl

theorem envFile_iff {post : List Char} :
    (∃ rest, post = ".env.".toList ++ rest ∧ '.' ∉ rest) ↔
      ∃ suffix below, components post = (".env.".toList ++ suffix) :: below ∧
        ∀ name ∈ suffix :: below, '.' ∉ name := by
  have dot : '.' ≠ '/' := by decide
  have plain : '/' ∉ ".env.".toList := by decide
  constructor
  · rintro ⟨rest, rfl, clean⟩
    obtain ⟨suffix, below, split⟩ := List.exists_cons_of_ne_nil (components_ne_nil rest)
    exact ⟨suffix, below, components_below plain split, split ▸ (notMem_iff dot).mp clean⟩
  · rintro ⟨suffix, below, split, clean⟩
    have names : ∀ name ∈ suffix :: below, '/' ∉ name := by
      have pieces : ∀ name ∈ (".env.".toList ++ suffix) :: below, '/' ∉ name := fun name member =>
        FsPath.separator_notMem_of_mem_splitOn (split ▸ member)
      obtain ⟨first, later⟩ := List.forall_mem_cons.mp pieces
      exact List.forall_mem_cons.mpr ⟨fun inside => first (List.mem_append_right _ inside), later⟩
    have rest : components (['/'].intercalate (suffix :: below)) = suffix :: below :=
      List.splitOn_intercalate '/' names (List.cons_ne_nil _ _)
    refine ⟨_, components_injective (split.trans (components_below plain rest).symm), (notMem_iff dot).mpr ?_⟩
    rw [rest]
    exact clean

theorem sensitiveNames_iff {post : List Char} :
    SensitiveNames (components post) ↔
      ∃ tail ∈ sensitiveTails, ∃ rest, post = tail.1 ++ rest ∧ GlobPart.Matches '.' tail.2 rest := by
  have aws : components ".aws/credentials".toList = [".aws".toList, "credentials".toList] := rfl
  simp only [sensitiveTails, List.exists_mem_cons_iff, List.not_mem_nil, false_and, exists_false, or_false,
    GlobPart.matches_wildcard, GlobPart.matches_superWildcard, and_true]
  rw [envFile_iff]
  constructor
  · intro names
    generalize split : components post = listed at names ⊢
    cases names with
    | env => exact .inl ⟨[], (components_eq_singleton (by decide)).mp split, rfl⟩
    | envFile suffix below plain => exact .inr (.inl ⟨suffix, below, rfl, plain⟩)
    | secrets below some_ =>
      obtain ⟨rest, rfl⟩ := (below_iff (by decide)).mpr ⟨below, some_, split⟩
      exact .inr (.inr (.inl ⟨rest, rfl⟩))
    | ssh below some_ =>
      obtain ⟨rest, rfl⟩ := (below_iff (by decide)).mpr ⟨below, some_, split⟩
      exact .inr (.inr (.inr (.inl ⟨rest, rfl⟩)))
    | credentials => exact .inr (.inr (.inr (.inr ⟨[], components_injective (split.trans aws.symm), rfl⟩)))
  · rintro (⟨rest, rfl, rfl⟩ | ⟨suffix, below, split, plain⟩ | ⟨rest, rfl⟩ | ⟨rest, rfl⟩ | ⟨rest, rfl, rfl⟩)
    · exact .env
    · rw [split]
      exact .envFile suffix below plain
    · obtain ⟨below, some_, split⟩ :=
        (@below_iff "secrets".toList ("secrets/".toList ++ rest) (by decide)).mp ⟨rest, rfl⟩
      rw [split]
      exact .secrets below some_
    · obtain ⟨below, some_, split⟩ :=
        (@below_iff ".ssh".toList (".ssh/".toList ++ rest) (by decide)).mp ⟨rest, rfl⟩
      rw [split]
      exact .ssh below some_
    · exact .credentials

theorem sensitivePath_iff {path : List Char} :
    SensitivePath path ↔ ∃ tail ∈ sensitiveTails,
      GlobPart.Matches '.' (.superWildcard :: (('/' :: tail.1).map .literal ++ tail.2)) path := by
  constructor
  · rintro ⟨front, behind, first, split, names⟩
    have some_ : behind ≠ [] := by
      rintro rfl
      cases names
    obtain ⟨pre, post, rfl, rfl, rfl⟩ := (components_eq_append first some_).mp split
    obtain ⟨tail, listed, rest, rfl, matched⟩ := sensitiveNames_iff.mp names
    exact ⟨tail, listed, (GlobPart.matches_behind _).mpr ⟨pre, rest, rfl, matched⟩⟩
  · rintro ⟨tail, listed, matched⟩
    obtain ⟨pre, rest, rfl, held⟩ := (GlobPart.matches_behind _).mp matched
    refine ⟨components pre, components (tail.1 ++ rest), components_ne_nil pre, components_append pre _, ?_⟩
    exact sensitiveNames_iff.mpr ⟨tail, listed, rest, rfl, held⟩

section Decisions
variable {builtins : Builtins} {data : Json} {input : PolicyInput}

theorem fsPathSensitive_iff (documented : DocumentedGlobs builtins) :
    fsPathSensitive builtins input = true ↔
      input.actionCategory = "fs" ∧ SensitivePath (input.fsPath.getD "").toList := by
  have plain : ∀ pattern ∈ sensitivePatterns, ∀ c ∈ pattern.toList, c ∉ ['?', '[', '{', '\\'] := by
    simp [sensitivePatterns]
  have each : (∃ pattern ∈ sensitivePatterns, builtins.globMatch pattern [] (input.fsPath.getD "") = true) ↔
      SensitivePath (input.fsPath.getD "").toList := by
    have parsed (matched : List GlobPart → Prop) :
        (∃ pattern ∈ sensitivePatterns, matched (GlobPart.parse pattern.toList)) ↔
          ∃ tail ∈ sensitiveTails, matched (.superWildcard :: (('/' :: tail.1).map .literal ++ tail.2)) := by
      have same : (∃ parts ∈ sensitivePatterns.map fun pattern => GlobPart.parse pattern.toList, matched parts) ↔
          ∃ parts ∈ sensitiveTails.map fun tail => .superWildcard :: (('/' :: tail.1).map .literal ++ tail.2),
            matched parts := by
        rw [sensitivePatterns_parse]
      simpa only [List.mem_map, exists_exists_and_eq_and] using same
    rw [sensitivePath_iff, ← parsed fun parts => GlobPart.Matches '.' parts (input.fsPath.getD "").toList]
    refine exists_congr fun pattern => and_congr_right fun listed => ?_
    exact documented.globMatch pattern _ (plain pattern listed)
  rw [← each, fsPathSensitive, List.any_eq_true]
  simp only [Bool.and_eq_true, decide_eq_true_eq]
  constructor
  · rintro ⟨pattern, listed, category, matched⟩
    exact ⟨category, pattern, listed, matched⟩
  · rintro ⟨category, pattern, listed, matched⟩
    exact ⟨pattern, listed, category, matched⟩

/-- A call that is not in the allowlist goes on unattended just where its risk
is low or medium, its domains and paths are known and it is not about a file
whose name, behind the first component of the path, is a sensitive one. -/
theorem unattended_iff (documented : DocumentedGlobs builtins)
    (unlisted : allowlisted data input.principal input.actionId = false) {requiresApproval : Bool} {callsAfter : Int}
    {allowedSinks : Json} {secrets : List String} {egress : EgressProfile} {version : Json}
    (allowed : .allow requiresApproval callsAfter allowedSinks secrets egress version ∈ decision builtins data input) :
    requiresApproval = false ↔
      isHighRisk input = false ∧ input.unresolvedPaths = [] ∧ input.unresolvedDomains = [] ∧
        ¬(input.actionCategory = "fs" ∧ SensitivePath (input.fsPath.getD "").toList) := by
  rw [← fsPathSensitive_iff documented, Bool.not_eq_true]
  obtain ⟨-, rules⟩ := allow_mem_decision allowed
  rcases rules with skipped | required | free
  · have pair := (mem_rule.1 skipped).1
    rw [unlisted] at pair
    cases pair
  · have asked := (mem_result (mem_requireApproval required)).1
    subst asked
    refine iff_of_false (by decide) ?_
    rintro ⟨low, paths, domains, plain⟩
    simp [requireApproval, Rego.rule, low, paths, domains, plain] at required
  · obtain ⟨body, inResult⟩ := mem_rule.1 free
    simp only [Bool.and_eq_true, Bool.not_eq_true', decide_eq_true_eq, and_assoc, List.length_eq_zero_iff] at body
    exact iff_of_true (mem_result inResult).1 ⟨body.1, body.2.2.1, body.2.2.2, body.2.1⟩

end Decisions

/-! A key in a directory of the root, where nobody is asked. -/

theorem mem_id_iff (items : List Json) (item : Json) : item ∈ id items ↔ item ∈ items :=
  Iff.rfl

def documentedBuiltins : Builtins where
  globMatch pattern _ text := GlobPart.runs '.' (GlobPart.parse pattern.toList) text.toList
  showArray _ := ""
  showSet _ := ""
  sort := id
  mem_sort := mem_id_iff

theorem documentedGlobs : DocumentedGlobs documentedBuiltins :=
  ⟨fun _ _ _ => GlobPart.runs_iff⟩

def filesData : Json :=
  .object [("acl", .object [("agent", .object [("allowed_actions", .array [.string "fs_read"]),
      ("allowed_sinks", .array [])])]),
    ("policy_version", .string "v1")]

def keyInput : PolicyInput :=
  { blockedInput with actionId := "fs_read", actionCategory := "fs", fsPath := some ".ssh/id_ed25519" }

theorem keyInput_plain : ¬SensitivePath (keyInput.fsPath.getD "").toList := by
  rw [sensitivePath_iff]
  simp only [← GlobPart.runs_iff]
  decide +kernel

theorem unattended_iff_sample : ∃ callsAfter sinks secrets egress version,
    .allow false callsAfter sinks secrets egress version ∈ decision documentedBuiltins filesData keyInput := by
  have made : ∀ b, .allow b 4 (.array []) [] .none (.string "v1") ∈ result documentedBuiltins filesData keyInput b :=
    fun _ => List.mem_singleton.mpr rfl
  obtain ⟨b, allowed⟩ := mem_allowing _ made ⟨rfl, by decide, by decide, by decide, by decide, by decide⟩
  obtain rfl := (unattended_iff documentedGlobs (by decide) allowed).2
    ⟨by decide, rfl, rfl, fun asked => keyInput_plain asked.2⟩
  exact ⟨_, _, _, _, _, allowed⟩

end Policy
end Latchgate
