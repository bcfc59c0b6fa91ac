import Latchgate.Api.Approvals
import Latchgate.Core.PathNames
import Latchgate.Glob.Pattern
import Mathlib.Algebra.GroupWithZero.Nat

namespace Latchgate

namespace FsPath

/-! What an approval is for. -/

/-- The path that an approval is for, relative to the root of the session. -/
def approvedPath (root : Option Root) (path : String) : String :=
  if isAbsolute path then
    match root with
    | none => canonical path
    | some root => ofSegments ((named path).drop (named root.path).length)
  else canonical path

/-- What is left of the path relative to the root, where it is absolute. -/
def relativePart (root : Option Root) (path : String) : Option String :=
  if isAbsolute path then root.bind (relativizeToRoot path) else some path

/-- Behind the root the path has no segment that names nothing, but at its end
where it is absolute. -/
def Tidy (root : Option Root) (path : String) : Prop :=
  if isAbsolute path then ∀ r, root = some r → ∃ front names back, segments path = front ++ (names ++ back) ∧
    (front.filter fun s => !skipped s) = named r.path ∧ (∀ name ∈ names, skipped name = false) ∧ ∀ s ∈ back, skipped s = true
  else ∀ segment ∈ segments path, skipped segment = false

end FsPath

/-! What an approval learns. -/

section Handlers
variable (config : StoreConfig)

/-- What `approve_call` does before it claims gives it an operator. -/
def ApproveEnv.admits (env : ApproveEnv) (query : ApproveQuery) : Option String :=
  match env.operator with
  | .error _ => none
  | .ok operatorId =>
    if env.draining then none
    else if env.devMode = false ∧ env.operatorRateAllows = false then none
    else match validateLearnDomain env.validateDomainEntry query with
      | .error _ => none
      | .ok () => some operatorId

/-- The path entry that `approve_call` persists, before it executes the plan. -/
def learnedEntry (gate : Gate) (env : ApproveEnv) (approvalId : String) (query : ApproveQuery) : Option String :=
  match env.admits query with
  | none => none
  | some operatorId =>
    match claimOrShortCircuit config gate env.claim approvalId operatorId with
    | (_, .error _) => none
    | (_, .ok (.terminal _)) => none
    | (_, .ok (.claimed pending _)) =>
      match effectiveLearnPath query pending (env.sessionFsRoots pending.authContext.sessionId) with
      | .error _ => none
      | .ok effectivePath => if env.pathSaved then effectivePath else none

/-- The call claims the approval. -/
def Claims (gate : Gate) (env : ApproveEnv) (approvalId : String) (query : ApproveQuery) (pending : PendingApproval) : Prop :=
  ∃ operatorId gate' claimToken, env.admits query = some operatorId ∧
    claimOrShortCircuit config gate env.claim approvalId operatorId = (gate', .ok (.claimed pending claimToken))

end Handlers

/-- Of all paths the entry lets in this one only. `compile` is the glob engine. -/
def MatchesOnly (compile : String → Except String GlobPattern) (entry approved : String) : Prop :=
  ∀ path, (∃ g, compile entry = .ok g ∧ evaluatePath path [g] [] = .allowed) ↔ path = approved

/-- What is documented of the glob engine: a compiled pattern matches as some
reading of its text does, and a pattern without metacharacters compiles. -/
structure GlobEngine (compile : String → Except String GlobPattern) : Prop where
  reads : ∀ pattern g, compile pattern = .ok g → ∃ tokens, Glob.Reads pattern.toList tokens ∧
    ∀ path, g path = true ↔ Glob.MatchesAll tokens path.toList
  plain : ∀ pattern, Glob.Plain pattern.toList → ∃ g, compile pattern = .ok g

section Property
variable (compile : String → Except String GlobPattern) (config : StoreConfig)

/-- An entry is learned from a claimed approval only, and it matches exactly the
path that the approval is for. -/
def LearnsExactly (gate : Gate) (env : ApproveEnv) (approvalId : String) (query : ApproveQuery) : Prop :=
  ∀ entry, learnedEntry config gate env approvalId query = some entry →
    ∃ pending path, Claims config gate env approvalId query pending ∧ pending.unresolvedPaths.head? = some path ∧
      MatchesOnly compile entry (FsPath.approvedPath (env.sessionFsRoots pending.authContext.sessionId) path)

/-- Where the first unresolved path of the claimed approval is under the root
and valid, it is tidy and names a path without metacharacters. -/
def LearnsPlain (gate : Gate) (env : ApproveEnv) (approvalId : String) (query : ApproveQuery) : Prop :=
  ∀ pending path rest, Claims config gate env approvalId query pending → pending.unresolvedPaths.head? = some path →
    FsPath.relativePart (env.sessionFsRoots pending.authContext.sessionId) path = some rest →
    FsPath.validatePathGlobEntry rest = .ok () → env.pathSaved = true →
      Glob.Plain (FsPath.approvedPath (env.sessionFsRoots pending.authContext.sessionId) path).toList ∧
        FsPath.Tidy (env.sessionFsRoots pending.authContext.sessionId) path

end Property

namespace FsPath

section Counting
variable {counts : Char → Bool}

theorem countP_intercalate (separator : counts '/' = false) (names : List (List Char)) :
    (List.intercalate ['/'] names).countP counts = (names.map fun name => name.countP counts).sum := by
  induction names with
  | nil => rfl
  | cons name names ih =>
    cases names with
    | nil => rw [List.intercalate_singleton, List.map_singleton, List.sum_singleton]
    | cons next more =>
      rw [List.intercalate_cons_cons, List.countP_append, List.countP_append, ih, List.map_cons, List.sum_cons,
        List.countP_singleton, separator]
      rfl

/-- Neither separators nor dots being counted, nothing that is counted is lost. -/
theorem countP_canonical (separator : counts '/' = false) (dot : counts '.' = false) (path : String) :
    (canonical path).toList.countP counts = path.toList.countP counts := by
  have whole : path.toList = List.intercalate ['/'] (segments path) := (List.intercalate_splitOn '/').symm
  rw [canonical, ofSegments, String.toList_ofList, countP_intercalate separator, whole, countP_intercalate separator, named]
  induction segments path with
  | nil => rfl
  | cons name names ih =>
    by_cases nothing : skipped name = true
    · have zero : name.countP counts = 0 := by
        simp only [skipped, decide_eq_true_eq] at nothing
        rcases nothing with rfl | rfl
        · rfl
        · rw [List.countP_singleton, dot]
          rfl
      rw [List.filter_cons_of_neg (by simpa using nothing), ih, List.map_cons, List.sum_cons, zero, Nat.zero_add]
    · rw [List.filter_cons_of_pos (by simpa using nothing), List.map_cons, List.sum_cons, ih, List.map_cons, List.sum_cons]

end Counting

theorem plain_canonical (path : String) : Glob.Plain (canonical path).toList ↔ Glob.Plain path.toList := by
  have same := @countP_canonical (fun c => decide (c ∈ Glob.metacharacters)) (by decide) (by decide) path
  have none_ : ∀ text : List Char, Glob.Plain text ↔ (text.countP fun c => decide (c ∈ Glob.metacharacters)) = 0 := by
    intro text
    simp only [Glob.Plain, List.countP_eq_zero, decide_eq_true_eq]
  rw [none_, none_, same]

/-- What is trimmed of names and skipped segments behind them are the names. -/
theorem mem_of_trimmed {names back : List (List Char)} {name : List Char} (clear : ∀ s ∈ names, skipped s = false)
    (nothing : ∀ s ∈ back, skipped s = true) (member : name ∈ ((names ++ back).dropWhile skipped).rdropWhile skipped) :
    name ∈ names := by
  cases names with
  | nil =>
    rw [List.nil_append, List.dropWhile_eq_nil_iff.mpr nothing] at member
    exact absurd member List.not_mem_nil
  | cons first names =>
    have kept := clear first List.mem_cons_self
    rw [List.cons_append, List.dropWhile_cons_of_neg (by rw [kept]; decide), ← List.cons_append, List.rdropWhile,
      List.reverse_append, List.dropWhile_append_of_pos fun s inside => nothing s (List.mem_reverse.mp inside)] at member
    exact (List.rdropWhile_prefix skipped _).mem member

/-- What is left of an absolute path, as segments. -/
theorem relativePart_absolute {root : Option Root} {path rest : String} (absolute : isAbsolute path = true)
    (left : relativePart root path = some rest) : ∃ r behind, root = some r ∧
      stripSegments (segments path) (named r.path) = some behind ∧ (behind.dropWhile skipped).rdropWhile skipped ≠ [] ∧
      rest = ofSegments ((behind.dropWhile skipped).rdropWhile skipped) := by
  unfold relativePart at left
  rw [if_pos absolute] at left
  obtain ⟨r, rfl, relative⟩ := Option.bind_eq_some_iff.mp left
  rw [relativizeToRoot, if_neg (by rw [absolute]; decide)] at relative
  cases stripped : stripPrefix path r with
  | none => simp only [stripped, reduceCtorEq] at relative
  | some text =>
    simp only [stripped, Option.ite_none_left_eq_some, Option.some.injEq] at relative
    obtain ⟨some_, rfl⟩ := relative
    obtain ⟨behind, found, rfl⟩ := Option.map_eq_some_iff.mp stripped
    refine ⟨r, behind, rfl, found, ?_, rfl⟩
    intro nothing
    rw [nothing] at some_
    exact some_ rfl

/-- A path is canonical if each of its segments names something. -/
theorem canonical_eq_self {path : String} (some_ : path ≠ "") :
    canonical path = path ↔ ∀ segment ∈ segments path, skipped segment = false := by
  have all : named path = segments path ↔ ∀ segment ∈ segments path, skipped segment = false := by
    rw [named, List.filter_eq_self]
    simp only [Bool.not_eq_true']
  rw [← all]
  constructor
  · intro same
    by_cases nothing : named path = []
    · rw [canonical, nothing] at same
      exact absurd same.symm some_
    · rw [← segments_canonical nothing, same]
  · intro same
    rw [canonical, same, ofSegments_segments]

section Relative
variable {root : Option Root} {path rest : String}

theorem segments_trimmed {behind front : List (List Char)} {path : String} (split : segments path = front ++ behind)
    (some_ : (behind.dropWhile skipped).rdropWhile skipped ≠ []) :
    segments (ofSegments ((behind.dropWhile skipped).rdropWhile skipped)) = (behind.dropWhile skipped).rdropWhile skipped := by
  refine segments_ofSegments (fun name member => ?_) some_
  have inside := (List.dropWhile_suffix skipped).mem ((List.rdropWhile_prefix skipped _).mem member)
  have whole : name ∈ segments path := by
    rw [split]
    exact List.mem_append_right front inside
  exact separator_notMem_of_mem_splitOn whole

/-- What is left of a path names what the path names behind the root. -/
theorem canonical_relativePart (left : relativePart root path = some rest) : canonical rest = approvedPath root path := by
  unfold approvedPath
  by_cases absolute : isAbsolute path = true
  · obtain ⟨r, behind, rfl, stripped, some_, rfl⟩ := relativePart_absolute absolute left
    obtain ⟨front, split, names⟩ := stripSegments_split (fun s member => by simpa using List.of_mem_filter member) stripped
    have whole : named path = named r.path ++ behind.filter fun s => !skipped s := by
      rw [named, split, List.filter_append, names]
    rw [if_pos absolute, canonical, named, segments_trimmed split some_, filter_rdropWhile, filter_dropWhile]
    simp only [whole, List.drop_left]
  · unfold relativePart at left
    rw [if_neg absolute, Option.some.injEq] at left
    rw [if_neg absolute, left]

/-- What is left of a path is canonical if the path is tidy. -/
theorem canonical_iff_tidy (left : relativePart root path = some rest) (some_ : rest ≠ "") :
    canonical rest = rest ↔ Tidy root path := by
  rw [canonical_eq_self some_]
  unfold Tidy
  by_cases absolute : isAbsolute path = true
  · obtain ⟨r, behind, rfl, stripped, trimmed, rfl⟩ := relativePart_absolute absolute left
    obtain ⟨front, split, names⟩ := stripSegments_split (fun s member => by simpa using List.of_mem_filter member) stripped
    rw [if_pos absolute, segments_trimmed split trimmed]
    constructor
    · rintro clear r' same
      obtain rfl := Option.some.inj same
      refine ⟨front ++ behind.takeWhile skipped, (behind.dropWhile skipped).rdropWhile skipped,
        (behind.dropWhile skipped).rtakeWhile skipped, ?_, ?_, clear, fun s member => List.mem_rtakeWhile_imp member⟩
      · rw [split, List.append_assoc, List.rdropWhile_append_rtakeWhile, List.takeWhile_append_dropWhile]
      · rw [List.filter_append, names, filter_skipped fun _ => List.mem_takeWhile_imp, List.append_nil]
    · intro tidy name member
      obtain ⟨front', names', back, split', root', clear, nothing⟩ := tidy r rfl
      rw [split'] at stripped
      rw [stripSegments_front root' stripped] at member
      exact clear name (mem_of_trimmed clear nothing member)
  · unfold relativePart at left
    rw [if_neg absolute, Option.some.injEq] at left
    rw [if_neg absolute, left]

end Relative

end FsPath

section Handlers
variable {config : StoreConfig} {gate : Gate} {env : ApproveEnv} {approvalId : String} {query : ApproveQuery}

theorem Claims.unique {pending other : PendingApproval} (one : Claims config gate env approvalId query pending)
    (two : Claims config gate env approvalId query other) : other = pending := by
  obtain ⟨operatorId, gate', claimToken, admitted, claimed⟩ := one
  obtain ⟨operatorId', gate'', claimToken', admitted', claimed'⟩ := two
  obtain rfl : operatorId = operatorId' := Option.some.inj (admitted.symm.trans admitted')
  rw [claimed] at claimed'
  injection claimed' with _ same
  injection same with same
  injection same with same
  exact same.symm

theorem learnedEntry_eq {entry : String} : learnedEntry config gate env approvalId query = some entry ↔
    ∃ pending, Claims config gate env approvalId query pending ∧ env.pathSaved = true ∧
      effectiveLearnPath query pending (env.sessionFsRoots pending.authContext.sessionId) = .ok (some entry) := by
  constructor
  · intro learned
    unfold learnedEntry at learned
    cases admitted : env.admits query with
    | none => simp only [admitted, reduceCtorEq] at learned
    | some operatorId =>
      rw [admitted] at learned
      rcases claimed : claimOrShortCircuit config gate env.claim approvalId operatorId with ⟨gate', e | ⟨pending, claimToken⟩ | reply⟩
      · simp only [claimed, reduceCtorEq] at learned
      · simp only [claimed] at learned
        cases path : effectiveLearnPath query pending (env.sessionFsRoots pending.authContext.sessionId) with
        | error e => simp only [path, reduceCtorEq] at learned
        | ok effectivePath =>
          simp only [path, Option.ite_none_right_eq_some] at learned
          exact ⟨pending, ⟨operatorId, gate', claimToken, admitted, claimed⟩, learned.1, by rw [path, learned.2]⟩
      · simp only [claimed, reduceCtorEq] at learned
  · rintro ⟨pending, ⟨operatorId, gate', claimToken, admitted, claimed⟩, saved, path⟩
    simp only [learnedEntry, admitted, claimed, path, saved, if_true]

theorem approveClaimed_learnedPath {pending : PendingApproval} {claimToken : String} {response : ExecutionResponse}
    (executed : (approveClaimed config gate env approvalId query pending claimToken).reply = .ok (.executed response)) :
    ∃ effectivePath, effectiveLearnPath query pending (env.sessionFsRoots pending.authContext.sessionId) = .ok effectivePath ∧
      response.learnedPath = if env.pathSaved then effectivePath else none := by
  unfold approveClaimed at executed
  cases path : effectiveLearnPath query pending (env.sessionFsRoots pending.authContext.sessionId) with
  | error e => simp only [path, reduceCtorEq] at executed
  | ok effectivePath =>
    refine ⟨effectivePath, rfl, ?_⟩
    cases prepared : env.prepared with
    | error e => simp only [path, prepared, reduceCtorEq] at executed
    | ok _ =>
      simp only [path, prepared] at executed
      obtain ⟨given, -, made⟩ := Except.map_eq_ok.1 executed
      injection made with made
      rw [← made]

/-- The executed call answers with the entry that is persisted. -/
theorem approveCall_learnedPath {response : ExecutionResponse}
    (executed : (approveCall config gate env approvalId query).reply = .ok (.executed response)) :
    response.learnedPath = learnedEntry config gate env approvalId query := by
  unfold approveCall at executed
  unfold learnedEntry ApproveEnv.admits
  cases operator : env.operator with
  | error e => simp only [operator, reduceCtorEq] at executed
  | ok operatorId =>
    by_cases draining : env.draining = true
    · simp only [operator, draining, if_true, reduceCtorEq] at executed
    · by_cases throttled : env.devMode = false ∧ env.operatorRateAllows = false
      · simp only [operator, if_neg draining, if_pos throttled, reduceCtorEq] at executed
      · simp only [operator, if_neg draining, if_neg throttled] at executed ⊢
        cases valid : validateLearnDomain env.validateDomainEntry query with
        | error e => simp only [valid, reduceCtorEq] at executed
        | ok _ =>
          simp only [valid] at executed ⊢
          rcases claimed : claimOrShortCircuit config gate env.claim approvalId operatorId with ⟨gate', e | ⟨pending, claimToken⟩ | reply⟩
          · simp only [claimed, reduceCtorEq] at executed
          · simp only [claimed] at executed ⊢
            obtain ⟨effectivePath, path, learned⟩ := approveClaimed_learnedPath executed
            rw [path, learned]
          · simp only [claimed, Except.ok.injEq, reduceCtorEq] at executed

theorem resolveLearnPath_fallback {root : Option FsPath.Root} {path entry : String} :
    resolveLearnPath none (some path) root = .ok (some entry) ↔ FsPath.relativePart root path = some entry := by
  unfold resolveLearnPath FsPath.relativePart
  simp only [Option.none_or]
  by_cases absolute : FsPath.isAbsolute path = true
  · rw [if_neg (by rw [absolute]; decide), if_pos absolute]
    cases root with
    | none => simp only [Option.bind_none, reduceCtorEq]
    | some root =>
      rw [Option.bind_some]
      cases relative : FsPath.relativizeToRoot path root with
      | none => simp only [relative, reduceCtorEq]
      | some rest => simp only [relative, Except.ok.injEq]
  · rw [if_pos (by rw [Bool.not_eq_true] at absolute; exact absolute), if_neg absolute, Except.ok.injEq]

theorem effectiveLearnPath_ok {pending : PendingApproval} {root : Option FsPath.Root} {entry : String} :
    effectiveLearnPath query pending root = .ok (some entry) ↔
      resolveLearnPath query.learnPath pending.unresolvedPaths.head? root = .ok (some entry) ∧
        FsPath.validatePathGlobEntry entry = .ok () := by
  unfold effectiveLearnPath
  rcases resolveLearnPath query.learnPath pending.unresolvedPaths.head? root with e | none | glob
  · simp only [reduceCtorEq, false_and]
  · simp only [Except.ok.injEq, reduceCtorEq, false_and]
  · cases valid : FsPath.validatePathGlobEntry glob with
    | ok _ =>
      simp only [valid, Except.ok.injEq, Option.some.injEq]
      exact ⟨fun same => ⟨same, same ▸ valid⟩, fun both => both.1⟩
    | error e =>
      simp only [valid, reduceCtorEq, Except.ok.injEq, Option.some.injEq, false_iff, not_and]
      rintro rfl passes
      rw [valid] at passes
      cases passes

/-- The path that an approval learns where the request names none. -/
theorem effectiveLearnPath_implicit {pending : PendingApproval} {root : Option FsPath.Root} {entry : String}
    (implicit : query.learnPath = none) : effectiveLearnPath query pending root = .ok (some entry) ↔
      ∃ path, pending.unresolvedPaths.head? = some path ∧ FsPath.relativePart root path = some entry ∧
        FsPath.validatePathGlobEntry entry = .ok () := by
  rw [effectiveLearnPath_ok, implicit]
  cases pending.unresolvedPaths.head? with
  | none => simp only [resolveLearnPath, Option.or_none, Except.ok.injEq, reduceCtorEq, false_and, exists_false]
  | some path => simp only [resolveLearnPath_fallback, Option.some.injEq, exists_eq_left']

end Handlers

section Engine
variable {compile : String → Except String GlobPattern} {config : StoreConfig}

theorem evaluatePath_single {path : String} {g : GlobPattern} : evaluatePath path [g] [] = .allowed ↔ g path = true := by
  unfold evaluatePath
  cases matched : g path <;> simp [matched]

/-- The one pattern that a compiled entry gives lets in what it matches. -/
theorem evaluatePath_compiled {entry path : String} {g : GlobPattern} (compiled : compile entry = .ok g) :
    (∃ h, compile entry = .ok h ∧ evaluatePath path [h] [] = .allowed) ↔ g path = true := by
  simp only [compiled, Except.ok.injEq, exists_eq_left', evaluatePath_single]

/-- Of what is left of a path, only the path itself is matched if the path is
tidy and plain. -/
theorem matchesOnly_iff (engine : GlobEngine compile) {root : Option FsPath.Root} {path entry : String}
    (left : FsPath.relativePart root path = some entry) (some_ : entry ≠ "") :
    MatchesOnly compile entry (FsPath.approvedPath root path) ↔
      Glob.Plain (FsPath.approvedPath root path).toList ∧ FsPath.Tidy root path := by
  have named := FsPath.canonical_relativePart left
  rw [← FsPath.canonical_iff_tidy left some_, ← named, FsPath.plain_canonical]
  constructor
  · intro only
    obtain ⟨g, compiled, -⟩ := (only (FsPath.canonical entry)).mpr rfl
    obtain ⟨tokens, reads, matched⟩ := engine.reads entry g compiled
    have all : ∀ other, Glob.MatchesAll tokens other ↔ other = (FsPath.canonical entry).toList := by
      intro other
      have text : other = (String.ofList other).toList := (String.toList_ofList).symm
      rw [text, ← matched, ← evaluatePath_compiled compiled, only, String.toList_inj]
    have enough := Nat.le_of_eq (@FsPath.countP_canonical (fun c => c ≠ '/' ∧ c ≠ '.') (by decide) (by decide) entry).symm
    have dear : ∀ c ∈ ']' :: Glob.metacharacters, decide (c ≠ '/' ∧ c ≠ '.') = true := by
      simp [Glob.metacharacters]
    obtain ⟨plain, same⟩ := Glob.plain_of_only dear reads all enough
    exact ⟨plain, String.toList_inj.mp same⟩
  · rintro ⟨plain, fixed⟩ path
    obtain ⟨g, compiled⟩ := engine.plain entry plain
    obtain ⟨tokens, reads, matched⟩ := engine.reads entry g compiled
    have exactly : g path = true ↔ path = FsPath.canonical entry := by
      rw [matched, reads.literals plain, Glob.matchesAll_literals, String.toList_inj, fixed]
    rw [evaluatePath_compiled compiled, exactly]

theorem entry_ne_empty {entry : String} (valid : FsPath.validatePathGlobEntry entry = .ok ()) : entry ≠ "" := by
  rintro rfl
  revert valid
  decide

/-- A request that names no path learns an exact entry if what it learns is of
a plain and tidy path. -/
theorem learnsExactly_iff (engine : GlobEngine compile) (gate : Gate) (env : ApproveEnv) (approvalId : String) (query : ApproveQuery)
    (implicit : query.learnPath = none) :
    LearnsExactly compile config gate env approvalId query ↔ LearnsPlain config gate env approvalId query := by
  constructor
  · intro exactly pending path rest claims first left valid saved
    have learned : learnedEntry config gate env approvalId query = some rest :=
      learnedEntry_eq.2 ⟨pending, claims, saved, (effectiveLearnPath_implicit implicit).mpr ⟨path, first, left, valid⟩⟩
    obtain ⟨other, path', claims', first', only⟩ := exactly rest learned
    obtain rfl := claims.unique claims'
    obtain rfl : path = path' := Option.some.inj (first.symm.trans first')
    exact (matchesOnly_iff engine left (entry_ne_empty valid)).mp only
  · intro plain entry learned
    obtain ⟨pending, claims, saved, effective⟩ := learnedEntry_eq.1 learned
    obtain ⟨path, first, left, valid⟩ := (effectiveLearnPath_implicit implicit).mp effective
    refine ⟨pending, path, claims, first, ?_⟩
    exact (matchesOnly_iff engine left (entry_ne_empty valid)).mpr (plain pending path entry claims first left valid saved)

end Engine

/-- An engine that compiles plain patterns, and the files of one directory. -/
def docsCompile (pattern : String) : Except String GlobPattern :=
  if Glob.Plain pattern.toList then .ok fun path => path = pattern
  else if pattern = "docs/*" then .ok fun path =>
    "docs/".toList.isPrefixOf path.toList && !(path.toList.drop "docs/".toList.length).contains '/'
  else .error "not compiled"

theorem docsCompile_engine : GlobEngine docsCompile where
  reads := by
    intro pattern g compiled
    unfold docsCompile at compiled
    split_ifs at compiled with plain docs
    · injection compiled with compiled
      have reads := Glob.Reads.literal_front plain .nil
      refine ⟨pattern.toList.map .literal, by simpa using reads, fun path => ?_⟩
      rw [← compiled, Glob.matchesAll_literals, decide_eq_true_eq, String.toList_inj]
    · injection compiled with compiled
      have reads : Glob.Reads pattern.toList ("docs/".toList.map Glob.Token.literal ++ [Glob.Token.zeroOrMore]) := by
        rw [docs]
        have front : Glob.Plain "docs/".toList := by decide
        exact .literal_front front (.zeroOrMore .nil)
      refine ⟨_, reads, fun path => ?_⟩
      rw [← compiled, Glob.matchesAll_literal_front, Bool.and_eq_true, List.isPrefixOf_iff_prefix]
      constructor
      · rintro ⟨⟨rest, split⟩, flat⟩
        refine ⟨rest, split.symm, rest, [], (List.append_nil rest).symm, ?_, rfl⟩
        rw [← split, List.drop_left] at flat
        rw [Glob.Token.Matches]
        simpa using flat
      · rintro ⟨rest, split, front, back, rfl, flat, nothing⟩
        rw [Glob.MatchesAll] at nothing
        rw [Glob.Token.Matches] at flat
        rw [split, nothing, List.append_nil, List.drop_left]
        exact ⟨List.prefix_append _ _, by simpa using flat⟩
  plain := fun pattern plain => ⟨_, if_pos plain⟩

/-- A pending approval for one path. -/
def pathGate (path : String) : Gate where
  store := pendingStore { PendingApproval.testDefault "a1" with unresolvedPaths := [path] }
  outcomes := ∅

theorem learnsExactly_iff_readme :
    learnedEntry defaultConfig (pathGate "docs/readme.md") (approveEnvAt1 none) "a1" {} = some "docs/readme.md" ∧
      (LearnsExactly docsCompile defaultConfig (pathGate "docs/readme.md") (approveEnvAt1 none) "a1" {} ↔
        LearnsPlain defaultConfig (pathGate "docs/readme.md") (approveEnvAt1 none) "a1" {}) :=
  ⟨by decide, learnsExactly_iff docsCompile_engine _ _ _ {} rfl⟩

/-- The path `docs/*` is learned as a pattern. -/
theorem star_learned_as_pattern :
    learnedEntry defaultConfig (pathGate "docs/*") (approveEnvAt1 none) "a1" {} = some "docs/*" ∧
      ¬LearnsExactly docsCompile defaultConfig (pathGate "docs/*") (approveEnvAt1 none) "a1" {} := by
  have learned : learnedEntry defaultConfig (pathGate "docs/*") (approveEnvAt1 none) "a1" {} = some "docs/*" := by
    decide
  refine ⟨learned, fun exactly => ?_⟩
  obtain ⟨pending, path, -, -, only⟩ := exactly "docs/*" learned
  have one := (only "docs/a").mp ⟨_, rfl, by decide⟩
  have two := (only "docs/b").mp ⟨_, rfl, by decide⟩
  exact absurd (one.trans two.symm) (by decide)

end Latchgate
