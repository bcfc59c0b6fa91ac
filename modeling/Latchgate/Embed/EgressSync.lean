import Latchgate.Kernel.EffectiveSinks
import Latchgate.Machine.Actor
import Latchgate.Policy.Data
import Latchgate.Registry.Store

namespace Latchgate
open LearnedTable

/-! A text file with one item in each line. -/

theorem splitLines_append {line : List Char} (single : '\n' ∉ line) (rest : List Char) :
    splitLines (line ++ '\n' :: rest) = line :: splitLines rest := by
  induction line with
  | nil => rw [List.nil_append, splitLines, if_pos rfl]
  | cons c line ih =>
    rw [List.mem_cons, not_or] at single
    rw [List.cons_append, splitLines, if_neg fun feed => single.1 feed.symm, ih single.2]

theorem lines_append {line : List Char} (single : '\n' ∉ line) (noReturn : line.getLast? ≠ some '\r') (rest : List Char) :
    lines (line ++ '\n' :: rest) = line :: lines rest := by
  rw [lines, splitLines_append single, List.map_cons, stripCr, if_neg noReturn]
  rfl

/-! The proxy. A line with a dot in front stands for a domain and all below it,
any other line for a host. -/

namespace Squid

def dstdomain (host : List Char) : List Char → Bool
  | '.' :: domain => host = domain ∨ Egress.below host domain
  | name => host = name

def aclLines (content : String) : List (List Char) :=
  ((lines content.toList).map trim).filter fun line => line ≠ [] ∧ line.head? ≠ some '#'

def admits (content host : String) : Bool :=
  (aclLines content).any fun line => dstdomain (lowerText host.toList) (lowerText line)

end Squid

/-! The synchronisation. -/

structure LiveEgressConfig where
  egressLiveAllowlistPath : Option String
  egressRuntimeAllowlist : Option (List String)

inductive SyncOutcome where
  | disabled
  | written (domainCount : Nat) (path : String)

inductive SyncError where
  | ledger (e : LedgerError)
  | write (path source : String)

/-- What goes wrong with the file, if anything does. -/
structure WriteFaults where
  createDir : Option String := none
  write : Option String := none

namespace EgressSync

def manifestDomains (spec : ActionSpec) : List String :=
  match spec.egress.toProfile with
  | .ok profile => profile.concreteAllowedDomains
  | .error _ => []

/-- The domains of the manifests and those that were learned for any action. -/
def collectDomains (registry : List ActionSpec) (rows : List EntryRow) : List String :=
  PolicyData.sortedTexts (registry.flatMap manifestDomains ++ (listEntries none rows).map EntryRow.value)

def narrowEgressDomains (config : LiveEgressConfig) (domains : List String) : List String :=
  match config.egressRuntimeAllowlist with
  | some runtime => domains.filter (· ∈ runtime)
  | none => domains

/-- A wildcard becomes the domain that it stands below. -/
def squidLine (domain : String) : String :=
  "." ++ (stripText "*." domain).getD domain

def squidLines : List String → String
  | [] => ""
  | domain :: rest => squidLine domain ++ "\n" ++ squidLines rest

def allowlistHeader : String :=
  "# Live egress allowlist — generated by LatchGate.\n" ++
    "# manifest_domains ∪ learned_domains ∩ runtime_allowlist\n" ++
    "# DO NOT EDIT — regenerated on domain changes.\n"

def renderSquidAllowlist (domains : List String) : String :=
  allowlistHeader ++ squidLines domains

/-- Either the file is replaced or it stays as it is. -/
def writeAllowlist (config : LiveEgressConfig) (faults : WriteFaults) (path : String) (domains : List String)
    (file : Option String) : Except SyncError SyncOutcome × Option String :=
  let narrowed := narrowEgressDomains config domains
  match faults.createDir, faults.write with
  | some source, _ => (.error (.write path source), file)
  | none, some source => (.error (.write path source), file)
  | none, none => (.ok (.written narrowed.length path), some (renderSquidAllowlist narrowed))

def sync (config : LiveEgressConfig) (registry : List ActionSpec) (rows : Except LedgerError (List EntryRow))
    (faults : WriteFaults) (file : Option String) : Except SyncError SyncOutcome × Option String :=
  match config.egressLiveAllowlistPath with
  | none => (.ok .disabled, file)
  | some path => match rows with
    | .error e => (.error (.ledger e), file)
    | .ok rows => writeAllowlist config faults path (collectDomains registry rows) file

/-- Without a gate: the manifests are those of the directory. -/
def syncFromDisk (config : LiveEgressConfig) (loaded : Except StoreError (List ActionSpec))
    (rows : Except LedgerError (List EntryRow)) (faults : WriteFaults) (file : Option String) :
    Except SyncError SyncOutcome × Option String :=
  match config.egressLiveAllowlistPath with
  | none => (.ok .disabled, file)
  | some _ => match loaded with
    | .error _ => (.ok .disabled, file)
    | .ok registry => sync config registry rows faults file

/-! What the proxy reads. -/

theorem trim_head {c : Char} (visible : isWhitespace c = false) (text : List Char) : (trim (c :: text)).head? = some c := by
  rw [trim, List.dropWhile_cons_of_neg (by rw [visible]; exact Bool.false_ne_true)]
  have some_ : (c :: text).rdropWhile isWhitespace ≠ [] := by
    intro none_
    have blank := List.rdropWhile_eq_nil_iff.mp none_ c List.mem_cons_self
    rw [visible] at blank
    cases blank
  rw [List.head?_eq_some_head some_, (List.rdropWhile_prefix isWhitespace (c :: text)).head some_]
  rfl

theorem aclLines_comment {comment : String} (single : '\n' ∉ comment.toList) (noReturn : comment.toList.getLast? ≠ some '\r')
    (rest : String) : Squid.aclLines ("#" ++ (comment ++ ("\n" ++ rest))) = Squid.aclLines rest := by
  have text : ("#" ++ (comment ++ ("\n" ++ rest))).toList = '#' :: comment.toList ++ '\n' :: rest.toList := by simp
  have first : '\n' ∉ '#' :: comment.toList := by simp [single]
  have last : ('#' :: comment.toList).getLast? ≠ some '\r' := by
    cases chars : comment.toList with
    | nil => decide
    | cons c more =>
      rw [List.getLast?_cons_cons, ← chars]
      exact noReturn
  have head := @trim_head '#' (by decide) comment.toList
  rw [Squid.aclLines, Squid.aclLines, text, lines_append first last, List.map_cons,
    List.filter_cons_of_neg (by simp [head])]

theorem aclLines_item {line : List Char} (visible : ∀ c ∈ line, isWhitespace c = false) (rest : List Char) :
    Squid.aclLines (String.ofList ('.' :: line ++ '\n' :: rest)) = ('.' :: line) :: Squid.aclLines (String.ofList rest) := by
  have clear : ∀ c ∈ '.' :: line, isWhitespace c = false := List.forall_mem_cons.mpr ⟨by decide, visible⟩
  have single : '\n' ∉ '.' :: line := fun feed => absurd (clear _ feed) (by decide)
  have noReturn : ('.' :: line).getLast? ≠ some '\r' := fun last => absurd (clear _ (List.mem_of_getLast? last)) (by decide)
  rw [Squid.aclLines, Squid.aclLines, String.toList_ofList, String.toList_ofList, lines_append single noReturn,
    List.map_cons, trim_visible clear, List.filter_cons_of_pos (by simp)]

theorem stripped_subset (domain : String) : ∀ c ∈ ((stripText "*." domain).getD domain).toList, c ∈ domain.toList := by
  intro c member
  cases stripped : stripText "*." domain with
  | none => rwa [stripped] at member
  | some suffix =>
    rw [stripped] at member
    rw [stripText_eq_some_iff.1 stripped, String.toList_append]
    exact List.mem_append_right _ member

theorem aclLines_squidLines {domains : List String} (visible : ∀ domain ∈ domains, ∀ c ∈ domain.toList, isWhitespace c = false) :
    Squid.aclLines (squidLines domains) = domains.map fun domain => (squidLine domain).toList := by
  induction domains with
  | nil => rfl
  | cons domain rest ih =>
    obtain ⟨first, later⟩ := List.forall_mem_cons.mp visible
    have text : squidLines (domain :: rest) = String.ofList
        ('.' :: ((stripText "*." domain).getD domain).toList ++ '\n' :: (squidLines rest).toList) := by
      refine String.toList_injective ?_
      simp [squidLines, squidLine]
    rw [text, aclLines_item fun c member => first c (stripped_subset domain c member), String.ofList_toList, ih later,
      List.map_cons, squidLine, String.toList_append]
    rfl

theorem aclLines_header (rest : String) : Squid.aclLines (allowlistHeader ++ rest) = Squid.aclLines rest := by
  obtain ⟨first, second, third, header, plain⟩ : ∃ first second third : String,
      allowlistHeader = "#" ++ first ++ "\n" ++ ("#" ++ second ++ "\n" ++ ("#" ++ third ++ "\n")) ∧
        ∀ comment ∈ [first, second, third], '\n' ∉ comment.toList ∧ comment.toList.getLast? ≠ some '\r' :=
    ⟨" Live egress allowlist — generated by LatchGate.", " manifest_domains ∪ learned_domains ∩ runtime_allowlist",
      " DO NOT EDIT — regenerated on domain changes.", by decide +kernel, by decide +kernel⟩
  rw [header]
  simp only [String.append_assoc]
  rw [aclLines_comment (plain first (by simp)).1 (plain first (by simp)).2,
    aclLines_comment (plain second (by simp)).1 (plain second (by simp)).2,
    aclLines_comment (plain third (by simp)).1 (plain third (by simp)).2]

theorem aclLines_render {domains : List String} (visible : ∀ domain ∈ domains, ∀ c ∈ domain.toList, isWhitespace c = false) :
    Squid.aclLines (renderSquidAllowlist domains) = domains.map fun domain => (squidLine domain).toList := by
  rw [renderSquidAllowlist, aclLines_header, aclLines_squidLines visible]

/-! What the proxy lets through. -/

theorem toLower_mark {c mark : Char} (low : mark.toNat < 65) (same : c.toLower = mark) : c = mark := by
  rcases toLower_cases c with ⟨letter, -, moved⟩ | ⟨-, kept⟩
  · rw [same] at moved
    omega
  · exact kept.symm.trans same

theorem stripText_lower (domain : String) :
    stripText "*." (toAsciiLowercase domain) = (stripText "*." domain).map toAsciiLowercase := by
  have star : "*.".toList = ['*', '.'] := rfl
  cases stripped : stripText "*." domain with
  | some suffix =>
    obtain rfl := stripText_eq_some_iff.1 stripped
    refine stripText_eq_some_iff.2 (String.toList_injective ?_)
    simp [toAsciiLowercase, star]
  | none =>
    refine Option.eq_none_iff_forall_ne_some.2 fun suffix found => ?_
    have chars := congrArg String.toList (stripText_eq_some_iff.1 found)
    rw [toAsciiLowercase, String.toList_ofList, String.toList_append, star] at chars
    obtain ⟨first, second, rest, text, stars, dots, -⟩ : ∃ first second rest, domain.toList = first :: second :: rest ∧
        first.toLower = '*' ∧ second.toLower = '.' ∧ rest.map Char.toLower = suffix.toList := by
      simpa [List.map_eq_cons_iff, and_assoc] using chars
    obtain rfl := toLower_mark (by decide) stars
    obtain rfl := toLower_mark (by decide) dots
    have starts : stripText "*." domain = some (String.ofList rest) := by
      refine stripText_eq_some_iff.2 (String.toList_injective ?_)
      simp [text, star]
    rw [stripped] at starts
    cases starts

/-- A domain as it may be written in the file: one word, and no wildcard of nothing. -/
structure OneWord (domain : String) : Prop where
  visible : ∀ c ∈ domain.toList, isWhitespace c = false
  names : domain ≠ "*."

/-- The domain that a wildcard stands below. -/
def BareSuffix (host entry : String) : Prop :=
  entry = "*." ++ host

theorem dstdomain_squidLine {domain : String} (word : OneWord domain) (host : String) :
    Squid.dstdomain (lowerText host.toList) (lowerText (squidLine domain).toList) = true ↔
      Egress.Matches (toAsciiLowercase host) (toAsciiLowercase domain) ∨
        BareSuffix (toAsciiLowercase host) (toAsciiLowercase domain) := by
  have dot : ".".toList = ['.'] := rfl
  have line : lowerText (squidLine domain).toList =
      '.' :: (toAsciiLowercase ((stripText "*." domain).getD domain)).toList := by
    rw [squidLine, String.toList_append, dot, toAsciiLowercase, String.toList_ofList]
    exact List.map_cons
  have lower : lowerText host.toList = (toAsciiLowercase host).toList := by
    rw [toAsciiLowercase, String.toList_ofList, lowerText]
  rw [line, lower, Squid.dstdomain, decide_eq_true_iff, Egress.below_iff, Egress.Matches, stripText_lower, BareSuffix,
    String.toList_inj]
  cases stripped : stripText "*." domain with
  | some suffix =>
    obtain rfl := stripText_eq_some_iff.1 stripped
    have lowered : toAsciiLowercase ("*." ++ suffix) = "*." ++ toAsciiLowercase suffix :=
      stripText_eq_some_iff.1 ((stripText_lower _).trans (by rw [stripped]; rfl))
    have some_ : toAsciiLowercase suffix ≠ "" := by
      intro empty
      have chars : suffix.toList.map Char.toLower = [] := by
        simpa [toAsciiLowercase] using congrArg String.toList empty
      have none_ : suffix = "" := String.toList_injective (List.map_eq_nil_iff.mp chars)
      exact word.names (by rw [none_]; rfl)
    have same : "*." ++ toAsciiLowercase suffix = "*." ++ toAsciiLowercase host ↔
        toAsciiLowercase host = toAsciiLowercase suffix := by
      rw [← String.toList_inj, String.toList_append, String.toList_append, List.append_cancel_left_eq, String.toList_inj]
      exact eq_comm
    simp only [Option.map_some, Option.getD_some]
    rw [lowered, same, and_iff_right some_]
    exact or_comm
  | none =>
    have apart : toAsciiLowercase domain ≠ "*." ++ toAsciiLowercase host := by
      intro same
      have none_ := stripText_lower domain
      rw [stripped, same, stripText_append] at none_
      cases none_
    simp only [Option.map_none, Option.getD_none]
    rw [or_iff_left apart]

/-- Of domains that are one word each, the proxy lets through what a search of
them finds, and where a domain is a wildcard also the domain it stands below. -/
theorem admits_render {domains : List String} (words : ∀ domain ∈ domains, OneWord domain) (host : String) :
    Squid.admits (renderSquidAllowlist domains) host = true ↔
      ∃ domain ∈ domains, Egress.Matches (toAsciiLowercase host) (toAsciiLowercase domain) ∨
        BareSuffix (toAsciiLowercase host) (toAsciiLowercase domain) := by
  rw [Squid.admits, aclLines_render fun domain member => (words domain member).visible, List.any_map, List.any_eq_true]
  refine exists_congr fun domain => and_congr_right fun member => ?_
  exact dstdomain_squidLine (words domain member) host

theorem visible_of_read {domain text : String} {wildcard : Bool}
    (ok : normalizeAndValidateSyntax domain = .ok (text, wildcard)) :
    (∀ c ∈ trim domain.toList, isWhitespace c = false) ∧ ∀ c ∈ text.toList, isWhitespace c = false := by
  have same := normalizeAndValidateSyntax_eq_ok ok
  have clean : ∀ c ∈ trim domain.toList, isWhitespace c = false := by
    simp only [normalizeAndValidateSyntax] at ok
    split at ok
    · cases ok
    split at ok
    · cases ok
    rename_i visible
    exact fun c member => Bool.eq_false_iff.mpr fun space => visible (List.any_eq_true.mpr ⟨c, member, space⟩)
  refine ⟨clean, fun c member => ?_⟩
  rw [same, String.toList_ofList] at member
  obtain ⟨d, known, rfl⟩ := List.mem_map.mp (mem_lowerText_of_normalizeDomain member)
  exact isWhitespace_toLower (clean d known)

/-- The form of a domain in a manifest file that has no blanks around it. -/
structure Written (domain : String) : Prop where
  accepted : ∃ entry, validateManifestDomainEntry domain = .ok entry
  trimmed : trim domain.toList = domain.toList

theorem Written.oneWord {domain : String} (written : Written domain) : OneWord domain := by
  obtain ⟨entry, ok⟩ := written.accepted
  obtain ⟨⟨text, wildcard⟩, syntaxOk, -⟩ := Except.bind_eq_ok.1 ok
  refine ⟨written.trimmed ▸ (visible_of_read syntaxOk).1, ?_⟩
  rintro rfl
  have refused : normalizeAndValidateSyntax "*." =
      .error (.wildcardInvalid "only '*.suffix' form is supported; bare '*' and mid-string wildcards are not") := by
    decide
  rw [refused] at syntaxOk
  cases syntaxOk

theorem learned_oneWord {rows : List EntryRow} (domains : LearnedDomains rows) {row : EntryRow} (member : row ∈ rows) :
    OneWord row.value := by
  obtain ⟨domain, _, ok⟩ := domains.accepted row member
  obtain ⟨wildcard, syntaxOk, names⟩ : ∃ wildcard, normalizeAndValidateSyntax domain = .ok (row.value, wildcard) ∧
      row.value ≠ "*." := by
    rcases validateDomainEntry_read ok with syntaxOk | ⟨syntaxOk, -⟩
    · refine ⟨true, syntaxOk, fun same => ?_⟩
      obtain ⟨suffix, found, dot, -⟩ := wildcard_of_read syntaxOk
      rw [same] at found
      obtain rfl := Option.some.inj found
      exact absurd dot (by decide)
    · refine ⟨false, syntaxOk, fun same => ?_⟩
      exact absurd (plain_of_read syntaxOk).2 (by rw [same]; decide)
  exact ⟨(visible_of_read syntaxOk).2, names⟩

theorem mem_collectDomains {registry : List ActionSpec} {rows : List EntryRow} {domain : String} :
    domain ∈ collectDomains registry rows ↔
      (∃ spec ∈ registry, domain ∈ manifestDomains spec) ∨ ∃ row ∈ rows, row.value = domain := by
  simp [collectDomains, listEntries]

theorem mem_narrowEgressDomains {config : LiveEgressConfig} {domains : List String} {domain : String} :
    domain ∈ narrowEgressDomains config domains ↔
      domain ∈ domains ∧ ∀ runtime, config.egressRuntimeAllowlist = some runtime → domain ∈ runtime := by
  unfold narrowEgressDomains
  cases config.egressRuntimeAllowlist <;> simp

/-- What the gate lets an action reach is in the file. -/
theorem mem_of_reached {config : LiveEgressConfig} {registry : List ActionSpec} {rows : List EntryRow} {gate : AppState}
    (narrowed : gate.egressRuntimeAllowlist = config.egressRuntimeAllowlist) (reads : LearnedReads) {spec : ActionSpec}
    (known : spec ∈ registry) {profile : EgressProfile} (declared : spec.egress.toProfile = .ok profile) {sink : String}
    (reached : sink ∈ (gate.withLearned (learnedRules reads rows)).resolveEffectiveSinks spec.actionId profile) :
    sink ∈ narrowEgressDomains config (collectDomains registry rows) := by
  refine mem_narrowEgressDomains.2 ⟨mem_collectDomains.2 ?_, fun runtime some_ => ?_⟩
  · have merged := (AppState.narrowEgressDomains_sublist _ _).subset reached
    rcases List.mem_append.mp merged with policy | added
    · refine .inl ⟨spec, known, ?_⟩
      rw [manifestDomains, declared]
      exact policy
    · have member : sink ∈ (learnedRules reads rows).get spec.actionId := List.mem_of_mem_filter added
      rcases @learnedRules_get rows spec.actionId reads with values | empty
      · rw [values] at member
        obtain ⟨row, listed, same⟩ := List.mem_map.mp (mem_getValuesForAction.1 member)
        exact .inr ⟨row, listed, congrArg Prod.snd same⟩
      · rw [empty] at member
        cases member
  · exact (gate.withLearned (learnedRules reads rows)).narrowEgressDomains_within reached (narrowed.trans some_)

/-! The gate and the commands of an operator, who share the table and the file.
Between what a party reads and what it writes others may act. -/

structure Shared where
  rows : List EntryRow
  file : Option String

inductive Step where
  | perform (op : LearnedSets.Op)
  | collect (loaded : Except StoreError (List ActionSpec)) (failure : Option LedgerError)
  | write (faults : WriteFaults)

inductive Answer where
  | learned (answer : LearnedSets.Answer)
  | reading
  | idle
  | synced (result : Except SyncError SyncOutcome)

/-- What a party has read: the path and the domains, if it comes to that. -/
def collect (config : LiveEgressConfig) (loaded : Except StoreError (List ActionSpec)) (failure : Option LedgerError)
    (rows : List EntryRow) : Option (String × List String) × Answer :=
  match config.egressLiveAllowlistPath with
  | none => (none, .synced (.ok .disabled))
  | some path => match loaded with
    | .error _ => (none, .synced (.ok .disabled))
    | .ok registry => match failure with
      | some e => (none, .synced (.error (.ledger e)))
      | none => (some (path, collectDomains registry rows), .reading)

def act (config : LiveEgressConfig) (s : Shared) (own : Option (String × List String)) :
    Step → Shared × Option (String × List String) × Answer
  | .perform op =>
    let (rows, answer) := LearnedSets.perform .domain s.rows op
    ({ s with rows }, own, .learned answer)
  | .collect loaded failure => (s, collect config loaded failure s.rows)
  | .write faults => match own with
    | none => (s, none, .idle)
    | some (path, domains) =>
      let (result, file) := writeAllowlist config faults path domains s.file
      ({ s with file }, none, .synced result)

def parties (config : LiveEgressConfig) : Actor Shared (Option (String × List String)) Step Answer where
  act := act config

def start : Shared × (Nat → Option (String × List String)) :=
  (⟨[], none⟩, fun _ => none)

/-- Alone a party does what the function does. -/
theorem act_alone (config : LiveEgressConfig) (s : Shared) (loaded : Except StoreError (List ActionSpec))
    (failure : Option LedgerError) (faults : WriteFaults) :
    let rows := match failure with | some e => .error e | none => .ok s.rows
    let first := act config s none (.collect loaded failure)
    let second := act config first.1 first.2.1 (.write faults)
    (match first.2.2 with | .synced result => Answer.synced result | _ => second.2.2) =
        .synced (syncFromDisk config loaded rows faults s.file).1 ∧
      second.1 = { s with file := (syncFromDisk config loaded rows faults s.file).2 } := by
  unfold syncFromDisk sync
  cases path : config.egressLiveAllowlistPath with
  | none => simp only [act, collect, path, and_self]
  | some path_ =>
    cases loaded with
    | error e => simp only [act, collect, path, and_self]
    | ok registry =>
      cases failure with
      | some e => simp only [act, collect, path, and_self]
      | none => simp only [act, collect, path, and_self]

/-! The file over a run. -/

/-- A step that replaces the file, if it comes to that. -/
def Step.writes : Step → Bool
  | .write faults => faults.createDir.isNone && faults.write.isNone
  | _ => false

/-- A step that can change the table. -/
def Step.edits : Step → Bool
  | .perform (.add ..) | .perform (.remove ..) | .perform (.clear _) => true
  | _ => false

section Frames
variable {config : LiveEgressConfig} {s : Shared} {own : Option (String × List String)}

theorem act_file {step : Step} (keeps : step.writes = false) : (act config s own step).1.file = s.file := by
  cases step with
  | perform op => rfl
  | collect loaded failure => rfl
  | write faults =>
    obtain ⟨createDir, write⟩ := faults
    cases own with
    | none => rfl
    | some pending =>
      cases createDir with
      | some source => rfl
      | none =>
        cases write with
        | some source => rfl
        | none => cases keeps

theorem act_rows {step : Step} (keeps : step.edits = false) : (act config s own step).1.rows = s.rows := by
  cases step with
  | perform op => cases op with
    | add | remove | clear => cases keeps
    | isLearned | list | get => rfl
  | collect loaded failure => rfl
  | write faults => cases own <;> rfl

theorem act_learned {step : Step} (domains : LearnedDomains s.rows) : LearnedDomains (act config s own step).1.rows := by
  cases edits : step.edits with
  | false => rwa [act_rows edits]
  | true => cases step with
    | perform op => exact domains.perform op
    | collect | write => cases edits

end Frames

section Runs
variable {config : LiveEgressConfig}

variable (config) in
theorem run_frame {α : Type} (view : Shared → α) {kept : Step → Prop}
    (frame : ∀ s own step, kept step → view (act config s own step).1 = view s) {events : List (Nat × Step)}
    (all : ∀ e ∈ events, kept e.2) (s : Shared × (Nat → Option (String × List String))) :
    view ((parties config).machine.run s events).1 = view s.1 := by
  induction events generalizing s with
  | nil => rfl
  | cons e rest ih =>
    obtain ⟨first, later⟩ := List.forall_mem_cons.mp all
    rw [Machine.run_cons, ih later]
    exact frame s.1 (s.2 e.1) e.2 first

theorem run_own {i : Nat} {events : List (Nat × Step)} (others : ∀ e ∈ events, e.1 ≠ i)
    (s : Shared × (Nat → Option (String × List String))) : ((parties config).machine.run s events).2 i = s.2 i := by
  induction events generalizing s with
  | nil => rfl
  | cons e rest ih =>
    obtain ⟨first, later⟩ := List.forall_mem_cons.mp others
    rw [Machine.run_cons, ih later]
    exact Actor.step_other s first.symm e.2

theorem run_learned (events : List (Nat × Step)) : LearnedDomains ((parties config).machine.run start events).1.rows :=
  @Machine.run_invariant _ _ _ (parties config).machine (fun s => LearnedDomains s.1.rows)
    (fun _ _ domains => act_learned domains) start ⟨List.nodup_nil, nofun⟩ events

end Runs

theorem file_after (config : LiveEgressConfig) {path : String} (configured : config.egressLiveAllowlistPath = some path)
    (before : List (Nat × Step)) {middle after : List (Nat × Step)} {i : Nat} (registry : List ActionSpec)
    (others : ∀ e ∈ middle, e.1 ≠ i) (last : ∀ e ∈ after, e.2.writes = false) :
    ((parties config).machine.run start
        (before ++ (i, .collect (.ok registry) none) :: (middle ++ (i, .write {}) :: after))).1.file =
      some (renderSquidAllowlist (narrowEgressDomains config
        (collectDomains registry ((parties config).machine.run start before).1.rows))) := by
  let past := (parties config).machine.run start before
  let reading := ((parties config).machine.step past (i, .collect (.ok registry) none)).1
  let waiting := (parties config).machine.run reading middle
  have taken : waiting.2 i = some (path, collectDomains registry past.1.rows) := by
    have read : reading.2 i = (act config past.1 (past.2 i) (.collect (.ok registry) none)).2.1 :=
      @Actor.step_own _ _ _ _ (parties config) past i _
    rw [run_own others, read]
    simp only [act, collect, configured]
  have replaced : ((parties config).machine.step waiting (i, .write {})).1.1.file =
      some (renderSquidAllowlist (narrowEgressDomains config (collectDomains registry past.1.rows))) := by
    rw [Actor.step_shared]
    simp only [parties, act, taken, writeAllowlist]
  rw [Machine.run_append, Machine.run_cons, Machine.run_append, Machine.run_cons]
  exact (run_frame config Shared.file (fun _ _ _ keeps => act_file keeps) last _).trans replaced

def liveConfig : LiveEgressConfig :=
  ⟨some "/var/run/latchgate/egress/allowlist.txt", none⟩

def fetchSpec : ActionSpec where
  actionId := "fetch"
  version := "1.0.0"
  providerModuleDigest := "builtin:http_api"
  egress := { profile := "proxy_allowlist", allowedDomains := ["*.example.com"] }

end EgressSync
end Latchgate
