import Latchgate.Core.DomainSpelling
import Latchgate.Kernel.FsParity
import Latchgate.Ledger.LearnedSets

namespace Latchgate
open LearnedTable

/-- How the reads of the learned domains go: the error of the cache and of the
table, if there is one, and the instant at which the cache was filled. -/
structure LearnedReads where
  cache : Option LedgerError
  query : Option LedgerError
  now : Nat

/-- A table as the gate reads it. -/
def learnedRules (reads : LearnedReads) (rows : List EntryRow) : LearnedRules where
  cached actionId := match reads.cache with
    | some e => .error e
    | none => .ok ((LearnedSnapshot.ofRows rows reads.now).get actionId)
  forAction actionId := match reads.query with
    | some e => .error e
    | none => .ok (getValuesForAction actionId rows)

def AppState.withLearned (state : AppState) (rules : LearnedRules) : AppState :=
  { state with learnedDomains := rules }

/-- Lower case is that of ASCII where a text has no other characters. -/
def LowersAscii (toLowercase : String → String) : Prop :=
  ∀ text : String, Ascii text.toList → toLowercase text = String.ofList (lowerText text.toList)

/-- The rows are told apart by action and domain, and each domain was accepted. -/
structure LearnedDomains (rows : List EntryRow) : Prop where
  nodup : (rows.map EntryRow.key).Nodup
  accepted : ∀ row ∈ rows, ∃ domain allowUnsafeWildcard, validateDomainEntry domain allowUnsafeWildcard = .ok row.value

/-! What a run of the store leaves in the table. -/

theorem LearnedDomains.filter {rows : List EntryRow} (domains : LearnedDomains rows) (keep : EntryRow → Bool) :
    LearnedDomains (rows.filter keep) where
  nodup := domains.nodup.sublist (List.filter_sublist.map _)
  accepted row member := domains.accepted row (List.mem_of_mem_filter member)

theorem LearnedDomains.add {rows : List EntryRow} (domains : LearnedDomains rows) (now actionId domain addedBy : String)
    (source : EntrySource) (approvalId : Option String) (allowUnsafeWildcard : Bool) :
    LearnedDomains (addLearnedDomain now actionId domain addedBy source approvalId allowUnsafeWildcard rows).2 := by
  unfold addLearnedDomain LearnedKind.addLearned
  split
  · exact domains
  · rename_i entry accepted
    have valid := Except.mapError_eq_ok.1 accepted
    have uncapped : (LearnedKind.domain.maxPerAction.filter fun cap => decide (cap ≤ countForAction actionId rows)) = none := rfl
    simp only [insertEntry, uncapped]
    split_ifs with present
    · exact domains
    · refine ⟨?_, List.forall_mem_append.mpr ⟨domains.accepted, List.forall_mem_singleton.mpr ⟨domain, _, valid⟩⟩⟩
      rw [List.map_append]
      refine List.nodup_append.mpr ⟨domains.nodup, List.nodup_singleton _, ?_⟩
      rintro key member single there rfl
      rw [List.map_singleton, List.mem_singleton] at there
      obtain ⟨row, known, same⟩ := List.mem_map.mp member
      exact present (List.any_eq_true.mpr ⟨row, known, decide_eq_true (same.trans there)⟩)

theorem LearnedDomains.perform {rows : List EntryRow} (domains : LearnedDomains rows) (op : LearnedSets.Op) :
    LearnedDomains (LearnedSets.perform .domain rows op).1 := by
  cases op with
  | add now actionId domain addedBy source approvalId allowUnsafeWildcard =>
    exact domains.add now actionId domain addedBy source approvalId allowUnsafeWildcard
  | remove actionId domain => exact domains.filter _
  | isLearned actionId domain => exact domains
  | clear actionId => exact domains.filter _
  | list actionId => exact domains
  | get actionId => exact domains

theorem learnedDomains_run (ops : List LearnedSets.Op) : LearnedDomains ((LearnedSets.table .domain).run [] ops) :=
  Machine.run_invariant (fun _ op domains => domains.perform op) ⟨List.nodup_nil, nofun⟩ ops

theorem run_other (rows : List EntryRow) {actionId : String} {ops : List LearnedSets.Op}
    (others : ∀ op ∈ ops, op.actionId ≠ some actionId) :
    ((LearnedSets.table .domain).run rows ops).filter (fun row => row.actionId = actionId) =
      rows.filter fun row => row.actionId = actionId := by
  induction ops generalizing rows with
  | nil => rfl
  | cons op rest ih =>
    obtain ⟨other, later⟩ := List.forall_mem_cons.mp others
    rw [Machine.run_cons, ih _ later]
    exact LearnedSets.perform_other .domain rows op other

/-! What an action gets from a table. -/

section Values
variable {rows : List EntryRow} {actionId : String}

theorem mem_getValuesForAction {domain : String} :
    domain ∈ getValuesForAction actionId rows ↔ (actionId, domain) ∈ rows.map EntryRow.key := by
  simp [getValuesForAction, EntryRow.key, and_assoc]

theorem LearnedDomains.nodup_values (domains : LearnedDomains rows) : (getValuesForAction actionId rows).Nodup := by
  rw [getValuesForAction, (List.mergeSort_perm _ _).nodup_iff]
  have keys : (rows.filter fun row => row.actionId = actionId).map EntryRow.key =
      ((rows.filter fun row => row.actionId = actionId).map EntryRow.value).map (Prod.mk actionId) := by
    rw [List.map_map]
    refine List.map_congr_left fun row member => ?_
    have about := List.of_mem_filter member
    rw [decide_eq_true_eq] at about
    exact Prod.ext about rfl
  have nodup := domains.nodup.sublist ((List.filter_sublist (p := fun row => row.actionId = actionId)).map EntryRow.key)
  rw [keys] at nodup
  exact nodup.of_map

theorem learnedRules_get (reads : LearnedReads) :
    (learnedRules reads rows).get actionId = getValuesForAction actionId rows ∨
      (learnedRules reads rows).get actionId = [] := by
  obtain ⟨cache, query, now⟩ := reads
  cases cache with
  | none => exact .inl (LearnedSnapshot.get_ofRows rows now actionId)
  | some e =>
    cases e with
    | lockPoisoned =>
      cases query with
      | none => exact .inl rfl
      | some e => exact .inr rfl
    | _ => exact .inr rfl

/-- Tables with the same rows for an action are read alike. -/
theorem learnedRules_get_congr (reads : LearnedReads) {others : List EntryRow}
    (alike : others.filter (fun row => row.actionId = actionId) = rows.filter fun row => row.actionId = actionId) :
    (learnedRules reads others).get actionId = (learnedRules reads rows).get actionId := by
  have values : getValuesForAction actionId others = getValuesForAction actionId rows := by
    rw [getValuesForAction, alike, getValuesForAction]
  simp only [LearnedRules.get, learnedRules, LearnedSnapshot.get_ofRows, values]

theorem toLowercase_learned {toLowercase : String → String} (lowers : LowersAscii toLowercase)
    (domains : LearnedDomains rows) {domain : String} (learned : domain ∈ getValuesForAction actionId rows) :
    toLowercase domain = domain := by
  obtain ⟨row, member, same⟩ := List.mem_map.mp (mem_getValuesForAction.1 learned)
  obtain ⟨written, _, valid⟩ := domains.accepted row member
  have value : row.value = domain := congrArg Prod.snd same
  obtain ⟨ascii, lower⟩ := validateDomainEntry_spelling valid
  rw [← value, lowers _ ascii, lower, String.ofList_toList]

end Values

/-! What a call may reach. -/

namespace AppState
variable (state : AppState)

theorem narrowEgressDomains_sublist (domains : List String) : (state.narrowEgressDomains domains).Sublist domains := by
  unfold narrowEgressDomains
  split
  · exact List.filter_sublist
  · exact List.Sublist.refl _

theorem narrowEgressDomains_within {domains : List String} {sink : String} (reached : sink ∈ state.narrowEgressDomains domains)
    {runtime : List String} (narrowed : state.egressRuntimeAllowlist = some runtime) : sink ∈ runtime := by
  rw [narrowEgressDomains, narrowed] at reached
  simpa using List.of_mem_filter reached

/-- Merging brings in no domain twice that was not there twice. -/
theorem count_mergeLearnedDomains (actionId : String) (sinks : List String)
    (nodup : ((state.learnedDomains.get actionId).map state.toLowercase).Nodup) (text : String) :
    ((state.mergeLearnedDomains actionId sinks).map state.toLowercase).count text ≤
      max 1 ((sinks.map state.toLowercase).count text) := by
  unfold mergeLearnedDomains
  rw [List.map_append, List.count_append]
  by_cases there : text ∈ sinks.map state.toLowercase
  · have none_ : (((state.learnedDomains.get actionId).filter fun domain =>
        state.toLowercase domain ∉ sinks.map state.toLowercase).map state.toLowercase).count text = 0 := by
      refine List.count_eq_zero.mpr fun member => ?_
      obtain ⟨domain, kept, rfl⟩ := List.mem_map.mp member
      have absent := List.of_mem_filter kept
      rw [decide_eq_true_eq] at absent
      exact absent there
    rw [none_]
    exact Nat.le_max_right _ _
  · rw [List.count_eq_zero.mpr there, Nat.zero_add]
    have once := List.nodup_iff_count_le_one.mp nodup text
    exact ((List.filter_sublist.map _).count_le text).trans (once.trans (Nat.le_max_left _ _))

theorem resolveEffectiveSinks_congr {rules others : LearnedRules} {actionId : String}
    (alike : others.get actionId = rules.get actionId) (approved : EgressProfile) :
    (state.withLearned others).resolveEffectiveSinks actionId approved =
      (state.withLearned rules).resolveEffectiveSinks actionId approved := by
  have merged : (state.withLearned others).mergeLearnedDomains actionId approved.concreteAllowedDomains =
      (state.withLearned rules).mergeLearnedDomains actionId approved.concreteAllowedDomains := by
    simp only [mergeLearnedDomains, withLearned, alike]
    rfl
  exact congrArg state.narrowEgressDomains merged

def learn (actionId domain : String) : LearnedSets.Op :=
  .add "2026-01-01T00:00:00Z" actionId domain "operator" .cli none false

def narrowedGate : AppState :=
  { sampleGate fsSpec [] with egressRuntimeAllowlist := some ["hooks.slack.com", "api.example.com"] }

theorem lowersAscii_sampleGate : LowersAscii (sampleGate fsSpec []).toLowercase :=
  fun _ _ => rfl

end AppState
end Latchgate
