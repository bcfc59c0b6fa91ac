import Latchgate.Policy.Data
import Latchgate.Policy.Decision

namespace Latchgate
namespace Policy
open Rego PolicyData

/-- What a revocation promises, in the terms of the policy: nothing that was
revoked is left to the principal's own entry or comes from its removal, and
nobody gains an action or a sink. -/
structure RevokeNarrows (before after : Json) (principal : String) (actions : List String) : Prop where
  own : ∀ action ∈ actions, contains (at_ (entry after principal) "allowed_actions") action = false
  vanished : entry before principal ≠ none → entry after principal = none → ∀ action ∈ actions,
    principalHasTool after principal action = false
  tools : ∀ other action, principalHasTool after other action = true → principalHasTool before other action = true
  sinks : ∀ other sink, sinkAllowed after other sink = true → sinkAllowed before other sink = true

/-- What a grant promises: the principal has the actions, and nobody loses an
action or a sink. -/
structure GrantKeeps (before after : Json) (principal : String) (actions : List String) : Prop where
  granted : ∀ action ∈ actions, principalHasTool after principal action = true
  tools : ∀ other action, principalHasTool before other action = true → principalHasTool after other action = true
  sinks : ∀ other sink, sinkAllowed before other sink = true → sinkAllowed after other sink = true

/-- Where actions remain, their sinks were allowed before. Where none remains,
all that the wildcard has was the principal's before, and none of its actions is
among the revoked. -/
structure RevokeSafe (registry : RegistryStore) (data : Json) (principal : String) (actions : List String) :
    Prop where
  derived : ∀ fields, entry data principal = some (.object fields) → remainingActions actions fields ≠ [] →
    ∀ sink ∈ deriveSinks registry (remainingActions actions fields), sinkAllowed data principal sink = true
  fallback : ∀ fields, entry data principal = some (.object fields) → remainingActions actions fields = [] →
    principal ≠ "*" →
      (∀ action, contains (at_ (entry data "*") "allowed_actions") action = true →
        action ∉ actions ∧ principalHasTool data principal action = true) ∧
      ∀ sink, contains (at_ (entry data "*") "allowed_sinks") sink = true → sinkAllowed data principal sink = true

/-- What the principal has of the wildcard by inheritance. -/
def inherited (data : Json) (principal list text : String) : Prop :=
  principal ≠ "*" ∧ inheritsWildcard data principal = true ∧ contains (at_ (entry data "*") list) text = true

/-- An entry that is there lists only what is read of it or derived again. For
a principal without one, the wildcard has nothing beyond what is granted. -/
structure GrantSafe (registry : RegistryStore) (data : Json) (principal : String) (actions : List String) :
    Prop where
  read : ∀ fields, entry data principal = some (.object fields) →
    ∀ action, contains (fields.lookup "allowed_actions") action = true →
      action ∈ currentActions fields ∨ action ∈ actions ∨ inherited data principal "allowed_actions" action
  derived : ∀ fields, entry data principal = some (.object fields) →
    ∀ sink, contains (fields.lookup "allowed_sinks") sink = true →
      sink ∈ deriveSinks registry (sortedTexts (currentActions fields ++ actions)) ∨
        inherited data principal "allowed_sinks" sink
  tools : entry data principal = none →
    ∀ action, contains (at_ (entry data "*") "allowed_actions") action = true → action ∈ actions
  sinks : entry data principal = none →
    ∀ sink, contains (at_ (entry data "*") "allowed_sinks") sink = true →
      sink ∈ deriveSinks registry (sortedTexts actions)

section Entries
variable {before after : Json} {list : String}

theorem contains_textArray (texts : List String) (text : String) :
    contains (some (textArray texts)) text = true ↔ text ∈ texts := by
  simp [contains, members, textArray, isText, Json.asStr?]

theorem contains_of_mem_currentActions {fields : List (String × Json)} {action : String}
    (current : action ∈ currentActions fields) : contains (fields.lookup "allowed_actions") action = true := by
  obtain ⟨item, inside, isAction⟩ := List.mem_filterMap.mp current
  cases known : fields.lookup "allowed_actions" with
  | none => simp [known] at inside
  | some value =>
    cases value with
    | array items =>
      refine List.any_eq_true.mpr ⟨item, ?_, by simp [isText, isAction]⟩
      simpa [members, known, Json.asArray?] using inside
    | _ => simp [known, Json.asArray?] at inside

/-- For the wildcard itself there is only its own entry. -/
theorem grants_star (data : Json) (list text : String) :
    grants data "*" list text = contains (at_ (entry data "*") list) text := by
  unfold grants
  cases contains (at_ (entry data "*") list) text <;> simp

/-- Where two documents differ in one entry, whoever gains anything, that
principal does. -/
theorem grants_le_iff {principal : String} (same : ∀ other, other ≠ principal → entry after other = entry before other) :
    (∀ other text, grants after other list text = true → grants before other list text = true) ↔
      ∀ text, grants after principal list text = true → grants before principal list text = true := by
  constructor
  · intro all text
    exact all principal text
  intro own other text has
  by_cases here : other = principal
  · subst here
    exact own text has
  have star : contains (at_ (entry after "*") list) text = true → contains (at_ (entry before "*") list) text = true := by
    intro wild
    by_cases isStar : "*" = principal
    · subst isStar
      rw [← grants_star] at wild ⊢
      exact own text wild
    · rwa [← same "*" isStar]
  unfold grants inheritsWildcard at has ⊢
  rw [same other here] at has
  simp only [Bool.or_eq_true, Bool.and_eq_true] at has ⊢
  rcases has with (listed | ⟨inherits, wild⟩) | ⟨absent, wild⟩
  · exact .inl (.inl listed)
  · exact .inl (.inr ⟨inherits, star wild⟩)
  · exact .inr ⟨absent, star wild⟩

/-- What a principal with an entry has. -/
theorem grants_of_object {data : Json} {principal text : String} {fields : List (String × Json)}
    (found : entry data principal = some (.object fields)) :
    grants data principal list text = true ↔
      contains (fields.lookup list) text = true ∨ inherited data principal list text := by
  have own : at_ (entry data principal) list = fields.lookup list := by
    rw [found]
    rfl
  have present : holds (entry data principal) = true := by
    rw [found]
    rfl
  unfold grants inherited
  rw [own, present]
  simp only [Bool.or_eq_true, Bool.and_eq_true, Bool.not_true, Bool.false_eq_true, false_and, or_false]
  constructor
  · rintro (listed | ⟨inherits, wild⟩)
    · exact .inl listed
    · by_cases isStar : principal = "*"
      · subst isStar
        rw [own] at wild
        exact .inl wild
      · exact .inr ⟨isStar, inherits, wild⟩
  · rintro (listed | ⟨-, inherits, wild⟩)
    · exact .inl listed
    · exact .inr ⟨inherits, wild⟩

theorem grants_of_none {data : Json} {principal text : String} (absent : entry data principal = none) :
    grants data principal list text = contains (at_ (entry data "*") list) text := by
  simp [grants, absent, inheritsWildcard, Rego.isTrue, holds, at_, contains_none]

end Entries

section Replaced
variable {before after : Json} {registry : RegistryStore} {principal list text : String} {kept : List String}
  {fields acl : List (String × Json)}

/-- The entries of a document whose `acl` is replaced are those put there. -/
theorem entry_of_aclReplaced (replaced : AclReplaced before after acl) (name : String) :
    entry after name = acl.lookup name := by
  unfold entry
  rw [replaced.acl]
  rfl

theorem lookup_withActions (name : String) :
    at_ (some (withActions registry kept fields)) name =
      if name = "allowed_sinks" then some (textArray (deriveSinks registry kept))
      else if name = "allowed_actions" then some (textArray kept) else fields.lookup name := by
  show (Json.insertField _ _ (Json.insertField _ _ fields)).lookup name = _
  rw [Json.lookup_insertField, Json.lookup_insertField]

/-- What is left to a principal whose entry was given other actions: those, and
what it inherits as before. -/
theorem grants_withActions {texts : List String} (same : ∀ other, other ≠ principal → entry after other = entry before other)
    (found : entry after principal = some (withActions registry kept fields))
    (listed : at_ (some (withActions registry kept fields)) list = some (textArray texts)) :
    grants after principal list text = true ↔ text ∈ texts ∨
      principal ≠ "*" ∧ Rego.isTrue (fields.lookup "inherits_wildcard") = true ∧
        contains (at_ (entry before "*") list) text = true := by
  rw [grants_of_object found, ← contains_textArray texts text, ← listed]
  refine or_congr Iff.rfl (and_congr_right fun notStar => ?_)
  rw [same "*" (Ne.symm notStar)]
  unfold inheritsWildcard
  rw [found, lookup_withActions]
  rfl

section Lists
variable {texts : List String} (same : ∀ other, other ≠ principal → entry after other = entry before other)
  (found : entry after principal = some (withActions registry kept fields))
  (listed : at_ (some (withActions registry kept fields)) list = some (textArray texts))
include same found listed

theorem keeps_iff_of_object (known : entry before principal = some (.object fields)) :
    (∀ other text, grants before other list text = true → grants after other list text = true) ↔
      ∀ text, contains (fields.lookup list) text = true → text ∈ texts ∨ inherited before principal list text := by
  have inherits : inheritsWildcard before principal = Rego.isTrue (fields.lookup "inherits_wildcard") := by
    unfold inheritsWildcard
    rw [known]
    rfl
  rw [grants_le_iff fun other differs => (same other differs).symm]
  refine forall_congr' fun text => ?_
  rw [grants_of_object known, grants_withActions same found listed, inherited, inherits]
  constructor
  · intro kept own
    exact kept (.inl own)
  · rintro kept (own | more)
    · exact kept own
    · exact .inr more

theorem keeps_iff_of_none (plain : fields.lookup "inherits_wildcard" = none) (known : entry before principal = none) :
    (∀ other text, grants before other list text = true → grants after other list text = true) ↔
      ∀ text, contains (at_ (entry before "*") list) text = true → text ∈ texts := by
  rw [grants_le_iff fun other differs => (same other differs).symm]
  refine forall_congr' fun text => ?_
  rw [grants_of_none known, grants_withActions same found listed, plain]
  simp [Rego.isTrue]

theorem narrows_iff_of_object (known : entry before principal = some (.object fields)) :
    (∀ other text, grants after other list text = true → grants before other list text = true) ↔
      ∀ text ∈ texts, grants before principal list text = true := by
  have inherits : inheritsWildcard before principal = Rego.isTrue (fields.lookup "inherits_wildcard") := by
    unfold inheritsWildcard
    rw [known]
    rfl
  rw [grants_le_iff same]
  refine forall_congr' fun text => ?_
  rw [grants_withActions same found listed]
  constructor
  · intro narrows member
    exact narrows (.inl member)
  · rintro narrows (member | more)
    · exact narrows member
    · rw [← inherits] at more
      exact (grants_of_object known).mpr (.inr more)

end Lists

/-- Removing an entry gives the principal what the wildcard has. -/
theorem narrows_iff_of_removed (same : ∀ other, other ≠ principal → entry after other = entry before other)
    (gone : entry after principal = none) :
    (∀ other text, grants after other list text = true → grants before other list text = true) ↔
      (principal ≠ "*" → ∀ text, contains (at_ (entry before "*") list) text = true →
        grants before principal list text = true) := by
  rw [grants_le_iff same]
  by_cases isStar : principal = "*"
  · subst isStar
    simp [grants_of_none gone, gone, at_, contains_none]
  · simp only [grants_of_none gone, same "*" (Ne.symm isStar), ne_eq, isStar, not_false_eq_true, true_implies]

end Replaced

section Requests
variable {registry : RegistryStore} {data after : Json} {principal : String} {actions : List String}

theorem grantKeeps_iff (done : grantActions registry principal actions data = .ok after) :
    GrantKeeps data after principal actions ↔ GrantSafe registry data principal actions := by
  obtain ⟨acl, fields, looked, isEntry, replaced⟩ := grantActions_eq_ok done
  have looked : ∀ name, acl.lookup name = entry data name := looked
  have same : ∀ other, other ≠ principal → entry after other = entry data other := by
    intro other differs
    rw [entry_of_aclReplaced replaced, Json.lookup_insertField, if_neg differs, looked]
  have found := entry_of_aclReplaced replaced principal
  rw [Json.lookup_insertField, if_pos rfl] at found
  have tools := @lookup_withActions registry (sortedTexts (currentActions fields ++ actions)) fields "allowed_actions"
  have sinks := @lookup_withActions registry (sortedTexts (currentActions fields ++ actions)) fields "allowed_sinks"
  rw [if_neg (by decide), if_pos rfl] at tools
  rw [if_pos rfl] at sinks
  have granted : ∀ action ∈ actions, principalHasTool after principal action = true := by
    intro action member
    refine (grants_withActions same found tools).mpr (.inl ?_)
    simp [member]
  cases known : entry data principal with
  | none =>
    rw [looked, known] at isEntry
    cases isEntry
    have keepsTools := keeps_iff_of_none same found tools rfl known
    have keepsSinks := keeps_iff_of_none same found sinks rfl known
    constructor
    · intro keeps
      refine ⟨by simp [known], by simp [known], fun _ action wild => ?_, fun _ sink wild => ?_⟩
      · simpa [currentActions, Json.asArray?] using keepsTools.mp keeps.tools action wild
      · exact keepsSinks.mp keeps.sinks sink wild
    · intro safe
      refine ⟨granted, keepsTools.mpr fun action wild => ?_, keepsSinks.mpr (safe.sinks known)⟩
      simpa [currentActions, Json.asArray?] using safe.tools known action wild
  | some value =>
    rw [looked, known] at isEntry
    obtain rfl : value = .object fields := isEntry
    have keepsTools := keeps_iff_of_object same found tools known
    have keepsSinks := keeps_iff_of_object same found sinks known
    constructor
    · intro keeps
      refine ⟨fun fields' isObject => ?_, fun fields' isObject => ?_, by simp [known], by simp [known]⟩
      · obtain rfl : fields = fields' := by simpa [known] using isObject
        intro action own
        simpa [or_assoc] using keepsTools.mp keeps.tools action own
      · obtain rfl : fields = fields' := by simpa [known] using isObject
        exact keepsSinks.mp keeps.sinks
    · intro safe
      refine ⟨granted, keepsTools.mpr fun action own => ?_, keepsSinks.mpr (safe.derived fields known)⟩
      simpa [or_assoc] using safe.read fields known action own

theorem revokeNarrows_iff {written : Option Json} (done : revokeActions registry principal actions data = .ok written) :
    RevokeNarrows data (written.getD data) principal actions ↔ RevokeSafe registry data principal actions := by
  obtain ⟨acl, looked, outcome⟩ := revokeActions_eq_ok done
  have looked : ∀ name, acl.lookup name = entry data name := looked
  rcases outcome with ⟨absent, rfl⟩ | ⟨fields, after, known, rfl, replaced⟩
  · rw [looked] at absent
    have nothing : RevokeNarrows data data principal actions := by
      refine ⟨fun action _ => ?_, fun present => absurd absent present, fun _ _ has => has, fun _ _ has => has⟩
      rw [absent]
      rfl
    exact iff_of_true nothing ⟨by simp [absent], by simp [absent]⟩
  rw [looked] at known
  rw [Option.getD_some]
  by_cases empty : remainingActions actions fields = []
  · rw [if_pos empty] at replaced
    have same : ∀ other, other ≠ principal → entry after other = entry data other := by
      intro other differs
      rw [entry_of_aclReplaced replaced, lookup_removeField, if_neg differs, looked]
    have gone : entry after principal = none := by
      rw [entry_of_aclReplaced replaced, lookup_removeField, if_pos rfl]
    have narrowsTools := @narrows_iff_of_removed data after principal "allowed_actions" same gone
    have narrowsSinks := @narrows_iff_of_removed data after principal "allowed_sinks" same gone
    constructor
    · intro narrows
      refine ⟨fun fields' isObject left => ?_, fun fields' isObject _ notStar => ⟨fun action wild => ⟨fun member => ?_, ?_⟩, ?_⟩⟩
      · obtain rfl : fields = fields' := by simpa [known] using isObject
        exact absurd empty left
      · have none := narrows.vanished (by simp [known]) gone action member
        unfold principalHasTool at none
        rw [grants_of_none gone, same "*" (Ne.symm notStar), wild] at none
        cases none
      · exact narrowsTools.mp narrows.tools notStar action wild
      · exact narrowsSinks.mp narrows.sinks notStar
    · intro safe
      have fallback := safe.fallback fields known empty
      refine ⟨fun action _ => ?_, fun _ _ action member => ?_,
        narrowsTools.mpr fun notStar action wild => ((fallback notStar).1 action wild).2,
        narrowsSinks.mpr fun notStar => (fallback notStar).2⟩
      · rw [gone]
        rfl
      · unfold principalHasTool
        rw [grants_of_none gone]
        by_cases isStar : principal = "*"
        · subst isStar
          rw [gone]
          rfl
        · rw [same "*" (Ne.symm isStar)]
          refine eq_false_of_ne_true fun wild => ?_
          exact ((fallback isStar).1 action wild).1 member
  · rw [if_neg empty] at replaced
    have same : ∀ other, other ≠ principal → entry after other = entry data other := by
      intro other differs
      rw [entry_of_aclReplaced replaced, Json.lookup_insertField, if_neg differs, looked]
    have found := entry_of_aclReplaced replaced principal
    rw [Json.lookup_insertField, if_pos rfl] at found
    have tools := @lookup_withActions registry (remainingActions actions fields) fields "allowed_actions"
    have sinks := @lookup_withActions registry (remainingActions actions fields) fields "allowed_sinks"
    rw [if_neg (by decide), if_pos rfl] at tools
    rw [if_pos rfl] at sinks
    have narrowsTools := (narrows_iff_of_object same found tools known).mpr (by
      intro action member
      refine (grants_of_object known).mpr (.inl ?_)
      obtain ⟨current, -⟩ := List.mem_filter.mp (mem_sortedTexts.1 member)
      exact contains_of_mem_currentActions current)
    have narrowsSinks := narrows_iff_of_object same found sinks known
    constructor
    · intro narrows
      refine ⟨fun fields' isObject _ => ?_, fun fields' isObject none => ?_⟩
      · obtain rfl : fields = fields' := by simpa [known] using isObject
        exact narrowsSinks.mp narrows.sinks
      · obtain rfl : fields = fields' := by simpa [known] using isObject
        exact absurd none empty
    · intro safe
      refine ⟨fun action member => ?_, by simp [found], narrowsTools, narrowsSinks.mpr (safe.derived fields known empty)⟩
      rw [found, tools]
      refine eq_false_of_ne_true fun listed => ?_
      have left := (contains_textArray _ _).mp listed
      simp [remainingActions, member] at left

/-- Seen through the policy's own rules, a grant takes nothing away and a
revocation gives nothing, just where the request and the document are safe. -/
theorem acl_edits_sound (registry : RegistryStore) (data : Json) (principal : String) (actions : List String) :
    (∀ after, grantActions registry principal actions data = .ok after →
      (GrantKeeps data after principal actions ↔ GrantSafe registry data principal actions)) ∧
    ∀ written, revokeActions registry principal actions data = .ok written →
      (RevokeNarrows data (written.getD data) principal actions ↔ RevokeSafe registry data principal actions) :=
  ⟨fun _ done => grantKeeps_iff done, fun _ done => revokeNarrows_iff done⟩

end Requests

section Samples

theorem grantSafe_agent : GrantSafe twoActions (agentMay ["http_read"]) "agent" ["http_write"] := by
  have known : entry (agentMay ["http_read"]) "agent" = some (.object (agentFields ["http_read"])) := rfl
  refine ⟨fun fields isObject action own => ?_, fun fields isObject sink own => ?_, by simp [known], by simp [known]⟩
  · obtain rfl : agentFields ["http_read"] = fields := by simpa [known] using isObject
    have isRead : action ∈ ["http_read"] := (contains_textArray _ _).mp own
    exact .inl isRead
  · obtain rfl : agentFields ["http_read"] = fields := by simpa [known] using isObject
    have isRead : sink ∈ ["http_read"] := (contains_textArray _ _).mp own
    obtain rfl := List.mem_singleton.mp isRead
    exact .inl (by decide)

theorem revokeSafe_agent : RevokeSafe twoActions (agentMay ["http_read", "http_write"]) "agent" ["http_write"] := by
  have known : entry (agentMay ["http_read", "http_write"]) "agent" =
    some (.object (agentFields ["http_read", "http_write"])) := rfl
  refine ⟨fun fields isObject _ sink derived => ?_, fun fields isObject none => ?_⟩
  · obtain rfl : agentFields ["http_read", "http_write"] = fields := by simpa [known] using isObject
    have isRead : sink ∈ ["http_read"] := derived
    obtain rfl := List.mem_singleton.mp isRead
    decide
  · obtain rfl : agentFields ["http_read", "http_write"] = fields := by simpa [known] using isObject
    exact absurd none (by decide)

theorem acl_edits_sound_agent :
    (∃ after, grantActions twoActions "agent" ["http_write"] (agentMay ["http_read"]) = .ok after ∧
      GrantKeeps (agentMay ["http_read"]) after "agent" ["http_write"]) ∧
    ∃ written, revokeActions twoActions "agent" ["http_write"] (agentMay ["http_read", "http_write"]) = .ok written ∧
      RevokeNarrows (agentMay ["http_read", "http_write"]) (written.getD (agentMay ["http_read", "http_write"]))
        "agent" ["http_write"] := by
  refine ⟨⟨_, rfl, ?_⟩, ⟨_, rfl, ?_⟩⟩
  · exact ((acl_edits_sound twoActions (agentMay ["http_read"]) "agent" ["http_write"]).1 _ rfl).mpr grantSafe_agent
  · exact ((acl_edits_sound twoActions (agentMay ["http_read", "http_write"]) "agent" ["http_write"]).2 _ rfl).mpr
      revokeSafe_agent

/-- The last action of an agent is revoked, and the agent has it from the
wildcard. -/
theorem revoked_action_stays :
    (AdminRequest.revoke "agent" ["http_read"]).check twoActions = .ok () ∧
      ∃ after, revokeActions twoActions "agent" ["http_read"] (agentMay ["http_read"]) = .ok (some after) ∧
        ¬RevokeNarrows (agentMay ["http_read"]) after "agent" ["http_read"] := by
  refine ⟨by decide, _, rfl, fun narrows => ?_⟩
  have none := narrows.vanished (by simp [entry, agentMay, at_, Json.get?]) rfl "http_read" (by decide)
  revert none
  decide

end Samples

end Policy
end Latchgate
