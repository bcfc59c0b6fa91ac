import Latchgate.Plan.Hash

namespace Latchgate
open Encoding

structure BudgetReservation where
  callsBefore : Int
  callsAfter : Int
  deriving DecidableEq

structure ExecutionGrant where
  grantId : String
  subject : String
  senderBinding : String
  core : ExecutionPlanCore
  budgetReservation : BudgetReservation
  approvedBy : Option String
  operatorBinding : Option String
  approvalHash : Option String
  issuedAt : DateTime
  revocationEpoch : UInt64
  grantSignature : Option String
  grantSigningKeyId : Option String
  deriving DecidableEq

namespace ExecutionGrant

def isExpired (grant : ExecutionGrant) (now : DateTime) : Bool :=
  grant.core.expiresAt.unixNanos ≤ now.unixNanos

def isValid (grant : ExecutionGrant) (now : DateTime) (currentEpoch : UInt64) : Bool :=
  !grant.isExpired now && currentEpoch ≤ grant.revocationEpoch

def planPreimage (grant : ExecutionGrant) : List UInt8 :=
  utf8 "latchgate-grant-plan-v3:".toList ++ grant.core.hashInto ++
    hashOptionalTagged "approved_by:" grant.approvedBy ++
    hashOptionalTagged "operator_binding:" grant.operatorBinding

def computePlanHash (sha256 : List UInt8 → String) (grant : ExecutionGrant) : String :=
  sha256 grant.planPreimage

def approvalSuffix : Option String → List UInt8
  | some approvalHash => utf8 ":approval_hash:".toList ++ utf8 approvalHash.toList
  | none => []

/-- The part of the signed bytes that is text. -/
def signableText (planHash : String) (grant : ExecutionGrant) : List Char :=
  "latchgate-grant-v1:".toList ++ terminated ':' grant.grantId.toList ++ terminated ':' grant.subject.toList ++
    terminated ':' grant.senderBinding.toList ++ terminated ':' planHash.toList ++
    terminated ':' grant.issuedAt.rfc3339.toList ++ terminated ':' grant.core.expiresAt.rfc3339.toList

/-- The byte string that `compute_signable_hash` feeds to SHA-256. -/
def signablePreimage (sha256 : List UInt8 → String) (grant : ExecutionGrant) : List UInt8 :=
  utf8 (grant.signableText (grant.computePlanHash sha256)) ++ leBytes 8 grant.revocationEpoch.toNat ++
    approvalSuffix grant.approvalHash

def computeSignableHash (sha256 : List UInt8 → String) (grant : ExecutionGrant) : String :=
  sha256 (grant.signablePreimage sha256)

def computeApprovalHash (sha256 : List UInt8 → String) (approvalId planHash : String) : String :=
  sha256 (utf8 ("latchgate-approval-v1:".toList ++ approvalId.toList ++ ':' :: planHash.toList))

/-- What the signature of a grant is meant to bind: all of it but the budget
snapshot and the signature itself. -/
def bound (grant : ExecutionGrant) : ExecutionGrant :=
  { grant with budgetReservation := ⟨0, 0⟩, grantSignature := none, grantSigningKeyId := none }

end ExecutionGrant

structure GrantIdentity where
  subject : String
  senderBinding : String

structure ApprovalBinding where
  approvalId : String
  planHash : String

structure ExecutionGrantBuilder where
  grantId : String
  subject : String
  senderBinding : String
  core : ExecutionPlanCore
  budgetReservation : BudgetReservation
  issuedAt : DateTime
  revocationEpoch : UInt64
  approvedBy : Option String := none
  operatorBinding : Option String := none
  approvalBinding : Option ApprovalBinding := none

namespace ExecutionGrantBuilder

def new (grantId : String) (identity : GrantIdentity) (core : ExecutionPlanCore)
    (budgetReservation : BudgetReservation) (issuedAt : DateTime) (revocationEpoch : UInt64) :
    ExecutionGrantBuilder :=
  { grantId, subject := identity.subject, senderBinding := identity.senderBinding, core, budgetReservation,
    issuedAt, revocationEpoch }

def withApprover (builder : ExecutionGrantBuilder) (operatorId : String) : ExecutionGrantBuilder :=
  { builder with approvedBy := some operatorId }

def withOperatorBinding (builder : ExecutionGrantBuilder) (binding : Option String) : ExecutionGrantBuilder :=
  { builder with operatorBinding := binding }

def withApprovalFor (builder : ExecutionGrantBuilder) (approvalId planHash : String) : ExecutionGrantBuilder :=
  { builder with approvalBinding := some ⟨approvalId, planHash⟩ }

def build (sha256 : List UInt8 → String) (builder : ExecutionGrantBuilder) : ExecutionGrant where
  grantId := builder.grantId
  subject := builder.subject
  senderBinding := builder.senderBinding
  core := builder.core
  budgetReservation := builder.budgetReservation
  approvedBy := builder.approvedBy
  operatorBinding := builder.operatorBinding
  approvalHash := builder.approvalBinding.map fun binding =>
    ExecutionGrant.computeApprovalHash sha256 binding.approvalId binding.planHash
  issuedAt := builder.issuedAt
  revocationEpoch := builder.revocationEpoch
  grantSignature := none
  grantSigningKeyId := none

end ExecutionGrantBuilder

/-- A digest text: 64 hexadecimal digits. -/
def HexDigest (sha256 : List UInt8 → String) : Prop :=
  ∀ bytes, (sha256 bytes).toList.length = 64 ∧ (sha256 bytes).toList.all isAsciiHexDigit

theorem utf8EncodeChar_hex {c : Char} (hex : isAsciiHexDigit c) :
    ∃ byte, String.utf8EncodeChar c = [byte] ∧ byte ≠ 58 := by
  have range : c.toNat ≤ 102 ∧ c.toNat ≠ 58 := by
    simp only [isAsciiHexDigit, Char.isDigit, Char.le_def, UInt32.le_iff_toNat_le, decide_eq_true_eq, Bool.and_eq_true]
      at hex
    have value : c.toNat = c.val.toNat := rfl
    simp at hex
    omega
  have one : c.utf8Size = 1 := by
    rw [Char.utf8Size_eq_one_iff, UInt32.le_iff_toNat_le]
    exact range.1.trans (by decide)
  refine ⟨_, String.utf8EncodeChar_eq_singleton one, ?_⟩
  intro colon
  have number := congrArg UInt8.toNat colon
  simp only [UInt32.toNat_toUInt8, Nat.reducePow] at number
  have value : c.toNat = c.val.toNat := rfl
  have small : c.toNat % 256 = 58 := number
  omega

/-- The text of a digest is as many bytes as digits, and none is a colon. -/
theorem utf8_hex {text : List Char} (digits : text.all isAsciiHexDigit) :
    (utf8 text).length = text.length ∧ 58 ∉ utf8 text := by
  induction text with
  | nil => simp [utf8]
  | cons c text ih =>
    simp only [List.all_cons, Bool.and_eq_true] at digits
    obtain ⟨byte, single, differs⟩ := utf8EncodeChar_hex digits.1
    obtain ⟨length, absent⟩ := ih digits.2
    have split : utf8 (c :: text) = byte :: utf8 text := by
      simp [utf8, single]
    rw [split]
    refine ⟨by simp [length], ?_⟩
    simp only [List.mem_cons, not_or]
    exact ⟨fun equal => differs equal.symm, absent⟩

theorem colon_notMem_of_hex {text : List Char} (digits : text.all isAsciiHexDigit) : ':' ∉ text := by
  intro member
  have digit := List.all_eq_true.mp digits ':' member
  exact absurd digit (by decide)

namespace ExecutionGrant
variable {print : Int → String} {sha256 : List UInt8 → String} {g h : ExecutionGrant}

/-- The texts of two grants that a reader of the signed bytes tells apart. The
subject stands between the grant id and the sender binding, which are read
from the two ends, so it is free. -/
structure ReadApart (print : Int → String) (g h : ExecutionGrant) : Prop where
  grantId : Clear ':' g.grantId.toList h.grantId.toList
  senderBinding : Clear ':' g.senderBinding.toList.reverse h.senderBinding.toList.reverse
  core : g.core.ReadApart print h.core
  approvedBy : ClearOption '|' g.approvedBy h.approvedBy
  operatorBinding : ClearOption '|' g.operatorBinding h.operatorBinding

/-- What every grant of the builder has: an approval hash is a digest, and its
times are printed by the clock. -/
structure Built (print : Int → String) (g : ExecutionGrant) : Prop where
  approvalHash : ∀ text ∈ g.approvalHash, text.toList.length = 64 ∧ text.toList.all isAsciiHexDigit
  issuedAt : g.issuedAt.Printed print
  expiresAt : g.core.expiresAt.Printed print

theorem build_built (digest : HexDigest sha256)
    (builder : ExecutionGrantBuilder) (issued : builder.issuedAt.Printed print)
    (expires : builder.core.expiresAt.Printed print) : (builder.build sha256).Built print where
  approvalHash := by
    intro text member
    simp only [ExecutionGrantBuilder.build, Option.mem_def, Option.map_eq_some_iff] at member
    obtain ⟨binding, -, rfl⟩ := member
    exact digest _
  issuedAt := issued
  expiresAt := expires

/-- Eight bytes behind a colon are not the end of an approval hash. -/
theorem colon_ne_approvalSuffix {a b : List UInt8} {m : Nat} {text : String}
    (hash : text.toList.length = 64 ∧ text.toList.all isAsciiHexDigit) :
    a ++ [58] ++ leBytes 8 m ≠ b ++ approvalSuffix (some text) := by
  intro same
  obtain ⟨length, absent⟩ := utf8_hex hash.2
  have parts : utf8 text.toList = (utf8 text.toList).take 56 ++ (utf8 text.toList).drop 56 :=
    (List.take_append_drop 56 _).symm
  have ending : ((utf8 text.toList).drop 56).length = 8 := by
    rw [List.length_drop, length, hash.1]
  have front : ((utf8 text.toList).take 56).length = 56 := by
    rw [List.length_take, length, hash.1]
    rfl
  rw [approvalSuffix, parts, ← List.append_assoc, ← List.append_assoc] at same
  obtain ⟨heads, -⟩ := List.append_inj' same (by rw [length_leBytes, ending])
  obtain ⟨init, last, split⟩ : ∃ init last, (utf8 text.toList).take 56 = init ++ [last] := by
    rcases List.eq_nil_or_concat ((utf8 text.toList).take 56) with empty | ⟨init, last, split⟩
    · rw [empty] at front
      cases front
    · exact ⟨init, last, by rw [split, List.concat_eq_append]⟩
  rw [split, ← List.append_assoc] at heads
  obtain ⟨-, colon⟩ := List.append_inj' heads rfl
  rw [List.singleton_inj] at colon
  subst colon
  have inside : (58 : UInt8) ∈ (utf8 text.toList).take 56 := by
    rw [split]
    simp
  exact absent (List.mem_of_mem_take inside)

/-- The epoch and the approval hash are read from the end of the bytes. -/
theorem suffix_inj {a b : List UInt8} {m n : Nat} {x y : Option String} (first : m < 256 ^ 8) (second : n < 256 ^ 8)
    (left : ∀ text ∈ x, text.toList.length = 64 ∧ text.toList.all isAsciiHexDigit)
    (right : ∀ text ∈ y, text.toList.length = 64 ∧ text.toList.all isAsciiHexDigit)
    (same : a ++ [58] ++ leBytes 8 m ++ approvalSuffix x = b ++ [58] ++ leBytes 8 n ++ approvalSuffix y) :
    a = b ∧ m = n ∧ x = y := by
  have heads : ∀ {c d : List UInt8}, c ++ [58] ++ leBytes 8 m = d ++ [58] ++ leBytes 8 n → c = d ∧ m = n := by
    intro c d equal
    obtain ⟨texts, numbers⟩ := List.append_inj' equal (by simp)
    exact ⟨List.append_cancel_right texts, leBytes_inj first second numbers⟩
  have absent : approvalSuffix none = [] := rfl
  cases x with
  | none =>
    cases y with
    | none =>
      rw [absent, List.append_nil, List.append_nil] at same
      obtain ⟨texts, numbers⟩ := heads same
      exact ⟨texts, numbers, rfl⟩
    | some t =>
      rw [absent, List.append_nil] at same
      exact absurd same (colon_ne_approvalSuffix (right t rfl))
  | some s =>
    cases y with
    | none =>
      rw [absent, List.append_nil] at same
      exact absurd same.symm (colon_ne_approvalSuffix (left s rfl))
    | some t =>
      have lengths : (approvalSuffix (some s)).length = (approvalSuffix (some t)).length := by
        simp only [approvalSuffix, List.length_append, (utf8_hex (left s rfl).2).1, (utf8_hex (right t rfl).2).1,
          (left s rfl).1, (right t rfl).1]
      obtain ⟨front, hashes⟩ := List.append_inj' same lengths
      obtain ⟨texts, numbers⟩ := heads front
      refine ⟨texts, numbers, ?_⟩
      rw [String.toList_injective (utf8_injective (List.append_cancel_left hashes))]

/-- Six texts with a colon behind each: the first is read from the start, the
last four from the end, and the second is what is left. -/
theorem six_texts_inj {a b c d e f a' b' c' d' e' f' : List Char} (first : Clear ':' a a')
    (third : Clear ':' c.reverse c'.reverse) (fourth : Clear ':' d.reverse d'.reverse)
    (fifth : Clear ':' e.reverse e'.reverse) (sixth : Clear ':' f.reverse f'.reverse)
    (same : terminated ':' a ++ (terminated ':' b ++ (terminated ':' c ++ (terminated ':' d ++
        (terminated ':' e ++ terminated ':' f)))) =
      terminated ':' a' ++ (terminated ':' b' ++ (terminated ':' c' ++ (terminated ':' d' ++
        (terminated ':' e' ++ terminated ':' f'))))) :
    a = a' ∧ b = b' ∧ c = c' ∧ d = d' ∧ e = e' ∧ f = f' := by
  obtain ⟨start, same⟩ := terminated_append_inj first same
  have backwards := congrArg List.reverse same
  simp only [terminated, List.reverse_append, List.reverse_cons, List.reverse_nil, List.nil_append,
    List.append_assoc, List.cons_append, List.cons.injEq, true_and] at backwards
  obtain ⟨last, backwards⟩ := append_cons_inj sixth backwards
  obtain ⟨fromLast, backwards⟩ := append_cons_inj fifth backwards
  obtain ⟨middle, backwards⟩ := append_cons_inj fourth backwards
  obtain ⟨inner, left⟩ := append_cons_inj third backwards
  exact ⟨start, List.reverse_injective left, List.reverse_injective inner, List.reverse_injective middle,
    List.reverse_injective fromLast, List.reverse_injective last⟩

theorem clear_reverse_dates (clock : Rfc3339 print) {t u : DateTime} (first : t.Printed print)
    (second : u.Printed print) : Clear ':' t.rfc3339.toList.reverse u.rfc3339.toList.reverse := by
  have three : ∀ {v : DateTime}, v.Printed print → v.rfc3339.toList.reverse.count ':' = 3 := by
    intro v printed
    rw [List.count_reverse, printed]
    exact clock.colons v.unixNanos
  exact clear_of_count_eq ((three first).trans (three second).symm)

theorem signableText_inj {first second : String} (firstHex : first.toList.all isAsciiHexDigit)
    (secondHex : second.toList.all isAsciiHexDigit) (clock : Rfc3339 print) (gBuilt : g.Built print)
    (hBuilt : h.Built print) (grantIds : Clear ':' g.grantId.toList h.grantId.toList)
    (bindings : Clear ':' g.senderBinding.toList.reverse h.senderBinding.toList.reverse)
    (same : g.signableText first = h.signableText second) :
    g.grantId = h.grantId ∧ g.subject = h.subject ∧ g.senderBinding = h.senderBinding ∧ first = second ∧
      g.issuedAt = h.issuedAt ∧ g.core.expiresAt = h.core.expiresAt := by
  have hashes : Clear ':' first.toList.reverse second.toList.reverse := by
    refine clear_of_notMem ?_ ?_
    · simpa using colon_notMem_of_hex firstHex
    · simpa using colon_notMem_of_hex secondHex
  unfold signableText at same
  simp only [List.append_assoc] at same
  obtain ⟨grantId, subject, binding, planHash, issued, expires⟩ := six_texts_inj grantIds bindings hashes
    (clear_reverse_dates clock gBuilt.issuedAt hBuilt.issuedAt)
    (clear_reverse_dates clock gBuilt.expiresAt hBuilt.expiresAt) (List.append_cancel_left same)
  have grantIdText := String.toList_injective grantId
  have subjectText := String.toList_injective subject
  have bindingText := String.toList_injective binding
  have planHashText := String.toList_injective planHash
  have issuedAt := gBuilt.issuedAt.eq clock hBuilt.issuedAt (String.toList_injective issued)
  have expiresAt := gBuilt.expiresAt.eq clock hBuilt.expiresAt (String.toList_injective expires)
  exact ⟨grantIdText, subjectText, bindingText, planHashText, issuedAt, expiresAt⟩

theorem planPreimage_inj (clock : Rfc3339 print) (apart : g.ReadApart print h)
    (same : g.planPreimage = h.planPreimage) :
    g.core = h.core ∧ g.approvedBy = h.approvedBy ∧ g.operatorBinding = h.operatorBinding := by
  unfold planPreimage at same
  simp only [List.append_assoc] at same
  obtain ⟨core, same⟩ := apart.core.append_inj clock (List.append_cancel_left same)
  obtain ⟨approver, same⟩ := hashOptionalTagged_append_inj rfl (by decide) apart.approvedBy same
  have ended : hashOptionalTagged "operator_binding:" g.operatorBinding ++ [] =
      hashOptionalTagged "operator_binding:" h.operatorBinding ++ [] := by
    simpa only [List.append_nil] using same
  obtain ⟨operator, -⟩ := hashOptionalTagged_append_inj rfl (by decide) apart.operatorBinding ended
  exact ⟨core, approver, operator⟩

theorem signableText_ends (planHash : String) (g : ExecutionGrant) :
    ∃ init, utf8 (g.signableText planHash) = utf8 init ++ [58] := by
  obtain ⟨init, text⟩ : ∃ init, g.signableText planHash = init ++ [':'] :=
    ⟨_, (List.append_assoc _ g.core.expiresAt.rfc3339.toList [':']).symm⟩
  have colon : utf8 [':'] = [58] := by decide
  exact ⟨init, by rw [text, utf8_append, colon]⟩

theorem signablePreimage_inj (digest : HexDigest sha256) (clock : Rfc3339 print) (gBuilt : g.Built print)
    (hBuilt : h.Built print) (apart : g.ReadApart print h)
    (collisionFree : sha256 g.planPreimage = sha256 h.planPreimage → g.planPreimage = h.planPreimage)
    (same : g.signablePreimage sha256 = h.signablePreimage sha256) : g.bound = h.bound := by
  have epoch : ∀ k : ExecutionGrant, k.revocationEpoch.toNat < 256 ^ 8 := fun k => k.revocationEpoch.toNat_lt
  obtain ⟨gInit, gText⟩ := signableText_ends (g.computePlanHash sha256) g
  obtain ⟨hInit, hText⟩ := signableText_ends (h.computePlanHash sha256) h
  have bytes := same
  unfold signablePreimage at bytes
  rw [gText, hText] at bytes
  obtain ⟨inits, epochs, approvals⟩ := suffix_inj (epoch g) (epoch h) gBuilt.approvalHash hBuilt.approvalHash bytes
  have texts : g.signableText (g.computePlanHash sha256) = h.signableText (h.computePlanHash sha256) := by
    refine utf8_injective ?_
    rw [gText, hText, inits]
  obtain ⟨grantId, subject, binding, planHash, issued, -⟩ := signableText_inj (digest g.planPreimage).2
    (digest h.planPreimage).2 clock gBuilt hBuilt apart.grantId apart.senderBinding texts
  obtain ⟨core, approver, operator⟩ := planPreimage_inj clock apart (collisionFree planHash)
  have epochsEqual : g.revocationEpoch = h.revocationEpoch := UInt64.toNat_inj.mp epochs
  cases g
  cases h
  simp_all [bound]

/-- Unless the digest collides, two grants of the builder that differ in what
the signature is meant to bind are signed under different hashes. -/
theorem grants_signed_apart (digest : HexDigest sha256) (clock : Rfc3339 print) (b c : ExecutionGrantBuilder)
    (bIssued : b.issuedAt.Printed print) (cIssued : c.issuedAt.Printed print)
    (apart : (b.build sha256).ReadApart print (c.build sha256))
    (planCollisionFree : sha256 (b.build sha256).planPreimage = sha256 (c.build sha256).planPreimage →
      (b.build sha256).planPreimage = (c.build sha256).planPreimage) :
    ((b.build sha256).signablePreimage sha256 = (c.build sha256).signablePreimage sha256 →
      (b.build sha256).bound = (c.build sha256).bound) ∧
    ((sha256 ((b.build sha256).signablePreimage sha256) = sha256 ((c.build sha256).signablePreimage sha256) →
        (b.build sha256).signablePreimage sha256 = (c.build sha256).signablePreimage sha256) →
      (b.build sha256).bound ≠ (c.build sha256).bound →
      (b.build sha256).computeSignableHash sha256 ≠ (c.build sha256).computeSignableHash sha256) := by
  have first := build_built digest b bIssued apart.core.expiresAt.1
  have second := build_built digest c cIssued apart.core.expiresAt.2
  have determined := signablePreimage_inj digest clock first second apart planCollisionFree
  refine ⟨determined, ?_⟩
  intro collisionFree differ hashes
  exact differ (determined (collisionFree hashes))

/-- A digest text that only tells the length of its input. -/
def lengthDigest (bytes : List UInt8) : String :=
  String.ofList (List.replicate 63 '0' ++ [Json.hexDigit (bytes.length % 16)])

theorem hexDigest_lengthDigest : HexDigest lengthDigest := by
  intro bytes
  have last : ∀ d < 16, isAsciiHexDigit (Json.hexDigit d) := by decide
  have zero : isAsciiHexDigit '0' := by decide
  have bound : bytes.length % 16 < 16 := Nat.mod_lt _ (by decide)
  simp [lengthDigest, last _ bound, zero]

def sampleBuilder (subject senderBinding : String) : ExecutionGrantBuilder :=
  .new "grant-1" ⟨subject, senderBinding⟩ ApprovedExecutionPlan.samplePlan.core ⟨5, 4⟩
    ApprovedExecutionPlan.samplePlan.core.expiresAt 1

theorem sample_readApart (subject other binding : String) :
    ((sampleBuilder subject binding).build lengthDigest).ReadApart sampleClock
      ((sampleBuilder other binding).build lengthDigest) where
  grantId := Clear.refl _ _
  senderBinding := Clear.refl _ _
  core := by
    have admitted := (ApprovedExecutionPlan.samplePlan_admitted).core
    refine admitted.readApart admitted ?_
    intro s first t second
    obtain rfl : s = t := Option.some.inj (first.symm.trans second)
    exact Clear.refl _ _
  approvedBy := by
    intro s first
    cases first
  operatorBinding := by
    intro s first
    cases first

theorem sample_subjects_signed_apart :
    ((sampleBuilder "agent:a" "key").build lengthDigest).signablePreimage lengthDigest ≠
      ((sampleBuilder "agent:b" "key").build lengthDigest).signablePreimage lengthDigest := by
  intro same
  have bound := (grants_signed_apart hexDigest_lengthDigest rfc3339_sampleClock (sampleBuilder "agent:a" "key")
    (sampleBuilder "agent:b" "key") rfl rfl (sample_readApart _ _ _) (fun _ => rfl)).1 same
  have subjects : "agent:a" = "agent:b" := congrArg ExecutionGrant.subject bound
  exact absurd subjects (by decide)

/-- A colon moves the end of a subject into the sender binding. -/
theorem terminated_shift (x y z : String) :
    terminated ':' (x ++ ":" ++ y).toList ++ terminated ':' z.toList =
      terminated ':' x.toList ++ terminated ':' (y ++ ":" ++ z).toList := by
  have colon : ":".toList = [':'] := rfl
  simp only [terminated, String.toList_append, colon, List.append_assoc]

theorem signablePreimage_shift (sha256 : List UInt8 → String) (g : ExecutionGrant) (x y z : String) :
    ({ g with subject := x ++ ":" ++ y, senderBinding := z } : ExecutionGrant).signablePreimage sha256 =
      ({ g with subject := x, senderBinding := y ++ ":" ++ z } : ExecutionGrant).signablePreimage sha256 := by
  have texts : ∀ planHash,
      signableText planHash { g with subject := x ++ ":" ++ y, senderBinding := z } =
        signableText planHash { g with subject := x, senderBinding := y ++ ":" ++ z } := by
    intro planHash
    have shifted := terminated_shift x y z
    unfold signableText
    rw [List.append_assoc (_ ++ terminated ':' g.grantId.toList), shifted, ← List.append_assoc]
  unfold signablePreimage computePlanHash planPreimage
  rw [texts]

theorem build_sampleBuilder (sha256 : List UInt8 → String) (subject senderBinding : String) :
    (sampleBuilder subject senderBinding).build sha256 =
      { (sampleBuilder "" "").build sha256 with subject, senderBinding } :=
  rfl

theorem subject_spills_into_binding :
    (sampleBuilder "agent:a" "key").subject ≠ (sampleBuilder "agent" "a:key").subject ∧
      ∀ sha256 : List UInt8 → String,
        ((sampleBuilder "agent:a" "key").build sha256).signablePreimage sha256 =
            ((sampleBuilder "agent" "a:key").build sha256).signablePreimage sha256 ∧
          ((sampleBuilder "agent:a" "key").build sha256).computeSignableHash sha256 =
            ((sampleBuilder "agent" "a:key").build sha256).computeSignableHash sha256 := by
  have left : "agent" ++ ":" ++ "a" = "agent:a" := by decide
  have right : "a" ++ ":" ++ "key" = "a:key" := by decide
  have differ : "agent:a" ≠ "agent" := by decide
  refine ⟨differ, ?_⟩
  intro sha256
  have same := signablePreimage_shift sha256 ((sampleBuilder "" "").build sha256) "agent" "a" "key"
  rw [left, right, ← build_sampleBuilder, ← build_sampleBuilder] at same
  exact ⟨same, congrArg sha256 same⟩

end ExecutionGrant
end Latchgate
