import Latchgate.Json.Reparse
import Latchgate.Manifest.Types
import Mathlib.Data.List.Induction

namespace Latchgate.Secrets

inductive SecretsError where
  | sopsNotFound
  | decryptFailed (code detail : String)
  | parseError (message : String)
  | keyFileNotFound (path : String)
  | requiredSecretMissing (name : String)
  | requiredSecretsButNoSopsFile (names : List String)

/-- The top level of a decrypted file. -/
abbrev Plaintext := List (String × Json)

/-- What the manager is set up with. `decrypt` is what `sops -d` makes of a
file together with the parse of its output, `noFile` what it says where there
is none, `pathExists` is the file system, and `order` is the order in which a
hash map hands out what it holds. -/
structure SecretsManager (κ : Type*) where
  keyFile : Option String := none
  cacheTtl : Nat := 0
  decrypt : κ → Except SecretsError Plaintext
  noFile : SecretsError := .decryptFailed "sops_exit_2" ""
  pathExists : String → Bool := fun _ => true
  order : List (String × Bool) → List (String × Bool) := id
  order_perm : ∀ map, (order map).Perm map := by exact fun _ => .refl _

variable {κ : Type*}

/-- Insertion into a hash map: what was under the name goes. -/
def insertName (map : List (String × Bool)) (name : String) (required : Bool) : List (String × Bool) :=
  (name, required) :: map.filter fun entry => entry.1 ≠ name

/-- The declared names with whether they are required: the last declaration of
a name is the one that counts. -/
def neededNames (needed : List SecretDecl) : List (String × Bool) :=
  needed.foldl (fun map decl => insertName map decl.name decl.required) []

def stringValue : Json → String
  | .string s => s
  | other => other.toCompactString

/-- The names that were asked for with their values. -/
def pick (all : Plaintext) : List (String × Bool) → Except SecretsError (List (String × String))
  | [] => .ok []
  | (name, required) :: rest =>
    match all.lookup name with
    | some value => (pick all rest).map ((name, stringValue value) :: ·)
    | none => if required then .error (.requiredSecretMissing name) else pick all rest

namespace SecretsManager
variable (m : SecretsManager κ)

/-- `decrypted` is what the call of `decrypt_all` comes to. -/
def decryptSecrets (decrypted : String → Except SecretsError Plaintext) (sopsFile : String) (needed : List SecretDecl) :
    Except SecretsError (List (String × String)) :=
  if needed = [] then .ok []
  else match m.keyFile.filter fun file => !m.pathExists file with
    | some file => .error (.keyFileNotFound file)
    | none => do
      let all ← decrypted sopsFile
      pick all (m.order (neededNames needed))

def resolveApproved (decrypted : String → Except SecretsError Plaintext) (approvedNames : List String)
    (manifestSecrets : List SecretDecl) (sopsSecretsFile : Option String) :
    Except SecretsError (List (String × String)) :=
  if approvedNames = [] then .ok []
  else
    let allowed := manifestSecrets.filter (·.name ∈ approvedNames)
    if allowed = [] then .ok []
    else match sopsSecretsFile with
      | some path => m.decryptSecrets decrypted path allowed
      | none =>
        let required := (allowed.filter (·.required)).map (·.name)
        if required ≠ [] then .error (.requiredSecretsButNoSopsFile required) else .ok []

end SecretsManager

/-- The declaration of a name that counts. -/
def lastDeclared (decls : List SecretDecl) (name : String) : Option SecretDecl :=
  decls.reverse.find? fun decl => decl.name = name

theorem mem_neededNames {needed : List SecretDecl} {name : String} {required : Bool} :
    (name, required) ∈ neededNames needed ↔ (lastDeclared needed name).map (·.required) = some required := by
  induction needed using List.reverseRecOn with
  | nil => simp [neededNames, lastDeclared]
  | append_singleton earlier decl ih =>
    have inserted : neededNames (earlier ++ [decl]) = insertName (neededNames earlier) decl.name decl.required := by
      simp only [neededNames, List.foldl_append, List.foldl_cons, List.foldl_nil]
    have reversed : (earlier ++ [decl]).reverse = decl :: earlier.reverse := by simp
    rw [inserted, insertName, List.mem_cons, List.mem_filter, ih, lastDeclared, lastDeclared, reversed]
    by_cases same : decl.name = name
    · simp [same, eq_comm]
    · have other : name ≠ decl.name := fun h => same h.symm
      simp [same, other]

theorem lastDeclared_mem {decls : List SecretDecl} {name : String} {decl : SecretDecl}
    (last : lastDeclared decls name = some decl) : decl ∈ decls ∧ decl.name = name := by
  refine ⟨List.mem_reverse.mp (List.mem_of_find?_eq_some last), ?_⟩
  simpa using List.find?_some last

theorem lastDeclared_isSome {decls : List SecretDecl} {name : String} {decl : SecretDecl} (member : decl ∈ decls)
    (named : decl.name = name) : ∃ last, lastDeclared decls name = some last := by
  have found : (lastDeclared decls name).isSome = true := by
    rw [lastDeclared, List.find?_isSome]
    exact ⟨decl, List.mem_reverse.mpr member, by simpa using named⟩
  exact Option.isSome_iff_exists.mp found

theorem lastDeclared_filter {decls : List SecretDecl} {approvedNames : List String} {name : String}
    (approved : name ∈ approvedNames) :
    lastDeclared (decls.filter (·.name ∈ approvedNames)) name = lastDeclared decls name := by
  rw [lastDeclared, ← List.filter_reverse, List.find?_filter, lastDeclared]
  refine congrArg (fun p => decls.reverse.find? p) (funext fun decl => ?_)
  by_cases same : decl.name = name
  · simp [same, approved]
  · simp [same]

theorem mem_of_pick {all : Plaintext} {map : List (String × Bool)} {result : List (String × String)}
    (picked : pick all map = .ok result) (name value : String) :
    (name, value) ∈ result ↔
      ∃ required json, (name, required) ∈ map ∧ all.lookup name = some json ∧ stringValue json = value := by
  induction map generalizing result with
  | nil =>
    obtain rfl : [] = result := Except.ok.inj picked
    simp
  | cons entry rest ih =>
    obtain ⟨n, r⟩ := entry
    cases found : all.lookup n with
    | some json =>
      simp only [pick, found, Except.map_eq_ok] at picked
      obtain ⟨later, ok, rfl⟩ := picked
      rw [List.mem_cons, ih ok]
      constructor
      · rintro (same | ⟨required, json', member, at_, text⟩)
        · obtain ⟨rfl, rfl⟩ := Prod.mk.inj same
          exact ⟨r, json, List.mem_cons_self, found, rfl⟩
        · exact ⟨required, json', List.mem_cons_of_mem _ member, at_, text⟩
      · rintro ⟨required, json', member, at_, text⟩
        rcases List.mem_cons.mp member with same | old
        · obtain ⟨rfl, rfl⟩ := Prod.mk.inj same
          obtain rfl := Option.some.inj (found.symm.trans at_)
          exact .inl (congrArg (Prod.mk name) text.symm)
        · exact .inr ⟨required, json', old, at_, text⟩
    | none =>
      have skipped : pick all rest = .ok result := by
        cases r with
        | true => simp [pick, found] at picked
        | false => simpa [pick, found] using picked
      rw [ih skipped]
      constructor
      · rintro ⟨required, json, member, at_, text⟩
        exact ⟨required, json, List.mem_cons_of_mem _ member, at_, text⟩
      · rintro ⟨required, json, member, at_, text⟩
        rcases List.mem_cons.mp member with same | old
        · rw [(Prod.mk.inj same).1, found] at at_
          exact absurd at_ (by simp)
        · exact ⟨required, json, old, at_, text⟩

/-- A required name that the file does not have is the only reason to fail. -/
theorem exists_pick_iff {all : Plaintext} {map : List (String × Bool)} :
    (∃ result, pick all map = .ok result) ↔ ∀ name, (name, true) ∈ map → all.lookup name ≠ none := by
  induction map with
  | nil => simp [pick]
  | cons entry rest ih =>
    obtain ⟨n, r⟩ := entry
    have forced : (∀ name, (name, true) ∈ (n, r) :: rest → all.lookup name ≠ none) ↔
        (r = true → all.lookup n ≠ none) ∧ ∃ result, pick all rest = .ok result := by
      rw [ih]
      constructor
      · intro each
        refine ⟨fun required => each n (by simp [required]), fun name member => each name (List.mem_cons_of_mem _ member)⟩
      · rintro ⟨here, later⟩ name member
        rcases List.mem_cons.mp member with same | old
        · obtain ⟨rfl, rfl⟩ := Prod.mk.inj same
          exact here rfl
        · exact later name old
    rw [forced]
    cases found : all.lookup n with
    | some json => simp [pick, found, Except.map_eq_ok]
    | none => cases r <;> simp [pick, found]

variable {κ : Type*} {m : SecretsManager κ} {decrypted : String → Except SecretsError Plaintext}
  {approvedNames : List String} {manifestSecrets : List SecretDecl} {sopsSecretsFile : Option String}

/-- A key file that is configured is there. -/
def SecretsManager.Keyed (m : SecretsManager κ) : Prop :=
  m.keyFile.filter (fun file => !m.pathExists file) = none

theorem decryptSecrets_eq_ok {sopsFile : String} {needed : List SecretDecl} {result : List (String × String)}
    (some_ : needed ≠ []) :
    m.decryptSecrets decrypted sopsFile needed = .ok result ↔
      m.Keyed ∧ ∃ all, decrypted sopsFile = .ok all ∧ pick all (m.order (neededNames needed)) = .ok result := by
  rw [SecretsManager.decryptSecrets, if_neg some_, SecretsManager.Keyed]
  cases m.keyFile.filter fun file => !m.pathExists file with
  | some file => simp
  | none => simp [Except.bind_eq_ok]

/-- What `resolve_approved` does when something approved is declared. -/
theorem resolveApproved_declared (declared : manifestSecrets.filter (·.name ∈ approvedNames) ≠ []) :
    m.resolveApproved decrypted approvedNames manifestSecrets sopsSecretsFile =
      match sopsSecretsFile with
      | some path => m.decryptSecrets decrypted path (manifestSecrets.filter (·.name ∈ approvedNames))
      | none =>
        let required := ((manifestSecrets.filter (·.name ∈ approvedNames)).filter (·.required)).map (·.name)
        if required ≠ [] then .error (.requiredSecretsButNoSopsFile required) else .ok [] := by
  have approved : approvedNames ≠ [] := by
    rintro rfl
    simp at declared
  rw [SecretsManager.resolveApproved, if_neg approved]
  exact if_neg declared

theorem resolveApproved_undeclared (undeclared : manifestSecrets.filter (·.name ∈ approvedNames) = []) :
    m.resolveApproved decrypted approvedNames manifestSecrets sopsSecretsFile = .ok [] := by
  simp only [SecretsManager.resolveApproved, undeclared, if_true, ite_self]

/-- What is said of a result: every name in it is approved and declared, and
every approved name that some declaration requires is in it with what the file
has under the name. -/
structure Resolves (decrypted : String → Except SecretsError Plaintext) (approvedNames : List String)
    (manifestSecrets : List SecretDecl) (sopsSecretsFile : Option String) (result : List (String × String)) : Prop where
  approved : ∀ entry ∈ result, entry.1 ∈ approvedNames ∧ ∃ decl ∈ manifestSecrets, decl.name = entry.1
  required : ∀ decl ∈ manifestSecrets, decl.required = true → decl.name ∈ approvedNames →
    ∃ path all json, sopsSecretsFile = some path ∧ decrypted path = .ok all ∧ all.lookup decl.name = some json ∧
      (decl.name, stringValue json) ∈ result

/-- An approved secret that some declaration requires is in the file, unless
an approved secret is missing that its last declaration requires. -/
def Unmasked (all : Plaintext) (approvedNames : List String) (manifestSecrets : List SecretDecl) : Prop :=
  ∀ decl ∈ manifestSecrets, decl.required = true → decl.name ∈ approvedNames → all.lookup decl.name = none →
    ∃ name ∈ approvedNames, (lastDeclared manifestSecrets name).map (·.required) = some true ∧ all.lookup name = none

/-- The names that the decryption asks for. -/
theorem mem_order_allowed {name : String} {required : Bool} :
    (name, required) ∈ m.order (neededNames (manifestSecrets.filter (·.name ∈ approvedNames))) ↔
      name ∈ approvedNames ∧ (lastDeclared manifestSecrets name).map (·.required) = some required := by
  rw [(m.order_perm _).mem_iff, mem_neededNames]
  constructor
  · intro last
    obtain ⟨decl, found, _⟩ := Option.map_eq_some_iff.mp last
    obtain ⟨member, named⟩ := lastDeclared_mem found
    have approved : name ∈ approvedNames := by
      have kept := (List.mem_filter.mp member).2
      rw [named] at kept
      simpa using kept
    exact ⟨approved, lastDeclared_filter approved ▸ last⟩
  · rintro ⟨approved, last⟩
    rw [lastDeclared_filter approved]
    exact last

theorem mem_allowed {decl : SecretDecl} (member : decl ∈ manifestSecrets) (approved : decl.name ∈ approvedNames) :
    decl ∈ manifestSecrets.filter (·.name ∈ approvedNames) :=
  List.mem_filter.mpr ⟨member, by simpa using approved⟩

/-- With a file that hides no required secret, what the decryption hands out is
as it should be. -/
theorem resolves_of_pick {path : String} {all : Plaintext} {result : List (String × String)}
    (ok : decrypted path = .ok all) (unmasked : Unmasked all approvedNames manifestSecrets)
    (picked : pick all (m.order (neededNames (manifestSecrets.filter (·.name ∈ approvedNames)))) = .ok result) :
    Resolves decrypted approvedNames manifestSecrets (some path) result := by
  refine ⟨?_, ?_⟩
  · rintro ⟨name, value⟩ member
    obtain ⟨required, _, asked, _⟩ := (mem_of_pick picked name value).mp member
    obtain ⟨approved, last⟩ := mem_order_allowed.1 asked
    obtain ⟨decl, found, _⟩ := Option.map_eq_some_iff.mp last
    exact ⟨approved, decl, lastDeclared_mem found⟩
  · intro decl member required approved
    obtain ⟨last, found⟩ := lastDeclared_isSome member rfl
    have asked : (decl.name, last.required) ∈ m.order (neededNames (manifestSecrets.filter (·.name ∈ approvedNames))) :=
      mem_order_allowed.2 ⟨approved, by rw [found]; rfl⟩
    cases at_ : all.lookup decl.name with
    | some json => exact ⟨path, all, json, rfl, ok, at_, (mem_of_pick picked _ _).mpr ⟨_, json, asked, at_, rfl⟩⟩
    | none =>
      obtain ⟨name, named, requires, missing⟩ := unmasked decl member required approved at_
      exact absurd missing (exists_pick_iff.1 ⟨result, picked⟩ name (mem_order_allowed.2 ⟨named, requires⟩))

/-- The last declaration of a secret decides whether its absence is noticed. -/
theorem resolves_iff :
    (∀ result, m.resolveApproved decrypted approvedNames manifestSecrets sopsSecretsFile = .ok result →
      Resolves decrypted approvedNames manifestSecrets sopsSecretsFile result) ↔
    ∀ path all, sopsSecretsFile = some path → m.Keyed → decrypted path = .ok all →
      Unmasked all approvedNames manifestSecrets := by
  constructor
  · rintro resolves path all rfl keyed ok decl member required approved missing
    by_contra hidden
    have present : ∀ name, (name, true) ∈ m.order (neededNames (manifestSecrets.filter (·.name ∈ approvedNames))) →
        all.lookup name ≠ none := by
      intro name asked absent
      obtain ⟨named, last⟩ := mem_order_allowed.1 asked
      exact hidden ⟨name, named, last, absent⟩
    obtain ⟨result, picked⟩ := exists_pick_iff.2 present
    have declared := List.ne_nil_of_mem (mem_allowed member approved)
    have answered : m.resolveApproved decrypted approvedNames manifestSecrets (some path) = .ok result := by
      rw [resolveApproved_declared declared]
      exact (decryptSecrets_eq_ok declared).mpr ⟨keyed, all, ok, picked⟩
    obtain ⟨_, all', json, same, ok', found, _⟩ := (resolves result answered).required decl member required approved
    obtain rfl := Option.some.inj same
    obtain rfl := Except.ok.inj (ok.symm.trans ok')
    rw [missing] at found
    exact absurd found (by simp)
  · intro unmasked result answered
    by_cases declared : manifestSecrets.filter (·.name ∈ approvedNames) = []
    · rw [resolveApproved_undeclared declared] at answered
      obtain rfl := Except.ok.inj answered
      refine ⟨by simp, fun decl member _ approved => ?_⟩
      exact absurd declared (List.ne_nil_of_mem (mem_allowed member approved))
    rw [resolveApproved_declared declared] at answered
    cases sopsSecretsFile with
    | none =>
      dsimp only at answered
      split_ifs at answered with none_
      obtain rfl := Except.ok.inj answered
      refine ⟨by simp, fun decl member required approved => ?_⟩
      have listed : decl.name ∈ ((manifestSecrets.filter (·.name ∈ approvedNames)).filter (·.required)).map (·.name) :=
        List.mem_map.mpr ⟨decl, List.mem_filter.mpr ⟨mem_allowed member approved, required⟩, rfl⟩
      exact absurd listed (not_not.mp none_ ▸ List.not_mem_nil)
    | some path =>
      obtain ⟨keyed, all, ok, picked⟩ := (decryptSecrets_eq_ok declared).mp answered
      exact resolves_of_pick ok (unmasked path all rfl keyed ok) picked

end Latchgate.Secrets
