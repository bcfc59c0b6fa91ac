import Latchgate.Kernel.Receipts
import Latchgate.Machine.Run

namespace Latchgate
open Json (string array object)

/-- Signatures are accepted under the key they were made with. -/
def Ed25519.Correct (ed : Ed25519) : Prop :=
  ∀ seed message, ed.verifyStrict (ed.verifyingKey seed) message (ed.sign seed message) = true

/-! The JWKS file. -/

namespace VerifyingKeyEntry

def names : List String :=
  ["kid", "x_hex", "kty", "crv", "alg", "added_at"]

/-- An entry as a map. -/
def encode (entry : VerifyingKeyEntry) : Json :=
  object
    [("added_at", string entry.addedAt), ("alg", string entry.alg), ("crv", string entry.crv),
      ("kid", string entry.kid), ("kty", string entry.kty), ("x_hex", string entry.xHex)]

def decode (v : Json) : Option VerifyingKeyEntry := do
  let get ← v.record names
  let kid ← (get "kid").bind Json.asStr?
  let xHex ← (get "x_hex").bind Json.asStr?
  let kty ← (get "kty").bind Json.asStr?
  let crv ← (get "crv").bind Json.asStr?
  let alg ← (get "alg").bind Json.asStr?
  let addedAt ← (get "added_at").bind Json.asStr?
  some { kid, xHex, kty, crv, alg, addedAt }

theorem decode_encode (entry : VerifyingKeyEntry) : decode entry.encode = some entry := rfl

end VerifyingKeyEntry

/-- The text of a file, as far as the JSON parser gets with it. -/
inductive JwksText where
  | malformed
  | document (v : Json)

/-- How writing a file over a temporary one ends: well, with an error before
the rename, or in a crash before or after the rename. -/
inductive SaveOutcome where
  | done
  | failed
  | crashed (renamed : Bool)

/-- What a start of the gate meets: whether the files can be seen and read,
the seed it would draw, and how its writes end. -/
structure StartupIo where
  keyVisible : Bool := true
  keyReadable : Bool := true
  fresh : List UInt8
  keySave : SaveOutcome := .done
  crashBeforeStore : Bool := false
  jwksVisible : Bool := true
  jwksReadable : Bool := true
  jwksSave : SaveOutcome := .done
  now : String

/-- The two files, and what a running gate signs and verifies with. -/
structure KeyState where
  keyFile : Option (List UInt8)
  jwksFile : Option JwksText
  running : Option (ReceiptSigner × VerifyingKeyStore) := none

/-- A key file that is there must be private, readable and 32 bytes long. -/
def loadEd25519Seed (io : StartupIo) (bytes : List UInt8) : Option ReceiptSigner :=
  if io.keyReadable ∧ bytes.length = 32 then some ⟨bytes⟩ else none

/-- The key file afterwards, and the signer unless the start has failed. -/
def loadOrGenerate (io : StartupIo) (keyFile : Option (List UInt8)) : Option (List UInt8) × Option ReceiptSigner :=
  match keyFile, io.keyVisible with
  | some bytes, true => (keyFile, loadEd25519Seed io bytes)
  | _, _ => match io.keySave with
    | .done => (some io.fresh, some ⟨io.fresh⟩)
    | .failed => (keyFile, none)
    | .crashed renamed => (if renamed then some io.fresh else keyFile, none)

namespace VerifyingKeyStore
variable (ed : Ed25519)

def jwks (store : VerifyingKeyStore) : Json :=
  object [("keys", array (store.keys.map fun key => key.entry.encode))]

/-- One entry that cannot be read spoils them all. -/
def ofDocument (v : Json) : VerifyingKeyStore where
  keys := (((v.get? "keys").bind (Json.decodeList VerifyingKeyEntry.decode)).getD []).map (.fromEntry ed)

def loadOrEmpty (io : StartupIo) : Option JwksText → VerifyingKeyStore
  | some (.document v) => if io.jwksVisible ∧ io.jwksReadable then ofDocument ed v else {}
  | _ => {}

/-- The store, and the document to persist when the key was not in it. -/
def ensureContains (store : VerifyingKeyStore) (signer : ReceiptSigner) (now : String) :
    VerifyingKeyStore × Option Json :=
  if store.containsKid (signer.kid ed) then (store, none)
  else
    let grown : VerifyingKeyStore := ⟨store.keys ++ [.fromSigner ed signer now]⟩
    (grown, some grown.jwks)

end VerifyingKeyStore

namespace KeyState
variable (ed : Ed25519)

/-- The second half of a start, with the signer at hand. A store that could
not be persisted is used all the same. -/
def openStore (s : KeyState) (io : StartupIo) (signer : ReceiptSigner) : KeyState :=
  match (VerifyingKeyStore.loadOrEmpty ed io s.jwksFile).ensureContains ed signer io.now with
  | (store, none) => { s with running := some (signer, store) }
  | (store, some v) => match io.jwksSave with
    | .done => { s with jwksFile := some (.document v), running := some (signer, store) }
    | .failed => { s with running := some (signer, store) }
    | .crashed renamed => { s with jwksFile := if renamed then some (.document v) else s.jwksFile, running := none }

def startup (s : KeyState) (io : StartupIo) : KeyState :=
  match loadOrGenerate io s.keyFile with
  | (keyFile, none) => { s with keyFile, running := none }
  | (keyFile, some signer) =>
    if io.crashBeforeStore then { s with keyFile, running := none }
    else openStore ed { s with keyFile } io signer

inductive Input where
  | startup (io : StartupIo)
  | stop
  /-- A rotation deletes the key file, or puts another in its place. -/
  | rotate (keyFile : Option (List UInt8))

def machine : Machine KeyState Input Unit where
  step s
    | .startup io => (s.startup ed io, ())
    | .stop => ({ s with running := none }, ())
    | .rotate keyFile => ({ s with keyFile }, ())

/-- What stands under `keys`. -/
def items : Option JwksText → List Json
  | some (.document v) => ((v.get? "keys").bind Json.asArray?).getD []
  | _ => []

/-- The well-formed entries that a file holds, whatever stands beside them. -/
def entriesIn (file : Option JwksText) : List VerifyingKeyEntry :=
  (items file).filterMap VerifyingKeyEntry.decode

/-- Entries under one key id have one key. -/
def Agree (entries : List VerifyingKeyEntry) : Prop :=
  ∀ a ∈ entries, ∀ b ∈ entries, a.kid = b.kid → a.xHex = b.xHex

instance (entries : List VerifyingKeyEntry) : Decidable (Agree entries) :=
  inferInstanceAs (Decidable (∀ a ∈ entries, ∀ b ∈ entries, a.kid = b.kid → a.xHex = b.xHex))

/-- A start that gets as far as the JWKS file finds no well-formed entry in
it, or can read it and finds nothing else; and no two entries disagree. -/
def Guard (s : KeyState) : Input → Prop
  | .startup io => (loadOrGenerate io s.keyFile).2.isSome → io.crashBeforeStore = false →
    (entriesIn s.jwksFile = [] ∨ io.jwksVisible = true ∧ io.jwksReadable = true ∧
      ∀ item ∈ items s.jwksFile, (VerifyingKeyEntry.decode item).isSome) ∧ Agree (entriesIn s.jwksFile)
  | _ => True

variable {ed} {s : KeyState} {io : StartupIo} {signer : ReceiptSigner}

theorem mapM_decode {items : List Json} (all : ∀ item ∈ items, (VerifyingKeyEntry.decode item).isSome) :
    items.mapM VerifyingKeyEntry.decode = some (items.filterMap VerifyingKeyEntry.decode) := by
  induction items with
  | nil => rfl
  | cons item rest ih =>
    obtain ⟨entry, decoded⟩ := Option.isSome_iff_exists.mp (all item List.mem_cons_self)
    have later := ih fun item member => all item (List.mem_cons_of_mem _ member)
    simp [List.mapM_cons, decoded, later]

theorem eq_filterMap_of_mapM {items : List Json} {loaded : List VerifyingKeyEntry}
    (decoded : items.mapM VerifyingKeyEntry.decode = some loaded) :
    loaded = items.filterMap VerifyingKeyEntry.decode := by
  induction items generalizing loaded with
  | nil =>
    cases decoded
    rfl
  | cons item rest ih =>
    rw [List.mapM_cons] at decoded
    obtain ⟨entry, first, decoded⟩ := Option.bind_eq_some_iff.mp decoded
    obtain ⟨others, later, same⟩ := Option.bind_eq_some_iff.mp decoded
    cases same
    rw [List.filterMap_cons_some first, ih later]

theorem items_document (v : Json) :
    (items (some (.document v)) = [] ∧ (VerifyingKeyStore.ofDocument ed v).keys = []) ∨
      ∃ found, items (some (.document v)) = found ∧ (VerifyingKeyStore.ofDocument ed v).keys =
        ((found.mapM VerifyingKeyEntry.decode).getD []).map (CachedReceiptKey.fromEntry ed) := by
  dsimp only [items, VerifyingKeyStore.ofDocument]
  cases v.get? "keys" with
  | none => exact .inl ⟨rfl, rfl⟩
  | some keys =>
    cases keys with
    | array found => exact .inr ⟨found, rfl, rfl⟩
    | _ => exact .inl ⟨rfl, rfl⟩

/-- A file in which all entries are well formed is loaded as it is, and one
without any as an empty store. -/
theorem loadOrEmpty_eq {file : Option JwksText}
    (sound : entriesIn file = [] ∨ io.jwksVisible = true ∧ io.jwksReadable = true ∧
      ∀ item ∈ items file, (VerifyingKeyEntry.decode item).isSome) :
    (VerifyingKeyStore.loadOrEmpty ed io file).keys = (entriesIn file).map (CachedReceiptKey.fromEntry ed) := by
  match file with
  | none => rfl
  | some .malformed => rfl
  | some (.document v) =>
    dsimp only [VerifyingKeyStore.loadOrEmpty]
    rcases @items_document ed v with ⟨none, empty⟩ | ⟨found, known, loaded⟩
    · rw [entriesIn, none]
      split_ifs
      · rw [empty]
        rfl
      · rfl
    · rw [entriesIn, known] at sound ⊢
      rcases sound with void | ⟨visible, readable, all⟩
      · rw [void]
        split_ifs
        · rw [loaded]
          cases decoded : found.mapM VerifyingKeyEntry.decode with
          | none => rfl
          | some entries => rw [eq_filterMap_of_mapM decoded, void]; rfl
        · rfl
      · rw [if_pos ⟨visible, readable⟩, loaded, mapM_decode all]
        rfl

theorem entriesIn_jwks (store : VerifyingKeyStore) :
    entriesIn (some (.document store.jwks)) = store.keys.map CachedReceiptKey.entry := by
  have found : items (some (.document store.jwks)) = store.keys.map fun key => key.entry.encode := rfl
  rw [entriesIn, found, List.filterMap_map]
  simp [Function.comp_def, VerifyingKeyEntry.decode_encode]

/-- A signer's own entry is read as the signer's key. -/
theorem fromSigner_eq_fromEntry (formats : ed.Formats) (signer : ReceiptSigner) (now : String) :
    CachedReceiptKey.fromSigner ed signer now = .fromEntry ed (.fromSigner ed signer now) := by
  have length : (signer.verifyingKey ed).length = 32 := formats.keyLength signer.seed
  have isKey : ed.isKey (signer.verifyingKey ed) = true := formats.isKey signer.seed
  simp [CachedReceiptKey.fromSigner, CachedReceiptKey.fromEntry, VerifyingKeyEntry.fromSigner, decodeVerifyingKey,
    ReceiptSigner.verifyingKeyHex, length, isKey]

/-- The store of a running gate has all entries of the file, and they agree. -/
def Sound (ed : Ed25519) (s : KeyState) : Prop :=
  ∀ signer store, s.running = some (signer, store) → ∃ entries : List VerifyingKeyEntry,
    store.keys = entries.map (.fromEntry ed) ∧ (∀ e ∈ entriesIn s.jwksFile, e ∈ entries) ∧ Agree entries

/-- What a start does once it has its signer, on a file that can be read in
full: the new entry stands behind all others, in the store and, unless the
write fails, in the file. -/
theorem openStore_cases (formats : ed.Formats)
    (sound : entriesIn s.jwksFile = [] ∨ io.jwksVisible = true ∧ io.jwksReadable = true ∧
      ∀ item ∈ items s.jwksFile, (VerifyingKeyEntry.decode item).isSome) (agree : Agree (entriesIn s.jwksFile)) :
    ∃ entries, (∀ e ∈ entriesIn s.jwksFile, e ∈ entries) ∧ Agree entries ∧
      ((s.openStore ed io signer).jwksFile = s.jwksFile ∨ entriesIn (s.openStore ed io signer).jwksFile = entries) ∧
      ∀ current store, (s.openStore ed io signer).running = some (current, store) →
        store.keys = entries.map (CachedReceiptKey.fromEntry ed) := by
  have loaded := @loadOrEmpty_eq ed io s.jwksFile sound
  unfold openStore VerifyingKeyStore.ensureContains
  by_cases known : (VerifyingKeyStore.loadOrEmpty ed io s.jwksFile).containsKid (signer.kid ed) = true
  · rw [if_pos known]
    refine ⟨entriesIn s.jwksFile, fun e member => member, agree, .inl rfl, ?_⟩
    rintro current store ⟨⟩
    exact loaded
  · rw [if_neg known]
    have entry : ∀ e ∈ entriesIn s.jwksFile, e.kid ≠ signer.kid ed := by
      intro e member same
      refine known (List.any_eq_true.mpr ⟨.fromEntry ed e, ?_, decide_eq_true same⟩)
      rw [loaded]
      exact List.mem_map_of_mem member
    have grown : (VerifyingKeyStore.loadOrEmpty ed io s.jwksFile).keys ++ [CachedReceiptKey.fromSigner ed signer io.now] =
        (entriesIn s.jwksFile ++ [VerifyingKeyEntry.fromSigner ed signer io.now]).map (CachedReceiptKey.fromEntry ed) := by
      rw [loaded, fromSigner_eq_fromEntry formats, List.map_append]
      rfl
    have written : entriesIn (some (.document (VerifyingKeyStore.jwks
        ⟨(VerifyingKeyStore.loadOrEmpty ed io s.jwksFile).keys ++ [CachedReceiptKey.fromSigner ed signer io.now]⟩))) =
        entriesIn s.jwksFile ++ [VerifyingKeyEntry.fromSigner ed signer io.now] := by
      rw [entriesIn_jwks]
      dsimp only
      rw [grown, List.map_map]
      exact List.map_id' _
    refine ⟨entriesIn s.jwksFile ++ [VerifyingKeyEntry.fromSigner ed signer io.now], ?_, ?_, ?_, ?_⟩
    · intro e member
      exact List.mem_append_left _ member
    · intro a inA b inB same
      rcases List.mem_append.mp inA with old | new <;> rcases List.mem_append.mp inB with old' | new'
      · exact agree a old b old' same
      · rw [List.mem_singleton.mp new'] at same
        exact absurd same (entry a old)
      · rw [List.mem_singleton.mp new] at same
        exact absurd same.symm (entry b old')
      · rw [List.mem_singleton.mp new, List.mem_singleton.mp new']
    · dsimp only
      cases io.jwksSave with
      | done => exact .inr written
      | failed => exact .inl rfl
      | crashed renamed =>
        cases renamed with
        | true => exact .inr written
        | false => exact .inl rfl
    · dsimp only
      cases io.jwksSave with
      | done =>
        rintro current store ⟨⟩
        exact grown
      | failed =>
        rintro current store ⟨⟩
        exact grown
      | crashed renamed =>
        rintro current store ⟨⟩

/-- A start keeps what the file holds, and leaves a running gate sound. -/
theorem startup_sound (formats : ed.Formats) (guard : Guard s (.startup io)) :
    (∀ e ∈ entriesIn s.jwksFile, e ∈ entriesIn (s.startup ed io).jwksFile) ∧ Sound ed (s.startup ed io) := by
  unfold startup
  match loaded : loadOrGenerate io s.keyFile with
  | (keyFile, none) => exact ⟨fun e member => member, fun signer store up => nomatch up⟩
  | (keyFile, some signer) =>
    dsimp only
    split_ifs with crash
    · exact ⟨fun e member => member, fun signer store up => nomatch up⟩
    · obtain ⟨sound, agree⟩ := guard (by rw [loaded]; rfl) (by simpa using crash)
      obtain ⟨entries, extended, agreed, file, store⟩ :=
        @openStore_cases ed { s with keyFile } io signer formats sound agree
      have kept : ∀ e ∈ entriesIn (openStore ed { s with keyFile } io signer).jwksFile, e ∈ entries := by
        rcases file with same | written
        · rw [same]
          exact extended
        · rw [written]
          exact fun e member => member
      refine ⟨?_, fun current opened up => ⟨entries, store current opened up, kept, agreed⟩⟩
      rcases file with same | written
      · rw [same]
        exact fun e member => member
      · rw [written]
        exact extended

theorem step_sound (formats : ed.Formats) {input : Input} (guard : Guard s input) (sound : Sound ed s) :
    (∀ e ∈ entriesIn s.jwksFile, e ∈ entriesIn ((machine ed).step s input).1.jwksFile) ∧
      Sound ed ((machine ed).step s input).1 := by
  cases input with
  | startup io => exact startup_sound formats guard
  | stop => exact ⟨fun e member => member, fun signer store up => nomatch up⟩
  | rotate keyFile => exact ⟨fun e member => member, sound⟩

theorem run_extends (formats : ed.Formats) {inputs : List Input} (sound : Sound ed s)
    (meets : (machine ed).Meets Guard s inputs) :
    ∀ e ∈ entriesIn s.jwksFile, e ∈ entriesIn ((machine ed).run s inputs).jwksFile := by
  induction inputs generalizing s with
  | nil => exact fun e member => member
  | cons input rest ih =>
    obtain ⟨guard, later⟩ := meets
    obtain ⟨kept, next⟩ := step_sound formats guard sound
    exact fun e member => ih next later e (kept e member)

/-- The file has an entry for the key of the signer. -/
def Recorded (ed : Ed25519) (signer : ReceiptSigner) (s : KeyState) : Prop :=
  ∃ e ∈ entriesIn s.jwksFile, e.kid = signer.kid ed ∧ e.xHex = signer.verifyingKeyHex ed

/-- A sound gate resolves the key id of every recorded key to that key. -/
theorem Sound.keyOf (formats : ed.Formats) (sound : Sound ed s) {current : ReceiptSigner} {store : VerifyingKeyStore}
    (up : s.running = some (current, store)) (recorded : Recorded ed signer s) :
    store.keyOf (signer.kid ed) = some (signer.verifyingKey ed) := by
  obtain ⟨entries, keys, extended, agree⟩ := sound current store up
  obtain ⟨e, held, kid, xHex⟩ := recorded
  unfold VerifyingKeyStore.keyOf
  rw [keys, List.find?_map]
  cases found : entries.find? ((fun key : CachedReceiptKey => decide (key.entry.kid = signer.kid ed)) ∘ .fromEntry ed) with
  | none =>
    have absent := List.find?_eq_none.mp found e (extended e held)
    simp [CachedReceiptKey.fromEntry, kid] at absent
  | some first =>
    have accepted := List.find?_some found
    have named : first.kid = signer.kid ed := of_decide_eq_true accepted
    have same : first.xHex = signer.verifyingKeyHex ed := by
      rw [← xHex]
      exact agree first (List.mem_of_find?_eq_some found) e (extended e held) (named.trans kid.symm)
    have own : CachedReceiptKey.parsed (.fromEntry ed first) = some (signer.verifyingKey ed) := by
      have parsed := congrArg CachedReceiptKey.parsed (fromSigner_eq_fromEntry formats signer "")
      simp only [CachedReceiptKey.fromEntry, CachedReceiptKey.fromSigner, VerifyingKeyEntry.fromSigner] at parsed ⊢
      rw [same, ← parsed]
    simpa using own

/-- The receipt of a signer that the store does not know. -/
theorem verify_unknown (formats : ed.Formats) {store : VerifyingKeyStore}
    (unknown : store.keys.find? (fun key => key.entry.kid = signer.kid ed) = none) (receipt : ExecutionReceipt) :
    (receipt.sign ed signer).verifyWithKeyStore ed store = .unknownKeyId := by
  have signature := signer.sign_ne_empty formats receipt.resultHash
  have named := signer.kid_ne_empty formats
  simp [ExecutionReceipt.verifyWithKeyStore, ExecutionReceipt.sign, nonempty, signature, named,
    ExecutionReceipt.verifyKid, VerifyingKeyStore.verifyByKid, unknown]

theorem verify_recorded (formats : ed.Formats) (correct : ed.Correct) {store : VerifyingKeyStore}
    (resolved : store.keyOf (signer.kid ed) = some (signer.verifyingKey ed)) (receipt : ExecutionReceipt) :
    (receipt.sign ed signer).verifyWithKeyStore ed store = .valid := by
  refine Receipts.verifyWithKeyStore_eq_valid.2 ⟨_, _, ⟨rfl, signer.sign_ne_empty formats _⟩,
    ⟨rfl, signer.kid_ne_empty formats⟩, ?_⟩
  exact VerifyingKeyStore.verifyByKid_eq_ok_true.2
    ⟨_, _, resolved, hexDecode_hexEncode _, formats.signatureLength _ _, correct _ _⟩

/-- In a run in which the file can always be read in full, no entry is lost,
and a running gate verifies the receipts of every key that was ever recorded. -/
theorem jwks_keeps_history (formats : ed.Formats) (correct : ed.Correct) {past future : List Input}
    (fresh : s.running = none) (meets : (machine ed).Meets Guard s (past ++ future)) :
    (∀ e ∈ entriesIn ((machine ed).run s past).jwksFile,
      e ∈ entriesIn ((machine ed).run s (past ++ future)).jwksFile) ∧
    ∀ signer, Recorded ed signer ((machine ed).run s past) →
      ∀ current store, ((machine ed).run s (past ++ future)).running = some (current, store) →
        ∀ receipt : ExecutionReceipt, (receipt.sign ed signer).verifyWithKeyStore ed store = .valid := by
  have start : Sound ed s := by
    intro signer store up
    rw [fresh] at up
    cases up
  obtain ⟨before, after⟩ := Machine.meets_append.1 meets
  have preserved : ∀ t input, Guard t input → Sound ed t → Sound ed ((machine ed).step t input).1 :=
    fun _ _ guard sound => (step_sound formats guard sound).2
  have middle := before.run_invariant preserved start
  have finish := meets.run_invariant preserved start
  have kept : ∀ e ∈ entriesIn ((machine ed).run s past).jwksFile,
      e ∈ entriesIn ((machine ed).run s (past ++ future)).jwksFile := by
    rw [Machine.run_append]
    exact run_extends formats middle after
  refine ⟨kept, ?_⟩
  rintro signer ⟨e, held, kid, xHex⟩ current store up receipt
  exact verify_recorded formats correct (finish.keyOf formats up ⟨e, kept e held, kid, xHex⟩) receipt

section Sample

/-- A scheme in which the signature repeats the key. -/
def sampleEd : Ed25519 where
  verifyingKey seed := (seed ++ List.replicate 32 0).take 32
  sign seed _ := (seed ++ List.replicate 32 0).take 32 ++ (seed ++ List.replicate 32 0).take 32
  verifyStrict key _ signature := signature = key ++ key
  isKey _ := true

theorem formats_sampleEd : sampleEd.Formats :=
  ⟨by simp [sampleEd], by simp [sampleEd], fun _ => rfl⟩

theorem correct_sampleEd : sampleEd.Correct := by
  intro seed message
  simp [sampleEd]

def sampleStart (byte : UInt8) : StartupIo where
  fresh := List.replicate 32 byte
  now := "2026-02-26T12:34:56.789Z"

/-- A first start, a rotation, and a second start. -/
def sampleRotation : List Input :=
  [.rotate none, .startup (sampleStart 2)]

theorem jwks_keeps_history_rotation :
    ∃ current store, ((machine sampleEd).run ⟨none, none, none⟩ (.startup (sampleStart 1) :: sampleRotation)).running =
        some (current, store) ∧
      ∀ receipt : ExecutionReceipt,
        (receipt.sign sampleEd ⟨List.replicate 32 1⟩).verifyWithKeyStore sampleEd store = .valid := by
  have meets : (machine sampleEd).Meets Guard ⟨none, none, none⟩ ([Input.startup (sampleStart 1)] ++ sampleRotation) := by
    refine ⟨fun _ _ => ⟨.inl rfl, by decide⟩, trivial, fun _ _ => ⟨.inr ⟨rfl, rfl, by decide⟩, by decide⟩, trivial⟩
  have recorded : Recorded sampleEd ⟨List.replicate 32 1⟩
      ((machine sampleEd).run ⟨none, none, none⟩ [.startup (sampleStart 1)]) := by
    refine ⟨.fromSigner sampleEd ⟨List.replicate 32 1⟩ "2026-02-26T12:34:56.789Z", by decide, rfl, rfl⟩
  obtain ⟨-, verified⟩ := jwks_keeps_history formats_sampleEd correct_sampleEd rfl meets
  exact ⟨_, _, rfl, fun receipt => verified _ recorded _ _ rfl receipt⟩

/-- A file with one good entry and one without a key. -/
def damagedFile : JwksText :=
  .document (object [("keys", array [(VerifyingKeyEntry.fromSigner sampleEd ⟨List.replicate 32 1⟩
    "2026-02-26T12:34:56.789Z").encode, object [("kid", string "0303030303030303")]])])

/-- A start on the damaged file drops the good entry, and its receipts are no
longer verified. -/
theorem good_entry_dropped :
    Recorded sampleEd ⟨List.replicate 32 1⟩ ⟨none, some damagedFile, none⟩ ∧
      ¬Recorded sampleEd ⟨List.replicate 32 1⟩
        ((machine sampleEd).run ⟨none, some damagedFile, none⟩ [.startup (sampleStart 2)]) ∧
      ∃ current store, ((machine sampleEd).run ⟨none, some damagedFile, none⟩ [.startup (sampleStart 2)]).running =
          some (current, store) ∧
        ∀ receipt : ExecutionReceipt,
          (receipt.sign sampleEd ⟨List.replicate 32 1⟩).verifyWithKeyStore sampleEd store = .unknownKeyId := by
  refine ⟨⟨.fromSigner sampleEd ⟨List.replicate 32 1⟩ "2026-02-26T12:34:56.789Z", by decide, rfl, rfl⟩, ?_,
    _, _, rfl, fun receipt => ?_⟩
  · rintro ⟨e, held, kid, -⟩
    have only : entriesIn ((machine sampleEd).run ⟨none, some damagedFile, none⟩ [.startup (sampleStart 2)]).jwksFile =
        [.fromSigner sampleEd ⟨List.replicate 32 2⟩ "2026-02-26T12:34:56.789Z"] := by decide
    rw [only, List.mem_singleton] at held
    rw [held] at kid
    exact absurd kid (by decide)
  · exact verify_unknown formats_sampleEd (by decide) receipt

end Sample

end KeyState
end Latchgate
