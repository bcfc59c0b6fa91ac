import Latchgate.Core.Egress
import Latchgate.Core.Ssrf
import Latchgate.Machine.Run

namespace Latchgate

structure Mailbox where
  localPart : String
  domain : String

/-- What the host has from other crates and from the network: the URL parser,
the parser for mail addresses, and the verdict on the addresses a host resolves
to. -/
structure HostEnv where
  parseUrl : String → Except String Url
  parseMailbox : String → Except String Mailbox
  checkAddresses : String → Nat → Except String Unit

/-- The clients that were set up at startup. The object store is scoped to one
bucket. -/
structure HostResources where
  httpProxyClient : Bool
  smtpTransport : Bool
  amqpPool : Bool
  objectStore : Option String

structure HostState where
  allowedSinks : List String
  approvedSecrets : List String
  decryptedSecrets : List (String × String)
  ioCallsMade : Nat := 0
  maxIoCalls : Nat
  allowedImports : List String
  egressProxyUrl : Option String
  resources : HostResources

inductive IoError where
  | budgetExhausted (max : Nat)
  | sinkNotAllowed (target safeTarget : String)
  | importNotAllowed (interface : String) (declared : List String)

def IoError.display : IoError → String
  | budgetExhausted max => "I/O budget exhausted (max " ++ toString max ++ " calls)"
  | sinkNotAllowed _ safeTarget => "sink not in allowed list: " ++ safeTarget
  | importNotAllowed interface declared =>
    "import not allowed: '" ++ interface ++ "' was not declared in required_imports (declared: " ++
      debugList declared ++ ")"

/-- What leaves the host: the interface it goes through and who receives it. -/
structure Delivery where
  interface : String
  destinations : List String
  deriving DecidableEq

/-- Some part of a text is the given one. -/
def occursIn (part : List Char) : List Char → Bool
  | [] => part.isEmpty
  | c :: rest => part.isPrefixOf (c :: rest) || occursIn part rest

namespace HostState
variable (env : HostEnv)

def allowedSinksLower (h : HostState) : List String :=
  Egress.lowercaseAllowlist h.allowedSinks

def getSecret (h : HostState) (name : String) : Option String :=
  if name ∈ h.approvedSecrets then h.decryptedSecrets.lookup name else none

def hasCredentialSecrets (h : HostState) : Bool :=
  ["AUTHORIZATION", "BEARER_TOKEN", "API_KEY"].any fun name => (h.getSecret name).isSome

def consumeIoCall (h : HostState) : Except IoError HostState :=
  if h.maxIoCalls ≤ h.ioCallsMade then .error (.budgetExhausted h.maxIoCalls)
  else .ok { h with ioCallsMade := h.ioCallsMade + 1 }

def checkImportAllowed (h : HostState) (interface : String) : Except IoError Unit :=
  if interface ∈ h.allowedImports then .ok () else .error (.importNotAllowed interface h.allowedImports)

def safeUrlForLog (target : String) : String :=
  match env.parseUrl target with
  | .ok parsed =>
    let portSuffix := match parsed.port with
      | some p => ":" ++ toString p
      | none => ""
    parsed.scheme ++ "://" ++ parsed.hostStr.getD "?" ++ portSuffix ++ "/…"
  | .error _ => target

/-- What stands behind the last `@`, or the whole text without one, up to the
first colon. -/
def extractPlainHost (target : String) : String :=
  let tail := (target.toList.reverse.takeWhile (· ≠ '@')).reverse
  String.ofList (tail.takeWhile (· ≠ ':'))

/-- The host that the parser finds, if it stands in the text as the parser
writes it. Else the text is taken for a mail address or a name. -/
def extractHost (target : String) : String :=
  match env.parseUrl target with
  | .ok { hostStr := some host, .. } => if occursIn host.toList target.toList then host else extractPlainHost target
  | _ => extractPlainHost target

def validateSink (h : HostState) (target : String) : Except IoError Unit :=
  if Egress.hostMatchesAllowlistLower (extractHost env target) h.allowedSinksLower then .ok ()
  else .error (.sinkNotAllowed target (safeUrlForLog env target))

/-- The first steps of every import: the declaration and the budget. A call
that is refused later has used up its share of the budget. -/
def admitCall (h : HostState) (interface : String) : Except IoError HostState := do
  h.checkImportAllowed interface
  h.consumeIoCall

end HostState

/-- The checks before a connection is made, with the options of the host. -/
def resolveAndCheckSsrf (env : HostEnv) (url : String) : Except String String :=
  match env.parseUrl url with
  | .error e => .error ("SSRF blocked: invalid URL: " ++ e)
  | .ok parsed =>
    if parsed.scheme ∉ ["https", "http"] then
      .error ("SSRF blocked: scheme '" ++ parsed.scheme ++ "' is not allowed (only http/https)")
    else match parsed.hostStr with
      | none => .error "SSRF blocked: URL has no host"
      | some host =>
        let port := parsed.portOrKnownDefault.getD 443
        if port ∉ allowedPorts then
          .error ("SSRF blocked: port " ++ toString port ++ " is not allowed (permitted: [443, 80])")
        else (env.checkAddresses host port).map fun _ => host

/-- What becomes of one send: a response, from the destination or from the
proxy, with or without `X-Squid-Error`; a connection that was not made; or
another failure, before or after the destination got the request. -/
inductive HttpAttempt where
  | response (reached squidError : Bool)
  | connectFailed
  | failed (reached : Bool)
  deriving DecidableEq

def HttpAttempt.reached : HttpAttempt → Bool
  | response reached _ => reached
  | connectFailed => false
  | failed reached => reached

def egressRetryMax : Nat := 3

/-- Only what looks like a denial by the proxy is sent again. -/
def HttpAttempt.retried (proxied : Bool) (retries : Nat) : HttpAttempt → Bool
  | response _ squidError => proxied && squidError && decide (0 < retries)
  | connectFailed => proxied && decide (0 < retries)
  | failed _ => false

def HttpAttempt.result : HttpAttempt → Except String Unit
  | response _ _ => .ok ()
  | connectFailed | failed _ => .error "HTTP request failed"

/-- The sends that are made, with so many retries left, and how they end. -/
def sendWithEgressRetry (proxied : Bool) : Nat → List HttpAttempt → List HttpAttempt × Except String Unit
  | _, [] => ([], .error "HTTP request failed: no outcome")
  | retries, attempt :: rest =>
    if attempt.retried proxied retries then
      let (made, result) := sendWithEgressRetry proxied (retries - 1) rest
      (attempt :: made, result)
    else ([attempt], attempt.result)

/-- A call of a provider. The outcomes of the network come with it. -/
inductive HostCall where
  | http (url : String) (attempts : List HttpAttempt)
  | smtp (main cc bcc : List String) (reached : Bool)
  | queue (queueName : String) (routingKey : Option String) (reached : Bool)
  | storage (bucket key : String) (reached : Bool)

namespace HostState
variable (env : HostEnv)

def validateHttpPreconditions (h : HostState) (url : String) : Except String Unit := do
  (h.validateSink env url).mapError IoError.display
  if h.hasCredentialSecrets then
    match env.parseUrl url with
    | .error e => .error ("invalid URL: " ++ e)
    | .ok parsed =>
      if parsed.scheme ≠ "https" then .error "secret-bearing outbound requests require https" else .ok ()
  else .ok ()

/-- What is sent, once for each send that gets through. -/
def request (h : HostState) (url : String) (attempts : List HttpAttempt) : Except String (List Delivery) := do
  h.validateHttpPreconditions env url
  let hostname ← resolveAndCheckSsrf env url
  if h.egressProxyUrl.isSome ∧ h.resources.httpProxyClient = false then
    .error ("egress proxy configured but proxy HTTP client not initialised " ++
      "(init_http_proxy not called at startup)")
  else
    let (made, _) := sendWithEgressRetry h.egressProxyUrl.isSome egressRetryMax attempts
    .ok ((made.filter (·.reached)).map fun _ => ⟨"latchgate:io/http", [hostname]⟩)

def parseRecipients (kind : String) (addresses : List String) : Except String (List String) :=
  addresses.mapM fun address =>
    match env.parseMailbox address with
    | .ok mailbox => .ok mailbox.domain
    | .error e => .error ("invalid " ++ kind ++ " '" ++ address ++ "': " ++ e)

def send (h : HostState) (main cc bcc : List String) (reached : Bool) : Except String (List Delivery) := do
  ((main ++ cc ++ bcc).forM fun address => h.validateSink env address).mapError IoError.display
  if h.resources.smtpTransport = false then
    .error "SMTP host import unavailable: smtp_url is not configured in latchgate.toml"
  else match h.getSecret "SMTP_FROM" with
    | none => .error "SMTP_FROM secret required (sender address for this action)"
    | some from_ =>
      match env.parseMailbox from_ with
      | .error e => .error ("SMTP_FROM is not a valid address '" ++ from_ ++ "': " ++ e)
      | .ok _ =>
        let toDomains ← parseRecipients env "To" main
        let ccDomains ← parseRecipients env "Cc" cc
        let bccDomains ← parseRecipients env "Bcc" bcc
        .ok (if reached then [⟨"latchgate:io/smtp", toDomains ++ ccDomains ++ bccDomains⟩] else [])

/-- The default exchange routes by the routing key. -/
def publish (h : HostState) (queueName : String) (routingKey : Option String) (reached : Bool) :
    Except String (List Delivery) := do
  (h.validateSink env queueName).mapError IoError.display
  if h.resources.amqpPool = false then
    .error "queue host import unavailable: amqp_url is not configured in latchgate.toml"
  else .ok (if reached then [⟨"latchgate:io/queue", [routingKey.getD queueName]⟩] else [])

/-- The object is put into the bucket of the store, whatever bucket the request
names. -/
def putObject (h : HostState) (bucket : String) (reached : Bool) : Except String (List Delivery) := do
  (h.validateSink env bucket).mapError IoError.display
  match h.resources.objectStore with
  | none => .error "storage host import unavailable: storage_url is not configured in latchgate.toml"
  | some store => .ok (if reached then [⟨"latchgate:io/storage", [store]⟩] else [])

end HostState

def HostCall.interface : HostCall → String
  | http _ _ => "latchgate:io/http"
  | smtp _ _ _ _ => "latchgate:io/smtp"
  | queue _ _ _ => "latchgate:io/queue"
  | storage _ _ _ => "latchgate:io/storage"

def HostState.perform (env : HostEnv) (h : HostState) : HostCall → Except String (List Delivery)
  | .http url attempts => h.request env url attempts
  | .smtp main cc bcc reached => h.send env main cc bcc reached
  | .queue queueName routingKey reached => h.publish env queueName routingKey reached
  | .storage bucket _ reached => h.putObject env bucket reached

/-- The host of one execution, with what it has sent. -/
structure HostRun where
  host : HostState
  sent : List Delivery := []

def hostMachine (env : HostEnv) : Machine HostRun HostCall (Except String Unit) where
  step s call :=
    match s.host.admitCall call.interface with
    | .error e => (s, .error e.display)
    | .ok host =>
      match host.perform env call with
      | .error e => ({ s with host }, .error e)
      | .ok deliveries => (⟨host, s.sent ++ deliveries⟩, .ok ())

/-- Through a declared interface, to destinations that match a sink. -/
def HostState.Permits (h : HostState) (d : Delivery) : Prop :=
  d.interface ∈ h.allowedImports ∧
    ∀ destination ∈ d.destinations, (Egress.findMatchingEntry destination h.allowedSinksLower).isSome = true

/-- A name in which the host finds nothing but the name. -/
def PlainName (env : HostEnv) (name : String) : Prop :=
  (∀ url host, env.parseUrl name = .ok url → url.hostStr ≠ some host) ∧ '@' ∉ name.toList ∧ ':' ∉ name.toList

/-- What has to hold of a call. The parsed host of a URL stands in its text,
and no destination answers in the name of the proxy. The domain of a mail
address is what stands behind its last `@`. A queue is published to under its
own name, and a bucket is the one of the store. -/
def Forthright (env : HostEnv) (s : HostRun) : HostCall → Prop
  | .http url attempts =>
    (∀ parsed host, env.parseUrl url = .ok parsed → parsed.hostStr = some host → occursIn host.toList url.toList = true) ∧
      (s.host.egressProxyUrl.isSome → .response true true ∉ attempts)
  | .smtp main cc bcc _ => ∀ address ∈ main ++ cc ++ bcc, ∀ mailbox, env.parseMailbox address = .ok mailbox →
      (∀ parsed host, env.parseUrl address = .ok parsed → parsed.hostStr ≠ some host) ∧
        HostState.extractPlainHost address = mailbox.domain
  | .queue queueName routingKey _ => PlainName env queueName ∧ routingKey.getD queueName = queueName
  | .storage bucket _ _ => PlainName env bucket ∧ ∀ store, s.host.resources.objectStore = some store → store = bucket

namespace HostState
variable {env : HostEnv} {h : HostState}

theorem validateSink_ok {target : String} :
    h.validateSink env target = .ok () ↔
      (Egress.findMatchingEntry (extractHost env target) h.allowedSinksLower).isSome = true := by
  unfold validateSink Egress.hostMatchesAllowlistLower
  split <;> simp [*]

theorem extractHost_url {target host : String} {parsed : Url} (read : env.parseUrl target = .ok parsed)
    (found : parsed.hostStr = some host) (stands : occursIn host.toList target.toList = true) : extractHost env target = host := by
  obtain ⟨scheme, hostStr, port, default⟩ := parsed
  obtain rfl : hostStr = some host := found
  simp [extractHost, read, stands]

theorem extractHost_plain {target : String}
    (hostless : ∀ parsed host, env.parseUrl target = .ok parsed → parsed.hostStr ≠ some host) :
    extractHost env target = extractPlainHost target := by
  unfold extractHost
  split
  · rename_i scheme host port default read
    exact absurd rfl (hostless _ host read)
  · rfl

theorem extractHost_name {name : String} (plain : PlainName env name) : extractHost env name = name := by
  obtain ⟨hostless, unaddressed, portless⟩ := plain
  rw [extractHost_plain hostless, extractPlainHost]
  have whole : name.toList.reverse.takeWhile (· ≠ '@') = name.toList.reverse := by
    refine List.takeWhile_eq_self_iff.mpr fun c member => ?_
    have inside : c ∈ name.toList := List.mem_reverse.mp member
    exact decide_eq_true fun same => unaddressed (same ▸ inside)
  have uncut : name.toList.takeWhile (· ≠ ':') = name.toList := by
    refine List.takeWhile_eq_self_iff.mpr fun c member => ?_
    exact decide_eq_true fun same => portless (same ▸ member)
  simp only [whole, List.reverse_reverse, uncut, String.ofList_toList]

/-- A URL that passes has a host that matches a sink, if that host stands in
its text. -/
theorem validateSink_host {url host : String} {parsed : Url} (read : env.parseUrl url = .ok parsed)
    (found : parsed.hostStr = some host) (stands : occursIn host.toList url.toList = true)
    (passed : h.validateSink env url = .ok ()) : (Egress.findMatchingEntry host h.allowedSinksLower).isSome = true := by
  have matched := validateSink_ok.1 passed
  rwa [extractHost_url read found stands] at matched

theorem admitCall_ok {host : HostState} {interface : String} (admitted : h.admitCall interface = .ok host) :
    interface ∈ h.allowedImports ∧ h.ioCallsMade < h.maxIoCalls ∧ host = { h with ioCallsMade := h.ioCallsMade + 1 } := by
  unfold admitCall checkImportAllowed consumeIoCall at admitted
  split at admitted
  · rename_i declared
    refine ⟨declared, ?_⟩
    change (if h.maxIoCalls ≤ h.ioCallsMade then _ else _) = _ at admitted
    split at admitted
    · cases admitted
    · rename_i left
      cases admitted
      exact ⟨not_le.mp left, rfl⟩
  · cases admitted

end HostState

/-- Unless a destination answers in the name of the proxy, at most one send
gets through. -/
theorem sendWithEgressRetry_reached {proxied : Bool} (retries : Nat) (attempts : List HttpAttempt)
    (honest : proxied = true → .response true true ∉ attempts) :
    ((sendWithEgressRetry proxied retries attempts).1.filter (·.reached)).length ≤ 1 := by
  induction attempts generalizing retries with
  | nil => simp [sendWithEgressRetry]
  | cons attempt rest ih =>
    have later : proxied = true → .response true true ∉ rest := fun on member => honest on (List.mem_cons_of_mem _ member)
    unfold sendWithEgressRetry
    split
    · rename_i again
      have lost : attempt.reached = false := by
        cases attempt with
        | response reached squidError =>
          simp only [HttpAttempt.retried, Bool.and_eq_true] at again
          obtain ⟨⟨on, denied⟩, -⟩ := again
          have first := honest on
          simp only [denied, List.mem_cons, not_or] at first
          cases reached with
          | false => rfl
          | true => exact absurd rfl first.1
        | connectFailed => rfl
        | failed reached => cases again
      simpa [lost] using ih (retries - 1) later
    · exact le_trans (List.length_filter_le _ _) (by simp)

namespace HostState
variable {env : HostEnv} {h : HostState}

theorem resolveAndCheckSsrf_ok {url hostname : String} (resolved : resolveAndCheckSsrf env url = .ok hostname) :
    ∃ parsed, env.parseUrl url = .ok parsed ∧ parsed.hostStr = some hostname := by
  unfold resolveAndCheckSsrf at resolved
  split at resolved
  · cases resolved
  · rename_i parsed read
    split at resolved
    · cases resolved
    · split at resolved
      · cases resolved
      · rename_i host found
        dsimp only at resolved
        split at resolved
        · cases resolved
        · obtain ⟨-, -, rfl⟩ := Except.map_eq_ok.1 resolved
          exact ⟨parsed, read, found⟩

/-- Where the addresses are judged as they are before a connection, so is the
URL. -/
theorem resolveAndCheckSsrf_strict {lookupHost : String → Except String (List SocketAddr)} (url : String)
    (judged : ∀ host port, env.checkAddresses host port =
      ((Ssrf.checkAddresses lookupHost .strict host port).mapError SsrfError.display).map fun _ => ()) :
    resolveAndCheckSsrf env url =
      ((Ssrf.resolveAndCheckSsrf env.parseUrl lookupHost url .strict).mapError SsrfError.display).map Prod.snd := by
  unfold resolveAndCheckSsrf Ssrf.resolveAndCheckSsrf
  cases env.parseUrl url with
  | error e => rfl
  | ok parsed =>
    have enforced : SsrfCheckOptions.strict.enforceScheme = true ∧ SsrfCheckOptions.strict.enforcePortAllowlist = true :=
      ⟨rfl, rfl⟩
    simp only [Except.mapError, bind, Except.bind, enforced, Bool.true_and, decide_eq_true_eq]
    by_cases scheme : parsed.scheme ∉ ["https", "http"]
    · rw [if_pos scheme, if_pos scheme]
      rfl
    rw [if_neg scheme, if_neg scheme]
    cases parsed.hostStr with
    | none => rfl
    | some host =>
      by_cases port : parsed.portOrKnownDefault.getD 443 ∉ allowedPorts
      · simp only [if_pos port]
        rfl
      · simp only [if_neg port, judged]
        cases Ssrf.checkAddresses lookupHost .strict host (parsed.portOrKnownDefault.getD 443) <;> rfl

theorem request_spec {url : String} {attempts : List HttpAttempt} {deliveries : List Delivery}
    (stands : ∀ parsed host, env.parseUrl url = .ok parsed → parsed.hostStr = some host →
      occursIn host.toList url.toList = true)
    (honest : h.egressProxyUrl.isSome → .response true true ∉ attempts)
    (sent : h.request env url attempts = .ok deliveries) :
    deliveries.length ≤ 1 ∧ ∀ d ∈ deliveries, d.interface = "latchgate:io/http" ∧
      ∀ destination ∈ d.destinations, (Egress.findMatchingEntry destination h.allowedSinksLower).isSome = true := by
  simp only [request, validateHttpPreconditions, Except.bind_eq_ok] at sent
  obtain ⟨_, ⟨_, checked, -⟩, hostname, resolved, made⟩ := sent
  have passed := Except.mapError_eq_ok.1 checked
  obtain ⟨parsed, read, found⟩ := resolveAndCheckSsrf_ok resolved
  split at made
  · cases made
  · cases made
    refine ⟨?_, ?_⟩
    · rw [List.length_map]
      exact sendWithEgressRetry_reached egressRetryMax attempts honest
    · intro d member
      obtain ⟨_, -, rfl⟩ := List.mem_map.mp member
      refine ⟨rfl, fun destination listed => ?_⟩
      rw [List.mem_singleton.mp listed]
      exact validateSink_host read found (stands parsed hostname read found) passed

/-- What a single call sends: at most one delivery, through its interface, to
destinations that match a sink. -/
def Sends (h : HostState) (interface : String) (deliveries : List Delivery) : Prop :=
  deliveries.length ≤ 1 ∧ ∀ d ∈ deliveries, d.interface = interface ∧
    ∀ destination ∈ d.destinations, (Egress.findMatchingEntry destination h.allowedSinksLower).isSome = true

theorem sends_ite {reached : Bool} {interface : String} {destinations : List String}
    (matched : ∀ destination ∈ destinations, (Egress.findMatchingEntry destination h.allowedSinksLower).isSome = true) :
    h.Sends interface (if reached then [⟨interface, destinations⟩] else []) := by
  cases reached with
  | false => exact ⟨by simp, by simp⟩
  | true =>
    refine ⟨by simp, fun d member => ?_⟩
    rw [List.mem_singleton.mp member]
    exact ⟨rfl, matched⟩

/-- Every recipient was checked. -/
theorem forM_validateSink {addresses : List String}
    (checked : (addresses.forM fun address => h.validateSink env address) = .ok ()) :
    ∀ address ∈ addresses, h.validateSink env address = .ok () := by
  induction addresses with
  | nil => simp
  | cons first rest ih =>
    rw [List.forM_eq_forM, List.forM_cons, Except.bind_eq_ok] at checked
    obtain ⟨_, here, later⟩ := checked
    intro address member
    rcases List.mem_cons.mp member with rfl | inside
    · exact here
    · exact ih later address inside

theorem parseRecipients_mem {kind : String} {addresses domains : List String}
    (parsed : parseRecipients env kind addresses = .ok domains) :
    ∀ domain ∈ domains, ∃ address ∈ addresses, ∃ mailbox, env.parseMailbox address = .ok mailbox ∧
      mailbox.domain = domain := by
  unfold parseRecipients at parsed
  induction addresses generalizing domains with
  | nil =>
    cases parsed
    simp
  | cons first rest ih =>
    simp only [List.mapM_cons, Except.bind_eq_ok] at parsed
    obtain ⟨domain, here, others, later, built⟩ := parsed
    cases built
    intro d member
    rcases List.mem_cons.mp member with rfl | inside
    · split at here
      · rename_i mailbox read
        cases here
        exact ⟨first, List.mem_cons_self, mailbox, read, rfl⟩
      · cases here
    · obtain ⟨address, listed, found⟩ := ih later d inside
      exact ⟨address, List.mem_cons_of_mem _ listed, found⟩

theorem send_spec {main cc bcc : List String} {reached : Bool} {deliveries : List Delivery}
    (addressed : ∀ address ∈ main ++ cc ++ bcc, ∀ mailbox, env.parseMailbox address = .ok mailbox →
      (∀ parsed host, env.parseUrl address = .ok parsed → parsed.hostStr ≠ some host) ∧
        extractPlainHost address = mailbox.domain)
    (sent : h.send env main cc bcc reached = .ok deliveries) : h.Sends "latchgate:io/smtp" deliveries := by
  simp only [send, Except.bind_eq_ok] at sent
  obtain ⟨_, checked, rest⟩ := sent
  have passed := forM_validateSink (Except.mapError_eq_ok.1 checked)
  split at rest
  · cases rest
  · split at rest
    · cases rest
    · split at rest
      · cases rest
      · simp only [Except.bind_eq_ok] at rest
        obtain ⟨toDomains, toRead, ccDomains, ccRead, bccDomains, bccRead, made⟩ := rest
        cases made
        refine sends_ite fun domain member => ?_
        have source : ∃ address ∈ main ++ cc ++ bcc, ∃ mailbox, env.parseMailbox address = .ok mailbox ∧
            mailbox.domain = domain := by
          rcases List.mem_append.mp member with first | third
          · rcases List.mem_append.mp first with first | second
            · obtain ⟨address, listed, found⟩ := parseRecipients_mem toRead domain first
              exact ⟨address, by simp [listed], found⟩
            · obtain ⟨address, listed, found⟩ := parseRecipients_mem ccRead domain second
              exact ⟨address, by simp [listed], found⟩
          · obtain ⟨address, listed, found⟩ := parseRecipients_mem bccRead domain third
            exact ⟨address, by simp [listed], found⟩
        obtain ⟨address, listed, mailbox, read, rfl⟩ := source
        obtain ⟨hostless, same⟩ := addressed address listed mailbox read
        have matched := validateSink_ok.1 (passed address listed)
        rwa [extractHost_plain hostless, same] at matched

theorem validateSink_name {name : String} (plain : PlainName env name)
    (checked : (h.validateSink env name).mapError IoError.display = .ok ()) :
    (Egress.findMatchingEntry name h.allowedSinksLower).isSome = true := by
  have matched := validateSink_ok.1 (Except.mapError_eq_ok.1 checked)
  rwa [extractHost_name plain] at matched

theorem publish_spec {queueName : String} {routingKey : Option String} {reached : Bool} {deliveries : List Delivery}
    (plain : PlainName env queueName) (same : routingKey.getD queueName = queueName)
    (sent : h.publish env queueName routingKey reached = .ok deliveries) : h.Sends "latchgate:io/queue" deliveries := by
  simp only [publish, Except.bind_eq_ok] at sent
  obtain ⟨_, checked, rest⟩ := sent
  split at rest
  · cases rest
  · cases rest
    refine sends_ite fun destination member => ?_
    rw [List.mem_singleton.mp member, same]
    exact validateSink_name plain checked

theorem putObject_spec {bucket : String} {reached : Bool} {deliveries : List Delivery} (plain : PlainName env bucket)
    (same : ∀ store, h.resources.objectStore = some store → store = bucket)
    (sent : h.putObject env bucket reached = .ok deliveries) : h.Sends "latchgate:io/storage" deliveries := by
  simp only [putObject, Except.bind_eq_ok] at sent
  obtain ⟨_, checked, rest⟩ := sent
  split at rest
  · cases rest
  · rename_i store named
    cases rest
    refine sends_ite fun destination member => ?_
    rw [List.mem_singleton.mp member, same store named]
    exact validateSink_name plain checked

end HostState

/-- The settings of the host do not change, and each delivery has used up a
call of the budget. -/
structure HostRun.Sound (start : HostState) (s : HostRun) : Prop where
  sinks : s.host.allowedSinks = start.allowedSinks
  imports : s.host.allowedImports = start.allowedImports
  limit : s.host.maxIoCalls = start.maxIoCalls
  budget : s.host.ioCallsMade ≤ start.maxIoCalls
  counted : s.sent.length ≤ s.host.ioCallsMade
  permitted : ∀ d ∈ s.sent, start.Permits d

theorem HostState.perform_spec {env : HostEnv} {h : HostState} {s : HostRun} {call : HostCall}
    {deliveries : List Delivery} (forthright : Forthright env s call) (proxy : h.egressProxyUrl = s.host.egressProxyUrl)
    (resources : h.resources = s.host.resources) (sent : h.perform env call = .ok deliveries) :
    h.Sends call.interface deliveries := by
  cases call with
  | http url attempts => exact request_spec forthright.1 (proxy ▸ forthright.2) sent
  | smtp main cc bcc reached => exact send_spec forthright sent
  | queue queueName routingKey reached => exact publish_spec forthright.1 forthright.2 sent
  | storage bucket key reached => exact putObject_spec forthright.1 (resources ▸ forthright.2) sent

theorem HostRun.Sound.step {env : HostEnv} {start : HostState} {s : HostRun} {call : HostCall} (sound : s.Sound start)
    (forthright : Forthright env s call) : (((hostMachine env).step s call).1).Sound start := by
  simp only [hostMachine]
  split
  · exact sound
  · rename_i host admitted
    obtain ⟨declared, left, rfl⟩ := HostState.admitCall_ok admitted
    have bound : s.host.ioCallsMade + 1 ≤ start.maxIoCalls := by
      rw [← sound.limit]
      exact left
    split
    · exact { sound with budget := bound, counted := Nat.le_succ_of_le sound.counted }
    · rename_i deliveries sent
      obtain ⟨single, each⟩ := HostState.perform_spec forthright rfl rfl sent
      refine { sound with budget := bound, counted := ?_, permitted := fun d member => ?_ }
      · have counted := sound.counted
        simp only [List.length_append]
        omega
      · rcases List.mem_append.mp member with old | new
        · exact sound.permitted d old
        · obtain ⟨named, matched⟩ := each d new
          refine ⟨?_, ?_⟩
          · rw [named, ← sound.imports]
            exact declared
          · have same : start.allowedSinksLower = s.host.allowedSinksLower := by
              simp only [HostState.allowedSinksLower, sound.sinks]
            rw [same]
            exact matched

/-- In every execution whose calls say where they go, whatever leaves the host
does so through a declared interface and to destinations that match a sink, and
at most so often as the budget allows. A URL that passes the check and has its
host in its text is one whose host matches a sink. -/
theorem host_io_confined {env : HostEnv} {start : HostState} (fresh : start.ioCallsMade = 0) {calls : List HostCall}
    (meets : (hostMachine env).Meets (Forthright env) ⟨start, []⟩ calls) :
    (∀ d ∈ ((hostMachine env).run ⟨start, []⟩ calls).sent, start.Permits d) ∧
      ((hostMachine env).run ⟨start, []⟩ calls).sent.length ≤ start.maxIoCalls ∧
      ∀ url parsed host, env.parseUrl url = .ok parsed → parsed.hostStr = some host →
        occursIn host.toList url.toList = true → start.validateSink env url = .ok () →
          (Egress.findMatchingEntry host start.allowedSinksLower).isSome = true := by
  have begin : HostRun.Sound start ⟨start, []⟩ := ⟨rfl, rfl, rfl, by simp [fresh], by simp, by simp⟩
  have sound := meets.run_invariant (fun _ _ forthright before => before.step forthright) begin
  refine ⟨sound.permitted, sound.counted.trans sound.budget, ?_⟩
  intro url parsed host read found stands passed
  exact HostState.validateSink_host read found stands passed

/-- The URLs of the samples below, as the parser reads them. -/
def sampleUrls : HostEnv where
  parseUrl text :=
    if text = "https://EVIL.example/@api.github.com" then .ok ⟨"https", some "evil.example", none, some 443⟩
    else if text = "https://api.github.com/repos" then .ok ⟨"https", some "api.github.com", none, some 443⟩
    else .error "relative URL without a base"
  parseMailbox _ := .error "Missing domain or user"
  checkAddresses _ _ := .ok ()

def githubOnly : HostState where
  allowedSinks := ["api.github.com"]
  approvedSecrets := []
  decryptedSecrets := []
  maxIoCalls := 5
  allowedImports := ["latchgate:io/http"]
  egressProxyUrl := none
  resources := ⟨false, false, false, none⟩

theorem host_io_confined_github :
    ((hostMachine sampleUrls).run ⟨githubOnly, []⟩
        [.http "https://api.github.com/repos" [.response true false]]).sent.length = 1 ∧
      ∀ d ∈ ((hostMachine sampleUrls).run ⟨githubOnly, []⟩
        [.http "https://api.github.com/repos" [.response true false]]).sent, githubOnly.Permits d := by
  have meets : (hostMachine sampleUrls).Meets (Forthright sampleUrls) ⟨githubOnly, []⟩
      [.http "https://api.github.com/repos" [.response true false]] := by
    refine ⟨⟨?_, by simp [githubOnly]⟩, trivial⟩
    intro parsed host read found
    have known : parsed = ⟨"https", some "api.github.com", none, some 443⟩ := (Except.ok.inj read).symm
    rw [known] at found
    rw [← Option.some.inj found]
    decide
  exact ⟨by decide, (host_io_confined rfl meets).1⟩

/-- The parser writes the host in small letters, the host does not find it in
the text, and takes the URL for a mail address. -/
theorem sink_check_misled :
    ¬∀ d ∈ ((hostMachine sampleUrls).run ⟨githubOnly, []⟩
      [.http "https://EVIL.example/@api.github.com" [.response true false]]).sent, githubOnly.Permits d := by
  intro all
  have sent : ((hostMachine sampleUrls).run ⟨githubOnly, []⟩
      [.http "https://EVIL.example/@api.github.com" [.response true false]]).sent =
        [⟨"latchgate:io/http", ["evil.example"]⟩] := by decide
  rw [sent] at all
  have matched := (all _ List.mem_cons_self).2 "evil.example" List.mem_cons_self
  exact absurd matched (by decide)

end Latchgate
