import Latchgate.Json.Reparse
import Latchgate.Webhooks.Outbox

namespace Latchgate

/-- The settings of an endpoint, with what is sent to it. -/
structure WebhookEndpoint extends WebhookEndpointConfig where
  url : String
  secret : String
  headers : List (String × String) := []
  deriving DecidableEq

inductive WebhookConfigError where
  | missingField (endpoint field : String)
  | duplicateName (name : String)
  | invalidUrl (endpoint reason : String)
  | envVarMissing (endpoint field var : String)
  deriving DecidableEq

/-- The parts of a parsed URL that are looked at. -/
structure WebhookUrl where
  scheme : String
  host : Option String

/-- The environment variables, and the URL parser with its reason against a text. -/
structure WebhookEnv where
  var : String → Option String
  parseUrl : String → Except String WebhookUrl

namespace WebhookEnv
variable (env : WebhookEnv)

/-- The rest of a text. `name` is what was read of the name of a variable, where
a `${` is open. -/
def expandFrom : Option (List Char) → List Char → Except String (List Char)
  | none, [] => .ok []
  | none, '$' :: '{' :: rest => expandFrom (some []) rest
  | none, c :: rest => (expandFrom none rest).map fun expanded => c :: expanded
  | some name, [] => .ok ('$' :: '{' :: name)
  | some name, '}' :: rest =>
    match env.var (String.ofList name) with
    | none => .error (String.ofList name)
    | some value => (expandFrom none rest).map fun expanded => value.toList ++ expanded
  | some name, c :: rest => expandFrom (some (name ++ [c])) rest

def expandEnvVars (input : String) : Except String String :=
  (env.expandFrom none input.toList).map String.ofList

def validateUrl (raw endpointName : String) (devMode : Bool) : Except WebhookConfigError Unit :=
  match env.parseUrl raw with
  | .error e => .error (.invalidUrl endpointName ("malformed URL: " ++ e))
  | .ok parsed =>
    if parsed.scheme = "https" then .ok ()
    else if parsed.scheme = "http" then
      if devMode then
        if parsed.host.getD "" ∈ ["localhost", "127.0.0.1", "[::1]"] then .ok ()
        else .error (.invalidUrl endpointName "HTTP is only allowed for localhost in dev mode")
      else .error (.invalidUrl endpointName "HTTPS required — HTTP endpoints leak secrets in transit")
    else .error (.invalidUrl endpointName ("unsupported scheme '" ++ parsed.scheme ++ "' — only HTTPS is allowed"))

/-- One value of a field, with its variables expanded. -/
def expandField (endpoint field value : String) : Except WebhookConfigError String :=
  (env.expandEnvVars value).mapError fun var => .envVarMissing endpoint field var

def expandHeaders (endpoint : String) : List (String × String) → Except WebhookConfigError (List (String × String))
  | [] => .ok []
  | (k, v) :: rest =>
    match env.expandField endpoint ("headers." ++ k) v with
    | .error e => .error e
    | .ok expanded => (expandHeaders endpoint rest).map fun more => (k, expanded) :: more

/-- As many delays as there are retries; the last one is repeated. -/
def resizeBackoff (maxRetries : Nat) (backoff : List Nat) : List Nat :=
  if maxRetries = 0 then backoff
  else backoff.take maxRetries ++ List.replicate (maxRetries - backoff.length) (backoff.getLast?.getD 30)

/-- The checks of one endpoint, after those of its name. -/
def validateEndpoint (cfg : WebhookEndpoint) (devMode : Bool) : Except WebhookConfigError WebhookEndpoint :=
  match env.expandField cfg.name "secret" cfg.secret with
  | .error e => .error e
  | .ok secret =>
    match env.expandField cfg.name "url" cfg.url with
    | .error e => .error e
    | .ok url =>
      match env.expandHeaders cfg.name cfg.headers with
      | .error e => .error e
      | .ok headers =>
        if secret = "" then .error (.missingField cfg.name "secret")
        else if cfg.events = [] then .error (.missingField cfg.name "events")
        else
          match env.validateUrl url cfg.name devMode with
          | .error e => .error e
          | .ok () =>
            .ok { cfg with
              secret, url, headers
              retryBackoffSeconds := resizeBackoff cfg.maxRetries cfg.retryBackoffSeconds }

/-- The rest of the list, with the names that were seen. -/
def validateFrom (devMode : Bool) (seen : List String) : List WebhookEndpoint → Except WebhookConfigError (List WebhookEndpoint)
  | [] => .ok []
  | cfg :: rest =>
    if cfg.name = "" then .error (.missingField "(unnamed)" "name")
    else if seen.contains cfg.name then .error (.duplicateName cfg.name)
    else
      match env.validateEndpoint cfg devMode with
      | .error e => .error e
      | .ok validated => (validateFrom devMode (cfg.name :: seen) rest).map fun more => validated :: more

def validateWebhookConfigs (configs : List WebhookEndpoint) (devMode : Bool) : Except WebhookConfigError (List WebhookEndpoint) :=
  env.validateFrom devMode [] configs

/-- What is sent for the endpoint has no variable to expand. -/
structure Unexpanded (e : WebhookEndpoint) : Prop where
  url : env.expandEnvVars e.url = .ok e.url
  secret : env.expandEnvVars e.secret = .ok e.secret
  headers : ∀ header ∈ e.headers, env.expandEnvVars header.2 = .ok header.2

/-- What the validation makes of an endpoint. -/
structure Validated (cfg v : WebhookEndpoint) : Prop where
  settings : v.toWebhookEndpointConfig =
    { cfg.toWebhookEndpointConfig with retryBackoffSeconds := resizeBackoff cfg.maxRetries cfg.retryBackoffSeconds }
  url : env.expandEnvVars cfg.url = .ok v.url
  secret : env.expandEnvVars cfg.secret = .ok v.secret
  headers : env.expandHeaders cfg.name cfg.headers = .ok v.headers

variable {env} {cfg v : WebhookEndpoint} {devMode : Bool}

theorem expandField_ok {endpoint field value expanded : String} :
    env.expandField endpoint field value = .ok expanded ↔ env.expandEnvVars value = .ok expanded := by
  unfold expandField
  cases env.expandEnvVars value with
  | error var => simp only [Except.mapError, reduceCtorEq]
  | ok text => simp only [Except.mapError, Except.ok.injEq]

theorem expandHeaders_self {endpoint : String} {headers expanded : List (String × String)}
    (expands : env.expandHeaders endpoint headers = .ok expanded) :
    expanded = headers ↔ ∀ header ∈ headers, env.expandEnvVars header.2 = .ok header.2 := by
  induction headers generalizing expanded with
  | nil =>
    injection expands with same
    simp only [← same, List.not_mem_nil, false_imp_iff, implies_true]
  | cons header rest ih =>
    obtain ⟨k, value⟩ := header
    rw [expandHeaders] at expands
    cases first : env.expandField endpoint ("headers." ++ k) value with
    | error e => simp only [first, reduceCtorEq] at expands
    | ok text =>
      simp only [first] at expands
      obtain ⟨more, later, rfl⟩ := Except.map_eq_ok.1 expands
      have here := expandField_ok.1 first
      rw [List.cons.injEq, Prod.mk.injEq, List.forall_mem_cons, ih later, here, Except.ok.injEq]
      simp only [true_and]

theorem validateEndpoint_ok (validates : env.validateEndpoint cfg devMode = .ok v) : env.Validated cfg v := by
  unfold validateEndpoint at validates
  cases secret : env.expandField cfg.name "secret" cfg.secret with
  | error e => simp only [secret, reduceCtorEq] at validates
  | ok secret' =>
    cases url : env.expandField cfg.name "url" cfg.url with
    | error e => simp only [secret, url, reduceCtorEq] at validates
    | ok url' =>
      cases headers : env.expandHeaders cfg.name cfg.headers with
      | error e => simp only [secret, url, headers, reduceCtorEq] at validates
      | ok headers' =>
        simp only [secret, url, headers] at validates
        by_cases unset : secret' = ""
        · simp only [unset, if_true, reduceCtorEq] at validates
        · by_cases silent : cfg.events = []
          · simp only [if_neg unset, silent, if_true, reduceCtorEq] at validates
          · cases valid : env.validateUrl url' cfg.name devMode with
            | error e => simp only [if_neg unset, if_neg silent, valid, reduceCtorEq] at validates
            | ok _ =>
              simp only [if_neg unset, if_neg silent, valid, Except.ok.injEq] at validates
              subst validates
              exact ⟨rfl, expandField_ok.1 url, expandField_ok.1 secret, headers⟩

/-- Every endpoint of an accepted list has its own name, and one that was
validated from it. -/
theorem validateFrom_ok {seen : List String} {configs validated : List WebhookEndpoint}
    (accepts : env.validateFrom devMode seen configs = .ok validated) :
    List.Forall₂ env.Validated configs validated ∧ (configs.map fun e => e.name).Nodup ∧ ∀ e ∈ configs, e.name ∉ seen := by
  induction configs generalizing seen validated with
  | nil =>
    injection accepts with same
    subst same
    exact ⟨.nil, List.nodup_nil, fun e member => absurd member List.not_mem_nil⟩
  | cons cfg rest ih =>
    rw [validateFrom] at accepts
    by_cases unnamed : cfg.name = ""
    · simp only [if_pos unnamed, reduceCtorEq] at accepts
    · by_cases known : seen.contains cfg.name = true
      · simp only [if_neg unnamed, if_pos known, reduceCtorEq] at accepts
      · simp only [if_neg unnamed, if_neg known] at accepts
        cases first : env.validateEndpoint cfg devMode with
        | error e => simp only [first, reduceCtorEq] at accepts
        | ok v =>
          simp only [first] at accepts
          obtain ⟨more, later, rfl⟩ := Except.map_eq_ok.1 accepts
          obtain ⟨all, distinct, fresh⟩ := ih later
          refine ⟨.cons (validateEndpoint_ok first) all, ?_, ?_⟩
          · rw [List.map_cons, List.nodup_cons]
            refine ⟨fun member => ?_, distinct⟩
            obtain ⟨e, listed, same⟩ := List.mem_map.mp member
            exact fresh e listed (same ▸ List.mem_cons_self)
          · intro e member
            rcases List.mem_cons.mp member with rfl | later
            · exact fun before => known (List.contains_iff_mem.mpr before)
            · exact fun before => fresh e later (List.mem_cons_of_mem _ before)

theorem Validated.name (valid : env.Validated cfg v) : v.name = cfg.name := by
  have same := congrArg WebhookEndpointConfig.name valid.settings
  exact same

theorem Validated.maxRetries (valid : env.Validated cfg v) : v.maxRetries = cfg.maxRetries := by
  have same := congrArg WebhookEndpointConfig.maxRetries valid.settings
  exact same

theorem Validated.backoff (valid : env.Validated cfg v) :
    v.retryBackoffSeconds = resizeBackoff cfg.maxRetries cfg.retryBackoffSeconds := by
  have same := congrArg WebhookEndpointConfig.retryBackoffSeconds valid.settings
  exact same

theorem Validated.unexpanded_iff (valid : env.Validated cfg v) :
    v.url = cfg.url ∧ v.secret = cfg.secret ∧ v.headers = cfg.headers ↔ env.Unexpanded cfg := by
  constructor
  · rintro ⟨url, secret, headers⟩
    exact ⟨url ▸ valid.url, secret ▸ valid.secret, (expandHeaders_self valid.headers).mp headers⟩
  · rintro ⟨url, secret, headers⟩
    refine ⟨?_, ?_, (expandHeaders_self valid.headers).mpr headers⟩
    · rw [valid.url, Except.ok.injEq] at url
      exact url
    · rw [valid.secret, Except.ok.injEq] at secret
      exact secret

end WebhookEnv

end Latchgate
