import Latchgate.Sandbox.BwrapCommand
import Mathlib.Data.List.Nodup

namespace Latchgate
namespace Sandbox
open Bwrap

/-- A host: a literal in brackets, or a text without a colon. -/
structure IsHost (host : List Char) : Prop where
  some_ : host ≠ []
  plain : ∀ c ∈ host, c ∉ ['/', '?', '#', '@']
  shape : ':' ∉ host ∨ ∃ literal, host = '[' :: literal ++ [']']

/-- What stands behind a host for a port. -/
inductive PortText : List Char → Nat → Prop where
  | default : PortText [] 443
  | digits (digits : List Char) (port : Nat) (plain : ∀ c ∈ digits, c.isDigit = true)
      (value : parseUnsigned 65536 digits = some port) : PortText (':' :: digits) port

structure IsBasePath (path : List Char) : Prop where
  starts : path = [] ∨ path.head? = some '/'
  ends : path.getLast? ≠ some '/'
  plain : '?' ∉ path ∧ '#' ∉ path

/-- The text is a URL of `https` with this host, port and path, without a user,
a query or a fragment. Slashes at its end do not count. -/
def Names (upstream : String) (host : List Char) (port : Nat) (path : List Char) : Prop :=
  ∃ portText slashes, upstream.toList = "https://".toList ++ (host ++ portText ++ path) ++ slashes ∧
    IsHost host ∧ PortText portText port ∧ IsBasePath path ∧ ∀ c ∈ slashes, c = '/'

/-! The upstream. -/

theorem rsplitOnce_eq_none {sep : Char} {text : List Char} (absent : sep ∉ text) : rsplitOnce sep text = none := by
  rw [rsplitOnce, splitOnce_eq_none fun member => absent (List.mem_reverse.mp member)]
  rfl

theorem rsplitOnce_append {sep : Char} {first rest : List Char} (absent : sep ∉ rest) :
    rsplitOnce sep (first ++ sep :: rest) = some (first, rest) := by
  have turned : (first ++ sep :: rest).reverse = rest.reverse ++ sep :: first.reverse := by
    rw [List.reverse_append, List.reverse_cons, List.append_assoc, List.singleton_append]
  rw [rsplitOnce, turned, splitOnce_append fun member => absent (List.mem_reverse.mp member)]
  simp only [Option.map_some, List.reverse_reverse]

theorem rsplitOnce_eq_some {sep : Char} {text first rest : List Char} (found : rsplitOnce sep text = some (first, rest)) :
    text = first ++ sep :: rest ∧ sep ∉ rest := by
  obtain ⟨⟨back, front⟩, split, same⟩ := Option.map_eq_some_iff.mp found
  obtain ⟨rfl, rfl⟩ := Prod.mk.inj same
  obtain ⟨whole, absent⟩ := splitOnce_eq_some split
  refine ⟨?_, fun member => absent (List.mem_reverse.mp member)⟩
  rw [← List.reverse_reverse text, whole, List.reverse_append, List.reverse_cons, List.append_assoc, List.singleton_append]

/-- What a port is read from ends in a digit. -/
theorem parseUnsigned_last {bound n : Nat} {text : List Char} (read : parseUnsigned bound text = some n) :
    ∃ c, text.getLast? = some c ∧ c.isDigit = true := by
  have last {digits : List Char} (known : digits ≠ [] ∧ digits.all Char.isDigit = true) :
      ∃ c, digits.getLast? = some c ∧ c.isDigit = true :=
    ⟨digits.getLast known.1, List.getLast?_eq_some_getLast known.1, List.all_eq_true.mp known.2 _ (List.getLast_mem known.1)⟩
  unfold parseUnsigned at read
  dsimp only at read
  split at read
  · rename_i rest
    by_cases known : rest ≠ [] ∧ rest.all Char.isDigit = true
    · obtain ⟨c, final, digit⟩ := last known
      refine ⟨c, ?_, digit⟩
      rw [List.getLast?_cons, final]
      rfl
    · rw [if_neg known] at read
      cases read
  · by_cases known : text ≠ [] ∧ text.all Char.isDigit = true
    · exact last known
    · rw [if_neg known] at read
      cases read

theorem rdropWhile_slashes {text slashes : List Char} (all : ∀ c ∈ slashes, c = '/') (ends : text.getLast? ≠ some '/') :
    (text ++ slashes).rdropWhile (· = '/') = text := by
  rw [List.rdropWhile, List.reverse_append, List.dropWhile_append_of_pos]
  · rw [List.getLast?_eq_head?_reverse] at ends
    generalize turned : text.reverse = back at ends
    have kept : back.dropWhile (· = '/') = back := by
      cases back with
      | nil => rfl
      | cons c back =>
        have other : c ≠ '/' := fun same => ends (by rw [same]; rfl)
        exact List.dropWhile_cons_of_neg (by simpa using other)
    rw [kept, ← turned, List.reverse_reverse]
  · intro c member
    exact decide_eq_true (all c (List.mem_reverse.mp member))

theorem stripText_ofList (pre : String) (rest : List Char) : stripText pre (String.ofList (pre.toList ++ rest)) = some (String.ofList rest) := by
  rw [stripText_eq_some_iff, String.ofList_append, String.ofList_toList]

theorem PortText.plain {portText : List Char} {port : Nat} (is : PortText portText port) : ∀ c ∈ portText, c ≠ '/' := by
  cases is with
  | default => exact fun c member => absurd member List.not_mem_nil
  | digits digits _ plain _ =>
    intro c member same
    rcases List.mem_cons.mp member with rfl | later
    · exact absurd same (by decide)
    · have digit := plain c later
      rw [same] at digit
      exact absurd digit (by decide)

/-- A host and a port end in no slash. -/
theorem authority_ends {host portText : List Char} {port : Nat} (isHost : IsHost host) (isPort : PortText portText port) :
    host ++ portText ≠ [] ∧ '/' ∉ host ++ portText := by
  refine ⟨fun empty => isHost.some_ (List.append_eq_nil_iff.mp empty).1, fun member => ?_⟩
  rcases List.mem_append.mp member with inHost | inPort
  · exact isHost.plain _ inHost (by decide)
  · exact isPort.plain _ inPort rfl

theorem getLast?_ne_slash {authority path : List Char} (plain : '/' ∉ authority) (ends : path.getLast? ≠ some '/') :
    (authority ++ path).getLast? ≠ some '/' := by
  rw [List.getLast?_append]
  cases final : path.getLast? with
  | some c =>
    rw [final] at ends
    exact ends
  | none =>
    intro slash
    exact plain (List.mem_of_getLast? slash)

/-- Up to the path there is no slash. -/
theorem split_authority {authority path : List Char} (plain : '/' ∉ authority) (starts : path = [] ∨ path.head? = some '/') :
    (authority ++ path).takeWhile (· ≠ '/') = authority ∧ (authority ++ path).dropWhile (· ≠ '/') = path := by
  have all : ∀ c ∈ authority, decide (c ≠ '/') = true := fun c member => decide_eq_true fun same => plain (same ▸ member)
  rw [List.takeWhile_append_of_pos all, List.dropWhile_append_of_pos all]
  rcases starts with rfl | slash
  · exact ⟨List.append_nil _, rfl⟩
  · obtain ⟨rest, rfl⟩ := List.head?_eq_some_iff.mp slash
    exact ⟨List.append_nil _, rfl⟩

/-- The parts that the source cuts out of a URL are its parts. -/
theorem resolve_names {config : CredentialRouteConfig} {name value : String} {route : ResolvedCredentialRoute} {host path : List Char}
    {port : Nat} (resolved : config.resolve name value = .ok route) (names : Names config.upstream host port path) :
    route.host = host ∧ route.port = port ∧ route.basePath = path := by
  obtain ⟨portText, slashes, text, isHost, isPort, isPath, all⟩ := names
  obtain ⟨-, plain⟩ := authority_ends isHost isPort
  have ends : ("https://".toList ++ (host ++ portText ++ path)).getLast? ≠ some '/' := by
    rw [List.getLast?_append_of_ne_nil]
    · exact getLast?_ne_slash plain isPath.ends
    · exact fun empty => isHost.some_ (List.append_eq_nil_iff.mp (List.append_eq_nil_iff.mp empty).1).1
  obtain ⟨taken, dropped⟩ := split_authority plain isPath.starts
  unfold CredentialRouteConfig.resolve at resolved
  rw [text, rdropWhile_slashes all ends] at resolved
  simp only [stripText_ofList] at resolved
  simp only [String.toList_ofList, taken, dropped] at resolved
  cases isPort with
  | default =>
    rw [List.append_nil] at resolved
    cases cut : rsplitOnce ':' host with
    | none =>
      simp only [cut] at resolved
      cases resolved
      exact ⟨rfl, rfl, rfl⟩
    | some parts_ =>
      -- a literal in brackets, whose last part is no port
      obtain ⟨whole, -⟩ := rsplitOnce_eq_some (show rsplitOnce ':' host = some (parts_.1, parts_.2) from cut)
      cases read : parseUnsigned 65536 parts_.2 with
      | none => simp only [cut, read, reduceCtorEq] at resolved
      | some n =>
        exfalso
        obtain ⟨c, final, digit⟩ := parseUnsigned_last read
        rcases isHost.shape with absent | ⟨literal, bracketed⟩
        · exact absent (whole ▸ List.mem_append_right _ List.mem_cons_self)
        · have last : host.getLast? = some c := by rw [whole, List.getLast?_append, List.getLast?_cons, final]; rfl
          rw [bracketed, List.getLast?_concat, Option.some.injEq] at last
          rw [← last] at digit
          exact absurd digit (by decide)
  | digits digits port number value =>
    have absent : ':' ∉ digits := fun member => absurd (number _ member) (by decide)
    simp only [rsplitOnce_append absent, value] at resolved
    cases resolved
    exact ⟨rfl, rfl, rfl⟩

/-! The request. -/

theorem splitOnP_plain {α : Type*} {p : α → Bool} (text : List α) : ∀ piece ∈ text.splitOnP p, ∀ c ∈ piece, p c = false := by
  induction text with
  | nil => simp only [List.splitOnP_nil, List.mem_singleton, forall_eq, List.not_mem_nil, false_imp_iff, implies_true]
  | cons c text ih =>
    intro piece member
    rw [List.splitOnP_cons_eq_if_modifyHead] at member
    by_cases cut : p c = true
    · rw [if_pos cut] at member
      rcases List.mem_cons.mp member with rfl | later
      · exact fun c member => absurd member List.not_mem_nil
      · exact ih piece later
    · rw [if_neg cut] at member
      rcases pieces : text.splitOnP p with _ | ⟨first, rest⟩
      · rw [pieces] at member
        cases member
      · rw [pieces] at member ih
        rcases List.mem_cons.mp member with rfl | later
        · rw [List.forall_mem_cons]
          exact ⟨Bool.eq_false_of_not_eq_true cut, ih first List.mem_cons_self⟩
        · exact ih piece (List.mem_cons_of_mem first later)

theorem parseRequestHeaders_target {raw : List Char} {request : ParsedRequest} (parsed : parseRequestHeaders raw = .ok request) :
    ∀ c ∈ request.target, isWhitespace c = false := by
  unfold parseRequestHeaders at parsed
  split at parsed
  · cases parsed
  · rename_i first rest split_
    split at parsed
    · rename_i method target more words
      have member : target ∈ splitWhitespace first := words ▸ List.mem_cons_of_mem _ List.mem_cons_self
      cases collected : collectHeaders [] rest with
      | error e =>
        rw [collected] at parsed
        cases parsed
      | ok headers =>
        rw [collected] at parsed
        cases parsed
        exact splitOnP_plain first target (List.mem_filter.mp member).1
    · cases parsed

theorem splitLines_plain {text : List Char} (some_ : text ≠ []) (plain : '\n' ∉ text) : splitLines text = [text] := by
  induction text with
  | nil => exact absurd rfl some_
  | cons c text ih =>
    rw [List.mem_cons, not_or] at plain
    rw [splitLines, if_neg fun same => plain.1 same.symm]
    cases text with
    | nil => rfl
    | cons d text => rw [ih (List.cons_ne_nil d text) plain.2]

theorem unblank {text : List Char} (all : text.all (fun c => !isWhitespace c) = true) : ∀ c ∈ text, isWhitespace c = false :=
  fun c member => (Bool.not_eq_true' _).mp (List.all_eq_true.mp all c member)

/-- The first line of a request for a target. -/
def requestLine (target : List Char) : List Char :=
  "GET".toList ++ ' ' :: (target ++ ' ' :: "HTTP/1.1".toList)

theorem parseRequestHeaders_requestLine {target : List Char} (some_ : target ≠ []) (plain : ∀ c ∈ target, isWhitespace c = false) :
    parseRequestHeaders (requestLine target) = .ok ⟨"GET".toList, target, []⟩ := by
  have feed : '\n' ∉ requestLine target := by
    intro member
    rcases List.mem_append.mp member with first | rest
    · exact absurd first (by decide)
    · rcases List.mem_cons.mp rest with space | rest
      · exact absurd space (by decide)
      · rcases List.mem_append.mp rest with inTarget | last
        · exact absurd (plain _ inTarget) (by decide)
        · exact absurd last (by decide)
  have last : (requestLine target).getLast? = some '1' := by
    rw [requestLine, List.getLast?_append, List.getLast?_cons, List.getLast?_append]
    rfl
  have oneLine : lines (requestLine target) = [requestLine target] := by
    rw [lines, splitLines_plain (by simp [requestLine]) feed, List.map_singleton, stripCr, last, if_neg (by decide)]
  have words : splitWhitespace (requestLine target) = ["GET".toList, target, "HTTP/1.1".toList] := by
    have method : ∀ c ∈ "GET".toList, isWhitespace c = false := unblank (by decide)
    have version : ∀ c ∈ "HTTP/1.1".toList, isWhitespace c = false := unblank (by decide)
    rw [splitWhitespace, requestLine, List.splitOnP_append_cons_of_forall_mem method ' ' (by decide),
      List.splitOnP_append_cons_of_forall_mem plain ' ' (by decide), List.splitOnP_eq_singleton version]
    refine List.filter_eq_self.mpr fun word member => decide_eq_true ?_
    simp only [List.mem_cons, List.not_mem_nil, or_false] at member
    rcases member with rfl | rfl | rfl
    · decide
    · exact some_
    · decide
  unfold parseRequestHeaders
  rw [oneLine]
  simp only [words]
  rfl

/-! The route. -/

/-- The route of a target, with the rest of its path. -/
def dispatch (routes : List ResolvedCredentialRoute) (target : List Char) : Option (ResolvedCredentialRoute × List Char) := do
  let (routeName, restPath) ← parseRoutePath target
  let route ← routes.find? fun route => route.name = routeName
  some (route, restPath)

theorem dispatch_of_forwarded {st : ProxyState} {env : ProxyEnv} {request : ParsedRequest} {rest : List UInt8} {f : Forwarded}
    (forwards : st.handleReverseProxy env request rest = some f) :
    dispatch st.credentialRoutes request.target = some (f.route, f.restPath) := by
  unfold ProxyState.handleReverseProxy at forwards
  split_ifs at forwards
  obtain ⟨parts_, parsed, forwards⟩ := Option.bind_eq_some_iff.mp forwards
  obtain ⟨route, found, forwards⟩ := Option.bind_eq_some_iff.mp forwards
  split_ifs at forwards
  obtain ⟨addrs, -, forwards⟩ := Option.bind_eq_some_iff.mp forwards
  obtain ⟨address, -, forwards⟩ := Option.bind_eq_some_iff.mp forwards
  split_ifs at forwards
  rw [← Option.some.inj forwards, dispatch, parsed]
  simp only [Option.bind_eq_bind, Option.bind_some, found]

theorem parseRoutePath_published {name sub : List Char} (named : name ≠ []) (plain : '/' ∉ name) (slash : sub.head? = some '/') :
    parseRoutePath ('/' :: name ++ sub) = some (name, sub) := by
  obtain ⟨taken, dropped⟩ := split_authority plain (.inr slash)
  obtain ⟨rest, rfl⟩ := List.head?_eq_some_iff.mp slash
  rw [List.cons_append, parseRoutePath, if_neg (by simp), dropped, if_neg (List.cons_ne_nil _ _), taken, if_neg named]

/-- A route is only found by its whole name. -/
theorem plain_of_parseRoutePath {name sub : List Char} (slash : sub.head? = some '/')
    (parsed : parseRoutePath ('/' :: name ++ sub) = some (name, sub)) : name ≠ [] ∧ '/' ∉ name := by
  obtain ⟨rest, rfl⟩ := List.head?_eq_some_iff.mp slash
  rw [List.cons_append, parseRoutePath, if_neg (by simp)] at parsed
  split_ifs at parsed with short none_
  · have shorter := congrArg List.length (Prod.mk.inj (Option.some.inj parsed)).1
    rw [List.length_append, List.length_cons] at shorter
    omega
  · obtain ⟨same, -⟩ := Prod.mk.inj (Option.some.inj parsed)
    refine ⟨fun empty => none_ (same.trans empty), fun member => ?_⟩
    rw [← same] at member
    exact absurd (List.mem_takeWhile_imp member) (by decide)

/-! What is resolved. -/

section Resolved
variable {configs : List (String × CredentialRouteConfig)} {var : String → Option String} {routes : List ResolvedCredentialRoute}
  {names : List String}

theorem resolve_name {config : CredentialRouteConfig} {name value : String} {route : ResolvedCredentialRoute}
    (resolved : config.resolve name value = .ok route) : route.name = name.toList := by
  unfold CredentialRouteConfig.resolve at resolved
  dsimp only at resolved
  split at resolved
  · cases resolved
  · split at resolved
    · cases resolved
      rfl
    · split at resolved
      · cases resolved
        rfl
      · cases resolved

/-- The routes that are left, in their order, each with the name of its
configuration. -/
theorem resolveCredentials_ok (resolved : resolveCredentials var configs = .ok (routes, names)) :
    (routes.map fun route => route.name) = names.map String.toList ∧ names.Sublist (configs.map fun entry => entry.1) ∧
      ∀ route ∈ routes, ∃ entry ∈ configs, route.name = entry.1.toList ∧ ∃ value, entry.2.resolve entry.1 value = .ok route := by
  induction configs generalizing routes names with
  | nil =>
    cases resolved
    exact ⟨rfl, .slnil, fun route member => absurd member List.not_mem_nil⟩
  | cons entry rest ih =>
    obtain ⟨name, config⟩ := entry
    have skip (resolved : resolveCredentials var rest = .ok (routes, names)) :
        (routes.map fun route => route.name) = names.map String.toList ∧
          names.Sublist (((name, config) :: rest).map fun entry => entry.1) ∧ ∀ route ∈ routes, ∃ entry ∈ (name, config) :: rest,
            route.name = entry.1.toList ∧ ∃ value, entry.2.resolve entry.1 value = .ok route := by
      obtain ⟨same, sub, own⟩ := ih resolved
      refine ⟨same, sub.cons name, fun route member => ?_⟩
      obtain ⟨entry, listed, made⟩ := own route member
      exact ⟨entry, List.mem_cons_of_mem _ listed, made⟩
    rw [resolveCredentials] at resolved
    split at resolved
    · cases resolved
    · split at resolved
      · exact skip resolved
      · split at resolved
        · cases resolved
        · rename_i value _ _ route made
          obtain ⟨⟨routes', names'⟩, later, both⟩ := Except.map_eq_ok.1 resolved
          obtain ⟨rfl, rfl⟩ := Prod.mk.inj both
          obtain ⟨same, sub, own⟩ := ih later
          refine ⟨?_, sub.cons_cons name, fun other member => ?_⟩
          · rw [List.map_cons, List.map_cons, resolve_name made, same]
          · rcases List.mem_cons.mp member with rfl | member
            · exact ⟨(name, config), List.mem_cons_self, resolve_name made, value, made⟩
            · obtain ⟨entry, listed, made⟩ := own other member
              exact ⟨entry, List.mem_cons_of_mem _ listed, made⟩

/-- An element is found by what only it has. -/
theorem find?_of_nodup {α β : Type*} [DecidableEq β] {l : List α} {f : α → β} {a : α} (distinct : (l.map f).Nodup) (member : a ∈ l) :
    (l.find? fun b => f b = f a) = some a := by
  induction l with
  | nil => cases member
  | cons b l ih =>
    rw [List.map_cons, List.nodup_cons] at distinct
    rcases List.mem_cons.mp member with rfl | later
    · exact List.find?_cons_of_pos (decide_eq_true rfl)
    · have other : f b ≠ f a := fun same => distinct.1 (same ▸ List.mem_map_of_mem later)
      simp only [List.find?_cons, decide_eq_false other]
      exact ih distinct.2 later

end Resolved

/-- The routes are reached at the addresses that are published for them, and
lead to their upstreams. -/
structure Addressed (toUppercase : String → String) (port : Nat) (token : Option (List UInt8)) (env : List (String × String))
    (configs : List (String × CredentialRouteConfig)) (routes : List ResolvedCredentialRoute) (names : List String) : Prop where
  published : ∃ vars, runSandboxInit toUppercase port (token.map hexEncode) names env = some vars ∧
    ∀ name ∈ names, valueOf (toUppercase name ++ "_BASE_URL") vars = some (proxyUrl port ++ "/" ++ name)
  distinct : (names.map fun name => toUppercase name ++ "_BASE_URL").Nodup
  dispatched : ∀ route ∈ routes, ∀ sub, sub.head? = some '/' → dispatch routes ('/' :: route.name ++ sub) = some (route, sub)
  carried : ∀ route ∈ routes, ∀ sub, sub.head? = some '/' → (∀ c ∈ sub, isWhitespace c = false) →
    ∃ request, parseRequestHeaders (requestLine ('/' :: route.name ++ sub)) = .ok request ∧ request.target = '/' :: route.name ++ sub
  delivered : ∀ (st : ProxyState) (penv : ProxyEnv) request rest f, st.credentialRoutes = routes →
    st.handleReverseProxy penv request rest = some f → ∀ route ∈ routes, ∀ sub, sub.head? = some '/' →
      request.target = '/' :: route.name ++ sub → f.route = route ∧ f.upstreamPath = route.basePath ++ sub
  upstreams : ∀ route ∈ routes, ∀ name config, (name, config) ∈ configs → route.name = name.toList →
    Names config.upstream route.host route.port route.basePath

/-- A name that stands as it is in a path, a request and a variable. -/
structure PlainName (toUppercase : String → String) (name : String) : Prop where
  named : name ≠ ""
  slash : '/' ∉ name.toList
  blank : ∀ c ∈ name.toList, isWhitespace c = false
  settable : '=' ∉ (toUppercase name).toList ∧ '\x00' ∉ (toUppercase name).toList ∧ '\x00' ∉ name.toList

/-! What is published. -/

/-- A variable that can be set. -/
def Settable (var : String × String) : Prop :=
  var.1 ≠ "" ∧ '=' ∉ var.1.toList ∧ '\x00' ∉ var.1.toList ∧ '\x00' ∉ var.2.toList

theorem setVars_settable {env more vars : List (String × String)} (sets : setVars env more = some vars) : ∀ var ∈ more, Settable var := by
  induction more generalizing env with
  | nil => exact fun var member => absurd member List.not_mem_nil
  | cons var rest ih =>
    obtain ⟨next, first, later⟩ := Option.bind_eq_some_iff.mp sets
    unfold setVar at first
    split_ifs at first with bad
    simp only [not_or] at bad
    exact List.forall_mem_cons.mpr ⟨bad, ih later⟩

theorem setVars_of_settable {env more : List (String × String)} (settable : ∀ var ∈ more, Settable var) :
    setVars env more = some (env ++ more) := by
  induction more generalizing env with
  | nil => rw [List.append_nil, setVars]
  | cons var rest ih =>
    obtain ⟨⟨named, equals, nul, value⟩, later⟩ := List.forall_mem_cons.mp settable
    have bad : ¬(var.1 = "" ∨ '=' ∈ var.1.toList ∨ '\x00' ∈ var.1.toList ∨ '\x00' ∈ var.2.toList) := by
      rintro (empty | inName | inName | inValue)
      · exact named empty
      · exact equals inName
      · exact nul inName
      · exact value inValue
    rw [setVars, setVar, if_neg bad, Option.bind_some, ih later, List.append_assoc, List.singleton_append]

theorem valueOf_of_nodup {vars : List (String × String)} {name value : String} (distinct : (vars.map Prod.fst).Nodup)
    (member : (name, value) ∈ vars) : valueOf name vars = some value := by
  induction vars with
  | nil => cases member
  | cons var rest ih =>
    rw [List.map_cons, List.nodup_cons] at distinct
    rcases List.mem_cons.mp member with rfl | later
    · have none_ : valueOf name rest = none :=
        valueOf_eq_none.2 fun var listed same => distinct.1 (List.mem_map.mpr ⟨var, listed, same⟩)
      rw [valueOf, none_, if_pos rfl]
      rfl
    · rw [valueOf, ih distinct.2 later, Option.some_or]

theorem nul_notMem_proxyUrl (port : Nat) : '\x00' ∉ (proxyUrl port).toList := by
  rw [proxyUrl, String.toList_append, List.mem_append, not_or]
  refine ⟨by decide, fun member => ?_⟩
  have digits : (toString port).toList = Nat.toDigits 10 port := Nat.toList_repr
  rw [digits] at member
  exact absurd (Nat.isDigit_of_mem_toDigits (by decide) (by decide) member) (by decide)

theorem nul_notMem_hexEncode (bytes : List UInt8) : '\x00' ∉ (hexEncode bytes).toList := by
  intro member
  rw [hexEncode, String.toList_ofList, List.mem_flatMap] at member
  obtain ⟨b, -, digit⟩ := member
  have plain : ∀ n < 16, Json.hexDigit n ≠ '\x00' := by decide
  simp only [List.mem_cons, List.not_mem_nil, or_false] at digit
  rcases digit with high | low
  · have bound := b.toNat_lt
    exact plain _ (by omega) high.symm
  · exact plain _ (Nat.mod_lt _ (by decide)) low.symm

section Addresses
variable {toUppercase : String → String} {port : Nat} {token : Option (List UInt8)} {env : List (String × String)}
  {configs : List (String × CredentialRouteConfig)} {var : String → Option String} {routes : List ResolvedCredentialRoute}
  {names : List String}

theorem shimVars_settable (plain : ∀ name ∈ names, PlainName toUppercase name) :
    ∀ var ∈ shimVars toUppercase port (token.map hexEncode) names, Settable var := by
  intro var member
  rw [shimVars, List.mem_append, List.mem_append] at member
  rcases member with (proxied | tokened) | routed
  · obtain ⟨name, listed, rfl⟩ := List.mem_map.mp proxied
    have fixed : ∀ name ∈ proxyVarNames, name ≠ "" ∧ '=' ∉ name.toList ∧ '\x00' ∉ name.toList := by decide
    obtain ⟨named, equals, nul⟩ := fixed name listed
    exact ⟨named, equals, nul, nul_notMem_proxyUrl port⟩
  · obtain ⟨text, listed, rfl⟩ := List.mem_map.mp tokened
    obtain ⟨bytes, -, rfl⟩ := Option.map_eq_some_iff.mp (Option.mem_toList.mp listed)
    have fixed : "LATCHGATE_PROXY_TOKEN" ≠ "" ∧ '=' ∉ "LATCHGATE_PROXY_TOKEN".toList ∧ '\x00' ∉ "LATCHGATE_PROXY_TOKEN".toList := by
      decide
    exact ⟨fixed.1, fixed.2.1, fixed.2.2, nul_notMem_hexEncode bytes⟩
  · obtain ⟨name, listed, rfl⟩ := List.mem_map.mp routed
    obtain ⟨equals, nul, inValue⟩ := (plain name listed).settable
    have suffix_ : '=' ∉ "_BASE_URL".toList ∧ '\x00' ∉ "_BASE_URL".toList := by decide
    refine ⟨fun empty => ?_, ?_, ?_, ?_⟩
    · have texts := congrArg String.toList empty
      rw [String.toList_append] at texts
      exact absurd (List.append_eq_nil_iff.mp texts).2 (by decide)
    · rw [String.toList_append, List.mem_append, not_or]
      exact ⟨equals, suffix_.1⟩
    · rw [String.toList_append, List.mem_append, not_or]
      exact ⟨nul, suffix_.2⟩
    · rw [String.toList_append, String.toList_append, List.mem_append, List.mem_append, not_or, not_or]
      exact ⟨⟨nul_notMem_proxyUrl port, by decide⟩, inValue⟩

theorem baseUrl_nodup : (names.map fun name => toUppercase name ++ "_BASE_URL").Nodup ↔ (names.map toUppercase).Nodup := by
  have both : (names.map fun name => toUppercase name ++ "_BASE_URL") = (names.map toUppercase).map fun stem => stem ++ "_BASE_URL" := by
    rw [List.map_map]
    rfl
  rw [both, List.nodup_map_iff]
  intro a b same
  have texts := congrArg String.toList same
  rw [String.toList_append, String.toList_append] at texts
  exact String.toList_injective (List.append_cancel_right texts)

end Addresses

def openaiConfig : CredentialRouteConfig where
  upstream := "https://api.openai.com/v1"
  header := "Authorization"
  format := "Bearer \x7b\x7d"
  keySource := "env:OPENAI_API_KEY"

def openaiRoute (name : String) : ResolvedCredentialRoute where
  name := name.toList
  host := "api.openai.com".toList
  port := 443
  basePath := "/v1".toList
  injectHeader := "Authorization".toList
  injectValue := "Bearer sk-1".toList

def keyVar (name : String) : Option String :=
  if name = "OPENAI_API_KEY" then some "sk-1" else none

end Sandbox
end Latchgate
