import Latchgate.Sandbox.Proxy
import Mathlib.Logic.Relation

namespace Latchgate
open Encoding (utf8)

namespace Sandbox

/-! Streams that arrive in pieces. -/

/-- What a peer sends, in the pieces in which it arrives. -/
structure Arrivals where
  chunks : List (List UInt8)
  nonempty : ∀ chunk ∈ chunks, chunk ≠ []

namespace Arrivals

def bytes (a : Arrivals) : List UInt8 :=
  a.chunks.flatten

/-- A read into so much room takes from one piece, and nothing at the end of
the stream. -/
def read (room : Nat) : Arrivals → List UInt8 × Arrivals
  | ⟨[], none_⟩ => ([], ⟨[], none_⟩)
  | ⟨chunk :: rest, nonempty⟩ =>
    if whole : chunk.length ≤ room then (chunk, ⟨rest, fun c member => nonempty c (List.mem_cons_of_mem _ member)⟩)
    else
      (chunk.take room,
        ⟨chunk.drop room :: rest, by
          refine List.forall_mem_cons.mpr ⟨?_, fun c member => nonempty c (List.mem_cons_of_mem _ member)⟩
          rw [ne_eq, List.drop_eq_nil_iff]
          exact whole⟩)

/-- The bytes that arrive in one piece with the byte before place `n`, after it. -/
def arrivingWith : Nat → List (List UInt8) → List UInt8
  | _, [] => []
  | n, chunk :: rest => if n ≤ chunk.length then chunk.drop n else arrivingWith (n - chunk.length) rest

end Arrivals

/-! The loops over the agent's stream. -/

def relayBufSize : Nat := 16 * 1024

/-- The loop of `read_http_request`: the head, and the bytes that have been read
with it. -/
def readHead (filled : List UInt8) (a : Arrivals) : Except String (List UInt8 × List UInt8 × Arrivals) :=
  if _full : maxHeaderSize ≤ filled.length then .error "headers exceed 8 KiB"
  else
    match a.read (maxHeaderSize - filled.length) with
    | ([], _) => .error "connection closed before headers complete"
    | (b :: more, left) =>
      match findHeaderEnd (filled ++ b :: more) with
      | some pos => .ok ((filled ++ b :: more).take (pos + 4), (filled ++ b :: more).drop (pos + 4), left)
      | none => readHead (filled ++ b :: more) left
termination_by maxHeaderSize - filled.length
decreasing_by
  rw [List.length_append, List.length_cons]
  omega

def receiveRequest (a : Arrivals) : Except String (ParsedRequest × List UInt8 × Arrivals) := do
  let (head, bodyStart, left) ← readHead [] a
  let request ← parseRequestHeaders (fromUtf8Lossy head)
  .ok (request, bodyStart, left)

/-- The loop of `relay_exact`: the bytes that it writes, and whether they are
all that it was to write. -/
def relayExact (buffer count : Nat) (a : Arrivals) : List UInt8 × Bool :=
  if count = 0 then ([], true)
  else
    match a.read (min buffer count) with
    | ([], _) => ([], false)
    | (b :: more, left) =>
      (b :: more ++ (relayExact buffer (count - (more.length + 1)) left).1,
        (relayExact buffer (count - (more.length + 1)) left).2)
termination_by count

/-- A tunnel: what either peer is still to send, what each was written, and
which directions have ended. -/
structure Tunnel where
  client : Arrivals
  remote : Arrivals
  toRemote : List UInt8 := []
  toClient : List UInt8 := []
  c2rDone : Bool := false
  r2cDone : Bool := false

/-- One turn of the loop of `relay_bidirectional`, with either of the reads. -/
inductive Tunnel.Step : Tunnel → Tunnel → Prop
  | clientRead (t : Tunnel) (bytes : List UInt8) (left : Arrivals) : t.c2rDone = false →
      t.client.read relayBufSize = (bytes, left) → bytes ≠ [] →
      Step t { t with client := left, toRemote := t.toRemote ++ bytes }
  | clientEnd (t : Tunnel) : t.c2rDone = false → t.client.read relayBufSize = ([], t.client) → Step t { t with c2rDone := true }
  | remoteRead (t : Tunnel) (bytes : List UInt8) (left : Arrivals) : t.r2cDone = false →
      t.remote.read relayBufSize = (bytes, left) → bytes ≠ [] →
      Step t { t with remote := left, toClient := t.toClient ++ bytes }
  | remoteEnd (t : Tunnel) : t.r2cDone = false → t.remote.read relayBufSize = ([], t.remote) → Step t { t with r2cDone := true }

/-! The decisions of the proxy. -/

/-- What else the proxy meets: whether it has room for the connection, whether
an address is connected and a handshake made in time, and whether TLS is set up. -/
structure ConnectionEnv extends ProxyEnv where
  permit : Bool
  connectInTime : List IpAddr → Bool
  handshakeInTime : IpAddr → Bool
  tlsConfigured : Bool

def errorResponse (status reason : String) : String :=
  "HTTP/1.1 " ++ status ++ " " ++ reason ++ "\r\nConnection: close\r\n\r\n"

def parseAuthority (toLowercase : List Char → List Char) (authority : List Char) : Option (List Char × Nat) := do
  let (host, digits) ← rsplitOnce ':' authority
  let port ← parseUnsigned 65536 digits
  if host = [] then none else some (toLowercase host, port)

namespace ProxyState
variable (st : ProxyState) (env : ConnectionEnv)

/-- The addresses, or the response that says why there are none. -/
def resolveOrRefuse (host : List Char) (port : Nat) : Except String (List IpAddr) :=
  match env.lookupHost host port with
  | none => .error "HTTP/1.1 502 Bad Gateway\r\n\r\n"
  | some [] => .error "HTTP/1.1 502 Bad Gateway\r\n\r\n"
  | some addrs =>
    if addrs.filter isGloballyRoutable = [] then .error "HTTP/1.1 403 Forbidden\r\n\r\n"
    else .ok (addrs.filter isGloballyRoutable)

/-- Where a `CONNECT` request is let through to. The target is lowered as it is
parsed. -/
def handleConnect (request : ParsedRequest) : Except String (List Char × IpAddr) :=
  match parseAuthority env.toLowercase (env.toLowercase request.target) with
  | none => .error "HTTP/1.1 400 Bad Request\r\n\r\n"
  | some (host, port) =>
    if port ≠ 443 then .error "HTTP/1.1 403 Forbidden\r\n\r\n"
    else if st.allowHosts.contains host = false then .error "HTTP/1.1 403 Forbidden\r\n\r\n"
    else do
      let safeAddrs ← resolveOrRefuse env host port
      if env.connectInTime safeAddrs = false then .error "HTTP/1.1 504 Gateway Timeout\r\n\r\n"
      else match safeAddrs.find? env.reachable with
        | none => .error "HTTP/1.1 502 Bad Gateway\r\n\r\n"
        | some address => .ok (host, address)

/-- The address of a route, connected and with its handshake made. -/
def openUpstream (route : ResolvedCredentialRoute) : Except String IpAddr := do
  let safeAddrs ← resolveOrRefuse env route.host route.port
  if env.connectInTime safeAddrs = false then .error (errorResponse "504" "upstream timeout")
  else match safeAddrs.find? env.reachable with
    | none => .error (errorResponse "502" "upstream unreachable")
    | some address =>
      if env.tlsConfigured = false then .error (errorResponse "500" "TLS not configured")
      else if env.serverName route.host = false then .error (errorResponse "502" "invalid upstream hostname")
      else if env.handshakeInTime address = false then .error (errorResponse "504" "TLS timeout")
      else if env.handshake address = false then .error (errorResponse "502" "TLS handshake failed")
      else .ok address

/-- The route that another request is let through to, with the response to each
that is not. -/
def chooseRoute (request : ParsedRequest) : Except String (ResolvedCredentialRoute × List Char × IpAddr) :=
  match st.sessionToken with
  | none => .error (errorResponse "404" "no credential routes configured")
  | some token => match request.findHeader sessionTokenHeader with
    | none => .error (errorResponse "401" "missing X-Gate-Token")
    | some text => match hexPairs text with
      | none => .error (errorResponse "401" "invalid token")
      | some received =>
        if received.length ≠ 32 ∨ received ≠ token then .error (errorResponse "401" "invalid token")
        else match parseRoutePath request.target with
          | none => .error (errorResponse "404" "invalid route path")
          | some (routeName, restPath) => match st.credentialRoutes.find? fun route => route.name = routeName with
            | none => .error (errorResponse "404" "unknown credential route")
            | some route =>
              if st.allowHosts.contains (env.toLowercase route.host) = false then
                .error (errorResponse "403" "upstream not in allowlist")
              else (openUpstream env route).map fun address => (route, restPath, address)

/-- What becomes of a connection. -/
inductive Outcome where
  | refused (response : String)
  | tunnelled (host : List Char) (address : IpAddr) (delivered : List UInt8)
  | forwarded (route : ResolvedCredentialRoute) (address : IpAddr) (delivered : List UInt8) (complete : Bool)

/-- The body: what was read with the head, then what the loop relays. -/
def relayBody (request : ParsedRequest) (bodyStart : List UInt8) (left : Arrivals) : List UInt8 × Bool :=
  match request.contentLength with
  | none => ([], true)
  | some length =>
    let already := min bodyStart.length length
    let relayed := relayExact (min relayBufSize (length - already)) (length - already) left
    (bodyStart.take already ++ relayed.1, relayed.2)

/-- `handle_connection`, to the end of the agent's stream. What was read with the
head of a `CONNECT` request is dropped. -/
inductive Ends (a : Arrivals) : Outcome → Prop
  | busy : env.permit = false → Ends a (.refused "HTTP/1.1 503 Too Many Connections\r\n\r\n")
  | badRequest (reason : String) : env.permit = true → receiveRequest a = .error reason →
      Ends a (.refused "HTTP/1.1 400 Bad Request\r\n\r\n")
  | connectRefused (request : ParsedRequest) (bodyStart : List UInt8) (left : Arrivals) (response : String) :
      env.permit = true → receiveRequest a = .ok (request, bodyStart, left) → request.method = "CONNECT".toList →
      st.handleConnect env request = .error response → Ends a (.refused response)
  | tunnel (request : ParsedRequest) (bodyStart : List UInt8) (left remote : Arrivals) (host : List Char)
      (address : IpAddr) (t : Tunnel) : env.permit = true → receiveRequest a = .ok (request, bodyStart, left) →
      request.method = "CONNECT".toList → st.handleConnect env request = .ok (host, address) →
      Relation.ReflTransGen Tunnel.Step { client := left, remote := remote } t → t.c2rDone = true →
      Ends a (.tunnelled host address t.toRemote)
  | routeRefused (request : ParsedRequest) (bodyStart : List UInt8) (left : Arrivals) (response : String) :
      env.permit = true → receiveRequest a = .ok (request, bodyStart, left) → request.method ≠ "CONNECT".toList →
      st.chooseRoute env request = .error response → Ends a (.refused response)
  | forward (request : ParsedRequest) (bodyStart : List UInt8) (left : Arrivals) (route : ResolvedCredentialRoute)
      (restPath : List Char) (address : IpAddr) : env.permit = true →
      receiveRequest a = .ok (request, bodyStart, left) → request.method ≠ "CONNECT".toList →
      st.chooseRoute env request = .ok (route, restPath, address) →
      Ends a (.forwarded route address
        (utf8 (Forwarded.head ⟨request, bodyStart, route, restPath, address⟩) ++ (relayBody request bodyStart left).1)
        (relayBody request bodyStart left).2)

/-- The outcome for the whole stream at once: everything after the head goes
through a tunnel, and everything up to the declared length to a route. -/
def handleWhole (stream : List UInt8) : Outcome :=
  if env.permit = false then .refused "HTTP/1.1 503 Too Many Connections\r\n\r\n"
  else match readHttpRequest stream with
    | .error _ => .refused "HTTP/1.1 400 Bad Request\r\n\r\n"
    | .ok (request, rest) =>
      if request.method = "CONNECT".toList then
        match st.handleConnect env request with
        | .error response => .refused response
        | .ok (host, address) => .tunnelled host address rest
      else match st.chooseRoute env request with
        | .error response => .refused response
        | .ok (route, restPath, address) =>
          .forwarded route address (Forwarded.bytes ⟨request, rest, route, restPath, address⟩)
            (decide ((request.contentLength.getD 0) ≤ rest.length))

/-- However the stream is cut into reads, its outcome is that of the whole, and
its head is too long exactly when it does not end inside the buffer. -/
structure CutsAlike (a : Arrivals) : Prop where
  outcome : ∀ outcome, st.Ends env a outcome ↔ outcome = st.handleWhole env a.bytes
  rejected : (∃ reason, readHead [] a = .error reason) ↔
    ¬∃ pos, findHeaderEnd a.bytes = some pos ∧ pos + 4 ≤ maxHeaderSize

/-- A `CONNECT` request that is let through, and the piece that ends its head
goes on, with room in the buffer. -/
def PayloadWithConnect (a : Arrivals) : Prop :=
  env.permit = true ∧ ∃ pos request target, findHeaderEnd a.bytes = some pos ∧ pos + 4 < maxHeaderSize ∧
    parseRequestHeaders (fromUtf8Lossy (a.bytes.take (pos + 4))) = .ok request ∧
    request.method = "CONNECT".toList ∧ st.handleConnect env request = .ok target ∧
    Arrivals.arrivingWith (pos + 4) a.chunks ≠ []

end ProxyState

/-! The end of the head, in a part of the stream and in the whole. -/

theorem findHeaderEnd_cons (b : UInt8) (rest : List UInt8) : findHeaderEnd (b :: rest) =
    if (b :: rest).take 4 = [13, 10, 13, 10] then some 0 else (findHeaderEnd rest).map (· + 1) := by
  by_cases starts : (b :: rest).take 4 = [13, 10, 13, 10]
  · rw [if_pos starts]
    match rest, starts with
    | [], starts => simp at starts
    | [_], starts => simp at starts
    | [_, _], starts => simp at starts
    | c :: d :: e :: rest, starts =>
      simp only [List.take_succ_cons, List.take_zero, List.cons.injEq, and_true] at starts
      obtain ⟨rfl, rfl, rfl, rfl⟩ := starts
      rfl
  · rw [if_neg starts, findHeaderEnd]
    rintro d rfl rfl
    exact starts rfl

theorem findHeaderEnd_le {stream : List UInt8} {pos : Nat} (found : findHeaderEnd stream = some pos) :
    pos + 4 ≤ stream.length := by
  induction stream generalizing pos with
  | nil => cases found
  | cons b rest ih =>
    rw [findHeaderEnd_cons] at found
    split_ifs at found with starts
    · have four : ((b :: rest).take 4).length = 4 := by rw [starts]; rfl
      rw [List.length_take] at four
      cases found
      omega
    · obtain ⟨before, later, rfl⟩ := Option.map_eq_some_iff.mp found
      have inside := ih later
      rw [List.length_cons]
      omega

theorem findHeaderEnd_append {front : List UInt8} {pos : Nat} (found : findHeaderEnd front = some pos) (rest : List UInt8) :
    findHeaderEnd (front ++ rest) = some pos := by
  induction front generalizing pos with
  | nil => cases found
  | cons b front ih =>
    have inside := findHeaderEnd_le found
    rw [findHeaderEnd_cons] at found
    rw [List.cons_append, findHeaderEnd_cons]
    split_ifs at found with starts
    · have four : 4 ≤ (b :: front).length := by cases found; omega
      rw [← List.cons_append, List.take_append_of_le_length four, if_pos starts]
      exact found
    · obtain ⟨before, later, rfl⟩ := Option.map_eq_some_iff.mp found
      have four : 4 ≤ (b :: front).length := by omega
      rw [← List.cons_append, List.take_append_of_le_length four, if_neg starts, ih later, Option.map_some]

theorem findHeaderEnd_front {front rest : List UInt8} {pos : Nat} (found : findHeaderEnd (front ++ rest) = some pos)
    (inside : pos + 4 ≤ front.length) : findHeaderEnd front = some pos := by
  induction front generalizing pos with
  | nil => exact absurd inside (by simp)
  | cons b front ih =>
    have four : 4 ≤ (b :: front).length := by omega
    rw [List.cons_append, findHeaderEnd_cons, ← List.cons_append, List.take_append_of_le_length four] at found
    rw [findHeaderEnd_cons]
    split_ifs at found ⊢ with starts
    · exact found
    · obtain ⟨before, later, rfl⟩ := Option.map_eq_some_iff.mp found
      rw [ih later (by rw [List.length_cons] at inside; omega), Option.map_some]

namespace Arrivals
variable (room : Nat) (a : Arrivals)

/-! One read. -/

theorem read_append : (a.read room).1 ++ (a.read room).2.bytes = a.bytes := by
  obtain ⟨chunks, nonempty⟩ := a
  cases chunks with
  | nil => rfl
  | cons chunk rest =>
    rw [read]
    split_ifs with whole
    · rfl
    · simp only [bytes, List.flatten_cons, ← List.append_assoc, List.take_append_drop]

theorem read_length : (a.read room).1.length ≤ room := by
  obtain ⟨chunks, nonempty⟩ := a
  cases chunks with
  | nil => exact Nat.zero_le room
  | cons chunk rest =>
    rw [read]
    split_ifs with whole
    · exact whole
    · exact List.length_take_le room chunk

variable {room a}

/-- Nothing is read at the end only. -/
theorem read_nil {left : Arrivals} (space : 0 < room) (ended : a.read room = ([], left)) : a.bytes = [] ∧ left = a := by
  obtain ⟨chunks, nonempty⟩ := a
  cases chunks with
  | nil =>
    cases ended
    exact ⟨rfl, rfl⟩
  | cons chunk rest =>
    have some_ := nonempty chunk List.mem_cons_self
    rw [read] at ended
    split_ifs at ended
    · exact absurd (Prod.mk.inj ended).1 some_
    · have taken := (Prod.mk.inj ended).1
      rw [List.take_eq_nil_iff] at taken
      rcases taken with none_ | empty
      · omega
      · exact absurd empty some_

theorem read_of_ended (ended : a.bytes = []) : a.read room = ([], a) := by
  obtain ⟨chunks, nonempty⟩ := a
  cases chunks with
  | nil => rfl
  | cons chunk rest =>
    have empty : chunk = [] := List.flatten_eq_nil_iff.mp ended chunk List.mem_cons_self
    exact absurd empty (nonempty chunk List.mem_cons_self)

/-- After place `n` a read has the rest of its piece, as far as there is room. -/
theorem read_drop {n : Nat} (here : 0 < n) (inside : n ≤ (a.read room).1.length) :
    (a.read room).1.drop n = (arrivingWith n a.chunks).take (room - n) := by
  obtain ⟨chunks, nonempty⟩ := a
  cases chunks with
  | nil => exact absurd inside (Nat.not_le.mpr here)
  | cons chunk rest =>
    rw [read] at inside ⊢
    split_ifs at inside ⊢ with whole
    · rw [arrivingWith, if_pos inside, List.take_of_length_le]
      rw [List.length_drop]
      exact Nat.sub_le_sub_right whole n
    · have reached : n ≤ chunk.length := le_trans inside (List.length_take_le' room chunk)
      rw [arrivingWith, if_pos reached, List.drop_take]

/-- A read that leaves room has taken the whole piece. -/
theorem arrivingWith_read {n : Nat} (past : (a.read room).1.length < n) (space : (a.read room).1.length < room) :
    arrivingWith n a.chunks = arrivingWith (n - (a.read room).1.length) (a.read room).2.chunks := by
  obtain ⟨chunks, nonempty⟩ := a
  cases chunks with
  | nil => rfl
  | cons chunk rest =>
    rw [read] at past space ⊢
    split_ifs at past space ⊢ with whole
    · rw [arrivingWith, if_neg (Nat.not_le.mpr past)]
    · rw [List.length_take] at space
      omega

end Arrivals

/-- What the loop makes of the head: it is found where it is in the whole
stream, with the rest of its last piece, or it is refused. -/
theorem readHead_spec {filled : List UInt8} {a : Arrivals} (clear : findHeaderEnd filled = none) :
    (∀ pos, findHeaderEnd (filled ++ a.bytes) = some pos → pos + 4 ≤ maxHeaderSize → ∃ bodyStart left,
      readHead filled a = .ok ((filled ++ a.bytes).take (pos + 4), bodyStart, left) ∧
      bodyStart ++ left.bytes = (filled ++ a.bytes).drop (pos + 4) ∧
      bodyStart = (Arrivals.arrivingWith (pos + 4 - filled.length) a.chunks).take (maxHeaderSize - (pos + 4))) ∧
    ((¬∃ pos, findHeaderEnd (filled ++ a.bytes) = some pos ∧ pos + 4 ≤ maxHeaderSize) →
      ∃ reason, readHead filled a = .error reason) := by
  have outside : ∀ pos, findHeaderEnd (filled ++ a.bytes) = some pos → filled.length < pos + 4 := by
    intro pos found
    by_contra inside
    rw [findHeaderEnd_front found (Nat.not_lt.mp inside)] at clear
    cases clear
  induction filled, a using readHead.induct with
  | case1 filled a full =>
    refine ⟨fun pos found fits => ?_, fun _ => ⟨_, by rw [readHead, dif_pos full]⟩⟩
    have beyond := outside pos found
    omega
  | case2 filled a space left ended =>
    have finished := (Arrivals.read_nil (by omega) ended).1
    refine ⟨fun pos found _ => ?_, fun _ => ⟨_, by rw [readHead, dif_neg space, ended]⟩⟩
    rw [finished, List.append_nil, clear] at found
    cases found
  | case3 filled a space b more left taken pos found =>
    -- The end is in what has been read: it is the same place in the whole.
    have split := Arrivals.read_append (maxHeaderSize - filled.length) a
    rw [taken] at split
    have whole : filled ++ a.bytes = (filled ++ b :: more) ++ left.bytes := by rw [← split, List.append_assoc]
    have place : findHeaderEnd (filled ++ a.bytes) = some pos := by rw [whole, findHeaderEnd_append found]
    have within := findHeaderEnd_le found
    have inside := within
    have fits := Arrivals.read_length (maxHeaderSize - filled.length) a
    rw [taken] at fits
    dsimp only at fits
    have returned : readHead filled a = .ok ((filled ++ b :: more).take (pos + 4), (filled ++ b :: more).drop (pos + 4), left) := by
      rw [readHead, dif_neg space, taken]
      simp only [found]
    rw [List.length_append] at inside
    refine ⟨fun other there _ => ?_, fun absent => absurd ⟨pos, place, by omega⟩ absent⟩
    obtain rfl := Option.some.inj (place.symm.trans there)
    have beyond := outside pos place
    refine ⟨(filled ++ b :: more).drop (pos + 4), left, ?_, ?_, ?_⟩
    · rw [returned, whole, List.take_append_of_le_length within]
    · rw [whole, List.drop_append_of_le_length within]
    · have piece := @Arrivals.read_drop (maxHeaderSize - filled.length) a (pos + 4 - filled.length) (by omega)
        (by rw [taken]; dsimp only; omega)
      rw [taken] at piece
      have front : filled.drop (pos + 4) = [] := List.drop_eq_nil_of_le (by omega)
      rw [List.drop_append, front, List.nil_append, piece]
      congr 1
      omega
  | case4 filled a space b more left taken notFound ih =>
    have split := Arrivals.read_append (maxHeaderSize - filled.length) a
    have fits := Arrivals.read_length (maxHeaderSize - filled.length) a
    have next := @Arrivals.arrivingWith_read (maxHeaderSize - filled.length) a
    rw [taken] at split fits next
    dsimp only at fits
    have whole : filled ++ a.bytes = (filled ++ b :: more) ++ left.bytes := by rw [← split, List.append_assoc]
    have later : ∀ pos, findHeaderEnd ((filled ++ b :: more) ++ left.bytes) = some pos →
        (filled ++ b :: more).length < pos + 4 := by
      intro pos found
      by_contra inside
      rw [findHeaderEnd_front found (Nat.not_lt.mp inside)] at notFound
      cases notFound
    have returned : readHead filled a = readHead (filled ++ b :: more) left := by
      rw [readHead, dif_neg space, taken]
      simp only [notFound]
    obtain ⟨accepted, refused⟩ := ih notFound later
    rw [whole, returned]
    refine ⟨fun pos found bounded => ?_, refused⟩
    obtain ⟨bodyStart, rest, read, kept, piece⟩ := accepted pos found bounded
    refine ⟨bodyStart, rest, read, kept, ?_⟩
    have beyond := later pos found
    rw [List.length_append] at beyond piece
    rw [piece, next (by dsimp only; omega) (by dsimp only; omega)]
    congr 2
    dsimp only
    omega

/-- The loop that relays a body writes as much as there is, up to the count. -/
theorem relayExact_spec (buffer count : Nat) (a : Arrivals) (space : 0 < buffer ∨ count = 0) :
    relayExact buffer count a = (a.bytes.take count, decide (count ≤ a.bytes.length)) := by
  induction count, a using relayExact.induct buffer with
  | case1 a => rw [relayExact, if_pos rfl, List.take_zero, decide_eq_true (Nat.zero_le _)]
  | case2 count a some_ left ended =>
    have finished := (Arrivals.read_nil (by omega) ended).1
    have short : ¬count ≤ ([] : List UInt8).length := by rw [List.length_nil]; omega
    rw [relayExact, if_neg some_, ended, finished, List.take_nil, decide_eq_false short]
  | case3 count a some_ b more left taken ih =>
    have split := Arrivals.read_append (min buffer count) a
    have fits := Arrivals.read_length (min buffer count) a
    rw [taken] at split fits
    dsimp only at split fits
    rw [List.length_cons] at fits
    have relayed := ih (by omega)
    have front : (b :: more).take count = b :: more := List.take_of_length_le (by rw [List.length_cons]; omega)
    have enough : decide (count - (more.length + 1) ≤ left.bytes.length) = decide (count ≤ more.length + 1 + left.bytes.length) :=
      decide_eq_decide.mpr (by omega)
    rw [relayExact, if_neg some_, taken]
    simp only [relayed, ← split]
    rw [List.take_append, front, List.length_append, List.length_cons, enough]

/-! The tunnel. -/

namespace Tunnel

/-- What the remote was written, and what the client is still to send. -/
theorem Step.conserves {t t' : Tunnel} (step : Step t t') :
    t'.toRemote ++ t'.client.bytes = t.toRemote ++ t.client.bytes := by
  cases step with
  | clientRead bytes left _ taken _ =>
    have split := Arrivals.read_append relayBufSize t.client
    rw [taken] at split
    rw [← split, List.append_assoc]
  | clientEnd _ _ => rfl
  | remoteRead _ _ _ _ _ => rfl
  | remoteEnd _ _ => rfl

/-- The direction has ended only where the client's stream has. -/
theorem Step.ended {t t' : Tunnel} (step : Step t t') (before : t.c2rDone = true → t.client.bytes = []) :
    t'.c2rDone = true → t'.client.bytes = [] := by
  cases step with
  | clientRead bytes left running _ _ =>
    intro done
    exact absurd (running.symm.trans done) (by decide)
  | clientEnd _ ended =>
    intro _
    exact (Arrivals.read_nil (by decide) ended).1
  | remoteRead _ _ _ _ _ => exact before
  | remoteEnd _ _ => exact before

theorem delivered {left remote : Arrivals} {t : Tunnel}
    (run : Relation.ReflTransGen Step { client := left, remote := remote } t) (done : t.c2rDone = true) :
    t.toRemote = left.bytes := by
  have held : t.toRemote ++ t.client.bytes = left.bytes ∧ (t.c2rDone = true → t.client.bytes = []) := by
    clear done
    induction run with
    | refl => exact ⟨rfl, fun done => absurd done Bool.false_ne_true⟩
    | tail _ step ih => exact ⟨step.conserves.trans ih.1, step.ended ih.2⟩
  rw [held.2 done, List.append_nil] at held
  exact held.1

/-- The whole stream can be relayed. -/
theorem exists_delivery (t : Tunnel) (running : t.c2rDone = false) :
    ∃ t', Relation.ReflTransGen Step t t' ∧ t'.c2rDone = true := by
  induction length : t.client.bytes.length using Nat.strongRecOn generalizing t with
  | ind n ih =>
    cases taken : t.client.read relayBufSize with
    | mk bytes left =>
      cases bytes with
      | nil =>
        obtain ⟨-, rfl⟩ := Arrivals.read_nil (by decide) taken
        exact ⟨_, .single (.clientEnd t running taken), rfl⟩
      | cons b more =>
        have split := Arrivals.read_append relayBufSize t.client
        rw [taken] at split
        have shorter : left.bytes.length < n := by
          rw [← length, ← split, List.length_append, List.length_cons]
          dsimp only
          omega
        obtain ⟨t', run, done⟩ := ih _ shorter { t with client := left, toRemote := t.toRemote ++ b :: more } running rfl
        exact ⟨t', .head (.clientRead t _ left running taken (List.cons_ne_nil b more)) run, done⟩

end Tunnel

/-! The connection. -/

/-- The request is that of the whole stream, and what was read with its head
and what is still to be read are what follows it. -/
theorem receiveRequest_spec (a : Arrivals) :
    ((∃ reason, receiveRequest a = .error reason) ∧ (∃ reason, readHttpRequest a.bytes = .error reason) ∧
      ∀ pos request, findHeaderEnd a.bytes = some pos → pos + 4 ≤ maxHeaderSize →
        parseRequestHeaders (fromUtf8Lossy (a.bytes.take (pos + 4))) ≠ .ok request) ∨
    ∃ pos request bodyStart left, findHeaderEnd a.bytes = some pos ∧ pos + 4 ≤ maxHeaderSize ∧
      parseRequestHeaders (fromUtf8Lossy (a.bytes.take (pos + 4))) = .ok request ∧
      receiveRequest a = .ok (request, bodyStart, left) ∧ readHttpRequest a.bytes = .ok (request, bodyStart ++ left.bytes) ∧
      bodyStart = (Arrivals.arrivingWith (pos + 4) a.chunks).take (maxHeaderSize - (pos + 4)) := by
  obtain ⟨accepted, refused⟩ := @readHead_spec [] a rfl
  simp only [List.nil_append, List.length_nil, Nat.sub_zero] at accepted refused
  by_cases place : ∃ pos, findHeaderEnd a.bytes = some pos ∧ pos + 4 ≤ maxHeaderSize
  · obtain ⟨pos, found, fits⟩ := place
    obtain ⟨bodyStart, left, read, kept, piece⟩ := accepted pos found fits
    have received : receiveRequest a = (parseRequestHeaders (fromUtf8Lossy (a.bytes.take (pos + 4)))).bind
        fun request => .ok (request, bodyStart, left) := by
      rw [receiveRequest, read]
      rfl
    have whole : readHttpRequest a.bytes = (parseRequestHeaders (fromUtf8Lossy (a.bytes.take (pos + 4)))).bind
        fun request => .ok (request, bodyStart ++ left.bytes) := by
      rw [readHttpRequest, found, kept]
      dsimp only
      rw [if_neg (Nat.not_lt.mpr fits)]
      rfl
    cases parsed : parseRequestHeaders (fromUtf8Lossy (a.bytes.take (pos + 4))) with
    | error reason =>
      rw [parsed] at received whole
      refine .inl ⟨⟨reason, received⟩, ⟨reason, whole⟩, fun other request there _ ok => ?_⟩
      obtain rfl := Option.some.inj (found.symm.trans there)
      rw [parsed] at ok
      cases ok
    | ok request =>
      rw [parsed] at received whole
      exact .inr ⟨pos, request, bodyStart, left, found, fits, parsed, received, whole, piece⟩
  · obtain ⟨reason, read⟩ := refused place
    refine .inl ⟨⟨reason, by rw [receiveRequest, read]; rfl⟩, ?_, fun pos _ found fits => absurd ⟨pos, found, fits⟩ place⟩
    unfold readHttpRequest
    split
    · split_ifs
      · exact ⟨_, rfl⟩
      · exact ⟨_, rfl⟩
    · rename_i pos found
      rw [if_pos (Nat.not_le.mp fun fits => place ⟨pos, found, fits⟩)]
      exact ⟨_, rfl⟩

namespace ProxyState
variable (st : ProxyState) (env : ConnectionEnv)

theorem relayBody_eq (request : ParsedRequest) (bodyStart : List UInt8) (left : Arrivals) (route : ResolvedCredentialRoute)
    (restPath : List Char) (address : IpAddr) : relayBody request bodyStart left =
      (Forwarded.relayedBody ⟨request, bodyStart ++ left.bytes, route, restPath, address⟩,
        decide (request.contentLength.getD 0 ≤ (bodyStart ++ left.bytes).length)) := by
  unfold relayBody Forwarded.relayedBody
  cases request.contentLength with
  | none => simp only [Option.getD_none, Nat.zero_le, decide_true]
  | some length =>
    have space : 0 < min relayBufSize (length - min bodyStart.length length) ∨ length - min bodyStart.length length = 0 := by
      have buffer : 0 < relayBufSize := by decide
      omega
    simp only [relayExact_spec _ _ left space, Option.getD_some, List.take_append, List.length_append]
    by_cases short : bodyStart.length ≤ length
    · rw [min_eq_left short, List.take_of_length_le (Nat.le_refl _), List.take_of_length_le short]
      exact Prod.ext rfl (by simp only [decide_eq_decide]; omega)
    · rw [min_eq_right (by omega), Nat.sub_self, List.take_zero, Nat.sub_eq_zero_of_le (by omega), List.take_zero]
      exact Prod.ext rfl (by simp only [decide_eq_decide]; omega)

/-- The one outcome of a stream in its pieces. -/
def outcomeOf (a : Arrivals) : Outcome :=
  if env.permit = false then .refused "HTTP/1.1 503 Too Many Connections\r\n\r\n"
  else match receiveRequest a with
    | .error _ => .refused "HTTP/1.1 400 Bad Request\r\n\r\n"
    | .ok (request, bodyStart, left) =>
      if request.method = "CONNECT".toList then
        match st.handleConnect env request with
        | .error response => .refused response
        | .ok (host, address) => .tunnelled host address left.bytes
      else match st.chooseRoute env request with
        | .error response => .refused response
        | .ok (route, restPath, address) =>
          .forwarded route address
            (utf8 (Forwarded.head ⟨request, bodyStart, route, restPath, address⟩) ++ (relayBody request bodyStart left).1)
            (relayBody request bodyStart left).2

variable {st env}

theorem ends_iff (a : Arrivals) (outcome : Outcome) : st.Ends env a outcome ↔ outcome = st.outcomeOf env a := by
  constructor
  · intro ends
    unfold outcomeOf
    cases ends with
    | busy full => rw [if_pos full]
    | badRequest reason room received =>
      rw [if_neg (by rw [room]; decide), received]
    | connectRefused request bodyStart left response room received connect refused =>
      rw [if_neg (by rw [room]; decide), received]
      simp only [connect, if_true, refused]
    | tunnel request bodyStart left remote host address t room received connect granted run done =>
      rw [if_neg (by rw [room]; decide), received, Tunnel.delivered run done]
      simp only [connect, if_true, granted]
    | routeRefused request bodyStart left response room received other refused =>
      rw [if_neg (by rw [room]; decide), received]
      simp only [if_neg other, refused]
    | forward request bodyStart left route restPath address room received other granted =>
      rw [if_neg (by rw [room]; decide), received]
      simp only [if_neg other, granted]
  · rintro rfl
    unfold outcomeOf
    by_cases full : env.permit = false
    · rw [if_pos full]
      exact .busy full
    · have room : env.permit = true := by simpa using full
      rw [if_neg full]
      split
      · rename_i reason received
        exact .badRequest reason room received
      · rename_i request bodyStart left received
        split_ifs with connect
        · split
          · rename_i response refused
            exact .connectRefused request bodyStart left response room received connect refused
          · rename_i host address granted
            obtain ⟨t, run, done⟩ := Tunnel.exists_delivery { client := left, remote := left } rfl
            rw [← Tunnel.delivered run done]
            exact .tunnel request bodyStart left left host address t room received connect granted run done
        · split
          · rename_i response refused
            exact .routeRefused request bodyStart left response room received connect refused
          · rename_i route restPath address granted
            exact .forward request bodyStart left route restPath address room received connect granted

theorem readHead_rejects_iff (a : Arrivals) : (∃ reason, readHead [] a = .error reason) ↔
    ¬∃ pos, findHeaderEnd a.bytes = some pos ∧ pos + 4 ≤ maxHeaderSize := by
  obtain ⟨accepted, refused⟩ := @readHead_spec [] a rfl
  refine ⟨?_, refused⟩
  rintro ⟨reason, read⟩ ⟨pos, found, fits⟩
  obtain ⟨bodyStart, left, taken, -⟩ := accepted pos found fits
  rw [read] at taken
  cases taken

/-- The outcomes agree but for what was read with the head of a tunnel. -/
theorem outcomeOf_eq_iff (a : Arrivals) : st.outcomeOf env a = st.handleWhole env a.bytes ↔ ¬st.PayloadWithConnect env a := by
  unfold outcomeOf handleWhole
  by_cases full : env.permit = false
  · rw [if_pos full, if_pos full]
    refine iff_of_true rfl fun payload => ?_
    exact absurd (full.symm.trans payload.1) (by decide)
  · have room : env.permit = true := by simpa using full
    rw [if_neg full, if_neg full]
    rcases receiveRequest_spec a with ⟨⟨reason, received⟩, ⟨reason', whole⟩, unparsed⟩ |
      ⟨pos, request, bodyStart, left, found, fits, parsed, received, whole, piece⟩
    · rw [received, whole]
      refine iff_of_true rfl ?_
      rintro ⟨-, pos, request, target, found, fits, parsed, -⟩
      exact unparsed pos request found (Nat.le_of_lt fits) parsed
    · rw [received, whole]
      dsimp only
      have payload : st.PayloadWithConnect env a ↔ request.method = "CONNECT".toList ∧
          (∃ target, st.handleConnect env request = .ok target) ∧ bodyStart ≠ [] := by
        have kept : bodyStart ≠ [] ↔ pos + 4 < maxHeaderSize ∧ Arrivals.arrivingWith (pos + 4) a.chunks ≠ [] := by
          rw [piece, ne_eq, List.take_eq_nil_iff, not_or]
          exact and_congr_left' (by omega)
        constructor
        · rintro ⟨-, pos', request', target, found', fits', parsed', connect, granted, arriving⟩
          obtain rfl := Option.some.inj (found.symm.trans found')
          obtain rfl := Except.ok.inj (parsed.symm.trans parsed')
          exact ⟨connect, ⟨target, granted⟩, kept.2 ⟨fits', arriving⟩⟩
        · rintro ⟨connect, ⟨target, granted⟩, some_⟩
          exact ⟨room, pos, request, target, found, (kept.1 some_).1, parsed, connect, granted, (kept.1 some_).2⟩
      rw [payload]
      by_cases connect : request.method = "CONNECT".toList
      · rw [if_pos connect, if_pos connect]
        cases granted : st.handleConnect env request with
        | error response => simp
        | ok target => simp [connect]
      · rw [if_neg connect, if_neg connect]
        refine iff_of_true ?_ fun both => connect both.1
        cases granted : st.chooseRoute env request with
        | error response => rfl
        | ok target =>
          obtain ⟨route, restPath, address⟩ := target
          dsimp only
          rw [relayBody_eq request bodyStart left route restPath address]
          rfl

/-! Routes, as they are chosen for the whole stream. -/

theorem resolveOrRefuse_eq_ok {host : List Char} {port : Nat} {safe : List IpAddr}
    (resolved : resolveOrRefuse env host port = .ok safe) : resolveAndValidate env.toProxyEnv host port = some safe := by
  unfold resolveOrRefuse at resolved
  split at resolved
  · cases resolved
  · cases resolved
  · rename_i addrs _ found
    split_ifs at resolved with none_
    obtain rfl := Except.ok.inj resolved
    simp only [resolveAndValidate, found, Option.bind_eq_bind, Option.bind_some, if_neg none_]

theorem openUpstream_eq_ok {route : ResolvedCredentialRoute} {address : IpAddr}
    (opened : openUpstream env route = .ok address) : ∃ safe, resolveAndValidate env.toProxyEnv route.host route.port = some safe ∧
      safe.find? env.reachable = some address ∧ env.serverName route.host = true ∧ env.handshake address = true := by
  obtain ⟨safe, resolved, opened⟩ := Except.bind_eq_ok.1 opened
  refine ⟨safe, resolveOrRefuse_eq_ok resolved, ?_⟩
  by_cases late : env.connectInTime safe = false
  · rw [if_pos late] at opened
    cases opened
  rw [if_neg late] at opened
  split at opened
  · cases opened
  · rename_i reached first
    split_ifs at opened with _ named _ shaken
    obtain rfl := Except.ok.inj opened
    exact ⟨first, by simpa using named, by simpa using shaken⟩

theorem chooseRoute_forwards {request : ParsedRequest} {route : ResolvedCredentialRoute} {restPath : List Char}
    {address : IpAddr} (chosen : st.chooseRoute env request = .ok (route, restPath, address)) (rest : List UInt8) :
    st.handleReverseProxy env.toProxyEnv request rest = some ⟨request, rest, route, restPath, address⟩ := by
  unfold chooseRoute at chosen
  split at chosen
  · cases chosen
  · rename_i token known
    split at chosen
    · cases chosen
    · rename_i text carried
      split at chosen
      · cases chosen
      · rename_i received pairs
        by_cases wrong : received.length ≠ 32 ∨ received ≠ token
        · rw [if_pos wrong] at chosen
          cases chosen
        rw [if_neg wrong] at chosen
        rw [not_or, not_not, not_not] at wrong
        obtain ⟨length, rfl⟩ := wrong
        have carries : ¬st.carriesToken request = false := by
          simp only [carriesToken, known, carried, Option.bind_some, pairs, length, decide_true, Bool.and_true]
          exact Bool.true_eq_false_eq_False
        split at chosen
        · cases chosen
        · rename_i routeName path parsed
          split at chosen
          · cases chosen
          · rename_i candidate found
            split_ifs at chosen with unlisted
            obtain ⟨reached, opened, same⟩ := Except.map_eq_ok.1 chosen
            obtain ⟨rfl, rfl, rfl⟩ : candidate = route ∧ path = restPath ∧ reached = address := by simpa using same
            obtain ⟨safe, resolved, first, named, shaken⟩ := openUpstream_eq_ok opened
            have listed : ¬env.toLowercase candidate.host ∉ st.allowHosts := by simpa using unlisted
            rw [handleReverseProxy, if_neg carries]
            simp only [parsed, found, Option.bind_eq_bind, Option.bind_some, if_neg listed, resolved, first, named, shaken,
              Bool.and_self, if_true]

/-- What is forwarded is the one request that the whole stream is forwarded as. -/
theorem forwarded_of_ends {a : Arrivals} {route : ResolvedCredentialRoute} {address : IpAddr} {delivered : List UInt8}
    {complete : Bool} (ends : st.Ends env a (.forwarded route address delivered complete)) :
    ∃ f, st.handleConnection env.toProxyEnv a.bytes = some f ∧ f.route = route ∧ f.address = address ∧ f.bytes = delivered := by
  cases ends with
  | forward request bodyStart left route restPath address room received other granted =>
    rcases receiveRequest_spec a with ⟨⟨reason, refused⟩, -⟩ | ⟨pos, request', bodyStart', left', -, -, -, received', whole, -⟩
    · rw [received] at refused
      cases refused
    · obtain ⟨rfl, rfl, rfl⟩ : request = request' ∧ bodyStart = bodyStart' ∧ left = left' := by
        simpa using received.symm.trans received'
      refine ⟨⟨request, bodyStart ++ left.bytes, route, restPath, address⟩, ?_, rfl, rfl, ?_⟩
      · simp only [handleConnection, whole, if_neg other, chooseRoute_forwards granted]
      · rw [relayBody_eq request bodyStart left route restPath address]
        rfl

/-- For every stream and every way it is cut: the outcome is that of the whole
stream exactly when no byte comes in with the head of a tunnel. -/
theorem cuts_alike_iff (st : ProxyState) (env : ConnectionEnv) (a : Arrivals) :
    st.CutsAlike env a ↔ ¬st.PayloadWithConnect env a := by
  rw [← outcomeOf_eq_iff]
  constructor
  · intro alike
    exact (alike.outcome _).mp ((ends_iff a _).mpr rfl)
  · intro same
    exact ⟨fun outcome => by rw [ends_iff, same], readHead_rejects_iff a⟩

end ProxyState

/-! A client that does not wait for the response to its `CONNECT`. -/

def tunnelProxy : ProxyState where
  allowHosts := ["api.example.com".toList]
  sessionToken := none
  credentialRoutes := []
  accepted _ member := absurd member List.not_mem_nil

def tunnelEnv : ConnectionEnv where
  toLowercase := lowerText
  lookupHost _ _ := some [.v4 93 184 216 34]
  reachable _ := true
  serverName _ := true
  handshake _ := true
  permit := true
  connectInTime _ := true
  handshakeInTime _ := true
  tlsConfigured := true

def connectHead : List UInt8 :=
  utf8 "CONNECT api.example.com:443 HTTP/1.1\r\n\r\n".toList

/-- The head and the first byte of the payload, in one piece. -/
def earlyPayload : Arrivals where
  chunks := [connectHead ++ [22]]
  nonempty := by decide

theorem early_payload_lost : ¬tunnelProxy.CutsAlike tunnelEnv earlyPayload := by
  intro alike
  have same := (alike.outcome _).mp ((ProxyState.ends_iff earlyPayload _).mpr rfl)
  have found : findHeaderEnd earlyPayload.bytes = some 36 := by decide
  have parsed : parseRequestHeaders (fromUtf8Lossy (earlyPayload.bytes.take (36 + 4))) =
      .ok ⟨"CONNECT".toList, "api.example.com:443".toList, []⟩ := by decide
  have granted : tunnelProxy.handleConnect tunnelEnv ⟨"CONNECT".toList, "api.example.com:443".toList, []⟩ =
      .ok ("api.example.com".toList, .v4 93 184 216 34) := by decide
  have more : Arrivals.arrivingWith (36 + 4) earlyPayload.chunks ≠ [] := by decide
  exact (ProxyState.outcomeOf_eq_iff earlyPayload).mp same ⟨rfl, 36, _, _, found, by decide, parsed, rfl, granted, more⟩

end Sandbox
end Latchgate
