import Latchgate.Auth.Dpop

namespace Latchgate

/-! Cutting at a separator of several characters. -/

theorem splitOnceText_eq_some {sep text first rest : List Char} (some_ : sep ≠ [])
    (found : splitOnceText sep text = some (first, rest)) : text = first ++ sep ++ rest ∧ ¬sep <:+: first := by
  induction text generalizing first with
  | nil => rw [splitOnceText, if_neg some_] at found; cases found
  | cons c text ih =>
    rw [splitOnceText] at found
    split_ifs at found with here
    · cases found
      obtain ⟨tail, whole⟩ := List.isPrefixOf_iff_prefix.mp here
      refine ⟨?_, fun inside => some_ (List.infix_nil.mp inside)⟩
      rw [← whole, List.drop_left, List.nil_append]
    · obtain ⟨⟨inner, tail⟩, split, equal⟩ := Option.map_eq_some_iff.mp found
      cases equal
      obtain ⟨whole, clear⟩ := ih split
      refine ⟨by rw [whole]; rfl, fun inside => ?_⟩
      rcases List.infix_cons_iff.mp inside with front | later
      · apply here
        rw [List.isPrefixOf_iff_prefix, whole, List.append_assoc]
        exact front.trans (List.prefix_append (c :: inner) _)
      · exact clear later

/-- No end of the separator is a beginning of it, so that a scheme never runs
into it. -/
theorem splitOnceText_scheme {scheme rest : List Char} (clear : ¬"://".toList <:+: scheme) :
    splitOnceText "://".toList (scheme ++ "://".toList ++ rest) = some (scheme, rest) := by
  induction scheme with
  | nil => rfl
  | cons c scheme ih =>
    have later : ¬"://".toList <:+: scheme := fun inside => clear (List.infix_cons inside)
    have here : "://".toList.isPrefixOf (c :: scheme ++ "://".toList ++ rest) = false := by
      rw [Bool.eq_false_iff, Ne, List.isPrefixOf_iff_prefix]
      rintro ⟨tail, whole⟩
      rcases scheme with _ | ⟨d, _ | ⟨e, scheme⟩⟩
      · simp at whole
      · simp at whole
      · obtain ⟨rfl, rfl, rfl, -⟩ : ':' = c ∧ '/' = d ∧ '/' = e ∧ tail = scheme ++ "://".toList ++ rest := by
          simpa using whole
        exact clear (List.prefix_append [':', '/', '/'] scheme).isInfix
    rw [List.cons_append, List.cons_append, splitOnceText]
    rw [List.cons_append, List.cons_append] at here
    rw [here, if_neg Bool.false_ne_true, ih later]
    rfl

theorem toLower_plain {c d : Char} (plain : d.toNat < 97) (same : c.toLower = d) : c = d := by
  rcases toLower_cases c with ⟨low, -, moved⟩ | ⟨-, kept⟩
  · rw [same] at moved
    omega
  · exact kept.symm.trans same

theorem lowerText_plain {text : List Char} (plain : ∀ c ∈ lowerText text, c.toNat < 97) : lowerText text = text := by
  conv_rhs => rw [← List.map_id text]
  refine List.map_congr_left fun c member => ?_
  exact (toLower_plain (plain _ (List.mem_map_of_mem member)) rfl).symm

theorem lowerText_append (text rest : List Char) : lowerText (text ++ rest) = lowerText text ++ lowerText rest :=
  List.map_append

/-! The default port. -/

def defaultPort (scheme : List Char) : Option (List Char) :=
  if scheme = "http".toList then some "80".toList
  else if scheme = "https".toList then some "443".toList
  else none

theorem mem_defaultPorts {scheme port : List Char} :
    (scheme, port) ∈ [("http".toList, "80".toList), ("https".toList, "443".toList)] ↔ defaultPort scheme = some port := by
  unfold defaultPort
  rw [List.mem_cons, List.mem_singleton, Prod.mk.injEq, Prod.mk.injEq]
  split_ifs with http https
  · subst http
    simp [eq_comm]
  · subst https
    simp [eq_comm]
  · rw [eq_false http, eq_false https]
    simp

theorem colon_notMem_defaultPort {scheme port : List Char} (known : defaultPort scheme = some port) : ':' ∉ port := by
  unfold defaultPort at known
  split_ifs at known
  · cases known; decide
  · cases known; decide

theorem stripDefaultPort_append {scheme host port : List Char} (known : defaultPort scheme = some port) :
    stripDefaultPort (host ++ ':' :: port) scheme = host := by
  have turned : (host ++ ':' :: port).reverse = port.reverse ++ ':' :: host.reverse := by
    rw [List.reverse_append, List.reverse_cons, List.append_assoc, List.singleton_append]
  have clean : ':' ∉ port.reverse := fun member => colon_notMem_defaultPort known (List.mem_reverse.mp member)
  rw [stripDefaultPort, turned, splitOnce_append clean]
  dsimp only
  rw [List.reverse_reverse, List.reverse_reverse, if_pos (mem_defaultPorts.2 known)]

theorem stripDefaultPort_self {scheme authority : List Char}
    (other : ∀ host port, defaultPort scheme = some port → authority ≠ host ++ ':' :: port) :
    stripDefaultPort authority scheme = authority := by
  rw [stripDefaultPort]
  cases split : splitOnce ':' authority.reverse with
  | none => rfl
  | some parts =>
    obtain ⟨port, host⟩ := parts
    dsimp only
    rw [if_neg]
    intro known
    apply other host.reverse port.reverse (mem_defaultPorts.1 known)
    rw [← List.reverse_reverse authority, (splitOnce_eq_some split).1, List.reverse_append, List.reverse_cons,
      List.append_assoc, List.singleton_append]

/-- An authority ends in the default port, which is taken off, or it stays. -/
theorem stripDefaultPort_cases (authority scheme : List Char) :
    (∃ host port, defaultPort scheme = some port ∧ authority = host ++ ':' :: port ∧
        stripDefaultPort authority scheme = host) ∨
      (∀ host port, defaultPort scheme = some port → authority ≠ host ++ ':' :: port) ∧
        stripDefaultPort authority scheme = authority := by
  by_cases ends : ∃ host port, defaultPort scheme = some port ∧ authority = host ++ ':' :: port
  · obtain ⟨host, port, known, rfl⟩ := ends
    exact .inl ⟨host, port, known, rfl, stripDefaultPort_append known⟩
  · have other : ∀ host port, defaultPort scheme = some port → authority ≠ host ++ ':' :: port :=
      fun host port known same => ends ⟨host, port, known, same⟩
    exact .inr ⟨other, stripDefaultPort_self other⟩

/-- Two authorities of a scheme, one of them perhaps with the default port. -/
def SameAuthority (scheme first second : List Char) : Prop :=
  first = second ∨ ∃ port, defaultPort scheme = some port ∧ (first = second ++ ':' :: port ∨ second = first ++ ':' :: port)

theorem sameAuthority_of_strip {scheme first second : List Char}
    (same : stripDefaultPort first scheme = stripDefaultPort second scheme) : SameAuthority scheme first second := by
  rcases stripDefaultPort_cases first scheme with ⟨host, port, known, ends, strip⟩ | ⟨-, strip⟩
  · rcases stripDefaultPort_cases second scheme with ⟨host', port', known', ends', strip'⟩ | ⟨-, strip'⟩
    · rw [strip, strip'] at same
      cases known.symm.trans known'
      exact .inl (by rw [ends, ends', same])
    · rw [strip, strip'] at same
      exact .inr ⟨port, known, .inl (by rw [ends, same])⟩
  · rcases stripDefaultPort_cases second scheme with ⟨host', port', known', ends', strip'⟩ | ⟨-, strip'⟩
    · rw [strip, strip'] at same
      exact .inr ⟨port', known', .inr (by rw [ends', same])⟩
    · rw [strip, strip'] at same
      exact .inl same

theorem stripDefaultPort_twice_iff {scheme authority : List Char} :
    stripDefaultPort (stripDefaultPort authority scheme) scheme = stripDefaultPort authority scheme ↔
      ¬∃ host port, defaultPort scheme = some port ∧ authority = host ++ ':' :: port ++ ':' :: port := by
  rcases stripDefaultPort_cases authority scheme with ⟨host, port, known, ends, strip⟩ | ⟨other, strip⟩
  · rw [strip, ends]
    constructor
    · rintro stays ⟨inner, port', known', same⟩
      cases known.symm.trans known'
      rw [List.append_cancel_right same, stripDefaultPort_append known] at stays
      have longer := congrArg List.length stays
      simp at longer
    · intro once
      apply stripDefaultPort_self
      rintro inner port' known' rfl
      cases known.symm.trans known'
      exact once ⟨inner, port, known, rfl⟩
  · rw [strip, strip]
    refine iff_of_true rfl ?_
    rintro ⟨host, port, known, same⟩
    exact other _ _ known same

theorem lowerText_stripDefaultPort (authority scheme : List Char) :
    lowerText (stripDefaultPort (lowerText authority) scheme) = stripDefaultPort (lowerText authority) scheme := by
  rcases stripDefaultPort_cases (lowerText authority) scheme with ⟨host, port, -, ends, strip⟩ | ⟨-, strip⟩
  · have lowered := lowerText_lowerText authority
    rw [ends, lowerText_append] at lowered
    rw [strip]
    exact (List.append_inj lowered (by simp [lowerText])).1
  · rw [strip, lowerText_lowerText]

theorem mem_of_mem_stripDefaultPort {c : Char} {authority scheme : List Char}
    (member : c ∈ stripDefaultPort authority scheme) : c ∈ authority := by
  rcases stripDefaultPort_cases authority scheme with ⟨host, port, -, ends, strip⟩ | ⟨-, strip⟩
  · rw [ends]
    exact List.mem_append_left _ (strip ▸ member)
  · exact strip ▸ member

/-! The parts of a request URI. -/

structure RequestUri where
  scheme : List Char
  authority : List Char
  path : List Char

namespace RequestUri

/-- `htu` reads as the parts, up to its query or its fragment. -/
structure Of (htu : String) (uri : RequestUri) : Prop where
  text : (htu.toList.takeWhile (· ≠ '#')).takeWhile (· ≠ '?') = uri.scheme ++ "://".toList ++ (uri.authority ++ uri.path)
  scheme : ¬"://".toList <:+: uri.scheme
  authority : '/' ∉ uri.authority
  path : uri.path = [] ∨ ∃ rest, uri.path = '/' :: rest

/-- No path is the path of the root. -/
def fullPath (uri : RequestUri) : List Char :=
  if uri.path = [] then ['/'] else uri.path

theorem fullPath_ne_nil (uri : RequestUri) : uri.fullPath ≠ [] := by
  unfold fullPath
  split_ifs with bare
  · exact List.cons_ne_nil _ _
  · exact bare

/-- The scheme and the authority are in lower case, and the authority is
without the default port. -/
def normalized (uri : RequestUri) : RequestUri where
  scheme := lowerText uri.scheme
  authority := stripDefaultPort (lowerText uri.authority) (lowerText uri.scheme)
  path := uri.fullPath

def text (uri : RequestUri) : String :=
  String.ofList (uri.scheme ++ "://".toList ++ (uri.authority ++ uri.path))

/-- The authority has the default port twice at its end. -/
def PortTwice (uri : RequestUri) : Prop :=
  ∃ host port, defaultPort (lowerText uri.scheme) = some port ∧
    lowerText uri.authority = host ++ ':' :: port ++ ':' :: port

variable {uri other : RequestUri} {htu norm : String}

theorem Of.normalizeHtu (reads : uri.Of htu) : normalizeHtu htu = .ok uri.normalized.text := by
  rw [Latchgate.normalizeHtu, reads.text, splitOnceText_scheme reads.scheme]
  simp only [normalized, RequestUri.text, fullPath]
  rcases reads.path with bare | ⟨rest, rooted⟩
  · rw [bare, List.append_nil, splitOnce_eq_none reads.authority, if_pos rfl]
    simp only [List.append_assoc]
  · rw [rooted, splitOnce_append reads.authority, if_neg (List.cons_ne_nil _ _)]
    simp only [List.append_assoc]

/-- What is accepted has a scheme, an authority and a path. -/
theorem exists_of_normalizeHtu (accepted : Latchgate.normalizeHtu htu = .ok norm) :
    ∃ uri : RequestUri, uri.Of htu ∧ norm = uri.normalized.text := by
  obtain ⟨uri, reads⟩ : ∃ uri : RequestUri, uri.Of htu := by
    rw [Latchgate.normalizeHtu] at accepted
    dsimp only at accepted
    split at accepted
    · cases accepted
    · rename_i scheme after split
      obtain ⟨whole, clear⟩ := splitOnceText_eq_some (by decide) split
      cases cut : splitOnce '/' after with
      | none =>
        have bare : '/' ∉ after := fun member => by
          obtain ⟨before, behind, rfl, clean⟩ := List.eq_append_cons_of_mem member
          rw [splitOnce_append clean] at cut
          cases cut
        exact ⟨⟨scheme, after, []⟩, by rw [whole, List.append_nil], clear, bare, .inl rfl⟩
      | some parts =>
        obtain ⟨authority, rest⟩ := parts
        obtain ⟨rfl, clean⟩ := splitOnce_eq_some cut
        exact ⟨⟨scheme, authority, '/' :: rest⟩, whole, clear, clean, .inr ⟨rest, rfl⟩⟩
  rw [reads.normalizeHtu] at accepted
  cases accepted
  exact ⟨uri, reads, rfl⟩

/-- Where the authority ends. -/
theorem Of.split (reads : uri.Of htu) :
    splitOnce '/' (uri.authority ++ uri.path) = uri.path.head?.map fun _ => (uri.authority, uri.path.tail) := by
  rcases reads.path with bare | ⟨rest, rooted⟩
  · rw [bare, List.append_nil, splitOnce_eq_none reads.authority]
    rfl
  · rw [rooted, splitOnce_append reads.authority]
    rfl

theorem Of.unique (reads : uri.Of htu) (reads' : other.Of htu) : uri = other := by
  have cut : splitOnceText "://".toList (uri.scheme ++ "://".toList ++ (uri.authority ++ uri.path)) =
      some (uri.scheme, uri.authority ++ uri.path) := splitOnceText_scheme reads.scheme
  rw [← reads.text, reads'.text, splitOnceText_scheme reads'.scheme, Option.some.injEq, Prod.mk.injEq] at cut
  obtain ⟨schemes, rests⟩ := cut
  have authorities := reads.split
  rw [← rests, reads'.split] at authorities
  obtain ⟨scheme, authority, path⟩ := uri
  obtain ⟨scheme', authority', path'⟩ := other
  obtain rfl : scheme' = scheme := schemes
  rcases reads.path with rfl | ⟨rest, rfl⟩
  · rcases reads'.path with rfl | ⟨rest', rfl⟩
    · rw [List.append_nil, List.append_nil] at rests
      obtain rfl : authority' = authority := rests
      rfl
    · cases authorities
  · rcases reads'.path with rfl | ⟨rest', rfl⟩
    · cases authorities
    · cases authorities
      rfl

/-- The parts have nothing of a query or a fragment. -/
theorem Of.plain (reads : uri.Of htu) {c : Char} (member : c ∈ uri.scheme ++ (uri.authority ++ uri.path)) :
    c ≠ '#' ∧ c ≠ '?' := by
  have inside : c ∈ (htu.toList.takeWhile (· ≠ '#')).takeWhile (· ≠ '?') := by
    rw [reads.text, List.append_assoc]
    rcases List.mem_append.mp member with scheme | rest
    · exact List.mem_append_left _ scheme
    · exact List.mem_append_right _ (List.mem_append_right _ rest)
  exact ⟨by simpa using List.mem_takeWhile_imp ((List.takeWhile_sublist _).subset inside),
    by simpa using List.mem_takeWhile_imp inside⟩

theorem of_text (scheme : ¬"://".toList <:+: uri.scheme) (authority : '/' ∉ uri.authority)
    (path : uri.path = [] ∨ ∃ rest, uri.path = '/' :: rest)
    (plain : ∀ c ∈ uri.scheme ++ (uri.authority ++ uri.path), c ≠ '#' ∧ c ≠ '?') : uri.Of uri.text := by
  have all : ∀ c ∈ uri.scheme ++ "://".toList ++ (uri.authority ++ uri.path), c ≠ '#' ∧ c ≠ '?' := by
    intro c member
    rcases List.mem_append.mp member with front | rest
    · rcases List.mem_append.mp front with scheme | sep
      · exact plain c (List.mem_append_left _ scheme)
      · simp only [String.reduceToList, List.mem_cons, List.not_mem_nil, or_false] at sep
        rcases sep with rfl | rfl | rfl <;> decide
    · exact plain c (List.mem_append_right _ rest)
  refine ⟨?_, scheme, authority, path⟩
  have noFrag : List.takeWhile (· ≠ '#') uri.text.toList = uri.scheme ++ "://".toList ++ (uri.authority ++ uri.path) := by
    rw [RequestUri.text, String.toList_ofList]
    exact List.takeWhile_eq_self_iff.mpr fun c member => decide_eq_true (all c member).1
  rw [noFrag]
  exact List.takeWhile_eq_self_iff.mpr fun c member => decide_eq_true (all c member).2

/-- The text of a normalised URI reads as its parts. -/
theorem Of.normalized (reads : uri.Of htu) : uri.normalized.Of uri.normalized.text := by
  have rooted : ∃ rest, uri.fullPath = '/' :: rest := by
    rcases reads.path with bare | ⟨rest, known⟩
    · exact ⟨[], by rw [fullPath, if_pos bare]⟩
    · exact ⟨rest, by rw [fullPath, known, if_neg (List.cons_ne_nil _ _)]⟩
  apply of_text
  · intro inside
    obtain ⟨pre, within, lowered⟩ := List.infix_map_iff.mp inside
    have plain : ∀ c ∈ lowerText pre, c.toNat < 97 := by
      rw [lowerText, ← lowered]
      intro c member
      simp only [String.reduceToList, List.mem_cons, List.not_mem_nil, or_false] at member
      rcases member with rfl | rfl | rfl <;> decide
    have same : "://".toList = pre := lowered.trans (lowerText_plain plain)
    exact reads.scheme (same ▸ within)
  · intro member
    exact reads.authority (mem_of_mem_lowerText (by decide) (mem_of_mem_stripDefaultPort member))
  · exact .inr rooted
  · intro c member
    have kept (low : c.toNat < 97) (absent : c ∉ uri.scheme ++ (uri.authority ++ uri.path)) (noSlash : c ≠ '/') : False := by
      rw [List.mem_append, List.mem_append, not_or, not_or] at absent
      rcases List.mem_append.mp member with scheme | rest
      · exact absent.1 (mem_of_mem_lowerText low scheme)
      rcases List.mem_append.mp rest with authority | path
      · exact absent.2.1 (mem_of_mem_lowerText low (mem_of_mem_stripDefaultPort authority))
      · change c ∈ uri.fullPath at path
        unfold fullPath at path
        split_ifs at path with bare
        · exact noSlash (List.mem_singleton.mp path)
        · exact absent.2.2 path
    constructor
    · rintro rfl
      exact kept (by decide) (fun inside => (reads.plain inside).1 rfl) (by decide)
    · rintro rfl
      exact kept (by decide) (fun inside => (reads.plain inside).2 rfl) (by decide)

/-- Normalising twice is normalising once, but for a default port that stands
twice. -/
theorem Of.normalized_twice_iff (reads : uri.Of htu) :
    Latchgate.normalizeHtu uri.normalized.text = .ok uri.normalized.text ↔ ¬uri.PortTwice := by
  have lowered : lowerText uri.normalized.authority = uri.normalized.authority := lowerText_stripDefaultPort _ _
  have scheme : lowerText uri.normalized.scheme = uri.normalized.scheme := lowerText_lowerText _
  have path : uri.normalized.fullPath = uri.normalized.path := if_neg uri.fullPath_ne_nil
  rw [reads.normalized.normalizeHtu, Except.ok.injEq, PortTwice, ← stripDefaultPort_twice_iff]
  constructor
  · intro same
    have again := reads.normalized.normalized
    rw [same] at again
    have authority := congrArg RequestUri.authority (again.unique reads.normalized)
    change stripDefaultPort (lowerText uri.normalized.authority) (lowerText uri.normalized.scheme) = _ at authority
    rw [lowered, scheme] at authority
    exact authority
  · intro once
    rw [RequestUri.normalized, lowered, scheme, path]
    exact congrArg RequestUri.text (congrArg (RequestUri.mk _ · _) once)

/-- URIs with one normal form agree on their scheme, on their authority but for
the default port, and on their path. -/
theorem Of.agree {htu' : String} (reads : uri.Of htu) (reads' : other.Of htu')
    (same : uri.normalized.text = other.normalized.text) :
    lowerText uri.scheme = lowerText other.scheme ∧
      SameAuthority (lowerText uri.scheme) (lowerText uri.authority) (lowerText other.authority) ∧
      uri.fullPath = other.fullPath := by
  have again := reads'.normalized
  rw [← same] at again
  obtain ⟨scheme, authority, path⟩ := RequestUri.mk.inj (reads.normalized.unique again)
  rw [← scheme] at authority
  exact ⟨scheme, sameAuthority_of_strip authority, path⟩

end RequestUri

end Latchgate
