import EmbyAuto.Domain.CanonicalUrl

/-!
# Canonical addresses read again

`canonicalHTTPURL` of its own result. Every part of a canonical address is written with characters
that no other part is cut at, so the parse gives the parts back: the host if any is left, the path
as it was spelled or escaped, and the sorted query.

Two addresses with one canonical address agree in the settings that `URL.Query` reads, and in
nothing else of their queries.

## Main definitions

* `HostRules`: what `url.Parse` does with the hosts that it accepts
* `URL.Named`: the hosts with a name or with a port that is written out
* `decodedParameters`, `droppedParameters`: the parameters of a query, and those that are lost

## Main results

* `canonicalHTTPURL_canonical_iff`: when a canonical address is its own canonical address
* `decodedParameters_perm_iff`: when two addresses with one canonical address have one query
-/

namespace EmbyAuto

/-! ## The characters of an address -/

variable {raw : String} {c : Char}

theorem isSpace_of_range (hlow : 0x20 < c.toNat) (hhigh : c.toNat < 0x7f) : isSpace c = false := by
  rw [Bool.eq_false_iff]
  intro h
  rcases Bool.or_eq_true_iff.mp h with hlisted | hrange
  · have hall : ∀ d ∈ ['\t', '\n', '\x0b', '\x0c', '\r', ' ', '\u0085', ' ', ' ',
        ' ', ' ', ' ', ' ', '　'], d.toNat ≤ 0x20 ∨ 0x7f ≤ d.toNat := by
      simp
    have := hall c (of_decide_eq_true hlisted)
    omega
  · rw [Bool.and_eq_true, decide_eq_true_eq, Char.le_def] at hrange
    have hlarge : 0x2000 ≤ c.toNat := hrange.1
    omega

/-- The characters of an address before its query. -/
def addressChar (c : Char) : Bool :=
  unreserved c || c ∈ ['!', '$', '&', '\'', '(', ')', '*', '+', ',', ';', '=', ':', '[', ']', '<',
    '>', '"', '/', '@', '%']

theorem unreserved_of_isAlphanum (h : c.isAlphanum = true) : unreserved c = true := by
  simp [unreserved, h]

theorem addressChar_of_listed {listed : Runes} (hlisted : listed.all addressChar = true)
    (h : (unreserved c || c ∈ listed) = true) : addressChar c = true := by
  rcases Bool.or_eq_true_iff.mp h with hc | hc
  · simp [addressChar, hc]
  · exact List.all_eq_true.mp hlisted c (of_decide_eq_true hc)

theorem addressChar_of_isAlphanum (h : c.isAlphanum = true) : addressChar c = true := by
  simp [addressChar, unreserved_of_isAlphanum h]

theorem addressChar_range (h : addressChar c = true) :
    0x20 < c.toNat ∧ c.toNat < 0x7f ∧ c ≠ '?' ∧ c ≠ '#' := by
  simp only [addressChar, unreserved, Bool.or_eq_true, decide_eq_true_eq] at h
  rcases h with (halphanum | hmark) | hlisted
  · have hne : ∀ d : Char, d.isAlphanum = false → c ≠ d := fun d hd heq => by
      simp [← heq, halphanum] at hd
    exact ⟨(isAlphanum_range halphanum).1, (isAlphanum_range halphanum).2, hne _ rfl, hne _ rfl⟩
  · revert c
    simp
  · revert c
    simp

/-- Every byte of a host is written as an address character, and none as a separator. -/
theorem escapeHost_chars (host : Runes) :
    ∀ c ∈ escapeHost host, addressChar c = true ∧ c ≠ '/' ∧ c ≠ '@' := by
  have hne : ∀ c d, hostSafe c = true → hostSafe d = false → c ≠ d := fun c d hc hd heq => by
    simp [← heq, hc] at hd
  refine forall_mem_escape ?_ (by decide) (by decide) ?_
  · intro c hc
    exact ⟨addressChar_of_listed rfl hc, hne c _ hc rfl, hne c _ hc rfl⟩
  · intro c hc
    have hsafe : hostSafe c = true := by simp [hostSafe, unreserved_of_isAlphanum hc]
    exact ⟨addressChar_of_isAlphanum hc, hne c _ hsafe rfl, hne c _ hsafe rfl⟩

theorem escapedPath_chars (url : URL) : ∀ c ∈ url.escapedPath, addressChar c = true := by
  have hpath : ∀ c, pathSafe c = true → addressChar c = true := fun c hc =>
    addressChar_of_listed rfl hc
  rw [URL.escapedPath]
  split_ifs with hvalid
  · intro c hc
    rcases Bool.or_eq_true_iff.mp (List.all_eq_true.mp hvalid c hc) with h | h
    · exact hpath c h
    · exact addressChar_of_listed rfl (Bool.or_eq_true_iff.mpr (Or.inr h))
  · exact forall_mem_escape hpath rfl rfl fun c hc => addressChar_of_isAlphanum hc

theorem validEncoded_escapedPath (url : URL) : validEncoded url.escapedPath = true := by
  rw [URL.escapedPath]
  split_ifs with hvalid
  · exact hvalid
  · rw [validEncoded, List.all_eq_true]
    refine forall_mem_escape ?_ rfl rfl ?_
    · intro c hc
      simp [hc]
    · intro c hc
      simp [pathSafe, unreserved_of_isAlphanum hc]

theorem encodeSettings_chars (settings : List (List UInt8 × List UInt8)) :
    ∀ c ∈ encodeSettings settings, addressChar c = true := by
  have hescape : ∀ bytes, ∀ c ∈ queryEscape bytes, addressChar c = true := fun bytes =>
    forall_mem_escape (fun c hc => by simp [addressChar, hc]) rfl rfl
      fun c hc => addressChar_of_isAlphanum hc
  intro c hc
  obtain rfl | ⟨part, hpart, hc⟩ := mem_intercalate_singleton hc
  · rfl
  obtain ⟨setting, -, rfl⟩ := List.mem_map.mp hpart
  exact List.forall_mem_append.mpr
    ⟨hescape _, List.forall_mem_cons.mpr ⟨rfl, hescape _⟩⟩ c hc

/-! ## Hosts -/

/-- What `url.Parse` does with the hosts that it accepts, and `unicode.ToLower` with their
letters. -/
structure HostRules (parseAuthority : String → Option String) (unicode : Unicode) : Prop where
  /-- lower-casing changes letters into letters, and is done once -/
  toLower_toLower : ∀ c, unicode.toLower (unicode.toLower c) = unicode.toLower c
  toLower_eq_iff : ∀ c, ∀ mark ∈ [':', '[', ']'], unicode.toLower c = mark ↔ c = mark
  /-- there is no host in an empty authority -/
  empty : ∀ host ∈ parseAuthority "", host = ""
  /-- only an address with colons stands in brackets -/
  not_inBrackets : ∀ {authority host}, parseAuthority authority = some host →
    ':' ∉ hostname host.toList → inBrackets (hostname host.toList) = false
  /-- a host that is lower-cased, with or without its port, is read back from its spelling -/
  read_back : ∀ {authority host} (scheme : String), '@' ∉ authority.toList →
    parseAuthority authority = some host → canonicalHost unicode scheme host.toList ≠ [] →
      parseAuthority (.ofList (escapeHost (canonicalHost unicode scheme host.toList))) =
        some (.ofList (canonicalHost unicode scheme host.toList))

section Host

theorem splitHostPort_of_not_mem {name : Runes} (h : ':' ∉ name) :
    splitHostPort name = (name, []) := by
  have hname := forall_ne_of_not_mem (mt List.mem_reverse.mp h)
  rw [splitHostPort, List.span_eq_takeWhile_dropWhile, List.dropWhile_eq_nil_iff.mpr hname]

theorem splitHostPort_append (name : Runes) {digits : Runes}
    (h : digits.all Char.isDigit = true) :
    splitHostPort (name ++ ':' :: digits) = (name, digits) := by
  have hcolon : ':' ∉ digits := fun hmem => by simpa using List.all_eq_true.mp h _ hmem
  have hkeep := forall_ne_of_not_mem (mt List.mem_reverse.mp hcolon)
  rw [splitHostPort, List.reverse_append, List.reverse_cons, List.append_assoc,
    List.span_eq_takeWhile_dropWhile, List.takeWhile_append_of_pos hkeep,
    List.dropWhile_append_of_pos hkeep]
  simp [h]

/-- A closing bracket at the end belongs to no port. -/
theorem splitHostPort_bracket (name : Runes) :
    splitHostPort (name ++ [']']) = (name ++ [']'], []) := by
  rw [splitHostPort, List.reverse_append, List.reverse_singleton, List.singleton_append,
    List.span_eq_takeWhile_dropWhile]
  split
  · rfl
  · next hspan =>
    obtain ⟨rfl, -⟩ := Prod.mk.inj hspan
    simp

theorem inBrackets_brackets (name : Runes) : inBrackets ('[' :: name ++ [']']) = true := by
  rw [inBrackets, List.getLast?_concat]
  rfl

theorem hostname_of_split {host name digits : Runes}
    (h : splitHostPort host = ('[' :: name ++ [']'], digits)) :
    hostname host = name ∧ port host = digits := by
  rw [hostname, port, h, if_pos (inBrackets_brackets name)]
  simp

theorem hostname_of_plain {host name digits : Runes} (h : splitHostPort host = (name, digits))
    (hplain : inBrackets name = false) : hostname host = name ∧ port host = digits := by
  rw [hostname, port, h, if_neg (by simp [hplain])]
  simp

/-- The parts of a host that was put together. -/
theorem hostname_port_of_parts {name digits host : Runes} (hdigits : digits.all Char.isDigit = true)
    (hplain : ':' ∉ name → inBrackets name = false)
    (hhost : host = if digits ≠ [] then joinHostPort name digits
      else if ':' ∈ name then '[' :: name ++ [']'] else name) :
    hostname host = name ∧ port host = digits := by
  subst hhost
  by_cases hcolon : ':' ∈ name
  · -- an address in brackets
    by_cases hnil : digits = []
    · subst hnil
      rw [if_pos hcolon]
      exact hostname_of_split (splitHostPort_bracket ('[' :: name))
    · rw [if_pos hnil, joinHostPort, if_pos hcolon]
      refine hostname_of_split ?_
      simpa using splitHostPort_append ('[' :: name ++ [']']) hdigits
  · by_cases hnil : digits = []
    · subst hnil
      rw [if_neg hcolon]
      exact hostname_of_plain (splitHostPort_of_not_mem hcolon) (hplain hcolon)
    · rw [if_pos hnil, joinHostPort, if_neg hcolon]
      exact hostname_of_plain (splitHostPort_append name hdigits) (hplain hcolon)

theorem explicitPort_explicitPort (scheme : String) (digits : Runes) :
    explicitPort scheme (explicitPort scheme digits) = explicitPort scheme digits := by
  unfold explicitPort
  split_ifs <;> simp_all

theorem explicitPort_digits (scheme : String) (host : Runes) :
    (explicitPort scheme (port host)).all Char.isDigit = true := by
  rw [explicitPort, port, splitHostPort]
  split_ifs
  · rfl
  split
  · rfl
  · split_ifs with h
    · simpa using h
    · rfl

variable {parseAuthority : String → Option String} {unicode : Unicode}

/-- The canonical host has the lower-cased name and the explicit port, so it is its own canonical
host. -/
theorem HostRules.canonicalHost_canonicalHost (hrules : HostRules parseAuthority unicode)
    {authority host : String} (hparse : parseAuthority authority = some host) (scheme : String) :
    canonicalHost unicode scheme (canonicalHost unicode scheme host.toList) =
      canonicalHost unicode scheme host.toList := by
  have hplain : ':' ∉ (hostname host.toList).map unicode.toLower →
      inBrackets ((hostname host.toList).map unicode.toLower) = false := by
    simpa [inBrackets, hrules.toLower_eq_iff _ ':' (by simp),
      hrules.toLower_eq_iff _ '[' (by simp), hrules.toLower_eq_iff _ ']' (by simp)] using
      hrules.not_inBrackets hparse
  obtain ⟨hname, hport⟩ := hostname_port_of_parts (explicitPort_digits scheme host.toList) hplain
    (rfl : canonicalHost unicode scheme host.toList = _)
  have hlower : ((hostname host.toList).map unicode.toLower).map unicode.toLower =
      (hostname host.toList).map unicode.toLower := by
    simp [hrules.toLower_toLower]
  conv_lhs => rw [canonicalHost, hname, hport, hlower, explicitPort_explicitPort]
  rfl

end Host

/-! ## Parsing -/

section Parsing

variable {parseAuthority : String → Option String}

theorem dropWhile_nil_or_head (separator : Char) (text : Runes) :
    text.dropWhile (· ≠ separator) = [] ∨
      (text.dropWhile (· ≠ separator)).head? = some separator := by
  cases hrest : text.dropWhile (· ≠ separator) with
  | nil => exact Or.inl rfl
  | cons c rest =>
    have hc := List.head?_dropWhile_not (fun c => decide (c ≠ separator)) text
    rw [hrest] at hc
    exact Or.inr (congrArg some (by simpa using hc))

/-- Where the host of a parsed address comes from. -/
theorem parseHierarchy_host {url url' : URL} {rest : Runes}
    (h : parseHierarchy parseAuthority url rest = some url') (hempty : url.host = "")
    (hhost : url'.host ≠ "") : parseAuthority (.ofList url'.authority) = some url'.host ∧
      unescape false url'.rawPath = some url'.path ∧
      (url'.rawPath = [] ∨ url'.rawPath.head? = some '/') := by
  have hset : ∀ {u : URL} {path : Runes}, parseHierarchy.setPath u path = some url' →
      u.host = url'.host ∧ u.authority = url'.authority ∧ path = url'.rawPath ∧
        unescape false path = some url'.path := by
    intro u path hu
    obtain ⟨bytes, hbytes, rfl⟩ := Option.map_eq_some_iff.mp hu
    exact ⟨rfl, rfl, rfl, hbytes⟩
  unfold parseHierarchy at h
  split at h
  · next authority =>
    split_ifs at h
    · exact absurd ((hset h).1 ▸ hempty) hhost
    · rw [List.span_eq_takeWhile_dropWhile] at h
      obtain ⟨host, hparse, hpath⟩ := Option.bind_eq_some_iff.mp h
      obtain ⟨hname, hauthority, hraw, hbytes⟩ := hset hpath
      refine ⟨?_, hraw ▸ hbytes, hraw ▸ dropWhile_nil_or_head _ authority⟩
      rw [← hauthority, ← hname]
      exact hparse
  · exact absurd ((hset h).1 ▸ hempty) hhost

theorem parseURL_host {url : URL} (h : parseURL parseAuthority raw = some url)
    (hhost : url.host ≠ "") : parseAuthority (.ofList url.authority) = some url.host ∧
      unescape false url.rawPath = some url.path ∧
      (url.rawPath = [] ∨ url.rawPath.head? = some '/') := by
  obtain ⟨front, hfront, hfragment⟩ := Option.bind_eq_some_iff.mp h
  obtain ⟨bytes, -, rfl⟩ := Option.map_eq_some_iff.mp hfragment
  unfold parseWithoutFragment at hfront
  split_ifs at hfront with _ hstar
  · cases hfront
    exact absurd rfl hhost
  · obtain ⟨⟨scheme, rest⟩, -, hrest⟩ := Option.bind_eq_some_iff.mp hfront
    dsimp only at hrest
    split_ifs at hrest
    · apply parseHierarchy_host hrest rfl hhost
    · cases hrest
      exact absurd rfl hhost
    · apply parseHierarchy_host hrest rfl hhost

section Address

variable {scheme : String} {hierarchy query : Runes}
  (hscheme : scheme = "http" ∨ scheme = "https")
  (hhierarchy : ∀ c ∈ hierarchy, addressChar c = true)
  (hquery : ∀ c ∈ query, addressChar c = true)

include hhierarchy in
theorem cut_queryTail (query : Runes) :
    cut '?' (hierarchy ++ queryTail query) = (hierarchy, query) := by
  have habsent : '?' ∉ hierarchy := fun hmem => (addressChar_range (hhierarchy _ hmem)).2.2.1 rfl
  by_cases hnil : query = []
  · rw [queryTail, if_pos hnil, List.append_nil, cut_of_not_mem habsent, hnil]
  · rw [queryTail, if_neg hnil, cut_append habsent]

include hscheme in
theorem scheme_chars : ∀ c ∈ scheme.toList, addressChar c = true := by
  rcases hscheme with rfl | rfl <;> exact List.all_eq_true.mp rfl

include hscheme hhierarchy hquery

theorem address_chars : ∀ c ∈ scheme.toList ++ ':' :: (hierarchy ++ queryTail query),
    c = '?' ∨ addressChar c = true := by
  intro c hc
  simp only [List.mem_append, List.mem_cons] at hc
  rcases hc with hc | rfl | hc | hc
  · exact Or.inr (scheme_chars hscheme c hc)
  · exact Or.inr rfl
  · exact Or.inr (hhierarchy c hc)
  · rw [queryTail] at hc
    split_ifs at hc
    · cases hc
    · exact (List.mem_cons.mp hc).imp_right (hquery c)

theorem trimSpace_address :
    trimSpace (.ofList (scheme.toList ++ ':' :: (hierarchy ++ queryTail query))) =
      .ofList (scheme.toList ++ ':' :: (hierarchy ++ queryTail query)) := by
  rw [trimSpace, String.toList_ofList, trimFunc_of_forall]
  intro c hc
  rcases address_chars hscheme hhierarchy hquery c hc with rfl | hc
  · rfl
  · exact isSpace_of_range (addressChar_range hc).1 (addressChar_range hc).2.1

/-- The parse of an address with a scheme of HTTP. -/
theorem parseURL_address :
    parseURL parseAuthority (.ofList (scheme.toList ++ ':' :: (hierarchy ++ queryTail query))) =
      if hierarchy.head? = some '/' then
        (parseHierarchy parseAuthority { scheme, rawQuery := query } hierarchy).map
          fun url => { url with fragment := [] }
      else some { scheme, rawQuery := query, isOpaque := true } := by
  have hchars := address_chars hscheme hhierarchy hquery
  have hfragment : '#' ∉ scheme.toList ++ ':' :: (hierarchy ++ queryTail query) := fun hmem =>
    absurd (hchars '#' hmem) (by decide)
  have hcontrol : ((scheme.toList ++ ':' :: (hierarchy ++ queryTail query)).any
      fun c => c.toNat < 0x20 || c.toNat = 0x7f) = false := by
    rw [List.any_eq_false]
    intro c hc
    rcases hchars c hc with rfl | hc
    · decide
    · have := addressChar_range hc
      simp only [Bool.or_eq_true, decide_eq_true_eq]
      omega
  have hlower : (String.ofList scheme.toList).toLower = scheme := by
    rcases hscheme with rfl | rfl <;> decide +kernel
  have hne : scheme ≠ "" := by rcases hscheme with rfl | rfl <;> decide
  have hcut rest : getScheme (scheme.toList ++ ':' :: rest) = some (scheme.toList, rest) := by
    rcases hscheme with rfl | rfl <;> rfl
  rw [parseURL, String.toList_ofList, cut_of_not_mem hfragment]
  simp only [parseWithoutFragment, hcontrol, Bool.false_eq_true, if_false]
  rw [if_neg (by rcases hscheme with rfl | rfl <;> simp), hcut, Option.bind_some]
  simp only [cut_queryTail hhierarchy, hlower]
  split_ifs
  · cases parseHierarchy parseAuthority { scheme, rawQuery := query } hierarchy <;> rfl
  · rfl

end Address

/-- The host and the path after `//`. -/
theorem parseHierarchy_authority {scheme : String} (hscheme : scheme = "http" ∨ scheme = "https")
    {authority path query : Runes} {bytes : List UInt8} (hauthority : '/' ∉ authority)
    (hhead : path = [] ∨ path.head? = some '/') (hbytes : unescape false path = some bytes) :
    parseHierarchy parseAuthority { scheme, rawQuery := query }
      ('/' :: '/' :: (authority ++ path)) =
      (parseAuthority (.ofList authority)).map fun host =>
        { scheme, host, path := bytes, rawQuery := query, authority, rawPath := path } := by
  have hspan : (authority ++ path).span (· ≠ '/') = (authority, path) := by
    have hname := forall_ne_of_not_mem hauthority
    rw [List.span_eq_takeWhile_dropWhile, List.takeWhile_append_of_pos hname,
      List.dropWhile_append_of_pos hname]
    rcases hhead with rfl | hhead
    · simp
    · obtain ⟨rest, rfl⟩ : ∃ rest, path = '/' :: rest := List.head?_eq_some_iff.mp hhead
      simp
  have hne : ¬ (scheme = "" ∧ (authority ++ path).head? = some '/') := by
    rcases hscheme with rfl | rfl <;> simp
  rw [parseHierarchy, if_neg hne, hspan]
  simp [parseHierarchy.setPath, hbytes, Option.map_eq_bind]

end Parsing

/-! ## The canonical address read again -/

section Again

variable {parseAuthority : String → Option String} {unicode : Unicode} {url : URL}

section Path

variable (hbytes : unescape false url.rawPath = some url.path)
  (hhead : url.rawPath = [] ∨ url.rawPath.head? = some '/')

include hbytes

theorem unescape_escapedPath :
    unescape false url.escapedPath = some url.path := by
  rw [URL.escapedPath]
  split_ifs
  · exact hbytes
  · exact unescape_escape rfl (by simp) url.path

include hhead

theorem escapedPath_head :
    url.escapedPath = [] ∨ url.escapedPath.head? = some '/' := by
  rw [URL.escapedPath]
  split_ifs with hvalid
  · exact hhead
  · rcases hhead with hnil | hslash
    · rw [hnil] at hvalid
      exact absurd rfl hvalid
    · -- a slash is read as a slash and written as one
      obtain ⟨rest, hrest⟩ := List.head?_eq_some_iff.mp hslash
      rw [hrest] at hbytes
      obtain ⟨bytes, -, hpath⟩ := Option.map_eq_some_iff.mp hbytes
      rw [← hpath]
      exact Or.inr rfl

theorem path_eq_nil_iff : url.path = [] ↔ url.escapedPath = [] := by
  have hread := unescape_escapedPath hbytes
  rcases escapedPath_head hbytes hhead with hnil | hslash
  · rw [hnil] at hread ⊢
    simpa [unescape] using hread.symm
  · obtain ⟨rest, hrest⟩ := List.head?_eq_some_iff.mp hslash
    rw [hrest] at hread
    obtain ⟨bytes, -, hpath⟩ := Option.map_eq_some_iff.mp hread
    simp [hrest, ← hpath]

/-- What `canonicalHTTPURL` writes. -/
theorem string_canonical (unicode : Unicode) :
    (url.canonical unicode).string = url.scheme.toList ++ ':' ::
      ((if canonicalHost unicode url.scheme url.host.toList = [] ∧ url.escapedPath = [] then []
        else '/' :: '/' :: (escapeHost (canonicalHost unicode url.scheme url.host.toList) ++
          url.escapedPath)) ++ queryTail (encodeSettings (parseQuery url.rawQuery))) := by
  have hslash : ¬ (url.escapedPath ≠ [] ∧ url.escapedPath.head? ≠ some '/' ∧
      canonicalHost unicode url.scheme url.host.toList ≠ []) := by
    rintro ⟨hne, hhead', -⟩
    exact (escapedPath_head hbytes hhead).elim hne hhead'
  have hpath : (url.canonical unicode).escapedPath = url.escapedPath := rfl
  have hempty : String.ofList (canonicalHost unicode url.scheme url.host.toList) = "" ↔
      canonicalHost unicode url.scheme url.host.toList = [] := by
    rw [← String.toList_inj, String.toList_ofList]
    rfl
  simp only [URL.string, hpath]
  simp only [URL.canonical, ne_eq, hempty, path_eq_nil_iff hbytes hhead]
  split_ifs with h
  · simp [h, escapeHost, utf8, escape]
  · simp

end Path

/-- The host has a name, or a port that is written out. -/
def URL.Named (url : URL) : Prop :=
  hostname url.host.toList ≠ [] ∨ explicitPort url.scheme (port url.host.toList) ≠ []

theorem canonicalHost_eq_nil_iff :
    canonicalHost unicode url.scheme url.host.toList = [] ↔ ¬ url.Named := by
  rw [canonicalHost, URL.Named, not_or]
  split_ifs with hport hcolon
  · simp only [joinHostPort]
    split_ifs <;> simp [hport]
  · have : hostname url.host.toList ≠ [] := by
      rintro hnil
      simp [hnil] at hcolon
    simp [this]
  · simp [not_not.mp hport]

theorem hierarchy_chars (host : Runes) (url : URL) :
    ∀ c ∈ '/' :: '/' :: (escapeHost host ++ url.escapedPath), addressChar c = true := by
  simp only [List.forall_mem_cons, List.forall_mem_append]
  exact ⟨rfl, rfl, fun c hc => (escapeHost_chars host c hc).1, escapedPath_chars url⟩

variable (hrules : HostRules parseAuthority unicode)
  (hparse : parseURL parseAuthority raw = some url) (hhosted : url.Hosted)

include hrules hparse hhosted

/-- The canonical address of a host with a name. -/
theorem canonicalHTTPURL_of_named (hnamed : url.Named) :
    canonicalHTTPURL parseAuthority unicode (.ofList (url.canonical unicode).string) =
      some (.ofList (url.canonical unicode).string) := by
  obtain ⟨huser, hhost, hscheme⟩ := hhosted
  obtain ⟨hauthority, hbytes, hhead⟩ := parseURL_host hparse hhost
  have hne : canonicalHost unicode url.scheme url.host.toList ≠ [] := fun h =>
    canonicalHost_eq_nil_iff.mp h hnamed
  have hback := hrules.read_back url.scheme (by simpa using huser) hauthority hne
  have hagain := hrules.canonicalHost_canonicalHost hauthority url.scheme
  have hstring := string_canonical hbytes hhead unicode
  set host := canonicalHost unicode url.scheme url.host.toList with hcanonical
  set query := encodeSettings (parseQuery url.rawQuery) with hencoded
  -- the address as it is read again
  let url' : URL :=
    { scheme := url.scheme, host := .ofList host, path := url.path, rawQuery := query,
      authority := escapeHost host, rawPath := url.escapedPath }
  have hparse' : parseURL parseAuthority (trimSpace (.ofList (url.canonical unicode).string)) =
      some url' := by
    have hslash : '/' ∉ escapeHost host := fun hmem => (escapeHost_chars host _ hmem).2.1 rfl
    rw [hstring, if_neg (fun h => hne h.1),
      trimSpace_address hscheme (hierarchy_chars host url) (encodeSettings_chars _),
      parseURL_address hscheme (hierarchy_chars host url) (encodeSettings_chars _),
      parseHierarchy_authority hscheme hslash (escapedPath_head hbytes hhead)
        (unescape_escapedPath hbytes), hback]
    rfl
  have hhosted' : url'.Hosted := by
    refine ⟨fun hmem => (escapeHost_chars host _ hmem).2.2 rfl, ?_, hscheme⟩
    intro hempty
    exact hne (by simpa [url'] using congrArg String.toList hempty)
  have hpath : url'.escapedPath = url.escapedPath :=
    if_pos (validEncoded_escapedPath url)
  rw [canonicalHTTPURL, hparse', Option.bind_some, if_pos hhosted', hstring,
    string_canonical (unescape_escapedPath hbytes) (escapedPath_head hbytes hhead), hpath]
  simp only [url', String.toList_ofList, hagain, hencoded,
    parseQuery_encodeSettings (length_parseQuery_le _)]
  rw [encodeSettings, sortedSettings_of_perm (sortedSettings_perm _), ← encodeSettings]

/-- Without a name and a port nothing is left that could be read as a host. -/
theorem canonicalHTTPURL_of_not_named (hnamed : ¬ url.Named) :
    canonicalHTTPURL parseAuthority unicode (.ofList (url.canonical unicode).string) = none := by
  obtain ⟨huser, hhost, hscheme⟩ := hhosted
  obtain ⟨hauthority, hbytes, hhead⟩ := parseURL_host hparse hhost
  have hquery := encodeSettings_chars (parseQuery url.rawQuery)
  rw [canonicalHTTPURL, string_canonical hbytes hhead unicode, canonicalHost_eq_nil_iff.mpr hnamed]
  by_cases hpath : url.escapedPath = []
  · -- only the scheme and the query are left
    rw [if_pos ⟨rfl, hpath⟩, trimSpace_address hscheme (by simp) hquery,
      parseURL_address hscheme (by simp) hquery, if_neg (by simp), Option.bind_some,
      if_neg fun hhosted => hhosted.2.1 rfl]
  · rw [if_neg (fun h => hpath h.2), trimSpace_address hscheme (hierarchy_chars [] url) hquery,
      parseURL_address hscheme (hierarchy_chars [] url) hquery, if_pos (by rfl),
      parseHierarchy_authority hscheme (by simp [escapeHost, utf8, escape])
        (escapedPath_head hbytes hhead) (unescape_escapedPath hbytes)]
    rw [Option.bind_eq_none_iff]
    intro url' hurl'
    rw [Option.map_map, Option.map_eq_some_iff] at hurl'
    obtain ⟨host, hempty, rfl⟩ := hurl'
    exact if_neg fun hhosted => hhosted.2.1 (hrules.empty host hempty)

/-- A canonical address is its own canonical address unless it has lost its host. -/
theorem canonicalHTTPURL_canonical_iff :
    canonicalHTTPURL parseAuthority unicode (.ofList (url.canonical unicode).string) =
      some (.ofList (url.canonical unicode).string) ↔ url.Named := by
  constructor
  · intro hself
    by_contra hnamed
    rw [canonicalHTTPURL_of_not_named hrules hparse hhosted hnamed] at hself
    cases hself
  · exact canonicalHTTPURL_of_named hrules hparse hhosted

end Again

/-! ## Addresses with one canonical address -/

/-- The parameters of a query; `&&` encloses none. -/
def parameters (rawQuery : Runes) : List Runes :=
  (rawQuery.splitOn '&').filter (· ≠ [])

/-- The key and the value that a parameter spells, or its text if an escape is invalid. -/
def decodeParameter (text : Runes) : List UInt8 × List UInt8 ⊕ Runes :=
  match unescape true (cut '=' text).1, unescape true (cut '=' text).2 with
  | some key, some value => .inl (key, value)
  | _, _ => .inr text

def decodedParameters (rawQuery : Runes) : List (List UInt8 × List UInt8 ⊕ Runes) :=
  (parameters rawQuery).map decodeParameter

/-- The parameters that `URL.Query` leaves out: those with a semicolon or an invalid escape, and
all of them if they are too many. -/
def droppedParameters (rawQuery : Runes) : List (List UInt8 × List UInt8 ⊕ Runes) :=
  if withinMaxParams rawQuery then
    ((parameters rawQuery).filter fun text => (parseSetting text).isNone).map decodeParameter
  else decodedParameters rawQuery

theorem decodeParameter_of_parseSetting {text : Runes} {setting}
    (h : parseSetting text = some setting) : decodeParameter text = .inl setting := by
  rw [parseSetting] at h
  split_ifs at h
  dsimp only at h
  split at h
  · next hkey hvalue =>
    cases h
    rw [decodeParameter, hkey, hvalue]
  · cases h

theorem querySettings_eq_filterMap (rawQuery : Runes) :
    querySettings rawQuery = (parameters rawQuery).filterMap parseSetting := by
  rw [parameters, List.filterMap_filter]
  refine List.filterMap_congr fun text _ => ?_
  split_ifs with h
  · rfl
  · simp only [decide_eq_true_eq, not_not] at h
    rw [h]
    rfl

/-- Every parameter is a setting of the query, or is dropped. -/
theorem decodedParameters_perm (rawQuery : Runes) :
    ((parseQuery rawQuery).map Sum.inl ++ droppedParameters rawQuery).Perm
      (decodedParameters rawQuery) := by
  rw [parseQuery, droppedParameters]
  split_ifs with hmax
  swap
  · exact .refl _
  have hkept : (querySettings rawQuery).map Sum.inl = ((parameters rawQuery).filter
      fun text => !(parseSetting text).isNone).map decodeParameter := by
    rw [querySettings_eq_filterMap]
    induction parameters rawQuery with
    | nil => rfl
    | cons text texts ih =>
      cases hsetting : parseSetting text with
      | none => simp [hsetting, ih]
      | some setting => simp [hsetting, ih, decodeParameter_of_parseSetting hsetting]
  rw [hkept, ← List.map_append]
  exact (List.perm_append_comm.trans (List.filter_append_perm _ _)).map _

section Same

variable {parseAuthority : String → Option String} {unicode : Unicode} {url url' : URL}

/-- The query can be read off the canonical address. -/
theorem encodeSettings_of_string (hparse : parseURL parseAuthority raw = some url)
    (hhosted : url.Hosted) :
    (cut '?' (url.canonical unicode).string).2 = encodeSettings (parseQuery url.rawQuery) := by
  obtain ⟨-, hhost, hscheme⟩ := hhosted
  obtain ⟨-, hbytes, hhead⟩ := parseURL_host hparse hhost
  have hfront : ∀ hierarchy : Runes, (∀ c ∈ hierarchy, addressChar c = true) →
      ∀ c ∈ url.scheme.toList ++ ':' :: hierarchy, addressChar c = true := by
    intro hierarchy h
    exact List.forall_mem_append.mpr ⟨scheme_chars hscheme, List.forall_mem_cons.mpr ⟨rfl, h⟩⟩
  rw [string_canonical hbytes hhead, ← List.cons_append, ← List.append_assoc]
  refine congrArg Prod.snd (cut_queryTail (hfront _ ?_) _)
  split_ifs
  · simp
  · exact hierarchy_chars _ url

/-- Two addresses with one canonical address have the same parameters exactly if they drop the
same ones. -/
theorem decodedParameters_perm_iff {raw raw' : String}
    (hparse : parseURL parseAuthority raw = some url) (hhosted : url.Hosted)
    (hparse' : parseURL parseAuthority raw' = some url') (hhosted' : url'.Hosted)
    (h : (url.canonical unicode).string = (url'.canonical unicode).string) :
    (decodedParameters url.rawQuery).Perm (decodedParameters url'.rawQuery) ↔
      (droppedParameters url.rawQuery).Perm (droppedParameters url'.rawQuery) := by
  have hkept : ((parseQuery url.rawQuery).map Sum.inl).Perm
      ((parseQuery url'.rawQuery).map (Sum.inl : _ → _ ⊕ Runes)) := by
    have hsorted : sortedSettings (parseQuery url.rawQuery) =
        sortedSettings (parseQuery url'.rawQuery) := by
      rw [← parseQuery_encodeSettings (length_parseQuery_le _),
        ← encodeSettings_of_string hparse hhosted, h, encodeSettings_of_string hparse' hhosted',
        parseQuery_encodeSettings (length_parseQuery_le _)]
    exact ((sortedSettings_perm _).symm.trans (hsorted ▸ sortedSettings_perm _)).map _
  constructor
  · intro hperm
    have hall := (decodedParameters_perm _).trans (hperm.trans (decodedParameters_perm _).symm)
    exact (List.perm_append_left_iff _).mp (hall.trans (hkept.symm.append_right _))
  · intro hdropped
    exact (decodedParameters_perm _).symm.trans
      ((hkept.append hdropped).trans (decodedParameters_perm _))

end Same

end EmbyAuto
