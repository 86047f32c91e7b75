import EmbyAuto.Domain.Url
import EmbyAuto.Ranking.Select

/-!
# Canonical HTTP addresses

`canonicalHTTPURL` reads an address with `url.Parse`, lower-cases the host name, drops the default
port and the fragment, sorts the query and writes the address again with `URL.String`. Two steps
lose more than they should: an address whose host is nothing but a default port loses its host, and
`URL.Query` leaves out the settings that it cannot read.

## Main definitions

* `escape`, `URL.string`: how `net/url` writes an address
* `canonicalHost`, `encodeSettings`, `canonicalHTTPURL`: the canonical address

## Main results

* `unescape_escape`: what was escaped is read back
* `parseQuery_encodeSettings`: a query that was written is read back in its order
-/

namespace EmbyAuto

/-! ## Escaping -/

/-- An upper-case hexadecimal digit. -/
def upperHex (n : Nat) : Char := if n < 10 then Char.ofNat (n + 0x30) else Char.ofNat (n + 0x37)

def escapeByte (b : UInt8) : Runes := ['%', upperHex (b.toNat / 16), upperHex (b.toNat % 16)]

/-- `url.escape`: the bytes of safe characters stay. -/
def escape (safe : Char → Bool) (spaceIsPlus : Bool) (bytes : List UInt8) : Runes :=
  bytes.flatMap fun b =>
    if b.toNat < 0x80 ∧ safe (Char.ofNat b.toNat) then [Char.ofNat b.toNat]
    else if spaceIsPlus ∧ b = 0x20 then ['+']
    else escapeByte b

def unreserved (c : Char) : Bool := c.isAlphanum || c ∈ ['-', '_', '.', '~']

/-- The characters that stand in a host as they are. -/
def hostSafe (c : Char) : Bool :=
  unreserved c || c ∈ ['!', '$', '&', '\'', '(', ')', '*', '+', ',', ';', '=', ':', '[', ']', '<',
    '>', '"']

/-- The characters that stand in a path as they are. -/
def pathSafe (c : Char) : Bool :=
  unreserved c || c ∈ ['$', '&', '+', ',', '/', ':', ';', '=', '@']

/-- `validEncoded` of a path: it can be kept as it is spelled. -/
def validEncoded (path : Runes) : Bool :=
  path.all fun c => pathSafe c || c ∈ ['!', '\'', '(', ')', '*', '[', ']', '%']

/-- `url.QueryEscape`. -/
def queryEscape : List UInt8 → Runes := escape unreserved true

section Escape

variable {safe : Char → Bool} {plus : Bool}

theorem unhex?_upperHex : ∀ n < 16, unhex? (upperHex n) = some n := by decide

theorem isAlphanum_upperHex : ∀ n < 16, (upperHex n).isAlphanum = true := by decide

theorem unescape_escapeByte (b : UInt8) (rest : Runes) :
    unescape plus (escapeByte b ++ rest) = (unescape plus rest).map (b :: ·) := by
  have hb : b.toNat < 256 := b.toNat_lt
  rw [escapeByte, List.cons_append, List.cons_append, List.cons_append, List.nil_append, unescape,
    unhex?_upperHex _ (by omega), unhex?_upperHex _ (by omega)]
  cases unescape plus rest with
  | none => rfl
  | some bytes => simp [Nat.div_add_mod]

theorem unescape_cons {c : Char} (hpercent : c ≠ '%') (hplus : ¬ (c = '+' ∧ plus = true))
    (rest : Runes) :
    unescape plus (c :: rest) = (unescape plus rest).map (String.utf8EncodeChar c ++ ·) := by
  rw [unescape]
  · simp [hplus]
  · exact fun _ _ _ heq => absurd heq hpercent
  · exact hpercent

theorem utf8EncodeChar_of_lt {c : Char} (h : c.toNat < 0x80) :
    String.utf8EncodeChar c = [UInt8.ofNat c.toNat] := by
  simp only [String.utf8EncodeChar, show c.val.toNat ≤ 0x7f from Nat.le_of_lt_succ h]
  rfl

theorem toNat_ofNat_of_lt {n : Nat} (h : n < 0x80) : (Char.ofNat n).toNat = n := by
  rw [Char.ofNat, dif_pos (Or.inl (by omega))]
  simp [Char.ofNatAux]

/-- What was escaped is read back. -/
theorem unescape_escape (hpercent : safe '%' = false) (hplus : plus = true → safe '+' = false)
    (bytes : List UInt8) : unescape plus (escape safe plus bytes) = some bytes := by
  induction bytes with
  | nil => rfl
  | cons b bytes ih =>
    rw [escape, List.flatMap_cons, ← escape]
    split_ifs with hsafe hspace
    · have hvalue := toNat_ofNat_of_lt hsafe.1
      have hne : ∀ d, safe d = false → Char.ofNat b.toNat ≠ d := fun d hd heq => by
        rw [heq, hd] at hsafe
        exact absurd hsafe.2 (by simp)
      rw [List.singleton_append,
        unescape_cons (hne _ hpercent) (fun h => hne _ (hplus h.2) h.1), ih,
        utf8EncodeChar_of_lt (hvalue.trans_lt hsafe.1), hvalue]
      simp
    · obtain ⟨rfl, rfl⟩ := hspace
      simp [unescape, ih]
    · rw [unescape_escapeByte, ih]
      rfl

theorem forall_mem_escape {P : Char → Prop} {bytes : List UInt8} (hsafe : ∀ c, safe c = true → P c)
    (hplus : P '+') (hpercent : P '%') (halphanum : ∀ c, c.isAlphanum = true → P c) :
    ∀ c ∈ escape safe plus bytes, P c := by
  intro c hc
  obtain ⟨b, -, hb⟩ := List.mem_flatMap.mp hc
  have hlt : b.toNat < 256 := b.toNat_lt
  split_ifs at hb with h
  · exact hsafe c (List.mem_singleton.mp hb ▸ h.2)
  · exact List.mem_singleton.mp hb ▸ hplus
  · rcases List.mem_cons.mp hb with rfl | hb
    · exact hpercent
    · refine halphanum c ?_
      rcases List.mem_cons.mp hb with rfl | hb
      · exact isAlphanum_upperHex _ (by omega)
      · exact List.mem_singleton.mp hb ▸ isAlphanum_upperHex _ (by omega)

end Escape

/-! ## The canonical address -/

/-- The host and the port of `splitHostPort`: a port follows the last colon and has digits only. -/
def splitHostPort (host : Runes) : Runes × Runes :=
  match host.reverse.span (· ≠ ':') with
  | (_, []) => (host, [])
  | (port, _ :: name) => if port.all Char.isDigit then (name.reverse, port.reverse) else (host, [])

def inBrackets (name : Runes) : Bool := name.head? = some '[' && name.getLast? = some ']'

/-- `URL.Hostname`: without the port and the brackets of an address. -/
def hostname (host : Runes) : Runes :=
  let name := (splitHostPort host).1
  if inBrackets name then name.tail.dropLast else name

/-- `URL.Port`. -/
def port (host : Runes) : Runes := (splitHostPort host).2

/-- `net.JoinHostPort`. -/
def joinHostPort (name port : Runes) : Runes :=
  if ':' ∈ name then '[' :: name ++ ']' :: ':' :: port else name ++ ':' :: port

/-- The port unless it is the default one of the scheme. -/
def explicitPort (scheme : String) (port : Runes) : Runes :=
  if scheme = "http" ∧ port = ['8', '0'] ∨ scheme = "https" ∧ port = ['4', '4', '3'] then []
  else port

def canonicalHost (unicode : Unicode) (scheme : String) (host : Runes) : Runes :=
  let name := (hostname host).map unicode.toLower
  let port := explicitPort scheme (port host)
  if port ≠ [] then joinHostPort name port
  else if ':' ∈ name then '[' :: name ++ [']']
  else name

/-- The order of `sort.Strings`. -/
def bytesLess : List UInt8 → List UInt8 → Bool :=
  Ranking.thenBy (fun bytes => bytes.map UInt8.toNat) fun _ _ => false

/-- The settings by their keys, with the values of each key sorted. -/
def sortedSettings (settings : List (List UInt8 × List UInt8)) : List (List UInt8 × List UInt8) :=
  (Ranking.sortBy bytesLess (settings.map Prod.fst).dedup).flatMap fun key =>
    (Ranking.sortBy bytesLess ((settings.filter fun s => s.1 = key).map Prod.snd)).map
      fun value => (key, value)

/-- `Values.Encode` after the values were sorted. -/
def encodeSettings (settings : List (List UInt8 × List UInt8)) : Runes :=
  ['&'].intercalate ((sortedSettings settings).map
    fun setting => queryEscape setting.1 ++ '=' :: queryEscape setting.2)

/-- The host as `URL.String` writes it. -/
def escapeHost (host : Runes) : Runes := escape hostSafe false (utf8 host)

/-- `URL.EscapedPath`: the path as it was spelled if that is a valid spelling. -/
def URL.escapedPath (url : URL) : Runes :=
  if validEncoded url.rawPath then url.rawPath else escape pathSafe false url.path

/-- The query of an address. -/
def queryTail (query : Runes) : Runes := if query = [] then [] else '?' :: query

/-- `URL.String` of an address with a scheme, without user information and fragment. -/
def URL.string (url : URL) : Runes :=
  let path := url.escapedPath
  url.scheme.toList ++ ':' :: ((if url.host = "" ∧ url.path = [] then [] else ['/', '/']) ++
    escapeHost url.host.toList ++
    (if path ≠ [] ∧ path.head? ≠ some '/' ∧ url.host ≠ "" then ['/'] else []) ++ path ++
    queryTail url.rawQuery)

/-- The address has a host without user information, and a scheme of HTTP. -/
def URL.Hosted (url : URL) : Prop :=
  '@' ∉ url.authority ∧ url.host ≠ "" ∧ (url.scheme = "http" ∨ url.scheme = "https")

instance (url : URL) : Decidable url.Hosted := inferInstanceAs (Decidable (_ ∧ _))

section Canonical

variable (parseAuthority : String → Option String) (unicode : Unicode)

/-- The address with its canonical parts. -/
def URL.canonical (url : URL) : URL :=
  { url with
    host := .ofList (canonicalHost unicode url.scheme url.host.toList)
    rawQuery := encodeSettings (parseQuery url.rawQuery)
    fragment := [] }

def canonicalHTTPURL (raw : String) : Option String :=
  (parseURL parseAuthority (trimSpace raw)).bind fun url =>
    if url.Hosted then some (.ofList (url.canonical unicode).string) else none

end Canonical

example : canonicalHTTPURL some asciiUnicode " HTTP://Host:80/a b?y=2&x=%2f+&y=1#top" =
    some "http://host/a%20b?x=%2F+&y=1&y=2" := by decide +kernel

/-! ## The query -/

section Settings

variable {settings settings' : List (List UInt8 × List UInt8)}

theorem bytesLess_comparison : Ranking.Comparison bytesLess :=
  Ranking.thenBy_comparison _ Ranking.comparison_false

theorem bytesLess_separates (l : List (List UInt8)) : Ranking.Separates bytesLess l := by
  intro a _ b _ hne
  have hvalues : a.map UInt8.toNat ≠ b.map UInt8.toNat := fun h =>
    hne (List.map_injective_iff.mpr (fun _ _ => UInt8.toNat_inj.mp) h)
  rcases lt_or_gt_of_ne hvalues with h | h
  · exact Or.inl (Ranking.thenBy_eq_true.mpr (Or.inl h))
  · exact Or.inr (Ranking.thenBy_eq_true.mpr (Or.inl h))

/-- Sorting the settings neither drops nor adds one. -/
theorem sortedSettings_perm (settings : List (List UInt8 × List UInt8)) :
    (sortedSettings settings).Perm settings := by
  have hblock : ∀ key ∈ Ranking.sortBy bytesLess (settings.map Prod.fst).dedup,
      ((Ranking.sortBy bytesLess ((settings.filter fun s => s.1 = key).map Prod.snd)).map
        fun value => (key, value)).Perm (settings.filter fun s => s.1 = key) := by
    intro key _
    refine ((Ranking.sortBy_perm _ _).map _).trans (List.Perm.of_eq ?_)
    rw [List.map_map]
    refine (List.map_congr_left ?_).trans (List.map_id _)
    intro setting hsetting
    simp [← of_decide_eq_true (List.mem_filter.mp hsetting).2]
  exact ((Ranking.sortBy_perm _ _).flatMap hblock).trans
    (Ranking.flatMap_groups_perm Prod.fst settings)

/-- The sorted settings do not depend on the order of the settings. -/
theorem sortedSettings_of_perm (h : settings.Perm settings') :
    sortedSettings settings = sortedSettings settings' := by
  have hkeys : (settings.map Prod.fst).dedup.Perm (settings'.map Prod.fst).dedup :=
    (h.map _).dedup
  rw [sortedSettings,
    Ranking.sortBy_eq_of_perm bytesLess_comparison (bytesLess_separates _) hkeys]
  congr 1
  funext key
  rw [Ranking.sortBy_eq_of_perm bytesLess_comparison (bytesLess_separates _)
    ((h.filter _).map _)]

theorem not_mem_queryEscape {c : Char} (hc : unreserved c = false) (hplus : c ≠ '+')
    (hpercent : c ≠ '%') (bytes : List UInt8) : c ∉ queryEscape bytes := by
  have hne : ∀ d, unreserved d = true → d ≠ c := fun d hd heq => by simp [← heq, hd] at hc
  intro hmem
  exact forall_mem_escape hne hplus.symm hpercent.symm
    (fun d hd => hne d (by simp [unreserved, hd])) c hmem rfl

theorem cut_append {separator : Char} {front rest : Runes} (h : separator ∉ front) :
    cut separator (front ++ separator :: rest) = (front, rest) := by
  have hfront := forall_ne_of_not_mem h
  rw [cut, List.span_eq_takeWhile_dropWhile, List.takeWhile_append_of_pos hfront,
    List.dropWhile_append_of_pos hfront]
  simp

theorem cut_of_not_mem {separator : Char} {text : Runes} (h : separator ∉ text) :
    cut separator text = (text, []) := by
  have htext := forall_ne_of_not_mem h
  rw [cut, List.span_eq_takeWhile_dropWhile, List.takeWhile_eq_self_iff.mpr htext,
    List.dropWhile_eq_nil_iff.mpr htext]

/-- A setting that was written is read back. -/
theorem parseSetting_encoded (key value : List UInt8) :
    parseSetting (queryEscape key ++ '=' :: queryEscape value) = some (key, value) := by
  have hequals : '=' ∉ queryEscape key := not_mem_queryEscape rfl (by decide) (by decide) key
  have hsemicolon : ';' ∉ queryEscape key ++ '=' :: queryEscape value := by
    simp [not_mem_queryEscape (c := ';') rfl (by decide) (by decide)]
  have hread : ∀ bytes, unescape true (queryEscape bytes) = some bytes := fun bytes =>
    unescape_escape rfl (fun _ => rfl) bytes
  rw [parseSetting, if_neg (by simp [hsemicolon]), cut_append hequals]
  simp [hread]

theorem parseQuery_encodeSettings {settings : List (List UInt8 × List UInt8)}
    (hmax : settings.length ≤ 10000) :
    parseQuery (encodeSettings settings) = sortedSettings settings := by
  by_cases hnil : sortedSettings settings = []
  · rw [encodeSettings, hnil]
    rfl
  · have hampersand : ∀ text ∈ (sortedSettings settings).map
        fun setting => queryEscape setting.1 ++ '=' :: queryEscape setting.2, '&' ∉ text := by
      intro text htext
      obtain ⟨setting, -, rfl⟩ := List.mem_map.mp htext
      simp [not_mem_queryEscape (c := '&') rfl (by decide) (by decide)]
    have hsplit := List.splitOn_intercalate '&' hampersand (by simpa using hnil)
    rw [← encodeSettings] at hsplit
    rw [parseQuery, withinMaxParams, querySettings, hsplit, List.length_map,
      (sortedSettings_perm settings).length_eq, if_pos (decide_eq_true hmax), List.filterMap_map]
    refine (List.filterMap_congr ?_).trans List.filterMap_some
    intro setting _
    exact parseSetting_encoded _ _

end Settings

end EmbyAuto
