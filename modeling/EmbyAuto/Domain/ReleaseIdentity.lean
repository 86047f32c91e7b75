import EmbyAuto.Domain.CanonicalAddress
import EmbyAuto.Torrent.Client

/-!
# Identities of releases

Feed entries and search candidates are recognised by an identity: the hash of a magnet link, the
identifier of the feed, the canonical address, or a digest of the title. Three parsers read the
hash of a magnet link: the one of the feed, the one of the torrent client, and the one of the
search. The first two decode a hash in base 32, the third one keeps its text.

## Main definitions

* `normalizeBTIH`, `btihFromMagnet`: the hash of a link as the feed reads it
* `buildRSSIdentity`, `buildRSSFeedEntryIdentity`, `buildReleaseCandidateIdentity`
* `HashSpelling`, `CarriesHash`: the spellings of a hash, and the links that carry one

## Main results

* `release_identities_iff`: the identities of a release by its magnet link
* `canonical_identities_iff`: the identities of releases by their addresses
-/

namespace EmbyAuto

/-! ## The identities -/

structure RSSIdentityInput where
  guid : String := ""
  btih : String := ""
  url : String := ""
  title : String := ""
  /-- the time in UTC as RFC 3339 writes it; none for the zero time -/
  publishedAt : Option String := none

structure RSSFeedEntry where
  guid : String := ""
  title : String := ""
  url : String := ""
  downloadURI : String := ""
  publishedAt : Option String := none

/-- The hash that a text spells in hexadecimal digits or in base 32. -/
def normalizeBTIH (unicode : Unicode) (value : String) : String :=
  let value := (trimFunc isSpace value.toList).map unicode.toLower
  let digits := if "urn:btih:".toList <+: value then value.drop 9 else value
  if digits.length = 40 ∧ digits.all fun c => (unhex? c).isSome then .ofList digits
  else if digits.length = 32 then
    match digits.mapM base32Digit? with
    | some values => .ofList (hexDigits 40 (values.foldl (fun n d => 32 * n + d) 0))
    | none => ""
  else ""

/-- `strings.Join(strings.Fields(title), " ")`. -/
def joinFields (title : String) : String := .ofList ([' '].intercalate (fields title.toList))

def identityRequirement : String :=
  "RSS entry requires a GUID, BTIH, canonical HTTP(S) URL, or title with published time"

section Identity

variable (parseAuthority : String → Option String) (unicode : Unicode)
  (sha256 : List UInt8 → List UInt8)

def btihFromMagnet (rawURL : String) : String :=
  match parseURL parseAuthority (trimSpace rawURL) with
  | some url =>
    if url.scheme = "magnet" then
      (((url.queryValues "xt").map fun topic =>
        normalizeBTIH unicode (.ofList (decodeUTF8 topic))).find? (· ≠ "")).getD ""
    else ""
  | none => ""

def buildRSSIdentity (input : RSSIdentityInput) : Except String String :=
  let title := joinFields input.title
  if normalizeBTIH unicode input.btih ≠ "" then .ok ("btih:" ++ normalizeBTIH unicode input.btih)
  else if trimSpace input.guid ≠ "" then .ok ("guid:" ++ trimSpace input.guid)
  else if btihFromMagnet parseAuthority unicode input.url ≠ "" then
    .ok ("btih:" ++ btihFromMagnet parseAuthority unicode input.url)
  else match canonicalHTTPURL parseAuthority unicode input.url, input.publishedAt with
    | some canonicalURL, _ => .ok ("url:" ++ canonicalURL)
    | none, some time =>
      if title = "" then .error identityRequirement
      else .ok ("title-time:" ++ hex (sha256 (utf8 (title ++ "\n" ++ time).toList)))
    | none, none => .error identityRequirement

def buildRSSFeedEntryIdentity (entry : RSSFeedEntry) : Except String String :=
  let identityURL := trimSpace entry.url
  buildRSSIdentity parseAuthority unicode sha256
    { guid := entry.guid
      btih := btihFromMagnet parseAuthority unicode entry.downloadURI
      url := if identityURL = "" then trimSpace entry.downloadURI else identityURL
      title := entry.title
      publishedAt := entry.publishedAt }

end Identity

/-! ## Spellings of a hash -/

/-- The texts that spell a hash: 40 hexadecimal digits, or 32 digits in base 32, in any case. -/
inductive HashSpelling (hash : Nat) (text : Runes) : Prop where
  | hexadecimal (values : List Nat) (hlength : text.length = 40)
      (hvalues : text.mapM unhex? = some values)
      (hhash : values.foldl (fun n d => 16 * n + d) 0 = hash)
  | base32 (values : List Nat) (hlength : text.length = 32)
      (hvalues : text.mapM base32Digit? = some values)
      (hhash : values.foldl (fun n d => 32 * n + d) 0 = hash)

/-- The hash as the torrent client writes it. -/
def hashText (hash : Nat) : String := .ofList (hexDigits 40 hash)

theorem toNat_le_of_le {c d : Char} (h : c ≤ d) : c.toNat ≤ d.toNat :=
  UInt32.le_iff_toNat_le.mp h

theorem toNat_lt_of_unhex? {c : Char} {value : Nat} (h : unhex? c = some value) :
    c.toNat < 0x80 := by
  rw [unhex?] at h
  split_ifs at h with hdigit hlower hupper
  · exact toNat_lt_of_isAlphanum (by simp [Char.isAlphanum, hdigit])
  · exact (toNat_le_of_le hlower.2).trans_lt (by decide)
  · exact (toNat_le_of_le hupper.2).trans_lt (by decide)

theorem toNat_lt_of_base32Digit? {c : Char} {value : Nat} (h : base32Digit? c = some value) :
    c.toNat < 0x80 := by
  have hupper : c.toUpper.toNat < 0x80 := by
    simp only [base32Digit?] at h
    split_ifs at h with hletter hdigit
    · exact (toNat_le_of_le hletter.2).trans_lt (by decide)
    · exact (toNat_le_of_le hdigit.2).trans_lt (by decide)
  -- only lower-case letters change
  rw [Char.toUpper] at hupper
  split_ifs at hupper with hlower
  · exact (UInt32.le_iff_toNat_le.mp hlower.2).trans_lt (by decide)
  · exact hupper

theorem unhex?_ascii {c : Char} {value : Nat} (h : unhex? c = some value) :
    value < 16 ∧ c.toLower = Nat.digitChar value ∧ unhex? c.toLower = some value ∧
      c.isAlphanum = true :=
  @forall_ascii (fun c => ∀ value ∈ unhex? c, value < 16 ∧ c.toLower = Nat.digitChar value ∧
    unhex? c.toLower = some value ∧ c.isAlphanum = true) (by decide) c (toNat_lt_of_unhex? h)
      value h

theorem base32Digit?_ascii {c : Char} {value : Nat} (h : base32Digit? c = some value) :
    value < 32 ∧ base32Digit? c.toLower = some value ∧ c.isAlphanum = true :=
  @forall_ascii (fun c => ∀ value ∈ base32Digit? c, value < 32 ∧
    base32Digit? c.toLower = some value ∧ c.isAlphanum = true) (by decide) c
    (toNat_lt_of_base32Digit? h) value h

section Spelling

variable {hash : Nat} {text : Runes}

variable {f : Char → Option Nat} {values : List Nat}

/-- The values stand for the characters one by one. -/
theorem mapM_eq_some_iff : text.mapM f = some values ↔ text.map f = values.map some := by
  induction text generalizing values with
  | nil => cases values <;> simp
  | cons c text ih =>
    simp only [List.mapM_cons, Option.bind_eq_bind, Option.bind_eq_some_iff, ih]
    cases values with
    | nil => simp
    | cons value values => simp

theorem exists_of_mapM (h : text.mapM f = some values) {c : Char} (hc : c ∈ text) :
    ∃ value, f c = some value := by
  have hmem := List.mem_map_of_mem (f := f) hc
  rw [mapM_eq_some_iff.mp h] at hmem
  obtain ⟨value, -, hvalue⟩ := List.mem_map.mp hmem
  exact ⟨value, hvalue.symm⟩

theorem HashSpelling.isAlphanum (h : HashSpelling hash text) : ∀ c ∈ text, c.isAlphanum = true := by
  intro c hc
  cases h with
  | hexadecimal values _ hvalues _ =>
    obtain ⟨value, hvalue⟩ := exists_of_mapM hvalues hc
    exact (unhex?_ascii hvalue).2.2.2
  | base32 values _ hvalues _ =>
    obtain ⟨value, hvalue⟩ := exists_of_mapM hvalues hc
    exact (base32Digit?_ascii hvalue).2.2

/-- The case of the letters does not matter. -/
theorem mapM_lower (hf : ∀ c value, f c = some value → f c.toLower = some value)
    (h : text.mapM f = some values) : (text.map Char.toLower).mapM f = some values := by
  rw [mapM_eq_some_iff, List.map_map, ← mapM_eq_some_iff.mp h]
  refine List.map_congr_left fun c hc => ?_
  obtain ⟨value, hvalue⟩ := exists_of_mapM h hc
  exact (hf c value hvalue).trans hvalue.symm

theorem HashSpelling.lower (h : HashSpelling hash text) :
    HashSpelling hash (text.map Char.toLower) := by
  cases h with
  | hexadecimal values hlength hvalues hhash =>
    exact .hexadecimal values (by simpa using hlength)
      (mapM_lower (fun c value hc => (unhex?_ascii hc).2.2.1) hvalues) hhash
  | base32 values hlength hvalues hhash =>
    exact .base32 values (by simpa using hlength)
      (mapM_lower (fun c value hc => (base32Digit?_ascii hc).2.1) hvalues) hhash

theorem HashSpelling.unique {hash' : Nat} (h : HashSpelling hash text)
    (h' : HashSpelling hash' text) :
    hash = hash' := by
  cases h with
  | hexadecimal values hlength hvalues hhash =>
    cases h' with
    | hexadecimal values' _ hvalues' hhash' =>
      rw [hvalues, Option.some.injEq] at hvalues'
      rw [← hhash, ← hhash', hvalues']
    | base32 _ hlength' => omega
  | base32 values hlength hvalues hhash =>
    cases h' with
    | hexadecimal _ hlength' => omega
    | base32 values' _ hvalues' hhash' =>
      rw [hvalues, Option.some.injEq] at hvalues'
      rw [← hhash, ← hhash', hvalues']

/-! ### The hexadecimal digits of a number -/

/-- The digits of a number that is put together from its digits. -/
theorem hexDigits_foldl {values : List Nat} (h : ∀ value ∈ values, value < 16) :
    hexDigits values.length (values.foldl (fun n d => 16 * n + d) 0) =
      values.map Nat.digitChar := by
  induction values using List.reverseRecOn with
  | nil => rfl
  | append_singleton values value ih =>
    have hlt : value < 16 := h value (by simp)
    rw [List.length_append, List.length_singleton, hexDigits_succ, List.foldl_append,
      List.foldl_cons, List.foldl_nil, show ∀ n, (16 * n + value) / 16 = n by omega,
      show ∀ n, (16 * n + value) % 16 = value by omega,
      ih fun v hv => h v (List.mem_append_left _ hv), List.map_append, List.map_singleton]

theorem foldl_lt {base : Nat} {values : List Nat} (h : ∀ value ∈ values, value < base) :
    values.foldl (fun n d => base * n + d) 0 < base ^ values.length := by
  induction values using List.reverseRecOn with
  | nil => simp
  | append_singleton values value ih =>
    have hvalue : value < base := h value (by simp)
    have hfront := ih fun v hv => h v (List.mem_append_left _ hv)
    rw [List.foldl_append, List.foldl_cons, List.length_append,
      List.length_singleton, Nat.pow_succ, Nat.mul_comm _ base]
    calc base * values.foldl (fun n d => base * n + d) 0 + value
        < base * values.foldl (fun n d => base * n + d) 0 + base := Nat.add_lt_add_left hvalue _
      _ = base * (values.foldl (fun n d => base * n + d) 0 + 1) := (Nat.mul_succ _ _).symm
      _ ≤ base * base ^ values.length := Nat.mul_le_mul_left _ hfront

theorem length_of_mapM (h : text.mapM f = some values) : values.length = text.length := by
  simpa using (congrArg List.length (mapM_eq_some_iff.mp h)).symm

theorem forall_values_of_mapM {P : Nat → Prop} (hf : ∀ c value, f c = some value → P value)
    (h : text.mapM f = some values) : ∀ value ∈ values, P value := by
  intro value hvalue
  have hmem := List.mem_map_of_mem (f := some) hvalue
  rw [← mapM_eq_some_iff.mp h] at hmem
  obtain ⟨c, -, hc⟩ := List.mem_map.mp hmem
  exact hf c value hc

theorem map_lower_of_mapM (h : text.mapM unhex? = some values) :
    text.map Char.toLower = values.map Nat.digitChar := by
  have hdigits := congrArg (List.map fun value => Nat.digitChar (value.getD 0))
    (mapM_eq_some_iff.mp h)
  rw [List.map_map, List.map_map] at hdigits
  refine (List.map_congr_left fun c hc => ?_).trans hdigits
  obtain ⟨value, hvalue⟩ := exists_of_mapM h hc
  simp [hvalue, (unhex?_ascii hvalue).2.1]

/-- Hexadecimal digits spell a hash by its own text. -/
theorem HashSpelling.lower_eq (h : HashSpelling hash text) (hlength : text.length = 40) :
    String.ofList (text.map Char.toLower) = hashText hash := by
  cases h with
  | hexadecimal values _ hvalues hhash =>
    have hdigits := hexDigits_foldl
      (forall_values_of_mapM (fun c value hc => (unhex?_ascii hc).1) hvalues)
    rw [hhash, length_of_mapM hvalues, hlength] at hdigits
    rw [hashText, hdigits, map_lower_of_mapM hvalues]
  | base32 _ hlength' => omega

theorem HashSpelling.lt (h : HashSpelling hash text) : hash < 16 ^ 40 := by
  cases h with
  | hexadecimal values hlength hvalues hhash =>
    have hlt := foldl_lt (forall_values_of_mapM (fun c value hc => (unhex?_ascii hc).1) hvalues)
    rwa [hhash, length_of_mapM hvalues, hlength] at hlt
  | base32 values hlength hvalues hhash =>
    have hlt := foldl_lt (forall_values_of_mapM (fun c value hc => (base32Digit?_ascii hc).1)
      hvalues)
    rw [hhash, length_of_mapM hvalues, hlength] at hlt
    exact hlt.trans_eq (by decide)

theorem HashSpelling.canonical (h : HashSpelling hash text) :
    HashSpelling hash (hashText hash).toList := by
  obtain ⟨values, hvalues, hfoldl⟩ := hexDigits_values h.lt
  rw [hashText, String.toList_ofList]
  exact .hexadecimal values (by simp [hexDigits]) hvalues hfoldl

end Spelling

/-! ## Topics -/

theorem utf8_eq_map {text : Runes} (h : ∀ c ∈ text, c.toNat < 0x80) :
    utf8 text = text.map fun c => UInt8.ofNat c.toNat := by
  induction text with
  | nil => rfl
  | cons c text ih =>
    rw [utf8, List.flatMap_cons, utf8EncodeChar_of_lt (h c List.mem_cons_self), ← utf8,
      ih fun d hd => h d (List.mem_cons_of_mem _ hd)]
    rfl

theorem decodeUTF8_utf8 {text : Runes} (h : ∀ c ∈ text, c.toNat < 0x80) :
    decodeUTF8 (utf8 text) = text := by
  have hgo : ∀ (text : Runes), (∀ c ∈ text, c.toNat < 0x80) →
      decodeUTF8.go text.length (text.map fun c => UInt8.ofNat c.toNat) = text := by
    intro text
    induction text with
    | nil => intro _; rfl
    | cons c text ih =>
      intro h
      have hc : c.toNat < 0x80 := h c List.mem_cons_self
      have hbyte : (UInt8.ofNat c.toNat).toNat = c.toNat := by
        rw [UInt8.toNat_ofNat']
        omega
      have hrune : decodeRune (UInt8.ofNat c.toNat) (text.map fun c => UInt8.ofNat c.toNat) =
          (c, 0) := by
        simp [decodeRune, hbyte, hc]
      rw [List.map_cons, List.length_cons, decodeUTF8.go, hrune]
      exact congrArg (c :: ·) (ih fun d hd => h d (List.mem_cons_of_mem _ hd))
  rw [decodeUTF8, utf8_eq_map h, List.length_map, hgo text h]

/-- A spelling of `urn:btih:`, in any case. -/
def TopicHead (front : Runes) : Prop := front.map Char.toLower = "urn:btih:".toList

theorem TopicHead.ascii {front : Runes} (h : TopicHead front) :
    ∀ c ∈ front, c.toNat < 0x80 ∧ isSpace c = false := by
  intro c hc
  have hlower : c.toLower ∈ "urn:btih:".toList := h ▸ List.mem_map_of_mem hc
  have hlt : c.toNat < 0x80 := by
    have hsmall : ∀ d ∈ "urn:btih:".toList, d.toNat < 0x80 := by simp
    have hbound := hsmall _ hlower
    rw [Char.toLower] at hbound
    split_ifs at hbound with hupper
    · exact (UInt32.le_iff_toNat_le.mp hupper.2).trans_lt (by decide)
    · exact hbound
  exact ⟨hlt, @forall_ascii (fun c => c.toLower ∈ "urn:btih:".toList → isSpace c = false)
    (by decide) c hlt hlower⟩

theorem TopicHead.length {front : Runes} (h : TopicHead front) : front.length = 9 := by
  simpa using congrArg List.length h

/-- The tables of `unicode` agree with ASCII on its characters. -/
def Unicode.Ascii (unicode : Unicode) : Prop := ∀ c, c.toNat < 0x80 → unicode.toLower c = c.toLower

section Topic

variable {unicode : Unicode} (hunicode : unicode.Ascii) {hash : Nat} {front text : Runes}

theorem HashSpelling.ascii (h : HashSpelling hash text) : ∀ c ∈ text, c.toNat < 0x80 :=
  fun c hc => toNat_lt_of_isAlphanum (h.isAlphanum c hc)

theorem HashSpelling.trim (h : HashSpelling hash text) : trimFunc isSpace text = text :=
  trimFunc_of_forall fun c hc => isSpace_of_isAlphanum (h.isAlphanum c hc)

theorem topic_ascii (hfront : TopicHead front) (h : HashSpelling hash text) :
    ∀ c ∈ front ++ text, c.toNat < 0x80 ∧ isSpace c = false := by
  intro c hc
  rcases List.mem_append.mp hc with hc | hc
  · exact hfront.ascii c hc
  · exact ⟨h.ascii c hc, isSpace_of_isAlphanum (h.isAlphanum c hc)⟩

include hunicode in
theorem Unicode.Ascii.map_lower {text : Runes} (h : ∀ c ∈ text, c.toNat < 0x80) :
    text.map unicode.toLower = text.map Char.toLower :=
  List.map_congr_left fun c hc => hunicode c (h c hc)

/-- What the parsers of the feed and the client make of the digits. -/
theorem HashSpelling.hash_of_digits (h : HashSpelling hash text) {canonical : String}
    (hcanonical : text.length = 40 → canonical = hashText hash) :
    (if text.length = 40 ∧ text.all fun c => (unhex? c).isSome then canonical
      else if text.length = 32 then
        match text.mapM base32Digit? with
        | some values => .ofList (hexDigits 40 (values.foldl (fun n d => 32 * n + d) 0))
        | none => ""
      else "") = hashText hash := by
  cases h with
  | hexadecimal values hlength hvalues hhash =>
    have hdigits : (text.all fun c => (unhex? c).isSome) = true := by
      rw [List.all_eq_true]
      intro c hc
      obtain ⟨value, hvalue⟩ := exists_of_mapM hvalues hc
      simp [hvalue]
    rw [if_pos ⟨hlength, hdigits⟩]
    exact hcanonical hlength
  | base32 values hlength hvalues hhash =>
    rw [if_neg (by omega), if_pos hlength, hvalues, ← hhash]
    rfl

include hunicode

/-- The feed reads every spelling of a hash, with or without `urn:btih:`. -/
theorem normalizeBTIH_spelling (hfront : front = [] ∨ TopicHead front)
    (h : HashSpelling hash text) :
    normalizeBTIH unicode (.ofList (front ++ text)) = hashText hash := by
  have hlower : text.map unicode.toLower = text.map Char.toLower := hunicode.map_lower h.ascii
  have hcanonical : (text.map Char.toLower).length = 40 →
      String.ofList (text.map Char.toLower) = hashText hash := fun hlength =>
    h.lower_eq (by simpa using hlength)
  simp only [normalizeBTIH, String.toList_ofList]
  rcases hfront with rfl | hfront
  · -- no digit is a colon, so nothing is cut off
    have hcut : ¬ "urn:btih:".toList <+: text.map Char.toLower := by
      intro hcut
      have hmem : ':' ∈ text.map Char.toLower := hcut.subset (by decide)
      simpa using h.lower.isAlphanum _ hmem
    rw [List.nil_append, h.trim, hlower, if_neg hcut]
    exact h.lower.hash_of_digits hcanonical
  · have hascii := topic_ascii hfront h
    rw [trimFunc_of_forall fun c hc => (hascii c hc).2,
      hunicode.map_lower fun c hc => (hascii c hc).1, List.map_append, hfront,
      if_pos (List.prefix_append _ _), List.drop_left' (by rfl)]
    exact h.lower.hash_of_digits hcanonical

end Topic

/-! ## The identity of a magnet link -/

/-- A magnet link whose exact topic is the given spelling of a hash, among any number of other
parameters. -/
def CarriesHash (parseAuthority : String → Option String) (link : String) (hash : Nat)
    (text : Runes) : Prop :=
  HashSpelling hash text ∧ ∃ url front, parseURL parseAuthority (trimSpace link) = some url ∧
    url.scheme = "magnet" ∧ TopicHead front ∧
    settingValues (querySettings url.rawQuery) "xt" = [utf8 (front ++ text)]

/-- The link has no more parameters than `URL.Query` reads. -/
def LinkWithinMax (parseAuthority : String → Option String) (link : String) : Prop :=
  ∀ url, parseURL parseAuthority (trimSpace link) = some url → withinMaxParams url.rawQuery = true

section Magnet

variable {parseAuthority : String → Option String} {unicode : Unicode}
  {sha256 : List UInt8 → List UInt8} {link : String} {hash : Nat} {text : Runes}

theorem hashText_ne_empty (hash : Nat) : hashText hash ≠ "" := by
  simp [hashText, hexDigits]

/-- The topic of a link that is read. -/
theorem CarriesHash.queryValues (h : CarriesHash parseAuthority link hash text)
    (hmax : LinkWithinMax parseAuthority link) :
    ∃ url front, parseURL parseAuthority (trimSpace link) = some url ∧ url.scheme = "magnet" ∧
      TopicHead front ∧ url.queryValues "xt" = [utf8 (front ++ text)] := by
  obtain ⟨-, url, front, hparse, hscheme, hfront, hxt⟩ := h
  refine ⟨url, front, hparse, hscheme, hfront, ?_⟩
  rwa [URL.queryValues, parseQuery, if_pos (hmax url hparse)]

variable (hunicode : unicode.Ascii)

include hunicode

theorem btihFromMagnet_of_carries (h : CarriesHash parseAuthority link hash text)
    (hmax : LinkWithinMax parseAuthority link) :
    btihFromMagnet parseAuthority unicode link = hashText hash := by
  have hspelling := h.1
  obtain ⟨url, front, hparse, hscheme, hfront, hxt⟩ := h.queryValues hmax
  have htopic : normalizeBTIH unicode (.ofList (decodeUTF8 (utf8 (front ++ text)))) =
      hashText hash := by
    rw [decodeUTF8_utf8 fun c hc => (topic_ascii hfront hspelling c hc).1]
    exact normalizeBTIH_spelling hunicode (Or.inr hfront) hspelling
  simp [btihFromMagnet, hparse, hscheme, hxt, htopic, hashText_ne_empty]

/-- A feed entry with a magnet link is recognised by the hash. -/
theorem buildRSSFeedEntryIdentity_of_carries {entry : RSSFeedEntry}
    (h : CarriesHash parseAuthority entry.downloadURI hash text)
    (hmax : LinkWithinMax parseAuthority entry.downloadURI) :
    buildRSSFeedEntryIdentity parseAuthority unicode sha256 entry =
      .ok ("btih:" ++ hashText hash) := by
  have hagain : normalizeBTIH unicode (hashText hash) = hashText hash := by
    simpa using normalizeBTIH_spelling hunicode (Or.inl rfl) h.1.canonical
  rw [buildRSSFeedEntryIdentity, buildRSSIdentity, btihFromMagnet_of_carries hunicode h hmax,
    hagain, if_pos (hashText_ne_empty hash)]

end Magnet

/-- The digits of one in hexadecimal and in base 32. -/
def hexadecimalOne : Runes := List.replicate 39 '0' ++ ['1']

def base32One : Runes := List.replicate 31 'A' ++ ['B']

def magnetOf (digits : Runes) : String := "magnet:?xt=urn:btih:" ++ .ofList digits

/-- The parts of such a link. -/
def magnetURL (digits : Runes) : URL :=
  { scheme := "magnet", isOpaque := true, rawQuery := "xt=urn:btih:".toList ++ digits }

theorem parseURL_magnetOf :
    parseURL some (trimSpace (magnetOf hexadecimalOne)) = some (magnetURL hexadecimalOne) ∧
    parseURL some (trimSpace (magnetOf base32One)) = some (magnetURL base32One) := by
  decide +kernel

theorem carriesHash_hexadecimalOne : CarriesHash some (magnetOf hexadecimalOne) 1 hexadecimalOne :=
  ⟨.hexadecimal (List.replicate 39 0 ++ [1]) rfl rfl rfl, magnetURL hexadecimalOne,
    "urn:btih:".toList, parseURL_magnetOf.1, rfl, rfl, rfl⟩

theorem linkWithinMax_hexadecimalOne : LinkWithinMax some (magnetOf hexadecimalOne) := by
  intro url hparse
  cases parseURL_magnetOf.1.symm.trans hparse
  rfl

theorem ascii_asciiUnicode : asciiUnicode.Ascii := fun _ _ => rfl

section Address

variable {parseAuthority : String → Option String} {unicode : Unicode}
  {sha256 : List UInt8 → List UInt8} {raw canonical : String} {url : URL}

theorem canonicalHTTPURL_eq_some (hparse : parseURL parseAuthority (trimSpace raw) = some url)
    (h : canonicalHTTPURL parseAuthority unicode raw = some canonical) :
    url.Hosted ∧ canonical = .ofList (url.canonical unicode).string := by
  rw [canonicalHTTPURL, hparse, Option.bind_some] at h
  split_ifs at h with hhosted
  exact ⟨hhosted, (Option.some.inj h).symm⟩

/-- An entry without a hash and an identifier is recognised by its address. -/
theorem buildRSSIdentity_of_address {input}
    (hbtih : normalizeBTIH unicode input.btih = "") (hguid : trimSpace input.guid = "")
    (hparse : parseURL parseAuthority (trimSpace input.url) = some url)
    (h : canonicalHTTPURL parseAuthority unicode input.url = some canonical) :
    buildRSSIdentity parseAuthority unicode sha256 input = .ok ("url:" ++ canonical) := by
  obtain ⟨⟨-, -, hscheme⟩, -⟩ := canonicalHTTPURL_eq_some hparse h
  have hmagnet : btihFromMagnet parseAuthority unicode input.url = "" := by
    have hne : url.scheme ≠ "magnet" := by rcases hscheme with heq | heq <;> simp [heq]
    simp [btihFromMagnet, hparse, hne]
  simp [buildRSSIdentity, hbtih, hguid, hmagnet, h]

/-- **Canonical addresses**: an address is canonicalised once and for all if its host has a name or
a port that is written out. Addresses with one canonical form, and entries that are recognised by
them, have the same parameters exactly if the parameters that cannot be read are the same. -/
theorem canonical_identities_iff (hrules : HostRules parseAuthority unicode)
    {raw' canonical' : String} {url' : URL}
    (hparse : parseURL parseAuthority (trimSpace raw) = some url)
    (h : canonicalHTTPURL parseAuthority unicode raw = some canonical)
    (hparse' : parseURL parseAuthority (trimSpace raw') = some url')
    (h' : canonicalHTTPURL parseAuthority unicode raw' = some canonical') :
    (canonicalHTTPURL parseAuthority unicode canonical = some canonical ↔ url.Named) ∧
    (canonical = canonical' →
      ((decodedParameters url.rawQuery).Perm (decodedParameters url'.rawQuery) ↔
        (droppedParameters url.rawQuery).Perm (droppedParameters url'.rawQuery))) ∧
    ∀ input input' : RSSIdentityInput, input.url = raw → input'.url = raw' →
      normalizeBTIH unicode input.btih = "" → trimSpace input.guid = "" →
      normalizeBTIH unicode input'.btih = "" → trimSpace input'.guid = "" →
      buildRSSIdentity parseAuthority unicode sha256 input =
        buildRSSIdentity parseAuthority unicode sha256 input' →
      ((decodedParameters url.rawQuery).Perm (decodedParameters url'.rawQuery) ↔
        (droppedParameters url.rawQuery).Perm (droppedParameters url'.rawQuery)) := by
  obtain ⟨hhosted, hcanonical⟩ := canonicalHTTPURL_eq_some hparse h
  obtain ⟨hhosted', hcanonical'⟩ := canonicalHTTPURL_eq_some hparse' h'
  have hsame : canonical = canonical' →
      ((decodedParameters url.rawQuery).Perm (decodedParameters url'.rawQuery) ↔
        (droppedParameters url.rawQuery).Perm (droppedParameters url'.rawQuery)) := by
    intro heq
    have hstring : (url.canonical unicode).string = (url'.canonical unicode).string := by
      simpa [hcanonical, hcanonical'] using congrArg String.toList heq
    exact decodedParameters_perm_iff hparse hhosted hparse' hhosted' hstring
  refine ⟨?_, hsame, ?_⟩
  · rw [hcanonical]
    exact canonicalHTTPURL_canonical_iff hrules hparse hhosted
  · rintro input input' rfl rfl hbtih hguid hbtih' hguid' hidentity
    rw [buildRSSIdentity_of_address hbtih hguid hparse h,
      buildRSSIdentity_of_address hbtih' hguid' hparse' h'] at hidentity
    exact hsame (by simpa using Except.ok.inj hidentity)

end Address

/-- A parser of authorities that knows one host. -/
def oneHost (authority : String) : Option String :=
  if authority = "" ∨ authority = "host" then some authority else none

theorem oneHost_eq_some {authority host : String} (h : oneHost authority = some host) :
    host = "" ∨ host = "host" := by
  rw [oneHost] at h
  split_ifs at h with hknown
  exact Option.some.inj h ▸ hknown

theorem canonicalHost_oneHost (unicode : Unicode) (scheme : String) (host : Runes)
    (hport : port host = []) (hcolon : ':' ∉ (hostname host).map unicode.toLower) :
    canonicalHost unicode scheme host = (hostname host).map unicode.toLower := by
  have hexplicit : explicitPort scheme [] = [] := by simp [explicitPort]
  rw [canonicalHost, hport, hexplicit, if_neg (by simp), if_neg hcolon]

theorem hostRules_oneHost : HostRules oneHost asciiUnicode where
  toLower_toLower := toLower_toLower
  toLower_eq_iff := by
    intro c mark hmark
    have hmarks : ∀ d ∈ [':', '[', ']'], d.isAlphanum = false := by simp
    exact toLower_eq_iff (hmarks mark hmark)
  empty := by decide
  not_inBrackets := by
    intro authority host hparse _
    rcases oneHost_eq_some hparse with rfl | rfl <;> decide
  read_back := by
    intro authority host scheme _ hparse hne
    rcases oneHost_eq_some hparse with rfl | rfl
    · rw [canonicalHost_oneHost _ _ _ (by decide) (by decide)] at hne
      exact absurd rfl hne
    · rw [canonicalHost_oneHost _ _ _ (by decide) (by decide)]
      rfl

/-- The parts of an address. -/
def plainURL : URL :=
  { scheme := "http", host := "host", path := [0x2f], rawQuery := "a=1".toList,
    authority := "host".toList, rawPath := ['/'] }

theorem canonical_identities_plain :
    parseURL oneHost (trimSpace "http://host/?a=1") = some plainURL ∧
    canonicalHTTPURL oneHost asciiUnicode "http://host/?a=1" = some "http://host/?a=1" ∧
    plainURL.Named := by
  have hparse : parseURL oneHost (trimSpace "http://host/?a=1") = some plainURL := by
    decide +kernel
  have hcanonical : canonicalHTTPURL oneHost asciiUnicode "http://host/?a=1" =
      some "http://host/?a=1" := by
    decide +kernel
  exact ⟨hparse, hcanonical, (@canonical_identities_iff oneHost asciiUnicode id _ _ _
    hostRules_oneHost _ _ _ hparse hcanonical hparse hcanonical).1.mp hcanonical⟩

/-- An address loses its host, and two addresses with different queries have one canonical form. -/
theorem canonical_forms_lose :
    canonicalHTTPURL some asciiUnicode "http://:80/" = some "http:///" ∧
    canonicalHTTPURL some asciiUnicode "http:///" = none ∧
    canonicalHTTPURL some asciiUnicode "http://h/?id;1" =
      canonicalHTTPURL some asciiUnicode "http://h/?id;2" ∧
    ¬ (decodedParameters "id;1".toList).Perm (decodedParameters "id;2".toList) := by
  decide +kernel

end EmbyAuto
