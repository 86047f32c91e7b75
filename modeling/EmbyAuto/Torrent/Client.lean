import EmbyAuto.Domain.Url

/-!
# Which torrent was added

The client of qBittorrent adds a torrent and then has to find out its hash. `AddAndConfirm`
lists the torrents before the request, and polls the list afterwards until one torrent stands
out: the one that the magnet link names, or the only one that was not there before. The second
rule also applies to magnet links, so a torrent that somebody else adds in the meantime can be
taken for the one that the link names.

## Main definitions

* `normalizeTorrentHash`, `extractBTIH`: the canonical hash of a torrent, and that of a link
* `existingCorrelatedTorrent`, `resolveAddedTorrentHash`, `resolveTorrentBySavePath`: the rules
* `addAndConfirm`: the request with its polls

## Main results

* `added_torrent_expected_iff`: when the torrent that is reported is the one of the link
-/

namespace EmbyAuto

/-! ## Hashes -/

structure Torrent where
  hash : String
  savePath : String := ""
  category : String := ""
  deriving DecidableEq

/-- The value of a digit in the standard base 32, in either case. -/
def base32Digit? (c : Char) : Option Nat :=
  let c := c.toUpper
  if 'A' ≤ c ∧ c ≤ 'Z' then some (c.toNat - 'A'.toNat)
  else if '2' ≤ c ∧ c ≤ '7' then some (c.toNat - '2'.toNat + 26)
  else none

/-- The hash in 40 lower-case hexadecimal digits, from those digits or from 32 digits in base
32; empty if the text is neither. -/
def normalizeTorrentHash (value : String) : String :=
  let digits := trimFunc isSpace value.toList
  if digits.length = 40 ∧ digits.all fun c => (unhex? c).isSome then
    .ofList (digits.map Char.toLower)
  else if digits.length = 32 then
    match digits.mapM base32Digit? with
    | some values => .ofList (hexDigits 40 (values.foldl (fun n d => 32 * n + d) 0))
    | none => ""
  else ""

/-- The distinct valid hashes of a listing. -/
def torrentHashes (torrents : List Torrent) : List String :=
  ((torrents.map fun t => normalizeTorrentHash t.hash).filter (· ≠ "")).dedup

/-- The hash of an exact topic `urn:btih:...`. -/
def topicHash (topic : List UInt8) : String :=
  if 9 < topic.length ∧ (decodeUTF8 (topic.take 9)).map Char.toLower = "urn:btih:".toList then
    normalizeTorrentHash (.ofList (decodeUTF8 (topic.drop 9)))
  else ""

/-! ## The rules -/

inductive HashResolutionReason where
  | magnet | existing | new
  deriving DecidableEq

structure HashResolution where
  hash : String
  reason : HashResolutionReason
  deriving DecidableEq

/-- The hashes that a listing shows and an earlier one does not. -/
def newHashes (before after : List Torrent) : List String :=
  (torrentHashes after).filter fun hash => hash ∉ torrentHashes before

/-- `strings.TrimRight(strings.TrimSpace(path), "/\\")`. -/
def normalizeSavePath (path : String) : String :=
  .ofList ((trimFunc isSpace path.toList).reverse.dropWhile
    fun c => c = '/' || c = '\\').reverse

/-- The torrent at a save path: none, one, or an error if several or an invalid one match. -/
def resolveTorrentBySavePath (torrents : List Torrent) (expectedSavePath : String) :
    Except Unit (Option HashResolution) :=
  let expected := normalizeSavePath expectedSavePath
  let found := torrents.filter fun t => normalizeSavePath t.savePath = expected
  if expected = "" then .ok none
  else if found.any fun t => normalizeTorrentHash t.hash = "" then .error ()
  else match torrentHashes found with
    | [] => .ok none
    | [hash] => .ok (some ⟨hash, .existing⟩)
    | _ => .error ()

section Rules

variable (parseAuthority : String → Option String)

/-- The hash that a magnet link names; empty if there is none. -/
@[irreducible] def extractBTIH (source : String) : String :=
  match parseURL parseAuthority (trimSpace source) with
  | some url =>
    if url.scheme = "magnet" then
      (((url.queryValues "xt").map topicHash).find? (· ≠ "")).getD ""
    else ""
  | none => ""

/-- A torrent that is there already: the one that the link names or, for a source without a
hash, the only one of the listing. -/
def existingCorrelatedTorrent (torrents : List Torrent) (source : String) :
    Option HashResolution :=
  let expected := extractBTIH parseAuthority source
  if expected ≠ "" then
    if expected ∈ torrentHashes torrents then some ⟨expected, .existing⟩ else none
  else match torrentHashes torrents with
    | [hash] => some ⟨hash, .existing⟩
    | _ => none

/-- The torrent that appeared between two listings. -/
def resolveAddedTorrentHash (before after : List Torrent) (source : String) :
    Option HashResolution :=
  let expected := extractBTIH parseAuthority source
  if expected ≠ "" ∧ expected ∈ torrentHashes after then
    some ⟨expected, if expected ∈ torrentHashes before then .existing else .magnet⟩
  else match newHashes before after with
    | [hash] => some ⟨hash, .new⟩
    | _ => none

/-! ## Adding a torrent -/

structure AddRequest where
  source : String := ""
  torrent : List UInt8 := []
  torrentFilename : String := ""
  savePath : String
  category : String

inductive ClientError where
  /-- a request that is not sent -/
  | invalid (message : String)
  /-- a request that fails -/
  | request (message : String)
  | hashNotConfirmed (expected : String)
  /-- the context of the call ended -/
  | interrupted
  deriving DecidableEq

/-- What the service answers during one call. -/
structure Conversation where
  before : Except ClientError (List Torrent)
  added : Except ClientError Unit
  /-- the listings that are polled until the waiting ends -/
  polls : List (Except ClientError (List Torrent))
  /-- whether the deadline ends the waiting, or the context of the call -/
  deadline : Bool

/-- The loop of `AddAndConfirm`. -/
def confirmAdded (before : List Torrent) (source : String) (deadline : Bool) :
    List (Except ClientError (List Torrent)) → Except ClientError HashResolution
  | [] =>
    .error (if deadline then .hashNotConfirmed (extractBTIH parseAuthority source)
      else .interrupted)
  | .error err :: _ => .error err
  | .ok after :: polls =>
    match resolveAddedTorrentHash parseAuthority before after source with
    | some resolution => .ok resolution
    | none => confirmAdded before source deadline polls

/-- The checks of a request, with its trimmed source. -/
def AddRequest.check (request : AddRequest) : Except ClientError String :=
  let source := trimSpace request.source
  if request.torrent ≠ [] ∧ source ≠ "" then
    .error (.invalid "torrent source and torrent bytes are mutually exclusive")
  else if request.torrent = [] ∧ source = "" then
    .error (.invalid "torrent source must not be blank")
  else if trimSpace request.category = "" then
    .error (.invalid "torrent category must not be blank")
  else .ok source

/-- `AddAndConfirm`, given what the service answers in the scope that it asks for. -/
def addAndConfirm (request : AddRequest) (service : Conversation) :
    Except ClientError HashResolution :=
  match request.check with
  | .error err => .error err
  | .ok source =>
    match service.before with
    | .error err => .error err
    | .ok before =>
      match existingCorrelatedTorrent parseAuthority before source with
      | some resolution => .ok resolution
      | none =>
        match service.added with
        | .error err => .error err
        | .ok _ => confirmAdded parseAuthority before source service.deadline service.polls

end Rules

/-! ## Which torrent is reported -/

section Expected

variable {parseAuthority : String → Option String} {source : String}
variable {before after : List Torrent}

/-- One poll reports the torrent of the link unless the listing lacks it and shows exactly one
other new torrent. -/
theorem resolveAdded_expected_iff (before after : List Torrent)
    (hlink : extractBTIH parseAuthority source ≠ "") :
    (∀ r, resolveAddedTorrentHash parseAuthority before after source = some r →
        r.hash = extractBTIH parseAuthority source) ↔
      extractBTIH parseAuthority source ∈ torrentHashes after ∨
        (newHashes before after).length ≠ 1 := by
  unfold resolveAddedTorrentHash
  by_cases hlisted : extractBTIH parseAuthority source ∈ torrentHashes after
  · refine iff_of_true (fun r hr => ?_) (.inl hlisted)
    simp only [ne_eq, hlink, not_false_eq_true, hlisted, and_self, if_true,
      Option.some.injEq] at hr
    rw [← hr]
  · simp only [hlisted]
    cases hnew : newHashes before after with
    | nil => simp
    | cons hash rest =>
      cases rest with
      | nil =>
        have hmem : hash ∈ newHashes before after := hnew ▸ List.mem_singleton_self hash
        have hne : hash ≠ extractBTIH parseAuthority source :=
          fun heq => hlisted (heq ▸ List.mem_of_mem_filter hmem)
        simpa using hne
      | cons other rest => simp

/-- Until a poll shows the torrent of the link, no poll shows exactly one new torrent. -/
def NoOtherAlone (expected : String) (before : List Torrent)
    (polls : List (Except ClientError (List Torrent))) : Prop :=
  ∀ earlier after later, polls = earlier ++ .ok after :: later →
    (∀ poll ∈ earlier, ∃ listing, poll = .ok listing ∧ expected ∉ torrentHashes listing) →
    expected ∉ torrentHashes after → (newHashes before after).length ≠ 1

theorem noOtherAlone_ok {expected : String} {polls} :
    NoOtherAlone expected before (.ok after :: polls) ↔
      expected ∈ torrentHashes after ∨
        (newHashes before after).length ≠ 1 ∧ NoOtherAlone expected before polls := by
  constructor
  · intro h
    by_cases hlisted : expected ∈ torrentHashes after
    · exact .inl hlisted
    · refine .inr ⟨h [] after polls rfl (fun _ h => absurd h List.not_mem_nil) hlisted, ?_⟩
      intro earlier next later hpolls hearlier
      refine h (.ok after :: earlier) next later (by rw [hpolls]; rfl) ?_
      intro poll hpoll
      rcases List.mem_cons.mp hpoll with rfl | hpoll
      · exact ⟨after, rfl, hlisted⟩
      · exact hearlier poll hpoll
  · intro h earlier next later hpolls hearlier hnext
    cases earlier with
    | nil =>
      obtain ⟨hpoll, -⟩ := List.cons.inj hpolls
      cases hpoll
      exact (h.resolve_left hnext).1
    | cons poll earlier =>
      obtain ⟨rfl, hrest⟩ := List.cons.inj hpolls
      obtain ⟨listing, hok, hlisting⟩ := hearlier _ List.mem_cons_self
      cases hok
      refine (h.resolve_left hlisting).2 earlier next later hrest ?_ hnext
      exact fun poll hpoll => hearlier poll (List.mem_cons_of_mem _ hpoll)

/-- A poll settles the torrent if the listing shows that of the link or one new torrent. -/
theorem resolveAdded_isSome_iff (before after : List Torrent)
    (hlink : extractBTIH parseAuthority source ≠ "") :
    (resolveAddedTorrentHash parseAuthority before after source).isSome ↔
      extractBTIH parseAuthority source ∈ torrentHashes after ∨
        (newHashes before after).length = 1 := by
  unfold resolveAddedTorrentHash
  by_cases hlisted : extractBTIH parseAuthority source ∈ torrentHashes after
  · simp [hlink, hlisted]
  · simp only [hlisted]
    cases newHashes before after with
    | nil => simp
    | cons hash rest =>
      cases rest with
      | nil => simp
      | cons other rest => simp

/-- The polls report the torrent of the link unless another one shows up alone before it. -/
theorem confirmAdded_expected_iff (hlink : extractBTIH parseAuthority source ≠ "")
    (deadline : Bool) (polls : List (Except ClientError (List Torrent))) :
    (∀ r, confirmAdded parseAuthority before source deadline polls = .ok r →
        r.hash = extractBTIH parseAuthority source) ↔
      NoOtherAlone (extractBTIH parseAuthority source) before polls := by
  induction polls with
  | nil =>
    refine iff_of_true (fun r h => ?_) fun earlier _ _ h => by cases earlier <;> cases h
    cases h
  | cons poll polls ih =>
    cases poll with
    | error err =>
      refine iff_of_true (fun r h => ?_) fun earlier after later h hearlier => ?_
      · cases h
      · cases earlier with
        | nil => cases h
        | cons poll _ =>
          obtain ⟨rfl, -⟩ := List.cons.inj h
          obtain ⟨_, hok, -⟩ := hearlier _ List.mem_cons_self
          cases hok
    | ok after =>
      have hone := resolveAdded_expected_iff before after hlink
      have hsettled := resolveAdded_isSome_iff before after hlink
      rw [noOtherAlone_ok, confirmAdded]
      cases hresolve : resolveAddedTorrentHash parseAuthority before after source with
      | some r =>
        -- the poll ends the loop, so the later ones do not matter
        simp only [hresolve, Option.some.injEq, forall_eq', Option.isSome_some, true_iff]
          at hone hsettled
        simp only [Except.ok.injEq, forall_eq', hone]
        rcases hsettled with hlisted | hsingle
        · exact iff_of_true (.inl hlisted) (.inl hlisted)
        · exact or_congr_right ⟨fun h => absurd hsingle h, fun h => h.1⟩
      | none =>
        simp only [hresolve, Option.isSome_none, Bool.false_eq_true, false_iff, not_or]
          at hsettled
        rw [ih]
        exact ⟨fun h => .inr ⟨hsettled.2, h⟩, fun h => (h.resolve_left hsettled.1).2⟩

theorem extractBTIH_trimSpace (parseAuthority : String → Option String) (source : String) :
    extractBTIH parseAuthority (trimSpace source) = extractBTIH parseAuthority source := by
  unfold extractBTIH
  rw [trimSpace_trimSpace]

theorem AddRequest.check_ok {request : AddRequest} {trimmed : String}
    (h : request.check = .ok trimmed) : trimmed = trimSpace request.source := by
  simp only [AddRequest.check] at h
  split at h
  · cases h
  split at h
  · cases h
  split at h
  · cases h
  · exact (Except.ok.inj h).symm

/-- While the request of a link is confirmed, no other torrent shows up alone. -/
def ShowsNoOtherAlone (expected : String) (request : AddRequest) (service : Conversation) : Prop :=
  ∀ trimmed before, request.check = .ok trimmed → service.before = .ok before →
    expected ∉ torrentHashes before → service.added = .ok () →
      NoOtherAlone expected before service.polls

theorem addAndConfirm_expected_iff {request : AddRequest} (service : Conversation)
    (hlink : extractBTIH parseAuthority request.source ≠ "") :
    (∀ r, addAndConfirm parseAuthority request service = .ok r →
        r.hash = extractBTIH parseAuthority request.source) ↔
      ShowsNoOtherAlone (extractBTIH parseAuthority request.source) request service := by
  unfold addAndConfirm ShowsNoOtherAlone
  cases hcheck : request.check with
  | error err => simp
  | ok trimmed =>
    obtain rfl := AddRequest.check_ok hcheck
    rw [← extractBTIH_trimSpace] at hlink ⊢
    cases service.before with
    | error err => simp
    | ok before =>
      simp only [existingCorrelatedTorrent, ne_eq, hlink, not_false_eq_true,
        if_true]
      by_cases hlisted :
          extractBTIH parseAuthority (trimSpace request.source) ∈ torrentHashes before
      · simp [hlisted]
      · simp only [hlisted, if_false]
        cases service.added with
        | error err => simp
        | ok _ =>
          rw [confirmAdded_expected_iff hlink]
          simp [hlisted]

/-- **The torrent of a link.** For a source that names a hash, a pair of listings resolves to
that hash only, unless the second one lacks it and shows exactly one other new torrent; and a
request is confirmed with that hash only, unless such a listing is polled first. -/
theorem added_torrent_expected_iff (parseAuthority : String → Option String) (source : String)
    (hlink : extractBTIH parseAuthority source ≠ "") : (∀ before after : List Torrent,
      (∀ r, resolveAddedTorrentHash parseAuthority before after source = some r →
          r.hash = extractBTIH parseAuthority source) ↔
        extractBTIH parseAuthority source ∈ torrentHashes after ∨
          (newHashes before after).length ≠ 1) ∧
    ∀ (request : AddRequest) (service : Conversation), request.source = source →
      ((∀ r, addAndConfirm parseAuthority request service = .ok r →
          r.hash = extractBTIH parseAuthority source) ↔
        ShowsNoOtherAlone (extractBTIH parseAuthority source) request service) := by
  refine ⟨fun before after => resolveAdded_expected_iff before after hlink, ?_⟩
  rintro request service rfl
  exact addAndConfirm_expected_iff service hlink

end Expected

/-! ## A link next to another torrent -/

/-- The hash of a link, and that of a torrent which somebody else adds. -/
def linkHash : String := "c12fe1c06bba254a9dc9f519b335aa7c1367a88a"

def otherHash : String := "0123456789abcdef0123456789abcdef01234567"

def magnetLink : String := "magnet:?xt=urn:btih:" ++ linkHash

theorem extractBTIH_magnetLink : extractBTIH some magnetLink = linkHash := by
  decide +kernel

def linkRequest : AddRequest where
  source := magnetLink
  savePath := "/downloads/1"
  category := "emby-auto-1"

/-- A listing with both torrents resolves to that of the link. -/
theorem added_torrent_expected_both :
    extractBTIH some magnetLink ≠ "" ∧
      ∀ r, resolveAddedTorrentHash some [] [⟨otherHash, "", ""⟩, ⟨linkHash, "", ""⟩] magnetLink =
        some r → r.hash = linkHash := by
  have hlink : extractBTIH some magnetLink ≠ "" := by
    rw [extractBTIH_magnetLink]
    decide
  refine ⟨hlink, ?_⟩
  rw [← extractBTIH_magnetLink]
  refine ((added_torrent_expected_iff some magnetLink hlink).1 _ _).mpr (.inl ?_)
  rw [extractBTIH_magnetLink]
  decide +kernel

theorem resolveAdded_other :
    resolveAddedTorrentHash some [] [⟨otherHash, "", ""⟩] magnetLink =
      some ⟨otherHash, .new⟩ := by
  simp only [resolveAddedTorrentHash, extractBTIH_magnetLink]
  decide +kernel

theorem existingCorrelatedTorrent_nil : existingCorrelatedTorrent some [] magnetLink = none := by
  simp only [existingCorrelatedTorrent, extractBTIH_magnetLink]
  decide +kernel

/-- **Another torrent is adopted.** It shows up before that of the link does, and both the pair
of listings and the request resolve to it. -/
theorem other_torrent_adopted :
    extractBTIH some magnetLink = linkHash ∧ otherHash ≠ linkHash ∧
      resolveAddedTorrentHash some [] [⟨otherHash, "", ""⟩] magnetLink = some ⟨otherHash, .new⟩ ∧
      addAndConfirm some linkRequest ⟨.ok [], .ok (), [.ok [⟨otherHash, "", ""⟩]], true⟩ =
        .ok ⟨otherHash, .new⟩ := by
  refine ⟨extractBTIH_magnetLink, by decide, resolveAdded_other, ?_⟩
  simp [addAndConfirm, (by decide +kernel : linkRequest.check = .ok magnetLink),
    existingCorrelatedTorrent_nil, confirmAdded,
    resolveAdded_other]

end EmbyAuto
