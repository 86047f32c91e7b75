import EmbyAuto.Torrent.Enqueue

/-!
# What a compensation removes

A handler that fails removes the torrent that it takes for its own. The torrent appeared after
the first listing of its run, whatever the service does: torrents keep their numbers, and none
moves into the category of a download. That no other download stored it takes more: while one run
owns a torrent, no other run may come to resolve it.

## Main definitions

* `Safe`: the invariant of all runs

## Main results

* `Safe.step`: every step that meets the condition keeps the invariant
* `compensation_spares_others`: the compensations of such runs
-/

namespace EmbyAuto

open Relational

/-- The run owns the torrent with the hash: it removes it when it fails. -/
def Phase.Owns : Phase → String → Prop
  | .resolved _ resolution, hash => resolution.reason ≠ .existing ∧ resolution.hash = hash
  | .failed _ found, hash => found = hash
  | _, _ => False

theorem Phase.Owns.holds {p : Phase} {hash : String} (h : p.Owns hash) : p.Holds hash := by
  cases p with
  | resolved first resolution => exact h.2
  | failed first found => exact h
  | _ => exact h

/-! ## The invariant -/

section Invariant

variable (setting : EnqueueSetting) (w : World)

/-- No torrent with the hash was there at the first listing. -/
def Spares (first : List Nat) (hash : String) : Prop :=
  ∀ t ∈ w.torrents, t.key = hash → t.serial ∉ first

/-- What a run relies on about the torrents that were there at its first listing. -/
def RunSafe (d : UUID) : Phase → Prop
  | .idle | .ready => True
  | .looked first => ∀ n ∈ first, n < w.serial
  | .listed first before | .confirming first before =>
    (∀ n ∈ first, n < w.serial) ∧ ∀ t ∈ w.torrents, t.serial ∈ first →
      setting.inScope d t.torrent = true → t.key ≠ "" → t.key ∈ torrentHashes before
  | .resolved first resolution =>
    (∀ n ∈ first, n < w.serial) ∧ (resolution.reason ≠ .existing → Spares w first resolution.hash)
  | .failed first hash => (∀ n ∈ first, n < w.serial) ∧ Spares w first hash

/-- The client is in order, the runs are, and what one run owns no other download holds. -/
structure Safe : Prop where
  client : ClientOK w.torrents w.serial
  runs : ∀ d, RunSafe setting w d (w.runs d)
  exclusive : ∀ d hash, (w.runs d).Owns hash → ∀ other, other ≠ d → ¬ w.Holds other hash

end Invariant

section Preservation

variable {setting : EnqueueSetting} {w w' : World} {d : UUID} {p : Phase}
variable {first : List Nat} {hash : String}

/-- The client may change under a run: what was there before was in every scope in which it is. -/
theorem RunSafe.served {torrents : List ClientTorrent} {serial : Nat}
    (h : RunSafe setting w d p) (hw : Served w torrents serial) :
    RunSafe setting { w with torrents, serial } d p := by
  have later {first : List Nat} (hold : ∀ n ∈ first, n < w.serial) : ∀ n ∈ first, n < serial :=
    fun n hn => (hold n hn).trans_le hw.serial_le
  have spares {first : List Nat} {hash} (hold : ∀ n ∈ first, n < w.serial)
      (hspares : Spares w first hash) : Spares { w with torrents, serial } first hash := by
    intro t' ht' hkey hmem
    rcases hw.kept t' ht' with hnew | ⟨t, ht, hserial, hkey', -⟩
    · exact absurd (hold _ hmem) (Nat.not_lt.mpr hnew)
    · exact hspares t ht (hkey'.trans hkey) (hserial ▸ hmem)
  cases p with
  | idle | ready => exact trivial
  | looked first => exact later h
  | listed first before | confirming first before =>
    refine ⟨later h.1, fun t' ht' hmem hscope hne => ?_⟩
    rcases hw.kept t' ht' with hnew | ⟨t, ht, hserial, hkey, hcategory⟩
    · exact absurd (h.1 _ hmem) (Nat.not_lt.mpr hnew)
    · rw [← hkey] at hne ⊢
      refine h.2 t ht (hserial ▸ hmem) ?_ hne
      simp only [EnqueueSetting.inScope, Bool.or_eq_true, decide_eq_true_eq] at hscope ⊢
      exact hscope.imp_right fun hin =>
        hcategory.elim (fun hsame => hsame.symm.trans hin) fun hnone => absurd hin (hnone d)
  | resolved first resolution => exact ⟨later h.1, fun hr => spares h.1 (h.2 hr)⟩
  | failed first hash => exact ⟨later h.1, spares h.1 h.2⟩

theorem Safe.served {torrents : List ClientTorrent} {serial : Nat} (h : Safe setting w)
    (hw : Served w torrents serial) : Safe setting { w with torrents, serial } where
  client := hw.client
  runs d := (h.runs d).served hw
  exclusive := h.exclusive

@[simp] theorem setRun_runs_self : (w.setRun d p).runs d = p := Function.update_self ..

theorem setRun_runs_ne {other : UUID} (h : other ≠ d) : (w.setRun d p).runs other = w.runs other :=
  Function.update_of_ne h ..

/-- One run goes on: what it newly holds, no other run owns, and what it newly owns, no other
download holds. -/
theorem Safe.setRun (h : Safe setting w) (hp : RunSafe setting w d p)
    (hheld : ∀ hash, p.Holds hash → w.Holds d hash ∨ ∀ other, other ≠ d → ¬ w.Holds other hash)
    (howned : ∀ hash, p.Owns hash →
      (w.runs d).Owns hash ∨ ∀ other, other ≠ d → ¬ w.Holds other hash) :
    Safe setting (w.setRun d p) where
  client := h.client
  runs e := by
    have same : RunSafe setting (w.setRun d p) e = RunSafe setting w e := rfl
    by_cases he : e = d
    · subst he
      rw [setRun_runs_self, same]
      exact hp
    · rw [setRun_runs_ne he, same]
      exact h.runs e
  exclusive e hash howns other hne hholds := by
    have hrecords : (w.setRun d p).records = w.records := rfl
    rw [World.Holds, hrecords] at hholds
    by_cases he : e = d
    · -- the run that moved owns the hash
      subst he
      rw [setRun_runs_self] at howns
      rw [setRun_runs_ne hne] at hholds
      rcases howned hash howns with hbefore | hnone
      · exact h.exclusive e hash hbefore other hne hholds
      · exact hnone other hne hholds
    · rw [setRun_runs_ne he] at howns
      by_cases ho : other = d
      · -- the run that moved holds what another one owns
        subst ho
        rw [setRun_runs_self] at hholds
        rcases hholds with hnow | hrecord
        · rcases hheld hash hnow with hbefore | hnone
          · exact h.exclusive e hash howns other hne hbefore
          · exact hnone e he (.inl howns.holds)
        · exact h.exclusive e hash howns other hne (.inr hrecord)
      · rw [setRun_runs_ne ho] at hholds
        exact h.exclusive e hash howns other hne hholds

/-- A run that holds nothing afterwards. -/
theorem Safe.release (h : Safe setting w) (hp : RunSafe setting w d p)
    (hnone : ∀ hash, ¬ p.Holds hash) : Safe setting (w.setRun d p) :=
  h.setRun hp (fun hash hh => absurd hh (hnone hash))
    fun hash hh => absurd hh.holds (hnone hash)

/-- A run that resolves a torrent which it is after and no other download holds. -/
theorem Safe.resolve {resolution} (h : Safe setting w)
    (hp : RunSafe setting w d (.resolved first resolution)) (hunshared : w.Unshared setting d)
    (hnames : w.Names setting d resolution.hash) :
    Safe setting (w.setRun d (.resolved first resolution)) := by
  refine h.setRun hp (fun hash hheld => .inr ?_) fun hash howned => .inr ?_
  · rw [← show resolution.hash = hash from hheld]
    exact hunshared _ hnames
  · rw [← show resolution.hash = hash from howned.2]
    exact hunshared _ hnames

/-- A run that fails keeps what it owns and gives up the rest. -/
theorem Safe.failRun {resolution} (h : Safe setting w)
    (hrun : w.runs d = .resolved first resolution) :
    Safe setting (w.failRun d first resolution) := by
  have hp := h.runs d
  rw [hrun] at hp
  unfold World.failRun
  split
  · exact h.release trivial fun _ hheld => hheld
  next hreason =>
  refine h.setRun ⟨hp.1, hp.2 hreason⟩ (fun hash hheld => .inl (.inl ?_)) fun hash howned => .inl ?_
  · rw [hrun]
    exact hheld
  · rw [hrun]
    exact ⟨hreason, howned⟩

/-- The hash of a run is stored for its download. -/
theorem Safe.record (h : Safe setting w) (hheld : (w.runs d).Holds hash) (db : Database) :
    Safe setting { w with db, records := (d, hash) :: w.records } where
  client := h.client
  runs := h.runs
  exclusive e owned howns other hne hholds := by
    rcases hholds with hrun | hrecord
    · exact h.exclusive e owned howns other hne (.inl hrun)
    · rcases List.mem_cons.mp hrecord with heq | hrecord
      · cases heq
        exact h.exclusive e _ howns _ hne (.inl hheld)
      · exact h.exclusive e owned howns other hne (.inr hrecord)

end Preservation

/-! ## What a listing resolves -/

section Listings

variable {setting : EnqueueSetting} {w : World} {d : UUID} {hash : String}
variable {resolution : HashResolution} {before : List Torrent} {first : List Nat}

theorem mem_torrentHashes {torrents : List Torrent} : hash ∈ torrentHashes torrents ↔
      hash ≠ "" ∧ ∃ t ∈ torrents, normalizeTorrentHash t.hash = hash := by
  rw [torrentHashes, List.mem_dedup, List.mem_filter, List.mem_map, decide_eq_true_eq, and_comm]

/-- A hash of a listing is that of a torrent of the client in the scope. -/
theorem mem_torrentHashes_listing :
    hash ∈ torrentHashes (w.listing setting d) ↔
      hash ≠ "" ∧ ∃ t ∈ w.torrents, t.key = hash ∧ setting.inScope d t.torrent = true := by
  rw [mem_torrentHashes]
  refine and_congr_right fun _ => ⟨?_, ?_⟩
  · rintro ⟨t, ht, hkey⟩
    obtain ⟨hmem, hscope⟩ := List.mem_filter.mp ht
    obtain ⟨c, hc, rfl⟩ := List.mem_map.mp hmem
    exact ⟨c, hc, hkey, hscope⟩
  · rintro ⟨c, hc, hkey, hscope⟩
    exact ⟨c.torrent, List.mem_filter.mpr ⟨List.mem_map_of_mem hc, hscope⟩, hkey⟩

/-- Without a link, a listing shows the torrents of the download's own category. -/
theorem names_of_listing (hlink : setting.link d = "")
    (h : hash ∈ torrentHashes (w.listing setting d)) : w.Names setting d hash := by
  obtain ⟨-, t, ht, hkey, hscope⟩ := mem_torrentHashes_listing.mp h
  simp only [EnqueueSetting.inScope, hlink, ne_eq, not_true_eq_false, decide_false, Bool.false_or,
    decide_eq_true_eq] at hscope
  exact .inr ⟨t, ht, hkey, .inl hscope⟩

theorem existingCorrelatedTorrent_names
    (h : existingCorrelatedTorrent setting.parseAuthority (w.listing setting d)
      (setting.requestSource d) = some resolution) :
    resolution.reason = .existing ∧ w.Names setting d resolution.hash := by
  simp only [existingCorrelatedTorrent] at h
  split at h
  · next hlink =>
    split at h
    · cases h
      exact ⟨rfl, .inl ⟨hlink, rfl⟩⟩
    · cases h
  next hlink =>
  split at h
  · next found hfound =>
    cases h
    refine ⟨rfl, names_of_listing (not_not.mp hlink) ?_⟩
    rw [hfound]
    exact List.mem_singleton_self _
  · cases h

theorem resolveTorrentBySavePath_names
    (h : resolveTorrentBySavePath (w.torrents.map ClientTorrent.torrent) (setting.savePath d) =
      .ok (some resolution)) :
    resolution.reason = .existing ∧ w.Names setting d resolution.hash := by
  simp only [resolveTorrentBySavePath] at h
  split at h
  · cases h
  split at h
  · cases h
  split at h
  · cases h
  · next found hfound =>
    cases h
    have hmem : found ∈ torrentHashes _ := hfound ▸ List.mem_singleton_self found
    obtain ⟨-, t, ht, hkey⟩ := mem_torrentHashes.mp hmem
    obtain ⟨ht, hpath⟩ := List.mem_filter.mp ht
    obtain ⟨c, hc, rfl⟩ := List.mem_map.mp ht
    exact ⟨rfl, .inr ⟨c, hc, hkey, .inr (of_decide_eq_true hpath)⟩⟩
  · cases h

/-- A torrent that a poll takes for a new one is in the listing and was not in the first one. -/
theorem resolveAdded_new {source : String} {after : List Torrent}
    (h : resolveAddedTorrentHash setting.parseAuthority before after source = some resolution)
    (hreason : resolution.reason ≠ .existing) :
    resolution.hash ∈ torrentHashes after ∧ resolution.hash ∉ torrentHashes before := by
  simp only [resolveAddedTorrentHash] at h
  split at h
  · next hlisted =>
    cases h
    refine ⟨hlisted.2, fun hbefore => hreason ?_⟩
    rw [if_pos hbefore]
  · split at h
    · next found hfound =>
      cases h
      have hmem : found ∈ newHashes before after := hfound ▸ List.mem_singleton_self found
      obtain ⟨hafter, hbefore⟩ := List.mem_filter.mp hmem
      exact ⟨hafter, of_decide_eq_true hbefore⟩
    · cases h

/-- A poll resolves a torrent that the download is after. -/
theorem resolveAdded_names (hrun : w.runs d = .confirming first before)
    (halone : w.NoneAlone setting d)
    (h : resolveAddedTorrentHash setting.parseAuthority before (w.listing setting d)
      (setting.requestSource d) = some resolution) :
    w.Names setting d resolution.hash := by
  by_cases hlink : setting.link d = ""
  · -- without a link, only the category of the download is listed
    simp only [resolveAddedTorrentHash] at h
    split at h
    · next hlisted => exact absurd hlink hlisted.1
    · split at h
      · next found hfound =>
        cases h
        have hmem : found ∈ newHashes before _ := hfound ▸ List.mem_singleton_self found
        exact names_of_listing hlink (List.mem_of_mem_filter hmem)
      · cases h
  · exact .inl ⟨hlink,
      (resolveAdded_expected_iff before _ hlink).mpr (halone first before hrun hlink) _ h⟩

/-- What a poll resolves was not there at the first listing. -/
theorem runSafe_of_poll (hclient : ClientOK w.torrents w.serial)
    (hp : RunSafe setting w d (.confirming first before))
    (h : resolveAddedTorrentHash setting.parseAuthority before (w.listing setting d)
      (setting.requestSource d) = some resolution) :
    RunSafe setting w d (.resolved first resolution) := by
  refine ⟨hp.1, fun hreason t ht hkey hmem => ?_⟩
  obtain ⟨hafter, hbefore⟩ := resolveAdded_new h hreason
  obtain ⟨hne, shown, hshown, hshownKey, hscope⟩ := mem_torrentHashes_listing.mp hafter
  -- the client holds one torrent for the hash, and the listing shows it
  have hserial := hclient.distinct t ht shown hshown (hkey.trans hshownKey.symm) (hkey ▸ hne)
  refine hbefore ?_
  rw [← hshownKey]
  exact hp.2 shown hshown (hserial ▸ hmem) hscope (hshownKey ▸ hne)

end Listings

/-! ## Steps and runs -/

section Steps

variable {setting : EnqueueSetting} {w w₀ : World} {d : UUID} {first : List Nat}

/-- The first listing of `AddAndConfirm`. -/
theorem Safe.listFirst (h : Safe setting w) (hold : ∀ n ∈ first, n < w.serial)
    (hunshared : w.Unshared setting d) : Safe setting (World.step.listFirst setting w d first) := by
  unfold World.step.listFirst
  split
  · next resolution hresolution =>
    obtain ⟨hreason, hnames⟩ := existingCorrelatedTorrent_names hresolution
    exact h.resolve ⟨hold, fun hne => absurd hreason hne⟩ hunshared hnames
  · refine h.release ⟨hold, fun t ht _ hscope hne => ?_⟩ fun _ hheld => hheld
    exact mem_torrentHashes_listing.mpr ⟨hne, t, ht, rfl, hscope⟩

theorem Safe.serials_lt (h : Safe setting w) : ∀ n ∈ w.serials, n < w.serial := by
  intro n hn
  obtain ⟨t, ht, rfl⟩ := List.mem_map.mp hn
  exact h.client.fresh t ht

theorem Safe.lookAtSavePath (h : Safe setting w) (hunshared : w.Unshared setting d) :
    Safe setting (w.step setting (.lookAtSavePath d)) := by
  simp only [World.step]
  split
  · split
    · split
      · next resolution hresolution =>
        obtain ⟨hreason, hnames⟩ := resolveTorrentBySavePath_names hresolution
        exact h.resolve ⟨h.serials_lt, fun hne => absurd hreason hne⟩ hunshared hnames
      · exact h.release h.serials_lt fun _ hheld => hheld
      · exact h.release trivial fun _ hheld => hheld
    · exact h
  · exact h

theorem Safe.listBefore (h : Safe setting w) (hunshared : w.Unshared setting d) :
    Safe setting (w.step setting (.listBefore d)) := by
  simp only [World.step]
  have hp := h.runs d
  split
  · split
    · exact h.listFirst h.serials_lt hunshared
    · exact h
  · next first hrun =>
    rw [hrun] at hp
    exact h.listFirst hp hunshared
  · exact h

theorem Safe.poll (h : Safe setting w) (hunshared : w.Unshared setting d)
    (halone : w.NoneAlone setting d) : Safe setting (w.step setting (.poll d)) := by
  simp only [World.step]
  have hp := h.runs d
  split
  · next first before hrun =>
    rw [hrun] at hp
    split
    · next resolution hresolution =>
      exact h.resolve (runSafe_of_poll h.client hp hresolution) hunshared
        (resolveAdded_names hrun halone hresolution)
    · exact h
  · exact h

theorem Safe.add (h : Safe setting w) (accepted : Bool) :
    Safe setting (w.step setting (.add d accepted)) := by
  simp only [World.step]
  have hp := h.runs d
  split
  · next first before hrun =>
    rw [hrun] at hp
    cases accepted with
    | true => exact h.release hp fun _ hheld => hheld
    | false => exact h.release trivial fun _ hheld => hheld
  · exact h

theorem Safe.complete (h : Safe setting w) {legacy : Bool} {new : NewOperation}
    {fileID : Nat → UUID} {completion} {answered : Bool} :
    Safe setting (w.step setting (.complete d legacy new fileID completion answered)) := by
  simp only [World.step]
  split
  · next first resolution hrun =>
    split
    · next db hdb =>
      have hheld : (w.runs d).Holds resolution.hash := by
        rw [hrun]
        exact rfl
      have hrecorded := h.record hheld db
      cases answered with
      | true => exact hrecorded.release trivial fun _ hheld => hheld
      | false => exact hrecorded.failRun hrun
    · exact h.failRun hrun
  · exact h

/-- **Steps keep the invariant** if they meet the condition. -/
theorem Safe.step {action : Action} (h : Safe setting w) (allowed : action.Allowed w)
    (meets : action.Meets setting w) : Safe setting (w.step setting action) := by
  cases action with
  | lookAtSavePath d => exact h.lookAtSavePath meets
  | listBefore d => exact h.listBefore meets
  | poll d => exact h.poll meets.1 meets.2
  | add d accepted => exact h.add accepted
  | complete d legacy new fileID completion answered => exact h.complete
  | begin d | giveUp d | compensate d =>
    simp only [World.step]
    split <;> first | exact h.release trivial fun _ hheld => hheld | exact h
  | fail d =>
    simp only [World.step]
    split
    · next first resolution hrun => exact h.failRun hrun
    · exact h
  | serve torrents serial => exact h.served allowed
  | elsewhere db => exact ⟨h.client, h.runs, h.exclusive⟩

theorem Initial.safe (h : Initial w) : Safe setting w where
  client := h.client
  runs d := by
    rw [h.idle d]
    exact trivial
  exclusive d hash howns := by
    rw [h.idle d] at howns
    exact absurd howns id

theorem EnqueueRun.safe (hinit : Initial w₀)
    (run : EnqueueRun setting (fun w action => action.Meets setting w) w₀ w) : Safe setting w := by
  induction run with
  | start => exact hinit.safe
  | next _ action allowed meets ih => exact ih.step allowed meets

/-- **Compensations spare the others.** In every run in which no two downloads are after one
torrent, and no foreign torrent shows up alone before that of a link, a compensation deletes no
torrent that was there before its run and none that another download stored. -/
theorem compensation_spares_others (setting : EnqueueSetting) {w₀ w : World} (hinit : Initial w₀)
    (run : EnqueueRun setting (fun w action => action.Meets setting w) w₀ w) (d : UUID) :
    w.SparesOthers d := by
  have hsafe := run.safe hinit
  intro first hash hrun t ht hkey
  have hp := hsafe.runs d
  rw [hrun] at hp
  refine ⟨hp.2 t ht hkey, fun other hne hrecord => ?_⟩
  have howns : (w.runs d).Owns hash := by
    rw [hrun]
    exact rfl
  exact hsafe.exclusive d hash howns other hne (.inr hrecord)

end Steps

/-! ## One link for two downloads -/

def twinSetting : EnqueueSetting where
  parseAuthority := some
  source _ := magnetLink
  downloadRoot := "/downloads"

def twinWorld : World where
  torrents := []
  serial := 0
  db := { resources := { downloads := ⟨[
    { id := 1, acquisitionID := 11 }, { id := 2, acquisitionID := 12 }], by decide⟩ } }

theorem twinWorld_initial : Initial twinWorld where
  idle _ := rfl
  client := ⟨List.forall_mem_nil _, List.forall_mem_nil _⟩

/-- The torrent of the link. -/
def twinTorrent : ClientTorrent := ⟨0, { hash := linkHash, category := "emby-auto-1" }⟩

section Twin

variable {w w₀ : World} {d : UUID} {condition : World → Action → Prop}

theorem twinSetting_request (d : UUID) : twinSetting.requestSource d = magnetLink := by
  change (if isMagnetSource magnetLink then trimSpace magnetLink else "") = magnetLink
  decide +kernel

theorem twinSetting_link (d : UUID) : twinSetting.link d = linkHash := by
  rw [EnqueueSetting.link, twinSetting_request]
  exact extractBTIH_magnetLink

theorem twinListing {torrents : List ClientTorrent} (h : w.torrents = torrents) :
    w.listing twinSetting d = torrents.map ClientTorrent.torrent := by
  have hlink : linkHash ≠ "" := by decide
  simp [World.listing, EnqueueSetting.inScope, twinSetting_link, hlink, h]

theorem twin_listBefore (hrun : w.runs d = .ready) (hempty : w.torrents = []) :
    w.step twinSetting (.listBefore d) = w.setRun d (.listed [] []) := by
  have hmagnet : isMagnetSource magnetLink = true := by decide +kernel
  have hnone : existingCorrelatedTorrent twinSetting.parseAuthority [] magnetLink = none :=
    existingCorrelatedTorrent_nil
  simp [World.step, hrun, show twinSetting.source d = magnetLink from rfl, hmagnet,
    World.step.listFirst, twinListing hempty, twinSetting_request, hnone, World.serials, hempty]

/-- The torrent of the link is confirmed as soon as it shows. -/
theorem twin_poll (hrun : w.runs d = .confirming [] []) (hshown : w.torrents = [twinTorrent]) :
    w.step twinSetting (.poll d) = w.setRun d (.resolved [] ⟨linkHash, .magnet⟩) := by
  have hresolve : resolveAddedTorrentHash twinSetting.parseAuthority [] [twinTorrent.torrent]
      magnetLink = some ⟨linkHash, .magnet⟩ := by
    simp only [resolveAddedTorrentHash, show twinSetting.parseAuthority = some from rfl,
      extractBTIH_magnetLink]
    decide +kernel
  simp [World.step, hrun, twinListing hshown, twinSetting_request, hresolve]

theorem step_complete {first : List Nat} {resolution} {db : Database}
    {new : NewOperation} {fileID : Nat → UUID} {completion}
    (hrun : w.runs d = .resolved first resolution)
    (hstored : w.storeCompletion twinSetting d false new fileID completion resolution =
      .ok ((), db)) :
    w.step twinSetting (.complete d false new fileID completion true) =
      World.setRun { w with db, records := (d, resolution.hash) :: w.records } d .idle := by
  simp [World.step, hrun, hstored]

/-- A step whose outcome is known. -/
theorem EnqueueRun.call {w' : World} (run : EnqueueRun twinSetting condition w₀ w)
    (action : Action) (allowed : action.Allowed w) (meets : condition w action)
    (h : w.step twinSetting action = w') : EnqueueRun twinSetting condition w₀ w' :=
  h ▸ run.next action allowed meets

/-- The torrent of the link may show in a client that was empty so far. -/
theorem served_twinTorrent (hserial : w.serial = 0) : Served w [twinTorrent] 1 where
  client := by
    refine ⟨by decide, fun a ha b hb _ _ => ?_⟩
    rw [List.mem_singleton.mp ha, List.mem_singleton.mp hb]
  serial_le := hserial.trans_le (Nat.zero_le 1)
  kept _ _ := .inl (hserial.trans_le (Nat.zero_le _))

/-- A handler that is alone shares nothing. -/
theorem unshared_of_alone (hrecords : w.records = [])
    (halone : ∀ other, other ≠ d → w.runs other = .idle) : w.Unshared twinSetting d := by
  intro hash _ other hne hholds
  rw [World.Holds, hrecords, halone other hne] at hholds
  exact hholds.elim id List.not_mem_nil

end Twin

def videoCompletion (operationID : UUID) : DownloadEnqueueCompletion where
  operationID
  downloadID := 0
  torrentHash := ""
  savePath := ""
  files := [{ index := 0, relativePath := "05.mkv", sizeBytes := 1, kind := .video, selected := true
              coordinate := ⟨1, 5, 0⟩ }]
  outcome := .resolved

/-- The first download is stored. -/
theorem twinWorld_stored :
    ∃ db, twinWorld.storeCompletion twinSetting 1 false ⟨31, 1⟩ (· + 41) (videoCompletion 21)
      ⟨linkHash, .magnet⟩ = .ok ((), db) := by
  have hresult : (completeEnqueue ⟨31, 1⟩ (· + 41) { videoCompletion 21 with
      downloadID := 1, torrentHash := linkHash, savePath := twinSetting.savePath 1 }).result?
        twinWorld.db = some () := by
    decide +kernel
  exact ⟨_, Tx.ok_of_result? hresult⟩

theorem twinTorrent_key : twinTorrent.key = linkHash := by decide +kernel

/-- **A compensation removes the torrent of another download** if both add one link at the same
time: each handler sees the torrent appear after its first listing and takes it for its own. -/
theorem compensation_removes_stored_torrent :
    Initial twinWorld ∧ ∃ w, EnqueueRun twinSetting (fun _ _ => True) twinWorld w ∧
      ¬ w.SparesOthers 2 := by
  obtain ⟨db, hdb⟩ := twinWorld_stored
  have hstart : EnqueueRun twinSetting (fun _ _ => True) twinWorld twinWorld := .start
  -- both handlers list the empty client, and both requests are accepted
  have hready := (hstart.call (.begin 1) trivial trivial rfl).call (.begin 2) trivial trivial rfl
  have hlisted := (hready.call (.listBefore 1) trivial trivial (twin_listBefore rfl rfl)).call
    (.listBefore 2) trivial trivial (twin_listBefore rfl rfl)
  have hadded := (hlisted.call (.add 1 true) trivial trivial rfl).call (.add 2 true) trivial trivial
    rfl
  have hshown := hadded.call (.serve [twinTorrent] 1) (served_twinTorrent rfl) trivial rfl
  -- both take the torrent for their own; the first one stores it, and the second one fails
  have hresolved := (hshown.call (.poll 1) trivial trivial (twin_poll rfl rfl)).call (.poll 2)
    trivial trivial (twin_poll rfl rfl)
  have hstored := hresolved.call (.complete 1 false ⟨31, 1⟩ (· + 41) (videoCompletion 21) true)
    trivial trivial (step_complete rfl hdb)
  have hfailed := hstored.call (.fail 2) trivial trivial rfl
  refine ⟨twinWorld_initial, _, hfailed, fun h => ?_⟩
  obtain ⟨-, hothers⟩ := h [] linkHash rfl twinTorrent (List.mem_singleton_self _) twinTorrent_key
  exact hothers 1 (by decide) List.mem_cons_self

/-- A handler that is alone deletes its own torrent, and the conditions hold. -/
theorem compensation_spares_others_single :
    Initial twinWorld ∧ ∃ w,
      EnqueueRun twinSetting (fun w action => action.Meets twinSetting w) twinWorld w ∧
      (∃ t ∈ w.torrents, w.runs 1 = .failed [] t.key) ∧ w.SparesOthers 1 := by
  have hstart : EnqueueRun twinSetting (fun w action => action.Meets twinSetting w) twinWorld
      twinWorld := .start
  have halone : ∀ {w : World}, (∀ other, other ≠ 1 → w.runs other = .idle) → ∀ p other, other ≠ 1 →
      (w.setRun 1 p).runs other = .idle :=
    fun hidle p other hne => (setRun_runs_ne hne).trans (hidle other hne)
  have hready := halone (fun _ _ => rfl : ∀ other, other ≠ 1 → twinWorld.runs other = .idle) .ready
  have hlisted := (hstart.call (.begin 1) trivial trivial rfl).call (.listBefore 1) trivial
    (unshared_of_alone rfl hready) (twin_listBefore rfl rfl)
  have hshown := (hlisted.call (.add 1 true) trivial trivial rfl).call (.serve [twinTorrent] 1)
    (served_twinTorrent rfl) trivial rfl
  have hconfirming := halone (halone hready (.listed [] [])) (.confirming [] [])
  have hnone : ∀ {w : World}, w.torrents = [twinTorrent] → w.NoneAlone twinSetting 1 := by
    intro w htorrents _ _ _ _
    left
    rw [twinSetting_link, twinListing htorrents]
    decide +kernel
  have hresolved := hshown.call (.poll 1) trivial ⟨unshared_of_alone rfl hconfirming, hnone rfl⟩
    (twin_poll rfl rfl)
  have hfailed := hresolved.call (.fail 1) trivial trivial rfl
  refine ⟨twinWorld_initial, _, hfailed, ⟨twinTorrent, List.mem_singleton_self _, ?_⟩,
    compensation_spares_others twinSetting twinWorld_initial hfailed 1⟩
  rw [twinTorrent_key]
  rfl

end EmbyAuto
