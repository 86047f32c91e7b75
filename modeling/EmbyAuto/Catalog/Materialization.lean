import EmbyAuto.Catalog.Repair
import EmbyAuto.Download.Selection

/-!
# Scheduling the downloads that a mapping completes

After a mapping was saved, or the mapping profile of a subscription was set,
`scheduleMappingMaterializations` takes every download in scope whose selected videos are now all
mapped, brings those that had failed for want of a mapping back to `completed`, and schedules
their `download.materialize` jobs. The key of a job names the download and the profile, so the
same profile never gives a download a second job.

## Main definitions

* `listMappingMaterializationCandidates`: the downloads that are ready
* `scheduleMappingMaterializations`: the loop
* `recoverSubscriptionMapping`: what `UpdateSubscription` does with a mapping profile

## Main results

* `mapping_materializations_live_iff`: the downloads that the loop counts have live jobs exactly
  when no candidate's key belongs to a job that has ended
-/

namespace EmbyAuto

open Relational Database Resources

/-! ## Candidates -/

/-- The failures of `download.materialize` that a mapping can repair. -/
def mappingFailureCodes : List String := [
  "mapping_profile_required", "episode_mapping_required", "mapping_source_invalid",
  "mapping_source_out_of_range", "mapping_context_incomplete", "mapping_target_out_of_range",
  "mapping_title_missing"]

/-- The download failed for want of a mapping. -/
def Download.lacksMapping (d : Download) : Bool :=
  d.status = .failed && d.failureStage = some .materialize &&
    d.errorCode.any fun code => code ∈ mappingFailureCodes

/-- The download has selected videos, and the profile maps each of them. -/
def fullyMapped (r : Resources) (profileID downloadID : UUID) : Bool :=
  let videos := selectedVideosOf r downloadID
  !videos.isEmpty && videos.all fun f => (findMapping r (some profileID) f).any (·.status = .mapped)

def materializable (r : Resources) (profileID : UUID) (d : Download) : Bool :=
  (d.status = .completed || d.lacksMapping) && fullyMapped r profileID d.id

/-- The candidate of an acquisition: its current download, if it is ready. -/
def materializationCandidate (r : Resources) (profileID : UUID) (a : Acquisition) :
    Option Download :=
  if a.mappingProfileID = some profileID then
    (currentDownload r a.id).filter (materializable r profileID)
  else none

def listMappingMaterializationCandidates (acquisitionID profileID : UUID) (r : Resources) :
    List Download :=
  (mappingScopeAcquisitions acquisitionID r).filterMap (materializationCandidate r profileID)

/-! ## The loop -/

def Download.requeueMapped (d : Download) : Download :=
  { d with
    status := .completed
    failureStage := none
    errorCode := none
    errorMessage := none
    version := d.version + 1 }

def requeueMappingMaterialization (id : UUID) (expectedVersion : Nat) :
    ResourcesTx (Option Download) :=
  downloadsSlot.updateOne
    (atKey Download.id id fun d => d.version = expectedVersion && d.lacksMapping)
    Download.requeueMapped

/-- The key of a job: the same for every time the profile is applied. -/
def mappingMaterializationKey (downloadID profileID : UUID) : String :=
  "download.materialize:" ++ downloadID.text ++ ":mapping:" ++ profileID.text

def mappingMaterializationRequest (downloadID profileID : UUID) : ScheduleOperationRequest where
  kind := .downloadMaterialize
  resource := some (.download, downloadID)
  idempotencyKey := mappingMaterializationKey downloadID profileID
  maxAttempts := 3
  timeout := 10 * Duration.minute
  payload := [("mappingProfileId", .string profileID.text)]

section Loop

variable (new : UUID → NewOperation) (profileID : UUID)

def scheduleMaterialization (candidate : Download) : DatabaseTx (Operation × Bool) :=
  context "schedule mapped download materialization"
    (scheduleInTx (new candidate.id) (mappingMaterializationRequest candidate.id profileID))

/-- One round; the flag says whether the candidate is counted. -/
def scheduleCandidate (candidate : Download) : DatabaseTx Bool := do
  if candidate.status = .failed then
    match ← context "requeue mapped download materialization"
        (onResources (requeueMappingMaterialization candidate.id candidate.version)) with
    | none => return false
    | some _ =>
      let scheduled ← scheduleMaterialization new profileID candidate
      appendResourceEvent (.download, candidate.id) (some scheduled.1.id)
        "download.mapping_recovered" [("profileId", .string profileID.text)]
      return true
  else
    let _ ← scheduleMaterialization new profileID candidate
    return true

/-- The downloads that are counted, in order. -/
def scheduleCandidates : List Download → DatabaseTx (List UUID)
  | [] => return []
  | candidate :: candidates => do
    let counted ← scheduleCandidate new profileID candidate
    let rest ← scheduleCandidates candidates
    return if counted then candidate.id :: rest else rest

/-- The source returns how many downloads were counted. -/
def scheduleMappingMaterializations (acquisitionID : UUID) : DatabaseTx (List UUID) := do
  let candidates := listMappingMaterializationCandidates acquisitionID profileID (← get).resources
  scheduleCandidates new profileID candidates

end Loop

/-! ## The profile of a subscription -/

/-- The acquisitions of a subscription that take its profile; one that was mapped by hand, file
by file, keeps its own. -/
def takesSubscriptionProfile (r : Resources) (subscriptionID : UUID) (a : Acquisition) : Bool :=
  entrySubscription r a = some subscriptionID && a.deletionRequestedAt.isNone &&
    !(a.mappingProfileID.any fun profileID => r.episodeMappingProfiles.rows.any fun p =>
      p.id = profileID && p.name = "acquisition:" ++ a.id.text) &&
    r.episodeTasks.rows.all fun t => t.acquisitionID ≠ a.id

def propagateRSSMappingProfile (subscriptionID : UUID) (profileID : Option UUID) :
    ResourcesTx Nat := do
  let r ← get
  let updated ← acquisitionsSlot.update (takesSubscriptionProfile r subscriptionID)
    fun a => { a with mappingProfileID := profileID }
  return updated.length

/-- The acquisitions of a subscription that still stand for something, oldest first. -/
def listRSSSubscriptionAcquisitions (subscriptionID : UUID) (r : Resources) : List Acquisition :=
  let downloadsOf (a : Acquisition) := r.downloads.rows.filter fun d => d.acquisitionID = a.id
  let hasSource (t : EpisodeTask) : Bool := r.downloadFiles.rows.any fun f =>
    f.id = t.sourceVideoFileID && r.downloads.rows.any fun d =>
      d.id = f.downloadID && d.deletedAt.isNone
  (r.acquisitions.rows.filter fun a =>
    entrySubscription r a = some subscriptionID && a.deletionRequestedAt.isNone &&
      ((downloadsOf a).isEmpty ||
        ((downloadsOf a).any fun d => d.deletedAt.isNone && d.status ≠ .cancelled) ||
        (r.episodeTasks.rows.any fun t => t.acquisitionID = a.id && hasSource t)))
    |>.insertionSort fun a b =>
      a.createdAt < b.createdAt ∨ (a.createdAt = b.createdAt ∧ a.id ≤ b.id)

/-- The part of `UpdateSubscription` that hands a profile to the acquisitions of the subscription,
with the numbers of acquisitions, files and downloads. -/
def recoverSubscriptionMapping (new : UUID → NewOperation) (subscriptionID : UUID)
    (profileID : Option UUID) : DatabaseTx (Nat × Nat × Nat) := do
  let propagated ← context "propagate RSS mapping profile"
    (onResources (propagateRSSMappingProfile subscriptionID profileID))
  match profileID, listRSSSubscriptionAcquisitions subscriptionID (← get).resources with
  | some profileID, anchor :: _ =>
    let corrected ← onResources (repairMappingScopeCoordinates anchor.id)
    let scheduled ← scheduleMappingMaterializations new profileID anchor.id
    return (propagated, corrected, scheduled.length)
  | _, _ => return (propagated, 0, 0)

/-! ## What is wanted of the loop -/

/-- A `download.materialize` operation on the download. -/
def Materializes (downloadID : UUID) (o : Operation) : Prop :=
  o.kind = .downloadMaterialize ∧ o.resource = some (.download, downloadID)

/-- A queued or running job is to materialise the download. -/
def HasLiveMaterialization (db : Database) (downloadID : UUID) : Prop :=
  ∃ o ∈ db.operations.rows, Materializes downloadID o ∧ o.status.live = true

/-- Every download that was counted, and every one that was brought to `completed`, is
`completed` and has a live job. -/
structure MaterializationsLive (before after : Database) (counted : List UUID) : Prop where
  counted : ∀ id ∈ counted, (∃ d ∈ after.resources.downloads.rows, d.id = id ∧
    d.status = .completed) ∧ HasLiveMaterialization after id
  requeued : ∀ d ∈ before.resources.downloads.rows, d.status ≠ .completed →
    ∀ d' ∈ after.resources.downloads.rows, d'.id = d.id → d'.status = .completed →
      HasLiveMaterialization after d.id

/-- No operation holds the key of the download's job. -/
def KeyFree (db : Database) (profileID downloadID : UUID) : Prop :=
  ∀ o ∈ db.operations.rows,
    o.idempotencyKey ≠ trimSpace (mappingMaterializationKey downloadID profileID)

/-! ## The candidates are different downloads -/

section Candidates

variable {r : Resources} {acquisitionID profileID : UUID} {d : Download}

theorem currentDownload_mem (h : currentDownload r acquisitionID = some d) :
    d ∈ r.downloads.rows ∧ d.acquisitionID = acquisitionID := by
  have hmem : d ∈ r.downloads.rows.filter fun d =>
      d.acquisitionID = acquisitionID && d.deletedAt.isNone := by
    rcases Option.or_eq_some_iff.mp h with h | ⟨-, h⟩
    · exact List.mem_of_mem_filter (List.argmax_mem h)
    · exact List.argmax_mem h
  simp only [List.mem_filter, Bool.and_eq_true, decide_eq_true_eq] at hmem
  exact ⟨hmem.1, hmem.2.1⟩

theorem materializationCandidate_mem {a : Acquisition}
    (h : materializationCandidate r profileID a = some d) :
    d ∈ r.downloads.rows ∧ d.acquisitionID = a.id ∧
      (d.status = .completed ∨ d.lacksMapping = true) := by
  unfold materializationCandidate at h
  split at h
  · obtain ⟨hcurrent, hready⟩ := Option.filter_eq_some_iff.mp h
    obtain ⟨hmem, hid⟩ := currentDownload_mem hcurrent
    simp only [materializable, Bool.and_eq_true, Bool.or_eq_true, decide_eq_true_eq] at hready
    exact ⟨hmem, hid, hready.1⟩
  · cases h

theorem acquisitions_pkey :
    ("acquisitions_pkey", fun a b : Acquisition => decide (a.id = b.id)) ∈
      acquisitionSchema.uniques :=
  List.mem_cons_self

/-- Each acquisition has one current download, and a download belongs to one acquisition. -/
theorem candidates_distinct (acquisitionID profileID : UUID) (r : Resources) :
    (listMappingMaterializationCandidates acquisitionID profileID r).Pairwise
      fun d d' => d.id ≠ d'.id := by
  have hrows : r.acquisitions.rows.Pairwise fun a b => a.id ≠ b.id :=
    (r.acquisitions.valid.2 _ acquisitions_pkey).imp fun h => by simpa using h
  have hscope : (mappingScopeAcquisitions acquisitionID r).Pairwise fun a b => a.id ≠ b.id :=
    (List.perm_insertionSort _ _).symm.pairwise (hrows.filter _) fun h => h.symm
  refine List.pairwise_filterMap.mpr (hscope.imp fun {a b} hne d hd d' hd' hid => hne ?_)
  obtain ⟨hmem, ha, -⟩ := materializationCandidate_mem hd
  obtain ⟨hmem', hb, -⟩ := materializationCandidate_mem hd'
  have heq := r.downloads.eq_of_conflict downloads_pkey (fun a b => decide_eq_decide.mpr eq_comm)
    hmem hmem' (decide_eq_true hid)
  rw [← ha, ← hb, heq]

end Candidates

/-! ## One round -/

section Round

variable {new : UUID → NewOperation} {profileID : UUID} {db db' : Database} {c d : Download}

/-- A round finds the key in the hands of a job for the same download, or adds a queued job
under a free key. -/
theorem scheduleMaterialization_ok {o : Operation} {created : Bool}
    (h : scheduleMaterialization new profileID c db = .ok ((o, created), db')) :
    db'.resources.downloads = db.resources.downloads ∧ Materializes c.id o ∧
      ((db'.operations = db.operations ∧ o ∈ db.operations.rows ∧
          o.idempotencyKey = trimSpace (mappingMaterializationKey c.id profileID)) ∨
        (db'.operations.rows = db.operations.rows ++ [o] ∧ o.status = .queued ∧
          KeyFree db profileID c.id)) := by
  rcases scheduleInTx_ok (context_ok.mp h) with ⟨-, rfl, hmem, hkey, hsame⟩ | ⟨-, hadded, rfl⟩
  · simp only [sameOperationCommand, Bool.and_eq_true, decide_eq_true_eq] at hsame
    exact ⟨rfl, ⟨hsame.1.1.1.1, hsame.1.1.1.2⟩, .inl ⟨rfl, hmem, hkey⟩⟩
  · obtain ⟨events, hresources⟩ := hadded.resources
    refine ⟨by rw [hresources], ⟨rfl, rfl⟩, .inr ⟨hadded.rows, rfl, ?_⟩⟩
    intro o' ho' hkey
    have hpairwise := db'.operations.valid.2 _ (List.mem_cons_of_mem _ List.mem_cons_self)
    rw [hadded.rows] at hpairwise
    have hne := (List.pairwise_append.mp hpairwise).2.2 o' ho' _ (List.mem_singleton_self _)
    simp only [decide_eq_false_iff_not] at hne
    exact hne hkey

/-- A candidate that is still as it was listed is brought back. -/
theorem requeueMappingMaterialization_ok {r r' : Resources} {row}
    (hmem : c ∈ r.downloads.rows) (hlacks : c.lacksMapping = true)
    (h : requeueMappingMaterialization c.id c.version r = .ok (row, r')) :
    row = some c.requeueMapped ∧
      ∃ p : Download → Bool, (∀ d ∈ r.downloads.rows, p d = true ↔ d.id = c.id) ∧
        r'.downloads.rows = r.downloads.rows.map (patch p Download.requeueMapped) := by
  have hlookup : lookup Download.id c.id r.downloads.rows = some c :=
    r.downloads.find?_of_mem downloads_pkey hmem
  rcases Slot.updateOne_atKey downloads_pkey h with ⟨-, -, hguard⟩ | ⟨x, hx, -, rfl, hv, rfl⟩
  · have hfalse := hguard c hlookup
    simp [hlacks] at hfalse
  · obtain rfl : c = x := Option.some.inj (hlookup.symm.trans hx)
    refine ⟨rfl, _, fun d hd => ?_, rfl⟩
    constructor
    · intro hp
      simp only [atKey, Bool.and_eq_true, decide_eq_true_eq] at hp
      exact hp.1
    · intro hid
      have heq := r.downloads.eq_of_conflict downloads_pkey
        (fun a b => decide_eq_decide.mpr eq_comm) hd hmem (decide_eq_true hid)
      simp [atKey, heq, hlacks]

/-- What a round does to the downloads and to the operations. -/
structure RoundDone (profileID : UUID) (c : Download) (db db' : Database) : Prop where
  completed : ∃ d ∈ db'.resources.downloads.rows, d.id = c.id ∧ d.status = .completed
  others : ∀ d, d.id ≠ c.id →
    (d ∈ db'.resources.downloads.rows ↔ d ∈ db.resources.downloads.rows)
  job : ∃ o, Materializes c.id o ∧
    ((db'.operations = db.operations ∧ o ∈ db.operations.rows ∧
        o.idempotencyKey = trimSpace (mappingMaterializationKey c.id profileID)) ∨
      (db'.operations.rows = db.operations.rows ++ [o] ∧ o.status = .queued ∧
        KeyFree db profileID c.id))

theorem scheduleCandidate_ok {counted : Bool} (hmem : c ∈ db.resources.downloads.rows)
    (hready : c.status = .completed ∨ c.lacksMapping = true)
    (h : scheduleCandidate new profileID c db = .ok (counted, db')) :
    counted = true ∧ RoundDone profileID c db db' := by
  unfold scheduleCandidate at h
  split at h
  · next hfailed =>
    -- a failed download is requeued before its job is scheduled
    have hlacks : c.lacksMapping = true := by
      rcases hready with hcompleted | hlacks
      · rw [hcompleted] at hfailed
        cases hfailed
      · exact hlacks
    obtain ⟨row, db₁, hrun, h⟩ := Tx.bind_ok.mp h
    obtain ⟨r, hrequeue, rfl⟩ := Tx.zoom_ok.mp (context_ok.mp hrun)
    obtain ⟨rfl, p, hp, hrows⟩ := requeueMappingMaterialization_ok hmem hlacks hrequeue
    obtain ⟨⟨o, created⟩, db₂, hschedule, h⟩ := Tx.bind_ok.mp h
    obtain ⟨_, db₃, hevent, h⟩ := Tx.bind_ok.mp h
    cases h
    obtain ⟨events, rfl⟩ := onResources_appendEvent_ok hevent
    obtain ⟨hdownloads, hkind, hjob⟩ := scheduleMaterialization_ok hschedule
    have hrows' : db₂.resources.downloads.rows =
        db.resources.downloads.rows.map (patch p Download.requeueMapped) := by
      rw [hdownloads]
      exact hrows
    refine ⟨rfl, ⟨c.requeueMapped, ?_, rfl, rfl⟩, fun d hd => ?_, o, hkind, hjob⟩
    · rw [hrows']
      exact List.mem_map.mpr ⟨c, hmem, patch_of_true ((hp c hmem).mpr rfl)⟩
    · rw [hrows', List.mem_map]
      constructor
      · rintro ⟨d₀, hd₀, rfl⟩
        rcases patch_cases p Download.requeueMapped d₀ with ⟨hmatch, hpatch⟩ | ⟨-, hpatch⟩ <;>
          rw [hpatch] at hd ⊢
        · exact absurd ((hp d₀ hd₀).mp hmatch) hd
        · exact hd₀
      · intro hmem
        exact ⟨d, hmem, patch_of_false (Bool.eq_false_iff.mpr fun h => hd ((hp d hmem).mp h))⟩
  · next hfailed =>
    have hcompleted : c.status = .completed := by
      refine hready.resolve_right fun hlacks => hfailed ?_
      simp only [Download.lacksMapping, Bool.and_eq_true, decide_eq_true_eq] at hlacks
      exact hlacks.1.1
    obtain ⟨⟨o, created⟩, db₁, hschedule, h⟩ := Tx.bind_ok.mp h
    cases h
    obtain ⟨hdownloads, hkind, hjob⟩ := scheduleMaterialization_ok hschedule
    refine ⟨rfl, ⟨c, ?_, rfl, hcompleted⟩, fun d _ => ?_, o, hkind, hjob⟩
    · rw [hdownloads]
      exact hmem
    · rw [hdownloads]

end Round

/-! ## The whole loop -/

section Run

variable {new : UUID → NewOperation} {profileID : UUID} {before db db' : Database}
  {done candidates : List Download} {c : Download}

/-- The state after the rounds of `done`. -/
structure RoundsDone (before : Database) (profileID : UUID) (done : List Download)
    (db : Database) : Prop where
  completed : ∀ c ∈ done, ∃ d ∈ db.resources.downloads.rows, d.id = c.id ∧ d.status = .completed
  others : ∀ d : Download, (∀ c ∈ done, d.id ≠ c.id) →
    (d ∈ db.resources.downloads.rows ↔ d ∈ before.resources.downloads.rows)
  jobs : ∃ added, db.operations.rows = before.operations.rows ++ added ∧
    (∀ o ∈ added, o.status = .queued ∧
      ∃ c ∈ done, Materializes c.id o ∧ KeyFree before profileID c.id) ∧
    ∀ c ∈ done, KeyFree before profileID c.id → ∃ o ∈ added, Materializes c.id o

theorem roundsDone_nil : RoundsDone before profileID [] before where
  completed _ h := absurd h List.not_mem_nil
  others _ _ := Iff.rfl
  jobs := ⟨[], (List.append_nil _).symm, fun _ h => absurd h List.not_mem_nil,
    fun _ h => absurd h List.not_mem_nil⟩

theorem Materializes.id_eq {o : Operation} {i j : UUID} (hi : Materializes i o)
    (hj : Materializes j o) : i = j := by
  have h := hi.2.symm.trans hj.2
  simpa using h

theorem RoundsDone.snoc (h : RoundsDone before profileID done db)
    (hround : RoundDone profileID c db db') (hnew : ∀ d ∈ done, d.id ≠ c.id) :
    RoundsDone before profileID (done ++ [c]) db' := by
  refine ⟨fun d hd => ?_, fun d hd => ?_, ?_⟩
  · rcases List.mem_append.mp hd with hd | hd
    · obtain ⟨d', hd', hid, hstatus⟩ := h.completed d hd
      exact ⟨d', (hround.others d' (hid ▸ hnew d hd)).mpr hd', hid, hstatus⟩
    · rw [List.mem_singleton.mp hd]
      exact hround.completed
  · rw [hround.others d (hd c (by simp)), h.others d fun c' hc' => hd c' (by simp [hc'])]
  · obtain ⟨added, hrows, hadded, hfree⟩ := h.jobs
    obtain ⟨o, ho, ⟨hsame, hmem, hkey⟩ | ⟨hadd, hqueued, hkey⟩⟩ := hround.job
    · -- no earlier round added a job for this download, so the key was taken before the loop
      have htaken : ¬ KeyFree before profileID c.id := by
        rw [hrows] at hmem
        rcases List.mem_append.mp hmem with hold | hnewer
        · exact fun hfree => hfree o hold hkey
        · obtain ⟨-, c', hc', ho', -⟩ := hadded o hnewer
          exact absurd (ho'.id_eq ho) (hnew c' hc')
      refine ⟨added, by rw [hsame, hrows], fun o' ho' => ?_, fun c' hc' hkey' => ?_⟩
      · obtain ⟨hstatus, c', hc', hrest⟩ := hadded o' ho'
        exact ⟨hstatus, c', by simp [hc'], hrest⟩
      · rcases List.mem_append.mp hc' with hc' | hc'
        · exact hfree c' hc' hkey'
        · rw [List.mem_singleton.mp hc'] at hkey'
          exact absurd hkey' htaken
    · have hkey : KeyFree before profileID c.id :=
        fun o' ho' => hkey o' (by rw [hrows]; exact List.mem_append_left _ ho')
      refine ⟨added ++ [o], by rw [hadd, hrows, List.append_assoc], fun o' ho' => ?_,
        fun c' hc' hkey' => ?_⟩
      · rcases List.mem_append.mp ho' with ho' | ho'
        · obtain ⟨hstatus, c', hc', hrest⟩ := hadded o' ho'
          exact ⟨hstatus, c', by simp [hc'], hrest⟩
        · rw [List.mem_singleton.mp ho']
          exact ⟨hqueued, c, by simp, ho, hkey⟩
      · rcases List.mem_append.mp hc' with hc' | hc'
        · obtain ⟨o', ho', hrest⟩ := hfree c' hc' hkey'
          exact ⟨o', by simp [ho'], hrest⟩
        · rw [List.mem_singleton.mp hc']
          exact ⟨o, by simp, ho⟩

/-- Every candidate is counted: its row is as it was listed when its round comes. -/
theorem scheduleCandidates_ok {counted : List UUID} (h : RoundsDone before profileID done db)
    (hmem : ∀ c ∈ candidates, c ∈ before.resources.downloads.rows ∧
      (c.status = .completed ∨ c.lacksMapping = true))
    (hdistinct : (done ++ candidates).Pairwise fun d d' => d.id ≠ d'.id)
    (hrun : scheduleCandidates new profileID candidates db = .ok (counted, db')) :
    counted = candidates.map (·.id) ∧ RoundsDone before profileID (done ++ candidates) db' := by
  induction candidates generalizing done db counted with
  | nil =>
    cases hrun
    rw [List.append_nil]
    exact ⟨rfl, h⟩
  | cons c candidates ih =>
    obtain ⟨flag, db₁, hround, hrun⟩ := Tx.bind_ok.mp hrun
    obtain ⟨rest, db₂, hrest, hrun⟩ := Tx.bind_ok.mp hrun
    cases hrun
    have hfresh : ∀ d ∈ done, d.id ≠ c.id :=
      fun d hd => (List.pairwise_append.mp hdistinct).2.2 d hd c List.mem_cons_self
    obtain ⟨hrow, hready⟩ := hmem c List.mem_cons_self
    have hrow' := (h.others c fun d hd => (hfresh d hd).symm).mpr hrow
    obtain ⟨rfl, hdone⟩ := scheduleCandidate_ok hrow' hready hround
    have hassoc : done ++ c :: candidates = done ++ [c] ++ candidates := by simp
    rw [hassoc] at hdistinct ⊢
    obtain ⟨rfl, hall⟩ := ih (h.snoc hdone hfresh)
      (fun c' hc' => hmem c' (List.mem_cons_of_mem _ hc')) hdistinct hrest
    exact ⟨rfl, hall⟩

theorem RoundsDone.live_iff (h : RoundsDone before profileID done db) (hc : c ∈ done) :
    HasLiveMaterialization db c.id ↔
      HasLiveMaterialization before c.id ∨ KeyFree before profileID c.id := by
  obtain ⟨added, hrows, hadded, hfree⟩ := h.jobs
  constructor
  · rintro ⟨o, ho, hmaterializes, hlive⟩
    rw [hrows] at ho
    rcases List.mem_append.mp ho with ho | ho
    · exact .inl ⟨o, ho, hmaterializes, hlive⟩
    · obtain ⟨-, c', -, ho', hkey⟩ := hadded o ho
      rw [ho'.id_eq hmaterializes] at hkey
      exact .inr hkey
  · rintro (⟨o, ho, hrest⟩ | hkey)
    · exact ⟨o, by rw [hrows]; exact List.mem_append_left _ ho, hrest⟩
    · obtain ⟨o, ho, hmaterializes⟩ := hfree c hc hkey
      refine ⟨o, by rw [hrows]; exact List.mem_append_right _ ho, hmaterializes, ?_⟩
      rw [(hadded o ho).1]
      rfl

/-- **Live jobs.** What the loop counts, and what it brings back to `completed`, has a live job
exactly when each candidate had one before or the key of its job was free. -/
theorem mapping_materializations_live_iff {acquisitionID : UUID} {counted : List UUID}
    (h : scheduleMappingMaterializations new profileID acquisitionID before = .ok (counted, db')) :
    MaterializationsLive before db' counted ↔
      ∀ d ∈ listMappingMaterializationCandidates acquisitionID profileID before.resources,
        HasLiveMaterialization before d.id ∨ KeyFree before profileID d.id := by
  obtain ⟨_, _, hget, hrun⟩ := Tx.bind_ok.mp h
  cases hget
  have hready : ∀ c ∈ listMappingMaterializationCandidates acquisitionID profileID
      before.resources, c ∈ before.resources.downloads.rows ∧
        (c.status = .completed ∨ c.lacksMapping = true) := by
    intro c hc
    obtain ⟨a, -, ha⟩ := List.mem_filterMap.mp hc
    exact ⟨(materializationCandidate_mem ha).1, (materializationCandidate_mem ha).2.2⟩
  obtain ⟨rfl, hdone⟩ := scheduleCandidates_ok roundsDone_nil hready
    (candidates_distinct acquisitionID profileID before.resources) hrun
  constructor
  · intro hlive d hd
    exact (hdone.live_iff hd).mp (hlive.counted d.id (List.mem_map_of_mem hd)).2
  · intro hopen
    have hlive : ∀ d ∈ listMappingMaterializationCandidates acquisitionID profileID
        before.resources, HasLiveMaterialization db' d.id :=
      fun d hd => (hdone.live_iff hd).mpr (hopen d hd)
    refine ⟨fun id hid => ?_, fun d hd hstatus d' hd' hid hcompleted => ?_⟩
    · obtain ⟨d, hd, rfl⟩ := List.mem_map.mp hid
      exact ⟨hdone.completed d hd, hlive d hd⟩
    · by_contra hnot
      -- a download outside the candidates is the row that it was
      have hother : ∀ c ∈ listMappingMaterializationCandidates acquisitionID profileID
          before.resources, d'.id ≠ c.id := by
        intro c hc heq
        rw [← hid, heq] at hnot
        exact hnot (hlive c hc)
      have hold := (hdone.others d' hother).mp hd'
      have heq := before.resources.downloads.eq_of_conflict downloads_pkey
        (fun a b => decide_eq_decide.mpr eq_comm) hold hd (decide_eq_true hid)
      exact hstatus (heq ▸ hcompleted)

end Run

/-! ## A profile that is applied twice -/

/-- A completed download of a subscription; of the two profiles only the first maps its video. -/
def subscribedEpisode : Database where
  resources := {
    acquisitions := ⟨[{ id := 2, seriesID := 3, rssEntryID := some 11
                        mappingProfileID := some 4 }], by decide⟩
    mediaSeries := completedEpisode.resources.mediaSeries
    rssSubscriptions := ⟨[{ id := 10, seriesID := 3 }], by decide⟩
    rssEntries := ⟨[{ id := 11, subscriptionID := 10, identityKey := "a", title := "Show 5" }],
      by decide⟩
    downloads := ⟨[{ id := 1, acquisitionID := 2, status := .completed }], by decide⟩
    downloadFiles := ⟨[{ id := 5, downloadID := 1, fileIndex := 0, relativePath := "05.mkv"
                         mediaKind := .video, selected := true, sourceSeason := some 1
                         sourceEpisode := some 5 }], by decide⟩
    episodeMappingProfiles := ⟨[
      { id := 4, seriesID := 3, name := "rss:" ++ UUID.text 10, anchorSourceSeason := some 1
        anchorSourceEpisode := some 5, anchorTargetEpisodeID := some 7
        targetEpisodeOffset := some 0 },
      { id := 14, seriesID := 3, name := "rss:" ++ UUID.text 20, anchorSourceSeason := some 1
        anchorSourceEpisode := some 6, anchorTargetEpisodeID := some 7
        targetEpisodeOffset := some (-1) }], by decide⟩
    episodeMappings := ⟨[
      { id := 6, profileID := 4, sourceSeason := 1, sourceEpisode := 5
        targetEpisodeID := some 7, status := .mapped },
      { id := 16, profileID := 14, sourceSeason := 1, sourceEpisode := 6
        targetEpisodeID := some 7, status := .mapped }], by decide⟩
    mediaEpisodes := completedEpisode.resources.mediaEpisodes
    tmdbSeasons := completedEpisode.resources.tmdbSeasons
    transcodeProfiles := completedEpisode.resources.transcodeProfiles }

def materializeJob (downloadID : UUID) : NewOperation := ⟨100 + downloadID, 1⟩

/-- The first time a profile is applied, the download gets its job. -/
theorem mapping_materializations_live_first :
    ∃ db, scheduleMappingMaterializations materializeJob 4 2 subscribedEpisode = .ok ([1], db) ∧
      MaterializationsLive subscribedEpisode db [1] := by
  have hrun := Tx.ok_of_result? (m := scheduleMappingMaterializations materializeJob 4 2)
    (s := subscribedEpisode) (a := [1]) (by decide +kernel)
  refine ⟨_, hrun, (mapping_materializations_live_iff hrun).mpr fun d _ => .inr ?_⟩
  intro o ho
  cases ho

/-- The subscription takes the other profile, so the queued job fails for want of a mapping. -/
def mappingLost : Database :=
  let first := (recoverSubscriptionMapping materializeJob 10 (some 4)).commit subscribedEpisode
  let other := (recoverSubscriptionMapping materializeJob 10 (some 14)).commit first
  workDownloadMaterialize plainHashes branchOperation 1 2 101 1 "worker" other

/-- **The same profile again.** When the subscription goes back to the first profile, the download
is brought back to `completed` and counted, and its only job is the one that failed. -/
theorem same_profile_again_strands :
    ∃ db, recoverSubscriptionMapping materializeJob 10 (some 4) mappingLost = .ok ((1, 0, 1), db) ∧
      db.resources.downloads.rows.map (fun d => (d.id, d.status)) = [(1, .completed)] ∧
      db.operations.rows.map (fun o => (o.idempotencyKey, o.status)) =
        [("download.materialize:" ++ UUID.text 1 ++ ":mapping:" ++ UUID.text 4, .failed)] ∧
      ¬ MaterializationsLive mappingLost db [1] := by
  have hrun := Tx.ok_of_result? (m := recoverSubscriptionMapping materializeJob 10 (some 4))
    (s := mappingLost) (a := (1, 0, 1)) (by decide +kernel)
  refine ⟨_, hrun, by decide +kernel, by decide +kernel, fun hlive => ?_⟩
  obtain ⟨o, ho, -, hstatus⟩ := (hlive.counted 1 List.mem_cons_self).2
  have hended : ((recoverSubscriptionMapping materializeJob 10 (some 4)).commit
      mappingLost).operations.rows.all (fun o => !o.status.live) = true := by decide +kernel
  have hnot := List.all_eq_true.mp hended o ho
  rw [hstatus] at hnot
  cases hnot

end EmbyAuto
