import EmbyAuto.Acquisition.Enqueue

/-!
# What the paths store about a source

Each path that creates an acquisition writes the facts about its source twice: into the
acquisition, from which a retry reads them, and into the payload of the enqueue operation, from
which the first run reads them.

## Main definitions

* `FromFeed`, `FromSearch`: the two payloads of a path
* `AcquisitionCall.Stores`: the payloads that any call writes

## Main results

* `AcquisitionCall.run_stores`: whatever a call makes has the payloads of its path
-/

namespace EmbyAuto

open Relational Database Resources

/-- The rows of an enqueued feed entry: a single episode at some coordinate. -/
def FromFeed (made : EnqueuedDownload) : Prop :=
  ∃ entryID identityKey season episode,
    made.acquisition.sourcePayload = rssSourcePayload entryID identityKey season episode ∧
      made.operation.payload = .object (selectionPayload ⟨season, episode, true⟩)

/-- The rows of an enqueued search candidate. -/
def FromSearch (input : CreateSearchAcquisition) (made : EnqueuedDownload) : Prop :=
  (∃ searchRunID, made.acquisition.sourcePayload = input.sourcePayload searchRunID) ∧
    made.operation.payload = .object (selectionPayload input.selectionOptions ++
      [("mediaType", .string input.media.text)])

/-- The payloads that a call writes. -/
def AcquisitionCall.Stores : AcquisitionCall → EnqueuedDownload → Prop
  | search _ _ _ input => FromSearch input
  | _ => FromFeed

/-! ## Scheduling -/

/-- A created operation carries the payload of its request. -/
theorem scheduleInTx_payload {new : NewOperation} {request} :
    (scheduleInTx new request).Returns fun r =>
      r.2 = true → r.1.payload = .object request.payload := by
  rintro db ⟨o, created⟩ db' h hcreated
  rcases scheduleInTx_ok h with ⟨hnot, -⟩ | ⟨-, -, rfl⟩
  · rw [hnot] at hcreated
    cases hcreated
  · rfl

/-! ## The feed paths -/

theorem upsertRSSAcquisition_payload {new : Acquisition} :
    (upsertRSSAcquisition new).Returns fun a => a.sourcePayload = new.sourcePayload := by
  intro r a r' h
  obtain ⟨row, r₁, hupdate, h⟩ := Tx.bind_ok.mp h
  obtain ⟨hrow, -⟩ := Slot.updateOne_ok.mp hupdate
  cases row with
  | some acquisition =>
    cases h
    obtain ⟨_, -, rfl⟩ := Option.map_eq_some_iff.mp hrow.symm
    rfl
  | none =>
    obtain ⟨_, r₂, -, h⟩ := Tx.bind_ok.mp h
    cases h
    rfl

theorem enqueueRSSEntry_stores {texts : EnqueueTexts} {new subscription} {entryID : UUID}
    {identityKey : String} {season episode : Int} :
    (enqueueRSSEntry texts new subscription entryID identityKey season episode).Returns
      fun r => r.1.created = true → FromFeed r.1 := by
  refine .after fun entry => .bind upsertRSSAcquisition_payload.zoom.mapError fun a ha => ?_
  refine .after fun download => .bind scheduleInTx_payload.mapError fun scheduled hs => ?_
  refine .pure fun hcreated => ?_
  exact ⟨entryID, identityKey, season, episode, ha, hs hcreated⟩

/-- A path that enqueues at most one entry. -/
def StoresFeed (made : Option EnqueuedDownload) : Prop :=
  ∀ e ∈ made, e.created = true → FromFeed e

theorem storesFeed_none : StoresFeed none :=
  fun e he => absurd he (Option.not_mem_none e)

theorem storesFeed_some {made} (h : made.created = true → FromFeed made) :
    StoresFeed (some made) := by
  rintro e ⟨⟩
  exact h

section Feed

variable {rules : AcquisitionRules} {new : NewAcquisition} {subscription : RSSSubscription}
variable {entry : RSSEntry} {resolution : ProposedResolution}

theorem scheduleRSSEntry_stores :
    (scheduleRSSEntry rules new subscription entry).Returns StoresFeed := by
  unfold scheduleRSSEntry
  dsimp only
  split
  · exact .after fun _ => .after fun _ => .pure storesFeed_none
  · refine .after fun occupancy => ?_
    split
    · exact .after fun _ => .after fun _ => .pure storesFeed_none
    · refine .bind enqueueRSSEntry_stores fun made hmade => ?_
      exact .after fun _ => .pure (storesFeed_some hmade)

theorem scheduleRSSDownload_stores {candidate} {recovery : Bool} :
    (scheduleRSSDownload rules new candidate recovery).Returns StoresFeed := by
  unfold scheduleRSSDownload
  split
  · exact .throw
  refine .after fun locked => ?_
  cases locked with
  | none => exact .pure storesFeed_none
  | some subscription =>
    dsimp only
    split
    · exact .throw
    split
    · exact .pure storesFeed_none
    refine .after fun entry => ?_
    cases entry with
    | none => exact .pure storesFeed_none
    | some entry =>
      dsimp only
      split
      · exact .throw
      split
      · exact .throw
      split
      · exact .pure storesFeed_none
      · exact scheduleRSSEntry_stores

theorem applyRSSCoordinate_stores {poll : NewOperation} {proposal} :
    (applyRSSCoordinate rules new poll resolution proposal).Returns StoresFeed := by
  refine .after fun _ => .after fun subscription => .after fun entry => ?_
  split
  · exact .throw
  split
  · exact .throw
  refine .after fun _ => ?_
  split
  · exact .after fun _ => .pure storesFeed_none
  · refine .after fun occupancy => .after fun _ => ?_
    refine .bind ?_ fun made hmade =>
      .after fun _ => .after fun _ => .after fun _ => .pure hmade
    unfold enqueueResolvedEntry
    split
    · refine .bind enqueueRSSEntry_stores fun made hmade => ?_
      exact .after fun _ => .pure (storesFeed_some hmade)
    · exact .pure storesFeed_none

end Feed

/-! ## Adjudication -/

section Adjudication

variable {rules : AcquisitionRules} {new : UUID → NewAcquisition} {resolution : ProposedResolution}
variable {proposal : AgentRSSReleaseAdjudicationProposal} {subscription : RSSSubscription}
variable {batchID : UUID}

theorem ignoreEntry_stores {entry : RSSEntry} {item occupancy} :
    (ignoreEntry rules resolution batchID entry item occupancy).Returns
      fun outcome => StoresFeed outcome.made? := by
  refine .after fun _ => .after fun _ => .after fun _ => .pure ?_
  split
  · exact storesFeed_none
  · exact storesFeed_none

theorem adjudicateEntry_stores {entry : RSSEntry} :
    (adjudicateEntry rules new resolution batchID subscription proposal entry).Returns
      fun outcome => StoresFeed outcome.made? := by
  unfold adjudicateEntry
  split
  · exact .throw
  split
  · refine .after fun occupancy => ?_
    split
    · refine .after fun _ => .bind enqueueRSSEntry_stores fun made hmade => ?_
      exact .after fun _ => .pure (storesFeed_some hmade)
    · exact ignoreEntry_stores
  · exact ignoreEntry_stores
  · exact .throw

theorem adjudicateEntries_stores {entries} :
    (adjudicateEntries rules new resolution batchID subscription proposal entries).Returns
      fun outcomes => ∀ outcome ∈ outcomes, StoresFeed outcome.made? := by
  induction entries with
  | nil => exact .pure fun outcome h => absurd h List.not_mem_nil
  | cons entry rest ih =>
    refine .bind adjudicateEntry_stores fun outcome ho => .bind ih fun outcomes hrest => ?_
    exact .pure (List.forall_mem_cons.mpr ⟨ho, hrest⟩)

theorem applyRSSReleaseAdjudication_stores :
    (applyRSSReleaseAdjudication rules new resolution proposal).Returns
      fun made => ∀ e ∈ made, e.created = true → FromFeed e := by
  refine .after fun _ => .after fun _ => .after fun db => ?_
  dsimp only
  split
  · exact .throw
  split
  · exact .throw
  refine .bind adjudicateEntries_stores fun outcomes hstores => ?_
  refine .after fun _ => .after fun _ => .after fun _ => .after fun _ => .pure fun e he => ?_
  obtain ⟨outcome, hmem, hmade⟩ := List.mem_filterMap.mp he
  exact hstores outcome hmem e hmade

end Adjudication

/-! ## The search path -/

section Search

variable {rules : AcquisitionRules} {hashes : Hashes} {mediaID : UUID} {enqueue sync : NewOperation}
variable {input : CreateSearchAcquisition}

theorem createOrGetSearchAcquisition_created {new : Acquisition} {candidateID : UUID}
    {key : String} :
    (createOrGetSearchAcquisition new candidateID key).Returns fun r => r.2 = true → r.1 = new := by
  intro r a r' h
  obtain ⟨row, r₁, hinsert, h⟩ := Tx.bind_ok.mp h
  cases row with
  | some acquisition =>
    cases h
    intro _
    obtain ⟨existing, r₂, -, h⟩ := Tx.bind_ok.mp (context_ok.mp hinsert)
    cases existing with
    | some _ => cases h
    | none =>
      obtain ⟨_, r₃, -, h⟩ := Tx.bind_ok.mp h
      cases h
      rfl
  | none =>
    obtain ⟨existing, r₂, -, h⟩ := Tx.bind_ok.mp h
    cases existing with
    | some _ =>
      cases h
      nofun
    | none => cases h

theorem createSearchAcquisition_stores :
    (createSearchAcquisition rules hashes mediaID enqueue sync input).Returns
      fun made => made.created = true → FromSearch input made := by
  unfold createSearchAcquisition
  split
  · exact .throw
  refine .after fun candidate => ?_
  split
  · refine .after fun _ => .after fun media => .after fun _ => ?_
    refine .bind createOrGetSearchAcquisition_created.zoom fun a ha => ?_
    dsimp only
    split
    · exact .throw
    · refine .after fun download => .bind scheduleInTx_payload.mapError fun scheduled hs => ?_
      refine .after fun _ => ?_
      obtain ⟨acquisition, created⟩ := a
      cases created with
      | false => exact .pure nofun
      | true =>
        refine .after fun _ => .pure fun hcreated => ⟨⟨candidate.searchRunID, ?_⟩, hs hcreated⟩
        rw [ha rfl]
  · exact .throw

end Search

/-- **What a call stores.** -/
theorem AcquisitionCall.run_stores {rules} {hashes : Hashes} {call : AcquisitionCall} :
    (call.run rules hashes).Returns fun made => ∀ e ∈ made, e.created = true → call.Stores e := by
  cases call with
  | search mediaID enqueue sync input =>
    refine .bind createSearchAcquisition_stores fun made hmade => .pure fun e he => ?_
    obtain rfl := List.mem_singleton.mp he
    exact hmade
  | rssSchedule new candidate recovery =>
    refine .bind scheduleRSSDownload_stores fun made hmade => .pure fun e he => ?_
    exact hmade e (Option.mem_toList.mp he)
  | agentCoordinate new poll resolution proposal =>
    refine .bind applyRSSCoordinate_stores fun made hmade => .pure fun e he => ?_
    exact hmade e (Option.mem_toList.mp he)
  | agentAdjudication new resolution proposal => exact applyRSSReleaseAdjudication_stores

end EmbyAuto
