import EmbyAuto.Download.Enqueue

/-!
# Runs that share a torrent client

`DownloadEnqueueHandler.Handle` adds the torrent of a download, waits for its files and stores
its hash. If it fails after it added the torrent, it removes it again. Which torrent it added
is read off two listings, while other runs add theirs to the same client.

The service is not modelled. Between two calls of a handler its torrents may change in any way
that keeps to `Served`: it holds one torrent for a hash, and none moves into the category of a
download. Every torrent carries the number of its addition, so that one which is added again is
told from the one before it.

## Main definitions

* `Phase`: how far the handler of a download got
* `World`, `World.step`: the client, the database and all handlers, and what happens to them
* `Served`: what is assumed of the service
* `Initial`, `EnqueueRun`: the runs from a state in which no handler is under way
* `World.Unshared`, `Action.Meets`: no two downloads are after one torrent, and no foreign torrent
  shows up alone
-/

namespace EmbyAuto

open Relational

/-- A torrent of the client with the number of its addition. -/
structure ClientTorrent where
  serial : Nat
  torrent : Torrent
  deriving DecidableEq

/-- The canonical hash. -/
def ClientTorrent.key (t : ClientTorrent) : String := normalizeTorrentHash t.torrent.hash

/-- How far the handler of a download got. From its first listing on it remembers which
torrents were there; the code does not, but its effect is judged by it. -/
inductive Phase where
  | idle
  | ready
  /-- no torrent is at the save path -/
  | looked (first : List Nat)
  /-- `AddAndConfirm` has its first listing -/
  | listed (first : List Nat) (before : List Torrent)
  /-- the request was accepted -/
  | confirming (first : List Nat) (before : List Torrent)
  | resolved (first : List Nat) (resolution : HashResolution)
  /-- the handler failed and owns the torrent -/
  | failed (first : List Nat) (hash : String)

/-- What the handlers work with: the sources of the downloads and the root of the save paths. -/
structure EnqueueSetting where
  parseAuthority : String → Option String
  source : UUID → String
  downloadRoot : String

structure World where
  torrents : List ClientTorrent
  /-- the number of the next addition -/
  serial : Nat
  db : Database
  /-- the downloads with the hashes that were committed for them -/
  records : List (UUID × String) := []
  runs : UUID → Phase := fun _ => .idle

/-! ## The handler's own data -/

def joinConfiguredPath (root element : String) : String :=
  let root := (trimSpace root).toList
  let separator := if '\\' ∈ root ∧ '/' ∉ root then "\\" else "/"
  .ofList (root.reverse.dropWhile fun c => c = '/' || c = '\\').reverse ++ separator ++ element

def correlationCategory (downloadID : UUID) : String := "emby-auto-" ++ downloadID.text

def isMagnetSource (uri : String) : Bool :=
  "magnet:".toList <+: ((trimSpace uri).toList.map Char.toLower)

namespace EnqueueSetting

variable (setting : EnqueueSetting) (downloadID : UUID)

def savePath : String := joinConfiguredPath setting.downloadRoot downloadID.text

def isHTTPSource : Bool :=
  (parseURL setting.parseAuthority (trimSpace (setting.source downloadID))).any fun url =>
    url.scheme = "http" || url.scheme = "https"

/-- The source in the request: a link itself, and nothing for a file that was fetched. -/
def requestSource : String :=
  if isMagnetSource (setting.source downloadID) then trimSpace (setting.source downloadID) else ""

/-- The hash that the source of the request names. -/
def link : String := extractBTIH setting.parseAuthority (setting.requestSource downloadID)

/-- The torrent is in the scope in which the request is confirmed: all torrents for a link, and
those of the download's own category otherwise. -/
def inScope (t : Torrent) : Bool :=
  setting.link downloadID ≠ "" || t.category = correlationCategory downloadID

end EnqueueSetting

/-! ## Steps -/

/-- One call of a handler with its outcome, or a change by the service or by other code. -/
inductive Action where
  | begin (downloadID : UUID)
  /-- a call fails before a torrent is resolved -/
  | giveUp (downloadID : UUID)
  /-- the first listing for a source that is fetched -/
  | lookAtSavePath (downloadID : UUID)
  /-- the first listing of `AddAndConfirm` -/
  | listBefore (downloadID : UUID)
  /-- the answer to the request, which the service may have received in any case -/
  | add (downloadID : UUID) (accepted : Bool)
  | poll (downloadID : UUID)
  /-- a call fails after a torrent was resolved -/
  | fail (downloadID : UUID)
  /-- the completion is stored, and its answer may be lost -/
  | complete (downloadID : UUID) (legacy : Bool) (new : NewOperation) (fileID : Nat → UUID)
      (completion : DownloadEnqueueCompletion) (answered : Bool)
  /-- the call of the compensation returns -/
  | compensate (downloadID : UUID)
  /-- the torrents of the service change -/
  | serve (torrents : List ClientTorrent) (serial : Nat)
  /-- another transaction commits -/
  | elsewhere (db : Database)

namespace World

variable (setting : EnqueueSetting) (w : World)

def setRun (downloadID : UUID) (phase : Phase) : World :=
  { w with runs := Function.update w.runs downloadID phase }

/-- The numbers of the torrents that are there. -/
def serials : List Nat := w.torrents.map ClientTorrent.serial

/-- A listing in the scope of a download. -/
def listing (downloadID : UUID) : List Torrent :=
  (w.torrents.map ClientTorrent.torrent).filter fun t => setting.inScope downloadID t

/-- The handler returns an error: it compensates if it owns the torrent. -/
def failRun (downloadID : UUID) (first : List Nat) (resolution : HashResolution) : World :=
  w.setRun downloadID
    (if resolution.reason = .existing then .idle else .failed first resolution.hash)

/-- `CompleteEnqueue` for the torrent that a run resolved. -/
def storeCompletion (downloadID : UUID) (legacy : Bool) (new : NewOperation)
    (fileID : Nat → UUID) (completion : DownloadEnqueueCompletion) (resolution : HashResolution) :
    Except Fault (Unit × Database) :=
  let completion := { completion with
    downloadID, torrentHash := resolution.hash, savePath := setting.savePath downloadID }
  if legacy then completeLegacyEnqueue new fileID completion w.db
  else completeEnqueue new fileID completion w.db

/-- What an action does; an action that does not fit the phase of its handler does nothing. -/
def step : Action → World
  | .begin d => match w.runs d with
    | .idle => w.setRun d .ready
    | _ => w
  | .giveUp d => match w.runs d with
    | .ready | .looked _ | .listed _ _ | .confirming _ _ => w.setRun d .idle
    | _ => w
  | .lookAtSavePath d => match w.runs d with
    | .ready =>
      -- only a torrent file over HTTP is looked for by its save path
      if isMagnetSource (setting.source d) = false ∧ setting.isHTTPSource d then
        match resolveTorrentBySavePath (w.torrents.map ClientTorrent.torrent)
            (setting.savePath d) with
        | .ok (some resolution) => w.setRun d (.resolved w.serials resolution)
        | .ok none => w.setRun d (.looked w.serials)
        | .error _ => w.setRun d .idle
      else w
    | _ => w
  | .listBefore d => match w.runs d with
    | .ready =>
      if isMagnetSource (setting.source d) then listFirst d w.serials else w
    | .looked first => listFirst d first
    | _ => w
  | .add d accepted => match w.runs d with
    | .listed first before => w.setRun d (if accepted then .confirming first before else .idle)
    | _ => w
  | .poll d => match w.runs d with
    | .confirming first before =>
      match resolveAddedTorrentHash setting.parseAuthority before (w.listing setting d)
          (setting.requestSource d) with
      | some resolution => w.setRun d (.resolved first resolution)
      | none => w
    | _ => w
  | .fail d => match w.runs d with
    | .resolved first resolution => w.failRun d first resolution
    | _ => w
  | .complete d legacy new fileID completion answered => match w.runs d with
    | .resolved first resolution =>
      match w.storeCompletion setting d legacy new fileID completion resolution with
      | .ok (_, db) =>
        let w := { w with db, records := (d, resolution.hash) :: w.records }
        -- the commit stands even when its answer is lost, and the handler then compensates
        if answered then w.setRun d .idle else w.failRun d first resolution
      | .error _ => w.failRun d first resolution
    | _ => w
  | .compensate d => match w.runs d with
    | .failed _ _ => w.setRun d .idle
    | _ => w
  | .serve torrents serial => { w with torrents, serial }
  | .elsewhere db => { w with db }
where
  /-- The first listing of `AddAndConfirm` finds the torrent or goes on to add it. -/
  listFirst (d : UUID) (first : List Nat) : World :=
    match existingCorrelatedTorrent setting.parseAuthority (w.listing setting d)
        (setting.requestSource d) with
    | some resolution => w.setRun d (.resolved first resolution)
    | none => w.setRun d (.listed first (w.listing setting d))

end World

/-! ## The service -/

/-- The client holds one torrent for a hash, and numbers new ones higher. -/
structure ClientOK (torrents : List ClientTorrent) (serial : Nat) : Prop where
  fresh : ∀ t ∈ torrents, t.serial < serial
  distinct : ∀ a ∈ torrents, ∀ b ∈ torrents, a.key = b.key → a.key ≠ "" → a.serial = b.serial

/-- What is assumed of a change of the client, on a request or not: a torrent was added since, or
it was there before with its number and its hash, and then it has not moved into the category of a
download. -/
structure Served (w : World) (torrents : List ClientTorrent) (serial : Nat) : Prop where
  client : ClientOK torrents serial
  serial_le : w.serial ≤ serial
  kept : ∀ t' ∈ torrents, w.serial ≤ t'.serial ∨
    ∃ t ∈ w.torrents, t.serial = t'.serial ∧ t.key = t'.key ∧
      (t'.torrent.category = t.torrent.category ∨
        ∀ d, t'.torrent.category ≠ correlationCategory d)

/-- Handlers and other code may do anything, and the service keeps to its assumptions. -/
def Action.Allowed (w : World) : Action → Prop
  | .serve torrents serial => Served w torrents serial
  | _ => True

/-! ## Who is after which torrent -/

section Conditions

variable (setting : EnqueueSetting)

/-- The run has resolved the hash. -/
def Phase.Holds : Phase → String → Prop
  | .resolved _ resolution, hash => resolution.hash = hash
  | .failed _ found, hash => found = hash
  | _, _ => False

/-- The run of a download has resolved the hash, or the hash is stored for it. -/
def World.Holds (w : World) (d : UUID) (hash : String) : Prop :=
  (w.runs d).Holds hash ∨ (d, hash) ∈ w.records

/-- The hash is that of the download's link, or of a torrent in its category or at its save
path. -/
def World.Names (w : World) (d : UUID) (hash : String) : Prop :=
  (setting.link d ≠ "" ∧ hash = setting.link d) ∨
    ∃ t ∈ w.torrents, t.key = hash ∧ (t.torrent.category = correlationCategory d ∨
      normalizeSavePath t.torrent.savePath = normalizeSavePath (setting.savePath d))

/-- No other download holds a torrent that this one is after. -/
def World.Unshared (w : World) (d : UUID) : Prop :=
  ∀ hash, w.Names setting d hash → ∀ other, other ≠ d → ¬ w.Holds other hash

/-- For a link that does not show yet, no other torrent has shown up alone. -/
def World.NoneAlone (w : World) (d : UUID) : Prop :=
  ∀ first before, w.runs d = .confirming first before → setting.link d ≠ "" →
    setting.link d ∈ torrentHashes (w.listing setting d) ∨
      (newHashes before (w.listing setting d)).length ≠ 1

/-- The condition on a step: it only concerns listings. -/
def Action.Meets (w : World) : Action → Prop
  | .lookAtSavePath d | .listBefore d => w.Unshared setting d
  | .poll d => w.Unshared setting d ∧ w.NoneAlone setting d
  | _ => True

/-- No handler is under way. -/
structure Initial (w : World) : Prop where
  idle : ∀ d, w.runs d = .idle
  client : ClientOK w.torrents w.serial

/-- The states that a run reaches whose steps all meet a condition. -/
inductive EnqueueRun (condition : World → Action → Prop) (w₀ : World) : World → Prop where
  | start : EnqueueRun condition w₀ w₀
  | next {w : World} (run : EnqueueRun condition w₀ w) (action : Action)
      (allowed : action.Allowed w) (meets : condition w action) :
      EnqueueRun condition w₀ (w.step setting action)

/-- What the compensation of the download has the client delete: the torrents with the hash that
its run failed with. None of them was there at the first listing of the run, and their hash is
stored for no other download. -/
def World.SparesOthers (w : World) (d : UUID) : Prop :=
  ∀ first hash, w.runs d = .failed first hash → ∀ t ∈ w.torrents, t.key = hash →
    t.serial ∉ first ∧ ∀ other, other ≠ d → (other, hash) ∉ w.records

end Conditions

end EmbyAuto
