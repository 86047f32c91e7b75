import EmbyAuto.Relational.Behavior
import EmbyAuto.Relational.Page
import EmbyAuto.Store.Value

/-!
# The stream of domain events

`StreamEvents` and its reader. Transactions insert events, which get their number when they are
inserted and become visible when their transaction commits. A connected reader polls for the
events after its cursor and writes them to the client; a client that lost its connection comes
back with the identifier of the last event it received.

The reader reads twice for each poll, once to find the cursor and once for the events after it,
and everything may happen in between. What the server has written is on its way until the client
receives it, and a connection that ends loses it.

## Main definitions

* `EventStore`, `EventStream`: the table of events with its open transactions, and a client
* `StreamAction`, `EventStream.apply`: what can happen
* `Meets`: no number below a delivered one is committed, and no cursor is deleted
* `Polls`: again and again the client receives a whole poll

## Main results

* `received_in_order`: the client receives committed events, in order
* `stream_delivers`: every event is then delivered once, in order
* `late_commit_skipped`: an event that is committed late is never delivered
-/

namespace EmbyAuto

open Relational
open scoped List

/-! ## The events and the client -/

/-- A row of `events`. The other columns are sent as they are. -/
structure StoredEvent where
  id : UUID
  sequence : Nat
  deriving DecidableEq

/-- The table of events: the rows that transactions have inserted and not committed, with their
transaction, and the committed rows. `drawn` are all the identifiers that were ever drawn. -/
structure EventStore where
  nextSequence : Nat := 1
  uncommitted : List (UUID × StoredEvent) := []
  visible : List StoredEvent := []
  drawn : List UUID := []

/-- The server's side of a connection: the cursor of `eventReader`, whether `GetEvent` has found
it for the current poll, whether a write has failed, and what was written and is on its way. -/
structure Connection where
  cursor : Option UUID
  validated : Bool := false
  broken : Bool := false
  inFlight : List StoredEvent := []

/-- The events, and a client with the identifier that it sends when it connects. -/
structure EventStream where
  store : EventStore := {}
  lastEventID : Option UUID := none
  received : List StoredEvent := []
  connection : Option Connection := none

/-- What happens to the table of events. An identity column hands out its numbers in the order
of the insertions, whenever and whether the transactions commit. -/
inductive StoreAction where
  | insert (transaction id : UUID)
  | commit (transaction : UUID)
  | rollback (transaction : UUID)
  | delete (expired : StoredEvent → Bool)

/-- What happens to the reader; `list` writes some of the events that it finds. -/
inductive ReaderAction where
  | connect
  | validate
  | list (written : Nat)
  | receive
  | disconnect

inductive StreamAction where
  | store (action : StoreAction)
  | reader (action : ReaderAction)

namespace EventStore

/-- The events that a transaction has inserted and not committed. -/
def insertedBy (store : EventStore) (transaction : UUID) : List StoredEvent :=
  (store.uncommitted.filter fun e => e.1 = transaction).map Prod.snd

def apply (store : EventStore) : StoreAction → Option EventStore
  | .insert transaction id =>
    if id ∈ store.drawn then none
    else some { store with
      nextSequence := store.nextSequence + 1
      uncommitted := store.uncommitted ++ [(transaction, ⟨id, store.nextSequence⟩)]
      drawn := id :: store.drawn }
  | .commit transaction => some { store with
      uncommitted := store.uncommitted.filter fun e => e.1 ≠ transaction
      visible := store.visible ++ store.insertedBy transaction }
  | .rollback transaction => some { store with
      uncommitted := store.uncommitted.filter fun e => e.1 ≠ transaction }
  | .delete expired => some { store with visible := store.visible.filter fun e => !expired e }

def getEvent (store : EventStore) (id : UUID) : Option StoredEvent :=
  store.visible.find? fun e => e.id = id

def listEvents (store : EventStore) (pageSize : Nat) : List StoredEvent :=
  page StoredEvent.sequence pageSize store.visible

/-- The join with the cursor's row leaves nothing when the row is gone. -/
def listEventsAfter (store : EventStore) (cursorID : UUID) (pageSize : Nat) : List StoredEvent :=
  match store.getEvent cursorID with
  | none => []
  | some cursor => page StoredEvent.sequence pageSize
      (store.visible.filter fun e => cursor.sequence < e.sequence)

/-- The second read of `Events.List`. -/
def list (store : EventStore) (cursor : Option UUID) (limit : Nat) : List StoredEvent :=
  match cursor with
  | none => store.listEvents limit
  | some id => store.listEventsAfter id limit

end EventStore

def eventBatchSize : Nat := 100

/-- `writeEventBatch`: the cursor follows the events that were written. -/
def Connection.write (c : Connection) (batch : List StoredEvent) (written : Nat) : Connection where
  cursor := ((batch.take written).getLast?.map (·.id)).or c.cursor
  broken := written < batch.length
  inFlight := c.inFlight ++ batch.take written

namespace EventStream

/-- The first read of `Events.List`; a cursor that is gone ends the stream. -/
def validate (s : EventStream) (c : Connection) : EventStream :=
  match c.cursor with
  | none => { s with connection := some { c with validated := true } }
  | some id =>
    if (s.store.getEvent id).isSome then { s with connection := some { c with validated := true } }
    else { s with connection := none }

def applyReader (s : EventStream) : ReaderAction → Option EventStream
  | .connect =>
    match s.connection with
    | none => some { s with connection := some { cursor := s.lastEventID } }
    | some _ => none
  | .validate => s.connection.bind fun c =>
      if c.broken || c.validated then none else some (s.validate c)
  | .list written => s.connection.bind fun c =>
      if c.broken || !c.validated then none
      else some { s with
        connection := some (c.write (s.store.list c.cursor eventBatchSize) written) }
  | .receive => s.connection.bind fun c =>
      match c.inFlight with
      | [] => none
      | e :: rest => some { s with
          lastEventID := some e.id
          received := s.received ++ [e]
          connection := some { c with inFlight := rest } }
  | .disconnect => some { s with connection := none }

/-- One step, where it is possible. -/
def apply (action : StreamAction) (s : EventStream) : Option EventStream :=
  match action with
  | .store action => (s.store.apply action).map fun store => { s with store }
  | .reader action => s.applyReader action

/-- The events on their way to the client. -/
def inFlight (s : EventStream) : List StoredEvent := (s.connection.map (·.inFlight)).getD []

/-- The events that the client received or that are on their way to it. -/
def handed (s : EventStream) : List StoredEvent := s.received ++ s.inFlight

end EventStream

/-- Where a client starts: the identifier it sends first, and the number of that event. -/
structure StartingPoint where
  cursor : Option UUID := none
  sequence : Nat := 0

/-- The number of the last event of a delivery. -/
def StartingPoint.position (start : StartingPoint) (events : List StoredEvent) : Nat :=
  (events.getLast?.map (·.sequence)).getD start.sequence

/-- The identifier of the last event of a delivery. -/
def StartingPoint.cursorAfter (start : StartingPoint) (events : List StoredEvent) : Option UUID :=
  (events.getLast?.map (·.id)).or start.cursor

/-! ## What always holds -/

/-- All rows, committed or not. -/
def EventStore.all (store : EventStore) : List StoredEvent :=
  store.uncommitted.map Prod.snd ++ store.visible

structure EventStore.Sound (store : EventStore) : Prop where
  first : 0 < store.nextSequence
  numbered : ∀ e ∈ store.all, 0 < e.sequence ∧ e.sequence < store.nextSequence
  drawn : ∀ e ∈ store.all, e.id ∈ store.drawn
  distinct : (store.all.map (·.sequence)).Nodup
  unique : ∀ e ∈ store.all, ∀ e' ∈ store.all, e.id = e'.id → e = e'

/-- What one step does to the rows: new ones have identifiers that were not drawn before. -/
structure EventStore.Evolves (store store' : EventStore) : Prop where
  drawn : ∀ id ∈ store.drawn, id ∈ store'.drawn
  all : ∀ e ∈ store'.all, e ∈ store.all ∨ e.id ∉ store.drawn

section Store

variable {store store' : EventStore} {transaction : UUID}

/-- A commit moves rows from one list to the other. -/
theorem EventStore.all_commit (hcommit : store.apply (.commit transaction) = some store') :
    store'.all ~ store.all := by
  obtain rfl := Option.some.inj hcommit
  have hsplit := (List.filter_append_perm (fun e : UUID × StoredEvent => decide (e.1 = transaction))
    store.uncommitted).map Prod.snd
  calc (store.uncommitted.filter fun e => e.1 ≠ transaction).map Prod.snd ++
        (store.visible ++ store.insertedBy transaction)
      ~ store.insertedBy transaction ++
        ((store.uncommitted.filter fun e => e.1 ≠ transaction).map Prod.snd ++ store.visible) := by
        rw [← List.append_assoc]
        exact List.perm_append_comm
    _ = (store.insertedBy transaction ++
        (store.uncommitted.filter fun e => e.1 ≠ transaction).map Prod.snd) ++ store.visible := by
        rw [List.append_assoc]
    _ ~ store.uncommitted.map Prod.snd ++ store.visible := by
        refine List.Perm.append_right _ ?_
        simpa [EventStore.insertedBy] using hsplit

/-- All other steps insert nothing. -/
theorem EventStore.Sound.of_subperm (h : store.Sound) (hall : store'.all <+~ store.all)
    (hnext : store'.nextSequence = store.nextSequence) (hdrawn : store'.drawn = store.drawn) :
    store'.Sound ∧ store.Evolves store' := by
  have hmem : ∀ e ∈ store'.all, e ∈ store.all := fun e he => hall.subset he
  obtain ⟨rows, hperm, hsub⟩ := hall
  have hdistinct := (hperm.map (·.sequence)).nodup_iff.mp (h.distinct.sublist (hsub.map _))
  exact ⟨⟨hnext ▸ h.first, fun e he => hnext ▸ h.numbered e (hmem e he),
    fun e he => hdrawn ▸ h.drawn e (hmem e he), hdistinct,
    fun e he e' he' => h.unique e (hmem e he) e' (hmem e' he')⟩,
    ⟨fun id hid => hdrawn ▸ hid, fun e he => .inl (hmem e he)⟩⟩

theorem EventStore.Sound.apply (h : store.Sound) {action : StoreAction}
    (hstep : store.apply action = some store') : store'.Sound ∧ store.Evolves store' := by
  cases action with
  | insert transaction id =>
    simp only [EventStore.apply, Option.ite_none_left_eq_some, Option.some.injEq] at hstep
    obtain ⟨hfresh, rfl⟩ := hstep
    -- the new event has a number above all others and an identifier of its own
    have hall : EventStore.all { store with
        nextSequence := store.nextSequence + 1
        uncommitted := store.uncommitted ++ [(transaction, ⟨id, store.nextSequence⟩)]
        drawn := id :: store.drawn } ~ ⟨id, store.nextSequence⟩ :: store.all := by
      simp only [EventStore.all, List.map_append, List.append_assoc]
      exact List.perm_middle
    have hmem := fun e => (hall.mem_iff (a := e)).trans List.mem_cons
    have hnew : ∀ e ∈ store.all, e.id ≠ id := fun e he hid => hfresh (hid ▸ h.drawn e he)
    refine ⟨⟨Nat.succ_pos _, fun e he => ?_, fun e he => ?_, ?_, fun e he e' he' hid => ?_⟩,
      ⟨fun _ => List.mem_cons_of_mem _, fun e he => ?_⟩⟩
    · rcases (hmem e).mp he with rfl | he
      · exact ⟨h.first, Nat.lt_succ_self _⟩
      · exact ⟨(h.numbered e he).1, Nat.lt_succ_of_lt (h.numbered e he).2⟩
    · rcases (hmem e).mp he with rfl | he
      · exact List.mem_cons_self
      · exact List.mem_cons_of_mem _ (h.drawn e he)
    · rw [(hall.map _).nodup_iff, List.map_cons, List.nodup_cons]
      refine ⟨fun hin => ?_, h.distinct⟩
      obtain ⟨e, he, hsequence⟩ := List.mem_map.mp hin
      have := h.numbered e he
      dsimp only at hsequence
      omega
    · rcases (hmem e).mp he with rfl | he <;> rcases (hmem e').mp he' with rfl | he'
      · rfl
      · exact absurd hid.symm (hnew e' he')
      · exact absurd hid (hnew e he)
      · exact h.unique e he e' he' hid
    · rcases (hmem e).mp he with rfl | he
      · exact .inr hfresh
      · exact .inl he
  | commit transaction =>
    have hall := (EventStore.all_commit hstep).subperm
    obtain rfl := Option.some.inj hstep
    exact h.of_subperm hall rfl rfl
  | rollback transaction =>
    obtain rfl := Option.some.inj hstep
    exact h.of_subperm ((List.filter_sublist.map _).append_right _).subperm rfl rfl
  | delete expired =>
    obtain rfl := Option.some.inj hstep
    exact h.of_subperm (List.filter_sublist.append_left _).subperm rfl rfl

end Store

/-- What is known of a delivery: it is in strict order after the start, and a row with the
identifier of a delivered event is that event. -/
structure Delivery (start : StartingPoint) (store : EventStore) (events : List StoredEvent) :
    Prop where
  ordered : events.Pairwise (·.sequence < ·.sequence)
  above : ∀ e ∈ events, start.sequence < e.sequence
  drawn : ∀ e ∈ events, e.id ∈ store.drawn
  same : ∀ e ∈ events, ∀ row ∈ store.all, row.id = e.id → row = e

/-- The row with the identifier that the client started from has the number it started from. -/
structure StartingPoint.Known (start : StartingPoint) (store : EventStore) : Prop where
  fresh : start.cursor = none → start.sequence = 0
  drawn : ∀ id, start.cursor = some id → id ∈ store.drawn
  same : ∀ row ∈ store.all, start.cursor = some row.id → row.sequence = start.sequence

variable {e : StoredEvent} {action : StreamAction}

section Delivery

variable {start : StartingPoint} {store store' : EventStore} {events : List StoredEvent}

theorem StartingPoint.Known.evolves (h : start.Known store) (hstore : store.Evolves store') :
    start.Known store' := by
  refine ⟨h.fresh, fun id hid => hstore.drawn id (h.drawn id hid), fun row hrow hid => ?_⟩
  rcases hstore.all row hrow with hold | hnew
  · exact h.same row hold hid
  · exact absurd (h.drawn _ hid) hnew

/-- What comes after the start and after everything delivered comes after the position. -/
theorem StartingPoint.position_lt {n : Nat} (hstart : start.sequence < n)
    (hevents : ∀ e ∈ events, e.sequence < n) : start.position events < n := by
  unfold StartingPoint.position
  cases hlast : events.getLast? with
  | none => exact hstart
  | some e => exact hevents e (List.mem_of_getLast? hlast)

theorem EventStore.Sound.visible_distinct (h : store.Sound) (p : StoredEvent → Bool) :
    ((store.visible.filter p).map (·.sequence)).Nodup := by
  have hdistinct := h.distinct
  rw [EventStore.all, List.map_append] at hdistinct
  exact (List.nodup_append.mp hdistinct).2.1.sublist (List.filter_sublist.map _)

variable (h : Delivery start store events)
include h

theorem Delivery.evolves (hstore : store.Evolves store') : Delivery start store' events := by
  refine ⟨h.ordered, h.above, fun e he => hstore.drawn _ (h.drawn e he),
    fun e he row hrow hid => ?_⟩
  rcases hstore.all row hrow with hold | hnew
  · exact h.same e he row hold hid
  · exact absurd (hid ▸ h.drawn e he) hnew

theorem Delivery.of_initial {events'} (hinitial : events' <+: events) :
    Delivery start store events' := by
  have hmem := fun e => hinitial.subset (a := e)
  exact ⟨h.ordered.sublist hinitial.sublist, fun e he => h.above e (hmem e he),
    fun e he => h.drawn e (hmem e he), fun e he => h.same e (hmem e he)⟩

/-- Nothing delivered is after the position. -/
theorem Delivery.le_position (he : e ∈ events) : e.sequence ≤ start.position events := by
  have hne : events ≠ [] := List.ne_nil_of_mem he
  rw [StartingPoint.position, List.getLast?_eq_getLast_of_ne_nil hne, Option.map_some]
  have hsplit := List.dropLast_append_getLast hne
  rw [← hsplit, List.mem_append, List.mem_singleton] at he
  have hordered := h.ordered
  rw [← hsplit, List.pairwise_append] at hordered
  rcases he with he | rfl
  · exact (hordered.2.2 e he _ (List.mem_singleton_self _)).le
  · exact le_rfl

theorem Delivery.start_le_position : start.sequence ≤ start.position events := by
  unfold StartingPoint.position
  cases hlast : events.getLast? with
  | none => exact le_rfl
  | some e => exact (h.above e (List.mem_of_getLast? hlast)).le

/-- The row that a cursor names stands at the position. -/
theorem Delivery.getEvent_cursor (hstart : start.Known store) {id : UUID} {row : StoredEvent}
    (hcursor : start.cursorAfter events = some id)
    (hrow : store.getEvent id = some row) : row.sequence = start.position events := by
  have hmem : row ∈ store.all := List.mem_append_right _ (List.mem_of_find?_eq_some hrow)
  have hid : row.id = id := by simpa using List.find?_some hrow
  unfold StartingPoint.cursorAfter at hcursor
  unfold StartingPoint.position
  cases hlast : events.getLast? with
  | none =>
    rw [hlast] at hcursor
    exact hstart.same row hmem (hid ▸ hcursor)
  | some e =>
    rw [hlast] at hcursor
    have hsame : row.id = e.id := hid.trans (Option.some.inj hcursor).symm
    rw [h.same e (List.mem_of_getLast? hlast) row hmem hsame]
    rfl

/-- What a poll finds: nothing if the cursor is gone, and otherwise the first events after the
position. -/
theorem Delivery.list_eq (hstart : start.Known store) (hstore : store.Sound) (limit : Nat) :
    (store.list (start.cursorAfter events) limit = [] ∧
        ∃ id, start.cursorAfter events = some id ∧ store.getEvent id = none) ∨
      store.list (start.cursorAfter events) limit = page StoredEvent.sequence limit
        (store.visible.filter fun e => start.position events < e.sequence) := by
  cases hcursor : start.cursorAfter events with
  | none =>
    right
    -- Without a cursor nothing was delivered, and every number is positive.
    have hnil : events.getLast? = none ∧ start.cursor = none := by
      simpa [StartingPoint.cursorAfter] using hcursor
    have hposition : start.position events = 0 := by
      rw [StartingPoint.position, hnil.1]
      exact hstart.fresh hnil.2
    have hall : (store.visible.filter fun e => start.position events < e.sequence) =
        store.visible := by
      refine List.filter_eq_self.mpr fun e he => ?_
      rw [hposition]
      exact decide_eq_true (hstore.numbered e (List.mem_append_right _ he)).1
    rw [hall]
    rfl
  | some id =>
    simp only [EventStore.list, EventStore.listEventsAfter]
    cases hrow : store.getEvent id with
    | none => exact .inl ⟨rfl, id, rfl, hrow⟩
    | some row =>
      right
      simp [h.getEvent_cursor hstart hcursor hrow]

/-- What a poll writes continues the delivery. -/
theorem Delivery.append (hstart : start.Known store) (hstore : store.Sound) (limit written : Nat) :
    Delivery start store (events ++ (store.list (start.cursorAfter events) limit).take
      written) := by
  rcases h.list_eq hstart hstore limit with ⟨hnil, -⟩ | hpage
  · rwa [hnil, List.take_nil, List.append_nil]
  rw [hpage]
  have hbatch : ∀ e ∈ (page StoredEvent.sequence limit (store.visible.filter fun e =>
      start.position events < e.sequence)).take written,
      e ∈ store.visible ∧ start.position events < e.sequence := by
    intro e he
    simpa using mem_of_mem_page (List.mem_of_mem_take he)
  have hordered := (pairwise_page (hstore.visible_distinct fun e =>
    start.position events < e.sequence)).sublist (List.take_sublist written (page _ limit _))
  have hrow := fun e he => List.mem_append_right (store.uncommitted.map Prod.snd) (hbatch e he).1
  refine ⟨List.pairwise_append.mpr ⟨h.ordered, hordered, fun e he e' he' => ?_⟩, fun e he => ?_,
    fun e he => ?_, fun e he row hmem hid => ?_⟩
  · exact lt_of_le_of_lt (h.le_position he) (hbatch e' he').2
  · rcases List.mem_append.mp he with he | he
    · exact h.above e he
    · exact lt_of_le_of_lt h.start_le_position (hbatch e he).2
  · rcases List.mem_append.mp he with he | he
    · exact h.drawn e he
    · exact hstore.drawn e (hrow e he)
  · rcases List.mem_append.mp he with he | he
    · exact h.same e he row hmem hid
    · exact hstore.unique row hmem e (hrow e he) hid

theorem Delivery.position_mono {events'} (hinitial : events' <+: events) :
    start.position events' ≤ start.position events := by
  conv_lhs => unfold StartingPoint.position
  cases hlast : events'.getLast? with
  | none => exact h.start_le_position
  | some last => exact h.le_position (hinitial.subset (List.mem_of_getLast? hlast))

end Delivery

/-- The delivery and the cursors of both sides agree. -/
structure EventStream.Sound (start : StartingPoint) (s : EventStream) : Prop where
  store : s.store.Sound
  begun : start.Known s.store
  delivery : Delivery start s.store s.handed
  last : s.lastEventID = start.cursorAfter s.received
  cursor : ∀ c, s.connection = some c → c.cursor = start.cursorAfter s.handed

section Steps

variable {start : StartingPoint} {s s' : EventStream}

/-- What a step of the reader can do. -/
inductive ReaderStep (s : EventStream) : ReaderAction → EventStream → Prop where
  | connect (hclosed : s.connection = none) :
      ReaderStep s .connect { s with connection := some { cursor := s.lastEventID } }
  | found {c} (hopen : s.connection = some c) (hpresent : ∀ id, c.cursor = some id →
        (s.store.getEvent id).isSome) :
      ReaderStep s .validate { s with connection := some { c with validated := true } }
  | gone {c id} (hopen : s.connection = some c) (hcursor : c.cursor = some id)
      (hgone : s.store.getEvent id = none) : ReaderStep s .validate { s with connection := none }
  | list {c written} (hopen : s.connection = some c) : ReaderStep s (.list written) { s with
      connection := some (c.write (s.store.list c.cursor eventBatchSize) written) }
  | receive {c e rest} (hopen : s.connection = some c) (hnext : c.inFlight = e :: rest) :
      ReaderStep s .receive { s with
        lastEventID := some e.id
        received := s.received ++ [e]
        connection := some { c with inFlight := rest } }
  | disconnect : ReaderStep s .disconnect { s with connection := none }

theorem readerStep_of_apply {action : ReaderAction} (h : s.applyReader action = some s') :
    ReaderStep s action s' := by
  cases action with
  | connect =>
    cases hconnection : s.connection with
    | some c => simp [EventStream.applyReader, hconnection] at h
    | none =>
      simp only [EventStream.applyReader, hconnection, Option.some.injEq] at h
      subst h
      exact .connect hconnection
  | validate =>
    obtain ⟨c, hopen, h⟩ := Option.bind_eq_some_iff.mp h
    obtain ⟨-, rfl⟩ : _ ∧ s.validate c = s' := by
      simpa [Option.ite_none_left_eq_some] using h
    unfold EventStream.validate
    split
    · rename_i hcursor
      exact .found hopen (by simp [hcursor])
    · rename_i id hcursor
      split
      · rename_i hpresent
        refine .found hopen fun id' hid => ?_
        rw [hcursor] at hid
        obtain rfl := Option.some.inj hid
        exact hpresent
      · rename_i hgone
        exact .gone hopen hcursor (by simpa using hgone)
  | list written =>
    obtain ⟨c, hopen, h⟩ := Option.bind_eq_some_iff.mp h
    obtain ⟨-, rfl⟩ := Option.ite_none_left_eq_some.mp h |>.imp_right Option.some.inj
    exact .list hopen
  | receive =>
    obtain ⟨c, hopen, h⟩ := Option.bind_eq_some_iff.mp h
    cases hnext : c.inFlight with
    | nil => simp [hnext] at h
    | cons e rest =>
      simp only [hnext, Option.some.injEq] at h
      subst h
      exact .receive hopen hnext
  | disconnect =>
    obtain rfl := Option.some.inj h
    exact .disconnect

theorem EventStream.handed_open {c : Connection} (hopen : s.connection = some c) :
    s.handed = s.received ++ c.inFlight := by
  simp [EventStream.handed, EventStream.inFlight, hopen]

theorem EventStream.handed_closed (hclosed : s.connection = none) : s.handed = s.received := by
  simp [EventStream.handed, EventStream.inFlight, hclosed]

theorem StartingPoint.cursorAfter_append {events more} : start.cursorAfter (events ++ more) =
      (more.getLast?.map (·.id)).or (start.cursorAfter events) := by
  unfold StartingPoint.cursorAfter
  rw [List.getLast?_append]
  cases more.getLast? <;> rfl

/-- A poll writes after what was handed over before. -/
theorem EventStream.handed_list {c : Connection} (hopen : s.connection = some c) (written : Nat) :
    EventStream.handed { s with
        connection := some (c.write (s.store.list c.cursor eventBatchSize) written) } =
      s.handed ++ (s.store.list c.cursor eventBatchSize).take written := by
  rw [s.handed_open hopen, List.append_assoc]
  rfl

theorem EventStream.handed_receive {c : Connection} {rest} (hopen : s.connection = some c)
    (hnext : c.inFlight = e :: rest) : EventStream.handed { s with
        lastEventID := some e.id
        received := s.received ++ [e]
        connection := some { c with inFlight := rest } } = s.handed := by
  rw [s.handed_open hopen, hnext]
  exact (List.append_cons _ _ _).symm

/-- **Steps keep the delivery in order**, whatever happens. -/
theorem EventStream.Sound.apply (h : s.Sound start) (hstep : EventStream.apply action s = some s') :
    s'.Sound start := by
  cases action with
  | store action =>
    obtain ⟨store', hstore, rfl⟩ := Option.map_eq_some_iff.mp hstep
    obtain ⟨hsound, hevolves⟩ := h.store.apply hstore
    exact ⟨hsound, h.begun.evolves hevolves, h.delivery.evolves hevolves, h.last, h.cursor⟩
  | reader action =>
    -- what is in flight is lost when the connection ends, what was received is not
    have hreceived : Delivery start s.store s.received :=
      h.delivery.of_initial (List.prefix_append _ _)
    cases readerStep_of_apply hstep with
    | connect hclosed =>
      have hhanded : EventStream.handed { s with
          connection := some { cursor := s.lastEventID } } = s.received := List.append_nil _
      refine ⟨h.store, h.begun, by rwa [hhanded], h.last, fun c hc => ?_⟩
      obtain rfl := Option.some.inj hc
      rw [hhanded]
      exact h.last
    | @found c hopen =>
      have hhanded : EventStream.handed { s with
          connection := some { c with validated := true } } = s.handed :=
        (s.handed_open hopen).symm
      refine ⟨h.store, h.begun, by rw [hhanded]; exact h.delivery, h.last, fun c hc => ?_⟩
      obtain rfl := Option.some.inj hc
      rw [hhanded]
      exact h.cursor c hopen
    | gone | disconnect =>
      have hhanded : EventStream.handed { s with connection := none } = s.received :=
        List.append_nil _
      exact ⟨h.store, h.begun, by rwa [hhanded], h.last, nofun⟩
    | @list c written hopen =>
      have hhanded := s.handed_list hopen written
      have hcursor := h.cursor c hopen
      refine ⟨h.store, h.begun, ?_, h.last, fun c' hc => ?_⟩
      · rw [hhanded, hcursor]
        exact h.delivery.append h.begun h.store _ _
      · obtain rfl := Option.some.inj hc
        rw [hhanded, StartingPoint.cursorAfter_append, ← hcursor]
        rfl
    | @receive c e rest hopen hnext =>
      have hhanded := s.handed_receive hopen hnext
      refine ⟨h.store, h.begun, by rw [hhanded]; exact h.delivery, ?_, fun c' hc => ?_⟩
      · rw [StartingPoint.cursorAfter_append]
        rfl
      · obtain rfl := Option.some.inj hc
        rw [hhanded]
        exact h.cursor c hopen

/-- The client only ever gains events, in order. -/
theorem EventStream.received_grows (hstep : EventStream.apply action s = some s') :
    s.received <+: s'.received := by
  cases action with
  | store action =>
    obtain ⟨store', -, rfl⟩ := Option.map_eq_some_iff.mp hstep
    exact List.prefix_rfl
  | reader action =>
    cases readerStep_of_apply hstep with
    | receive => exact List.prefix_append _ _
    | _ => exact List.prefix_rfl

end Steps

/-! ## What holds while nothing is committed late -/

/-- A step that neither commits a number below one that was handed to the client, nor deletes the
event that the client would name when it comes back, or one on its way to the client. -/
def Meets (s : EventStream) : StreamAction → Prop
  | .store (.commit transaction) =>
    ∀ e ∈ s.store.insertedBy transaction, ∀ delivered ∈ s.handed, delivered.sequence < e.sequence
  | .store (.delete expired) => ∀ e ∈ s.store.visible, expired e = true →
    s.lastEventID ≠ some e.id ∧ e ∉ s.inFlight
  | _ => True

instance (s : EventStream) (action : StreamAction) : Decidable (Meets s action) :=
  match action with
  | .store (.commit transaction) =>
      inferInstanceAs (Decidable (∀ e ∈ s.store.insertedBy transaction,
      ∀ delivered ∈ s.handed, delivered.sequence < e.sequence))
  | .store (.delete expired) => inferInstanceAs (Decidable (∀ e ∈ s.store.visible,
      expired e = true → s.lastEventID ≠ some e.id ∧ e ∉ s.inFlight))
  | .store (.insert ..) | .store (.rollback ..) | .reader _ => .isTrue trivial

/-- No visible event was passed over, and the events that can become a cursor are there. -/
structure EventStream.Complete (start : StartingPoint) (s : EventStream) : Prop where
  none_skipped : ∀ e ∈ s.store.visible, start.sequence < e.sequence →
    e.sequence ≤ start.position s.handed → e ∈ s.handed
  last_visible : ∀ id, s.lastEventID = some id → ∃ e ∈ s.store.visible, e.id = id
  inFlight_visible : ∀ e ∈ s.inFlight, e ∈ s.store.visible

section Complete

variable {start : StartingPoint} {s s' : EventStream}

/-- No event that is visible was passed over by what the client has received. -/
theorem EventStream.Complete.mem_received (h : s.Complete start) (hsound : s.Sound start)
    (he : e ∈ s.store.visible) (habove : start.sequence < e.sequence)
    (hle : e.sequence ≤ start.position s.received) : e ∈ s.received := by
  have hinitial : s.received <+: s.handed := List.prefix_append _ _
  have hhanded := h.none_skipped e he habove
    (hle.trans (hsound.delivery.position_mono hinitial))
  obtain ⟨rest, hrest⟩ := hinitial
  rw [← hrest] at hhanded
  refine (List.mem_append.mp hhanded).resolve_right fun he => ?_
  -- An event of the rest comes after the start and after all of the prefix.
  have hordered := hsound.delivery.ordered
  rw [← hrest, List.pairwise_append] at hordered
  exact absurd hle (Nat.not_le.mpr
    (StartingPoint.position_lt habove fun e' he' => hordered.2.2 e' he' e he))

/-- The cursor of an open connection names a visible event. -/
theorem EventStream.Complete.cursor_visible (h : s.Complete start) (hsound : s.Sound start)
    {c : Connection} (hopen : s.connection = some c) {id : UUID} (hcursor : c.cursor = some id) :
    (s.store.getEvent id).isSome = true := by
  have hvisible : ∃ e ∈ s.store.visible, e.id = id := by
    rw [hsound.cursor c hopen, EventStream.handed, StartingPoint.cursorAfter_append,
      ← hsound.last] at hcursor
    cases hlast : s.inFlight.getLast? with
    | none =>
      rw [hlast] at hcursor
      exact h.last_visible id hcursor
    | some e =>
      rw [hlast] at hcursor
      exact ⟨e, h.inFlight_visible e (List.mem_of_getLast? hlast), Option.some.inj hcursor⟩
  obtain ⟨e, he, hid⟩ := hvisible
  rw [EventStore.getEvent, List.find?_isSome]
  exact ⟨e, he, decide_eq_true hid⟩

/-- What a poll finds while its cursor is there. -/
theorem EventStream.Complete.list_eq (h : s.Complete start) (hsound : s.Sound start)
    {c : Connection} (hopen : s.connection = some c) :
    s.store.list c.cursor eventBatchSize = page StoredEvent.sequence eventBatchSize
      (s.store.visible.filter fun e => start.position s.handed < e.sequence) := by
  rw [hsound.cursor c hopen]
  rcases hsound.delivery.list_eq hsound.begun hsound.store eventBatchSize with
    ⟨-, id, hcursor, hgone⟩ | hpage
  · have hpresent := h.cursor_visible hsound hopen ((hsound.cursor c hopen).trans hcursor)
    rw [hgone] at hpresent
    cases hpresent
  · exact hpage

/-- A poll passes over nothing. -/
theorem EventStream.Complete.list_none_skipped (h : s.Complete start) (hsound : s.Sound start)
    {c : Connection} (hopen : s.connection = some c) {written : Nat} (he : e ∈ s.store.visible)
    (habove : start.sequence < e.sequence)
    (hle : e.sequence ≤ start.position
      (s.handed ++ (s.store.list c.cursor eventBatchSize).take written)) :
    e ∈ s.handed ++ (s.store.list c.cursor eventBatchSize).take written := by
  by_cases hbefore : e.sequence ≤ start.position s.handed
  · exact List.mem_append_left _ (h.none_skipped e he habove hbefore)
  · refine List.mem_append_right _ ?_
    rw [h.list_eq hsound hopen] at hle ⊢
    have hmem : e ∈ s.store.visible.filter fun e => start.position s.handed < e.sequence :=
      List.mem_filter.mpr ⟨he, decide_eq_true (Nat.not_le.mp hbefore)⟩
    cases hlast : List.getLast? ((page StoredEvent.sequence eventBatchSize
        (s.store.visible.filter fun e => start.position s.handed < e.sequence)).take written) with
    | none =>
      rw [List.getLast?_eq_none_iff.mp hlast, List.append_nil] at hle
      exact absurd hle hbefore
    | some last =>
      rw [StartingPoint.position, List.getLast?_append, hlast] at hle
      exact mem_page_of_le (hsound.store.visible_distinct _) hmem (List.mem_of_getLast? hlast) hle

theorem EventStream.Complete.apply_store (h : s.Complete start) {action : StoreAction}
    (hmeets : Meets s (.store action)) {store' : EventStore}
    (hstep : s.store.apply action = some store') :
    EventStream.Complete start { s with store := store' } := by
  cases action with
  | insert transaction id =>
    simp only [EventStore.apply, Option.ite_none_left_eq_some, Option.some.injEq] at hstep
    obtain ⟨-, rfl⟩ := hstep
    exact ⟨h.none_skipped, h.last_visible, h.inFlight_visible⟩
  | commit transaction =>
    obtain rfl := Option.some.inj hstep
    refine ⟨fun e he habove hle => ?_, fun id hid => ?_, fun e he => ?_⟩
    · rcases List.mem_append.mp he with he | he
      · exact h.none_skipped e he habove hle
      -- A committed event comes after everything that was handed over.
      · exact absurd hle (Nat.not_le.mpr (StartingPoint.position_lt habove (hmeets e he)))
    · obtain ⟨e, he, heq⟩ := h.last_visible id hid
      exact ⟨e, List.mem_append_left _ he, heq⟩
    · exact List.mem_append_left _ (h.inFlight_visible e he)
  | rollback transaction =>
    obtain rfl := Option.some.inj hstep
    exact ⟨h.none_skipped, h.last_visible, h.inFlight_visible⟩
  | delete expired =>
    obtain rfl := Option.some.inj hstep
    refine ⟨fun e he => h.none_skipped e (List.mem_of_mem_filter he), fun id hid => ?_,
      fun e he => ?_⟩
    · obtain ⟨e, he, heq⟩ := h.last_visible id hid
      refine ⟨e, List.mem_filter.mpr ⟨he, ?_⟩, heq⟩
      by_contra hexpired
      exact (hmeets e he (by simpa using hexpired)).1 (hid.trans (by rw [heq]))
    · have hvisible := h.inFlight_visible e he
      refine List.mem_filter.mpr ⟨hvisible, ?_⟩
      by_contra hexpired
      exact (hmeets e hvisible (by simpa using hexpired)).2 he

/-- **Steps that meet the condition pass over nothing.** -/
theorem EventStream.Complete.apply (h : s.Complete start) (hsound : s.Sound start)
    (hmeets : Meets s action) (hstep : EventStream.apply action s = some s') :
    s'.Complete start := by
  cases action with
  | store action =>
    obtain ⟨store', hstore, rfl⟩ := Option.map_eq_some_iff.mp hstep
    exact h.apply_store hmeets hstore
  | reader action =>
    have hreceived : ∀ e ∈ s.store.visible, start.sequence < e.sequence →
        e.sequence ≤ start.position (s.received ++ []) → e ∈ s.received ++ [] := by
      rw [List.append_nil]
      exact fun e => h.mem_received hsound
    -- what is in flight was read from the committed events, which stay
    have hopened : ∀ c, s.connection = some c → ∀ e ∈ c.inFlight, e ∈ s.store.visible := by
      intro c hopen e he
      exact h.inFlight_visible e (by rwa [EventStream.inFlight, hopen])
    cases readerStep_of_apply hstep with
    | connect | gone | disconnect => exact ⟨hreceived, h.last_visible, nofun⟩
    | @found c hopen =>
      refine ⟨?_, h.last_visible, hopened c hopen⟩
      have hskipped := h.none_skipped
      rw [s.handed_open hopen] at hskipped
      exact hskipped
    | @list c written hopen =>
      refine ⟨?_, h.last_visible, fun e he => ?_⟩
      · rw [s.handed_list hopen]
        exact fun e => h.list_none_skipped hsound hopen
      · rcases List.mem_append.mp he with he | he
        · exact hopened c hopen e he
        · have he := List.mem_of_mem_take he
          rw [h.list_eq hsound hopen] at he
          exact List.mem_of_mem_filter (mem_of_mem_page he)
    | @receive c e rest hopen hnext =>
      have hvisible := hopened c hopen
      rw [hnext] at hvisible
      refine ⟨?_, fun id hid => ⟨e, hvisible e List.mem_cons_self, Option.some.inj hid⟩,
        fun e' he' => hvisible e' (List.mem_cons_of_mem _ he')⟩
      rw [s.handed_receive hopen hnext]
      exact h.none_skipped

end Complete

/-! ## Delivery -/

/-- A client that connects for the first time, with a cursor that is there or with none. -/
structure Begins (start : StartingPoint) (s : EventStream) : Prop where
  store : s.store.Sound
  known : start.Known s.store
  present : ∀ id, start.cursor = some id → ∃ e ∈ s.store.visible, e.id = id
  cursor : s.lastEventID = start.cursor
  received : s.received = []
  closed : s.connection = none

/-- Again and again the reader writes a whole batch, and the client receives all of it before the
connection ends. -/
def Polls (b : Behavior EventStream.apply) : Prop :=
  ∀ n, ∃ i j written, n ≤ i ∧ i < j ∧ b.action i = .reader (.list written) ∧
    (∀ c, (b.state (i + 1)).connection = some c → c.broken = false) ∧
    (∀ l, i ≤ l → l ≤ j → (b.state l).connection.isSome = true) ∧ (b.state j).inFlight = []

section Delivers

variable {start : StartingPoint} {s s' : EventStream}

theorem Begins.sound (h : Begins start s) : s.Sound start := by
  have hhanded : s.handed = [] := (s.handed_closed h.closed).trans h.received
  refine ⟨h.store, h.known, ?_, ?_, fun c hc => ?_⟩
  · rw [hhanded]
    exact ⟨List.Pairwise.nil, nofun, nofun, nofun⟩
  · rw [h.received]
    exact h.cursor
  · rw [h.closed] at hc
    cases hc

theorem Begins.complete (h : Begins start s) : s.Complete start := by
  have hhanded : s.handed = [] := (s.handed_closed h.closed).trans h.received
  refine ⟨fun e he habove hle => ?_, fun id hid => h.present id (h.cursor.symm.trans hid), ?_⟩
  · rw [hhanded] at hle
    exact absurd hle (Nat.not_le.mpr habove)
  · rw [EventStream.inFlight, h.closed]
    nofun

/-- While a connection lasts, what was handed over stays handed over. -/
theorem EventStream.handed_grows (hstep : EventStream.apply action s = some s')
    (hopen : s.connection.isSome = true) (hopen' : s'.connection.isSome = true) :
    s.handed <+: s'.handed := by
  cases action with
  | store action =>
    obtain ⟨store', -, rfl⟩ := Option.map_eq_some_iff.mp hstep
    exact List.prefix_rfl
  | reader action =>
    cases readerStep_of_apply hstep with
    | connect hclosed =>
      rw [hclosed] at hopen
      cases hopen
    | gone | disconnect => cases hopen'
    | @found c hconnection =>
      rw [s.handed_open hconnection]
      exact List.prefix_rfl
    | @list c written hconnection =>
      rw [s.handed_list hconnection]
      exact List.prefix_append _ _
    | @receive c e rest hconnection hnext =>
      rw [s.handed_receive hconnection hnext]

/-- A poll that writes a whole batch passes the position of `e`, or at least moves on. -/
theorem EventStream.Complete.list_advances (h : s.Complete start) (hsound : s.Sound start)
    {written : Nat} (hstep : EventStream.apply (.reader (.list written)) s = some s')
    (hwhole : ∀ c, s'.connection = some c → c.broken = false) (he : e ∈ s.store.visible)
    {position : Nat} (hbefore : position < e.sequence) (hle : position ≤ start.position s.handed) :
    position < start.position s'.handed := by
  have hsound' := hsound.apply hstep
  generalize haction : ReaderAction.list written = action at hstep
  cases readerStep_of_apply hstep with
  | @list c written hopen =>
    have hhanded := s.handed_list hopen written
    have hall : (s.store.list c.cursor eventBatchSize).take written =
        s.store.list c.cursor eventBatchSize :=
      List.take_of_length_le (by simpa [Connection.write] using hwhole _ rfl)
    rw [hall] at hhanded
    by_cases hpassed : e.sequence ≤ start.position s.handed
    · have hmono : start.position s.handed ≤ _ := hsound'.delivery.position_mono
        (by rw [hhanded]; exact List.prefix_append _ _)
      omega
    · -- The event itself is after the position, so the batch is not empty.
      have hmem : e ∈ s.store.visible.filter fun e => start.position s.handed < e.sequence :=
        List.mem_filter.mpr ⟨he, decide_eq_true (Nat.not_le.mp hpassed)⟩
      have hne : s.store.list c.cursor eventBatchSize ≠ [] := by
        rw [h.list_eq hsound hopen]
        exact page_ne_nil (by decide) (List.ne_nil_of_mem hmem)
      obtain ⟨first, hfirst⟩ := List.exists_mem_of_ne_nil _ hne
      have hafter : start.position s.handed < first.sequence := by
        rw [h.list_eq hsound hopen] at hfirst
        simpa using (List.mem_filter.mp (mem_of_mem_page hfirst)).2
      have hreached := hsound'.delivery.le_position
        (by rw [hhanded]; exact List.mem_append_right _ hfirst)
      omega
  | _ => cases haction

variable {b : Behavior EventStream.apply}

/-- Invariants of a run that meets the condition. -/
theorem sound_complete_of_meets (hbegins : Begins start (b.state 0))
    (hmeets : ∀ n, Meets (b.state n) (b.action n)) (n : Nat) :
    (b.state n).Sound start ∧ (b.state n).Complete start :=
  b.invariant (I := fun s => s.Sound start ∧ s.Complete start) hmeets
    ⟨hbegins.sound, hbegins.complete⟩
    (fun _ _ _ hmeet hstep h => ⟨h.1.apply hstep, h.2.apply h.1 hmeet hstep⟩) n

theorem received_grows_of_le {n m : Nat} (hle : n ≤ m) :
    (b.state n).received <+: (b.state m).received :=
  b.related (R := fun s s' => s.received <+: s'.received) (fun _ => List.prefix_rfl)
    (fun _ _ _ => List.IsPrefix.trans) hle fun l _ _ => EventStream.received_grows (b.follows l)

/-- While an event that was not reached stays visible, the client comes closer to it. -/
theorem position_rises (hbegins : Begins start (b.state 0))
    (hmeets : ∀ n, Meets (b.state n) (b.action n)) (hpolls : Polls b) {n₀ n : Nat} (hn : n₀ ≤ n)
    (hvisible : ∀ m, n₀ ≤ m → e ∈ (b.state m).store.visible)
    (hbefore : start.position (b.state n).received < e.sequence) :
    ∃ m, n ≤ m ∧ start.position (b.state n).received < start.position (b.state m).received := by
  have hinv := sound_complete_of_meets hbegins hmeets
  obtain ⟨i, j, written, hi, hj, hlist, hwhole, hopen, hempty⟩ := hpolls n
  have hfollows := b.follows i
  rw [hlist] at hfollows
  have hle : start.position (b.state n).received ≤ start.position (b.state i).handed :=
    (hinv i).1.delivery.position_mono
      ((received_grows_of_le hi).trans (List.prefix_append _ _))
  have hadvances := (hinv i).2.list_advances (hinv i).1 hfollows hwhole
    (hvisible i (hn.trans hi)) hbefore hle
  -- The batch is received as a whole.
  have hkept : (b.state (i + 1)).handed <+: (b.state j).received := by
    have hinitial : (b.state (i + 1)).handed <+: (b.state j).handed :=
      b.related (R := fun s s' => s.handed <+: s'.handed) (fun _ => List.prefix_rfl)
        (fun _ _ _ => List.IsPrefix.trans) hj fun l hl hlj =>
          EventStream.handed_grows (b.follows l) (hopen l (by omega) (by omega))
            (hopen (l + 1) (by omega) (by omega))
    rwa [EventStream.handed, EventStream.handed, hempty, List.append_nil] at hinitial
  refine ⟨j, by omega, lt_of_lt_of_le hadvances ?_⟩
  exact ((hinv j).1.delivery.of_initial (List.prefix_append _ _)).position_mono hkept

/-- **Delivery.** In a run in which no number is committed below a delivered one and no cursor is
deleted, a client that keeps polling receives every event that stays, once and in order. -/
theorem stream_delivers (hbegins : Begins start (b.state 0))
    (hmeets : ∀ n, Meets (b.state n) (b.action n)) (hpolls : Polls b) :
    (∀ n, (b.state n).received.Pairwise (·.sequence < ·.sequence) ∧
      ∀ e ∈ (b.state n).received, start.sequence < e.sequence) ∧
    ∀ e n₀, start.sequence < e.sequence → (∀ m, n₀ ≤ m → e ∈ (b.state m).store.visible) →
      ∃ n, ∀ m, n ≤ m → (b.state m).received.count e = 1 := by
  have hinv := sound_complete_of_meets hbegins hmeets
  have hdelivery : ∀ n, Delivery start (b.state n).store (b.state n).received := fun n =>
    (hinv n).1.delivery.of_initial (List.prefix_append _ _)
  refine ⟨fun n => ⟨(hdelivery n).ordered, (hdelivery n).above⟩, fun e n₀ habove hvisible => ?_⟩
  obtain ⟨n, hn, hreached⟩ := b.exists_le_of_progress
    (fun s => start.position s.received) n₀ e.sequence
    fun n hn => position_rises hbegins hmeets hpolls hn hvisible
  have hmem := (hinv n).2.mem_received (hinv n).1 (hvisible n hn) habove hreached
  refine ⟨n, fun m hm => ?_⟩
  have hnodup : (b.state m).received.Nodup :=
    (hdelivery m).ordered.imp fun hlt heq => absurd (heq ▸ hlt) (lt_irrefl _)
  exact List.count_eq_one_of_mem hnodup ((received_grows_of_le hm).subset hmem)

theorem EventStore.mem_visible_of_mem_list {store : EventStore} {cursor : Option UUID} {limit : Nat}
    (h : e ∈ store.list cursor limit) : e ∈ store.visible := by
  unfold EventStore.list EventStore.listEventsAfter at h
  split at h
  · exact mem_of_mem_page h
  · split at h
    · cases h
    · exact List.mem_of_mem_filter (mem_of_mem_page h)

/-- What a step newly hands over is visible. -/
theorem EventStream.mem_handed_of_apply (hstep : EventStream.apply action s = some s')
    (he : e ∈ s'.handed) : e ∈ s.handed ∨ e ∈ s.store.visible := by
  have hreceived : ∀ e ∈ s.received ++ [], e ∈ s.handed := fun e he =>
    List.mem_append_left _ (List.append_nil s.received ▸ he)
  cases action with
  | store action =>
    obtain ⟨store', -, rfl⟩ := Option.map_eq_some_iff.mp hstep
    exact .inl he
  | reader action =>
    cases readerStep_of_apply hstep with
    | connect | gone | disconnect => exact .inl (hreceived e he)
    | found hopen => exact .inl (s.handed_open hopen ▸ he)
    | list hopen =>
      rw [s.handed_list hopen] at he
      exact (List.mem_append.mp he).imp_right fun he =>
        EventStore.mem_visible_of_mem_list (List.mem_of_mem_take he)
    | receive hopen hnext =>
      rw [s.handed_receive hopen hnext] at he
      exact .inl he

/-- **Whatever happens**, the client receives committed events only, each at most once and in
order, and comes back with the identifier of the last one. A client whose cursor is refused with
the status 409 gives it up and starts anew, with another list of received events. -/
theorem received_in_order (hbegins : Begins start (b.state 0)) (n : Nat) :
    (b.state n).received.Pairwise (·.sequence < ·.sequence) ∧
    (b.state n).lastEventID = start.cursorAfter (b.state n).received ∧
    ∀ e ∈ (b.state n).received, start.sequence < e.sequence ∧
      ∃ m < n, e ∈ (b.state m).store.visible := by
  obtain ⟨hsound, hvisible⟩ : (b.state n).Sound start ∧
      ∀ e ∈ (b.state n).handed, ∃ m < n, e ∈ (b.state m).store.visible := by
    induction n with
    | zero =>
      refine ⟨hbegins.sound, ?_⟩
      rw [EventStream.handed_closed hbegins.closed, hbegins.received]
      exact List.forall_mem_nil _
    | succ n ih =>
      refine ⟨ih.1.apply (b.follows n), fun e he => ?_⟩
      rcases EventStream.mem_handed_of_apply (b.follows n) he with he | he
      · obtain ⟨m, hm, hmem⟩ := ih.2 e he
        exact ⟨m, Nat.lt_succ_of_lt hm, hmem⟩
      · exact ⟨n, Nat.lt_succ_self n, he⟩
  have hinitial : (b.state n).received <+: (b.state n).handed := List.prefix_append _ _
  have hdelivery := hsound.delivery.of_initial hinitial
  exact ⟨hdelivery.ordered, hsound.last, fun e he =>
    ⟨hdelivery.above e he, hvisible e (hinitial.subset he)⟩⟩

end Delivers

/-! ## Runs of a reader that has caught up -/

/-- The client between two polls, or between the two reads of a poll. -/
def EventStream.polling (s : EventStream) (validated : Bool) : EventStream :=
  { s with connection := some { cursor := s.lastEventID, validated } }

/-- A reader that finds nothing more polls forever. -/
def idle (s : EventStream)
    (hpresent : ∀ id, s.lastEventID = some id → (s.store.getEvent id).isSome = true)
    (hnone : s.store.list s.lastEventID eventBatchSize = []) : Behavior EventStream.apply where
  state n := s.polling (n % 2 = 1)
  action n := .reader (if n % 2 = 0 then .validate else .list 1)
  follows n := by
    rcases Nat.mod_two_eq_zero_or_one n with heven | hodd
    · have hvalidate : s.validate { cursor := s.lastEventID } = s.polling true := by
        unfold EventStream.validate
        split
        · rfl
        · rename_i id hid
          exact if_pos (hpresent id hid)
      rw [if_pos heven, heven, show (n + 1) % 2 = 1 by omega]
      exact congrArg some hvalidate
    · rw [if_neg (by omega), hodd, show (n + 1) % 2 = 0 by omega]
      have hwrite : (Connection.mk s.lastEventID true false []).write
          (s.store.list s.lastEventID eventBatchSize) 1 = { cursor := s.lastEventID } := by
        rw [hnone]
        rfl
      exact congrArg (fun c => some { s with connection := some c }) hwrite

theorem idle_polls {s : EventStream} {hpresent hnone} : Polls (idle s hpresent hnone) := by
  intro n
  refine ⟨2 * n + 1, 2 * n + 2, 1, by omega, by omega, ?_, fun c hc => ?_, fun _ _ _ => rfl, rfl⟩
  · exact congrArg StreamAction.reader (if_neg (by omega))
  · obtain rfl := Option.some.inj hc
    rfl

/-- What the reader did before does not matter for whether it keeps polling. -/
theorem Polls.lead {b} (h : Polls b) {actions}
    {s : EventStream} {hlead} : Polls (b.lead actions s hlead) := by
  intro n
  obtain ⟨i, j, written, hi, hj, hlist, hwhole, hopen, hempty⟩ := h n
  refine ⟨actions.length + i, actions.length + j, written, by omega, by omega, ?_, ?_, ?_, ?_⟩
  · rw [b.lead_action_add]
    exact hlist
  · rw [Nat.add_assoc, b.lead_state_add]
    exact hwhole
  · intro l hl hlj
    obtain ⟨k, rfl⟩ := Nat.exists_eq_add_of_le (show actions.length ≤ l by omega)
    rw [b.lead_state_add]
    exact hopen k (by omega) (by omega)
  · rw [b.lead_state_add]
    exact hempty

theorem begins_empty : Begins {} {} where
  store := ⟨by decide, nofun, nofun, List.nodup_nil, nofun⟩
  known := ⟨fun _ => rfl, nofun, nofun⟩
  present := nofun
  cursor := rfl
  received := rfl
  closed := rfl

/-- One event, received. -/
def promptEnd : EventStream where
  store := { nextSequence := 2, visible := [⟨11, 1⟩], drawn := [11] }
  lastEventID := some 11
  received := [⟨11, 1⟩]

/-- The event is committed before the client connects. -/
def promptRun : Behavior EventStream.apply :=
  (idle promptEnd (by simp [promptEnd, EventStore.getEvent]) (by decide)).lead
    [.store (.insert 1 11), .store (.commit 1), .reader .connect, .reader .validate,
      .reader (.list 1), .reader .receive] {} rfl

theorem stream_delivers_prompt :
    ∃ n, ∀ m, n ≤ m → (promptRun.state m).received.count ⟨11, 1⟩ = 1 := by
  have hbegins : Begins {} (promptRun.state 0) := begins_empty
  have hmeets : ∀ n, Meets (promptRun.state n) (promptRun.action n) :=
    Behavior.forall_lead _ (by decide) fun _ => trivial
  refine (stream_delivers hbegins hmeets idle_polls.lead).2 ⟨11, 1⟩ 6 (by decide) fun m hm => ?_
  obtain ⟨k, rfl⟩ := Nat.exists_eq_add_of_le hm
  have hend : promptRun.state (6 + k) = promptEnd.polling (k % 2 = 1) :=
    Behavior.lead_state_add _ k
  rw [hend]
  exact List.mem_singleton_self _

/-- Two events, of which the second was received. -/
def lateEnd : EventStream where
  store := { nextSequence := 3, visible := [⟨12, 2⟩, ⟨11, 1⟩], drawn := [12, 11] }
  lastEventID := some 12
  received := [⟨12, 2⟩]

/-- The transaction with the first event commits when the client has received the second. -/
def lateRun : Behavior EventStream.apply :=
  (idle lateEnd (by simp [lateEnd, EventStore.getEvent]) (by decide)).lead
    [.store (.insert 1 11), .store (.insert 2 12), .store (.commit 2), .reader .connect,
      .reader .validate, .reader (.list 1), .reader .receive, .store (.commit 1)] {} rfl

/-- **An event that is committed late is never delivered**, although it stays and the client keeps
polling: its number is below the cursor when it becomes visible. -/
theorem late_commit_skipped :
    Begins {} (lateRun.state 0) ∧ Polls lateRun ∧
    (∀ m, 8 ≤ m → ⟨11, 1⟩ ∈ (lateRun.state m).store.visible) ∧
    ∀ n, ⟨11, 1⟩ ∉ (lateRun.state n).received := by
  have hend : ∀ k, lateRun.state (8 + k) = lateEnd.polling (k % 2 = 1) :=
    Behavior.lead_state_add _
  refine ⟨begins_empty, idle_polls.lead, fun m hm => ?_, fun n hn => ?_⟩
  · obtain ⟨k, rfl⟩ := Nat.exists_eq_add_of_le hm
    rw [hend]
    exact List.mem_cons_of_mem _ (List.mem_singleton_self _)
  · -- What was received at some time would still be there later.
    have hlater := (received_grows_of_le (Nat.le_add_left n 8)).subset hn
    rw [hend] at hlater
    exact absurd hlater (by decide : (⟨11, 1⟩) ∉ lateEnd.received)

/-- Also where an event is committed late. -/
theorem received_in_order_late :
    (lateRun.state 8).received = [⟨12, 2⟩] ∧ ∃ m < 8, ⟨12, 2⟩ ∈ (lateRun.state m).store.visible :=
  ⟨rfl, ((received_in_order (b := lateRun) begins_empty 8).2.2 ⟨12, 2⟩
    (List.mem_singleton_self _)).2⟩

end EmbyAuto
