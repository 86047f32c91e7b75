import Mathlib

/-!
# Exclusive locks of transactions

Transactions take locks one after the other and hold them until they end. A lock stands for a
resource; two resources with one key share a lock. A transaction may take a lock again that it
holds, and a rollback to a savepoint gives back the locks taken since.

## Main definitions

* `Request`, `LockState`, `LockStep`: transactions that run side by side
* `LockState.Waits`: one transaction waits for a lock that another holds
* `Ascending`: a program asks for locks in the order of their rank, repeats apart

## Main results

* `no_wait_cycle`: if every program is ascending, no transaction waits for itself, however many
  others are between
-/

namespace Relational

variable {σ α κ ι ρ : Type}

/-- What a transaction does next: it asks for a lock, goes on only if the store agrees, or gives
back locks, each as often as it is listed. -/
inductive Request (σ α : Type) where
  | lock (a : α)
  | check (holds : σ → Bool)
  | release (l : List α)

/-- The store, and for each transaction the locks it holds and what it has still to do. -/
structure LockState (σ α ι : Type) where
  store : σ
  held : ι → List α
  pending : ι → List (Request σ α)

/-- No transaction is under way. -/
def LockState.Idle (s : LockState σ α ι) : Prop := ∀ i, s.held i = [] ∧ s.pending i = []

/-- The locks a program asks for. -/
def locksOf (program : List (Request σ α)) : List α :=
  program.filterMap fun
    | .lock a => some a
    | _ => none

/-- `i` asks for a lock that `j` holds. -/
def LockState.Waits (key : α → κ) (s : LockState σ α ι) (i j : ι) : Prop :=
  i ≠ j ∧ ∃ a rest, s.pending i = .lock a :: rest ∧ ∃ b ∈ s.held j, key b = key a

section System

variable [DecidableEq ι] [DecidableEq α] (key : α → κ) (allowed : List (Request σ α) → Prop)

/-- One transaction takes a step. -/
inductive LockStep : LockState σ α ι → LockState σ α ι → Prop where
  | start {s} (i : ι) (program : List (Request σ α)) (idle : s.held i = [] ∧ s.pending i = [])
      (ok : allowed program) :
      LockStep s { s with pending := Function.update s.pending i program }
  | acquire {s} (i : ι) (a : α) (rest : List (Request σ α)) (next : s.pending i = .lock a :: rest)
      (free : ∀ j, j ≠ i → ∀ b ∈ s.held j, key b ≠ key a) :
      LockStep s { s with
        held := Function.update s.held i (a :: s.held i)
        pending := Function.update s.pending i rest }
  | pass {s} (i : ι) (g : σ → Bool) (rest : List (Request σ α))
      (next : s.pending i = .check g :: rest) (holds : g s.store = true) :
      LockStep s { s with pending := Function.update s.pending i rest }
  | release {s} (i : ι) (l : List α) (rest : List (Request σ α))
      (next : s.pending i = .release l :: rest) :
      LockStep s { s with
        held := Function.update s.held i ((s.held i).diff l)
        pending := Function.update s.pending i rest }
  /-- A commit or a rollback. -/
  | finish {s} (i : ι) :
      LockStep s { s with
        held := Function.update s.held i []
        pending := Function.update s.pending i [] }
  /-- The store changes, by what has committed or otherwise. -/
  | change {s} (store : σ) : LockStep s { s with store }

end System

/-! ## Ascending programs -/

section Ascending

variable [LinearOrder ρ] [DecidableEq α]

/-- The locks held after a program. -/
def heldAfter : List α → List (Request σ α) → List α
  | held, [] => held
  | held, .lock a :: rest => heldAfter (a :: held) rest
  | held, .check _ :: rest => heldAfter held rest
  | held, .release l :: rest => heldAfter (held.diff l) rest

/-- Each request is for something that is held, or ranks above all that is held. -/
def Ascending (rank : α → ρ) : List α → List (Request σ α) → Prop
  | _, [] => True
  | held, .lock a :: rest =>
    (a ∈ held ∨ ∀ h ∈ held, rank h < rank a) ∧ Ascending rank (a :: held) rest
  | held, .check _ :: rest => Ascending rank held rest
  | held, .release l :: rest => Ascending rank (held.diff l) rest

variable {rank : α → ρ} {held l : List α} {p q : List (Request σ α)}

theorem heldAfter_append : heldAfter held (p ++ q) = heldAfter (heldAfter held p) q := by
  induction p generalizing held with
  | nil => rfl
  | cons request p ih => cases request <;> exact ih

theorem ascending_append :
    Ascending rank held (p ++ q) ↔
      Ascending rank held p ∧ Ascending rank (heldAfter held p) q := by
  induction p generalizing held with
  | nil => simp [Ascending, heldAfter]
  | cons request p ih =>
    cases request with
    | lock a => exact (and_congr_right fun _ => ih).trans and_assoc.symm
    | check g => exact ih
    | release l => exact ih

theorem heldAfter_locks : heldAfter held (l.map Request.lock : List (Request σ α)) =
    l.reverse ++ held := by
  induction l generalizing held with
  | nil => rfl
  | cons a l ih =>
    rw [List.map_cons, heldAfter, ih, List.reverse_cons, List.append_assoc, List.singleton_append]

theorem heldAfter_of_no_release (h : ∀ l, Request.release l ∉ p) :
    heldAfter held p = (locksOf p).reverse ++ held := by
  induction p generalizing held with
  | nil => rfl
  | cons request p ih =>
    have hp : ∀ l, Request.release l ∉ p := fun l hl => h l (List.mem_cons_of_mem _ hl)
    cases request with
    | lock a =>
      have hlocks : locksOf (.lock a :: p) = a :: locksOf p := rfl
      rw [heldAfter, ih hp, hlocks, List.reverse_cons, List.append_assoc, List.singleton_append]
    | check g => exact ih hp
    | release l => exact absurd List.mem_cons_self (h l)

/-- What was held before a savepoint is held after the rollback to it. -/
theorem mem_heldAfter_release {a : α} (h : ∀ l, Request.release l ∉ p) (ha : a ∈ held) :
    a ∈ heldAfter (heldAfter held p) [(.release (locksOf p) : Request σ α)] := by
  have cancel (l : List α) : (l ++ held).diff l = held := by
    induction l with
    | nil => exact List.diff_nil held
    | cons b l ih => rw [List.cons_append, List.diff_cons, List.erase_cons_head, ih]
  have hperm : (((locksOf p).reverse ++ held).diff (locksOf p)).Perm held := by
    have hback := ((List.reverse_perm (locksOf p)).append_right held).diff_right (locksOf p)
    rwa [cancel] at hback
  rw [heldAfter_of_no_release h]
  exact hperm.mem_iff.mpr ha

/-- Locks in the order of their rank, above all that is held. -/
theorem ascending_locks (hl : l.Pairwise fun a b => rank a < rank b)
    (hheld : ∀ h ∈ held, ∀ a ∈ l, rank h < rank a) :
    Ascending rank held (l.map Request.lock : List (Request σ α)) := by
  induction l generalizing held with
  | nil => trivial
  | cons a l ih =>
    obtain ⟨ha, hl⟩ := List.pairwise_cons.mp hl
    refine ⟨.inr fun h hh => hheld h hh a List.mem_cons_self, ih hl fun h hh b hb => ?_⟩
    rcases List.mem_cons.mp hh with rfl | hh
    · exact ha b hb
    · exact hheld h hh b (List.mem_cons_of_mem _ hb)

end Ascending

/-! ## Waiting -/

section Waiting

variable [LinearOrder ρ] [DecidableEq α] {key : α → κ} {rank : α → ρ} {T : Set α}
  {s s' : LockState σ α ι} {i j : ι}

/-- What holds in every state: no two transactions share a lock, and each asks in ascending order
for locks of `T`. -/
structure Orderly (key : α → κ) (rank : α → ρ) (T : Set α) (s : LockState σ α ι) : Prop where
  exclusive : ∀ i j, i ≠ j → ∀ a ∈ s.held i, ∀ b ∈ s.held j, key a ≠ key b
  ascending : ∀ i, Ascending rank (s.held i) (s.pending i)
  held : ∀ i, ∀ a ∈ s.held i, a ∈ T
  pending : ∀ i, ∀ a ∈ locksOf (s.pending i), a ∈ T

theorem Orderly.of_idle (h : s.Idle) : Orderly key rank T s where
  exclusive i _ _ a ha := by
    rw [(h i).1] at ha
    cases ha
  ascending i := by
    rw [(h i).2]
    trivial
  held i a ha := by
    rw [(h i).1] at ha
    cases ha
  pending i a ha := by
    rw [(h i).2] at ha
    cases ha

/-- One transaction changes what it holds and what it has to do, the others change nothing. -/
theorem Orderly.update [DecidableEq ι] (h : Orderly key rank T s) (i : ι) (kept : List α)
    (rest : List (Request σ α)) (store : σ)
    (hexclusive : ∀ a ∈ kept, ∀ j, j ≠ i → ∀ b ∈ s.held j, key b ≠ key a)
    (hascending : Ascending rank kept rest) (hkept : ∀ a ∈ kept, a ∈ T)
    (hrest : ∀ a ∈ locksOf rest, a ∈ T) : Orderly key rank T ⟨store, Function.update s.held i kept,
      Function.update s.pending i rest⟩ where
  exclusive j k hjk a ha b hb := by
    dsimp only at ha hb
    by_cases hj : j = i
    · subst hj
      rw [Function.update_self] at ha
      rw [Function.update_of_ne hjk.symm] at hb
      exact (hexclusive a ha k hjk.symm b hb).symm
    rw [Function.update_of_ne hj] at ha
    by_cases hk : k = i
    · subst hk
      rw [Function.update_self] at hb
      exact hexclusive b hb j hj a ha
    · rw [Function.update_of_ne hk] at hb
      exact h.exclusive j k hjk a ha b hb
  ascending j := by
    by_cases hj : j = i
    · subst hj
      simpa using hascending
    · simpa [Function.update_of_ne hj] using h.ascending j
  held j := by
    by_cases hj : j = i
    · subst hj
      simpa using hkept
    · simpa [Function.update_of_ne hj] using h.held j
  pending j := by
    by_cases hj : j = i
    · subst hj
      simpa using hrest
    · simpa [Function.update_of_ne hj] using h.pending j

theorem Orderly.step [DecidableEq ι] {allowed} (h : Orderly key rank T s)
    (ok : ∀ program, allowed program → Ascending rank [] program ∧ ∀ a ∈ locksOf program, a ∈ T)
    (step : LockStep key allowed s s') : Orderly key rank T s' := by
  cases step with
  | start i program idle hok =>
    -- a transaction that begins holds nothing
    obtain ⟨hascending, hlocks⟩ := ok program hok
    have hnew := h.update i [] program s.store nofun hascending nofun hlocks
    rwa [← idle.1, Function.update_eq_self] at hnew
  | acquire i a rest next free =>
    have hasc := h.ascending i
    have hpend := h.pending i
    rw [next] at hasc hpend
    -- the lock is free, and it ranks above all that the transaction holds
    refine h.update i _ rest _ (fun b hb j hj c hc => ?_) hasc.2 (fun b hb => ?_) fun b hb => ?_
    · rcases List.mem_cons.mp hb with rfl | hb
      · exact free j hj c hc
      · exact h.exclusive j i hj c hc b hb
    · rcases List.mem_cons.mp hb with rfl | hb
      · exact hpend b List.mem_cons_self
      · exact h.held i b hb
    · exact hpend b (List.mem_cons_of_mem _ hb)
  | pass i g rest next =>
    have hasc := h.ascending i
    have hpend := h.pending i
    rw [next] at hasc hpend
    have hnew := h.update i (s.held i) rest s.store
      (fun b hb j hj c hc => h.exclusive j i hj c hc b hb) hasc (h.held i) hpend
    rwa [Function.update_eq_self] at hnew
  | release i l rest next =>
    have hasc := h.ascending i
    have hpend := h.pending i
    rw [next] at hasc hpend
    refine h.update i _ rest _ (fun b hb j hj c hc => ?_) hasc (fun b hb => ?_) hpend
    · exact h.exclusive j i hj c hc b (List.diff_subset _ _ hb)
    · exact h.held i b (List.diff_subset _ _ hb)
  | finish i => exact h.update i [] [] _ nofun trivial nofun nofun
  | change store => exact ⟨h.exclusive, h.ascending, h.held, h.pending⟩

/-- The lock that `j` waits for ranks above the one that `i` waits for, if `j` holds that. -/
theorem Orderly.rank_lt {a b : α} {rest rest'} {k : ι}
    (h : Orderly key rank T s) (inj : Set.InjOn key T) (hij : s.Waits key i j)
    (hjk : s.Waits key j k) (hi : s.pending i = .lock a :: rest)
    (hj : s.pending j = .lock b :: rest') : rank a < rank b := by
  obtain ⟨-, a', _, hi', c, hc, hkey⟩ := hij
  obtain ⟨hne, b', _, hj', d, hd, hkey'⟩ := hjk
  cases hi.symm.trans hi'
  cases hj.symm.trans hj'
  have haT : a ∈ T := h.pending i a (by rw [hi]; exact List.mem_cons_self)
  obtain rfl := inj (h.held j c hc) haT hkey
  have hasc := h.ascending j
  rw [hj] at hasc
  rcases hasc.1 with hmem | habove
  · -- then no other transaction could hold it
    exact absurd hkey' (h.exclusive k j hne.symm d hd b hmem)
  · exact habove c hc

/-- **No wait cycle.** -/
theorem no_wait_cycle (h : Orderly key rank T s) (inj : Set.InjOn key T) (i : ι) :
    ¬ Relation.TransGen (s.Waits key) i i := by
  -- along a chain of waits the ranks of the awaited locks rise
  have rises {j : ι} (chain : Relation.TransGen (s.Waits key) i j) :
      ∀ k a b rest rest', s.Waits key j k → s.pending i = .lock a :: rest →
        s.pending j = .lock b :: rest' → rank a < rank b := by
    induction chain with
    | single hij => exact fun k a b _ _ hjk => h.rank_lt inj hij hjk
    | tail _ hmj ih =>
      intro k a b rest rest' hjk hi hj
      obtain ⟨c, restc, hm, -⟩ := hmj.2
      exact (ih _ a c rest restc hmj hi hm).trans (h.rank_lt inj hmj hjk hm hj)
  intro cycle
  obtain ⟨k, hik, -⟩ := Relation.TransGen.head'_iff.mp cycle
  obtain ⟨a, rest, hi, -⟩ := hik.2
  exact lt_irrefl _ (rises cycle k a a rest rest hik hi hi)

end Waiting

end Relational
