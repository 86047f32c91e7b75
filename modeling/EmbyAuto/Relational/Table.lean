import EmbyAuto.Relational.Transaction

/-!
# Tables with constraints

A table is a list of rows that satisfies the constraints of its schema: row checks and
uniqueness constraints. The constraints are part of the type, so a statement that would
break one cannot produce a table and fails instead. Statements act on one table of a
larger state through a `Slot`.

## Main definitions

* `Schema`, `Schema.Valid`, `Table`: named constraints and the rows that satisfy them
* `patch`: what an update does to one row
* `Slot`: the place of a table inside a state
* `Slot.update`, `Slot.updateOne`, `Slot.insert`, `Slot.delete`: the statements

## Main results

* `Slot.update_ok`, `Slot.updateOne_ok`, `Slot.insert_ok`, `Slot.delete_ok`: what each
  statement does when it succeeds
* `Schema.Valid.map_patch`: an update that keeps checks and keys keeps validity
* `lookup_map_patch`: a lookup after an update
* `Slot.updateOne_atKey`: an update of one row, by its unique key
-/

namespace Relational

variable {ε σ α κ : Type}

/-! ## Schemas -/

/-- The constraints of a table: row checks, and uniqueness constraints given by the pairs
of rows that conflict. -/
structure Schema (α : Type) where
  checks : List (String × (α → Bool)) := []
  uniques : List (String × (α → α → Bool)) := []

variable {rows : List α} {p : α → Bool} {f : α → α} {key : α → κ} {r : α} {name : String}

namespace Schema

/-- The rows satisfy every check and no two of them conflict. -/
def Valid (S : Schema α) (rows : List α) : Prop :=
  (∀ c ∈ S.checks, ∀ r ∈ rows, c.2 r = true) ∧
    ∀ u ∈ S.uniques, rows.Pairwise fun a b => u.2 a b = false

/-- The name of the first constraint that the rows violate. -/
def violation (S : Schema α) (rows : List α) : Option String :=
  ((S.checks.find? fun c => !rows.all c.2).map Prod.fst).or
    ((S.uniques.find? fun u => !decide (rows.Pairwise fun a b => u.2 a b = false)).map Prod.fst)

theorem violation_eq_none {S : Schema α} : S.violation rows = none ↔ S.Valid rows := by
  simp [violation, Valid]

instance (S : Schema α) (rows : List α) : Decidable (S.Valid rows) :=
  decidable_of_iff _ violation_eq_none

theorem valid_nil (S : Schema α) : S.Valid [] :=
  ⟨fun _ _ _ h => absurd h List.not_mem_nil, fun _ _ => List.Pairwise.nil⟩

end Schema

/-- The rows of a table, which satisfy its schema. -/
structure Table {α : Type} (S : Schema α) where
  rows : List α
  valid : S.Valid rows

/-- A member of a list is found by a key that tells the members apart. -/
theorem find?_of_nodup [DecidableEq κ] {l : List α} (h : (l.map key).Nodup) (hr : r ∈ l) :
    l.find? (fun x => key x = key r) = some r := by
  cases hfound : l.find? fun x => key x = key r with
  | none =>
    have hne := List.find?_eq_none.mp hfound r hr
    simp at hne
  | some x =>
    have hx := List.find?_some hfound
    exact congrArg some (List.inj_on_of_nodup_map h (List.mem_of_find?_eq_some hfound) hr
      (by simpa using hx))

namespace Table

variable {S : Schema α}

instance : Inhabited (Table S) := ⟨⟨[], S.valid_nil⟩⟩

variable (t : Table S)

theorem check {c} (hc : c ∈ S.checks) (hr : r ∈ t.rows) : c.2 r = true :=
  t.valid.1 c hc r hr

theorem eq_of_conflict {u} (hu : u ∈ S.uniques) (symm : ∀ a b, u.2 a b = u.2 b a) {a b : α}
    (ha : a ∈ t.rows) (hb : b ∈ t.rows) (h : u.2 a b = true) : a = b := by
  by_contra hne
  have : Std.Symm fun x y => u.2 x y = false := ⟨fun x y hxy => by rw [symm]; exact hxy⟩
  have hf := (t.valid.2 u hu).forall ha hb hne
  rw [h] at hf
  cases hf

variable [DecidableEq κ] (hu : (name, fun a b => decide (key a = key b)) ∈ S.uniques)

include hu

/-- Rows with one key are one row. -/
theorem eq_of_key {a b : α} (ha : a ∈ t.rows) (hb : b ∈ t.rows) (h : key a = key b) : a = b :=
  t.eq_of_conflict hu (fun _ _ => decide_eq_decide.mpr eq_comm) ha hb (decide_eq_true h)

/-- The keys of the rows are distinct. -/
theorem nodup_keys : (t.rows.map key).Nodup := by
  rw [List.Nodup, List.pairwise_map]
  exact (t.valid.2 _ hu).imp fun h => by simpa using h

/-- A row is found by its key when the schema makes the key unique. -/
theorem find?_of_mem (hr : r ∈ t.rows) : t.rows.find? (fun x => key x = key r) = some r :=
  find?_of_nodup (t.nodup_keys hu) hr

end Table

/-! ## Updates of one row -/

/-- The effect of `UPDATE ... SET f WHERE p` on one row. -/
def patch (p : α → Bool) (f : α → α) (r : α) : α := if p r then f r else r

theorem patch_of_true (h : p r = true) : patch p f r = f r := if_pos h

theorem patch_of_false (h : p r = false) : patch p f r = r := if_neg (by simp [h])

theorem patch_cases (p : α → Bool) (f : α → α) (r : α) :
    (p r = true ∧ patch p f r = f r) ∨ (p r = false ∧ patch p f r = r) := by
  cases h : p r with
  | true => exact .inl ⟨rfl, patch_of_true h⟩
  | false => exact .inr ⟨rfl, patch_of_false h⟩

/-- An update that keeps a field keeps it in every row, matched or not. -/
theorem patch_field {g : α → κ} (hf : ∀ r, g (f r) = g r) (r : α) : g (patch p f r) = g r := by
  unfold patch
  split
  · exact hf r
  · rfl

theorem map_patch_of_none (h : ∀ r ∈ rows, p r = false) : rows.map (patch p f) = rows := by
  conv_rhs => rw [← List.map_id rows]
  exact List.map_congr_left fun r hr => patch_of_false (h r hr)

theorem filter_map_patch {q : α → Bool} (hq : ∀ r, q (f r) = q r) :
    (rows.map (patch p f)).filter q = (rows.filter q).map (patch p f) := by
  rw [List.filter_map]
  congr 2
  funext r
  exact patch_field hq r

/-! ## Updates of the row with a given key -/

section Key

variable [DecidableEq κ] {key : α → κ} {k : κ} {guard : α → Bool} {f : α → α}

/-- `WHERE key = k AND guard`. -/
def atKey (key : α → κ) (k : κ) (guard : α → Bool) (r : α) : Bool := decide (key r = k) && guard r

/-- `SELECT * WHERE key = k`. -/
def lookup (key : α → κ) (k : κ) (rows : List α) : Option α := rows.find? fun r => key r = k

theorem key_of_lookup (h : lookup key k rows = some r) : key r = k := by
  simpa using List.find?_some h

theorem mem_of_lookup (h : lookup key k rows = some r) : r ∈ rows :=
  List.mem_of_find?_eq_some h

/-- After an update of the row with key `k`, every key finds what it found before, patched. -/
theorem lookup_map_patch (hf : ∀ r, key (f r) = key r) (k : κ) :
    lookup key k (rows.map (patch p f)) = (lookup key k rows).map (patch p f) := by
  rw [lookup, List.find?_map]
  congr 2
  funext r
  simp [patch_field hf]

theorem lookup_map_patch_self (hf : ∀ r, key (f r) = key r) (h : lookup key k rows = some r)
    (hg : guard r = true) : lookup key k (rows.map (patch (atKey key k guard) f)) = some (f r) := by
  rw [lookup_map_patch hf, h, Option.map_some, patch_of_true]
  simp [atKey, key_of_lookup h, hg]

theorem lookup_map_patch_ne (hf : ∀ r, key (f r) = key r) {k' : κ} (hk : k' ≠ k) :
    lookup key k' (rows.map (patch (atKey key k guard) f)) = lookup key k' rows := by
  rw [lookup_map_patch hf]
  cases h : lookup key k' rows with
  | none => rfl
  | some r =>
    rw [Option.map_some, patch_of_false]
    simp [atKey, key_of_lookup h, hk]

/-- When keys are unique, the rows that match `key = k AND guard` are the row with key `k`
if it satisfies `guard`, and none otherwise. -/
theorem find?_atKey {S : Schema α} (hu : (name, fun a b => decide (key a = key b)) ∈ S.uniques)
    (t : Table S) : t.rows.find? (atKey key k guard) = (lookup key k t.rows).filter guard := by
  cases h : t.rows.find? (atKey key k guard) with
  | none =>
    rw [List.find?_eq_none] at h
    rw [eq_comm, Option.filter_eq_none_iff]
    intro r hr hg
    exact h r (mem_of_lookup hr) (by simp [atKey, key_of_lookup hr, hg])
  | some r =>
    have hr := List.find?_some h
    simp only [atKey, Bool.and_eq_true, decide_eq_true_eq] at hr
    have hl : lookup key k t.rows = some r := by
      rw [← hr.1]
      exact t.find?_of_mem hu (List.mem_of_find?_eq_some h)
    rw [hl, Option.filter_some, if_pos hr.2]

end Key

/-- Patched rows conflict only if the rows did, when patching either side adds no conflict. -/
theorem conflict_patch {c : α → α → Bool}
    (hleft : ∀ a b, p a = true → c (f a) b = true → c a b = true)
    (hright : ∀ a b, p b = true → c a (f b) = true → c a b = true) {a b : α}
    (h : c (patch p f a) (patch p f b) = true) : c a b = true := by
  have hb : c (patch p f a) b = true := by
    cases hp : p b with
    | true =>
      rw [patch_of_true hp] at h
      exact hright _ b hp h
    | false =>
      rw [patch_of_false hp] at h
      exact h
  cases hp : p a with
  | true =>
    rw [patch_of_true hp] at hb
    exact hleft a b hp hb
  | false =>
    rw [patch_of_false hp] at hb
    exact hb

/-- An update keeps a schema valid if it keeps the checks of the rows it matches and
adds no conflict. -/
theorem Schema.Valid.map_patch {S : Schema α} (h : S.Valid rows)
    (hc : ∀ c ∈ S.checks, ∀ r ∈ rows, p r = true → c.2 r = true → c.2 (f r) = true)
    (hu : ∀ u ∈ S.uniques, ∀ a b, p a = true →
      (u.2 (f a) b = true → u.2 a b = true) ∧ (u.2 b (f a) = true → u.2 b a = true)) :
    S.Valid (rows.map (patch p f)) := by
  constructor
  · intro c hcm r hr
    obtain ⟨r₀, hr₀, rfl⟩ := List.mem_map.mp hr
    have hr₀c := h.1 c hcm r₀ hr₀
    cases hp : p r₀ with
    | true => rw [patch_of_true hp]; exact hc c hcm r₀ hr₀ hp hr₀c
    | false => rw [patch_of_false hp]; exact hr₀c
  · intro u hum
    rw [List.pairwise_map]
    refine (h.2 u hum).imp fun {a b} hab => ?_
    by_contra hconflict
    have := conflict_patch (fun a b hp => (hu u hum a b hp).1) (fun a b hp => (hu u hum b a hp).2)
      (Bool.not_eq_false _ ▸ hconflict)
    rw [hab] at this
    cases this

/-- Deleting rows keeps a schema valid. -/
theorem Schema.Valid.filter {S : Schema α} (h : S.Valid rows) (p : α → Bool) :
    S.Valid (rows.filter p) :=
  ⟨fun c hc r hr => h.1 c hc r (List.mem_of_mem_filter hr), fun u hu => (h.2 u hu).filter _⟩

/-! ## Statements -/

/-- The place of a table inside a state. -/
structure Slot (σ : Type) {α : Type} (S : Schema α) where
  table : σ → Table S
  put : σ → Table S → σ
  put_table : ∀ s, put s (table s) = s

/-- Errors that can report a violated constraint by name. -/
class ConstraintError (ε : Type) where
  violates : String → ε

namespace Slot

variable {S : Schema α}

/-- `SELECT * WHERE p`. -/
def select (slot : Slot σ S) (p : α → Bool) : Tx ε σ (List α) := fun s =>
  .ok ((slot.table s).rows.filter p, s)

/-- `SELECT * WHERE p` for one row; `none` when no row matches. -/
def selectOne (slot : Slot σ S) (p : α → Bool) : Tx ε σ (Option α) := fun s =>
  .ok ((slot.table s).rows.find? p, s)

@[simp] theorem select_ok {slot : Slot σ S} {s : σ} {r : List α × σ} :
    (slot.select p : Tx ε σ (List α)) s = .ok r ↔ r = ((slot.table s).rows.filter p, s) := by
  simp [select, eq_comm]

@[simp] theorem selectOne_ok {slot : Slot σ S} {s : σ} {r : Option α × σ} :
    (slot.selectOne p : Tx ε σ (Option α)) s = .ok r ↔
      r = ((slot.table s).rows.find? p, s) := by
  simp [selectOne, eq_comm]

variable [ConstraintError ε]

/-- Replaces the rows of a table, or fails with the name of a violated constraint. -/
def write (slot : Slot σ S) (rows : List α) : Tx ε σ Unit := fun s =>
  if h : S.violation rows = none then
    .ok ((), slot.put s ⟨rows, Schema.violation_eq_none.mp h⟩)
  else
    .error (ConstraintError.violates ((S.violation rows).getD ""))

/-- `UPDATE ... SET f WHERE p RETURNING *`. -/
def update (slot : Slot σ S) (p : α → Bool) (f : α → α) : Tx ε σ (List α) := do
  let rows := (slot.table (← get)).rows
  slot.write (rows.map (patch p f))
  return (rows.filter p).map f

/-- An update read as a single row; `none` when no row matched. -/
def updateOne (slot : Slot σ S) (p : α → Bool) (f : α → α) : Tx ε σ (Option α) := do
  return (← slot.update p f).head?

/-- `INSERT`. -/
def insert (slot : Slot σ S) (r : α) : Tx ε σ Unit := do
  slot.write ((slot.table (← get)).rows ++ [r])

/-- `DELETE WHERE p`, with the number of rows deleted. -/
def delete (slot : Slot σ S) (p : α → Bool) : Tx ε σ Nat := do
  let rows := (slot.table (← get)).rows
  slot.write (rows.filter fun r => !p r)
  return rows.countP p

/-! ## What the statements do -/

variable {slot : Slot σ S} {s s' : σ} {p : α → Bool} {f : α → α}

theorem write_ok {u : Unit} : (slot.write rows : Tx ε σ Unit) s = .ok (u, s') ↔
      ∃ h : S.Valid rows, s' = slot.put s ⟨rows, h⟩ := by
  unfold write
  split
  · next h =>
    have hv := Schema.violation_eq_none.mp h
    simp only [Except.ok.injEq, Prod.mk.injEq, true_and]
    exact ⟨fun e => ⟨hv, e.symm⟩, fun ⟨_, e⟩ => e.symm⟩
  · next h =>
    simp only [reduceCtorEq, false_iff]
    rintro ⟨hv, _⟩
    exact h (Schema.violation_eq_none.mpr hv)

theorem update_ok {rs : List α} : (slot.update p f : Tx ε σ (List α)) s = .ok (rs, s') ↔
      rs = ((slot.table s).rows.filter p).map f ∧
        ∃ h : S.Valid ((slot.table s).rows.map (patch p f)), s' = slot.put s ⟨_, h⟩ := by
  simp only [update, Tx.bind_ok, Tx.get_apply, Except.ok.injEq, Prod.mk.injEq, Tx.pure_apply]
  constructor
  · rintro ⟨_, _, ⟨rfl, rfl⟩, _, _, hw, rfl, rfl⟩
    exact ⟨rfl, write_ok.mp hw⟩
  · rintro ⟨rfl, h⟩
    exact ⟨s, s, ⟨rfl, rfl⟩, (), s', write_ok.mpr h, rfl, rfl⟩

theorem updateOne_ok {r : Option α} : (slot.updateOne p f : Tx ε σ (Option α)) s = .ok (r, s') ↔
      r = ((slot.table s).rows.find? p).map f ∧
        ∃ h : S.Valid ((slot.table s).rows.map (patch p f)), s' = slot.put s ⟨_, h⟩ := by
  simp only [updateOne, Tx.bind_ok, Tx.pure_apply, Except.ok.injEq, Prod.mk.injEq]
  constructor
  · rintro ⟨_, _, hu, rfl, rfl⟩
    obtain ⟨rfl, h⟩ := update_ok.mp hu
    exact ⟨by rw [List.head?_map, List.head?_filter], h⟩
  · rintro ⟨rfl, h⟩
    exact ⟨_, s', update_ok.mpr ⟨rfl, h⟩, by rw [List.head?_map, List.head?_filter], rfl⟩

/-- An update succeeds exactly when the patched rows satisfy the schema. -/
theorem updateOne_succeeds :
    (slot.updateOne p f : Tx ε σ (Option α)).Succeeds s ↔
      S.Valid ((slot.table s).rows.map (patch p f)) := by
  constructor
  · rintro ⟨⟨r, s'⟩, h⟩
    exact (updateOne_ok.mp h).2.1
  · intro h
    exact ⟨(_, _), updateOne_ok.mpr ⟨rfl, h, rfl⟩⟩

theorem update_succeeds :
    (slot.update p f : Tx ε σ (List α)).Succeeds s ↔
      S.Valid ((slot.table s).rows.map (patch p f)) := by
  constructor
  · rintro ⟨⟨r, s'⟩, h⟩
    exact (update_ok.mp h).2.1
  · intro h
    exact ⟨(_, _), update_ok.mpr ⟨rfl, h, rfl⟩⟩

/-- An update that matches no row changes nothing. -/
theorem updateOne_none (h : (slot.updateOne p f : Tx ε σ (Option α)) s = .ok (none, s')) :
    (∀ r ∈ (slot.table s).rows, p r = false) ∧ s' = s := by
  obtain ⟨hr, hv, rfl⟩ := updateOne_ok.mp h
  have hnone : ∀ r ∈ (slot.table s).rows, p r = false := by
    rw [eq_comm, Option.map_eq_none_iff, List.find?_eq_none] at hr
    intro r hmem
    simpa using hr r hmem
  refine ⟨hnone, ?_⟩
  have hrows : (⟨(slot.table s).rows.map (patch p f), hv⟩) = slot.table s := by
    simp [map_patch_of_none hnone]
  rw [hrows, slot.put_table]

/-- An update of the row with key `k`: it finds a row that satisfies the guard and patches
it, or changes nothing. -/
theorem updateOne_atKey [DecidableEq κ] {k : κ} {guard : α → Bool}
    (hu : (name, fun a b => decide (key a = key b)) ∈ S.uniques) {r : Option α}
    (h : (slot.updateOne (atKey key k guard) f : Tx ε σ (Option α)) s = .ok (r, s')) :
    (r = none ∧ s' = s ∧ ∀ x, lookup key k (slot.table s).rows = some x → guard x = false) ∨
      ∃ x, lookup key k (slot.table s).rows = some x ∧ guard x = true ∧ r = some (f x) ∧
        ∃ hv : S.Valid ((slot.table s).rows.map (patch (atKey key k guard) f)),
          s' = slot.put s ⟨_, hv⟩ := by
  obtain ⟨hr, hv, hs⟩ := updateOne_ok.mp h
  rw [find?_atKey hu] at hr
  cases hl : lookup key k (slot.table s).rows with
  | none =>
    rw [hl] at hr
    subst hr
    exact .inl ⟨rfl, (updateOne_none h).2, by simp⟩
  | some x =>
    rw [hl, Option.filter_some] at hr
    cases hg : guard x with
    | false =>
      rw [hg] at hr
      subst hr
      refine .inl ⟨rfl, (updateOne_none h).2, ?_⟩
      rintro y ⟨⟩
      exact hg
    | true =>
      rw [hg, if_pos rfl] at hr
      exact .inr ⟨x, rfl, hg, hr, hv, hs⟩

theorem insert_ok {u : Unit} : (slot.insert r : Tx ε σ Unit) s = .ok (u, s') ↔
      ∃ h : S.Valid ((slot.table s).rows ++ [r]), s' = slot.put s ⟨_, h⟩ := by
  simp only [insert, Tx.bind_ok, Tx.get_apply, Except.ok.injEq, Prod.mk.injEq]
  constructor
  · rintro ⟨_, _, ⟨rfl, rfl⟩, hw⟩
    exact write_ok.mp hw
  · intro h
    exact ⟨s, s, ⟨rfl, rfl⟩, write_ok.mpr h⟩

theorem delete_ok {n : Nat} : (slot.delete p : Tx ε σ Nat) s = .ok (n, s') ↔
      n = (slot.table s).rows.countP p ∧
        s' = slot.put s ⟨_, (slot.table s).valid.filter fun r => !p r⟩ := by
  simp only [delete, Tx.bind_ok, Tx.get_apply, Except.ok.injEq, Prod.mk.injEq, Tx.pure_apply]
  constructor
  · rintro ⟨_, _, ⟨rfl, rfl⟩, _, _, hw, rfl, rfl⟩
    obtain ⟨_, rfl⟩ := write_ok.mp hw
    exact ⟨rfl, rfl⟩
  · rintro ⟨rfl, rfl⟩
    exact ⟨s, s, ⟨rfl, rfl⟩, (), _, write_ok.mpr ⟨_, rfl⟩, rfl, rfl⟩

end Slot

end Relational
