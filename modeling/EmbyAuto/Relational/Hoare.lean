import EmbyAuto.Relational.Table

/-!
# Preconditions and postconditions of transactions

A triple says what a successful transaction guarantees; a failed one is rolled back, so it
has nothing to guarantee. An invariant that every part of a transaction keeps is kept by
the transaction, and one that a table's slot does not reach is kept by every statement on
that table.

## Main definitions

* `Tx.Triple`: a postcondition that holds after every successful run
* `Tx.Keeps`: a transaction keeps an invariant
* `Tx.Returns`: a fact about the value that a transaction returns

## Main results

* `Tx.Triple.bind`: the triple of a sequence
* `Tx.Keeps.commit`: a committed transaction keeps what the transaction keeps
* `Slot.keeps_update`, `Slot.keeps_insert`, `Slot.keeps_delete`: statements on other tables
-/

namespace Relational

variable {ε σ α β : Type}

namespace Tx

variable {P P' I : σ → Prop} {Q Q' : α → σ → Prop} {R : β → σ → Prop}
variable {m : Tx ε σ α} {f : α → Tx ε σ β}

/-- If `P` holds before and `m` succeeds, then `Q` holds of its value and the new state. -/
def Triple (P : σ → Prop) (m : Tx ε σ α) (Q : α → σ → Prop) : Prop :=
  ∀ ⦃s a s'⦄, P s → m s = .ok (a, s') → Q a s'

/-- A successful run of `m` keeps `I`. -/
abbrev Keeps (I : σ → Prop) (m : Tx ε σ α) : Prop := Triple I m fun _ => I

theorem Triple.conseq (h : Triple P m Q) (hP : ∀ s, P' s → P s) (hQ : ∀ a s, Q a s → Q' a s) :
    Triple P' m Q' :=
  fun _ _ _ hs hm => hQ _ _ (h (hP _ hs) hm)

/-- A fact in the precondition that does not depend on the state is a hypothesis. -/
theorem Triple.given {p : Prop} (h : p → Triple P m Q) : Triple (fun s => P s ∧ p) m Q :=
  fun _ _ _ hs hm => h hs.2 hs.1 hm

theorem Triple.bind (hm : Triple P m Q) (hf : ∀ a, Triple (Q a) (f a) R) :
    Triple P (m >>= f) R := by
  intro s b s' hs hrun
  obtain ⟨a, s₁, h₁, h₂⟩ := bind_ok.mp hrun
  exact hf a (hm hs h₁) h₂

theorem Triple.pure {a : α} (h : ∀ s, P s → Q a s) : Triple P (pure a : Tx ε σ α) Q := by
  rintro s _ _ hs ⟨⟩
  exact h s hs

theorem Triple.throw {e : ε} : Triple P (throw e : Tx ε σ α) Q :=
  nofun

theorem Triple.get : Triple P (get : Tx ε σ σ) fun a s => P s ∧ a = s := by
  rintro s _ _ hs ⟨⟩
  exact ⟨hs, rfl⟩

theorem Triple.mapError {g : ε → ε} (h : Triple P m Q) : Triple P (m.mapError g) Q :=
  fun _ _ _ hs hm => h hs (mapError_ok.mp hm)

theorem Keeps.bind (hm : Keeps I m) (hf : ∀ a, Keeps I (f a)) : Keeps I (m >>= f) :=
  Triple.bind hm hf

/-- What the first part establishes, the rest keeps. -/
theorem Triple.bind_keeps (hm : Triple P m fun _ => I) (hf : ∀ a, Keeps I (f a)) :
    Triple P (m >>= f) fun _ => I :=
  Triple.bind hm hf

theorem Keeps.pure {a : α} : Keeps I (pure a : Tx ε σ α) :=
  Triple.pure fun _ h => h

theorem Keeps.get : Keeps I (get : Tx ε σ σ) := by
  rintro s _ _ hs ⟨⟩
  exact hs

/-- A loop keeps what every round keeps. -/
theorem Keeps.forM {l : List β} {g : β → Tx ε σ PUnit} (h : ∀ b ∈ l, Keeps I (g b)) :
    Keeps I (l.forM g) := by
  induction l with
  | nil => exact Keeps.pure
  | cons b l ih =>
    refine Keeps.bind (h b List.mem_cons_self) fun _ => ?_
    exact ih fun b' hb' => h b' (List.mem_cons_of_mem _ hb')

theorem Keeps.commit {s : σ} (h : Keeps I m) (hs : I s) : I (m.commit s) :=
  commit_preserves hs fun _ _ hm => h hs hm

/-! ### What a transaction returns -/

variable {p : α → Prop} {q : β → Prop}

/-- Every successful run of `m` returns a value with `p`. -/
def Returns (m : Tx ε σ α) (p : α → Prop) : Prop := ∀ ⦃s a s'⦄, m s = .ok (a, s') → p a

theorem Returns.bind (hm : Returns m p) (hf : ∀ a, p a → Returns (f a) q) :
    Returns (m >>= f) q := by
  intro s b s' hrun
  obtain ⟨a, s₁, h₁, h₂⟩ := bind_ok.mp hrun
  exact hf a (hm h₁) h₂

/-- The last part decides, whatever comes before. -/
theorem Returns.after (hf : ∀ a, Returns (f a) q) : Returns (m >>= f) q :=
  Returns.bind (fun _ _ _ _ => trivial) fun a _ => hf a

theorem Returns.pure {a : α} (h : p a) : Returns (pure a : Tx ε σ α) p := by
  rintro s _ _ ⟨⟩
  exact h

theorem Returns.throw {e : ε} : Returns (throw e : Tx ε σ α) p :=
  nofun

theorem Returns.mapError {g : ε → ε} (h : Returns m p) : Returns (m.mapError g) p :=
  fun _ _ _ hm => h (mapError_ok.mp hm)

theorem Returns.zoom {τ : Type} {get : σ → τ} {put : σ → τ → σ} {m : Tx ε τ α} (h : Returns m p) :
    Returns (m.zoom get put) p := by
  intro s a s' hrun
  obtain ⟨t, ht, -⟩ := zoom_ok.mp hrun
  exact h ht

end Tx

namespace Slot

variable {S : Schema α} {slot : Slot σ S} {I : σ → Prop} {p : α → Bool} {f : α → α} {r : α}

theorem keeps_selectOne : Tx.Keeps I (slot.selectOne p : Tx ε σ (Option α)) := by
  intro s a s' hs hrun
  cases selectOne_ok.mp hrun
  exact hs

section Statements

variable [ConstraintError ε]

/-- The slot lies outside what the invariant reads. -/
abbrev Outside (slot : Slot σ S) (I : σ → Prop) : Prop := ∀ s t, I s → I (slot.put s t)

theorem keeps_update (h : slot.Outside I) : Tx.Keeps I (slot.update p f : Tx ε σ (List α)) := by
  intro s a s' hs hrun
  obtain ⟨-, _, rfl⟩ := update_ok.mp hrun
  exact h s _ hs

theorem keeps_updateOne (h : slot.Outside I) :
    Tx.Keeps I (slot.updateOne p f : Tx ε σ (Option α)) := by
  intro s a s' hs hrun
  obtain ⟨-, _, rfl⟩ := updateOne_ok.mp hrun
  exact h s _ hs

theorem keeps_insert (h : slot.Outside I) : Tx.Keeps I (slot.insert r : Tx ε σ Unit) := by
  intro s a s' hs hrun
  obtain ⟨_, rfl⟩ := insert_ok.mp hrun
  exact h s _ hs

theorem keeps_delete (h : slot.Outside I) : Tx.Keeps I (slot.delete p : Tx ε σ Nat) := by
  intro s a s' hs hrun
  obtain ⟨-, rfl⟩ := delete_ok.mp hrun
  exact h s _ hs

end Statements

end Slot

end Relational
