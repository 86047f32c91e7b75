import Mathlib

/-!
# Loops that check a list

A validator reads a list from the left, rejects an element by what it has read so far, and keeps
what it needs of it: the keys it has seen, how often it has seen them. If the state of the loop is a
function of the elements that were read, the loop accepts a list exactly if each element is accepted
after those before it.

## Main definitions

* `Each P l`: `P` holds of each element of `l` and the elements before it

## Main results

* `foldlM_ok_iff`: what a checking loop accepts
* `each_fresh_iff`: keys that were not seen before
-/

namespace Validation

variable {α κ σ ε : Type} {P Q : List α → α → Prop} {l : List α} {a : α}

/-- Each element satisfies `P` after the elements before it. -/
def Each (P : List α → α → Prop) (l : List α) : Prop :=
  ∀ done a, done ++ [a] <+: l → P done a

@[simp] theorem each_nil : Each P [] := by
  intro done a h
  simp at h

theorem each_concat : Each P (l ++ [a]) ↔ Each P l ∧ P l a := by
  refine ⟨fun h => ⟨fun done b hb => h done b (hb.trans (List.prefix_append _ _)),
    h l a (List.prefix_refl _)⟩, fun ⟨hl, ha⟩ done b hb => ?_⟩
  -- the last element, or one of `l`
  rcases List.prefix_concat_iff.mp hb with h | h
  · obtain ⟨rfl, hba⟩ := List.append_inj' h rfl
    obtain rfl := List.singleton_inj.mp hba
    exact ha
  · exact hl done b h

theorem each_and : Each (fun done a => P done a ∧ Q done a) l ↔ Each P l ∧ Each Q l :=
  ⟨fun h => ⟨fun d a hd => (h d a hd).1, fun d a hd => (h d a hd).2⟩,
    fun h d a hd => ⟨h.1 d a hd, h.2 d a hd⟩⟩

theorem each_const_iff {p : α → Prop} : Each (fun _ a => p a) l ↔ ∀ a ∈ l, p a := by
  induction l using List.reverseRecOn with
  | nil => simp
  | append_singleton l a ih =>
    rw [each_concat, ih, List.forall_mem_append, List.forall_mem_singleton]

/-- No key is seen twice. -/
theorem each_fresh_iff {key : α → Option κ} :
    Each (fun done a => ∀ k ∈ key a, k ∉ done.filterMap key) l ↔ (l.filterMap key).Nodup := by
  induction l using List.reverseRecOn with
  | nil => simp
  | append_singleton l a ih =>
    rw [each_concat, ih, List.filterMap_append]
    cases hkey : key a with
    | none => simp [hkey]
    | some k =>
      rw [List.filterMap_cons_some hkey, List.filterMap_nil, ← List.concat_eq_append,
        List.nodup_concat]
      simp [and_comm]

/-- A check that comes before the rest. -/
theorem ite_error_ok_iff {c : Prop} [Decidable c] {e : ε} {x : Except ε σ} {s : σ} :
    (if c then .error e else x) = .ok s ↔ ¬ c ∧ x = .ok s := by
  split_ifs with hc <;> simp [hc]

/-- A check whose result the rest uses. -/
theorem bind_ok_iff {β : Type} {x : Except ε σ} {f : σ → Except ε β} {b : β} :
    (x >>= f) = .ok b ↔ ∃ s, x = .ok s ∧ f s = .ok b := by
  cases x <;> simp [bind, Except.bind]

theorem map_ok_iff {β : Type} {x : Except ε σ} {f : σ → β} {b : β} :
    x.map f = .ok b ↔ ∃ s, x = .ok s ∧ f s = b := by
  cases x <;> simp [Except.map]

/-- A loop whose state is a function of what it has read. -/
theorem foldlM_ok_iff {step : σ → α → Except ε σ} {S : List α → σ} {s : σ}
    (hstep : ∀ done a s, step (S done) a = .ok s ↔ P done a ∧ s = S (done ++ [a])) :
    l.foldlM step (S []) = .ok s ↔ Each P l ∧ s = S l := by
  induction l using List.reverseRecOn generalizing s with
  | nil => simp [pure, Except.pure, eq_comm]
  | append_singleton l a ih =>
    have hlast (s' : σ) : [a].foldlM step s' = step s' a := by
      cases hs : step s' a <;> simp [hs, bind, Except.bind, pure, Except.pure]
    simp only [List.foldlM_append, bind_ok_iff, ih, hlast, each_concat, and_assoc]
    exact ⟨fun ⟨_, hl, rfl, ha⟩ => ⟨hl, (hstep l a s).mp ha⟩,
      fun ⟨hl, ha⟩ => ⟨_, hl, rfl, (hstep l a s).mpr ha⟩⟩

end Validation
