import Mathlib

/-!
# Ranking and selecting

Programs sort and select with a Boolean comparison, `less a b` or `better a b`. A comparison that
is a strict weak order gives a sorted list, a best element for each key, and the first `k` elements
of a sorted list. Where it also separates the elements, none of these depends on the order in which
the elements were listed.

## Main definitions

* `Comparison`, `Separates`: strict weak orders, and the lists on which they are total
* `thenBy`: comparing by a key before another comparison
* `sortBy`: a stable sort
* `bestByKey`: the loop that keeps the best element of each key

## Main results

* `flatMap_groups_perm`: the groups of a list have its elements
* `sortBy_eq_of_perm`, `bestByKey_lookup_of_perm`: the order of the elements does not matter
* `not_before_of_omitted`: no omitted element comes before one that is taken
-/

namespace Ranking

variable {α β κ : Type*}

/-! ## Groups -/

/-- The elements grouped by their keys are the elements. -/
theorem flatMap_groups_perm [DecidableEq α] [DecidableEq κ] (key : α → κ) (l : List α) :
    ((l.map key).dedup.flatMap fun k => l.filter fun a => key a = k).Perm l := by
  rw [List.perm_iff_count]
  intro a
  -- only the group of its own key counts an element
  have hother : ∀ k, k ≠ key a → k ∈ (l.map key).dedup →
      (List.count a ∘ fun k => l.filter fun b => key b = k) k = 0 := by
    intro k hk _
    refine List.count_eq_zero.mpr fun hmem => hk ?_
    exact (of_decide_eq_true (List.mem_filter.mp hmem).2).symm
  rw [List.count_flatMap, List.sum_map_eq_nsmul_single (key a) _ hother, Function.comp_apply,
    List.count_filter (by simp)]
  by_cases hmem : a ∈ l
  · rw [List.count_eq_one_of_mem (List.nodup_dedup _)
      (List.mem_dedup.mpr (List.mem_map_of_mem hmem)), one_nsmul]
  · rw [List.count_eq_zero.mpr hmem, nsmul_zero]

/-! ## Comparisons -/

/-- A strict weak order. -/
structure Comparison (less : α → α → Bool) : Prop where
  asymm : ∀ a b, less a b = true → less b a = false
  cotrans : ∀ a b c, less a c = true → less a b = true ∨ less b c = true

/-- The comparison tells any two elements of a list apart. -/
def Separates (less : α → α → Bool) (l : List α) : Prop :=
  ∀ a ∈ l, ∀ b ∈ l, a ≠ b → less a b = true ∨ less b a = true

theorem Comparison.irrefl {less : α → α → Bool} (h : Comparison less) (a : α) :
    less a a = false := by
  by_contra ha
  rw [Bool.not_eq_false] at ha
  exact absurd (h.asymm a a ha) (by simp [ha])

/-- Compared by their images. -/
theorem Comparison.comap {less : α → α → Bool} (h : Comparison less) (f : β → α) :
    Comparison fun a b => less (f a) (f b) :=
  ⟨fun _ _ => h.asymm _ _, fun _ _ _ => h.cotrans _ _ _⟩

/-- Nothing comes before anything. -/
theorem comparison_false : Comparison fun _ _ : α => false := ⟨nofun, nofun⟩

/-- Compares by a key, and by another comparison where the keys are equal. -/
def thenBy [LinearOrder β] (key : α → β) (rest : α → α → Bool) (a b : α) : Bool :=
  if key a ≠ key b then key a < key b else rest a b

theorem thenBy_eq_true [LinearOrder β] {key : α → β} {rest : α → α → Bool} {a b : α} :
    thenBy key rest a b = true ↔ key a < key b ∨ key a = key b ∧ rest a b = true := by
  unfold thenBy
  split_ifs with h
  · simp [h]
  · simp [not_not.mp h]

theorem thenBy_false [LinearOrder β] (key : α → β) (a b : α) :
    thenBy key (fun _ _ => false) a b = decide (key a < key b) := by
  rw [Bool.eq_iff_iff, thenBy_eq_true]
  simp

/-- By a key, the greater one first. -/
theorem thenBy_toDual [LinearOrder β] (key : α → β) (rest : α → α → Bool) (a b : α) :
    thenBy (fun x => OrderDual.toDual (key x)) rest a b =
      if key a ≠ key b then decide (key b < key a) else rest a b := rfl

theorem thenBy_comparison [LinearOrder β] (key : α → β) {rest : α → α → Bool}
    (h : Comparison rest) : Comparison (thenBy key rest) where
  asymm a b hab := by
    rw [Bool.eq_false_iff]
    intro hba
    rcases thenBy_eq_true.mp hab with hlt | ⟨heq, hrest⟩
    · rcases thenBy_eq_true.mp hba with hlt' | ⟨heq', -⟩
      · exact lt_asymm hlt hlt'
      · exact hlt.ne' heq'
    · rcases thenBy_eq_true.mp hba with hlt' | ⟨-, hrest'⟩
      · exact hlt'.ne' heq
      · exact absurd hrest' (by simp [h.asymm a b hrest])
  cotrans a b c hac := by
    simp only [thenBy_eq_true] at hac ⊢
    rcases lt_trichotomy (key a) (key b) with hab | hab | hab
    · exact .inl (.inl hab)
    · rcases hac with hlt | ⟨heq, hrest⟩
      · exact .inr (.inl (hab ▸ hlt))
      · rcases h.cotrans a b c hrest with hrest | hrest
        · exact .inl (.inr ⟨hab, hrest⟩)
        · exact .inr (.inr ⟨hab.symm.trans heq, hrest⟩)
    · rcases hac with hlt | ⟨heq, -⟩
      · exact .inr (.inl (hab.trans hlt))
      · exact .inr (.inl (heq ▸ hab))

/-- Two elements are told apart by their keys or by the comparison behind. -/
theorem thenBy_total [LinearOrder β] {key : α → β} {rest : α → α → Bool} {a b : α}
    (h : key a = key b → rest a b = true ∨ rest b a = true) :
    thenBy key rest a b = true ∨ thenBy key rest b a = true := by
  simp only [thenBy_eq_true]
  rcases lt_trichotomy (key a) (key b) with hab | hab | hab
  · exact .inl (.inl hab)
  · rcases h hab with hrest | hrest
    · exact .inl (.inr ⟨hab, hrest⟩)
    · exact .inr (.inr ⟨hab.symm, hrest⟩)
  · exact .inr (.inl hab)

/-! ## Sorting -/

section Sorting

variable {less : α → α → Bool} {l l' : List α}

/-- A stable sort: an element goes before another one unless the other one is less. -/
def sortBy (less : α → α → Bool) (l : List α) : List α :=
  l.insertionSort fun a b => less b a = false

theorem sortBy_perm (less : α → α → Bool) (l : List α) : (sortBy less l).Perm l :=
  List.perm_insertionSort _ l

theorem pairwise_sortBy (h : Comparison less) (l : List α) :
    (sortBy less l).Pairwise fun a b => less b a = false := by
  have : Std.Total fun a b => less b a = false := ⟨fun a b => by
    by_contra hneither
    rw [not_or, Bool.not_eq_false] at hneither
    exact absurd (h.asymm _ _ hneither.1) (by simp [hneither.2])⟩
  have : IsTrans α fun a b => less b a = false := ⟨fun a b c hab hbc => by
    by_contra hca
    rw [Bool.not_eq_false] at hca
    rcases h.cotrans c b a hca with hcb | hba
    · exact absurd hcb (by simp [hbc])
    · exact absurd hba (by simp [hab])⟩
  exact List.pairwise_insertionSort _ l

/-- Sorting by the images sorts the images. -/
theorem map_sortBy (f : β → α) (l : List β) :
    (sortBy (fun a b => less (f a) (f b)) l).map f = sortBy less (l.map f) :=
  List.map_insertionSort _ _ f l fun _ _ _ _ => Iff.rfl

/-- The sorted list of separated elements does not depend on their order. -/
theorem sortBy_eq_of_perm (h : Comparison less) (hseparates : Separates less l)
    (hperm : l.Perm l') : sortBy less l = sortBy less l' := by
  refine List.Perm.eq_of_pairwise ?_ (pairwise_sortBy h l) (pairwise_sortBy h l') ?_
  · intro a b ha hb hba hab
    by_contra hne
    have hmem := hperm.mem_iff.mpr ((sortBy_perm less l').mem_iff.mp hb)
    rcases hseparates a ((sortBy_perm less l).mem_iff.mp ha) b hmem hne with hless | hless
    · exact absurd hless (by simp [hab])
    · exact absurd hless (by simp [hba])
  · exact (sortBy_perm less l).trans (hperm.trans (sortBy_perm less l').symm)

/-- Separated elements are sorted strictly. -/
theorem pairwise_less_sortBy (h : Comparison less) (hseparates : Separates less l) (hl : l.Nodup) :
    (sortBy less l).Pairwise fun a b => less a b = true := by
  have hnodup : (sortBy less l).Nodup := (sortBy_perm less l).nodup_iff.mpr hl
  refine ((pairwise_sortBy h l).and hnodup).imp_of_mem fun {a b} ha hb hab => ?_
  have hmem := fun {c} => (sortBy_perm less l).mem_iff (a := c)
  rcases hseparates a (hmem.mp ha) b (hmem.mp hb) hab.2 with hless | hless
  · exact hless
  · exact absurd hless (by simp [hab.1])

theorem not_before_of_omitted (h : Comparison less) {k : Nat} {a b : α}
    (ha : a ∈ (sortBy less l).take k) (hb : b ∈ l) (homitted : b ∉ (sortBy less l).take k) :
    less b a = false := by
  have hsorted := pairwise_sortBy h l
  have hb' := (sortBy_perm less l).mem_iff.mpr hb
  rw [← List.take_append_drop k (sortBy less l)] at hsorted hb'
  exact (List.pairwise_append.mp hsorted).2.2 a ha b
    ((List.mem_append.mp hb').resolve_left homitted)

/-- An element is omitted only if as many as wanted are taken. -/
theorem length_take_of_omitted {k : Nat} {b : α} (hb : b ∈ l)
    (homitted : b ∉ (sortBy less l).take k) : ((sortBy less l).take k).length = k := by
  rw [List.length_take]
  by_contra hshort
  rw [List.take_of_length_le (by omega)] at homitted
  exact homitted ((sortBy_perm less l).mem_iff.mpr hb)

end Sorting

/-! ## The best element of each key -/

section Best

variable [DecidableEq κ] (key : α → Option κ) (better : α → α → Bool)

/-- The loop over the elements, with the best element of each key so far. An element without a
key is passed over, and a later one replaces the best one only if it is better. -/
def bestByKey (best : AList fun _ : κ => α) : List α → AList fun _ : κ => α
  | [] => best
  | x :: rest =>
    match key x with
    | none => bestByKey best rest
    | some k =>
      match best.lookup k with
      | none => bestByKey (best.insert k x) rest
      | some current =>
        if better x current then bestByKey (best.insert k x) rest else bestByKey best rest

/-- What the loop knows about the elements it has seen. -/
def Best (seen : List α) (best : AList fun _ : κ => α) : Prop :=
  ∀ k, match best.lookup k with
    | none => ∀ y ∈ seen, key y ≠ some k
    | some x => x ∈ seen ∧ key x = some k ∧ ∀ y ∈ seen, key y = some k → better y x = false

variable {key better} {seen : List α} {best : AList fun _ : κ => α}

theorem Best.skip (h : Best key better seen best) {x : α}
    (hx : ∀ k, key x = some k → ∃ current, best.lookup k = some current ∧
      better x current = false) : Best key better (seen ++ [x]) best := by
  intro k
  have hk := h k
  split
  · rename_i hnone
    rw [hnone] at hk
    intro y hy
    rcases List.mem_append.mp hy with hy | hy
    · exact hk y hy
    · obtain rfl := List.mem_singleton.mp hy
      intro hkey
      obtain ⟨current, hcurrent, -⟩ := hx k hkey
      exact absurd (hnone.symm.trans hcurrent) nofun
  · rename_i current hsome
    rw [hsome] at hk
    refine ⟨List.mem_append_left _ hk.1, hk.2.1, fun y hy hkey => ?_⟩
    rcases List.mem_append.mp hy with hy | hy
    · exact hk.2.2 y hy hkey
    · obtain rfl := List.mem_singleton.mp hy
      obtain ⟨current', hcurrent, hbetter⟩ := hx k hkey
      obtain rfl := Option.some.inj (hsome.symm.trans hcurrent)
      exact hbetter

theorem Best.take (hcomparison : Comparison better) (h : Best key better seen best) {x : α} {k : κ}
    (hx : key x = some k) (hbetter : ∀ current, best.lookup k = some current →
      better x current = true) : Best key better (seen ++ [x]) (best.insert k x) := by
  intro k'
  by_cases hk : k' = k
  · subst hk
    rw [AList.lookup_insert]
    refine ⟨List.mem_append_right _ List.mem_cons_self, hx, fun y hy hkey => ?_⟩
    rcases List.mem_append.mp hy with hy | hy
    · have hk := h k'
      cases hcurrent : best.lookup k' with
      | none =>
        rw [hcurrent] at hk
        exact absurd hkey (hk y hy)
      | some current =>
        rw [hcurrent] at hk
        by_contra hyx
        rw [Bool.not_eq_false] at hyx
        -- A better element would also be better than the one that was replaced.
        have hxc := hbetter current hcurrent
        rcases hcomparison.cotrans y current x hyx with hyc | hcx
        · exact absurd hyc (by simp [hk.2.2 y hy hkey])
        · exact absurd hcx (by simp [hcomparison.asymm _ _ hxc])
    · obtain rfl := List.mem_singleton.mp hy
      exact hcomparison.irrefl y
  · have hk' := h k'
    rw [AList.lookup_insert_ne hk]
    have hother : ∀ y ∈ seen ++ [x], key y = some k' → y ∈ seen := by
      intro y hy hkey
      rcases List.mem_append.mp hy with hy | hy
      · exact hy
      · obtain rfl := List.mem_singleton.mp hy
        exact absurd (Option.some.inj (hkey.symm.trans hx)) hk
    split
    · rename_i hnone
      rw [hnone] at hk'
      exact fun y hy hkey => hk' y (hother y hy hkey) hkey
    · rename_i current hsome
      rw [hsome] at hk'
      exact ⟨List.mem_append_left _ hk'.1, hk'.2.1,
        fun y hy hkey => hk'.2.2 y (hother y hy hkey) hkey⟩

/-- The loop keeps its knowledge. -/
theorem Best.run (hcomparison : Comparison better) (h : Best key better seen best) (l : List α) :
    Best key better (seen ++ l) (bestByKey key better best l) := by
  induction l generalizing seen best with
  | nil => simpa [bestByKey] using h
  | cons x rest ih =>
    rw [List.append_cons, bestByKey]
    split
    · rename_i hnone
      exact ih (h.skip fun k hk => absurd (hnone.symm.trans hk) nofun)
    · rename_i k hk
      split
      · rename_i hnone
        exact ih (h.take hcomparison hk fun current hcurrent =>
          absurd (hnone.symm.trans hcurrent) nofun)
      · rename_i current hsome
        split_ifs with hbetter
        · refine ih (h.take hcomparison hk fun current' hcurrent => ?_)
          obtain rfl := Option.some.inj (hsome.symm.trans hcurrent)
          exact hbetter
        · refine ih (h.skip fun k' hk' => ⟨current, ?_, by simpa using hbetter⟩)
          obtain rfl := Option.some.inj (hk.symm.trans hk')
          exact hsome

theorem best_empty (key : α → Option κ) (better : α → α → Bool) :
    Best key better [] (∅ : AList fun _ : κ => α) := by
  intro k
  simp

theorem bestByKey_best (key : α → Option κ) (hcomparison : Comparison better) (l : List α) :
    Best key better l (bestByKey key better ∅ l) := by
  simpa using (best_empty key better).run hcomparison l

/-- A key has a best element exactly when some element has the key. -/
theorem mem_keys_bestByKey (hcomparison : Comparison better) {l : List α} {k : κ} :
    k ∈ (bestByKey key better ∅ l).keys ↔ ∃ x ∈ l, key x = some k := by
  have hbest := bestByKey_best key hcomparison l k
  rw [← AList.mem_keys, ← AList.lookup_isSome]
  split at hbest
  · rename_i hnone
    simp only [hnone, Option.isSome_none, Bool.false_eq_true, false_iff]
    rintro ⟨x, hx, hkey⟩
    exact hbest x hx hkey
  · rename_i x hsome
    simp only [hsome, Option.isSome_some, true_iff]
    exact ⟨x, hbest.1, hbest.2.1⟩

theorem map_lookup_bestByKey (f : β → α) {best images}
    (h : ∀ k, (best.lookup k).map f = images.lookup k) (l : List β) (k : κ) :
    ((bestByKey (fun x => key (f x)) (fun x y => better (f x) (f y)) best l).lookup k).map f =
      (bestByKey key better images (l.map f)).lookup k := by
  induction l generalizing best images with
  | nil => exact h k
  | cons x rest ih =>
    have hinsert : ∀ k', ∀ k, ((best.insert k' x).lookup k).map f =
        (images.insert k' (f x)).lookup k := by
      intro k' k
      by_cases hk : k = k'
      · rw [hk, AList.lookup_insert, AList.lookup_insert, Option.map_some]
      · rw [AList.lookup_insert_ne hk, AList.lookup_insert_ne hk, h]
    rw [List.map_cons, bestByKey, bestByKey]
    cases key (f x) with
    | none => exact ih h
    | some k' =>
      have hcurrent := h k'
      cases hlookup : best.lookup k' with
      | none =>
        simp only [hlookup, ← hcurrent]
        exact ih (hinsert k')
      | some current =>
        rw [hlookup, Option.map_some] at hcurrent
        simp only [hlookup, ← hcurrent]
        split_ifs
        · exact ih (hinsert k')
        · exact ih h

/-- The best elements of separated elements do not depend on their order. -/
theorem bestByKey_lookup_of_perm (hcomparison : Comparison better) {l l' : List α}
    (hseparates : Separates better l) (hperm : l.Perm l') (k : κ) :
    (bestByKey key better ∅ l).lookup k = (bestByKey key better ∅ l').lookup k := by
  have hbest := bestByKey_best key hcomparison l k
  have hbest' := bestByKey_best key hcomparison l' k
  split at hbest
  · rename_i hnone
    split at hbest'
    · rename_i hnone'
      rw [hnone, hnone']
    · exact absurd hbest'.2.1 (hbest _ (hperm.mem_iff.mpr hbest'.1))
  · rename_i x hsome
    split at hbest'
    · exact absurd hbest.2.1 (hbest' _ (hperm.mem_iff.mp hbest.1))
    · rename_i x' hsome'
      rw [hsome, hsome']
      congr 1
      by_contra hne
      rcases hseparates x hbest.1 x' (hperm.mem_iff.mpr hbest'.1) hne with hbetter | hbetter
      · exact absurd hbetter (by simp [hbest'.2.2 x (hperm.mem_iff.mp hbest.1) hbest.2.1])
      · exact absurd hbetter (by simp [hbest.2.2 x' (hperm.mem_iff.mpr hbest'.1) hbest'.2.1])

end Best

end Ranking
