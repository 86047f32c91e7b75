import Mathlib

/-!
# Pages in the order of a key

`SELECT ... ORDER BY key LIMIT limit` over rows whose keys are distinct. A reader that asks for
the rows after the last key it has seen misses none of the rows that are there: every row that
comes before the end of a page is on the page.

## Main definitions

* `page`: the first rows in the order of a key

## Main results

* `pairwise_page`: a page is in strict order
* `mem_page_of_le`: what comes before a row of the page is on the page
-/

namespace Relational

variable {α : Type} {key : α → Nat} {limit : Nat} {rows : List α}

/-- The first `limit` rows in the order of the key. -/
def page (key : α → Nat) (limit : Nat) (rows : List α) : List α :=
  (rows.insertionSort (key · ≤ key ·)).take limit

theorem mem_of_mem_page {a : α} (h : a ∈ page key limit rows) : a ∈ rows :=
  (List.mem_insertionSort _).mp (List.mem_of_mem_take h)

theorem pairwise_sorted (hdistinct : (rows.map key).Nodup) :
    (rows.insertionSort (key · ≤ key ·)).Pairwise (key · < key ·) := by
  have hsorted := List.pairwise_insertionSort (key · ≤ key ·) rows
  have hnodup : ((rows.insertionSort (key · ≤ key ·)).map key).Nodup :=
    ((List.perm_insertionSort _ _).map key).nodup_iff.mpr hdistinct
  have hne := List.pairwise_map.mp hnodup
  exact (hsorted.and hne).imp fun h => lt_of_le_of_ne h.1 h.2

theorem pairwise_page (hdistinct : (rows.map key).Nodup) :
    (page key limit rows).Pairwise (key · < key ·) :=
  (pairwise_sorted hdistinct).sublist (List.take_sublist _ _)

/-- In a strictly ordered list, what is not after an element of a prefix is in the prefix. -/
theorem mem_take_of_le {l : List α} (hsorted : l.Pairwise (key · < key ·)) {n : Nat} {a b : α}
    (ha : a ∈ l) (hb : b ∈ l.take n) (hle : key a ≤ key b) : a ∈ l.take n := by
  rw [← List.take_append_drop n l, List.mem_append] at ha
  rcases ha with ha | ha
  · exact ha
  · rw [← List.take_append_drop n l, List.pairwise_append] at hsorted
    exact absurd (hsorted.2.2 b hb a ha) (by omega)

/-- Every row that comes before a row of the page is on the page, and so on every prefix of the
page that has the row. -/
theorem mem_page_of_le (hdistinct : (rows.map key).Nodup) {n : Nat} {a b : α} (ha : a ∈ rows)
    (hb : b ∈ (page key limit rows).take n) (hle : key a ≤ key b) :
    a ∈ (page key limit rows).take n := by
  rw [page, List.take_take] at hb ⊢
  exact mem_take_of_le (pairwise_sorted hdistinct) ((List.mem_insertionSort _).mpr ha) hb hle

theorem page_ne_nil (hlimit : limit ≠ 0) (hrows : rows ≠ []) : page key limit rows ≠ [] := by
  intro h
  rcases List.take_eq_nil_iff.mp h with h | h
  · exact hlimit h
  · rw [← List.length_eq_zero_iff, List.length_insertionSort, List.length_eq_zero_iff] at h
    exact hrows h

end Relational
