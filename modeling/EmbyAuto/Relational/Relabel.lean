import Mathlib

/-!
# Moving classes of a labelling one after the other

Elements carry labels. A move `(i, k)` gives the label `k` to every element that has the
label of `i` at that moment, so a later move acts on what earlier moves left. The moves have
the effect of one simultaneous substitution exactly when elements that start together go to
one place, and no class arrives at a label before the class there has left for another one.

## Main definitions

* `relabel`, `relabelAll`: the labels after one move and after a list of moves
* `Moved`: some move names an element that started with this label

## Main results

* `relabelAll_append_eq`: elements that meet stay together
* `relabelAll_eq_target_iff`: when the moves are a simultaneous substitution
-/

namespace Relational

variable {ι κ : Type}

/-- Some move names an element that started with the label of `x`. -/
def Moved (label : ι → κ) (moves : List (ι × κ)) (x : ι) : Prop :=
  ∃ m ∈ moves, label m.1 = label x

variable {label target : ι → κ} {moves pre : List (ι × κ)} {m : ι × κ} {x y : ι}

theorem moved_snoc : Moved label (pre ++ [m]) x ↔ Moved label pre x ∨ label m.1 = label x := by
  simp [Moved]

variable [DecidableEq κ]

/-- Gives the label `m.2` to every element with the label of `m.1`. -/
def relabel (label : ι → κ) (m : ι × κ) : ι → κ :=
  fun x => if label x = label m.1 then m.2 else label x

def relabelAll (label : ι → κ) (moves : List (ι × κ)) : ι → κ := moves.foldl relabel label

theorem relabelAll_append (post : List (ι × κ)) :
    relabelAll label (pre ++ post) = relabelAll (relabelAll label pre) post :=
  List.foldl_append

theorem relabelAll_snoc : relabelAll label (pre ++ [m]) = relabel (relabelAll label pre) m :=
  relabelAll_append [m]

theorem relabelAll_congr (h : label x = label y) :
    relabelAll label moves x = relabelAll label moves y := by
  induction moves generalizing label with
  | nil => exact h
  | cons m moves ih =>
    apply ih
    simp [relabel, h]

/-- Elements that meet stay together. -/
theorem relabelAll_append_eq (post : List (ι × κ))
    (h : relabelAll label pre x = relabelAll label pre y) :
    relabelAll label (pre ++ post) x = relabelAll label (pre ++ post) y := by
  rw [relabelAll_append]
  exact relabelAll_congr h

/-! ## Moves that settle their classes -/

section Settled

variable (S : ι → Prop)

/-- After `pre`, the classes that were moved are at their targets and the others where they
started. -/
def Settled (label target : ι → κ) (pre : List (ι × κ)) : Prop :=
  ∀ x, S x → (Moved label pre x → relabelAll label pre x = target x) ∧
    (¬ Moved label pre x → relabelAll label pre x = label x)

variable {S}

/-- Moving a class that is at its target changes nothing. -/
theorem Settled.snoc_of_moved (h : Settled S label target pre) (hm : S m.1)
    (htarget : target m.1 = m.2) (hmoved : Moved label pre m.1) :
    Settled S label target (pre ++ [m]) := by
  have hat : relabelAll label pre m.1 = m.2 := by rw [(h m.1 hm).1 hmoved, htarget]
  intro x hx
  have hsame : Moved label (pre ++ [m]) x ↔ Moved label pre x := by
    rw [moved_snoc, or_iff_left_of_imp]
    intro hlabel
    rwa [Moved, hlabel] at hmoved
  have hlabel : relabelAll label (pre ++ [m]) x = relabelAll label pre x := by
    rw [relabelAll_snoc, relabel, hat]
    split
    · next hx => exact hx.symm
    · rfl
  rw [hsame, hlabel]
  exact h x hx

/-- A move settles its class if it meets no class with another target. -/
theorem Settled.snoc (h : Settled S label target pre) (hm : S m.1) (htarget : target m.1 = m.2)
    (hmeet : ¬ Moved label pre m.1 → ∀ x, S x → relabelAll label pre x = label m.1 →
      target x = m.2) : Settled S label target (pre ++ [m]) := by
  by_cases hmoved : Moved label pre m.1
  · exact h.snoc_of_moved hm htarget hmoved
  have hat := (h m.1 hm).2 hmoved
  intro x hx
  rw [relabelAll_snoc, relabel, hat]
  split
  · next hlabel =>
    rw [hmeet hmoved x hx hlabel]
    refine ⟨fun _ => rfl, fun hnot => ?_⟩
    -- a class that no move has named is met only by its own members
    rw [moved_snoc, not_or] at hnot
    exact absurd (hlabel.symm.trans ((h x hx).2 hnot.1)) hnot.2
  · next hlabel =>
    rw [moved_snoc]
    refine ⟨?_, fun hnot => (h x hx).2 fun hx' => hnot (.inl hx')⟩
    rintro (hx' | hsame)
    · exact (h x hx).1 hx'
    · exact absurd (hat ▸ relabelAll_congr hsame.symm) hlabel

end Settled

/-! ## Simultaneous substitution -/

section Substitution

variable {S : ι → Prop}

/-- No class arrives at a label before the class there has left for another one. -/
def Unchained (label : ι → κ) (moves : List (ι × κ)) : Prop :=
  ∀ pre m post, moves = pre ++ m :: post → ∀ m' ∈ post,
    label m'.1 = m.2 → m'.2 ≠ m.2 → Moved label pre m'.1

variable (hS : ∀ m ∈ moves, S m.1) (htarget : ∀ m ∈ moves, target m.1 = m.2)

include hS htarget

/-- The moves settle their classes if none of them meets a class with another target. -/
theorem settled_of_meet (hmeet : ∀ pre m post, moves = pre ++ m :: post →
      Settled S label target pre → ¬ Moved label pre m.1 → ∀ x, S x →
      relabelAll label pre x = label m.1 → target x = m.2)
    (pre post : List (ι × κ)) (hmoves : moves = pre ++ post) : Settled S label target pre := by
  induction pre using List.reverseRecOn generalizing post with
  | nil =>
    refine fun x _ => ⟨?_, fun _ => rfl⟩
    rintro ⟨_, h, _⟩
    cases h
  | append_singleton pre m ih =>
    rw [List.append_assoc] at hmoves
    have h := ih (m :: post) hmoves
    have hm : m ∈ moves := by simp [hmoves]
    exact h.snoc (hS m hm) (htarget m hm) (hmeet pre m post hmoves h)

theorem settled_of_unchained (hclass : ∀ x y, S x → S y → label x = label y → target x = target y)
    (hchain : Unchained label moves) : Settled S label target moves := by
  refine settled_of_meet hS htarget (fun pre m post hmoves h hmoved x hx hmeet => ?_) moves []
    (by simp)
  have hm : m ∈ moves := by simp [hmoves]
  by_cases hx' : Moved label pre x
  · -- an earlier move brought `x` to the label that the class of `m` is about to leave
    obtain ⟨m₀, hm₀, hlabel⟩ := hx'
    obtain ⟨pre₀, mid, rfl⟩ := List.append_of_mem hm₀
    have hm₀ : m₀ ∈ moves := by simp [hmoves]
    have harrive : target x = m₀.2 := by
      rw [← htarget m₀ hm₀]
      exact hclass x m₀.1 hx (hS m₀ hm₀) hlabel.symm
    rw [(h x hx).1 ⟨m₀, by simp, hlabel⟩, harrive] at hmeet
    by_contra hne
    refine hmoved ?_
    obtain ⟨m₁, hm₁, hlabel₁⟩ := hchain pre₀ m₀ (mid ++ m :: post) (by simp [hmoves]) m (by simp)
      hmeet.symm (fun heq => hne (harrive.trans heq.symm))
    exact ⟨m₁, by simp [hm₁], hlabel₁⟩
  · rw [(h x hx).2 hx'] at hmeet
    rw [hclass x m.1 hx (hS m hm) hmeet, htarget m hm]

theorem unchained_of_substituted (hend : ∀ x, S x → relabelAll label moves x = target x) :
    Unchained label moves := by
  have hsettled : ∀ pre post, moves = pre ++ post → Settled S label target pre := by
    refine settled_of_meet hS htarget fun pre m post hmoves h hmoved x hx hmeet => ?_
    have hm : m ∈ moves := by simp [hmoves]
    rw [← (h m.1 (hS m hm)).2 hmoved] at hmeet
    have htogether := relabelAll_append_eq (m :: post) hmeet
    rwa [← hmoves, hend x hx, hend m.1 (hS m hm), htarget m hm] at htogether
  intro pre m post hmoves m' hm' hlabel hne
  have hm : m ∈ moves := by simp [hmoves]
  have hm' : m' ∈ moves := by simp [hmoves, hm']
  by_contra hmoved
  have hstart := (hsettled pre _ hmoves m'.1 (hS m' hm')).2 hmoved
  have hmeet : relabelAll label (pre ++ [m]) m'.1 = relabelAll label (pre ++ [m]) m.1 := by
    rw [relabelAll_snoc, relabel, relabel, if_pos (rfl : _ = relabelAll label pre m.1), hstart,
      hlabel]
    split <;> rfl
  have htogether := relabelAll_append_eq post hmeet
  rw [List.append_assoc, List.singleton_append, ← hmoves, hend _ (hS m' hm'), hend _ (hS m hm),
    htarget m' hm', htarget m hm] at htogether
  exact hne htogether

omit hS htarget

/-- The moves take every element to its target exactly when elements that start together have
one target and no class arrives where another one has yet to leave. -/
theorem relabelAll_eq_target_iff (label target : ι → κ) (moves : List (ι × κ))
    (hS : ∀ m ∈ moves, S m.1) (htarget : ∀ m ∈ moves, target m.1 = m.2)
    (hstay : ∀ x, S x → ¬ Moved label moves x → target x = label x) :
    (∀ x, S x → relabelAll label moves x = target x) ↔
      (∀ x y, S x → S y → label x = label y → target x = target y) ∧ Unchained label moves := by
  constructor
  · intro hend
    refine ⟨fun x y hx hy hlabel => ?_, unchained_of_substituted hS htarget hend⟩
    rw [← hend x hx, ← hend y hy]
    exact relabelAll_congr hlabel
  · rintro ⟨hclass, hchain⟩ x hx
    have h := settled_of_unchained hS htarget hclass hchain x hx
    by_cases hmoved : Moved label moves x
    · exact h.1 hmoved
    · rw [h.2 hmoved, hstay x hx hmoved]

end Substitution

end Relational
