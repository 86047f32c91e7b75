import Mathlib

/-!
# Infinite executions

An execution of a system that never stops, with the action taken at each time. Invariants hold
at every time, and a number that never falls and rises again and again passes every bound.

## Main definitions

* `Behavior`: an infinite execution
* `Behavior.lead`: a finite execution that goes over into an infinite one

## Main results

* `Behavior.invariant`: the rule for invariants
* `Behavior.exists_le_of_progress`: the rule for progress
-/

namespace Relational

/-- An infinite execution of the steps `next`. -/
structure Behavior {σ α : Type} (next : α → σ → Option σ) where
  state : Nat → σ
  action : Nat → α
  follows : ∀ n, next (action n) (state n) = some (state (n + 1))

namespace Behavior

variable {σ α : Type} {next : α → σ → Option σ} (b : Behavior next)

/-- What holds at first and is kept by every step that is taken holds at every time. -/
theorem invariant {I : σ → Prop} {meets : σ → α → Prop}
    (hmeets : ∀ n, meets (b.state n) (b.action n))
    (hfirst : I (b.state 0))
    (hstep : ∀ a s s', meets s a → next a s = some s' → I s → I s') : ∀ n, I (b.state n) := by
  intro n
  induction n with
  | zero => exact hfirst
  | succ n ih => exact hstep _ _ _ (hmeets n) (b.follows n) ih

/-- A relation that is reflexive and transitive and holds across every step holds between any
two times. -/
theorem related {R : σ → σ → Prop} (hrefl : ∀ s, R s s)
    (htrans : ∀ s₁ s₂ s₃, R s₁ s₂ → R s₂ s₃ → R s₁ s₃) {n m : Nat} (hle : n ≤ m)
    (hstep : ∀ l, n ≤ l → l < m → R (b.state l) (b.state (l + 1))) : R (b.state n) (b.state m) := by
  induction m, hle using Nat.le_induction with
  | base => exact hrefl _
  | succ m hm ih =>
    exact htrans _ _ _ (ih fun l hl hlt => hstep l hl (by omega)) (hstep m hm (by omega))

/-- A measure that rises again and again passes every bound. -/
theorem exists_le_of_progress (measure : σ → Nat) (n₀ bound : Nat)
    (hprogress : ∀ n, n₀ ≤ n → measure (b.state n) < bound →
      ∃ m, n ≤ m ∧ measure (b.state n) < measure (b.state m)) :
    ∃ n, n₀ ≤ n ∧ bound ≤ measure (b.state n) := by
  -- Induction on the distance that is left.
  have hreach : ∀ distance n, n₀ ≤ n → bound - measure (b.state n) ≤ distance →
      ∃ m, n₀ ≤ m ∧ bound ≤ measure (b.state m) := by
    intro distance
    induction distance with
    | zero => exact fun n hn hdistance => ⟨n, hn, by omega⟩
    | succ distance ih =>
      intro n hn hdistance
      by_cases hdone : bound ≤ measure (b.state n)
      · exact ⟨n, hn, hdone⟩
      · obtain ⟨m, hm, hrises⟩ := hprogress n hn (by omega)
        exact ih m (by omega) (by omega)
  exact hreach _ n₀ le_rfl le_rfl

/-! ## Executions with a finite beginning -/

/-- The state after some actions. -/
def after (next : α → σ → Option σ) (actions : List α) (s : σ) : Option σ :=
  actions.foldlM (fun s a => next a s) s

theorem after_append (actions more : List α) (s : σ) :
    after next (actions ++ more) s = (after next actions s).bind (after next more) :=
  List.foldlM_append

/-- The actions `actions`, and then what `b` does. -/
def lead (actions : List α) (s : σ) (h : after next actions s = some (b.state 0)) :
    Behavior next where
  state n :=
    if n < actions.length then (after next (actions.take n) s).getD s
    else b.state (n - actions.length)
  action n := (actions[n]?).getD (b.action (n - actions.length))
  follows n := by
    by_cases hn : n < actions.length
    · -- Inside the beginning the next state is the one after one action more.
      have hsplit : after next (actions.take (n + 1)) s =
          (after next (actions.take n) s).bind (next actions[n]) := by
        rw [← List.take_append_getElem hn, after_append]
        congr 1
        funext s'
        simp [after]
      have htotal : (after next (actions.take (n + 1)) s).isSome = true := by
        rw [← List.take_append_drop (n + 1) actions, after_append] at h
        obtain ⟨s', hs', -⟩ := Option.bind_eq_some_iff.mp h
        rw [hs']
        rfl
      obtain ⟨s'', hs''⟩ := Option.isSome_iff_exists.mp htotal
      obtain ⟨s', hs', hnext⟩ := Option.bind_eq_some_iff.mp (hsplit.symm.trans hs'')
      have hlast : (if n + 1 < actions.length then (after next (actions.take (n + 1)) s).getD s
          else b.state (n + 1 - actions.length)) = s'' := by
        split
        · rw [hs'', Option.getD_some]
        · rename_i hend
          obtain hend : actions.length = n + 1 := by omega
          rw [← hend, List.take_length, h] at hs''
          rw [hend, Nat.sub_self]
          exact Option.some.inj hs''
      rw [if_pos hn, hlast, hs', Option.getD_some, List.getElem?_eq_getElem hn, Option.getD_some]
      exact hnext
    · rw [if_neg hn, if_neg (by omega), List.getElem?_eq_none (by omega), Option.getD_none,
        show n + 1 - actions.length = n - actions.length + 1 by omega]
      exact b.follows _

section Lead

variable {actions : List α} {s : σ} {h : after next actions s = some (b.state 0)}

theorem lead_state_add (n : Nat) : (b.lead actions s h).state (actions.length + n) = b.state n := by
  simp [lead]

theorem lead_action_add (n : Nat) :
    (b.lead actions s h).action (actions.length + n) = b.action n := by
  simp [lead]

/-- What holds in the beginning and afterwards holds at every time. -/
theorem forall_lead {P : σ → α → Prop}
    (hbefore : ∀ n < actions.length,
      P ((b.lead actions s h).state n) ((b.lead actions s h).action n))
    (hafter : ∀ n, P (b.state n) (b.action n)) :
    ∀ n, P ((b.lead actions s h).state n) ((b.lead actions s h).action n) := by
  intro n
  by_cases hn : n < actions.length
  · exact hbefore n hn
  · have hafter := hafter (n - actions.length)
    rw [← b.lead_state_add, ← b.lead_action_add] at hafter
    rwa [Nat.add_sub_cancel' (Nat.not_lt.mp hn)] at hafter

end Lead

end Behavior

end Relational
