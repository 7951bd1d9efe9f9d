import Mathlib.Algebra.BigOperators.Group.List.Basic
import Mathlib.Algebra.GroupWithZero.Nat
import Mathlib.Algebra.Ring.Nat
import TvServer.Foundations.Machine

/-!
# Potentials

The cost of a run is the sum of the costs of its steps. A step may be expensive where it uses up
what steps before it have stored: a potential is a measure of what is stored, which some inputs
raise. Where each step pays for its cost from the potential and from what its input adds to it, a
run costs no more than all its inputs add.

## Main definitions

* `cost step price s xs`: the cost of a run

## Main results

* `cost_add_le`: a run costs no more than the potential at its beginning and what its inputs add
* `cost_le_length_filter`: the case where some inputs add one, and the others nothing
-/

namespace Machine

variable {S I : Type*} (step : S → I → S)

/-- The cost of a run: the prices of its steps, at the states they start from. -/
def cost (price : S → I → ℕ) : S → List I → ℕ
  | _, [] => 0
  | s, x :: xs => price s x + cost price (step s x) xs

variable {step} {price : S → I → ℕ}

/-- **Amortized costs.** Where, under an invariant, each step pays its price from the potential and
from what its input adds, a run costs no more than the potential at its beginning and all that its
inputs add; what is left of it is the potential at the end. -/
theorem cost_add_le (Inv : S → Prop) (potential : S → ℕ) (gain : I → ℕ)
    (hinv : ∀ s x, Inv s → Inv (step s x))
    (hpay : ∀ s x, Inv s → price s x + potential (step s x) ≤ potential s + gain x) {s : S}
    (hs : Inv s) (xs : List I) :
    cost step price s xs + potential (run step s xs) ≤ potential s + (xs.map gain).sum := by
  induction xs generalizing s with
  | nil => simp [cost]
  | cons x xs ih =>
    have hx := hpay s x hs
    have hxs := ih (hinv s x hs)
    rw [cost, run_cons, List.map_cons, List.sum_cons]
    omega

/-- Where the potential is empty at the beginning, and some inputs add one to it and the others
nothing, a run costs no more than the number of these inputs. -/
theorem cost_le_length_filter (Inv : S → Prop) (potential : S → ℕ) (p : I → Bool)
    (hinv : ∀ s x, Inv s → Inv (step s x))
    (hpay : ∀ s x, Inv s → price s x + potential (step s x) ≤ potential s + (p x).toNat) {s : S}
    (hs : Inv s) (hempty : potential s = 0) (xs : List I) :
    cost step price s xs ≤ (xs.filter p).length := by
  have hcount (ys : List I) : (ys.map fun x => (p x).toNat).sum = (ys.filter p).length := by
    induction ys with
    | nil => rfl
    | cons y ys ih =>
      rw [List.map_cons, List.sum_cons, ih, List.filter_cons]
      cases p y with
      | false => exact Nat.zero_add _
      | true => exact Nat.add_comm _ _
  have hcost := cost_add_le Inv potential (fun x => (p x).toNat) hinv hpay hs xs
  rw [hempty, hcount, Nat.zero_add] at hcost
  exact (Nat.le_add_right _ _).trans hcost

end Machine
