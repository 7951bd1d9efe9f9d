import Mathlib.Data.List.Basic
import TvServer.Foundations.Machine

/-!
# Inputs that nobody notices

A system is looked at through a view of its states and through what it returns for its inputs. An
input is silent if it leaves the view as it is. Where the view of the next state and what is
returned depend on nothing but the view, silent inputs can be left out of a run, or put into it,
without a difference to anyone.

## Main definitions

* `Unwinds step output view silent Inv`: what the steps do to the view, in the states that meet an
  invariant

## Main results

* `Unwinds.view_run`: the view behind a run is that behind its inputs that are not silent
* `Unwinds.noninterference`: runs that differ in silent inputs look the same
-/

namespace Machine

variable {S I O V : Type*}

/-- Silent inputs keep the view; what the other ones make of the view, and what is returned, depends
on the view alone. -/
structure Unwinds (step : S → I → S) (output : S → I → O) (view : S → V) (silent : I → Bool)
    (Inv : S → Prop) : Prop where
  inv_step : ∀ s x, Inv s → Inv (step s x)
  view_silent : ∀ s x, Inv s → silent x = true → view (step s x) = view s
  view_congr : ∀ s s' x, view s = view s' → silent x = false →
    view (step s x) = view (step s' x)
  output_congr : ∀ s s' x, view s = view s' → output s x = output s' x

variable {step : S → I → S} {output : S → I → O} {view : S → V} {silent : I → Bool}
  {Inv : S → Prop}

namespace Unwinds

variable (h : Unwinds step output view silent Inv)

include h

/-- **Silent inputs can be left out**: the view behind a run is that behind the other inputs, from
any state with the same view. -/
theorem view_run {s s' : S} (hs : Inv s) (hview : view s = view s') (xs : List I) :
    view (run step s xs) = view (run step s' (xs.filter fun x => !silent x)) := by
  induction xs generalizing s s' with
  | nil => exact hview
  | cons x xs ih =>
    have hx : Inv (step s x) := h.inv_step s x hs
    cases hsilent : silent x with
    | true =>
      have hkeep : view (step s x) = view s' := (h.view_silent s x hs hsilent).trans hview
      rw [List.filter_cons_of_neg (by simp [hsilent])]
      exact ih hx hkeep
    | false =>
      have hnext : view (step s x) = view (step s' x) := h.view_congr s s' x hview hsilent
      rw [List.filter_cons_of_pos (by simp [hsilent])]
      exact ih hx hnext

/-- **Runs that differ in silent inputs** look the same, and whatever comes next is answered the
same. -/
theorem noninterference {s : S} (hs : Inv s) {xs ys : List I}
    (hsame : xs.filter (fun x => !silent x) = ys.filter fun x => !silent x) :
    view (run step s xs) = view (run step s ys) ∧
      ∀ x, output (run step s xs) x = output (run step s ys) x := by
  have hview : view (run step s xs) = view (run step s ys) := by
    rw [h.view_run hs rfl xs, hsame, ← h.view_run hs rfl ys]
  exact ⟨hview, fun x => h.output_congr _ _ x hview⟩

end Unwinds

end Machine
