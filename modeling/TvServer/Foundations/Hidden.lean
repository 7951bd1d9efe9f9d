import TvServer.Foundations.Machine

/-!
# Hidden values

A part of the state that is set to an unknown value at first is hidden as long as no step reads it.
A step that assigns it ends this: from then on all runs are the same. Runs that start with
different values can be told apart exactly if one of the steps before the first assignment reads
the value.

## Main definitions

* `Hidden Inv step hide observe assigns reads`: what the steps do to the hidden value, in the
  states that meet an invariant
* `Indistinguishable`: the runs with all values are observed alike at any time

## Main results

* `indistinguishable_iff`: exactly the runs that do not read the value cannot be told apart
-/

namespace Machine

variable {S I V O : Type*}

/-- A hidden value: steps that neither read nor assign it leave it as it is, steps that assign it
forget it, and a step that reads it does so for everyone to see. -/
structure Hidden (Inv : S → Prop) (step : S → I → S) (hide : S → V → S) (observe : S → O)
    (assigns : I → Bool) (reads : S → I → Bool) : Prop where
  inv_step : ∀ s x, Inv s → Inv (step s x)
  observe_hide : ∀ s v, observe (hide s v) = observe s
  keeps : ∀ s x v, assigns x = false → reads s x = false →
    step (hide s v) x = hide (step s x) v
  forgets : ∀ s x v, assigns x = true → step (hide s v) x = step s x
  tells : ∀ s x, Inv s → assigns x = false → reads s x = true →
    ∃ v v', observe (step (hide s v) x) ≠ observe (step (hide s v') x)

/-- The runs with all hidden values are observed alike at any time. -/
def Indistinguishable (step : S → I → S) (hide : S → V → S) (observe : S → O) (s : S)
    (xs : List I) : Prop :=
  ∀ v v' pre, pre <+: xs → observe (run step (hide s v) pre) = observe (run step (hide s v') pre)

variable {Inv : S → Prop} {step : S → I → S} {hide : S → V → S} {observe : S → O}
  {assigns : I → Bool} {reads : S → I → Bool}

namespace Hidden

variable (h : Hidden Inv step hide observe assigns reads)

include h

theorem indistinguishable_nil (s : S) : Indistinguishable step hide observe s [] := by
  intro v v' pre hpre
  rw [List.prefix_nil.mp hpre, run_nil, run_nil, h.observe_hide, h.observe_hide]

/-- Once the value is assigned the runs are the same. -/
theorem indistinguishable_of_assigns {s : S} {x : I} (hx : assigns x = true) (xs : List I) :
    Indistinguishable step hide observe s (x :: xs) := by
  intro v v' pre hpre
  cases pre with
  | nil => exact h.indistinguishable_nil s v v' [] (List.prefix_refl _)
  | cons y pre =>
    obtain ⟨rfl, -⟩ := List.cons_prefix_cons.mp hpre
    rw [run_cons, run_cons, h.forgets s y v hx, h.forgets s y v' hx]

/-- A step that does not read the value only postpones the question. -/
theorem indistinguishable_cons_iff {s : S} {x : I} (hx : assigns x = false)
    (hreads : reads s x = false) (xs : List I) :
    Indistinguishable step hide observe s (x :: xs) ↔
      Indistinguishable step hide observe (step s x) xs := by
  constructor
  · intro hall v v' pre hpre
    have hsame := hall v v' (x :: pre) (List.cons_prefix_cons.mpr ⟨rfl, hpre⟩)
    rwa [run_cons, run_cons, h.keeps s x v hx hreads, h.keeps s x v' hx hreads] at hsame
  · intro hall v v' pre hpre
    cases pre with
    | nil => exact h.indistinguishable_nil s v v' [] (List.prefix_refl _)
    | cons y pre =>
      obtain ⟨rfl, htl⟩ := List.cons_prefix_cons.mp hpre
      rw [run_cons, run_cons, h.keeps s y v hx hreads, h.keeps s y v' hx hreads]
      exact hall v v' pre htl

/-- **Runs that cannot be told apart** are exactly those that read no hidden value before they
assign it. -/
theorem indistinguishable_iff {s : S} (hs : Inv s) (xs : List I) :
    Indistinguishable step hide observe s xs ↔
      Along step (fun s x => reads s x = false) s (xs.takeWhile fun x => !assigns x) := by
  induction xs generalizing s with
  | nil => exact iff_of_true (h.indistinguishable_nil s) trivial
  | cons x xs ih =>
    rw [List.takeWhile_cons]
    cases hx : assigns x with
    | true => exact iff_of_true (h.indistinguishable_of_assigns hx xs) trivial
    | false =>
      cases hreads : reads s x with
      | false =>
        rw [h.indistinguishable_cons_iff hx hreads, ih (h.inv_step s x hs)]
        exact (and_iff_right hreads).symm
      | true =>
        -- the two values that this step tells apart
        refine iff_of_false (fun hall => ?_) fun halong => ?_
        · obtain ⟨v, v', hne⟩ := h.tells s x hs hx hreads
          exact hne (hall v v' [x] (List.cons_prefix_cons.mpr ⟨rfl, List.nil_prefix⟩))
        · exact absurd (hreads.symm.trans halong.1) nofun

end Hidden

end Machine
