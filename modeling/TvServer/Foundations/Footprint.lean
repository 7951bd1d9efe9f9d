import Mathlib.Data.List.Basic
import TvServer.Foundations.Machine

/-!
# Footprints

A state that is changed by primitive updates has parts: every update belongs to one of them. An
operation that is a run of updates touches the parts of these, and an observation of the state
depends on some parts. Where an operation touches none of the parts that an observation depends
on, the observation is the same before and after it.

## Main definitions

* `Touches update part parts s t`: the state `t` is reached from `s` by updates of the parts
* `DependsOn update part f parts`: the observation `f` sees updates of the parts only

## Main results

* `Touches.trans`, `Touches.mono`: the footprint of a composition
* `Touches.frame`: the frame rule
-/

namespace Footprint

variable {S U P V : Type*} (update : S → U → S) (part : U → P)

/-- A state is reached by updates of some parts. -/
def Touches (parts : List P) (s t : S) : Prop :=
  ∃ us : List U, (∀ u ∈ us, part u ∈ parts) ∧ Machine.run update s us = t

/-- An observation does not see the updates of other parts. -/
def DependsOn (f : S → V) (parts : List P) : Prop :=
  ∀ s u, part u ∉ parts → f (update s u) = f s

/-- Whether no part is seen. -/
def avoids [DecidableEq P] (parts seen : List P) : Bool := parts.all fun p => p ∉ seen

variable {update part} {parts parts' : List P} {s t r : S}

namespace Touches

theorem refl (parts : List P) (s : S) : Touches update part parts s s :=
  ⟨[], fun _ hu => absurd hu List.not_mem_nil, rfl⟩

theorem single (s : S) (u : U) : Touches update part [part u] s (update s u) :=
  ⟨[u], fun v hv => by rw [List.mem_singleton.mp hv]; exact List.mem_cons_self, rfl⟩

theorem mono [DecidableEq P] (h : Touches update part parts s t)
    (hsub : (parts.all fun p => p ∈ parts') = true) : Touches update part parts' s t := by
  rw [List.all_eq_true] at hsub
  obtain ⟨us, hus, hrun⟩ := h
  exact ⟨us, fun u hu => of_decide_eq_true (hsub _ (hus u hu)), hrun⟩

theorem trans (h : Touches update part parts s t) (h' : Touches update part parts' t r) :
    Touches update part (parts ++ parts') s r := by
  obtain ⟨us, hus, rfl⟩ := h
  obtain ⟨us', hus', rfl⟩ := h'
  refine ⟨us ++ us', fun u hu => List.mem_append.mpr ?_, Machine.run_append update s us us'⟩
  rcases List.mem_append.mp hu with hu | hu
  · exact .inl (hus u hu)
  · exact .inr (hus' u hu)

/-- **The frame rule**: an observation that depends on none of the parts touched is kept. -/
theorem frame [DecidableEq P] {f : S → V} {seen : List P} (h : Touches update part parts s t)
    (hf : DependsOn update part f seen) (hparts : avoids parts seen = true) : f t = f s := by
  rw [avoids, List.all_eq_true] at hparts
  obtain ⟨us, hus, rfl⟩ := h
  have hkeep : ∀ s', ∀ u ∈ us, f s' = f s → f (update s' u) = f s := by
    intro s' u hu hs'
    rw [hf s' u (of_decide_eq_true (hparts _ (hus u hu))), hs']
  exact Machine.run_invariant_of_mem (fun s' => f s' = f s) hkeep rfl

end Touches

end Footprint
