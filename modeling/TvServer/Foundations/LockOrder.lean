import Mathlib.Data.DFinsupp.WellFounded
import TvServer.Foundations.Threads

/-!
# Lock orders

Where locks have ranks, and every thread acquires a lock only above those that it holds, the thread
that waits for the highest lock waits for one that does not wait. A finite number of such threads
never gets stuck: whatever was scheduled so far, what is left can be scheduled so that all return.

## Main definitions

* `order rank`: the rules on the locks that a code acquires

## Main results

* `exists_steps`: some thread goes on, as long as not all have returned
* `exists_returned`: every run can be completed
-/

namespace Threads

variable {G L T α : Type*}

/-- A lock is acquired above the locks that are held. -/
def order (rank : L → ℕ) : Rules G L where
  access _ _ := True
  acquire held l := ∀ m ∈ held, rank m < rank l

/-- What comes next in a code. -/
inductive Code.Behind : Code G L α → Code G L α → Prop
  | access (f : G → G) (next : G → Code G L α) (g : G) : Behind (next g) (access f next)
  | acquire (l : L) (next : Code G L α) : Behind next (acquire l next)
  | release (l : L) (next : Code G L α) : Behind next (release l next)

theorem Code.behind_wf : WellFounded (Code.Behind : Code G L α → Code G L α → Prop) := by
  refine ⟨fun c => ?_⟩
  induction c with
  | ret a =>
    refine ⟨_, fun c' h => ?_⟩
    cases h
  | access f next ih =>
    refine ⟨_, fun c' h => ?_⟩
    cases h with
    | access f next g => exact ih g
  | acquire l next ih =>
    refine ⟨_, fun c' h => ?_⟩
    cases h
    exact ih
  | release l next ih =>
    refine ⟨_, fun c' h => ?_⟩
    cases h
    exact ih

/-- A step goes on with what comes next. -/
theorem Code.Next.behind {held held' : Set L} {code code' : Code G L α} {g g' : G}
    (hnext : Code.Next held code g held' code' g') : code'.Behind code := by
  cases hnext with
  | access f next g => exact .access f next g
  | acquire => exact .acquire _ _
  | release => exact .release _ _

namespace Config

variable {c : Config G L T α}

section Order

variable {rank : L → ℕ} {bound : ℕ} {crashed : α → Prop}

/-- A thread that waits for a lock waits, in the end, for a thread that goes on. -/
theorem exists_steps_of_waits (hrank : ∀ l, rank l ≤ bound)
    (h : c.Obeys (order rank) fun _ held a => crashed a ∨ held = ∅)
    (hcrash : ∀ t a, c.code t = .ret a → ¬ crashed a) {t : T} {l : L} {next : Code G L α}
    (hcode : c.code t = .acquire l next) (howned : c.owner l ≠ none) :
    ∃ t', ¬ c.Finished t' ∧ ¬ c.Waits t' := by
  -- by the number of ranks above that of the lock
  induction hn : bound - rank l using Nat.strong_induction_on generalizing t l next with
  | _ n ih =>
    obtain ⟨t', ht'⟩ := Option.ne_none_iff_exists'.mp howned
    have hobeys := h t'
    by_cases hwaits : c.Waits t'
    · obtain ⟨l', next', hcode', howned'⟩ := hwaits
      rw [hcode'] at hobeys
      have habove : rank l < rank l' := hobeys.1 l ht'
      have hle := hrank l'
      exact ih (bound - rank l') (by omega) hcode' howned' rfl
    · refine ⟨t', ?_, hwaits⟩
      rintro ⟨a, ha⟩
      rw [ha] at hobeys
      rcases hobeys with hbad | hnone
      · exact hcrash t' a ha hbad
      · have hin : l ∈ c.held t' := ht'
        rw [hnone] at hin
        exact hin

/-- As long as not all threads have returned, and none has crashed, some thread goes on. -/
theorem exists_steps (hrank : ∀ l, rank l ≤ bound)
    (h : c.Obeys (order rank) fun _ held a => crashed a ∨ held = ∅)
    (hcrash : ∀ t a, c.code t = .ret a → ¬ crashed a) {t : T} (ht : ¬ c.Finished t) :
    ∃ t', ¬ c.Finished t' ∧ ¬ c.Waits t' := by
  by_cases hwaits : c.Waits t
  · obtain ⟨l, next, hcode, howned⟩ := hwaits
    exact exists_steps_of_waits hrank h hcrash hcode howned
  · exact ⟨t, ht, hwaits⟩

/-- **Every run can be completed**: threads that acquire their locks in order get, from wherever
they are, to where all have returned, unless one crashes. -/
theorem exists_returned [Finite T] [DecidableEq L] [DecidableEq T] (hrank : ∀ l, rank l ≤ bound)
    (h : c.Obeys (order rank) fun _ held a => crashed a ∨ held = ∅) :
    ∃ ts, (∀ t, (Machine.run step c ts).Finished t) ∨
      ∃ t a, (Machine.run step c ts).code t = .ret a ∧ crashed a := by
  -- every step goes on in one of the codes, which end
  have hwf : WellFounded (Pi.Lex WellOrderingRel
      fun {_ : T} => (Code.Behind : Code G L α → Code G L α → Prop)) :=
    Pi.Lex.wellFounded WellOrderingRel fun _ => Code.behind_wf
  induction hcode : c.code using hwf.induction generalizing c with
  | _ code ih =>
    subst hcode
    by_cases hcrash : ∃ t a, c.code t = .ret a ∧ crashed a
    · exact ⟨[], .inr hcrash⟩
    · by_cases hfinished : ∀ t, c.Finished t
      · exact ⟨[], .inl hfinished⟩
      · obtain ⟨t, ht⟩ := not_forall.mp hfinished
        obtain ⟨t, hunfinished, hgoes⟩ := exists_steps hrank h
          (fun t a hret hbad => hcrash ⟨t, a, hret, hbad⟩) ht
        have hd := disciplined_of_obeys h
        rcases step_self hd (t := t) with ⟨hstops, -⟩ | hnext
        · exact absurd hstops (not_or.mpr ⟨hunfinished, hgoes⟩)
        · have hless : Pi.Lex WellOrderingRel (fun {_ : T} => Code.Behind) (c.step t).code
              c.code := by
            refine ⟨t, fun t' ht' => (step_other hd ?_).1, hnext.behind⟩
            rintro rfl
            exact irrefl t' ht'
          obtain ⟨ts, hts⟩ := ih _ hless (obeys_step h t) rfl
          exact ⟨t :: ts, hts⟩

end Order

end Config

end Threads
