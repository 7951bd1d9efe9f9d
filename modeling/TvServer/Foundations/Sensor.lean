import Mathlib.Data.List.Chain
import TvServer.Foundations.Machine

/-!
# Sensors

A sensor takes inputs, keeps a state and emits outputs. It reports a value of its state if each
step emits the new value where it changed, and nothing about it where it did not. What is reported
along a run then alternates, and the last report is the value in the state at the end: one who
listens to the reports and one who looks at the state see the same.

## Main definitions

* `outputs step s xs`: what a run emits
* `ReportsAt step pick value s x`: a step reports the change of a value
* `Reports step Inv pick value`: the steps report the changes of a value

## Main results

* `followed`: one who takes the outputs step by step keeps up with the state
* `alternates_of_along`, `Reports.alternates`: consecutive reports differ
* `Reports.getLast`: the last report is the value at the end
-/

namespace Sensor

variable {S I O V : Type*} (step : S → I → List O × S)

/-- What a run emits. -/
def outputs : S → List I → List O
  | _, [] => []
  | s, x :: xs => (step s x).1 ++ outputs (step s x).2 xs

/-- The state that a run ends in. -/
abbrev state (s : S) (xs : List I) : S := Machine.run (fun s x => (step s x).2) s xs

theorem outputs_snoc (s : S) (xs : List I) (x : I) :
    outputs step s (xs ++ [x]) = outputs step s xs ++ (step (state step s xs) x).1 := by
  induction xs generalizing s with
  | nil => exact List.append_nil _
  | cons y xs ih =>
    rw [List.cons_append, outputs, outputs, ih, List.append_assoc]
    rfl

variable {step} in
/-- **A follower** whose state is that of a part of the sensor's behind each step, when it takes the
outputs of that step, has it behind every run. -/
theorem followed {W : Type*} {view : S → W} {follow : W → O → W}
    (h : ∀ s x, view (step s x).2 = Machine.run follow (view s) (step s x).1) (s : S)
    (xs : List I) :
    view (state step s xs) = Machine.run follow (view s) (outputs step s xs) := by
  induction xs generalizing s with
  | nil => rfl
  | cons x xs ih =>
    rw [outputs, Machine.run_append, ← h]
    exact ih (step s x).2

/-- A step reports the value where it changed, and nothing where it did not. The reports are picked
from the outputs. -/
def ReportsAt [DecidableEq V] (pick : O → Option V) (value : S → V) (s : S) (x : I) : Prop :=
  (step s x).1.filterMap pick =
    if value (step s x).2 = value s then [] else [value (step s x).2]

/-- Under an invariant, which the steps keep, each step reports the value where it changed. The
reports are picked from the outputs. -/
structure Reports [DecidableEq V] (Inv : S → Prop) (pick : O → Option V) (value : S → V) :
    Prop where
  inv : ∀ s x, Inv s → Inv (step s x).2
  report : ∀ s x, Inv s → (step s x).1.filterMap pick =
    if value (step s x).2 = value s then [] else [value (step s x).2]

variable {step} [DecidableEq V] {pick : O → Option V} {value : S → V}

/-- **Reports alternate** along a run all of whose steps report: each differs from the one before,
the first one from the value at the beginning. -/
theorem alternates_of_along {s : S} {xs : List I}
    (h : Machine.Along (fun s x => (step s x).2) (ReportsAt step pick value) s xs) :
    List.IsChain (· ≠ ·) (value s :: (outputs step s xs).filterMap pick) := by
  induction xs generalizing s with
  | nil => exact .singleton _
  | cons x xs ih =>
    obtain ⟨hreport, hrest⟩ := h
    have hx := ih hrest
    rw [outputs, List.filterMap_append, hreport]
    split
    · rename_i heq
      rwa [List.nil_append, ← heq]
    · rename_i hne
      exact List.isChain_cons_cons.mpr ⟨fun heq => hne heq.symm, hx⟩

namespace Reports

variable {Inv : S → Prop}

/-- **Reports alternate**: each differs from the one before, the first one from the value at the
beginning. -/
theorem alternates (h : Reports step Inv pick value) {s : S} (hs : Inv s) (xs : List I) :
    List.IsChain (· ≠ ·) (value s :: (outputs step s xs).filterMap pick) :=
  alternates_of_along (Machine.along_of_invariant Inv h.inv h.report hs xs)

/-- What is reported is a value of some state. -/
theorem exists_of_mem (h : Reports step Inv pick value) {s : S} (hs : Inv s) {xs : List I} {v : V}
    (hv : v ∈ (outputs step s xs).filterMap pick) : ∃ s', value s' = v := by
  induction xs generalizing s with
  | nil => exact absurd hv List.not_mem_nil
  | cons x xs ih =>
    rw [outputs, List.filterMap_append, h.report s x hs, List.mem_append] at hv
    rcases hv with hv | hv
    · split at hv
      · exact absurd hv List.not_mem_nil
      · exact ⟨_, (List.mem_singleton.mp hv).symm⟩
    · exact ih (h.inv s x hs) hv

/-- **The last report** is the value at the end, which is the one at the beginning where nothing
was reported. -/
theorem getLast (h : Reports step Inv pick value) {s : S} (hs : Inv s) (xs : List I) :
    ((outputs step s xs).filterMap pick).getLast?.getD (value s) = value (state step s xs) := by
  induction xs generalizing s with
  | nil => rfl
  | cons x xs ih =>
    have hx := ih (h.inv s x hs)
    rw [outputs, List.filterMap_append, h.report s x hs, state, Machine.run_cons, ← hx]
    split
    · rename_i heq
      rw [List.nil_append, heq]
    · rw [List.singleton_append, List.getLast?_cons]
      rfl

end Reports

end Sensor
