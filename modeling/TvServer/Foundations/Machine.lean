import Mathlib.Data.List.Infix

/-!
# Runs of a step function

A system that takes one step for each input is a function `step : S → I → S`, and a run is the
fold of the step over a list of inputs. A property of the states is followed along a run by an
invariant; where a property may fail, the steps that keep it are characterized once, and the runs
that keep it throughout are those all of whose steps are of this kind.

## Main definitions

* `run step s xs`: the state a run ends in
* `Along step P s xs`: every step of the run has the property `P`
* `Throughout step Safe s xs`: every state of the run has the property `Safe`

## Main results

* `run_invariant_of_mem`, `run_invariant`: an invariant holds after every run
* `along_congr`: properties of steps that agree under an invariant agree along runs
* `throughout_iff_along`: an exact step condition characterizes the safe runs
-/

namespace Machine

variable {S I : Type*} (step : S → I → S)

/-- The state a run ends in. -/
def run (s : S) (xs : List I) : S := xs.foldl step s

@[simp] theorem run_nil (s : S) : run step s [] = s := rfl

@[simp] theorem run_cons (s : S) (x : I) (xs : List I) :
    run step s (x :: xs) = run step (step s x) xs := rfl

theorem run_append (s : S) (xs ys : List I) :
    run step s (xs ++ ys) = run step (run step s xs) ys := List.foldl_append

@[simp] theorem run_snoc (s : S) (xs : List I) (x : I) :
    run step s (xs ++ [x]) = step (run step s xs) x := by
  rw [run_append]
  rfl

/-- Every step of the run has the property `P`, at the state it starts from. -/
def Along (P : S → I → Prop) : S → List I → Prop
  | _, [] => True
  | s, x :: xs => P s x ∧ Along P (step s x) xs

/-- Every state of the run, the first one included, has the property `Safe`. -/
def Throughout (Safe : S → Prop) (s : S) (xs : List I) : Prop :=
  ∀ pre, pre <+: xs → Safe (run step s pre)

variable {step}

/-- **Invariants hold after every run** whose inputs keep them. -/
theorem run_invariant_of_mem (Inv : S → Prop) {xs : List I}
    (hstep : ∀ s, ∀ x ∈ xs, Inv s → Inv (step s x)) {s : S} (hs : Inv s) :
    Inv (run step s xs) := by
  induction xs generalizing s with
  | nil => exact hs
  | cons x xs ih =>
    have hx : Inv (step s x) := hstep s x List.mem_cons_self hs
    exact ih (fun s y hy => hstep s y (List.mem_cons_of_mem x hy)) hx

theorem run_invariant (Inv : S → Prop) (hstep : ∀ s x, Inv s → Inv (step s x)) {s : S}
    (hs : Inv s) (xs : List I) : Inv (run step s xs) :=
  run_invariant_of_mem Inv (fun s x _ => hstep s x) hs

/-- Properties of steps agree along runs where they agree under an invariant, which a step has to
keep only if it has the first property. -/
theorem along_congr (Inv : S → Prop) {P Q : S → I → Prop}
    (hinv : ∀ s x, Inv s → P s x → Inv (step s x)) (h : ∀ s x, Inv s → (P s x ↔ Q s x)) {s : S}
    (hs : Inv s) (xs : List I) : Along step P s xs ↔ Along step Q s xs := by
  induction xs generalizing s with
  | nil => exact Iff.rfl
  | cons x xs ih =>
    rw [Along, Along, ← h s x hs]
    exact and_congr_right fun hx => ih (hinv s x hs hx)

/-- A property that the steps have under an invariant holds along every run. -/
theorem along_of_invariant (Inv : S → Prop) {P : S → I → Prop}
    (hinv : ∀ s x, Inv s → Inv (step s x)) (h : ∀ s x, Inv s → P s x) {s : S} (hs : Inv s)
    (xs : List I) : Along step P s xs := by
  induction xs generalizing s with
  | nil => trivial
  | cons x xs ih => exact ⟨h s x hs, ih (hinv s x hs)⟩

theorem along_of_imp {P Q : S → I → Prop} (h : ∀ s x, P s x → Q s x) {s : S} {xs : List I}
    (hp : Along step P s xs) : Along step Q s xs := by
  induction xs generalizing s with
  | nil => trivial
  | cons x xs ih => exact ⟨h s x hp.1, ih hp.2⟩

theorem throughout_nil {Safe : S → Prop} {s : S} : Throughout step Safe s [] ↔ Safe s := by
  simp [Throughout]

theorem throughout_cons {Safe : S → Prop} {s : S} {x : I} {xs : List I} :
    Throughout step Safe s (x :: xs) ↔ Safe s ∧ Throughout step Safe (step s x) xs := by
  constructor
  · intro h
    refine ⟨h [] List.nil_prefix, fun pre hpre => h (x :: pre) ?_⟩
    exact List.cons_prefix_cons.mpr ⟨rfl, hpre⟩
  · rintro ⟨hs, h⟩ pre hpre
    cases pre with
    | nil => exact hs
    | cons y pre =>
      obtain ⟨rfl, htl⟩ := List.cons_prefix_cons.mp hpre
      exact h pre htl

theorem throughout_snoc {Safe : S → Prop} {s : S} {xs : List I} {x : I} :
    Throughout step Safe s (xs ++ [x]) ↔
      Throughout step Safe s xs ∧ Safe (run step s (xs ++ [x])) := by
  constructor
  · intro h
    exact ⟨fun pre hpre => h pre (hpre.trans (List.prefix_append xs [x])), h _ List.prefix_rfl⟩
  · rintro ⟨h, hx⟩ pre hpre
    rcases List.prefix_concat_iff.mp hpre with rfl | hpre
    · exact hx
    · exact h pre hpre

/-- **Exact step conditions.** Where, under an invariant, `Cond` says exactly which steps keep
`Safe`, the runs that are safe throughout are those all of whose steps meet `Cond`. -/
theorem throughout_iff_along (Inv : S → Prop) {Safe : S → Prop} {Cond : S → I → Prop}
    (hinv : ∀ s x, Inv s → Inv (step s x))
    (hexact : ∀ s x, Inv s → Safe s → (Safe (step s x) ↔ Cond s x)) {s : S} (hi : Inv s)
    (hs : Safe s) (xs : List I) : Throughout step Safe s xs ↔ Along step Cond s xs := by
  induction xs generalizing s with
  | nil => simpa [throughout_nil, Along] using hs
  | cons x xs ih =>
    rw [throughout_cons, Along]
    constructor
    · rintro ⟨-, h⟩
      have hx : Safe (step s x) := h [] List.nil_prefix
      exact ⟨(hexact s x hi hs).mp hx, (ih (hinv s x hi) hx).mp h⟩
    · rintro ⟨hx, h⟩
      exact ⟨hs, (ih (hinv s x hi) ((hexact s x hi hs).mpr hx)).mpr h⟩

end Machine
