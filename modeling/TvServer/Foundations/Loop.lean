import Mathlib.Data.List.Basic
import Mathlib.Logic.Relation
import TvServer.Foundations.Lines

/-!
# Loops over a memory

A memory is a list of cells, and a load or a store outside it has no result. The body of a loop
takes a state to the next one, or ends the loop with a result; the loop runs for a number of rounds
at most. A loop all of whose rounds keep an invariant and lower a variant ends, and has its result
in fewer rounds than any bound on the variant.

## Main definitions

* `load`, `store`: access to a cell of a memory
* `strlen`, `strchr`: searches up to the terminator of a string in a memory
* `run body n s`: the loop from a state, for `n` rounds at most
* `Reaches body s s'`: the loop comes from a state to another one

## Main results

* `load_append`, `load_append_succ`, `store_append`: access to the first cells behind a part of the
  memory
* `strlen_eq`, `strchr_eq`: the searches in a string that is terminated
* `reaches_invariant`: an invariant holds in all rounds
* `run_spec`: the loop ends, and its result is right
-/

namespace Loop

variable {α σ ρ : Type*}

/-- The value of a cell. -/
def load (mem : List α) (i : ℕ) : Option α := mem[i]?

/-- The memory with another value in a cell. -/
def store (mem : List α) (i : ℕ) (v : α) : Option (List α) :=
  if i < mem.length then some (mem.set i v) else none

/-- The length of the string at the start of a memory. There is no result where it has no
terminator. -/
def strlen (mem : List Char) : Option ℕ :=
  if '\x00' ∈ mem then some (Lines.cstr mem).length else none

/-- The place of the first character of its kind in the string at the start of a memory. -/
def strchr (mem : List Char) (c : Char) : Option (Option ℕ) :=
  if '\x00' ∈ mem then
    some (if c ∈ Lines.cstr mem then some ((Lines.cstr mem).idxOf c) else none)
  else none

/-- The loop from a state. There is no result where a round has none, or the rounds run out. -/
def run (body : σ → Option (σ ⊕ ρ)) : ℕ → σ → Option ρ
  | 0, _ => none
  | n + 1, s =>
    match body s with
    | none => none
    | some (.inl s') => run body n s'
    | some (.inr r) => some r

/-- The loop comes to a state, after any number of rounds. -/
def Reaches (body : σ → Option (σ ⊕ ρ)) : σ → σ → Prop :=
  Relation.ReflTransGen fun s s' => body s = some (.inl s')

/-! ## Cells -/

@[simp] theorem load_append (pre post : List α) (c : α) :
    load (pre ++ c :: post) pre.length = some c := by simp [load]

theorem load_append_succ (pre post : List α) (c d : α) :
    load (pre ++ c :: d :: post) (pre.length + 1) = some d := by simp [load]

@[simp] theorem store_append (pre post : List α) (c v : α) :
    store (pre ++ c :: post) pre.length v = some (pre ++ v :: post) := by
  simp [store]

/-- The cell at an index behind a part of the memory of this length. -/
theorem load_at {pre : List α} {i : ℕ} (hi : pre.length = i) (post : List α) (c : α) :
    load (pre ++ c :: post) i = some c := hi ▸ load_append pre post c

theorem store_at {pre : List α} {i : ℕ} (hi : pre.length = i) (post : List α) (c v : α) :
    store (pre ++ c :: post) i v = some (pre ++ v :: post) := hi ▸ store_append pre post c v

theorem strlen_eq {s : List Char} (hs : '\x00' ∉ s) (rest : List Char) :
    strlen (s ++ '\x00' :: rest) = some s.length := by
  rw [strlen, if_pos (by simp), Lines.cstr_append_null hs]

theorem strchr_eq {s : List Char} (hs : '\x00' ∉ s) (rest : List Char) (c : Char) :
    strchr (s ++ '\x00' :: rest) c = some (if c ∈ s then some (s.idxOf c) else none) := by
  rw [strchr, if_pos (by simp), Lines.cstr_append_null hs]

/-! ## Rounds -/

variable {body : σ → Option (σ ⊕ ρ)}

theorem run_of_inl {s s' : σ} (h : body s = some (.inl s')) (n : ℕ) :
    run body (n + 1) s = run body n s' := by simp only [run, h]

theorem run_of_inr {s : σ} {r : ρ} (h : body s = some (.inr r)) (n : ℕ) :
    run body (n + 1) s = some r := by simp only [run, h]

/-- **An invariant holds in all rounds** that it is kept by. -/
theorem reaches_invariant {Inv : σ → Prop}
    (hstep : ∀ s s', Inv s → body s = some (.inl s') → Inv s') {s s' : σ} (hs : Inv s)
    (hreach : Reaches body s s') : Inv s' := by
  induction hreach with
  | refl => exact hs
  | tail _ hbody ih => exact hstep _ _ ih hbody

/-- **The loop ends, and its result is right**, when each round keeps the invariant and lowers the
variant, or ends the loop with a right result. -/
theorem run_spec {Inv : σ → Prop} {Post : ρ → Prop} (variant : σ → ℕ)
    (hstep : ∀ s, Inv s → (∃ s', body s = some (.inl s') ∧ Inv s' ∧ variant s' < variant s) ∨
      ∃ r, body s = some (.inr r) ∧ Post r) {s : σ} (hs : Inv s) {n : ℕ} (hn : variant s < n) :
    ∃ r, run body n s = some r ∧ Post r := by
  induction n generalizing s with
  | zero => exact absurd hn (Nat.not_lt_zero _)
  | succ n ih =>
    rcases hstep s hs with ⟨s', hbody, hs', hlt⟩ | ⟨r, hbody, hr⟩
    · rw [run_of_inl hbody]
      exact ih hs' (Nat.lt_of_lt_of_le hlt (Nat.le_of_lt_succ hn))
    · exact ⟨r, run_of_inr hbody n, hr⟩

end Loop
