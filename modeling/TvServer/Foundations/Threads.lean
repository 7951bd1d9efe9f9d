import Mathlib.Data.Set.Insert
import Mathlib.Logic.Function.Basic
import TvServer.Foundations.Machine

/-!
# Threads and locks

Threads that share a state take their steps in any order. A step is an access to the shared state,
or it acquires or releases a lock, where a thread waits for a lock as long as another one owns it.

A lock protects a part of the shared state: whoever does not own it leaves this part alone. What a
thread does with the part between acquiring and releasing the lock is then as if it were alone. A
thread whose other accesses act on the rest of the state as the steps of a coarser code do, refines
this code: any interleaving of the threads is one of the coarser codes, which take no locks.

## Main definitions

* `Code`: what is left of a thread, and `Code.bind`: one code behind another
* `Code.alone`: a code that no other thread runs beside
* `Config`, `Config.step`: the threads with the state they share, and a step of one of them
* `Code.Obeys`: a code keeps to rules on its accesses and on the locks it acquires
* `Code.Disciplined`: a code leaves alone what is protected by locks that it does not own
* `Code.Refines`: a code acts on an abstract state as another code does, whatever others do

## Main results

* `step_self`, `step_other`: what a step is to the thread that takes it, and to the others
* `returned_of_obeys`, `shared_run`: what a thread returns in a run is what its code returns, and
  what every access does to the shared state, a run does
* `refines_run`: an interleaving of threads that refine others is an interleaving of these
-/

namespace Threads

variable {G L T α β A V : Type*}

/-! ## Codes -/

/-- What is left of a thread: it returns, or it goes on behind an access to the shared state, which
it reads before the access changes it, or behind a lock that it acquires or releases. -/
inductive Code (G L α : Type*) where
  | ret (a : α)
  | access (f : G → G) (next : G → Code G L α)
  | acquire (l : L) (next : Code G L α)
  | release (l : L) (next : Code G L α)

namespace Code

/-- A code behind another one, of whose result it may depend. -/
def bind : Code G L α → (α → Code G L β) → Code G L β
  | ret a, k => k a
  | access f next, k => access f fun g => (next g).bind k
  | acquire l next, k => acquire l (next.bind k)
  | release l next, k => release l (next.bind k)

instance : Monad (Code G L) where
  pure := ret
  bind := bind

theorem bind_ret (c : Code G L α) : c.bind ret = c := by
  induction c with
  | ret a => rfl
  | access f next ih => exact congrArg (access f) (funext ih)
  | acquire l next ih => exact congrArg (acquire l) ih
  | release l next ih => exact congrArg (release l) ih

theorem bind_bind {γ : Type*} (c : Code G L α) (k : α → Code G L β) (k' : β → Code G L γ) :
    (c.bind k).bind k' = c.bind fun a => (k a).bind k' := by
  induction c with
  | ret a => rfl
  | access f next ih => exact congrArg (access f) (funext ih)
  | acquire l next ih => exact congrArg (acquire l) ih
  | release l next ih => exact congrArg (release l) ih

instance : LawfulMonad (Code G L) :=
  LawfulMonad.mk' (Code G L) bind_ret (fun _ _ => rfl) bind_bind

/-- A code that no other thread runs beside, and that gets its locks: what it returns, and the state
that it leaves. -/
def alone : Code G L α → G → α × G
  | ret a, g => (a, g)
  | access f next, g => (next g).alone (f g)
  | acquire _ next, g => next.alone g
  | release _ next, g => next.alone g

end Code

/-! ## Interleavings -/

/-- The threads, the state they share, and the owners of the locks. -/
structure Config (G L T α : Type*) where
  shared : G
  owner : L → Option T
  code : T → Code G L α

namespace Config

/-- Threads that have not begun, while no lock is owned. -/
def start (shared : G) (code : T → Code G L α) : Config G L T α := ⟨shared, fun _ => none, code⟩

section Step

variable [DecidableEq L] [DecidableEq T]

/-- A step of a thread; it stays where it is if it has returned, or waits for a lock. -/
def step (c : Config G L T α) (t : T) : Config G L T α :=
  match c.code t with
  | .ret _ => c
  | .access f next =>
    { c with shared := f c.shared, code := Function.update c.code t (next c.shared) }
  | .acquire l next =>
    if c.owner l = none then
      { c with
        owner := Function.update c.owner l (some t)
        code := Function.update c.code t next }
    else c
  | .release l next =>
    { c with owner := Function.update c.owner l none, code := Function.update c.code t next }

end Step

/-- The locks that a thread owns. -/
def held (c : Config G L T α) (t : T) : Set L := {l | c.owner l = some t}

/-- The thread has returned. -/
def Finished (c : Config G L T α) (t : T) : Prop := ∃ a, c.code t = .ret a

/-- The thread waits for a lock. -/
def Waits (c : Config G L T α) (t : T) : Prop :=
  ∃ l next, c.code t = .acquire l next ∧ c.owner l ≠ none

end Config

/-! ## Protected parts -/

/-- The parts of a state that the locks of a set protect are the same in another state. -/
def Agree (part : L → G → V) (held : Set L) (g g' : G) : Prop := ∀ l ∈ held, part l g' = part l g

variable {part : L → G → V}

theorem Agree.refl {held : Set L} (g : G) : Agree part held g g := fun _ _ => rfl

theorem Agree.trans {held : Set L} {g g' g'' : G} (h : Agree part held g g')
    (h' : Agree part held g' g'') : Agree part held g g'' := fun l hl => (h' l hl).trans (h l hl)

/-- Rules on what a code may do while it holds a set of locks: its accesses, and the locks that it
may acquire. -/
structure Rules (G L : Type*) where
  access : Set L → (G → G) → Prop
  acquire : Set L → L → Prop

namespace Code

/-- The code keeps to the rules, releases no lock that it does not hold, and returns as given. What
is behind a lock that the code holds already is never reached. -/
def Obeys (rules : Rules G L) (returns : Set L → α → Prop) : Set L → Code G L α → Prop
  | held, ret a => returns held a
  | held, access f next => rules.access held f ∧ ∀ g, (next g).Obeys rules returns held
  | held, acquire l next =>
    rules.acquire held l ∧ (l ∉ held → next.Obeys rules returns (insert l held))
  | held, release l next => l ∈ held ∧ next.Obeys rules returns (held \ {l})

theorem Obeys.mono {rules rules' : Rules G L} {returns returns' : Set L → α → Prop}
    (haccess : ∀ held f, rules.access held f → rules'.access held f)
    (hacquire : ∀ held l, rules.acquire held l → rules'.acquire held l)
    (hreturns : ∀ held a, returns held a → returns' held a) {held : Set L} {c : Code G L α}
    (h : c.Obeys rules returns held) : c.Obeys rules' returns' held := by
  induction c generalizing held with
  | ret a => exact hreturns held a h
  | access f next ih => exact ⟨haccess held f h.1, fun g => ih g (h.2 g)⟩
  | acquire l next ih => exact ⟨hacquire held l h.1, fun hl => ih (h.2 hl)⟩
  | release l next ih => exact ⟨h.1, ih h.2⟩

/-- What the locks protect is only changed by a code that holds them. -/
def protection (part : L → G → V) : Rules G L where
  access held f := ∀ l ∉ held, ∀ g, part l (f g) = part l g
  acquire _ _ := True

def Disciplined (part : L → G → V) (held : Set L) (c : Code G L α) : Prop :=
  c.Obeys (protection part) (fun _ _ => True) held

end Code

/-! ## Steps -/

/-- A step of one thread as the thread sees it: the locks it holds, its code and the shared state,
before and behind the step. -/
inductive Code.Next : Set L → Code G L α → G → Set L → Code G L α → G → Prop
  | access (held : Set L) (f : G → G) (next : G → Code G L α) (g : G) :
    Next held (access f next) g held (next g) (f g)
  | acquire {held : Set L} {l : L} (hl : l ∉ held) (next : Code G L α) (g : G) :
    Next held (acquire l next) g (insert l held) next g
  | release {held : Set L} {l : L} (hl : l ∈ held) (next : Code G L α) (g : G) :
    Next held (release l next) g (held \ {l}) next g

/-- What every access that the rules allow does to the shared state, a step does. -/
theorem Code.Next.shared {rules : Rules G L} {returns : Set L → α → Prop} {R : G → G → Prop}
    {held held' : Set L} {code code' : Code G L α} {g g' : G}
    (hnext : Code.Next held code g held' code' g') (hrefl : ∀ g, R g g)
    (haccess : ∀ held f, rules.access held f → ∀ g, R g (f g))
    (h : code.Obeys rules returns held) : R g g' := by
  cases hnext with
  | access f next g => exact haccess held f h.1 g
  | acquire hl next g => exact hrefl g
  | release hl next g => exact hrefl g

theorem Code.Next.obeys {rules : Rules G L} {returns : Set L → α → Prop} {held held' : Set L}
    {code code' : Code G L α} {g g' : G} (hnext : Code.Next held code g held' code' g')
    (h : code.Obeys rules returns held) : code'.Obeys rules returns held' := by
  cases hnext with
  | access f next g => exact h.2 g
  | acquire hl next g => exact h.2 hl
  | release hl next g => exact h.2

namespace Config

variable [DecidableEq L] [DecidableEq T] {c : Config G L T α} {t t' : T}

/-- The locks that the threads hold once `t` acquired a free one. -/
theorem held_acquire {l : L} (hfree : c.owner l = none) (code : T → Code G L α) :
    Config.held { c with owner := Function.update c.owner l (some t), code := code } t' =
      if t' = t then insert l (c.held t') else c.held t' := by
  ext m
  rcases eq_or_ne m l with rfl | hm
  · split_ifs with ht
    · simp [held, ht]
    · simp [held, hfree, Ne.symm ht]
  · split_ifs <;> simp [held, hm]

/-- The locks that the threads hold once `t` released one it held. -/
theorem held_release {l : L} (hl : l ∈ c.held t) (code : T → Code G L α) :
    Config.held { c with owner := Function.update c.owner l none, code := code } t' =
      if t' = t then c.held t' \ {l} else c.held t' := by
  have howner : c.owner l = some t := hl
  ext m
  rcases eq_or_ne m l with rfl | hm
  · split_ifs with ht
    · simp [held]
    · simp [held, howner, Ne.symm ht]
  · split_ifs <;> simp [held, hm]

/-- The threads are disciplined with the locks that they hold. -/
def Disciplined (part : L → G → V) (c : Config G L T α) : Prop :=
  ∀ t, (c.code t).Disciplined part (c.held t)

/-- **What a step is to the thread that takes it**, unless the thread has returned or waits. -/
theorem step_self (hd : c.Disciplined part) :
    ((c.Finished t ∨ c.Waits t) ∧ c.step t = c) ∨
      Code.Next (c.held t) (c.code t) c.shared
        ((c.step t).held t) ((c.step t).code t) (c.step t).shared := by
  have hdt := hd t
  unfold step
  cases hcode : c.code t with
  | ret a => exact .inl ⟨.inl ⟨a, hcode⟩, rfl⟩
  | access f next =>
    right
    dsimp only
    rw [Function.update_self]
    exact .access _ f next _
  | acquire l next =>
    dsimp only
    split_ifs with hfree
    · right
      have hl : l ∉ c.held t := by
        intro hl
        rw [show c.owner l = some t from hl] at hfree
        cases hfree
      rw [held_acquire hfree, if_pos rfl]
      dsimp only
      rw [Function.update_self]
      exact .acquire hl next _
    · exact .inl ⟨.inr ⟨l, next, hcode, hfree⟩, rfl⟩
  | release l next =>
    right
    rw [hcode] at hdt
    dsimp only
    rw [held_release hdt.1, if_pos rfl, Function.update_self]
    exact .release hdt.1 next _

/-- **What a step is to the other threads**: they keep their codes and their locks, and what their
locks protect. -/
theorem step_other (hd : c.Disciplined part) (ht : t' ≠ t) :
    (c.step t).code t' = c.code t' ∧ (c.step t).held t' = c.held t' ∧
      Agree part (c.held t') c.shared (c.step t).shared := by
  have hdt := hd t
  unfold step
  cases hcode : c.code t with
  | ret a => exact ⟨rfl, rfl, Agree.refl _⟩
  | access f next =>
    rw [hcode] at hdt
    refine ⟨Function.update_of_ne ht _ _, rfl, fun l hl => hdt.1 l ?_ _⟩
    -- no lock has two owners
    intro hlt
    exact ht (Option.some.inj ((show c.owner l = some t' from hl).symm.trans hlt))
  | acquire l next =>
    dsimp only
    split_ifs with hfree
    · exact ⟨Function.update_of_ne ht _ _, (held_acquire hfree _).trans (if_neg ht), Agree.refl _⟩
    · exact ⟨rfl, rfl, Agree.refl _⟩
  | release l next =>
    rw [hcode] at hdt
    exact ⟨Function.update_of_ne ht _ _, (held_release hdt.1 _).trans (if_neg ht), Agree.refl _⟩

/-- Disciplined threads stay disciplined. -/
theorem disciplined_step (hd : c.Disciplined part) (t : T) : (c.step t).Disciplined part := by
  intro t'
  rcases eq_or_ne t' t with rfl | ht
  · rcases step_self hd with ⟨-, hstay⟩ | hnext
    · rw [hstay]
      exact hd t'
    · exact hnext.obeys (hd t')
  · obtain ⟨hcode, hheld, -⟩ := step_other hd ht
    rw [hcode, hheld]
    exact hd t'

/-- **The rule of disciplined threads**: what holds of each thread stays so, if the thread keeps it
by its own steps, and it depends on nothing of the shared state but what the thread's locks
protect. -/
theorem forall_step {P : T → Set L → Code G L α → G → Prop} (hd : c.Disciplined part)
    (hstable : ∀ t held code g g', P t held code g → Agree part held g g' → P t held code g')
    (hnext : ∀ t held code g held' code' g',
      Code.Next held code g held' code' g' → P t held code g → P t held' code' g')
    (h : ∀ t, P t (c.held t) (c.code t) c.shared) (t t' : T) :
    P t' ((c.step t).held t') ((c.step t).code t') (c.step t).shared := by
  rcases eq_or_ne t' t with rfl | ht
  · rcases step_self hd with ⟨-, hstay⟩ | hself
    · rw [hstay]
      exact h t'
    · exact hnext t' _ _ _ _ _ _ hself (h t')
  · obtain ⟨hcode, hheld, hagree⟩ := step_other hd ht
    rw [hcode, hheld]
    exact hstable t' _ _ _ _ (h t') hagree

end Config

/-! ## Rules along runs -/

namespace Config

variable {c : Config G L T α} {rules : Rules G L} {returns : T → Set L → α → Prop}

/-- The threads keep to the rules with the locks that they hold, and return as given. -/
def Obeys (rules : Rules G L) (returns : T → Set L → α → Prop) (c : Config G L T α) : Prop :=
  ∀ t, (c.code t).Obeys rules (returns t) (c.held t)

/-- The locks alone protect nothing. -/
def unprotected : L → G → Unit := fun _ _ => ()

theorem disciplined_of_obeys (h : c.Obeys rules returns) :
    c.Disciplined (unprotected : L → G → Unit) :=
  fun t => (h t).mono (fun _ _ _ _ _ _ => rfl) (fun _ _ _ => trivial) (fun _ _ _ => trivial)

theorem obeys_start {code : T → Code G L α} (h : ∀ t, (code t).Obeys rules (returns t) ∅) (g : G) :
    (start g code).Obeys rules returns := by
  intro t
  have hnone : (start g code).held t = ∅ := by
    ext l
    simp [held, start]
  rw [hnone]
  exact h t

section Runs

variable [DecidableEq L] [DecidableEq T]

theorem obeys_step (h : c.Obeys rules returns) (t : T) : (c.step t).Obeys rules returns := by
  refine fun t' => forall_step (disciplined_of_obeys h)
    (P := fun t held code _ => code.Obeys rules (returns t) held) ?_ ?_ h t t'
  · exact fun _ _ _ _ _ hc _ => hc
  · exact fun _ _ _ _ _ _ _ hnext hc => hnext.obeys hc

theorem obeys_run (h : c.Obeys rules returns) (ts : List T) :
    (Machine.run step c ts).Obeys rules returns :=
  Machine.run_invariant (Obeys rules returns) (fun _ t hc => obeys_step hc t) h ts

/-- What a thread returns in a run is what its code returns. -/
theorem returned_of_obeys (h : c.Obeys rules returns) {ts : List T} {t : T} {a : α}
    (hret : (Machine.run step c ts).code t = .ret a) :
    returns t ((Machine.run step c ts).held t) a := by
  have ht := obeys_run h ts t
  rw [hret] at ht
  exact ht

/-- What every access that the rules allow does to the shared state, a run does. -/
theorem shared_run {R : G → G → Prop} (hrefl : ∀ g, R g g)
    (htrans : ∀ g g' g'', R g g' → R g' g'' → R g g'')
    (haccess : ∀ held f, rules.access held f → ∀ g, R g (f g)) (h : c.Obeys rules returns)
    (ts : List T) : R c.shared (Machine.run step c ts).shared := by
  induction ts generalizing c with
  | nil => exact hrefl _
  | cons t ts ih =>
    refine htrans _ _ _ ?_ (ih (obeys_step h t))
    rcases step_self (disciplined_of_obeys h) (t := t) with ⟨-, hstay⟩ | hnext
    · rw [hstay]
      exact hrefl _
    · exact hnext.shared hrefl haccess (h t)

end Runs

end Config

/-! ## Refinement -/

/-- **The code acts as another one** that takes no locks: whatever others do to what its locks do
not protect, each of its accesses leaves the abstract state alone, or acts on it as the next step
of the other code, and it returns what the other one does. -/
def Code.Refines (part : L → G → V) (abs : G → A) :
    Set L → Code G L β → Code A Empty β → G → Prop
  | _, ret b, spec, _ => spec = ret b
  | held, access f next, spec, g => ∀ g', Agree part held g g' →
    (abs (f g') = abs g' ∧ (next g').Refines part abs held spec (f g')) ∨
      ∃ op behind, spec = access op behind ∧ abs (f g') = op (abs g') ∧
        (next g').Refines part abs held (behind (abs g')) (f g')
  | held, acquire l next, spec, g => l ∉ held → ∀ g', Agree part held g g' →
    next.Refines part abs (insert l held) spec g'
  | held, release l next, spec, g => ∀ g', Agree part held g g' →
    next.Refines part abs (held \ {l}) spec g'

variable {abs : G → A}

/-- What a code refines does not depend on what its locks do not protect. -/
theorem Code.Refines.stable {spec : Code A Empty β} {held : Set L} {code : Code G L β} {g g' : G}
    (h : code.Refines part abs held spec g) (hagree : Agree part held g g') :
    code.Refines part abs held spec g' := by
  cases code with
  | ret b => exact h
  | access f next => exact fun g'' h'' => h g'' (hagree.trans h'')
  | acquire l next => exact fun hl g'' h'' => h hl g'' (hagree.trans h'')
  | release l next => exact fun g'' h'' => h g'' (hagree.trans h'')

/-- A step of a code leaves the abstract state, or is a step of what the code refines. -/
theorem Code.Next.refines {spec : Code A Empty β} {held held' : Set L} {code code' : Code G L β}
    {g g' : G} (hnext : Code.Next held code g held' code' g')
    (h : code.Refines part abs held spec g) :
    (abs g' = abs g ∧ code'.Refines part abs held' spec g') ∨
      ∃ op behind, spec = .access op behind ∧ abs g' = op (abs g) ∧
        code'.Refines part abs held' (behind (abs g)) g' := by
  cases hnext with
  | access f next g => exact h g (Agree.refl g)
  | acquire hl next g => exact .inl ⟨rfl, h hl g (Agree.refl g)⟩
  | release hl next g => exact .inl ⟨rfl, h g (Agree.refl g)⟩

section Refinement

variable [DecidableEq L] [DecidableEq T] {c : Config G L T β} {spec : Config A Empty T β}

/-- The threads act as those of another configuration: the states agree, and what is left of each
thread refines what is left of the other one. -/
structure Config.Refines (part : L → G → V) (abs : G → A) (c : Config G L T β)
    (spec : Config A Empty T β) : Prop where
  disciplined : c.Disciplined part
  state : abs c.shared = spec.shared
  code : ∀ t, (c.code t).Refines part abs (c.held t) (spec.code t) c.shared

theorem Config.refines_step (h : c.Refines part abs spec) (t : T) :
    (c.step t).Refines part abs spec ∨ (c.step t).Refines part abs (spec.step t) := by
  have hd := h.disciplined
  -- the other threads are where they were
  have hother : ∀ t' ≠ t, ((c.step t).code t').Refines part abs
      ((c.step t).held t') (spec.code t') (c.step t).shared := by
    intro t' ht
    obtain ⟨hcode, hheld, hagree⟩ := Config.step_other hd ht
    rw [hcode, hheld]
    exact (h.code t').stable hagree
  rcases Config.step_self hd with ⟨-, hstay⟩ | hnext
  · rw [hstay]
    exact .inl h
  · rcases hnext.refines (h.code t) with ⟨hstate, hcode⟩ | ⟨op, behind, hspec, hstate, hcode⟩
    · refine .inl ⟨Config.disciplined_step hd t, hstate.trans h.state, fun t' => ?_⟩
      rcases eq_or_ne t' t with rfl | ht
      · exact hcode
      · exact hother t' ht
    · rw [h.state] at hstate hcode
      have hstep : spec.step t = { spec with
          shared := op spec.shared
          code := Function.update spec.code t (behind spec.shared) } := by
        rw [Config.step, hspec]
      rw [hstep]
      refine .inr ⟨Config.disciplined_step hd t, hstate, fun t' => ?_⟩
      dsimp only
      rcases eq_or_ne t' t with rfl | ht
      · rw [Function.update_self]
        exact hcode
      · rw [Function.update_of_ne ht]
        exact hother t' ht

/-- **Refinement of interleavings**: where every thread acts as another one, what any schedule makes
of the threads is what a schedule that leaves out some of its steps makes of the others. -/
theorem Config.refines_run (h : c.Refines part abs spec) (ts : List T) :
    ∃ order, order.Sublist ts ∧
      (Machine.run Config.step c ts).Refines part abs (Machine.run Config.step spec order) := by
  induction ts generalizing c spec with
  | nil => exact ⟨[], List.nil_sublist [], h⟩
  | cons t ts ih =>
    rcases Config.refines_step h t with hstep | hstep
    · obtain ⟨order, hsub, hrun⟩ := ih hstep
      exact ⟨order, hsub.cons t, hrun⟩
    · obtain ⟨order, hsub, hrun⟩ := ih hstep
      exact ⟨t :: order, hsub.cons_cons t, hrun⟩

end Refinement

end Threads
