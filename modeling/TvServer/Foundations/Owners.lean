import Mathlib.Logic.Function.Basic
import TvServer.Foundations.Ledger

/-!
# Owners of handles

Several clients acquire and release handles of one kind, and a handle that was released may be given
out again, to any of them. If each client takes a handle only where it has none, and gives back only
the one it has, then what is held is what the clients have, no two of them have the same handle, and
none releases what is not held: a handle is never taken away from another client.

## Main definitions

* `Owners`: the handles that the clients have, with the ledger of them all
* `Move`, `Owners.move`: a client takes a handle, gives it back, or borrows one for a moment
* `Granted journal`: no handle is given out while it is held
* `Sound`: what is held is what the clients have
* `Reaches`: what a system does by legal moves
* `Handles`: what an operation of one client opens and closes

## Main results

* `sound_move`: what a move keeps
* `Reaches.sound`: what legal moves keep
* `Handles.reaches`: an operation of one client consists of legal moves
-/

namespace Ledger

variable {I H : Type*} [DecidableEq I] [DecidableEq H]

/-- The handles that the clients have, with the ledger of them all. -/
structure Owners (I H : Type*) where
  owner : I → Option H
  journal : List (Entry H)

/-- A client takes a handle, gives back the one that it has, or borrows one for a moment. -/
inductive Move (I H : Type*) where
  | take (i : I) (h : H)
  | give (i : I)
  | borrow (h : H)

namespace Owners

/-- No client has a handle. -/
def start : Owners I H := ⟨fun _ => none, []⟩

def move (s : Owners I H) : Move I H → Owners I H
  | .take i h => ⟨Function.update s.owner i (some h), s.journal ++ [.acquired h]⟩
  | .give i =>
    match s.owner i with
    | some h => ⟨Function.update s.owner i none, s.journal ++ [.released h true]⟩
    | none => s
  | .borrow h => ⟨s.owner, s.journal ++ [.acquired h] ++ [.released h true]⟩

/-- A client takes a handle where it has none. -/
def Legal (s : Owners I H) : Move I H → Prop
  | .take i _ => s.owner i = none
  | _ => True

end Owners

/-- No handle is given out while it is held. -/
def Granted (journal : List (Entry H)) : Prop :=
  ∀ pre h, pre ++ [.acquired h] <+: journal → h ∉ held pre

variable {journal : List (Entry H)}

theorem Granted.of_prefix {journal' : List (Entry H)} (h : Granted journal')
    (hpre : journal <+: journal') : Granted journal :=
  fun pre handle hacquired => h pre handle (hacquired.trans hpre)

omit [DecidableEq H] in
theorem eq_or_prefix_snoc {pre : List (Entry H)} {last entry : Entry H}
    (h : pre ++ [last] <+: journal ++ [entry]) :
    (pre = journal ∧ last = entry) ∨ pre ++ [last] <+: journal := by
  rcases List.prefix_concat_iff.mp h with heq | h
  · exact .inl (List.append_singleton_inj.mp heq)
  · exact .inr h

theorem granted_nil : Granted ([] : List (Entry H)) := by
  intro pre h hpre
  exact absurd (List.prefix_nil.mp hpre) (by simp)

theorem Granted.acquire (hj : Granted journal) {h : H} (hfree : h ∉ held journal) :
    Granted (journal ++ [.acquired h]) := by
  intro pre h' hpre
  rcases eq_or_prefix_snoc hpre with ⟨rfl, hentry⟩ | hpre
  · cases hentry
    exact hfree
  · exact hj pre h' hpre

theorem Granted.release (hj : Granted journal) (h : H) (succeeds : Bool) :
    Granted (journal ++ [.released h succeeds]) := by
  intro pre h' hpre
  rcases eq_or_prefix_snoc hpre with ⟨-, hentry⟩ | hpre
  · cases hentry
  · exact hj pre h' hpre

/-- No handle is released that is not held. -/
def ReleasesHeld (journal : List (Entry H)) : Prop :=
  ∀ pre h succeeds, pre ++ [.released h succeeds] <+: journal → h ∈ held pre

theorem releasesHeld_acquired {h : H} (hj : ReleasesHeld journal) :
    ReleasesHeld (journal ++ [.acquired h]) := by
  intro pre h' succeeds hpre
  rcases eq_or_prefix_snoc hpre with ⟨-, hentry⟩ | hpre
  · cases hentry
  · exact hj pre h' succeeds hpre

theorem releasesHeld_released {h : H} {succeeds : Bool} (hj : ReleasesHeld journal)
    (hheld : h ∈ held journal) : ReleasesHeld (journal ++ [.released h succeeds]) := by
  intro pre h' succeeds' hpre
  rcases eq_or_prefix_snoc hpre with ⟨rfl, hentry⟩ | hpre
  · cases hentry
    exact hheld
  · exact hj pre h' succeeds' hpre

theorem mem_held_acquired {h k : H} :
    k ∈ held (journal ++ [.acquired h]) ↔ k ∈ held journal ∨ k = h := by
  rw [held_snoc, hold, List.mem_append, List.mem_singleton]

theorem mem_held_released {h k : H} :
    k ∈ held (journal ++ [.released h true]) ↔ k ∈ held journal ∧ k ≠ h := by
  rw [held_snoc, hold, if_pos rfl, List.mem_filter, decide_eq_true_iff]

/-- What is held is what the clients have, each handle by one of them, and no handle was released
that was not held. -/
structure Sound (s : Owners I H) : Prop where
  held_iff : ∀ h, h ∈ held s.journal ↔ ∃ i, s.owner i = some h
  distinct : ∀ i j h, s.owner i = some h → s.owner j = some h → i = j
  releases : ReleasesHeld s.journal

omit [DecidableEq I] in
theorem sound_start : Sound (Owners.start : Owners I H) := by
  refine ⟨fun h => ?_, fun i j h hi => ?_, fun pre h succeeds hpre => ?_⟩
  · exact iff_of_false List.not_mem_nil (by rintro ⟨i, ⟨⟩⟩)
  · cases hi
  · exact absurd (List.prefix_nil.mp hpre) (by simp)

section

variable {s : Owners I H}

/-- A handle that is given out goes to one client. -/
theorem sound_take (h : Sound s) {i : I} {handle : H} (hnone : s.owner i = none)
    (hfree : handle ∉ held s.journal) : Sound (s.move (.take i handle)) := by
  have howner (j : I) : (s.move (.take i handle)).owner j =
      if j = i then some handle else s.owner j := Function.update_apply _ _ _ _
  have hother {j : I} (hj : s.owner j = some handle) : False :=
    hfree ((h.held_iff handle).mpr ⟨j, hj⟩)
  refine ⟨fun k => ?_, fun j j' k hj hj' => ?_, releasesHeld_acquired h.releases⟩
  · show k ∈ held (s.journal ++ [.acquired handle]) ↔ _
    rw [mem_held_acquired, h.held_iff]
    constructor
    · rintro (⟨j, hj⟩ | rfl)
      · refine ⟨j, ?_⟩
        rw [howner, if_neg, hj]
        rintro rfl
        cases hnone.symm.trans hj
      · exact ⟨i, by rw [howner, if_pos rfl]⟩
    · rintro ⟨j, hj⟩
      rw [howner] at hj
      split at hj
      · exact .inr (Option.some.inj hj).symm
      · exact .inl ⟨j, hj⟩
  · rw [howner] at hj hj'
    split at hj
    · rename_i hi
      split at hj'
      · rename_i hi'
        exact hi.trans hi'.symm
      · rw [← Option.some.inj hj] at hj'
        exact (hother hj').elim
    · split at hj'
      · rw [← Option.some.inj hj'] at hj
        exact (hother hj).elim
      · exact h.distinct j j' k hj hj'

omit [DecidableEq H] in
theorem move_give {i : I} {handle : H} (hi : s.owner i = some handle) : s.move (.give i) =
    ⟨Function.update s.owner i none, s.journal ++ [.released handle true]⟩ := by
  rw [Owners.move, hi]

/-- A handle that is given back was held by its client alone. -/
theorem sound_give (h : Sound s) (i : I) : Sound (s.move (.give i)) := by
  cases hi : s.owner i with
  | none =>
    rw [Owners.move, hi]
    exact h
  | some handle =>
    have hmove := move_give hi
    have howner (j : I) : (s.move (.give i)).owner j = if j = i then none else s.owner j := by
      rw [hmove]
      exact Function.update_apply _ _ _ _
    have hheld : handle ∈ held s.journal := (h.held_iff handle).mpr ⟨i, hi⟩
    refine ⟨fun k => ?_, fun j j' k hj hj' => ?_, ?_⟩
    · rw [hmove, mem_held_released, h.held_iff, ← hmove]
      constructor
      · rintro ⟨⟨j, hj⟩, hne⟩
        refine ⟨j, ?_⟩
        rw [howner, if_neg, hj]
        rintro rfl
        exact hne (Option.some.inj (hj.symm.trans hi))
      · rintro ⟨j, hj⟩
        rw [howner] at hj
        split at hj
        · cases hj
        · rename_i hne
          refine ⟨⟨j, hj⟩, ?_⟩
          rintro rfl
          exact hne (h.distinct j i k hj hi)
    · rw [howner] at hj hj'
      split at hj
      · cases hj
      · split at hj'
        · cases hj'
        · exact h.distinct j j' k hj hj'
    · rw [hmove]
      exact releasesHeld_released h.releases hheld

/-- A handle that is borrowed is held by nobody before and behind. -/
theorem sound_borrow (h : Sound s) {handle : H} (hfree : handle ∉ held s.journal) :
    Sound (s.move (.borrow handle)) := by
  refine ⟨fun k => ?_, h.distinct, ?_⟩
  · show k ∈ held (s.journal ++ [.acquired handle] ++ [.released handle true]) ↔
      ∃ i, s.owner i = some k
    rw [mem_held_released, mem_held_acquired, ← h.held_iff]
    constructor
    · rintro ⟨hk | rfl, hne⟩
      · exact hk
      · exact absurd rfl hne
    · intro hk
      refine ⟨.inl hk, ?_⟩
      rintro rfl
      exact hfree hk
  · apply releasesHeld_released (releasesHeld_acquired h.releases)
    exact mem_held_acquired.mpr (.inr rfl)

/-- **What a move keeps.** -/
theorem sound_move (h : Sound s) {m : Move I H} (hlegal : s.Legal m)
    (hgranted : Granted (s.move m).journal) : Sound (s.move m) := by
  cases m with
  | take i handle => exact sound_take h hlegal (hgranted _ _ (List.prefix_refl _))
  | give i => exact sound_give h i
  | borrow handle => exact sound_borrow h (hgranted _ _ (List.prefix_append _ _))

omit [DecidableEq H] in
theorem journal_prefix_move (m : Move I H) : s.journal <+: (s.move m).journal := by
  cases m with
  | take i handle => exact List.prefix_append _ _
  | give i =>
    rw [Owners.move]
    split
    · exact List.prefix_append _ _
    · exact List.prefix_refl _
  | borrow handle =>
    show s.journal <+: s.journal ++ [.acquired handle] ++ [.released handle true]
    rw [List.append_assoc]
    exact List.prefix_append _ _

/-! ## Legal moves -/

/-- There are legal moves from one state to the other. -/
inductive Reaches (s : Owners I H) : Owners I H → Prop where
  | refl : Reaches s s
  | move {s' : Owners I H} (m : Move I H) : Reaches s s' → s'.Legal m → Reaches s (s'.move m)

namespace Reaches

variable {s' s'' : Owners I H}

omit [DecidableEq H] in
theorem trans (h : Reaches s s') (h' : Reaches s' s'') : Reaches s s'' := by
  induction h' with
  | refl => exact h
  | move m _ hlegal ih => exact ih.move m hlegal

/-- **What legal moves keep.** -/
theorem sound (h : Reaches s s') (hs : Sound s) (hgranted : Granted s'.journal) : Sound s' := by
  induction h with
  | refl => exact hs
  | move m _ hlegal ih =>
    exact sound_move (ih (hgranted.of_prefix (journal_prefix_move m))) hlegal hgranted

end Reaches

/-- An operation of one client, from the handle that it has before to the one behind: what is
acquired and released in between. -/
inductive Handles : Option H → Option H → List (Entry H) → Prop where
  | keep (before : Option H) : Handles before before []
  | acquire (h : H) : Handles none (some h) [.acquired h]
  | release (h : H) : Handles (some h) none [.released h true]
  | borrow {before after : Option H} {entries : List (Entry H)} (h : H) :
    Handles before after entries →
      Handles before after (entries ++ [.acquired h, .released h true])

omit [DecidableEq H] in
/-- An operation of one client consists of legal moves. -/
theorem Handles.reaches {i : I} {before after : Option H} {entries : List (Entry H)}
    (h : Handles before after entries) (hi : s.owner i = before) :
    Reaches s ⟨Function.update s.owner i after, s.journal ++ entries⟩ := by
  induction h with
  | keep before =>
    rw [← hi, Function.update_eq_self, List.append_nil]
    exact .refl
  | acquire handle => exact Reaches.refl.move (.take i handle) hi
  | release handle =>
    rw [← move_give hi]
    exact Reaches.refl.move (.give i) trivial
  | borrow handle _ ih =>
    have hmove := (ih hi).move (.borrow handle) trivial
    rwa [Owners.move, List.append_assoc, List.append_assoc] at hmove

end

end Ledger
