import TvServer.Foundations.Journal

/-!
# Ledgers

Handles are acquired and released, and the ledger of a client is the journal of what it acquired
and tried to release. A handle is held from its acquisition to a release that succeeds. A client
that keeps one handle at a time, and gives it back once, has a balanced ledger.

## Main definitions

* `Entry`: an acquisition, or a try to release
* `acquired journal`, `done journal`: the handles that were acquired, and those that were released
* `held journal`: the handles that were acquired and not released since
* `Balanced journal`: no handle is released after it was released, and at most one is held
* `Allows before entry`: the entries that keep a ledger balanced

## Main results

* `balanced_snoc`: what one more entry makes of the balance
* `held_released_eq_nil_iff`: when nothing is held behind a try to release
-/

namespace Ledger

/-- An acquisition of a handle, or a try to release one. -/
inductive Entry (H : Type*) where
  | acquired (h : H)
  | released (h : H) (succeeds : Bool)
deriving DecidableEq

variable {H : Type*} [DecidableEq H]

/-- The handles that are held after an entry. -/
def hold (held : List H) : Entry H → List H
  | .acquired h => held ++ [h]
  | .released h succeeds => if succeeds then held.filter (· ≠ h) else held

/-- The handles that were acquired and not released since. -/
def held (journal : List (Entry H)) : List H := journal.foldl hold []

/-- The handles that were acquired. -/
def acquired (journal : List (Entry H)) : List H :=
  journal.filterMap fun
    | .acquired h => some h
    | .released _ _ => none

/-- The handles that were released. -/
def done (journal : List (Entry H)) : List H :=
  journal.filterMap fun
    | .acquired _ => none
    | .released h succeeds => if succeeds then some h else none

variable {journal : List (Entry H)} {entry : Entry H}

theorem held_snoc : held (journal ++ [entry]) = hold (held journal) entry := by
  rw [held, List.foldl_append]
  rfl

/-- No handle is released after it was released, and at most one is held at any time. -/
structure Balanced (journal : List (Entry H)) : Prop where
  once : ∀ pre h succeeds, pre ++ [.released h succeeds] <+: journal → h ∉ done pre
  single : ∀ pre, pre <+: journal → (held pre).length ≤ 1

/-- The entries that keep a ledger balanced: an acquisition where nothing is held, and a try to
release what was not released. -/
def Allows (journal : List (Entry H)) : Entry H → Prop
  | .acquired _ => held journal = []
  | .released h _ => h ∉ done journal

theorem balanced_nil : Balanced ([] : List (Entry H)) := by
  constructor
  · intro pre h succeeds hpre
    exact absurd (List.prefix_nil.mp hpre) (by simp)
  · intro pre hpre
    rw [List.prefix_nil.mp hpre]
    exact Nat.zero_le _

/-- **One more entry** keeps a ledger balanced exactly if it is allowed. -/
theorem balanced_snoc :
    Balanced (journal ++ [entry]) ↔ Balanced journal ∧ Allows journal entry := by
  constructor
  · intro h
    have hpre : ∀ {pre}, pre <+: journal → pre <+: journal ++ [entry] :=
      fun hpre => hpre.trans (List.prefix_append _ _)
    refine ⟨⟨fun pre h' succeeds hp => h.once pre h' succeeds (hpre hp),
      fun pre hp => h.single pre (hpre hp)⟩, ?_⟩
    cases entry with
    | acquired handle =>
      have hlen := h.single _ (List.prefix_refl _)
      rw [held_snoc, hold, List.length_append, List.length_singleton] at hlen
      exact List.eq_nil_of_length_eq_zero (by omega)
    | released handle succeeds => exact h.once _ _ _ (List.prefix_refl _)
  · rintro ⟨h, hallows⟩
    constructor
    · intro pre handle succeeds hpre
      rcases List.prefix_concat_iff.mp hpre with heq | hpre
      · obtain ⟨rfl, rfl⟩ := List.append_singleton_inj.mp heq
        exact hallows
      · exact h.once pre handle succeeds hpre
    · intro pre hpre
      rcases List.prefix_concat_iff.mp hpre with rfl | hpre
      · rw [held_snoc]
        cases entry with
        | acquired handle =>
          have hnone : held journal = [] := hallows
          rw [hnone]
          exact Nat.le_refl 1
        | released handle succeeds =>
          have hlen := h.single journal (List.prefix_refl _)
          rw [hold]
          split
          · exact Nat.le_trans (List.length_filter_le _ _) hlen
          · exact hlen
      · exact h.single pre hpre

/-- Behind a try to release, nothing is held but the handle that was released, if this
succeeded. -/
theorem held_released_eq_nil_iff {h : H} {succeeds : Bool} :
    held (journal ++ [.released h succeeds]) = [] ↔
      ∀ k ∈ held journal, succeeds = true ∧ k = h := by
  rw [held_snoc, hold]
  cases succeeds with
  | true => simp [List.filter_eq_nil_iff]
  | false => simp [List.eq_nil_iff_forall_not_mem]

end Ledger
