import Mathlib.Data.Nat.Notation
import Mathlib.Logic.Basic

/-!
# Updates of words by masks

Settings are kept as bits of a word, and are changed by clearing some bits and setting others. Such
updates are closed under composition, so that a sequence of them is one. An update knows the bits
that it clears or sets, whatever they were before, and keeps all other ones.

## Main definitions

* `Update`: the bits that are cleared, and those that are set then
* `Update.known`: the bits that the update decides
* `Update.comp`: one update behind the other

## Main results

* `apply_comp`: a composition does what its parts do
* `apply_and`: the bits that an update knows
* `apply_eq_apply_iff`: the bits that it keeps
-/

namespace Masks

/-- An update of words: bits to clear, and then bits to set. -/
structure Update (w : ℕ) where
  clear : BitVec w
  set : BitVec w

namespace Update

variable {w : ℕ}

def apply (u : Update w) (x : BitVec w) : BitVec w := x &&& ~~~ u.clear ||| u.set

/-- The bits that are decided by an update. -/
def known (u : Update w) : BitVec w := u.clear ||| u.set

/-- The update that leaves a word as it is. -/
def keep : Update w := ⟨0, 0⟩

/-- The update that clears some bits. -/
def clearing (m : BitVec w) : Update w := ⟨m, 0⟩

/-- The update that sets some bits. -/
def setting (m : BitVec w) : Update w := ⟨0, m⟩

/-- One update, and then another one. -/
def comp (u v : Update w) : Update w := ⟨u.clear ||| v.clear, u.set &&& ~~~ v.clear ||| v.set⟩

theorem apply_keep (x : BitVec w) : keep.apply x = x := by
  ext i
  simp [apply, keep]

theorem apply_clearing (m x : BitVec w) : (clearing m).apply x = x &&& ~~~ m := by
  simp [apply, clearing]

theorem apply_setting (m x : BitVec w) : (setting m).apply x = x ||| m := by
  ext i
  simp [apply, setting]

/-- **A composition** does what its parts do, one after the other. -/
theorem apply_comp (u v : Update w) (x : BitVec w) :
    (u.comp v).apply x = v.apply (u.apply x) := by
  ext i hi
  simp only [apply, comp, BitVec.getElem_or, BitVec.getElem_and, BitVec.getElem_not]
  cases x[i] <;> cases u.clear[i] <;> cases v.clear[i] <;> cases u.set[i] <;> rfl

/-- An update that is made twice. -/
theorem apply_apply (u : Update w) (x : BitVec w) : u.apply (u.apply x) = u.apply x := by
  ext i hi
  simp only [apply, BitVec.getElem_or, BitVec.getElem_and, BitVec.getElem_not]
  cases x[i] <;> cases u.clear[i] <;> cases u.set[i] <;> rfl

/-- **Known bits** are those that the update sets. -/
theorem apply_and {u : Update w} {m : BitVec w} (hm : m &&& u.known = m) (x : BitVec w) :
    u.apply x &&& m = u.set &&& m := by
  ext i hi
  have hbit := congrArg (·[i]) hm
  simp only [known, BitVec.getElem_or, BitVec.getElem_and] at hbit
  simp only [apply, BitVec.getElem_or, BitVec.getElem_and, BitVec.getElem_not]
  revert hbit
  cases x[i] <;> cases u.clear[i] <;> cases u.set[i] <;> cases m[i] <;> simp

/-- **Kept bits**: two words are updated to the same one exactly if they agree on the bits that are
not known. -/
theorem apply_eq_apply_iff (u : Update w) (x y : BitVec w) :
    u.apply x = u.apply y ↔ x &&& ~~~ u.known = y &&& ~~~ u.known := by
  simp only [BitVec.eq_of_getElem_eq_iff, apply, known, BitVec.getElem_or, BitVec.getElem_and,
    BitVec.getElem_not]
  refine forall₂_congr fun i hi => ?_
  cases x[i] <;> cases y[i] <;> cases u.clear[i] <;> cases u.set[i] <;> simp

end Update

end Masks
