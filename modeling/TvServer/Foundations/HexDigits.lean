import Mathlib.Data.List.Nodup

/-!
# Words of hexadecimal digits

A 32-bit word holds eight hexadecimal digits. Digits are packed into a word one after the other,
each shifted to its position and joined with the digits before; where the positions differ, each
of them is read back.

## Main definitions

* `digit w i`: the digit of a word at a position, the lowest one at position `0`
* `mask i`: the four bits of a position
* `pack pos value w is`: the word `w` with a digit packed for each index

## Main results

* `digit_pack`: packed digits are read back
* `pack_shiftRight`: digits at the four lowest positions leave the upper half of the word alone
* `pack_xor_and_not_mask`: where one value changes, only the bits of its position change
-/

namespace HexDigits

/-- The digit of a word at a position. -/
def digit (w i : UInt32) : UInt32 := (w >>> (4 * i)) &&& 0xf

theorem digit_zero (i : UInt32) : digit 0 i = 0 := by
  simp [digit]

theorem digit_or (v w i : UInt32) : digit (v ||| w) i = digit v i ||| digit w i := by
  rw [digit, UInt32.shiftRight_or]
  apply UInt32.toBitVec_inj.mp
  simp [digit, BitVec.and_or_distrib_right]

theorem digit_shiftLeft_fin : ∀ (d : Fin 16) (i j : Fin 8),
    digit (UInt32.ofNat d <<< (4 * UInt32.ofNat i)) (UInt32.ofNat j) =
      if i = j then UInt32.ofNat d else 0 := by
  decide +kernel

/-- A digit is found at the position it was shifted to, and nowhere else. -/
theorem digit_shiftLeft {d i j : UInt32} (hd : d < 16) (hi : i < 8) (hj : j < 8) :
    digit (d <<< (4 * i)) j = if i = j then d else 0 := by
  have h := digit_shiftLeft_fin ⟨d.toNat, hd⟩ ⟨i.toNat, hi⟩ ⟨j.toNat, hj⟩
  simpa [UInt32.toNat_inj] using h

/-! ## Masks -/

/-- The four bits of a position. -/
def mask (i : UInt32) : UInt32 := 0xf <<< (4 * i)

theorem and_of_lt {d : UInt32} (hd : d < 16) : d &&& 0xf = d := by
  apply UInt32.toNat_inj.mp
  have hlt : d.toNat < 2 ^ 4 := hd
  have hmod : d.toNat &&& (2 ^ 4 - 1) = d.toNat := by
    rw [Nat.and_two_pow_sub_one_eq_mod, Nat.mod_eq_of_lt hlt]
  exact hmod

theorem or_and_right (a b c : UInt32) : (a ||| b) &&& c = a &&& c ||| b &&& c := by
  apply UInt32.toBitVec_inj.mp
  simp [BitVec.and_or_distrib_right]

theorem xor_and_right (a b c : UInt32) : (a ^^^ b) &&& c = (a &&& c) ^^^ (b &&& c) := by
  apply UInt32.toBitVec_inj.mp
  ext i
  simp [Bool.and_xor_distrib_right]

/-- A digit has no bits outside its position. -/
theorem shiftLeft_and_not_mask {d : UInt32} (hd : d < 16) (i : UInt32) :
    d <<< (4 * i) &&& ~~~ mask i = 0 := by
  rw [← and_of_lt hd, UInt32.shiftLeft_and, mask, UInt32.and_assoc, UInt32.and_not_self,
    UInt32.and_zero]

/-! ## Packed words -/

section Pack

variable {ι : Type*} (pos value : ι → UInt32)

/-- A word with a digit packed for each index. -/
def pack (w : UInt32) (is : List ι) : UInt32 :=
  is.foldl (fun w i => w ||| value i <<< (4 * pos i)) w

variable {pos value} {is : List ι} {w : UInt32}

theorem digit_pack_of_forall_ne {j : UInt32} (hj : j < 8) (hpos : ∀ i ∈ is, pos i < 8)
    (hvalue : ∀ i ∈ is, value i < 16) (hne : ∀ i ∈ is, pos i ≠ j) :
    digit (pack pos value w is) j = digit w j := by
  induction is generalizing w with
  | nil => rfl
  | cons i is ih =>
    rw [List.forall_mem_cons] at hpos hvalue hne
    have hstep : pack pos value w (i :: is) =
        pack pos value (w ||| value i <<< (4 * pos i)) is := rfl
    rw [hstep, ih hpos.2 hvalue.2 hne.2, digit_or, digit_shiftLeft hvalue.1 hpos.1 hj,
      if_neg hne.1, UInt32.or_zero]

/-- **Packed digits are read back.** -/
theorem digit_pack (hpos : ∀ i ∈ is, pos i < 8) (hvalue : ∀ i ∈ is, value i < 16)
    (hnd : (is.map pos).Nodup) {i : ι} (hi : i ∈ is) (hw : digit w (pos i) = 0) :
    digit (pack pos value w is) (pos i) = value i := by
  induction is generalizing w with
  | nil => cases hi
  | cons k is ih =>
    rw [List.forall_mem_cons] at hpos hvalue
    rw [List.map_cons, List.nodup_cons] at hnd
    have hstep : pack pos value w (k :: is) =
        pack pos value (w ||| value k <<< (4 * pos k)) is := rfl
    rw [hstep]
    rcases List.mem_cons.mp hi with rfl | hmem
    · -- packed here, and left alone by the digits packed later
      have hne : ∀ k ∈ is, pos k ≠ pos i := fun k hk he =>
        hnd.1 (he ▸ List.mem_map_of_mem hk)
      rw [digit_pack_of_forall_ne hpos.1 hpos.2 hvalue.2 hne, digit_or, hw,
        digit_shiftLeft hvalue.1 hpos.1 hpos.1, if_pos rfl, UInt32.zero_or]
    · -- packed later: the digit at this position is still free
      have hne : pos k ≠ pos i := fun he => hnd.1 (he ▸ List.mem_map_of_mem hmem)
      apply ih hpos.2 hvalue.2 hnd.2 hmem
      rw [digit_or, hw, digit_shiftLeft hvalue.1 hpos.1 (hpos.2 i hmem), if_neg hne,
        UInt32.zero_or]

theorem shiftLeft_shiftRight_fin : ∀ (d : Fin 16) (i : Fin 4),
    (UInt32.ofNat d <<< (4 * UInt32.ofNat i)) >>> 16 = 0 := by
  decide +kernel

/-- Digits at the four lowest positions leave the upper half of the word alone. -/
theorem pack_shiftRight (hpos : ∀ i ∈ is, pos i < 4) (hvalue : ∀ i ∈ is, value i < 16) :
    pack pos value w is >>> 16 = w >>> 16 := by
  induction is generalizing w with
  | nil => rfl
  | cons i is ih =>
    rw [List.forall_mem_cons] at hpos hvalue
    have hstep : pack pos value w (i :: is) =
        pack pos value (w ||| value i <<< (4 * pos i)) is := rfl
    have hlow : (value i <<< (4 * pos i)) >>> 16 = 0 := by
      simpa using shiftLeft_shiftRight_fin ⟨(value i).toNat, hvalue.1⟩ ⟨(pos i).toNat, hpos.1⟩
    rw [hstep, ih hpos.2 hvalue.2, UInt32.shiftRight_or, hlow, UInt32.or_zero]

/-- **Words that differ in one value** differ only at the position of its digit. -/
theorem pack_xor_and_not_mask {value' : ι → UInt32} {i : ι} (hvalue : value i < 16)
    (hvalue' : value' i < 16) (hsame : ∀ j ∈ is, j ≠ i → value' j = value j) :
    (pack pos value' w is ^^^ pack pos value w is) &&& ~~~ mask (pos i) = 0 := by
  have hpack : ∀ w w' : UInt32, w' &&& ~~~ mask (pos i) = w &&& ~~~ mask (pos i) →
      pack pos value' w' is &&& ~~~ mask (pos i) = pack pos value w is &&& ~~~ mask (pos i) := by
    induction is with
    | nil => exact fun _ _ hw => hw
    | cons j is ih =>
      intro w w' hw
      rw [List.forall_mem_cons] at hsame
      refine ih hsame.2 (w ||| value j <<< (4 * pos j)) (w' ||| value' j <<< (4 * pos j)) ?_
      rw [or_and_right, or_and_right, hw]
      by_cases hj : j = i
      · -- the digits that differ are outside the mask
        rw [hj, shiftLeft_and_not_mask hvalue, shiftLeft_and_not_mask hvalue']
      · rw [hsame.1 hj]
  rw [xor_and_right, hpack w w rfl, UInt32.xor_self]

end Pack

end HexDigits
