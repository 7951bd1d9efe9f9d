import Mathlib.Data.List.Basic
import TvServer.Foundations.Lines

/-!
# Buffers

A C buffer is an array of fixed size, and what is copied to a place in it leaves the rest as it
was. A buffer that is filled block by block holds the blocks one after the other, whatever it held
before.

## Main definitions

* `memcpy dst offset src`: the buffer with some elements copied to a place in it
* `memset dst value`: the buffer with all elements set
* `sprintf dst text`: the buffer with a C string printed to its start
* `padded size pad xs`: a list cut, or filled up, to a size

## Main results

* `toList_memcpy`: what is copied, in between what was there before and behind
* `toList_memcpy_memset`: what is copied to the start of a buffer that was cleared
* `cstr_sprintf`: a C string that fits is read back
* `toList_foldl_memcpy`: a buffer that is filled block by block
* `block_flatMap`: a block of such a buffer
-/

namespace Buffer

variable {α : Type*} {n : ℕ}

/-- Copy to a place in a buffer. In C it is not defined what comes of elements that do not fit;
here they are dropped. -/
def memcpy (dst : Vector α n) (offset : ℕ) (src : List α) : Vector α n :=
  Vector.ofFn fun i => if offset ≤ i.val then src[i.val - offset]?.getD dst[i] else dst[i]

/-- Set all elements of a buffer. -/
def memset (_ : Vector α n) (value : α) : Vector α n := Vector.replicate n value

/-- Print a C string, with its terminator, to the start of a buffer. -/
def sprintf (dst : Vector Char n) (text : List Char) : Vector Char n :=
  memcpy dst 0 (text ++ ['\x00'])

/-- A list, cut or filled up to a size. -/
def padded (size : ℕ) (pad : α) (xs : List α) : List α :=
  xs.take size ++ List.replicate (size - (xs.take size).length) pad

@[simp] theorem length_padded (size : ℕ) (pad : α) (xs : List α) :
    (padded size pad xs).length = size := by
  rw [padded, List.length_append, List.length_replicate]
  exact Nat.add_sub_cancel' (List.length_take_le size xs)

/-! ## One copy -/

theorem getElem_memcpy (dst : Vector α n) (offset : ℕ) (src : List α) {i : ℕ} (hi : i < n) :
    (memcpy dst offset src)[i] =
      if offset ≤ i then src[i - offset]?.getD dst[i] else dst[i] := Vector.getElem_ofFn hi

/-- What is in front of a place is as it was. -/
theorem take_memcpy (dst : Vector α n) (src : List α) {offset k : ℕ} (hk : k ≤ offset) :
    (memcpy dst offset src).toList.take k = dst.toList.take k := by
  apply List.ext_getElem
  · simp only [List.length_take, Vector.length_toList]
  · intro i hi _
    simp only [List.length_take, Vector.length_toList] at hi
    rw [List.getElem_take, List.getElem_take, Vector.getElem_toList, Vector.getElem_toList,
      getElem_memcpy dst offset src (by omega), if_neg (by omega)]

/-- **What is copied** to a place where it fits stands there, and the rest is as before. -/
theorem toList_memcpy {dst : Vector α n} {offset : ℕ} {src : List α}
    (hfits : offset + src.length ≤ n) : (memcpy dst offset src).toList =
      dst.toList.take offset ++ (src ++ dst.toList.drop (offset + src.length)) := by
  have htake : (dst.toList.take offset).length = offset := by
    rw [List.length_take, Vector.length_toList]
    omega
  apply List.ext_getElem
  · simp only [List.length_append, List.length_drop, Vector.length_toList, htake]
    omega
  · intro i hi _
    rw [Vector.length_toList] at hi
    rw [Vector.getElem_toList, getElem_memcpy dst offset src hi]
    split
    · rename_i hbehind
      rw [List.getElem_append_right (by omega)]
      simp only [htake]
      by_cases hsrc : i - offset < src.length
      · rw [List.getElem_append_left hsrc, List.getElem?_eq_getElem hsrc, Option.getD_some]
      · -- the source is exhausted, and the buffer keeps what it had
        rw [List.getElem_append_right (by omega), List.getElem?_eq_none (by omega),
          Option.getD_none, List.getElem_drop, Vector.getElem_toList]
        congr 1
        omega
    · rename_i hbefore
      rw [List.getElem_append_left (by omega), List.getElem_take, Vector.getElem_toList]

theorem toList_memcpy_zero {dst : Vector α n} {src : List α} (hfits : src.length ≤ n) :
    (memcpy dst 0 src).toList = src ++ dst.toList.drop src.length := by
  rw [toList_memcpy (by omega), List.take_zero, List.nil_append, Nat.zero_add]

/-- What is copied to the start of a buffer that was set to one value. -/
theorem toList_memcpy_memset (dst : Vector α n) (value : α) (src : List α) :
    (memcpy (memset dst value) 0 (src.take n)).toList = padded n value src := by
  rw [toList_memcpy_zero (List.length_take_le n src), memset, Vector.toList_replicate,
    List.drop_replicate, padded]

/-- **A C string** that fits is read back, whatever the buffer held before. -/
theorem cstr_sprintf {dst : Vector Char n} {text : List Char} (hnull : '\x00' ∉ text)
    (hfits : text.length < n) : Lines.cstr (sprintf dst text).toList = text := by
  have hroom : (text ++ ['\x00']).length ≤ n := by
    rw [List.length_append]
    exact hfits
  rw [sprintf, toList_memcpy_zero hroom, List.append_assoc]
  exact Lines.cstr_append_null hnull _

/-! ## Blocks -/

variable {size : ℕ} {f : ℕ → List α}

theorem length_flatMap_range (hf : ∀ k, (f k).length = size) (count : ℕ) :
    ((List.range count).flatMap f).length = count * size := by
  simp [List.length_flatMap, hf]

/-- **A buffer that is filled block by block** holds the blocks that were copied to it, and behind
them what it held before. -/
theorem toList_foldl_memcpy (hf : ∀ k, (f k).length = size) (dst : Vector α n) (count : ℕ)
    (hfits : count * size ≤ n) :
    ((List.range count).foldl (fun buf k => memcpy buf (k * size) (f k)) dst).toList =
      (List.range count).flatMap f ++ dst.toList.drop (count * size) := by
  induction count with
  | zero => simp
  | succ count ih =>
    have hroom : count * size + size ≤ n := by rwa [← Nat.succ_mul]
    have hlength := length_flatMap_range hf count
    -- the last block is copied right behind the others
    rw [List.range_succ, List.foldl_append, List.foldl_cons, List.foldl_nil,
      toList_memcpy (by rw [hf]; exact hroom), ih (by omega), hf, List.take_left' hlength,
      ← List.drop_drop, List.drop_left' hlength, List.drop_drop, List.flatMap_append,
      List.flatMap_singleton, List.append_assoc, Nat.succ_mul]

/-- **A block** of such a buffer. -/
theorem block_flatMap (hf : ∀ k, (f k).length = size) {count k : ℕ} (hk : k < count) :
    (((List.range count).flatMap f).drop (k * size)).take size = f k := by
  obtain ⟨m, rfl⟩ := Nat.exists_eq_add_of_lt hk
  have hlength := length_flatMap_range hf k
  -- the blocks before this one are dropped, and it is the first of the rest
  rw [Nat.add_assoc, List.range_add, List.flatMap_append, List.drop_left' hlength,
    List.range_succ_eq_map, List.map_cons, List.flatMap_cons, Nat.add_zero,
    List.take_left' (hf k)]

end Buffer
