import Mathlib.Algebra.Ring.Nat
import TvServer.Foundations.Buffer

/-!
# Words in buffers

A buffer whose bytes are those of 32-bit words, the lowest byte of each word first, is the same as
the vector of the words. A buffer is not written by a read that fails, and by one that delivers
too few bytes only at its start.

## Main definitions

* `byte w j`: a byte of a word
* `words buf`, `ofWords ws`: the words of a buffer, and the buffer of some words
* `received buf bytes`: the buffer behind a read

## Main results

* `words_eq_iff`: a buffer has some words exactly if it is the buffer of these
-/

namespace Buffer

/-! ## Words and bytes -/

/-- A byte of a word, the lowest one at 0. -/
def byte (w : UInt32) (j : ℕ) : UInt8 := UInt8.ofNat (w.toNat / 256 ^ j)

/-- The word of four bytes, the lowest one first. -/
def word (b₀ b₁ b₂ b₃ : UInt8) : UInt32 :=
  UInt32.ofNat (b₀.toNat + 256 * b₁.toNat + 256 ^ 2 * b₂.toNat + 256 ^ 3 * b₃.toNat)

theorem word_byte (w : UInt32) : word (byte w 0) (byte w 1) (byte w 2) (byte w 3) = w := by
  have hw : w.toNat < 4294967296 := w.toNat_lt
  apply UInt32.toNat_inj.mp
  simp only [word, byte, UInt32.toNat_ofNat', UInt8.toNat_ofNat']
  omega

theorem toNat_word (b₀ b₁ b₂ b₃ : UInt8) : (word b₀ b₁ b₂ b₃).toNat =
    b₀.toNat + 256 * b₁.toNat + 256 ^ 2 * b₂.toNat + 256 ^ 3 * b₃.toNat := by
  have h₀ : b₀.toNat < 256 := b₀.toNat_lt
  have h₁ : b₁.toNat < 256 := b₁.toNat_lt
  have h₂ : b₂.toNat < 256 := b₂.toNat_lt
  have h₃ : b₃.toNat < 256 := b₃.toNat_lt
  rw [word, UInt32.toNat_ofNat']
  omega

/-- The bytes of a word are those it was made of. -/
theorem byte_word (b₀ b₁ b₂ b₃ : UInt8) : byte (word b₀ b₁ b₂ b₃) 0 = b₀ ∧
    byte (word b₀ b₁ b₂ b₃) 1 = b₁ ∧ byte (word b₀ b₁ b₂ b₃) 2 = b₂ ∧
      byte (word b₀ b₁ b₂ b₃) 3 = b₃ := by
  have h₀ : b₀.toNat < 256 := b₀.toNat_lt
  have h₁ : b₁.toNat < 256 := b₁.toNat_lt
  have h₂ : b₂.toNat < 256 := b₂.toNat_lt
  have h₃ : b₃.toNat < 256 := b₃.toNat_lt
  simp only [byte, toNat_word, ← UInt8.toNat_inj, UInt8.toNat_ofNat']
  omega

/-! ## Buffers of words -/

variable {m : ℕ}

/-- The words of a buffer. -/
def words (buf : Vector UInt8 (4 * m)) : Vector UInt32 m :=
  Vector.ofFn fun k => word buf[4 * k.val] buf[4 * k.val + 1] buf[4 * k.val + 2] buf[4 * k.val + 3]

/-- The buffer of some words. -/
def ofWords (ws : Vector UInt32 m) : Vector UInt8 (4 * m) :=
  Vector.ofFn fun i => byte ws[i.val / 4] (i.val % 4)

theorem getElem_words (buf : Vector UInt8 (4 * m)) {k : ℕ} (hk : k < m) :
    (words buf)[k] = word buf[4 * k] buf[4 * k + 1] buf[4 * k + 2] buf[4 * k + 3] :=
  Vector.getElem_ofFn hk

theorem getElem_ofWords (ws : Vector UInt32 m) {k j : ℕ} (hk : k < m) (hj : j < 4)
    (hi : 4 * k + j < 4 * m) : (ofWords ws)[4 * k + j] = byte ws[k] j := by
  have hdiv : (4 * k + j) / 4 = k := by omega
  have hmod : (4 * k + j) % 4 = j := by omega
  rw [ofWords, Vector.getElem_ofFn]
  simp only [hdiv, hmod]

theorem words_ofWords (ws : Vector UInt32 m) : words (ofWords ws) = ws := by
  refine Vector.ext fun k hk => ?_
  have h₀ : (ofWords ws)[4 * k] = byte ws[k] 0 :=
    getElem_ofWords ws (j := 0) hk (by omega) (by omega)
  rw [getElem_words _ hk, h₀, getElem_ofWords ws hk (by omega), getElem_ofWords ws hk (by omega),
    getElem_ofWords ws hk (by omega), word_byte]

theorem ofWords_words (buf : Vector UInt8 (4 * m)) : ofWords (words buf) = buf := by
  refine Vector.ext fun i hi => ?_
  -- the index is that of a byte in one of the words
  obtain ⟨k, j, hj, rfl⟩ : ∃ k j, j < 4 ∧ i = 4 * k + j :=
    ⟨i / 4, i % 4, Nat.mod_lt i (by omega), (Nat.div_add_mod i 4).symm⟩
  have hk : k < m := by omega
  rw [getElem_ofWords _ hk hj, getElem_words _ hk]
  obtain ⟨h₀, h₁, h₂, h₃⟩ := byte_word buf[4 * k] buf[4 * k + 1] buf[4 * k + 2] buf[4 * k + 3]
  obtain rfl | rfl | rfl | rfl : j = 0 ∨ j = 1 ∨ j = 2 ∨ j = 3 := by omega
  · exact h₀
  · exact h₁
  · exact h₂
  · exact h₃

/-- **A buffer has some words** exactly if it is the buffer of these. -/
theorem words_eq_iff {buf : Vector UInt8 (4 * m)} {ws : Vector UInt32 m} :
    words buf = ws ↔ buf = ofWords ws := by
  constructor
  · rintro rfl
    exact (ofWords_words buf).symm
  · rintro rfl
    exact words_ofWords ws

/-! ## Reads -/

/-- The buffer behind a read, which delivers some bytes, or fails and delivers none. -/
def received {n : ℕ} (buf : Vector UInt8 n) (bytes : Option (List UInt8)) : Vector UInt8 n :=
  memcpy buf 0 ((bytes.getD []).take n)

end Buffer
