import Mathlib.Data.List.Basic
import TvServer.Foundations.Loop

/-!
# Text read from a sysfs node

The bytes of a node are read to a buffer and cleaned up there, in one pass with two indices: a null
in front of the last byte becomes a space, line feeds are left out, and the other bytes move up. No
byte is read after another one was written over it.

## Main definitions

* `readSysBody`: one round of the pass
* `readSys`, `tvReadSysfs`: reading a node
* `blankNulls`, `sysText`: the text that the bytes of a node are cleaned up to

## Main results

* `cleanState_step`: what one round keeps
* `tvReadSysfs_spec`: the text that is copied out
-/

open Loop

namespace TvUtils

def sysStrLen : ℕ := 1024

/-- What the system calls on a node do: it does not open, the read fails, or the read delivers
bytes. -/
inductive SysNode where
  | openFails
  | readFails
  | bytes (content : List Char)

/-- Overwrite a null at an index by a space, unless it is the last byte. -/
def blankByte (len : ℕ) (buf : List Char) (i : ℕ) : Option (List Char) := do
  if (← load buf i) = '\x00' ∧ i + 1 < len then store buf i ' ' else return buf

/-- One round of the pass over the bytes that were read, with the index of the byte that is read and
that of the cell that is written. -/
def readSysBody (len : ℕ) (st : List Char × ℕ × ℕ) :
    Option ((List Char × ℕ × ℕ) ⊕ (List Char × ℕ)) := do
  let (buf, i, j) := st
  if i < len then
    let buf ← blankByte len buf i
    let c ← load buf i
    if c ≠ '\n' then
      let buf ← store buf j c
      return .inl (buf, i + 1, j + 1)
    else return .inl (buf, i + 1, j)
  else return .inr (buf, j)

/-- The buffer behind the read. -/
def delivered (content buf : List Char) : List Char := content ++ buf.drop content.length

/-- Read a node to a buffer and clean it up: what is returned, and the buffer. -/
def readSys (buf : List Char) (count : ℕ) : SysNode → Option (Int32 × List Char)
  | .openFails | .readFails => some (-1, buf)
  | .bytes content => do
    let content := content.take count
    let len := content.length
    let (buf, j) ← run (readSysBody len) (len + 1) (delivered content buf, 0, 0)
    let buf ← store buf j '\x00'
    return (Int32.ofNat len, buf)

/-- The buffer of `tvReadSysfs` before the read. -/
def clearedBuf : List Char := List.replicate (sysStrLen + 1) '\x00'

/-- Read the text of a node: what is returned, and the string that is copied out. -/
def tvReadSysfs (node : SysNode) : Option (Int32 × List Char) := do
  let (ret, buf) ← readSys clearedBuf sysStrLen node
  return (ret, Lines.cstr buf)

/-! ## The text of a node -/

/-- The bytes with a space for every null that is not the last byte. -/
def blankNulls (content : List Char) : List Char :=
  content.mapIdx fun i c => if c = '\x00' ∧ i + 1 < content.length then ' ' else c

/-- The bytes without their line feeds, and with a space for every null that is not the last
byte. -/
def sysText (content : List Char) : List Char := (blankNulls content).filter (· ≠ '\n')

/-- What the first bytes are cleaned up to. -/
def cleaned (content : List Char) (i : ℕ) : List Char :=
  ((blankNulls content).take i).filter (· ≠ '\n')

theorem length_blankNulls (content : List Char) : (blankNulls content).length = content.length :=
  List.length_mapIdx

theorem cleaned_succ {content : List Char} {i : ℕ} (hi : i < content.length) :
    cleaned content (i + 1) = cleaned content i ++
      [if content[i] = '\x00' ∧ i + 1 < content.length then ' ' else content[i]].filter
        (· ≠ '\n') := by
  have hi' : i < (blankNulls content).length := by rwa [length_blankNulls]
  rw [cleaned, cleaned, ← List.take_append_getElem hi', List.filter_append]
  simp only [blankNulls, List.getElem_mapIdx]

theorem cleaned_length (content : List Char) :
    cleaned content content.length = sysText content := by
  rw [cleaned, sysText, List.take_of_length_le (length_blankNulls content).le]

/-! ## The pass -/

/-- The buffer in front of a round: the cleaned text, what is left of the bytes that were read, and
the bytes that were not, as they were delivered. -/
def CleanState (content behind : List Char) (st : List Char × ℕ × ℕ) : Prop :=
  ∃ gap, st.1 = cleaned content st.2.1 ++ (gap ++ (content.drop st.2.1 ++ behind)) ∧
    st.2.2 = (cleaned content st.2.1).length ∧ st.2.2 + gap.length = st.2.1 ∧
    st.2.1 ≤ content.length

variable {content behind : List Char}

/-- The byte that the pass has at an index: a null in front of the last byte is a space. -/
def byteAt (content : List Char) (i : ℕ) (hi : i < content.length) : Char :=
  if content[i] = '\x00' ∧ i + 1 < content.length then ' ' else content[i]

theorem blankByte_eq {i : ℕ} (hi : i < content.length) {pre : List Char} (hpre : pre.length = i) :
    blankByte content.length (pre ++ (content.drop i ++ behind)) i =
      some (pre ++ byteAt content i hi :: (content.drop (i + 1) ++ behind)) := by
  rw [List.drop_eq_getElem_cons hi, List.cons_append, blankByte, load_at hpre,
    Option.bind_eq_bind, Option.bind_some, byteAt]
  by_cases hnull : content[i] = '\x00' ∧ i + 1 < content.length
  · rw [if_pos hnull, if_pos hnull, store_at hpre]
  · rw [if_neg hnull, if_neg hnull]
    rfl

/-- **One round** reads a byte that was not written over, and keeps the state of the buffer. -/
theorem cleanState_step {st : List Char × ℕ × ℕ} (hst : CleanState content behind st)
    (hlt : st.2.1 < content.length) :
    ∃ st', readSysBody content.length st = some (.inl st') ∧ CleanState content behind st' ∧
      st'.2.1 = st.2.1 + 1 := by
  obtain ⟨buf, i, j⟩ := st
  obtain ⟨gap, hbuf, hj, hgap, -⟩ := hst
  dsimp only at hbuf hj hgap hlt ⊢
  have hindex : (cleaned content i ++ gap).length = i := by rw [List.length_append, ← hj, hgap]
  have hclean : cleaned content (i + 1) =
      cleaned content i ++ [byteAt content i hlt].filter (· ≠ '\n') := cleaned_succ hlt
  rw [← List.append_assoc] at hbuf
  simp only [readSysBody, if_pos hlt, hbuf, blankByte_eq hlt hindex, load_at hindex,
    Option.bind_eq_bind, Option.bind_some]
  generalize byteAt content i hlt = c at hclean
  by_cases hc : c ≠ '\n'
  · -- the first cell behind what is cleaned up is written, and the byte read with it at the latest
    obtain ⟨d, gap', hgap'⟩ := List.exists_cons_of_ne_nil (List.concat_ne_nil c gap)
    have hlen : gap.length = gap'.length := by simpa using congrArg List.length hgap'
    have hcells : (cleaned content i ++ gap) ++ c :: (content.drop (i + 1) ++ behind) =
        cleaned content i ++ d :: (gap' ++ (content.drop (i + 1) ++ behind)) := by
      rw [List.append_assoc, ← List.singleton_append, ← List.append_assoc gap, hgap',
        List.cons_append]
    rw [if_pos hc, hcells, store_at hj.symm, Option.bind_some]
    rw [List.filter_cons_of_pos (by simpa using hc), List.filter_nil] at hclean
    refine ⟨_, rfl, ⟨gap', ?_, ?_, ?_, hlt⟩, rfl⟩
    · rw [hclean]
      simp
    · rw [hclean, List.length_append, List.length_singleton, hj]
    · dsimp only
      omega
  · rw [if_neg hc]
    rw [List.filter_cons_of_neg (by simpa using hc), List.filter_nil, List.append_nil] at hclean
    refine ⟨_, rfl, ⟨gap ++ [c], ?_, ?_, ?_, hlt⟩, rfl⟩
    · rw [hclean]
      simp
    · rw [hclean, hj]
    · rw [List.length_append, List.length_singleton, ← Nat.add_assoc, hgap]

theorem cleanState_start (content behind : List Char) :
    CleanState content behind (content ++ behind, 0, 0) :=
  ⟨[], rfl, rfl, rfl, Nat.zero_le _⟩

/-- In every round what is written is behind what is read, which is as it was delivered. -/
theorem cleanState_reaches {st : List Char × ℕ × ℕ}
    (hreach : Reaches (readSysBody content.length) (content ++ behind, 0, 0) st) :
    CleanState content behind st := by
  refine reaches_invariant (fun s s' hs hbody => ?_) (cleanState_start content behind) hreach
  rcases Nat.lt_or_ge s.2.1 content.length with hlt | hge
  · obtain ⟨s₁, hround, hs₁, -⟩ := cleanState_step hs hlt
    obtain rfl := Sum.inl.inj (Option.some.inj (hround.symm.trans hbody))
    exact hs₁
  · simp [readSysBody, Nat.not_lt.mpr hge] at hbody

theorem CleanState.drop_eq {st : List Char × ℕ × ℕ} (hst : CleanState content behind st) :
    st.1.drop st.2.1 = content.drop st.2.1 ++ behind := by
  obtain ⟨gap, hbuf, hj, hgap, -⟩ := hst
  rw [hbuf, ← List.append_assoc]
  exact List.drop_left' (by rw [List.length_append, ← hj, hgap])

/-- The pass ends behind the last byte. -/
theorem run_readSysBody (content behind : List Char) :
    ∃ gap, (sysText content).length + gap.length = content.length ∧
      run (readSysBody content.length) (content.length + 1) (content ++ behind, 0, 0) =
        some (sysText content ++ (gap ++ behind), (sysText content).length) := by
  have hend : ∀ st, CleanState content behind st → ¬ st.2.1 < content.length →
      ∃ gap, (sysText content).length + gap.length = content.length ∧
        readSysBody content.length st =
          some (.inr (sysText content ++ (gap ++ behind), (sysText content).length)) := by
    rintro ⟨buf, i, j⟩ ⟨gap, hbuf, hj, hgap, hle⟩ hge
    dsimp only at hbuf hj hgap hle hge
    obtain rfl : i = content.length := Nat.le_antisymm hle (Nat.not_lt.mp hge)
    rw [cleaned_length] at hbuf hj
    rw [List.drop_length, List.nil_append] at hbuf
    exact ⟨gap, hj ▸ hgap, by simp [readSysBody, hbuf, hj]⟩
  let Post (r : List Char × ℕ) : Prop := ∃ gap,
    (sysText content).length + gap.length = content.length ∧
      r = (sysText content ++ (gap ++ behind), (sysText content).length)
  have hstep : ∀ st, CleanState content behind st →
      (∃ st', readSysBody content.length st = some (.inl st') ∧ CleanState content behind st' ∧
        content.length - st'.2.1 < content.length - st.2.1) ∨
      ∃ r, readSysBody content.length st = some (.inr r) ∧ Post r := by
    intro st hst
    by_cases hlt : st.2.1 < content.length
    · obtain ⟨st', hround, hst', hnext⟩ := cleanState_step hst hlt
      exact .inl ⟨st', hround, hst', by omega⟩
    · obtain ⟨gap, hgap, hround⟩ := hend st hst hlt
      exact .inr ⟨_, hround, gap, hgap, rfl⟩
  obtain ⟨r, hrun, gap, hgap, rfl⟩ := run_spec (fun st => content.length - st.2.1) hstep
    (cleanState_start content behind) (Nat.lt_succ_self _)
  exact ⟨gap, hgap, hrun⟩

/-! ## The text that is copied out -/

theorem blankNulls_concat (init : List Char) (c : Char) :
    blankNulls (init ++ [c]) = init.map (fun d => if d = '\x00' then ' ' else d) ++ [c] := by
  rw [blankNulls, List.mapIdx_concat]
  congr 1
  · apply List.ext_getElem
    · simp
    · intro i hi _
      have hi' : i < init.length := by simpa using hi
      simp [hi']
  · simp

/-- The string in the buffer is the text up to a null in the place of the last byte. -/
theorem cstr_sysText (content rest : List Char) :
    Lines.cstr (sysText content ++ '\x00' :: rest) ++
        (if content.getLast? = some '\x00' then ['\x00'] else []) = sysText content := by
  rcases List.eq_nil_or_concat content with rfl | ⟨init, c, rfl⟩
  · rfl
  · rw [List.concat_eq_append, List.getLast?_concat, sysText, blankNulls_concat,
      List.filter_append]
    have hinit : '\x00' ∉ (init.map fun d => if d = '\x00' then ' ' else d).filter (· ≠ '\n') := by
      intro hm
      obtain ⟨d, -, hd⟩ := List.mem_map.mp (List.mem_of_mem_filter hm)
      split at hd
      · simp at hd
      · contradiction
    by_cases hc : c = '\x00'
    · subst hc
      rw [List.filter_cons_of_pos (by decide), List.filter_nil, List.append_assoc,
        List.singleton_append, Lines.cstr_append_null hinit, if_pos rfl]
    · have hlast : '\x00' ∉ [c].filter (· ≠ '\n') := fun hm =>
        hc (List.mem_singleton.mp (List.mem_of_mem_filter hm)).symm
      have hall := List.not_mem_append hinit hlast
      rw [Lines.cstr_append_null hall, if_neg (by simpa using hc), List.append_nil]

/-- **The text of a node.** For bytes that one read delivers, the pass never writes in front of what
it has read, and the string that is copied out is the bytes with a space for every null but one that
is the last byte, which ends it, and without line feeds. The terminator is inside the buffer. -/
theorem tvReadSysfs_spec {content : List Char} (hlen : content.length ≤ sysStrLen) :
    (∃ value, tvReadSysfs (.bytes content) = some (Int32.ofNat content.length, value) ∧
      value ++ (if content.getLast? = some '\x00' then ['\x00'] else []) = sysText content) ∧
    (sysText content).length < clearedBuf.length ∧
    ∀ buf i j,
      Reaches (readSysBody content.length) (delivered content clearedBuf, 0, 0) (buf, i, j) →
      j ≤ i ∧ i ≤ content.length ∧ buf.drop i = (delivered content clearedBuf).drop i := by
  have hsize : clearedBuf.length = sysStrLen + 1 := List.length_replicate
  obtain ⟨gap, hgap, hrun⟩ := run_readSysBody content (clearedBuf.drop content.length)
  refine ⟨?_, by omega, fun buf i j hreach => ?_⟩
  · -- there is a cell behind the text, as the buffer is longer than what is read
    have hroom : (clearedBuf.drop content.length).length ≠ 0 := by
      rw [List.length_drop]
      omega
    obtain ⟨d, rest, hcells⟩ : ∃ d rest, gap ++ clearedBuf.drop content.length = d :: rest :=
      List.exists_cons_of_ne_nil fun hnil =>
        hroom (List.length_eq_zero_iff.mpr (List.append_eq_nil_iff.mp hnil).2)
    refine ⟨Lines.cstr (sysText content ++ '\x00' :: rest), ?_, cstr_sysText content rest⟩
    simp only [tvReadSysfs, readSys, List.take_of_length_le hlen, delivered, hrun, hcells,
      store_append, Option.bind_eq_bind, Option.bind_some]
    rfl
  · have hst := cleanState_reaches hreach
    have hdrop : (content ++ clearedBuf.drop content.length).drop i =
        content.drop i ++ clearedBuf.drop content.length := by
      obtain ⟨-, -, -, -, hle⟩ := hst
      exact List.drop_append_of_le_length hle
    refine ⟨?_, ?_, hst.drop_eq.trans hdrop.symm⟩
    · obtain ⟨gap, -, -, hji, -⟩ := hst
      exact Nat.le.intro hji
    · obtain ⟨-, -, -, -, hle⟩ := hst
      exact hle

/-- Nulls and line feeds in one text. -/
theorem tvReadSysfs_spec_nulls :
    ∃ value, tvReadSysfs (.bytes ['a', '\x00', '\n', 'b', '\x00']) = some (5, value) ∧
      value ++ ['\x00'] = ['a', ' ', 'b', '\x00'] :=
  (@tvReadSysfs_spec ['a', '\x00', '\n', 'b', '\x00'] (by decide)).1

end TvUtils
