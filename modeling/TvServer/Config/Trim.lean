import TvServer.Config.Reload
import TvServer.Foundations.Loop

/-!
# Trimming a line in place

A line that was read is trimmed where it stands: a terminator is written over its line feed, and
one over a carriage return in front of that, and each space is overwritten by what is behind it, up
to and with the terminator. What is left is the trimmed line, and nothing behind the terminator of
the line read is looked at or written.

## Main definitions

* `shiftBody`, `deleteBody`: the rounds of the two loops that delete the spaces
* `allTrimInPlace`: trimming in a memory, each loop running for a number of rounds at most

## Main results

* `run_shiftBody`, `run_deleteBody`: what the loops leave
* `allTrimInPlace_spec`: what is left of a line
* `allTrimInPlace_lineStr`: what is left in the buffer of a read is the text that is loaded
-/

open Lines Loop

namespace CIniFile

/-- One round of the inner loop: a character is overwritten by the one behind it. -/
def shiftBody (st : List Char × ℕ) : Option ((List Char × ℕ) ⊕ List Char) := do
  let (str, pTmp) := st
  if (← load str pTmp) ≠ '\x00' then
    let next ← load str (pTmp + 1)
    let str ← store str pTmp next
    return .inl (str, pTmp + 1)
  else return .inr str

/-- One round of the outer loop: a space is deleted, or the pointer moves on. -/
def deleteBody (n : ℕ) (st : List Char × ℕ) : Option ((List Char × ℕ) ⊕ List Char) := do
  let (str, pStr) := st
  let c ← load str pStr
  if c ≠ '\x00' then
    if c = ' ' then
      -- the pointer stays, as the next character may be a space again
      let str ← run shiftBody n (str, pStr)
      return .inl (str, pStr)
    else return .inl (str, pStr + 1)
  else return .inr str

/-- Write a terminator over the first line feed. -/
def cutLineFeed (str : List Char) : Option (List Char) := do
  match ← strchr str '\n' with
  | some pStr => store str pStr '\x00'
  | none => return str

/-- Write a terminator over a carriage return at the end. -/
def cutCarriageReturn (str : List Char) : Option (List Char) := do
  let len ← strlen str
  if 0 < len then
    if (← load str (len - 1)) = '\r' then store str (len - 1) '\x00' else return str
  else return str

/-- Trim the string at the start of a memory. -/
def allTrimInPlace (n : ℕ) (str : List Char) : Option (List Char) := do
  let str ← cutLineFeed str
  let str ← cutCarriageReturn str
  run (deleteBody n) n (str, 0)

/-- **Deleting one character**: what is behind it moves up with the terminator, whose old cell keeps
it. -/
theorem run_shiftBody {t : List Char} (ht : '\x00' ∉ t) (pre rest : List Char) {c : Char}
    (hc : c ≠ '\x00') {n : ℕ} (hn : t.length + 1 < n) :
    run shiftBody n (pre ++ c :: (t ++ '\x00' :: rest), pre.length) =
      some (pre ++ t ++ '\x00' :: '\x00' :: rest) := by
  induction t generalizing pre c n with
  | nil =>
    -- the terminator moves up, and ends the loop
    obtain ⟨n, rfl⟩ : ∃ k, n = k + 2 := ⟨n - 2, by simp only [List.length_nil] at hn; omega⟩
    have hround : shiftBody (pre ++ c :: '\x00' :: rest, pre.length) =
        some (.inl (pre ++ '\x00' :: '\x00' :: rest, pre.length + 1)) := by
      simp [shiftBody, load_append_succ, hc]
    have hend : shiftBody (pre ++ '\x00' :: '\x00' :: rest, pre.length + 1) =
        some (.inr (pre ++ '\x00' :: '\x00' :: rest)) := by
      simp [shiftBody, load_append_succ]
    rw [List.nil_append, run_of_inl hround, run_of_inr hend, List.append_nil]
  | cons d t ih =>
    obtain ⟨n, rfl⟩ := Nat.exists_eq_succ_of_ne_zero (Nat.ne_of_gt (Nat.zero_lt_of_lt hn))
    rw [List.mem_cons, not_or] at ht
    have hround : shiftBody (pre ++ c :: (d :: t ++ '\x00' :: rest), pre.length) =
        some (.inl ((pre ++ [d]) ++ d :: (t ++ '\x00' :: rest), (pre ++ [d]).length)) := by
      simp [shiftBody, load_append_succ, hc]
    rw [run_of_inl hround, ih ht.2 (pre ++ [d]) (Ne.symm ht.1) (Nat.lt_of_succ_lt_succ hn)]
    simp

/-- **Deleting the spaces** behind what was looked at: each one leaves one more null behind the
string. -/
theorem run_deleteBody {t : List Char} (ht : '\x00' ∉ t) (pre rest : List Char) {m n : ℕ}
    (hm : t.length < m) (hn : t.length < n) :
    run (deleteBody m) n (pre ++ (t ++ '\x00' :: rest), pre.length) =
      some (pre ++ t.filter (· ≠ ' ') ++
        '\x00' :: (List.replicate (t.count ' ') '\x00' ++ rest)) := by
  induction t generalizing pre rest n with
  | nil =>
    obtain ⟨n, rfl⟩ := Nat.exists_eq_succ_of_ne_zero (Nat.ne_of_gt hn)
    have hend : deleteBody m (pre ++ '\x00' :: rest, pre.length) =
        some (.inr (pre ++ '\x00' :: rest)) := by
      simp [deleteBody]
    rw [List.nil_append, run_of_inr hend]
    simp
  | cons c t ih =>
    obtain ⟨n, rfl⟩ := Nat.exists_eq_succ_of_ne_zero (Nat.ne_of_gt (Nat.zero_lt_of_lt hn))
    rw [List.mem_cons, not_or] at ht
    have hm' : t.length < m := Nat.lt_of_succ_lt hm
    have hn' : t.length < n := Nat.lt_of_succ_lt_succ hn
    by_cases hc : c = ' '
    · subst hc
      have hround : deleteBody m (pre ++ (' ' :: t ++ '\x00' :: rest), pre.length) =
          some (.inl (pre ++ (t ++ '\x00' :: ('\x00' :: rest)), pre.length)) := by
        have hshift := run_shiftBody ht.2 pre rest (Ne.symm ht.1) hm
        rw [List.append_assoc] at hshift
        simp [deleteBody, hshift]
      rw [run_of_inl hround, ih ht.2 pre ('\x00' :: rest) hm' hn', List.count_cons_self,
        List.replicate_succ']
      simp
    · have hround : deleteBody m (pre ++ (c :: t ++ '\x00' :: rest), pre.length) =
          some (.inl ((pre ++ [c]) ++ (t ++ '\x00' :: rest), (pre ++ [c]).length)) := by
        simp [deleteBody, hc, Ne.symm ht.1]
      rw [run_of_inl hround, ih ht.2 (pre ++ [c]) rest hm' hn', List.count_cons_of_ne hc]
      simp [hc]

/-- The line feed is written over: what was behind it stays behind the new terminator. -/
theorem cutLineFeed_eq {s : List Char} (hs : '\x00' ∉ s) :
    ∃ junk, (s.takeWhile (· ≠ '\n')).length + junk.length = s.length ∧ ∀ rest,
      cutLineFeed (s ++ '\x00' :: rest) =
        some (s.takeWhile (· ≠ '\n') ++ '\x00' :: (junk ++ rest)) := by
  by_cases hlf : '\n' ∈ s
  · obtain ⟨seg, behind, rfl, hseg⟩ := List.eq_append_cons_of_mem hlf
    have hcut := takeWhile_ne_append hseg behind
    have hidx : (seg ++ '\n' :: behind).idxOf '\n' = seg.length := by
      rw [List.idxOf_append_of_notMem hseg]
      simp
    refine ⟨behind ++ ['\x00'], ?_, fun rest => ?_⟩
    · rw [hcut]
      simp
    · rw [cutLineFeed, strchr_eq hs, if_pos hlf, hidx, hcut]
      simp
  · refine ⟨[], ?_, fun rest => ?_⟩
    · rw [takeWhile_ne_self hlf]
      rfl
    · rw [cutLineFeed, strchr_eq hs, if_neg hlf, takeWhile_ne_self hlf]
      rfl

/-- A carriage return at the end is written over. -/
theorem cutCarriageReturn_eq {s : List Char} (hs : '\x00' ∉ s) :
    ∃ junk, (dropTrailingCr s).length + junk.length = s.length ∧ ∀ rest,
      cutCarriageReturn (s ++ '\x00' :: rest) =
        some (dropTrailingCr s ++ '\x00' :: (junk ++ rest)) := by
  rcases List.eq_nil_or_concat s with rfl | ⟨init, c, rfl⟩
  · refine ⟨[], rfl, fun rest => ?_⟩
    rw [cutCarriageReturn, strlen_eq hs]
    rfl
  · rw [List.concat_eq_append] at hs ⊢
    by_cases hc : c = '\r'
    · refine ⟨['\x00'], by simp [dropTrailingCr, hc], fun rest => ?_⟩
      rw [cutCarriageReturn, strlen_eq hs]
      simp [dropTrailingCr, hc]
    · refine ⟨[], by simp [dropTrailingCr, hc], fun rest => ?_⟩
      rw [cutCarriageReturn, strlen_eq hs]
      simp [dropTrailingCr, hc]

theorem length_filter_add_count (t : List Char) :
    (t.filter (· ≠ ' ')).length + t.count ' ' = t.length := by
  induction t with
  | nil => rfl
  | cons c t ih =>
    by_cases hc : c = ' '
    · subst hc
      simpa [← Nat.add_assoc] using ih
    · rw [List.count_cons_of_ne hc, List.filter_cons_of_pos (by simpa using hc), List.length_cons,
        List.length_cons]
      omega

theorem dropTrailingCr_sublist (s : List Char) : (dropTrailingCr s).Sublist s := by
  rw [dropTrailingCr]
  split
  · exact List.dropLast_sublist s
  · exact List.Sublist.refl s

theorem null_not_mem_allTrim {s : List Char} (hs : '\x00' ∉ s) : '\x00' ∉ allTrim s := fun hm =>
  hs (((allTrim_sublist s).trans (List.takeWhile_sublist _)).mem hm)

/-- The trimmed line, its terminator, and what is left of the line behind. -/
theorem allTrimInPlace_eq {s : List Char} (hs : '\x00' ∉ s) {n : ℕ} (hn : s.length < n) :
    ∃ junk, (allTrim s).length + junk.length = s.length ∧ ∀ rest,
      allTrimInPlace n (s ++ '\x00' :: rest) = some (allTrim s ++ '\x00' :: (junk ++ rest)) := by
  let cut := s.takeWhile (· ≠ '\n')
  obtain ⟨junk, hlen, hlf⟩ := cutLineFeed_eq hs
  have hlen : cut.length + junk.length = s.length := hlen
  have hcut : '\x00' ∉ cut := fun hm => hs ((List.takeWhile_sublist _).mem hm)
  obtain ⟨junk', hlen', hcr⟩ := cutCarriageReturn_eq hcut
  have hdrop : '\x00' ∉ dropTrailingCr cut := fun hm => hcut ((dropTrailingCr_sublist cut).mem hm)
  have hle : (dropTrailingCr cut).length < n := by omega
  have hcount : (allTrim s).length + (dropTrailingCr cut).count ' ' =
      (dropTrailingCr cut).length := length_filter_add_count _
  refine ⟨List.replicate ((dropTrailingCr cut).count ' ') '\x00' ++ (junk' ++ junk), ?_, ?_⟩
  · simp only [List.length_append, List.length_replicate]
    omega
  · intro rest
    have hdelete := run_deleteBody hdrop [] (junk' ++ (junk ++ rest)) hle hle
    rw [List.nil_append] at hdelete
    rw [allTrimInPlace, hlf, Option.bind_eq_bind, Option.bind_some, hcr, Option.bind_some]
    refine hdelete.trans ?_
    simp [allTrim, cut]

/-- **What trimming leaves**, in the cells of the string and its terminator. The loops end, and
nothing else of the memory is looked at or written: what is behind does not matter, and there may be
nothing. -/
theorem allTrimInPlace_spec {s : List Char} (hs : '\x00' ∉ s) {n : ℕ} (hn : s.length < n) :
    ∃ str, str.length = s.length + 1 ∧ cstr str = allTrim s ∧
      ∀ rest, allTrimInPlace n (s ++ '\x00' :: rest) = some (str ++ rest) := by
  obtain ⟨junk, hlen, htrim⟩ := allTrimInPlace_eq hs hn
  refine ⟨allTrim s ++ '\x00' :: junk, ?_, cstr_append_null (null_not_mem_allTrim hs) junk, ?_⟩
  · rw [List.length_append, List.length_cons]
    omega
  · intro rest
    rw [htrim, List.append_assoc, List.cons_append]

/-- A line with spaces in front of its line end. -/
theorem allTrimInPlace_spec_key :
    ∃ str, str.length = 9 ∧ cstr str = ['k', '=', 'v'] ∧ ∀ rest,
      allTrimInPlace 9 (['k', ' ', ' ', '=', 'v', ' ', '\r', '\n'] ++ '\x00' :: rest) =
        some (str ++ rest) :=
  @allTrimInPlace_spec ['k', ' ', ' ', '=', 'v', ' ', '\r', '\n'] (by simp) 9 (by simp)

/-- **The buffer of a read** is trimmed to the text that is loaded, whatever an earlier read left in
it. -/
theorem allTrimInPlace_lineStr (lineStr stale : List Char) {n : ℕ} (hn : lineStr.length < n) :
    ∃ str, allTrimInPlace n (lineStr ++ '\x00' :: stale) = some str ∧
      cstr str = loadedText lineStr := by
  -- the string ends at the first null, which may be in the line or behind it
  have hsplit : ∃ rest, lineStr ++ '\x00' :: stale = cstr lineStr ++ '\x00' :: rest := by
    by_cases hnull : '\x00' ∈ lineStr
    · obtain ⟨seg, behind, rfl, hseg⟩ := List.eq_append_cons_of_mem hnull
      exact ⟨behind ++ '\x00' :: stale, by rw [cstr_append_null hseg]; simp⟩
    · exact ⟨stale, by rw [cstr_of_not_mem hnull]⟩
  obtain ⟨rest, hrest⟩ := hsplit
  have hle : (cstr lineStr).length < n := ((List.takeWhile_sublist _).length_le).trans_lt hn
  obtain ⟨junk, -, htrim⟩ := allTrimInPlace_eq (not_mem_cstr lineStr) hle
  refine ⟨_, by rw [hrest, htrim], ?_⟩
  exact cstr_append_null (null_not_mem_allTrim (not_mem_cstr lineStr)) _

end CIniFile
