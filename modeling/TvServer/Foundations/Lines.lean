import Mathlib.Data.List.TakeWhile

/-!
# Reading text in chunks

A text file read by `fgets`: each call takes the characters up to the next line feed, the line
feed included, but no more than its buffer holds. The lines of a file that fit the buffer come
out whole, and a longer line comes out in several chunks.

## Main definitions

* `fgets n cs`: one read of at most `n` characters, and the rest of the file
* `chunks n cs`: the results of the reads up to the end of the file
* `wholeReads m`, `cutRead m`: the reads that come out whole where a file is cut, and the last one
* `cstr cs`: the C string in a buffer

## Main results

* `chunks_eq_cons`: the first chunk is the first read
* `chunks_append_lf`: reading starts anew behind a line feed
* `chunks_eq_terminated`: the chunks of a file whose lines fit are its lines
* `chunks_take`: the reads of a file that was cut
-/

namespace Lines

/-- The characters of a buffer before its first null character. -/
def cstr (cs : List Char) : List Char := cs.takeWhile (· ≠ '\x00')

/-- Read up to and including the next line feed, but at most `n` characters. -/
def fgets : ℕ → List Char → List Char × List Char
  | 0, cs => ([], cs)
  | _ + 1, [] => ([], [])
  | n + 1, c :: cs => if c = '\n' then ([c], cs) else (c :: (fgets n cs).1, (fgets n cs).2)

/-- The reads of at most `n` characters, until the file is at its end; each one takes a
character, so that the length of the file bounds their number. -/
def chunksAux (n : ℕ) : ℕ → List Char → List (List Char)
  | 0, _ => []
  | _ + 1, [] => []
  | fuel + 1, c :: cs => (fgets n (c :: cs)).1 :: chunksAux n fuel (fgets n (c :: cs)).2

def chunks (n : ℕ) (cs : List Char) : List (List Char) := chunksAux n cs.length cs

/-! ## Text up to a character -/

section

variable {c : Char} {t : List Char}

theorem forall_ne_of_not_mem (h : c ∉ t) : ∀ d ∈ t, decide (d ≠ c) = true := fun _ hd =>
  decide_eq_true fun he => h (he ▸ hd)

theorem takeWhile_ne_self (h : c ∉ t) : t.takeWhile (· ≠ c) = t :=
  List.takeWhile_eq_self_iff.mpr (forall_ne_of_not_mem h)

theorem dropWhile_ne_self (h : c ∉ t) : t.dropWhile (· ≠ c) = [] :=
  List.dropWhile_eq_nil_iff.mpr (forall_ne_of_not_mem h)

theorem takeWhile_ne_append (h : c ∉ t) (rest : List Char) :
    (t ++ c :: rest).takeWhile (· ≠ c) = t := by
  rw [List.takeWhile_append_of_pos (forall_ne_of_not_mem h)]
  simp

theorem dropWhile_ne_append (h : c ∉ t) (rest : List Char) :
    (t ++ c :: rest).dropWhile (· ≠ c) = c :: rest := by
  rw [List.dropWhile_append_of_pos (forall_ne_of_not_mem h)]
  simp

end

theorem takeWhile_mono {α : Type*} (p : α → Bool) {t t' : List α} (h : t <+: t') :
    t.takeWhile p <+: t'.takeWhile p := by
  obtain ⟨more, rfl⟩ := h
  rw [List.takeWhile_append]
  split
  · exact (List.takeWhile_prefix p).trans (List.prefix_append _ _)
  · exact List.prefix_rfl

/-! ## Strings in buffers -/

theorem cstr_of_not_mem {t : List Char} (h : '\x00' ∉ t) : cstr t = t := takeWhile_ne_self h

theorem not_mem_cstr (t : List Char) : '\x00' ∉ cstr t := by
  intro h
  simpa using List.mem_takeWhile_imp h

theorem cstr_append_null {t : List Char} (h : '\x00' ∉ t) (rest : List Char) :
    cstr (t ++ '\x00' :: rest) = t := takeWhile_ne_append h rest

/-! ## One read -/

/-- A line that fits is read whole. -/
theorem fgets_line {seg : List Char} (hseg : '\n' ∉ seg) {n : ℕ} (hn : seg.length < n)
    (rest : List Char) : fgets n (seg ++ '\n' :: rest) = (seg ++ ['\n'], rest) := by
  induction seg generalizing n with
  | nil =>
    obtain ⟨n, rfl⟩ := Nat.exists_eq_succ_of_ne_zero (Nat.ne_of_gt hn)
    simp [fgets]
  | cons c seg ih =>
    obtain ⟨n, rfl⟩ := Nat.exists_eq_succ_of_ne_zero (Nat.ne_of_gt (Nat.zero_lt_of_lt hn))
    rw [List.mem_cons, not_or] at hseg
    have hrest := ih hseg.2 (Nat.lt_of_succ_lt_succ hn)
    simp [fgets, Ne.symm hseg.1, hrest]

/-- A read stops where its buffer is full. -/
theorem fgets_full {seg : List Char} (hseg : '\n' ∉ seg) (rest : List Char) :
    fgets seg.length (seg ++ rest) = (seg, rest) := by
  induction seg with
  | nil => simp [fgets]
  | cons c seg ih =>
    rw [List.mem_cons, not_or] at hseg
    simp [fgets, Ne.symm hseg.1, ih hseg.2]

/-- A read stops at the end of the file. -/
theorem fgets_last {seg : List Char} (hseg : '\n' ∉ seg) {n : ℕ} (hn : seg.length ≤ n) :
    fgets n seg = (seg, []) := by
  induction seg generalizing n with
  | nil => cases n <;> rfl
  | cons c seg ih =>
    obtain ⟨n, rfl⟩ := Nat.exists_eq_succ_of_ne_zero (Nat.ne_of_gt (Nat.zero_lt_of_lt hn))
    rw [List.mem_cons, not_or] at hseg
    have hrest := ih hseg.2 (Nat.le_of_succ_le_succ hn)
    simp [fgets, Ne.symm hseg.1, hrest]

theorem length_fgets_snd_le (n : ℕ) (cs : List Char) : (fgets n cs).2.length ≤ cs.length := by
  induction n generalizing cs with
  | zero => exact Nat.le_refl _
  | succ n ih =>
    cases cs with
    | nil => exact Nat.le_refl _
    | cons c cs =>
      rw [fgets]
      split
      · exact Nat.le_succ _
      · exact Nat.le_succ_of_le (ih cs)

theorem length_fgets_snd_lt {n : ℕ} (hn : 0 < n) {cs : List Char} (hcs : cs ≠ []) :
    (fgets n cs).2.length < cs.length := by
  obtain ⟨n, rfl⟩ := Nat.exists_eq_succ_of_ne_zero (Nat.ne_of_gt hn)
  cases cs with
  | nil => exact absurd rfl hcs
  | cons c cs =>
    rw [fgets]
    split
    · exact Nat.lt_succ_self _
    · exact Nat.lt_succ_of_le (length_fgets_snd_le n cs)

theorem length_fgets_fst_le (n : ℕ) (cs : List Char) : (fgets n cs).1.length ≤ n := by
  induction n generalizing cs with
  | zero => exact Nat.le_refl _
  | succ n ih =>
    cases cs with
    | nil => exact Nat.zero_le _
    | cons c cs =>
      rw [fgets]
      split
      · exact Nat.succ_le_succ (Nat.zero_le n)
      · exact Nat.succ_le_succ (ih cs)

/-- A read and the rest are the file. -/
theorem append_fgets (n : ℕ) (cs : List Char) : (fgets n cs).1 ++ (fgets n cs).2 = cs := by
  induction n generalizing cs with
  | zero => rfl
  | succ n ih =>
    cases cs with
    | nil => rfl
    | cons c cs =>
      rw [fgets]
      split
      · rfl
      · exact congrArg (c :: ·) (ih cs)

/-! ## All reads -/

/-- Any bound on the number of reads that covers the length gives the same chunks. -/
theorem chunksAux_congr {n : ℕ} (hn : 0 < n) {f f' : ℕ} {cs : List Char} (hf : cs.length ≤ f)
    (hf' : cs.length ≤ f') : chunksAux n f cs = chunksAux n f' cs := by
  induction f generalizing f' cs with
  | zero =>
    obtain rfl : cs = [] := List.length_eq_zero_iff.mp (Nat.le_zero.mp hf)
    cases f' <;> rfl
  | succ f ih =>
    cases cs with
    | nil => cases f' <;> rfl
    | cons c cs =>
      obtain ⟨f', rfl⟩ := Nat.exists_eq_succ_of_ne_zero (Nat.ne_of_gt (Nat.zero_lt_of_lt hf'))
      have hlt := length_fgets_snd_lt hn (List.cons_ne_nil c cs)
      have hrest := Nat.le_trans (Nat.le_of_lt_succ hlt) (Nat.le_of_succ_le_succ hf)
      have hrest' := Nat.le_trans (Nat.le_of_lt_succ hlt) (Nat.le_of_succ_le_succ hf')
      rw [chunksAux, chunksAux, ih hrest hrest']

@[simp] theorem chunks_nil (n : ℕ) : chunks n [] = [] := rfl

/-- **The first chunk is the first read**, and the others are read from the rest. -/
theorem chunks_eq_cons {n : ℕ} (hn : 0 < n) {cs : List Char} (hcs : cs ≠ []) :
    chunks n cs = (fgets n cs).1 :: chunks n (fgets n cs).2 := by
  have hlt := length_fgets_snd_lt hn hcs
  cases cs with
  | nil => exact absurd rfl hcs
  | cons c cs =>
    rw [chunks, List.length_cons, chunksAux]
    rw [chunksAux_congr hn (Nat.le_of_lt_succ hlt) (Nat.le_refl _)]
    rfl

/-- No read takes more than its buffer holds. -/
theorem length_le_of_mem_chunks {n : ℕ} {cs c : List Char} (hc : c ∈ chunks n cs) :
    c.length ≤ n := by
  have hreads : ∀ (fuel : ℕ) (cs : List Char), c ∈ chunksAux n fuel cs → c.length ≤ n := by
    intro fuel
    induction fuel with
    | zero => exact fun _ h => absurd h List.not_mem_nil
    | succ fuel ih =>
      intro cs h
      cases cs with
      | nil => exact absurd h List.not_mem_nil
      | cons d ds =>
        rcases List.mem_cons.mp h with rfl | h
        · exact length_fgets_fst_le n (d :: ds)
        · exact ih _ h
  exact hreads _ _ hc

theorem chunks_line {seg : List Char} (hseg : '\n' ∉ seg) {n : ℕ} (hn : seg.length < n)
    (rest : List Char) : chunks n (seg ++ '\n' :: rest) = (seg ++ ['\n']) :: chunks n rest := by
  rw [chunks_eq_cons (Nat.zero_lt_of_lt hn) (by simp), fgets_line hseg hn]

/-- One read of a text with a line feed reads the same whatever is behind the line feed, and takes
it, if it does, as the last character. -/
theorem fgets_append_lf {n : ℕ} (hn : 0 < n) (x rest : List Char) :
    (fgets n (x ++ '\n' :: rest)).1 = (fgets n (x ++ ['\n'])).1 ∧
      ((fgets n (x ++ '\n' :: rest)).2 = rest ∧ (fgets n (x ++ ['\n'])).2 = [] ∨
        ∃ y, y.length < x.length ∧ (fgets n (x ++ '\n' :: rest)).2 = y ++ '\n' :: rest ∧
          (fgets n (x ++ ['\n'])).2 = y ++ ['\n']) := by
  induction x generalizing n with
  | nil =>
    obtain ⟨n, rfl⟩ := Nat.exists_eq_succ_of_ne_zero (Nat.ne_of_gt hn)
    exact ⟨rfl, .inl ⟨rfl, rfl⟩⟩
  | cons c x ih =>
    obtain ⟨n, rfl⟩ := Nat.exists_eq_succ_of_ne_zero (Nat.ne_of_gt hn)
    rw [List.cons_append, List.cons_append, fgets, fgets]
    split
    · exact ⟨rfl, .inr ⟨x, Nat.lt_succ_self _, rfl, rfl⟩⟩
    · -- the buffer is full, or the read goes on
      rcases Nat.eq_zero_or_pos n with rfl | hn'
      · exact ⟨rfl, .inr ⟨x, Nat.lt_succ_self _, rfl, rfl⟩⟩
      · obtain ⟨hread, hleft | ⟨y, hy, hleft⟩⟩ := ih hn'
        · exact ⟨congrArg (c :: ·) hread, .inl hleft⟩
        · exact ⟨congrArg (c :: ·) hread, .inr ⟨y, Nat.lt_succ_of_lt hy, hleft⟩⟩

/-- **Reading starts anew behind a line feed.** -/
theorem chunks_append_lf {n : ℕ} (hn : 0 < n) (x rest : List Char) :
    chunks n (x ++ '\n' :: rest) = chunks n (x ++ ['\n']) ++ chunks n rest := by
  generalize hm : x.length = m
  induction m using Nat.strongRecOn generalizing x with
  | ind m ih =>
    obtain ⟨hread, hleft⟩ := fgets_append_lf hn x rest
    rw [chunks_eq_cons hn (by simp), chunks_eq_cons hn (by simp : x ++ ['\n'] ≠ []), hread]
    rcases hleft with ⟨hleft, hlast⟩ | ⟨y, hy, hleft, hlast⟩
    · rw [hleft, hlast, chunks_nil]
      rfl
    · rw [hleft, hlast, ih y.length (hm ▸ hy) y rfl, List.cons_append]

theorem chunks_full {seg : List Char} (hseg : '\n' ∉ seg) (hne : seg ≠ []) (rest : List Char) :
    chunks seg.length (seg ++ rest) = seg :: chunks seg.length rest := by
  rw [chunks_eq_cons (List.length_pos_iff.mpr hne) (by simp [hne]), fgets_full hseg]

/-- The lines of a file with their line feeds; an empty last line is no line. -/
def terminated : List (List Char) → List (List Char)
  | [] => []
  | [l] => if l = [] then [] else [l]
  | l :: ls => (l ++ ['\n']) :: terminated ls

theorem terminated_cons {ls : List (List Char)} (hls : ls ≠ []) (l : List Char) :
    terminated (l :: ls) = (l ++ ['\n']) :: terminated ls := by
  cases ls with
  | nil => exact absurd rfl hls
  | cons l' ls => rfl

/-- **The chunks of a file whose lines fit are its lines.** -/
theorem chunks_eq_terminated {n : ℕ} (hn : 0 < n) (m : ℕ) {cs : List Char} (hm : cs.length ≤ m)
    (hfit : ∀ seg ∈ cs.splitOn '\n', seg.length < n) :
    chunks n cs = terminated (cs.splitOn '\n') := by
  induction m generalizing cs with
  | zero =>
    obtain rfl : cs = [] := List.length_eq_zero_iff.mp (Nat.le_zero.mp hm)
    rfl
  | succ m ih =>
    -- cut off the first line, and go on with the rest of the file
    by_cases hmem : '\n' ∈ cs
    · obtain ⟨seg, rest, rfl, hseg⟩ := List.eq_append_cons_of_mem hmem
      have hsplit := List.splitOn_append_cons_self_of_not_mem hseg rest
      rw [hsplit] at hfit ⊢
      have hrest : ∀ l ∈ rest.splitOn '\n', l.length < n := fun l hl =>
        hfit l (List.mem_cons_of_mem _ hl)
      rw [terminated_cons (List.splitOn_ne_nil _ _),
        chunks_line hseg (hfit seg List.mem_cons_self), ih ?_ hrest]
      simp only [List.length_append, List.length_cons] at hm
      omega
    · rw [List.splitOn_eq_singleton hmem] at hfit ⊢
      by_cases hcs : cs = []
      · subst hcs
        rfl
      · rw [chunks_eq_cons hn hcs, fgets_last hmem (hfit cs List.mem_cons_self |> Nat.le_of_lt)]
        simp [terminated, hcs]

/-! ## Files that were cut -/

/-- The reads that lie within the first `m` characters. -/
def wholeReads : ℕ → List (List Char) → List (List Char)
  | _, [] => []
  | m, c :: cs => if c.length ≤ m then c :: wholeReads (m - c.length) cs else []

/-- What the first `m` characters have of the read behind these. -/
def cutRead : ℕ → List (List Char) → List Char
  | _, [] => []
  | m, c :: cs => if c.length ≤ m then cutRead (m - c.length) cs else c.take m

theorem wholeReads_isPrefix (m : ℕ) (cs : List (List Char)) : wholeReads m cs <+: cs := by
  induction cs generalizing m with
  | nil => exact List.prefix_rfl
  | cons c cs ih =>
    rw [wholeReads]
    split
    · exact List.cons_prefix_cons.mpr ⟨rfl, ih _⟩
    · exact List.nil_prefix

/-- Behind the whole reads comes the one that was cut, if any. -/
theorem cutRead_isPrefix (m : ℕ) (cs : List (List Char)) :
    ∃ c, cutRead m cs <+: c ∧ (cutRead m cs = [] ∨ wholeReads m cs ++ [c] <+: cs) := by
  induction cs generalizing m with
  | nil => exact ⟨[], List.prefix_rfl, .inl rfl⟩
  | cons c cs ih =>
    rw [wholeReads, cutRead]
    split
    · obtain ⟨d, hd, hcut⟩ := ih (m - c.length)
      exact ⟨d, hd, hcut.imp_right fun h => List.cons_prefix_cons.mpr ⟨rfl, h⟩⟩
    · exact ⟨c, List.take_prefix _ _, .inr ⟨cs, rfl⟩⟩

/-- A longer part of a file has the whole reads of a shorter one. -/
theorem wholeReads_mono {m m' : ℕ} (h : m ≤ m') (cs : List (List Char)) :
    wholeReads m cs <+: wholeReads m' cs := by
  induction cs generalizing m m' with
  | nil => exact List.prefix_rfl
  | cons c cs ih =>
    rw [wholeReads]
    split
    · rename_i hc
      rw [wholeReads, if_pos (hc.trans h)]
      exact List.cons_prefix_cons.mpr ⟨rfl, ih (Nat.sub_le_sub_right h _)⟩
    · exact List.nil_prefix

/-- One read of a part of a file, which is whole or all there is. -/
theorem fgets_take (n : ℕ) (cs : List Char) (m : ℕ) :
    fgets n (cs.take m) =
      if (fgets n cs).1.length ≤ m then
        ((fgets n cs).1, (fgets n cs).2.take (m - (fgets n cs).1.length))
      else ((fgets n cs).1.take m, []) := by
  induction n generalizing cs m with
  | zero => rfl
  | succ n ih =>
    rcases cs with _ | ⟨c, cs⟩
    · simp [fgets]
    · rcases m with _ | m
      · have hpos : ¬ (fgets (n + 1) (c :: cs)).1.length ≤ 0 := by
          rw [fgets]
          split <;> simp
        rw [if_neg hpos]
        rfl
      · rw [List.take_succ_cons, fgets, fgets]
        by_cases hlf : c = '\n'
        · simp [hlf]
        · rw [if_neg hlf, if_neg hlf, ih cs m]
          simp only [List.length_cons, Nat.add_le_add_iff_right, Nat.add_sub_add_right]
          split <;> rfl

/-- **The reads of a file that was cut** are those that lie within the part that is left, and what
the part has of the next one. -/
theorem chunks_take {n : ℕ} (hn : 0 < n) (cs : List Char) (m : ℕ) :
    chunks n (cs.take m) = wholeReads m (chunks n cs) ++
      if cutRead m (chunks n cs) = [] then [] else [cutRead m (chunks n cs)] := by
  generalize hl : cs.length = l
  induction l using Nat.strongRecOn generalizing cs m with
  | ind l ih =>
    by_cases hcs : cs = []
    · subst hcs
      rw [List.take_nil]
      rfl
    · have hread := fgets_take n cs m
      have hlt := length_fgets_snd_lt hn hcs
      rw [chunks_eq_cons hn hcs, wholeReads, cutRead]
      by_cases hnil : cs.take m = []
      · -- nothing is left of the file
        have hm : m = 0 := (List.take_eq_nil_iff.mp hnil).resolve_right hcs
        have hpos : ¬ (fgets n cs).1.length ≤ m := by
          have hcost := congrArg List.length (append_fgets n cs)
          rw [List.length_append] at hcost
          omega
        rw [hnil, if_neg hpos, if_neg hpos, hm]
        rfl
      · rw [chunks_eq_cons hn hnil, hread]
        split
        · rw [ih _ (hl ▸ hlt) _ _ rfl, List.cons_append]
        · rename_i hcut
          have hpart : (fgets n cs).1.take m ≠ [] := by
            rw [List.take_eq_nil_iff, not_or] at hnil
            rw [ne_eq, List.take_eq_nil_iff, not_or]
            exact ⟨hnil.1, fun he => hcut (by simp [he])⟩
          rw [if_neg hpart]
          rfl

end Lines
