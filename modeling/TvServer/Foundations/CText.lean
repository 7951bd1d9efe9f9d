import TvServer.Foundations.Lines

/-!
# Numbers and tokens in C strings

The conversions `%d` and `%x` of `sprintf`, their inverse `atoi`, and the tokens of `strtok`, on
C strings as lists of characters. A 32-bit integer is printed and read back unchanged, and a
printed integer is one token.

## Main definitions

* `decText i`, `hexText w`: the texts of an integer for `%d` and `%x`
* `strtol s`, `atoi s`: the integer at the start of a text, as a `long` and as an `int`
* `strtok delim s`: the next token, and what is left behind it
* `TextBuffer`: a text in a buffer, which it may fill up to the end
* `TextBuffer.strtok`, `TextBuffer.tokens`: the next token there, and all tokens

## Main results

* `atoi_decText`: an integer is read back from its text
* `strtok_intercalate`: the tokens of a joined text are found in their order
* `TextBuffer.strtok_spec`: the next token is the first of all tokens
-/

namespace CText

/-! ## Integers -/

/-- The text of an integer for `%d`. -/
def decText (i : Int32) : List Char :=
  if i.toInt < 0 then '-' :: Nat.toDigits 10 i.toInt.natAbs else Nat.toDigits 10 i.toInt.natAbs

/-- The text of an unsigned integer for `%x`. -/
def hexText (w : UInt32) : List Char := Nat.toDigits 16 w.toNat

/-- The white space that `atoi` skips. -/
def isSpace (c : Char) : Bool :=
  c = ' ' || c = '\t' || c = '\n' || c = '\x0b' || c = '\x0c' || c = '\r'

/-- The number at the start of a text, up to the first character that is no digit. -/
def leadingNat (s : List Char) : ℕ := Nat.ofDigitChars 10 (s.takeWhile Char.isDigit) 0

/-- `strtol` for base 10: the number at the start of a text, behind white space and a sign. Beyond
the 64 bits of a `long` it is the least or the largest `long`. -/
def strtol (s : List Char) : ℤ :=
  let n : ℤ :=
    match s.dropWhile isSpace with
    | '-' :: ds => -leadingNat ds
    | '+' :: ds => leadingNat ds
    | ds => leadingNat ds
  max Int64.minValue.toInt (min n Int64.maxValue.toInt)

/-- The integer at the start of a text, which is the lower half of the `long`. -/
def atoi (s : List Char) : Int32 := Int32.ofInt (strtol s)

/-- Digits that are beyond a `long` come to the lower half of the largest one. -/
example : atoi "99999999999999999999".toList = -1 := by decide +kernel

theorem isDigit_of_mem {n : ℕ} {c : Char} (hc : c ∈ Nat.toDigits 10 n) : c.isDigit = true :=
  Nat.isDigit_of_mem_toDigits (by decide) (by decide) hc

@[simp] theorem leadingNat_toDigits (n : ℕ) : leadingNat (Nat.toDigits 10 n) = n := by
  rw [leadingNat, List.takeWhile_eq_self_iff.mpr fun c hc => isDigit_of_mem hc,
    Nat.ofDigitChars_ten_toDigits]

/-- A digit is neither white space nor a sign. -/
theorem not_isSpace_of_isDigit {c : Char} (hc : c.isDigit = true) :
    isSpace c = false ∧ c ≠ '-' ∧ c ≠ '+' ∧ c ≠ '.' := by
  refine ⟨?_, ?_, ?_, ?_⟩
  · -- the six characters of white space, none of which is a digit
    rw [Bool.eq_false_iff]
    intro hs
    simp only [isSpace, Bool.or_eq_true, decide_eq_true_eq] at hs
    rcases hs with ((((rfl | rfl) | rfl) | rfl) | rfl) | rfl <;> exact absurd hc (by decide)
  all_goals
    rintro rfl
    exact absurd hc (by decide)

/-- A number that is a `long` is read back from its digits. -/
theorem strtol_toDigits {n : ℕ} (hn : (n : ℤ) ≤ Int64.maxValue.toInt) :
    strtol (Nat.toDigits 10 n) = n := by
  have hmin : Int64.minValue.toInt ≤ 0 := by decide
  -- the first character is a digit: nothing is skipped, and it is no sign
  have hne : Nat.toDigits 10 n ≠ [] := Nat.toDigits_ne_nil
  obtain ⟨c, cs, he⟩ := List.exists_cons_of_ne_nil hne
  have hc : c.isDigit = true := isDigit_of_mem (he ▸ List.mem_cons_self)
  obtain ⟨hs, hm, hp, -⟩ := not_isSpace_of_isDigit hc
  have hdrop : (Nat.toDigits 10 n).dropWhile isSpace = Nat.toDigits 10 n := by
    rw [he, List.dropWhile_cons_of_neg (by simp [hs])]
  rw [strtol, hdrop]
  split
  · rename_i h
    exact absurd (List.cons.inj (he.symm.trans h)).1 hm
  · rename_i h
    exact absurd (List.cons.inj (he.symm.trans h)).1 hp
  · -- the number is between the bounds
    rw [leadingNat_toDigits]
    omega

/-- **An integer is read back from its text.** -/
theorem atoi_decText (i : Int32) : atoi (decText i) = i := by
  have hlow := Int32.le_toInt i
  have hhigh := Int32.toInt_lt i
  have hmin : Int64.minValue.toInt = -9223372036854775808 := rfl
  have hmax : Int64.maxValue.toInt = 9223372036854775807 := rfl
  -- an `int` is in the range of `long`
  have hlong : strtol (decText i) = i.toInt := by
    rw [decText]
    split
    · rename_i hneg
      have habs : -(i.toInt.natAbs : ℤ) = i.toInt := by omega
      have hdrop : ('-' :: Nat.toDigits 10 i.toInt.natAbs).dropWhile isSpace =
          '-' :: Nat.toDigits 10 i.toInt.natAbs := rfl
      rw [strtol, hdrop]
      simp only [leadingNat_toDigits, habs]
      omega
    · rename_i hpos
      have habs : (i.toInt.natAbs : ℤ) = i.toInt := by omega
      rw [strtol_toDigits (by omega), habs]
  rw [atoi, hlong, Int32.ofInt_toInt]

theorem not_mem_decText {c : Char} (hc : c.isDigit = false) (hm : c ≠ '-') (i : Int32) :
    c ∉ decText i := by
  have hdigits : c ∉ Nat.toDigits 10 i.toInt.natAbs := fun h =>
    Bool.false_ne_true (hc.symm.trans (isDigit_of_mem h))
  rw [decText]
  split
  · exact List.not_mem_cons_of_ne_of_not_mem hm hdigits
  · exact hdigits

theorem dot_not_mem_decText (i : Int32) : '.' ∉ decText i := not_mem_decText rfl (by decide) i

theorem decText_ne_nil (i : Int32) : decText i ≠ [] := by
  rw [decText]
  split
  · exact List.cons_ne_nil _ _
  · exact Nat.toDigits_ne_nil

theorem length_decText_le (i : Int32) : (decText i).length ≤ 11 := by
  have hlow := Int32.le_toInt i
  have hhigh := Int32.toInt_lt i
  -- at most `2 ^ 31`, which has ten digits
  have hdigits : (Nat.toDigits 10 i.toInt.natAbs).length ≤ 10 :=
    (Nat.length_toDigits_le_iff (by decide) (by decide)).mpr (by omega)
  rw [decText]
  split
  · rw [List.length_cons]
    omega
  · omega

/-! ## Tokens -/

/-- The next token of a text, and the text behind its delimiter: there is none where only
delimiters are left. -/
def strtok (delim : Char) (s : List Char) : Option (List Char × List Char) :=
  match s.dropWhile (· = delim) with
  | [] => none
  | c :: cs => some ((c :: cs).takeWhile (· ≠ delim), ((c :: cs).dropWhile (· ≠ delim)).drop 1)

theorem strtok_of_head {delim : Char} {tok : List Char} (hne : tok ≠ []) (hd : delim ∉ tok)
    (rest : List Char) : strtok delim (tok ++ rest) =
      some ((tok ++ rest).takeWhile (· ≠ delim), ((tok ++ rest).dropWhile (· ≠ delim)).drop 1) := by
  obtain ⟨c, cs, rfl⟩ := List.exists_cons_of_ne_nil hne
  rw [List.mem_cons, not_or] at hd
  have hdrop : (c :: cs ++ rest).dropWhile (· = delim) = c :: (cs ++ rest) := by
    rw [List.cons_append, List.dropWhile_cons_of_neg (by simpa [eq_comm] using hd.1)]
  rw [strtok, hdrop]
  rfl

/-- A token in front of a delimiter. -/
theorem strtok_token {delim : Char} {tok : List Char} (hne : tok ≠ []) (hd : delim ∉ tok)
    (rest : List Char) : strtok delim (tok ++ delim :: rest) = some (tok, rest) := by
  rw [strtok_of_head hne hd, Lines.takeWhile_ne_append hd, Lines.dropWhile_ne_append hd,
    List.drop_one, List.tail_cons]

/-- The last token of a text. -/
theorem strtok_last {delim : Char} {tok : List Char} (hne : tok ≠ []) (hd : delim ∉ tok) :
    strtok delim tok = some (tok, []) := by
  have htok := strtok_of_head hne hd []
  rw [List.append_nil, Lines.takeWhile_ne_self hd, Lines.dropWhile_ne_self hd] at htok
  exact htok

/-- The first token of a text that is joined from tokens. -/
theorem strtok_intercalate {delim : Char} {tok : List Char} (hne : tok ≠ []) (hd : delim ∉ tok)
    (toks : List (List Char)) : strtok delim ([delim].intercalate (tok :: toks)) =
      some (tok, [delim].intercalate toks) := by
  cases toks with
  | nil =>
    rw [List.intercalate_singleton]
    exact strtok_last hne hd
  | cons next toks =>
    rw [List.intercalate_cons_cons, List.append_assoc]
    exact strtok_token hne hd _

/-! ## Tokens in a buffer -/

/-- A text in a buffer. Behind it there is a null character, unless it fills the buffer. -/
structure TextBuffer where
  text : List Char
  terminated : Bool

namespace TextBuffer

/-- `strtok` in a buffer: the next token, if there is one, and what is left. There is no result
where the search runs out of the buffer. -/
def strtok (delim : Char) (b : TextBuffer) : Option (Option (List Char) × TextBuffer) :=
  match b.text.dropWhile (· = delim) with
  | [] => if b.terminated then some (none, ⟨[], true⟩) else none
  | c :: cs =>
    match (c :: cs).dropWhile (· ≠ delim) with
    | [] => if b.terminated then some (some (c :: cs), ⟨[], true⟩) else none
    | _ :: behind => some (some ((c :: cs).takeWhile (· ≠ delim)), ⟨behind, b.terminated⟩)

/-- The tokens of a text: what stands between delimiters, and at the end of a text that is
terminated. -/
def tokens (delim : Char) (b : TextBuffer) : List (List Char) :=
  (if b.terminated then b.text.splitOn delim else (b.text.splitOn delim).dropLast).filter (· ≠ [])

variable {delim : Char}

theorem tokens_append {tok : List Char} (hd : delim ∉ tok) (behind : List Char)
    (terminated : Bool) : tokens delim ⟨tok ++ delim :: behind, terminated⟩ =
      [tok].filter (· ≠ []) ++ tokens delim ⟨behind, terminated⟩ := by
  have hsplit := List.splitOn_append_cons_self_of_not_mem hd behind
  have hne : behind.splitOn delim ≠ [] := List.splitOn_ne_nil delim behind
  rw [tokens, tokens, hsplit, List.dropLast_cons_of_ne_nil hne, ← List.filter_append]
  cases terminated <;> rfl

theorem tokens_of_not_mem {tok : List Char} (hd : delim ∉ tok) (terminated : Bool) :
    tokens delim ⟨tok, terminated⟩ = if terminated then [tok].filter (· ≠ []) else [] := by
  rw [tokens, List.splitOn_eq_singleton hd]
  cases terminated <;> rfl

/-- **What `strtok` returns** is the first token, and it leaves the others; without a token it
returns none or runs out of the buffer. -/
theorem strtok_spec (b : TextBuffer) :
    (b.tokens delim = [] ∧ ∀ tok b', b.strtok delim ≠ some (some tok, b')) ∨
    ∃ tok b', b.tokens delim = tok :: b'.tokens delim ∧
      b.strtok delim = some (some tok, b') := by
  obtain ⟨text, terminated⟩ := b
  induction text with
  | nil =>
    refine .inl ⟨tokens_of_not_mem List.not_mem_nil terminated |>.trans ?_, ?_⟩
    · cases terminated <;> rfl
    · cases terminated <;> simp [strtok]
  | cons c cs ih =>
    by_cases hc : c = delim
    · -- a delimiter in front is skipped
      subst hc
      have htokens : tokens c ⟨c :: cs, terminated⟩ = tokens c ⟨cs, terminated⟩ :=
        tokens_append List.not_mem_nil cs terminated
      have hstrtok : strtok c ⟨c :: cs, terminated⟩ = strtok c ⟨cs, terminated⟩ := by
        simp [strtok]
      rw [htokens, hstrtok]
      exact ih
    · have hhead : (c :: cs).dropWhile (· = delim) = c :: cs :=
        List.dropWhile_cons_of_neg (by simpa using hc)
      by_cases hmem : delim ∈ c :: cs
      · -- the token ends at the next delimiter
        obtain ⟨tok, behind, htext, hd⟩ := List.eq_append_cons_of_mem hmem
        have hne : tok ≠ [] := by
          rintro rfl
          exact hc (List.cons_eq_cons.mp htext).1
        have htake : (c :: cs).takeWhile (· ≠ delim) = tok := by
          rw [htext, Lines.takeWhile_ne_append hd]
        have hdrop : (c :: cs).dropWhile (· ≠ delim) = delim :: behind := by
          rw [htext, Lines.dropWhile_ne_append hd]
        refine .inr ⟨tok, ⟨behind, terminated⟩, ?_, ?_⟩
        · rw [htext, tokens_append hd, List.filter_cons_of_pos (by simpa using hne)]
          rfl
        · rw [strtok, hhead]
          dsimp only
          rw [hdrop, htake]
      · -- the token ends with the text
        have hstrtok : strtok delim ⟨c :: cs, terminated⟩ =
            if terminated then some (some (c :: cs), ⟨[], true⟩) else none := by
          rw [strtok, hhead]
          dsimp only
          rw [Lines.dropWhile_ne_self hmem]
        rw [tokens_of_not_mem hmem, hstrtok]
        cases terminated with
        | false => exact .inl ⟨rfl, by simp⟩
        | true => exact .inr ⟨c :: cs, ⟨[], true⟩, rfl, rfl⟩

/-- In a terminated text the search ends with the text. -/
theorem strtok_terminated (text : List Char) : strtok delim ⟨text, true⟩ =
    some ((CText.strtok delim text).map Prod.fst,
      ⟨((CText.strtok delim text).map Prod.snd).getD [], true⟩) := by
  rw [strtok, CText.strtok]
  cases text.dropWhile (· = delim) with
  | nil => rfl
  | cons c cs =>
    have hsplit := List.takeWhile_append_dropWhile (p := (· ≠ delim)) (l := c :: cs)
    dsimp only [Option.map_some, Option.getD_some]
    rcases hdrop : (c :: cs).dropWhile (· ≠ delim) with _ | ⟨d, behind⟩
    · rw [hdrop, List.append_nil] at hsplit
      rw [hsplit]
      rfl
    · rfl

end TextBuffer

end CText
