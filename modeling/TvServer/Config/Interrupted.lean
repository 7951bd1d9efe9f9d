import Mathlib.Data.List.Infix
import TvServer.Config.Durable

/-!
# Saves that are interrupted

A save empties the file and prints the lines in their order, so that a save that is interrupted
leaves the first characters of what it prints. Read again, these are the lines that were printed
whole and a part of the next one. The settings of whole lines are read as from the complete file,
and the other ones are lost, but for those that the part of the cut line is taken for.

## Main definitions

* `wholeLines`, `cutLine`: what is read of a file that a save has left
* `Intact`: a setting whose line was printed whole
* `TakenFromCut`: a setting that the cut line is taken for

## Main results

* `trimmedLines_take`: the lines of a file that was cut
* `loadedText_mono`: a part of a line is read as a part of it
* `getString_interrupted`: what each setting is read as after a save that was interrupted
-/

open Lines Search

namespace CIniFile

/-! ## The file that is left -/

/-- The lines that lie within the first `n` characters of a file, trimmed. -/
def wholeLines (n : ℕ) (content : List Char) : List (List Char) :=
  (wholeReads n (chunks (maxIniFileLineLen - 1) content)).map loadedText

/-- What the first `n` characters of a file have of the next line, trimmed. -/
def cutLine (n : ℕ) (content : List Char) : List Char :=
  loadedText (cutRead n (chunks (maxIniFileLineLen - 1) content))

theorem wholeLines_isPrefix (n : ℕ) (content : List Char) :
    wholeLines n content <+: trimmedLines content := (wholeReads_isPrefix n _).map _

theorem wholeLines_mono {n n' : ℕ} (h : n ≤ n') (content : List Char) :
    wholeLines n content <+: wholeLines n' content := (wholeReads_mono h _).map _

/-- **The lines of a file that was cut.** -/
theorem trimmedLines_take (n : ℕ) (content : List Char) :
    trimmedLines (content.take n) = wholeLines n content ++ [cutLine n content] ∨
      trimmedLines (content.take n) = wholeLines n content ∧ cutLine n content = [] := by
  rw [trimmedLines, chunks_take (by decide), List.map_append]
  split
  · rename_i hcut
    refine .inr ⟨List.append_nil _, ?_⟩
    rw [cutLine, hcut]
    rfl
  · exact .inl rfl

/-! ## The line that was cut -/

theorem dropTrailingCr_isPrefix (t : List Char) : dropTrailingCr t <+: t := by
  rw [dropTrailingCr]
  split
  · exact List.dropLast_prefix t
  · exact List.prefix_rfl

/-- A carriage return that is dropped is the last character of the longer text, or behind it. -/
theorem dropTrailingCr_mono {t t' : List Char} (h : t <+: t') :
    dropTrailingCr t <+: dropTrailingCr t' := by
  obtain ⟨more, rfl⟩ := h
  by_cases hmore : more = []
  · rw [hmore, List.append_nil]
  · refine (dropTrailingCr_isPrefix t).trans ?_
    unfold dropTrailingCr
    split
    · rw [List.dropLast_append_of_ne_nil hmore]
      exact List.prefix_append _ _
    · exact List.prefix_append _ _

/-- **What is read of a part of a line is a part of what is read of it.** -/
theorem loadedText_mono {t t' : List Char} (h : t <+: t') : loadedText t <+: loadedText t' := by
  have hline := takeWhile_mono (· ≠ '\n') (takeWhile_mono (· ≠ '\x00') h)
  exact (dropTrailingCr_mono hline).filter _

/-- The cut line is a part of the line behind the whole ones. -/
theorem cutLine_isPrefix (n : ℕ) (content : List Char) :
    ∃ line, cutLine n content <+: line ∧
      (cutLine n content = [] ∨ wholeLines n content ++ [line] <+: trimmedLines content) := by
  obtain ⟨c, hpart, hnext⟩ := cutRead_isPrefix n (chunks (maxIniFileLineLen - 1) content)
  refine ⟨loadedText c, loadedText_mono hpart, ?_⟩
  rcases hnext with hnil | hnext
  · refine .inl ?_
    rw [cutLine, hnil]
    rfl
  · have hlines := hnext.map loadedText
    rw [List.map_append] at hlines
    exact .inr hlines

/-! ## Settings -/

/-- The line of a setting lies within the first `n` characters. -/
def Intact (ini : CIniFile) (n : ℕ) (s k : List Char) : Prop :=
  (textQuery s k).find (wholeLines n ini.content) ≠ none

/-- A setting that is not intact is looked for up to the cut line, which is a key line that
starts with the key. -/
structure TakenFromCut (ini : CIniFile) (n : ℕ) (s k : List Char) : Prop where
  leads : (textQuery s k).Leads (wholeLines n ini.content)
  type : getLineType (cutLine n ini.content) = .lineTypeKey
  key : k <+: cutLine n ini.content

/-- A setting stays intact where the save goes on for longer. -/
theorem Intact.mono {ini : CIniFile} {n n' : ℕ} {s k : List Char} (h : ini.Intact n s k)
    (hn : n ≤ n') : ini.Intact n' s k := by
  obtain ⟨more, hmore⟩ := wholeLines_mono hn ini.content
  obtain ⟨t, ht⟩ := Option.ne_none_iff_exists'.mp h
  rw [Intact, ← hmore, Query.find_append_of_eq_some ht]
  exact Option.some_ne_none t

/-- What is found in the file that is left, if the setting is not intact. -/
theorem find_take_of_not_intact {ini : CIniFile} {n : ℕ} {s k : List Char}
    (h : ¬ ini.Intact n s k) :
    (ini.TakenFromCut n s k ∧
      (textQuery s k).find (trimmedLines (ini.content.take n)) = some (cutLine n ini.content)) ∨
    (¬ ini.TakenFromCut n s k ∧
      (textQuery s k).find (trimmedLines (ini.content.take n)) = none) := by
  have hnone : (textQuery s k).find (wholeLines n ini.content) = none := not_not.mp h
  have htaken (t : List Char) :
      (textQuery s k).find (wholeLines n ini.content ++ [cutLine n ini.content]) = some t ↔
        ini.TakenFromCut n s k ∧ cutLine n ini.content = t := by
    rw [Query.find_concat_eq_some_iff hnone]
    constructor
    · rintro ⟨hleads, -, hwanted, rfl⟩
      obtain ⟨hty, hkey⟩ := of_decide_eq_true hwanted
      exact ⟨⟨hleads, hty, List.isPrefixOf_iff_prefix.mp hkey⟩, rfl⟩
    · rintro ⟨⟨hleads, hty, hkey⟩, rfl⟩
      refine ⟨hleads, ?_, decide_eq_true ⟨hty, List.isPrefixOf_iff_prefix.mpr hkey⟩, rfl⟩
      exact decide_eq_false fun hsec => LineType.noConfusion (hty.symm.trans hsec)
  rcases trimmedLines_take n ini.content with hlines | ⟨hlines, hnil⟩
  · rw [hlines]
    by_cases hcut : ini.TakenFromCut n s k
    · exact .inl ⟨hcut, (htaken _).mpr ⟨hcut, rfl⟩⟩
    · refine .inr ⟨hcut, Option.eq_none_iff_forall_ne_some.mpr fun t ht => ?_⟩
      exact hcut ((htaken t).mp ht).1
  · -- the file ends behind a whole line
    refine .inr ⟨fun hcut => ?_, hlines ▸ hnone⟩
    exact absurd (hnil ▸ hcut.type) (by decide)

/-- The lines of the file that a save has left. -/
theorem fileLines_saveToFile_of_ne {ini : CIniFile} (hname : ini.mpFileName ≠ [])
    (hlen : ini.mpFileName.length ≤ 255) (files : Files) (n : ℕ) :
    fileLines (ini.saveToFile files (.truncated n) none).2 ini.mpFileName =
        trimmedLines (ini.content.take n) ∧
      fileLines (ini.saveToFile files .complete none).2 ini.mpFileName =
        trimmedLines ini.content := by
  have htake : ini.mpFileName.take 255 = ini.mpFileName := List.take_of_length_le hlen
  constructor <;> simp [fileLines, saveToFile, hname, htake]

/-- **What is read after a save that was interrupted.** A setting whose line was printed whole is
read as from the complete file. Any other one is lost, unless it is looked for up to the line that
was cut, and the part that was printed of that line is a key line with the key: then the part of
its value is read. -/
theorem getString_interrupted {ini : CIniFile} (h : Reachable ini) (hname : ini.mpFileName ≠ [])
    (files : Files) (n : ℕ) (loaded : CIniFile) (s k : List Char) (default : Option (List Char)) :
    let left (outcome : SaveOutcome) :=
      (loaded.loadFromFile (ini.saveToFile files outcome none).2 (some ini.mpFileName)).2
    (ini.Intact n s k → ∃ v, (left (.truncated n)).getString s k default = some v ∧
      (left .complete).getString s k default = some v) ∧
    (¬ ini.Intact n s k → ini.TakenFromCut n s k →
      (left (.truncated n)).getString s k default = some (textValue (cutLine n ini.content)) ∧
        ∃ line, k <+: line ∧ cutLine n ini.content <+: line ∧
          wholeLines n ini.content ++ [line] <+: trimmedLines ini.content) ∧
    (¬ ini.Intact n s k → ¬ ini.TakenFromCut n s k →
      (left (.truncated n)).getString s k default = default) := by
  intro left
  obtain ⟨hcut, hcomplete⟩ := fileLines_saveToFile_of_ne hname h.length_mpFileName files n
  simp only [left, getString_load, hcut, hcomplete]
  refine ⟨fun hintact => ?_, fun hlost htaken => ?_, fun hlost htaken => ?_⟩
  · obtain ⟨t, ht⟩ := Option.ne_none_iff_exists'.mp hintact
    -- the lines printed whole are the first ones of both files
    have hfound {ts : List (List Char)} (hts : wholeLines n ini.content <+: ts) :
        (textQuery s k).find ts = some t := by
      obtain ⟨more, rfl⟩ := hts
      exact Query.find_append_of_eq_some ht more
    refine ⟨textValue t, ?_, ?_⟩
    · rw [hfound, Option.map_some, Option.some_or]
      rcases trimmedLines_take n ini.content with hlines | ⟨hlines, -⟩
      · exact hlines ▸ List.prefix_append _ _
      · exact hlines ▸ List.prefix_rfl
    · rw [hfound (wholeLines_isPrefix n ini.content), Option.map_some, Option.some_or]
  · rcases find_take_of_not_intact hlost with ⟨-, hfind⟩ | ⟨hnot, -⟩
    · obtain ⟨line, hpart, hnil | hnext⟩ := cutLine_isPrefix n ini.content
      · exact absurd (hnil ▸ htaken.type) (by decide)
      · rw [hfind, Option.map_some, Option.some_or]
        exact ⟨rfl, line, htaken.key.trans hpart, hpart, hnext⟩
    · exact absurd htaken hnot
  · rcases find_take_of_not_intact hlost with ⟨htaken', -⟩ | ⟨-, hfind⟩
    · exact absurd htaken' htaken
    · rw [hfind, Option.map_none, Option.none_or]

/-- The save is interrupted in the middle of a value: the key in front is read as it was, and a
value that was never set is read for the last one. -/
theorem getString_interrupted_two_keys :
    let files : Files := fun _ => some "[s]\na=1\nbc=23\n".toList
    let ini := (new.loadFromFile files (some ['f'])).2
    let left (outcome : SaveOutcome) :=
      (new.loadFromFile (ini.saveToFile files outcome none).2 (some ini.mpFileName)).2
    (left (.truncated 14)).getString ['s'] ['a'] none =
        (left .complete).getString ['s'] ['a'] none ∧
      (left (.truncated 14)).getString ['s'] ['b', 'c'] none = some ['2'] := by
  intro files ini left
  have hini : Reachable ini := .load _ _ .new
  have hname : ini.mpFileName ≠ [] := List.cons_ne_nil 'f' []
  have hintact : ini.Intact 14 ['s'] ['a'] := by
    show (textQuery ['s'] ['a']).find (wholeLines 14 ini.content) ≠ none
    decide
  have hlost : ¬ ini.Intact 14 ['s'] ['b', 'c'] := by
    show ¬ (textQuery ['s'] ['b', 'c']).find (wholeLines 14 ini.content) ≠ none
    decide
  have hpasses : (textQuery ['s'] ['b', 'c']).Passes ['a', '=', '1'] := ⟨by decide, by decide⟩
  have htaken : ini.TakenFromCut 14 ['s'] ['b', 'c'] :=
    ⟨⟨[['a', '=', '1']], by decide, by simpa using hpasses⟩, by decide, by decide⟩
  obtain ⟨v, hcut, hcomplete⟩ :=
    (getString_interrupted hini hname files 14 new ['s'] ['a'] none).1 hintact
  obtain ⟨hread, -⟩ :=
    (getString_interrupted hini hname files 14 new ['s'] ['b', 'c'] none).2.1 hlost htaken
  exact ⟨hcut.trans hcomplete.symm, hread.trans (by decide)⟩

end CIniFile
