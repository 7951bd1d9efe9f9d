import TvServer.Config.Searches

/-!
# Saving what was loaded

A line in memory is saved as its text with a line end, and read back as one or more trimmed lines,
whatever the other lines are. A text that was read from a file is read back as itself, and perhaps
a blank line, so that a file that was loaded and saved has the same values and the same lines as
before, up to blank lines.

## Main definitions

* `reread t`: the trimmed lines that a saved text is read back as

## Main results

* `trimmedLines_saved`: a saved file is read back line by line
* `reread_trimmedLines`: the lines of a file are read back as themselves
* `load_save_load`: what was loaded and saved is loaded as before
-/

open Lines Search

namespace CIniFile

/-! ## Texts that were read -/

theorem null_not_mem_of_mem_trimmedLines {content t : List Char} (ht : t ∈ trimmedLines content) :
    '\x00' ∉ t := by
  obtain ⟨c, -, rfl⟩ := List.mem_map.mp ht
  exact null_not_mem_loadedText c

/-- A text that fills its buffer was not trimmed, so that it does not end with a carriage
return. -/
theorem storable_of_mem_trimmedLines {content t : List Char} (ht : t ∈ trimmedLines content) :
    Storable t := by
  obtain ⟨c, hc, rfl⟩ := List.mem_map.mp ht
  have hmax : c.length ≤ maxIniFileLineLen - 1 := length_le_of_mem_chunks hc
  have hlen := (loadedText_sublist c).length_le
  refine ⟨fun hm => ?_, fun hm => ?_, ?_, fun hfull hlast => ?_⟩
  · simpa using List.mem_takeWhile_imp ((allTrim_sublist _).mem hm)
  · simpa using List.of_mem_filter hm
  · exact Nat.lt_of_le_of_lt (hlen.trans hmax) (by decide)
  · -- nothing was dropped: neither a space nor a carriage return at the end
    have hcut : ((cstr c).takeWhile (· ≠ '\n')).length ≤ c.length :=
      ((List.takeWhile_sublist _).trans (List.takeWhile_sublist _)).length_le
    have hfilter : loadedText c = dropTrailingCr ((cstr c).takeWhile (· ≠ '\n')) := by
      refine List.filter_sublist.eq_of_length_le ?_
      have hdrop : (dropTrailingCr ((cstr c).takeWhile (· ≠ '\n'))).length ≤
          ((cstr c).takeWhile (· ≠ '\n')).length := by
        rw [dropTrailingCr]
        split
        · exact (List.dropLast_sublist _).length_le
        · exact Nat.le_refl _
      exact hfull ▸ (hdrop.trans hcut).trans hmax
    rw [dropTrailingCr] at hfilter
    split at hfilter
    · rw [hfilter, List.length_dropLast] at hfull
      have hpos : 0 < maxIniFileLineLen - 1 := by decide
      omega
    · rename_i hcr
      rw [hfilter] at hlast
      exact hcr hlast

/-! ## Reading back -/

/-- The trimmed lines that a saved text is read back as. -/
def reread (t : List Char) : List (List Char) := trimmedLines (t ++ ['\r', '\n'])

theorem trimmedLines_append_lf (x rest : List Char) :
    trimmedLines (x ++ '\n' :: rest) = trimmedLines (x ++ ['\n']) ++ trimmedLines rest := by
  have hpos : 0 < maxIniFileLineLen - 1 := by decide
  rw [trimmedLines, chunks_append_lf hpos, List.map_append]
  rfl

theorem trimmedLines_append_crlf (t rest : List Char) :
    trimmedLines (t ++ ['\r', '\n'] ++ rest) = reread t ++ trimmedLines rest := by
  have happ := trimmedLines_append_lf (t ++ ['\r']) rest
  simpa [reread] using happ

/-- The texts of lines as they are saved. -/
def saved (ts : List (List Char)) : List Char := ts.flatMap fun t => t ++ ['\r', '\n']

theorem content_eq_saved (ini : CIniFile) : ini.content = saved (ini.lines.map Line.str) := by
  rw [content, saved, List.flatMap_map]

/-- **What was saved is read back line by line**, also where more of a file follows. -/
theorem trimmedLines_saved (ts : List (List Char)) (rest : List Char) :
    trimmedLines (saved ts ++ rest) = ts.flatMap reread ++ trimmedLines rest := by
  induction ts with
  | nil => rfl
  | cons t ts ih =>
    rw [saved, List.flatMap_cons, List.flatMap_cons, List.append_assoc, trimmedLines_append_crlf,
      ← saved, ih, List.append_assoc]

theorem trimmedLines_content (ini : CIniFile) :
    trimmedLines ini.content = (ini.lines.map Line.str).flatMap reread := by
  have h := trimmedLines_saved (ini.lines.map Line.str) []
  rw [List.append_nil, show trimmedLines [] = [] from rfl, List.append_nil] at h
  rw [content_eq_saved, h]

/-- A saved text is read back as one line, and perhaps a blank one. -/
theorem reread_eq {t : List Char} (hnull : '\x00' ∉ t) (hlf : '\n' ∉ t)
    (hlen : t.length < maxIniFileLineLen) :
    reread t = [rereadText t] ∨ reread t = [rereadText t, []] := by
  obtain ⟨cs, hcs, htexts⟩ := chunks_saved hnull hlf hlen []
  rw [List.append_nil, chunks_nil, List.append_nil] at hcs
  rw [reread, trimmedLines, hcs]
  exact htexts

/-- A text that can be stored is read back as itself, and perhaps a blank line. -/
theorem reread_of_storable {t : List Char} (hnull : '\x00' ∉ t) (ht : Storable t) :
    reread t = [t] ∨ reread t = [t, []] := by
  have hback := reread_eq hnull ht.1 ht.2.2.1
  rwa [rereadText_of_storable ht] at hback

/-- The last line of a file, if it fits a read. -/
theorem trimmedLines_last {t : List Char} (hlf : '\n' ∉ t) (hne : t ≠ [])
    (hlen : t.length ≤ maxIniFileLineLen - 1) : trimmedLines t = [loadedText t] := by
  rw [trimmedLines, chunks_eq_cons (by decide) hne, fgets_last hlf hlen, chunks_nil]
  rfl

/-- A text is read back as the same line where its line feed is missing. -/
theorem trimmedLines_append_cr {t : List Char} (hnull : '\x00' ∉ t) (hlf : '\n' ∉ t)
    (hlen : t.length < maxIniFileLineLen) :
    trimmedLines (t ++ ['\r']) = [rereadText t] ∨
      trimmedLines (t ++ ['\r']) = [rereadText t, []] := by
  by_cases hmax : t.length = maxIniFileLineLen - 1
  · have hne : t ≠ [] := fun he => by simp [he, maxIniFileLineLen] at hmax
    have hread := chunks_full hlf hne ['\r']
    rw [hmax] at hread
    refine .inr ?_
    rw [trimmedLines, hread, List.map_cons, loadedText, cstr_of_not_mem hnull, rereadText,
      if_pos hmax]
    rfl
  · refine .inl ?_
    rw [trimmedLines_last (by simp [hlf]) (by simp) (by simp; omega), loadedText,
      cstr_of_not_mem (by simp [hnull]), allTrim_append_cr hlf [] (.inl rfl), rereadText,
      if_neg hmax]

/-- Whether a text is not blank. -/
def nonBlank (t : List Char) : Bool := t ≠ []

/-- Blank lines do not count in a search. -/
theorem textQuery_passes_of_blank (name key : List Char) {t : List Char}
    (ht : nonBlank t = false) : (textQuery name key).Passes t := by
  obtain rfl : t = [] := by simpa [nonBlank] using ht
  exact ⟨rfl, rfl⟩

/-- **The lines of a file are read back as themselves**, up to blank lines. -/
theorem reread_trimmedLines (content : List Char) :
    ((trimmedLines content).flatMap reread).filter nonBlank =
      (trimmedLines content).filter nonBlank := by
  have hall : ∀ ts : List (List Char), (∀ t ∈ ts, t ∈ trimmedLines content) →
      (ts.flatMap reread).filter nonBlank = ts.filter nonBlank := by
    intro ts
    induction ts with
    | nil => exact fun _ => rfl
    | cons t ts ih =>
      intro hts
      rw [List.forall_mem_cons] at hts
      have hback := reread_of_storable (null_not_mem_of_mem_trimmedLines hts.1)
        (storable_of_mem_trimmedLines hts.1)
      have hhead : (reread t).filter nonBlank = [t].filter nonBlank := by
        rcases hback with h | h
        · rw [h]
        · rw [h]
          exact (List.filter_append [t] [[]]).trans (List.append_nil _)
      rw [List.flatMap_cons, List.filter_append, hhead, ih hts.2, ← List.filter_append]
      rfl
  exact hall _ fun _ ht => ht

/-! ## Loading what was saved -/

/-- The file that a save leaves: what was printed, or the file as it was where there is no name to
save to. -/
theorem fileLines_saveToFile (ini : CIniFile) (files : Files) (filename : Option (List Char))
    (hname : (filename.getD ini.mpFileName).length ≤ 255) :
    fileLines (ini.saveToFile files .complete filename).2 (filename.getD ini.mpFileName) =
      if filename = none ∧ ini.mpFileName = [] then fileLines files []
      else trimmedLines ini.content := by
  have htake := List.take_of_length_le hname
  rw [fileLines, htake, saveToFile]
  split_ifs with hnone
  · obtain ⟨rfl, hnil⟩ := hnone
    rw [Option.getD_none, hnil]
    rfl
  · simp

/-- **Loading, saving and loading again is loading once.** Whatever the file holds, the file that
is saved, to its own name or to another one that a load takes whole, has the same value for every
key of every section, and the same lines with the same types, up to blank lines. -/
theorem load_save_load (ini ini' : CIniFile) (files : Files) (path : List Char)
    {filename : Option (List Char)} (hfilename : ∀ name ∈ filename, name.length ≤ 255) :
    let a := (ini.loadFromFile files (some path)).2
    let b := (ini'.loadFromFile (a.saveToFile files .complete filename).2
      (some (filename.getD a.mpFileName))).2
    (∀ name key default, b.getString name key default = a.getString name key default) ∧
      (b.lines.filter fun l => nonBlank l.str).map (fun l => (l.str, l.type)) =
        (a.lines.filter fun l => nonBlank l.str).map fun l => (l.str, l.type) := by
  intro a b
  obtain ⟨ha, hatype⟩ := lines_load ini files path
  obtain ⟨hb, hbtype⟩ := lines_load ini' (a.saveToFile files .complete filename).2
    (filename.getD a.mpFileName)
  have hname : a.mpFileName = path.take 255 := mpFileName_loadFromFile ini files path
  have hlen : (filename.getD a.mpFileName).length ≤ 255 := by
    cases filename with
    | some name => exact hfilename name rfl
    | none =>
      rw [Option.getD_none, hname, List.length_take]
      exact Nat.min_le_left _ _
  -- the two loads read the same lines, up to blank ones
  have hlines : (b.lines.map Line.str).filter nonBlank =
      (a.lines.map Line.str).filter nonBlank := by
    rw [ha, hb, fileLines_saveToFile a files filename hlen]
    split
    · rename_i hnone
      have hpath : path.take 255 = [] := hname.symm.trans hnone.2
      rw [fileLines, fileLines, hpath, List.take_nil]
    · rw [trimmedLines_content, ha, fileLines]
      cases files (path.take 255) with
      | none => rfl
      | some content => exact reread_trimmedLines content
  constructor
  · intro name key default
    have hfind := Query.find_congr_filter (q := textQuery name key)
      (fun t ht => textQuery_passes_of_blank name key ht) hlines
    rw [getString_eq_find (linked_loadFromFile _ _ _), find_of_asLoaded hbtype, hfind,
      getString_eq_find (linked_loadFromFile _ _ _), find_of_asLoaded hatype]
  · -- the type of a line is that of its text
    have htypes : ∀ ls : List Line, (∀ l ∈ ls, AsLoaded l) →
        (ls.filter fun l => nonBlank l.str).map (fun l => (l.str, l.type)) =
          ((ls.map Line.str).filter nonBlank).map fun t => (t, getLineType t) := by
      intro ls hls
      rw [List.filter_map, List.map_map]
      refine List.map_congr_left fun l hl => ?_
      exact Prod.ext rfl (hls l (List.mem_of_mem_filter hl)).type
    rw [htypes _ hbtype, hlines, htypes _ hatype]

/-- A file that is saved under another name. -/
theorem load_save_load_copy :
    let files : Files := Function.update (fun _ => none) ['f'] (some "[A]\nk=1".toList)
    let a := (new.loadFromFile files (some ['f'])).2
    let copied := (a.saveToFile files .complete (some ['g'])).2
    copied ['g'] = some "[A]\r\nk=1\r\n".toList ∧
      ∀ default, (new.loadFromFile copied (some ['g'])).2.getString ['A'] ['k'] default =
        some ['1'] := by
  intro files a copied
  have hname : ∀ name ∈ some ['g'], name.length ≤ 255 := by simp
  refine ⟨by decide +kernel, fun default => ?_⟩
  exact ((load_save_load new new files ['f'] hname).1 ['A'] ['k'] default).trans (by rfl)

end CIniFile
