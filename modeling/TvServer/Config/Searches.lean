import TvServer.Config.Reload
import TvServer.Foundations.Search

/-!
# Reading a value as a search

Reading a value is a search in the lines: for the first section line whose name starts with the
one given, and in its section for the first key line that starts with the key. In a file that was
just loaded the types and values of the lines are those of their texts, so that it is a search in
the trimmed lines of the file.

## Main definitions

* `lineQuery`, `textQuery`: the search in the lines, and in their texts
* `AsLoaded`: the type and the value of a line are those of its text
* `LoadedOk`: the text of a line fits its read, and the value of a key line starts in it
* `trimmedLines`, `fileLines`: the lines of a file as they are read

## Main results

* `getString_eq_find`: reading a value is a search in the lines
* `getString_load`: in a loaded file it is a search in the trimmed lines
-/

open Lines Search

namespace CIniFile

/-- The search for a key in a section, in the lines. -/
def lineQuery (name key : List Char) : Query Line where
  opens l := l.type = .lineTypeSection
  named l := isSectionNamed name l
  wanted l := l.type = .lineTypeKey ∧ key.isPrefixOf l.str

/-- The search for a key in a section, in the texts of the lines. -/
def textQuery (name key : List Char) : Query (List Char) where
  opens t := getLineType t = .lineTypeSection
  named t := name.isPrefixOf (t.drop 1)
  wanted t := getLineType t = .lineTypeKey ∧ key.isPrefixOf t

/-- The value in the text of a line. -/
def textValue (t : List Char) : List Char := t.drop (valueStart t)

/-! ## Lines -/

theorem keyLineIn_eq_inSection (name key : List Char) (ls : List Line) :
    keyLineIn key ls = (lineQuery name key).inSection ls := by
  induction ls with
  | nil => rfl
  | cons l ls ih =>
    rw [keyLineIn, Query.inSection, ih]
    cases hty : l.type <;> simp [lineQuery, hty]

theorem misses_iff {name key : List Char} {l : Line} :
    (lineQuery name key).Misses l ↔ Misses name l := by
  simp [Query.Misses, Misses, lineQuery]

theorem passes_iff {name key : List Char} {l : Line} :
    (lineQuery name key).Passes l ↔ Passes key l := by
  simp [Query.Passes, Passes, lineQuery, ← Bool.not_eq_true]

/-- **Reading a value is a search in the lines.** -/
theorem getString_eq_find {ini : CIniFile} (h : Linked ini) (name key : List Char)
    (default : Option (List Char)) : ini.getString name key default =
      (((lineQuery name key).find ini.lines).map Line.value).or default := by
  rw [getString]
  rcases getSection_cases h name with
    ⟨hnone, hmiss⟩ | ⟨pre, hdr, post, he, hmiss, hty, hnamed, hsome, hafter⟩
  · have hmiss' : ∀ l ∈ ini.lines, (lineQuery name key).Misses l := fun l hl =>
      misses_iff.mpr (hmiss l hl)
    rw [hnone, Query.find, Query.behind_eq_none hmiss']
    rfl
  · have hmiss' : ∀ l ∈ pre, (lineQuery name key).Misses l := fun l hl =>
      misses_iff.mpr (hmiss l hl)
    have hopens : (lineQuery name key).opens hdr = true := decide_eq_true hty
    rw [hsome, he, Query.find_append hmiss', Query.find_cons hopens hnamed,
      ← keyLineIn_eq_inSection]
    simp only [getKeyLineAtSec, hafter]
    cases keyLineIn key post <;> rfl

/-! ## Loaded lines -/

/-- The type and the value of a line are those of its text. -/
structure AsLoaded (l : Line) : Prop where
  type : l.type = getLineType l.str
  value : l.value = textValue l.str

/-- The text of a line fits its read, and the value of a key line starts in the text, behind the
first equals sign. -/
structure LoadedOk (l : Line) : Prop where
  length : l.str.length ≤ maxIniFileLineLen - 1
  value : l.type = .lineTypeKey →
    '=' ∈ l.str ∧ l.pValueStart = l.str.idxOf '=' + 1 ∧ l.pValueStart ≤ l.str.length

/-- In lines as they were loaded, the search is one in the texts. -/
theorem find_of_asLoaded {ls : List Line} (h : ∀ l ∈ ls, AsLoaded l) (name key : List Char) :
    ((lineQuery name key).find ls).map Line.value =
      ((textQuery name key).find (ls.map Line.str)).map textValue := by
  have hcongr : (lineQuery name key).find ls = ((textQuery name key).comap Line.str).find ls := by
    rw [Query.find, Query.find]
    have hbehind : (lineQuery name key).behind ls =
        ((textQuery name key).comap Line.str).behind ls := by
      refine Query.behind_congr fun l hl => ⟨?_, rfl⟩
      simp [lineQuery, textQuery, Query.comap, (h l hl).type]
    rw [← hbehind]
    rcases (lineQuery name key).behind_cases ls with
      ⟨hnone, -⟩ | ⟨pre, hdr, post, rfl, -, -, -, hsome⟩
    · rw [hnone]
      rfl
    · rw [hsome]
      refine Query.inSection_congr fun l hl => ?_
      have hl' := (h l (List.mem_append_right _ (List.mem_cons_of_mem _ hl))).type
      simp [lineQuery, textQuery, Query.comap, hl']
  rw [Query.find_map, hcongr, Option.map_map]
  cases hf : ((textQuery name key).comap Line.str).find ls with
  | none => rfl
  | some l =>
    obtain ⟨pre, hdr, mid, post, rfl, -⟩ := Query.find_eq_some_iff.mp hf
    exact congrArg some (h l (by simp)).value

theorem str_loadedLine {t : List Char} (hnull : '\x00' ∉ t) (addr : ℕ) :
    (loadedLine addr t).str = t :=
  cstr_of_not_mem hnull

theorem asLoaded_loadedLine {t : List Char} (hnull : '\x00' ∉ t) (addr : ℕ) :
    AsLoaded (loadedLine addr t) := by
  refine ⟨?_, ?_⟩
  · rw [str_loadedLine hnull]
    rfl
  · rw [str_loadedLine hnull, Line.value]
    exact cstr_of_not_mem fun hm => hnull (List.mem_of_mem_drop hm)

/-- The lines of a file, trimmed, as they are read. -/
def trimmedLines (content : List Char) : List (List Char) :=
  (chunks (maxIniFileLineLen - 1) content).map loadedText

theorem str_foldl_loadLine (cs : List (List Char)) (ini : CIniFile) :
    (cs.foldl loadLine ini).lines.map Line.str =
      ini.lines.map Line.str ++ cs.map loadedText := by
  induction cs generalizing ini with
  | nil => simp
  | cons c cs ih =>
    have hline : (ini.loadLine c).lines.map Line.str =
        ini.lines.map Line.str ++ [loadedText c] := by
      simp only [loadLine, List.map_append, List.map_singleton]
      exact congrArg (_ ++ [·]) (str_loadedLine (null_not_mem_loadedText c) ini.fresh)
    rw [List.foldl_cons, ih, hline, List.append_assoc, List.map_cons, List.singleton_append]

/-- What a file is loaded as: its trimmed lines, with the types and values of their texts. -/
theorem lines_loadFromFile (ini : CIniFile) {files : Files} {path content : List Char}
    (hfile : files (path.take 255) = some content) :
    let loaded := (ini.loadFromFile files (some path)).2
    loaded.lines.map Line.str = trimmedLines content ∧ ∀ l ∈ loaded.lines, AsLoaded l := by
  simp only [loadFromFile, hfile]
  refine ⟨by rw [str_foldl_loadLine]; rfl, fun l hl => ?_⟩
  rcases lines_foldl_loadLine _ _ hl with hl | ⟨c, -, addr, rfl⟩
  · cases hl
  · exact asLoaded_loadedLine (null_not_mem_loadedText c) addr

theorem loadedOk_loadedLine {lineStr : List Char}
    (hlen : lineStr.length ≤ maxIniFileLineLen - 1) (addr : ℕ) :
    LoadedOk (loadedLine addr (loadedText lineStr)) := by
  have hstr := str_loadedLine (null_not_mem_loadedText lineStr) addr
  refine ⟨?_, fun hty => ?_⟩
  · rw [hstr]
    exact (loadedText_sublist lineStr).length_le.trans hlen
  · rw [hstr]
    generalize loadedText lineStr = t at hty
    have hkey : getLineType t = .lineTypeKey := hty
    have hmem : '=' ∈ t := by
      rw [getLineType] at hkey
      split_ifs at hkey with _ _ heq
      exact heq
    have hstart : valueStart t = t.idxOf '=' + 1 := by rw [valueStart, hkey]
    exact ⟨hmem, hstart, hstart.trans_le (List.idxOf_lt_length_of_mem hmem)⟩

/-- **The lines of a file just loaded** fit their reads. -/
theorem loadedOk_loadFromFile (ini : CIniFile) (files : Files) (filename : Option (List Char)) :
    ∀ l ∈ (ini.loadFromFile files filename).2.lines, LoadedOk l := by
  intro l hl
  cases filename with
  | none => cases hl
  | some filename =>
    rw [loadFromFile] at hl
    dsimp only at hl
    split at hl
    · cases hl
    · rcases lines_foldl_loadLine _ _ hl with hl | ⟨c, hc, addr, rfl⟩
      · cases hl
      · exact loadedOk_loadedLine (length_le_of_mem_chunks hc) addr

/-- The trimmed lines of a file, if there is one. -/
def fileLines (files : Files) (path : List Char) : List (List Char) :=
  ((files (path.take 255)).map trimmedLines).getD []

/-- What a file is loaded as, whether or not it is there. -/
theorem lines_load (ini : CIniFile) (files : Files) (path : List Char) :
    let loaded := (ini.loadFromFile files (some path)).2
    loaded.lines.map Line.str = fileLines files path ∧ ∀ l ∈ loaded.lines, AsLoaded l := by
  cases hfile : files (path.take 255) with
  | none => simp [loadFromFile, fileLines, freeAllMem, hfile]
  | some content =>
    rw [fileLines, hfile]
    exact lines_loadFromFile ini hfile

/-- **Reading a value from a loaded file** is a search in its trimmed lines. -/
theorem getString_load (ini : CIniFile) (files : Files) (path name key : List Char)
    (default : Option (List Char)) :
    (ini.loadFromFile files (some path)).2.getString name key default =
      (((textQuery name key).find (fileLines files path)).map textValue).or default := by
  obtain ⟨hlines, hloaded⟩ := lines_load ini files path
  rw [getString_eq_find (linked_loadFromFile _ _ _), find_of_asLoaded hloaded, hlines]

end CIniFile
