import Mathlib.Data.List.Forall2
import TvServer.Config.Items

/-!
# Saving and loading again

A saved file is loaded back as the lines that were saved, with a blank line behind each text that
leaves no room for its line end in one read. Together with the refinement of the searches this
makes the ini file in memory, the file on disk and the map of its settings agree over every run.

## Main definitions

* `loadedText`: the text of the line a read becomes
* `rereadText`: the text that a saved text is read back as
* `runCalls`: a run of settings, each one saved
* `Agrees`: the ini file, the saved file and a map of settings agree

## Main results

* `items_load_content`: the saved file has the items of the lines, up to remarks
* `items_load_file`: a file has the items its lines read, up to remarks
* `getString_refines`: reading a value in memory, and reading it from the saved file, is reading
  it from the map of settings, after every run
-/

open Lines Sections

namespace CIniFile

variable {S K : Set (List Char)}

/-! ## Loading -/

/-- The text of the line that a read becomes. -/
def loadedText (lineStr : List Char) : List Char := allTrim (cstr lineStr)

/-- The line that is appended for a text. -/
def loadedLine (addr : ℕ) (str : List Char) : Line :=
  ⟨addr, getLineType str, str, valueStart str⟩

/-- The item that a text is loaded as. -/
def textItem (str : List Char) : IniItem := (loadedLine 0 str).item

theorem allTrim_sublist (str : List Char) :
    (allTrim str).Sublist (str.takeWhile (· ≠ '\n')) := by
  refine List.filter_sublist.trans ?_
  rw [dropTrailingCr]
  split
  · exact List.dropLast_sublist _
  · exact List.Sublist.refl _

theorem loadedText_sublist (lineStr : List Char) : (loadedText lineStr).Sublist lineStr :=
  (allTrim_sublist _).trans ((List.takeWhile_sublist _).trans (List.takeWhile_sublist _))

theorem null_not_mem_loadedText (lineStr : List Char) : '\x00' ∉ loadedText lineStr := fun h =>
  not_mem_cstr lineStr (((allTrim_sublist _).trans (List.takeWhile_sublist _)).mem h)

/-- A read that leaves room in its buffer becomes a text that can be stored. -/
theorem storable_loadedText {lineStr : List Char} (h : lineStr.length < maxIniFileLineLen - 1) :
    Storable (loadedText lineStr) := by
  have hlen := (loadedText_sublist lineStr).length_le
  refine ⟨fun hm => ?_, fun hm => ?_, by omega, by omega⟩
  · simpa using List.mem_takeWhile_imp ((allTrim_sublist _).mem hm)
  · simpa using List.of_mem_filter hm

theorem lineOk_loadedLine {t : List Char} (hnull : '\x00' ∉ t) {i : IniItem}
    (hi : Reads S K t i) (hst : Storable t) (addr : ℕ) : LineOk S K (loadedLine addr t) := by
  have hstr : (loadedLine addr t).str = t := cstr_of_not_mem hnull
  refine ⟨?_, ?_, ?_, ⟨i, ?_⟩, ?_⟩
  · rw [hstr]
    rfl
  · rw [hstr]
    rfl
  · rw [hstr, Line.value]
    exact cstr_of_not_mem fun hm => hnull (List.mem_of_mem_drop hm)
  · rwa [hstr]
  · rwa [hstr]

theorem textItem_eq (hN : Names S K) {t : List Char} (hnull : '\x00' ∉ t) {i : IniItem}
    (hi : Reads S K t i) (hst : Storable t) : textItem t = i := by
  have hstr : (loadedLine 0 t).str = t := cstr_of_not_mem hnull
  exact (lineOk_loadedLine hnull hi hst 0).item_eq hN (hstr.symm ▸ hi)

/-- Loading reads appends the items of their texts. -/
theorem items_foldl_loadLine (cs : List (List Char)) (ini : CIniFile) :
    (cs.foldl loadLine ini).items = ini.items ++ cs.map fun c => textItem (loadedText c) := by
  induction cs generalizing ini with
  | nil => simp
  | cons c cs ih =>
    have hline : (ini.loadLine c).items = ini.items ++ [textItem (loadedText c)] := by
      simp only [items, loadLine, List.map_append, List.map_singleton]
      rfl
    rw [List.foldl_cons, ih, hline, List.append_assoc, List.map_cons, List.singleton_append]

theorem lines_foldl_loadLine (cs : List (List Char)) (ini : CIniFile) {l : Line}
    (hl : l ∈ (cs.foldl loadLine ini).lines) :
    l ∈ ini.lines ∨ ∃ c ∈ cs, ∃ addr, l = loadedLine addr (loadedText c) := by
  induction cs generalizing ini with
  | nil => exact .inl hl
  | cons c cs ih =>
    rcases ih (ini.loadLine c) hl with hl | ⟨d, hd, haddr⟩
    · rcases List.mem_append.mp hl with hl | hl
      · exact .inl hl
      · exact .inr ⟨c, List.mem_cons_self, ini.fresh, List.mem_singleton.mp hl⟩
    · exact .inr ⟨d, List.mem_cons_of_mem _ hd, haddr⟩

/-- Loading a file whose reads are well-formed texts. -/
theorem load_of_reads (ini : CIniFile) {files : Files} {path content : List Char}
    (hfile : files (path.take 255) = some content)
    (hreads : ∀ c ∈ chunks (maxIniFileLineLen - 1) content,
      (∃ i, Reads S K (loadedText c) i) ∧ Storable (loadedText c)) :
    let loaded := (ini.loadFromFile files (some path)).2
    loaded.mpFileName = path.take 255 ∧ (∀ l ∈ loaded.lines, LineOk S K l) ∧
      loaded.items =
        (chunks (maxIniFileLineLen - 1) content).map fun c => textItem (loadedText c) := by
  refine ⟨mpFileName_loadFromFile ini files path, ?_⟩
  simp only [loadFromFile, hfile]
  refine ⟨fun l hl => ?_, by rw [items_foldl_loadLine]; rfl⟩
  rcases lines_foldl_loadLine _ _ hl with hl | ⟨c, hc, addr, rfl⟩
  · cases hl
  · obtain ⟨⟨i, hi⟩, hst⟩ := hreads c hc
    exact lineOk_loadedLine (null_not_mem_loadedText c) hi hst addr

/-! ## Loading a saved file -/

theorem filter_ne_space {t : List Char} : t.filter (· ≠ ' ') = t ↔ ' ' ∉ t := by
  rw [List.filter_eq_self]
  constructor
  · exact fun h hmem => of_decide_eq_true (h ' ' hmem) rfl
  · exact forall_ne_of_not_mem

/-- What is trimmed of the text of a line: its spaces, and a carriage return at its end. -/
theorem allTrim_eq_self_iff {t : List Char} (hlf : '\n' ∉ t) :
    allTrim t = t ↔ ' ' ∉ t ∧ t.getLast? ≠ some '\r' := by
  rw [allTrim, takeWhile_ne_self hlf, dropTrailingCr]
  split
  · rename_i hcr
    refine iff_of_false (fun h => ?_) fun h => h.2 hcr
    have hlen := (congrArg List.length h).symm.le.trans (List.length_filter_le _ _)
    have hne : t ≠ [] := fun he => by simp [he] at hcr
    have hpos := List.length_pos_iff.mpr hne
    rw [List.length_dropLast] at hlen
    omega
  · rename_i hcr
    rw [filter_ne_space, and_iff_left hcr]

/-- The line end of a saved text is trimmed, whether the line feed was read with it or not. -/
theorem allTrim_append_cr {t : List Char} (hlf : '\n' ∉ t) (rest : List Char)
    (hrest : rest = [] ∨ rest = ['\n']) : allTrim (t ++ '\r' :: rest) = t.filter (· ≠ ' ') := by
  -- cut at the line feed, if there is one, the text ends with the carriage return
  have hcut : (t ++ '\r' :: rest).takeWhile (· ≠ '\n') = t ++ ['\r'] := by
    rw [List.takeWhile_append_of_pos (forall_ne_of_not_mem hlf)]
    rcases hrest with rfl | rfl <;> rfl
  rw [allTrim, hcut, dropTrailingCr, if_pos (by simp), List.dropLast_concat]

/-- The text that a saved text is read back as. Where it fills the buffer, its line end is not read
with it, and a carriage return that it ends with is dropped. -/
def rereadText (t : List Char) : List Char :=
  if t.length = maxIniFileLineLen - 1 then allTrim t else t.filter (· ≠ ' ')

theorem rereadText_eq_self_iff {t : List Char} (hlf : '\n' ∉ t) :
    rereadText t = t ↔
      ' ' ∉ t ∧ (t.length = maxIniFileLineLen - 1 → t.getLast? ≠ some '\r') := by
  rw [rereadText]
  split
  · rename_i hmax
    rw [allTrim_eq_self_iff hlf, forall_prop_of_true hmax]
  · rename_i hmax
    rw [filter_ne_space, forall_prop_of_false hmax, and_true]

theorem rereadText_of_storable {t : List Char} (ht : Storable t) : rereadText t = t :=
  (rereadText_eq_self_iff ht.1).mpr ⟨ht.2.1, ht.2.2.2⟩

theorem rereadText_sublist (t : List Char) : (rereadText t).Sublist t := by
  rw [rereadText]
  split
  · exact (allTrim_sublist t).trans (List.takeWhile_sublist _)
  · exact List.filter_sublist

/-- **The reads of a saved text**: the text, and a blank line where its line end did not fit. -/
theorem chunks_saved {t : List Char} (hnull : '\x00' ∉ t) (hlf : '\n' ∉ t)
    (hlen : t.length < maxIniFileLineLen) (rest : List Char) :
    ∃ cs, chunks (maxIniFileLineLen - 1) (t ++ ['\r', '\n'] ++ rest) =
        cs ++ chunks (maxIniFileLineLen - 1) rest ∧
      (cs.map loadedText = [rereadText t] ∨ cs.map loadedText = [rereadText t, []]) := by
  have hcr : '\n' ∉ t ++ ['\r'] := by simp [hlf]
  have hlast : chunks (maxIniFileLineLen - 1) ('\n' :: rest) =
      ['\n'] :: chunks (maxIniFileLineLen - 1) rest :=
    chunks_line List.not_mem_nil (by decide) rest
  rcases Nat.lt_trichotomy (t.length + 1) (maxIniFileLineLen - 1) with hlt | heq | hgt
  · -- the line end is read with the text
    refine ⟨[t ++ ['\r', '\n']], ?_, .inl ?_⟩
    · have hread : chunks (maxIniFileLineLen - 1) (t ++ ['\r'] ++ '\n' :: rest) =
          (t ++ ['\r'] ++ ['\n']) :: chunks (maxIniFileLineLen - 1) rest :=
        chunks_line hcr (by simpa using hlt) rest
      simpa using hread
    · rw [List.map_singleton, loadedText, cstr_of_not_mem (by simp [hnull]),
        allTrim_append_cr hlf _ (.inr rfl), rereadText, if_neg (by omega)]
  · -- the line feed is left to a read of its own
    refine ⟨[t ++ ['\r'], ['\n']], ?_, .inr ?_⟩
    · have hread := chunks_full hcr (by simp) ('\n' :: rest)
      rw [List.length_append, List.length_singleton, heq, hlast] at hread
      simpa using hread
    · rw [List.map_cons, List.map_singleton, loadedText, cstr_of_not_mem (by simp [hnull]),
        allTrim_append_cr hlf [] (.inl rfl), rereadText, if_neg (by omega)]
      rfl
  · -- the text fills the buffer
    have hmax : t.length = maxIniFileLineLen - 1 := by omega
    have hne : t ≠ [] := fun he => by simp [he, maxIniFileLineLen] at hmax
    refine ⟨[t, ['\r', '\n']], ?_, .inr ?_⟩
    · have hread := chunks_full hlf hne ('\r' :: '\n' :: rest)
      have hend : chunks (maxIniFileLineLen - 1) (['\r'] ++ '\n' :: rest) =
          (['\r'] ++ ['\n']) :: chunks (maxIniFileLineLen - 1) rest :=
        chunks_line (by decide) (by decide) rest
      rw [List.singleton_append] at hend
      rw [hmax, hend] at hread
      simpa using hread
    · rw [List.map_cons, List.map_singleton, loadedText, cstr_of_not_mem hnull, rereadText,
        if_pos hmax]
      rfl

theorem storable_nil : Storable [] := ⟨by simp, by simp, by decide, by simp⟩

/-- **The saved file has the items of the lines**, up to remarks. -/
theorem items_load_content (hN : Names S K) {ls : List Line} (hok : ∀ l ∈ ls, LineOk S K l) :
    let cs := chunks (maxIniFileLineLen - 1) (ls.flatMap fun l => l.str ++ ['\r', '\n'])
    (∀ c ∈ cs, (∃ i, Reads S K (loadedText c) i) ∧ Storable (loadedText c)) ∧
      (cs.map fun c => textItem (loadedText c)).filter Item.counts =
        (ls.map Line.item).filter Item.counts := by
  induction ls with
  | nil => exact ⟨by simp, rfl⟩
  | cons l ls ih =>
    rw [List.forall_mem_cons] at hok
    obtain ⟨hreads, hitems⟩ := ih hok.2
    obtain ⟨cs, hcs, htexts⟩ := chunks_saved (LineOk.null_not_mem l) hok.1.storable.1
      hok.1.storable.2.2.1 (ls.flatMap fun l => l.str ++ ['\r', '\n'])
    rw [rereadText_of_storable hok.1.storable] at htexts
    have hitem : textItem l.str = l.item :=
      textItem_eq hN (LineOk.null_not_mem l) (hok.1.reads_item hN) hok.1.storable
    -- each read of this line gives its text or a blank line
    have htext : ∀ c ∈ cs, loadedText c = l.str ∨ loadedText c = [] := by
      intro c hc
      have hmem : loadedText c ∈ cs.map loadedText := List.mem_map_of_mem hc
      rcases htexts with h | h
      · exact .inl (by simpa [h] using hmem)
      · simpa [h] using hmem
    simp only [List.flatMap_cons, hcs]
    constructor
    · intro c hc
      rcases List.mem_append.mp hc with hc | hc
      · rcases htext c hc with h | h
        · rw [h]
          exact ⟨hok.1.reads, hok.1.storable⟩
        · rw [h]
          exact ⟨⟨.remark, .inr rfl⟩, storable_nil⟩
      · exact hreads c hc
    · have hcounts : (cs.map fun c => textItem (loadedText c)).filter Item.counts =
          [l.item].filter Item.counts := by
        rw [← hitem]
        have hmap : (cs.map fun c => textItem (loadedText c)) =
            (cs.map loadedText).map textItem := by rw [List.map_map]; rfl
        rw [hmap]
        rcases htexts with h | h
        · rw [h, List.map_singleton]
        · rw [h]
          exact (List.filter_append [textItem l.str] [textItem []]).trans (List.append_nil _)
      rw [List.map_append, List.filter_append, hitems, hcounts, ← List.filter_append]
      rfl

/-! ## Loading a file -/

theorem takeWhile_append_lf (seg : List Char) :
    (cstr (seg ++ ['\n'])).takeWhile (· ≠ '\n') = (cstr seg).takeWhile (· ≠ '\n') := by
  induction seg with
  | nil => rfl
  | cons c seg ih =>
    simp only [cstr] at ih ⊢
    by_cases hnull : c = '\x00'
    · simp [hnull]
    · by_cases hlf : c = '\n'
      · simp [hlf]
      · simpa [hnull, hlf] using ih

/-- A line is loaded as the same text with and without its line feed. -/
theorem loadedText_append_lf (seg : List Char) : loadedText (seg ++ ['\n']) = loadedText seg := by
  rw [loadedText, allTrim, takeWhile_append_lf, loadedText, allTrim]

theorem counts_of_reads_nil {i : IniItem} (h : Reads S K [] i) : i.counts = false := by
  cases i with
  | header s => exact absurd h.2 (by simp [sectionText])
  | entry k v => exact absurd h.2.1 (by simp [keyText])
  | remark => rfl

theorem items_terminated (hN : Names S K) {segs : List (List Char)} {is : List IniItem}
    (hfit : ∀ seg ∈ segs, seg.length < maxIniFileLineLen - 1)
    (hreads : List.Forall₂ (Reads S K) (segs.map loadedText) is) :
    (∀ c ∈ terminated segs, (∃ i, Reads S K (loadedText c) i) ∧ Storable (loadedText c)) ∧
      ((terminated segs).map fun c => textItem (loadedText c)).filter Item.counts =
        is.filter Item.counts := by
  induction segs generalizing is with
  | nil =>
    cases hreads
    exact ⟨by simp [terminated], rfl⟩
  | cons seg segs ih =>
    rw [List.forall_mem_cons] at hfit
    rw [List.map_cons] at hreads
    obtain ⟨i, is, hi, his, rfl⟩ := List.forall₂_cons_left_iff.mp hreads
    have hst := storable_loadedText hfit.1
    have hitem : textItem (loadedText seg) = i :=
      textItem_eq hN (null_not_mem_loadedText seg) hi hst
    -- the last line has no line feed, and is no line at all if it is empty
    by_cases hlast : segs = []
    · subst hlast
      cases his
      by_cases hseg : seg = []
      · subst hseg
        refine ⟨by simp [terminated], ?_⟩
        simp [terminated, counts_of_reads_nil hi]
      · simp only [terminated, if_neg hseg, List.mem_singleton, forall_eq, List.map_singleton,
          hitem]
        exact ⟨⟨⟨i, hi⟩, hst⟩, trivial⟩
    · obtain ⟨hall, hitems⟩ := ih hfit.2 his
      rw [terminated_cons hlast, List.forall_mem_cons, loadedText_append_lf]
      refine ⟨⟨⟨⟨i, hi⟩, hst⟩, hall⟩, ?_⟩
      rw [List.map_cons, loadedText_append_lf, hitem, List.filter_cons, List.filter_cons, hitems]

/-- **A file has the items its lines read**, up to remarks. -/
theorem items_load_file (hN : Names S K) {content : List Char} {is : List IniItem}
    (hfit : ∀ seg ∈ content.splitOn '\n', seg.length < maxIniFileLineLen - 1)
    (hreads : List.Forall₂ (Reads S K) ((content.splitOn '\n').map loadedText) is) :
    let cs := chunks (maxIniFileLineLen - 1) content
    (∀ c ∈ cs, (∃ i, Reads S K (loadedText c) i) ∧ Storable (loadedText c)) ∧
      (cs.map fun c => textItem (loadedText c)).filter Item.counts = is.filter Item.counts := by
  dsimp only
  rw [chunks_eq_terminated (by decide) content.length (Nat.le_refl _) hfit]
  exact items_terminated hN hfit hreads

/-! ## Runs -/

/-- A value set for a key in a section. -/
structure Setting where
  name : List Char
  key : List Char
  value : List Char

/-- A setting of known names and a plain value, whose lines fit their buffers. -/
def Setting.Fits (S K : Set (List Char)) (c : Setting) : Prop :=
  c.name ∈ S ∧ c.key ∈ K ∧ (∀ ch ∈ c.value, Plain ch) ∧
    (sectionText c.name).length < maxIniFileLineLen ∧
    (keyText c.key c.value).length < maxIniFileLineLen

/-- A map of settings, with one setting made. -/
def Setting.update (m : List Char → List Char → Option (List Char)) (c : Setting) :
    List Char → List Char → Option (List Char) :=
  fun s k => if s = c.name ∧ k = c.key then some c.value else m s k

/-- A run of settings, each of them saved. -/
def runCalls (start : CIniFile × Files) (calls : List Setting) : Option (CIniFile × Files) :=
  calls.foldlM (fun st c => st.1.setString st.2 .complete c.name c.key c.value) start

/-- The ini file in memory, the file on disk and a map of settings agree. -/
structure Agrees (S K : Set (List Char)) (path : List Char)
    (m : List Char → List Char → Option (List Char)) (st : CIniFile × Files) : Prop where
  linked : Linked st.1
  ok : ∀ l ∈ st.1.lines, LineOk S K l
  orphans : NoOrphans st.1.items
  name : st.1.mpFileName = path.take 255
  memory : ∀ s k, lookup s k st.1.items = m s k
  loadOk : ∀ l ∈ (new.loadFromFile st.2 (some path)).2.lines, LineOk S K l
  saved : (new.loadFromFile st.2 (some path)).2.items.filter Item.counts =
    st.1.items.filter Item.counts

theorem agrees_load (hN : Names S K) {files : Files} {path content : List Char}
    (hfile : files (path.take 255) = some content) {is : List IniItem}
    (hfit : ∀ seg ∈ content.splitOn '\n', seg.length < maxIniFileLineLen - 1)
    (hreads : List.Forall₂ (Reads S K) ((content.splitOn '\n').map loadedText) is)
    (horphans : NoOrphans is) :
    Agrees S K path (fun s k => lookup s k is)
      ((new.loadFromFile files (some path)).2, files) := by
  obtain ⟨hall, hitems⟩ := items_load_file hN hfit hreads
  obtain ⟨hname, hok, hloaded⟩ := load_of_reads new hfile hall
  rw [← hloaded] at hitems
  refine ⟨linked_loadFromFile _ _ _, hok, fun k => ?_, hname, lookup_congr hitems, hok, rfl⟩
  rw [← entryIn_filter, hitems, entryIn_filter]
  exact horphans k

theorem agrees_setString (hN : Names S K) {path : List Char} (hpath : path ≠ [])
    {m : List Char → List Char → Option (List Char)} {st : CIniFile × Files}
    (h : Agrees S K path m st) {c : Setting} (hc : c.Fits S K) :
    ∃ st', st.1.setString st.2 .complete c.name c.key c.value = some st' ∧
      Agrees S K path (c.update m) st' := by
  obtain ⟨hs, hk, hv, hname, hkey⟩ := hc
  obtain ⟨ini', hset⟩ := exists_setLines st.1 hname hkey
  obtain ⟨-, hlinked, hfileName⟩ := setLines_cases h.linked hset
  obtain ⟨hitems, hok⟩ := items_setLines hN h.linked h.ok hs hk hv hset
  refine ⟨_, by rw [setString, hset, Option.map_some], ?_⟩
  -- the cut name is not empty, so that the save has a file to go to
  have hnonempty : path.take 255 ≠ [] := by simpa using hpath
  have hfile : (ini'.saveToFile st.2 .complete none).2 (path.take 255) = some ini'.content := by
    simp [saveToFile, hfileName, h.name, hpath]
  obtain ⟨hall, hcontent⟩ := items_load_content hN hok
  obtain ⟨-, hloadOk, hloaded⟩ := load_of_reads new hfile hall
  refine ⟨hlinked, hok, ?_, hfileName.trans h.name, fun s k => ?_, hloadOk, ?_⟩
  · rw [hitems]
    exact noOrphans_set h.orphans _ _ _
  · rw [hitems, lookup_set h.orphans, h.memory, Setting.update]
  · rw [hloaded]
    exact hcontent

/-- **The ini store refines the map of its settings.** Take section names and keys none of which
is a prefix of another, and a file of short lines that are headers, entries or remarks, with no
entry before the first header. After every run of settings, reading a value in memory, and
reading it from the file saved last, is reading it from the map. -/
theorem getString_refines (hN : Names S K) {files : Files} {path content : List Char}
    (hpath : path ≠ []) (hfile : files (path.take 255) = some content) {is : List IniItem}
    (hfit : ∀ seg ∈ content.splitOn '\n', seg.length < maxIniFileLineLen - 1)
    (hreads : List.Forall₂ (Reads S K) ((content.splitOn '\n').map loadedText) is)
    (horphans : NoOrphans is) (calls : List Setting) (hcalls : ∀ c ∈ calls, c.Fits S K) :
    ∃ ini files', runCalls ((new.loadFromFile files (some path)).2, files) calls =
        some (ini, files') ∧
      ∀ s ∈ S, ∀ k ∈ K, ∀ default,
        let value := (calls.foldl Setting.update (fun s k => lookup s k is) s k).or default
        ini.getString s k default = value ∧
          (new.loadFromFile files' (some path)).2.getString s k default = value := by
  -- one step is `agrees_setString`, and agreement carries the induction
  have run : ∀ (calls : List Setting) (st : CIniFile × Files)
      (m : List Char → List Char → Option (List Char)), Agrees S K path m st →
      (∀ c ∈ calls, c.Fits S K) → ∃ st', runCalls st calls = some st' ∧
        Agrees S K path (calls.foldl Setting.update m) st' := by
    intro calls
    induction calls with
    | nil => exact fun st m h _ => ⟨st, rfl, h⟩
    | cons c calls ih =>
      intro st m h hcalls
      rw [List.forall_mem_cons] at hcalls
      obtain ⟨st₁, hst₁, h₁⟩ := agrees_setString hN hpath h hcalls.1
      obtain ⟨st', hst', h'⟩ := ih st₁ _ h₁ hcalls.2
      refine ⟨st', ?_, h'⟩
      rw [runCalls, List.foldlM_cons, hst₁]
      exact hst'
  obtain ⟨⟨ini, files'⟩, hrun, hag⟩ :=
    run calls _ _ (agrees_load hN hfile hfit hreads horphans) hcalls
  refine ⟨ini, files', hrun, fun s hs k hk default => ⟨?_, ?_⟩⟩
  · rw [getString_eq_lookup hN hag.linked hag.ok hs hk, hag.memory]
  · rw [getString_eq_lookup hN (linked_loadFromFile _ _ _) hag.loadOk hs hk,
      lookup_congr hag.saved, hag.memory]

/-- A file with one section and a comment, after an overwriting and a new section. -/
theorem getString_refines_two_sections :
    ∃ (files files' : Files) (ini : CIniFile),
      files ['f'] = some ['[', 'T', 'V', ']', '\r', '\n', '#', '\n', 'k', ' ', '=', '1', '\n'] ∧
      runCalls ((new.loadFromFile files (some ['f'])).2, files)
        [⟨['T', 'V'], ['k'], ['2']⟩, ⟨['A'], ['k'], []⟩] = some (ini, files') ∧
      ini.getString ['T', 'V'] ['k'] none = some ['2'] ∧
      (new.loadFromFile files' (some ['f'])).2.getString ['T', 'V'] ['k'] none = some ['2'] := by
  let content := ['[', 'T', 'V', ']', '\r', '\n', '#', '\n', 'k', ' ', '=', '1', '\n']
  let files : Files := fun _ => some content
  have hfile : files (['f'].take 255) = some content := rfl
  have hN : Names {['T', 'V'], ['A']} {['k']} := by
    refine ⟨?_, ?_, ?_, ?_, ?_⟩ <;> simp [Plain]
  have htexts : (content.splitOn '\n').map loadedText =
      [['[', 'T', 'V', ']'], ['#'], ['k', '=', '1'], []] := by decide
  have hreads : List.Forall₂ (Reads {['T', 'V'], ['A']} {['k']})
      ((content.splitOn '\n').map loadedText)
      [.header ['T', 'V'], .remark, .entry ['k'] ['1'], .remark] := by
    rw [htexts]
    refine .cons ⟨.inl rfl, rfl⟩ (.cons (.inl (by decide)) (.cons ?_ (.cons (.inr rfl) .nil)))
    exact ⟨rfl, rfl, by decide, by decide, by decide⟩
  have hcalls : ∀ c ∈ ([⟨['T', 'V'], ['k'], ['2']⟩, ⟨['A'], ['k'], []⟩] : List Setting),
      c.Fits {['T', 'V'], ['A']} {['k']} := by
    simp only [List.forall_mem_cons, List.not_mem_nil, false_imp_iff, implies_true, and_true]
    exact ⟨⟨.inl rfl, rfl, by simp [Plain], by decide, by decide⟩,
      ⟨.inr rfl, rfl, by simp, by decide, by decide⟩⟩
  obtain ⟨ini, files', hrun, hget⟩ := getString_refines hN (List.cons_ne_nil 'f' []) hfile
    (by decide) hreads (fun _ => rfl) _ hcalls
  obtain ⟨hmem, hsaved⟩ := hget ['T', 'V'] (.inl rfl) ['k'] rfl none
  exact ⟨files, files', ini, rfl, hrun, hmem, hsaved⟩

end CIniFile
