import Mathlib.Data.List.Find
import Mathlib.Data.List.Nodup
import Mathlib.Data.List.Perm.Basic
import TvServer.Config.IniFile

/-!
# The two lists of an ini file

The section list points to the section lines of the line list, in their order, in every ini file
that was loaded and then changed by any calls. Under this invariant the searches, which follow
pointers from one list into the other, are searches in the line list alone, and what setting a
value does to the line list is said once.

## Main definitions

* `Linked`: different lines have different addresses, and the section list points to the section
  lines
* `SetStep`: what setting a value does to the line list

## Main results

* `linked_loadFromFile`: loading establishes the invariant
* `getSection_cases`: where the search for a section stops
* `setLines_cases`: the three ways to set a value, which keep the invariant
-/

namespace CIniFile

/-- Different lines have different addresses, all of them allocated, and the section list points
to the section lines in their order. -/
structure Linked (ini : CIniFile) : Prop where
  nodup : (ini.lines.map Line.addr).Nodup
  fresh : ∀ l ∈ ini.lines, l.addr < ini.fresh
  sections : ini.sections =
    (ini.lines.filter fun l => l.type = .lineTypeSection).map Line.addr

/-! ## Loading -/

theorem linked_loadLine {ini : CIniFile} (h : Linked ini) (lineStr : List Char) :
    Linked (ini.loadLine lineStr) := by
  have hnew : ini.fresh ∉ ini.lines.map Line.addr := by
    intro hmem
    obtain ⟨l, hl, he⟩ := List.mem_map.mp hmem
    exact absurd he (Nat.ne_of_lt (h.fresh l hl))
  refine ⟨?_, ?_, ?_⟩
  · rw [loadLine, List.map_append, List.map_singleton]
    exact List.concat_eq_append ▸ h.nodup.concat hnew
  · intro l hl
    rcases List.mem_append.mp hl with hl | hl
    · exact Nat.lt_succ_of_lt (h.fresh l hl)
    · obtain rfl := List.mem_singleton.mp hl
      exact Nat.lt_succ_self _
  · simp only [loadLine, List.filter_append, List.map_append, ← h.sections]
    cases hty : getLineType (allTrim (Lines.cstr lineStr)) <;> simp

theorem linked_loadFromFile (ini : CIniFile) (files : Files) (filename : Option (List Char)) :
    Linked (ini.loadFromFile files filename).2 := by
  have hempty : ∀ name, Linked { ini.freeAllMem with mpFileName := name } := fun name =>
    ⟨List.nodup_nil, by simp [freeAllMem], rfl⟩
  -- the loop, from any ini file whose lists are linked
  have hlines : ∀ (chunks : List (List Char)) (start : CIniFile), Linked start →
      Linked (chunks.foldl loadLine start) := by
    intro chunks
    induction chunks with
    | nil => exact fun _ h => h
    | cons c cs ih => exact fun start h => ih _ (linked_loadLine h c)
  cases filename with
  | none => exact hempty ini.mpFileName
  | some name =>
    rw [loadFromFile]
    dsimp only
    split
    · exact hempty _
    · exact hlines _ _ (hempty _)

/-- Loading keeps the name of the file, cut to its buffer. -/
theorem mpFileName_loadFromFile (ini : CIniFile) (files : Files) (path : List Char) :
    (ini.loadFromFile files (some path)).2.mpFileName = path.take 255 := by
  have hname : ∀ (cs : List (List Char)) (start : CIniFile),
      (cs.foldl loadLine start).mpFileName = start.mpFileName := by
    intro cs
    induction cs with
    | nil => exact fun _ => rfl
    | cons c cs ih => exact fun start => ih _
  rw [loadFromFile]
  dsimp only
  split
  · rfl
  · exact hname _ _

/-! ## Following the pointers -/

theorem deref_of_mem {ini : CIniFile} (h : Linked ini) {l : Line} (hl : l ∈ ini.lines) :
    ini.deref l.addr = some l := by
  obtain ⟨pre, post, he⟩ := List.append_of_mem hl
  -- no line in front has the address, so that the search stops at the line itself
  have hnd := h.nodup
  rw [he, List.map_append, List.map_cons, List.nodup_append] at hnd
  rw [deref, he, List.find?_append, List.find?_eq_none.mpr ?_, Option.none_or]
  · simp
  · intro p hp
    simpa using hnd.2.2 p.addr (List.mem_map_of_mem hp) l.addr List.mem_cons_self

/-- The search of the section list is a search of the line list for a section line. -/
theorem getSection_eq {ini : CIniFile} (h : Linked ini) (name : List Char) :
    ini.getSection name =
      (ini.lines.find? fun l => l.type = .lineTypeSection ∧ isSectionNamed name l).map
        Line.addr := by
  rw [getSection, h.sections, List.find?_map, List.find?_filter]
  refine congrArg _ (List.find?_congr fun l hl => ?_)
  simp [deref_of_mem h hl]

/-- The addresses on both sides of a line differ from its own. -/
theorem Linked.addr_ne {ini : CIniFile} (h : Linked ini) {pre post : List Line} {l : Line}
    (he : ini.lines = pre ++ l :: post) :
    (∀ p ∈ pre, p.addr ≠ l.addr) ∧ ∀ p ∈ post, p.addr ≠ l.addr := by
  have hnd := h.nodup
  rw [he, List.map_append, List.map_cons, List.nodup_append, List.nodup_cons] at hnd
  obtain ⟨-, ⟨hpost, -⟩, hpre⟩ := hnd
  exact ⟨fun p hp => hpre _ (List.mem_map_of_mem hp) _ List.mem_cons_self,
    fun p hp hep => hpost (hep ▸ List.mem_map_of_mem hp)⟩

theorem linesAfter_of_split {ini : CIniFile} (h : Linked ini) {pre post : List Line} {hdr : Line}
    (he : ini.lines = pre ++ hdr :: post) : ini.linesAfter hdr.addr = post := by
  have hnd := h.nodup
  rw [he, List.map_append, List.map_cons, List.nodup_append] at hnd
  rw [linesAfter, he, List.dropWhile_append_of_pos]
  · simp
  · intro p hp
    simpa using hnd.2.2 p.addr (List.mem_map_of_mem hp) hdr.addr List.mem_cons_self

/-- The lines of a section that the search for its name passes by. -/
def Misses (name : List Char) (l : Line) : Prop :=
  l.type = .lineTypeSection → isSectionNamed name l = false

/-- **Where the search for a section stops**: at the first section line named so, and the
pointer found leads to the lines behind it. -/
theorem getSection_cases {ini : CIniFile} (h : Linked ini) (name : List Char) :
    (ini.getSection name = none ∧ ∀ l ∈ ini.lines, Misses name l) ∨
    ∃ pre hdr post, ini.lines = pre ++ hdr :: post ∧ (∀ l ∈ pre, Misses name l) ∧
      hdr.type = .lineTypeSection ∧ isSectionNamed name hdr = true ∧
      ini.getSection name = some hdr.addr ∧ ini.linesAfter hdr.addr = post := by
  rw [getSection_eq h]
  cases hf : ini.lines.find? fun l => l.type = .lineTypeSection ∧ isSectionNamed name l with
  | none =>
    refine .inl ⟨rfl, fun l hl hty => ?_⟩
    simpa [hty] using List.find?_eq_none.mp hf l hl
  | some hdr =>
    obtain ⟨hp, pre, post, he, hpre⟩ := List.find?_eq_some_iff_append.mp hf
    obtain ⟨hty, hnamed⟩ := of_decide_eq_true hp
    refine .inr ⟨pre, hdr, post, he, fun l hl hty => ?_, hty, hnamed, rfl,
      linesAfter_of_split h he⟩
    simpa [hty] using hpre l hl

theorem getSection_eq_none_iff {ini : CIniFile} (h : Linked ini) (name : List Char) :
    ini.getSection name = none ↔ ∀ l ∈ ini.lines, Misses name l := by
  rcases getSection_cases h name with
    ⟨hnone, hmiss⟩ | ⟨pre, hdr, post, he, -, hty, hnamed, hsome, -⟩
  · exact iff_of_true hnone hmiss
  · refine iff_of_false (by simp [hsome]) fun hmiss => ?_
    have hnot := hmiss hdr (by simp [he]) hty
    exact Bool.false_ne_true (hnot.symm.trans hnamed)

/-- When the search for a section stops at a given section line. -/
theorem getSection_eq_some_iff {ini : CIniFile} (h : Linked ini) {pre post : List Line}
    {hdr : Line} (he : ini.lines = pre ++ hdr :: post) (hty : hdr.type = .lineTypeSection)
    (name : List Char) : ini.getSection name = some hdr.addr ↔
      (∀ l ∈ pre, Misses name l) ∧ isSectionNamed name hdr = true := by
  obtain ⟨hpre, hpost⟩ := h.addr_ne he
  rw [getSection_eq h, he, List.find?_append]
  cases hfound : pre.find? fun l => l.type = .lineTypeSection ∧ isSectionNamed name l with
  | some l =>
    -- it stops in front, at another address
    have hl := List.find?_some hfound
    have hmem := List.mem_of_find?_eq_some hfound
    obtain ⟨hlty, hlnamed⟩ := of_decide_eq_true hl
    refine iff_of_false (fun hs => ?_) fun hmiss => ?_
    · exact hpre l hmem (Option.some.inj hs)
    · exact Bool.false_ne_true ((hmiss.1 l hmem hlty).symm.trans hlnamed)
  | none =>
    have hmiss : ∀ l ∈ pre, Misses name l := fun l hl hlty => by
      simpa [hlty] using List.find?_eq_none.mp hfound l hl
    rw [Option.none_or]
    by_cases hnamed : isSectionNamed name hdr = true
    · exact iff_of_true (by simp [hty, hnamed]) ⟨hmiss, hnamed⟩
    · refine iff_of_false (fun hs => ?_) fun hm => hnamed hm.2
      rw [List.find?_cons_of_neg (by simp [hnamed])] at hs
      obtain ⟨l, hl, hle⟩ := Option.map_eq_some_iff.mp hs
      exact hpost l (List.mem_of_find?_eq_some hl) hle

/-- The lines that the search for a key passes by. -/
def Passes (key : List Char) (l : Line) : Prop :=
  l.type ≠ .lineTypeSection ∧ (l.type = .lineTypeKey → key.isPrefixOf l.str = false)

/-- Where the search for a key stops: at the first key line that starts with it. -/
theorem keyLineIn_eq_some {key : List Char} {ls : List Line} {l : Line}
    (h : keyLineIn key ls = some l) :
    ∃ pre post, ls = pre ++ l :: post ∧ (∀ p ∈ pre, Passes key p) ∧ l.type = .lineTypeKey ∧
      key.isPrefixOf l.str = true := by
  induction ls with
  | nil => cases h
  | cons p ls ih =>
    -- a line passed by is put in front of what the rest of the list gives
    have skip (hp : Passes key p) (hl : keyLineIn key ls = some l) :
        ∃ pre post, p :: ls = pre ++ l :: post ∧ (∀ q ∈ pre, Passes key q) ∧
          l.type = .lineTypeKey ∧ key.isPrefixOf l.str = true := by
      obtain ⟨pre, post, rfl, hpre, hl⟩ := ih hl
      exact ⟨p :: pre, post, rfl, List.forall_mem_cons.mpr ⟨hp, hpre⟩, hl⟩
    rw [keyLineIn] at h
    split at h
    · cases h
    · rename_i hty
      split at h
      · rename_i hpfx
        obtain rfl := Option.some.inj h
        exact ⟨[], ls, rfl, by simp, hty, hpfx⟩
      · rename_i hpfx
        exact skip ⟨by simp [hty], fun _ => Bool.eq_false_iff.mpr hpfx⟩ h
    · rename_i hty
      exact skip ⟨by simp [hty], by simp [hty]⟩ h

/-! ## Setting a value -/

/-- A section line with the text for a name. -/
structure NewSectionLine (name : List Char) (l : Line) : Prop where
  type : l.type = .lineTypeSection
  text : sprintfText [] (sectionText name) = some l.text
  pValueStart : l.pValueStart = 0

/-- A key line with the text for a key and a value. -/
structure NewKeyLine (key value : List Char) (l : Line) : Prop where
  type : l.type = .lineTypeKey
  text : sprintfText [] (keyText key value) = some l.text
  pValueStart : l.pValueStart = key.length + 1

/-- What setting a value does to the line list: a new section is put in front, a new key line
behind its section line, and the first line of a key is rewritten where it stands. -/
inductive SetStep (name key value : List Char) : List Line → List Line → Prop where
  | newSection {lines : List Line} {sec line : Line} (hmiss : ∀ l ∈ lines, Misses name l)
      (hsec : NewSectionLine name sec) (hline : NewKeyLine key value line) :
      SetStep name key value lines (sec :: line :: lines)
  | newKey {pre post : List Line} {hdr line : Line} (hmiss : ∀ l ∈ pre, Misses name l)
      (htype : hdr.type = .lineTypeSection) (hnamed : isSectionNamed name hdr = true)
      (hnone : keyLineIn key post = none) (hline : NewKeyLine key value line) :
      SetStep name key value (pre ++ hdr :: post) (pre ++ hdr :: line :: post)
  | rewrite {pre mid post : List Line} {hdr line : Line} {text : List Char}
      (hmiss : ∀ l ∈ pre, Misses name l) (htype : hdr.type = .lineTypeSection)
      (hnamed : isSectionNamed name hdr = true) (hpass : ∀ l ∈ mid, Passes key l)
      (hkey : line.type = .lineTypeKey) (hpfx : key.isPrefixOf line.str = true)
      (htext : sprintfText line.text (keyText key value) = some text) :
      SetStep name key value (pre ++ hdr :: (mid ++ line :: post))
        (pre ++ hdr :: (mid ++ { line with text := text } :: post))

theorem linkAfter_of_split {pre post : List Line} {hdr : Line}
    (hpre : ∀ l ∈ pre, l.addr ≠ hdr.addr) (line : Line) :
    linkAfter hdr.addr line (pre ++ hdr :: post) = pre ++ hdr :: line :: post := by
  induction pre with
  | nil => simp [linkAfter]
  | cons l ls ih =>
    rw [List.forall_mem_cons] at hpre
    rw [List.cons_append, linkAfter, if_neg hpre.1, ih hpre.2, List.cons_append]

theorem map_rewrite_of_split {pre post : List Line} {line : Line} (text : List Char)
    (hpre : ∀ l ∈ pre, l.addr ≠ line.addr) (hpost : ∀ l ∈ post, l.addr ≠ line.addr) :
    (pre ++ line :: post).map (fun l => if l.addr = line.addr then { l with text := text } else l) =
      pre ++ { line with text := text } :: post := by
  have keep (ls : List Line) (h : ∀ l ∈ ls, l.addr ≠ line.addr) :
      ls.map (fun l => if l.addr = line.addr then { l with text := text } else l) = ls := by
    conv_rhs => rw [← List.map_id ls]
    exact List.map_congr_left fun l hl => if_neg (h l hl)
  rw [List.map_append, List.map_cons, keep pre hpre, keep post hpost, if_pos rfl]

theorem length_of_sprintfText {old new text : List Char} (h : sprintfText old new = some text) :
    new.length < maxIniFileLineLen := by
  rw [sprintfText] at h
  split at h
  · assumption
  · cases h

theorem newKeyLine_of_eq_some {ini : CIniFile} {key value : List Char} {line : Line}
    (h : ini.newKeyLine key value = some line) :
    NewKeyLine key value line ∧ line.addr = ini.fresh := by
  obtain ⟨text, htext, rfl⟩ := Option.map_eq_some_iff.mp h
  exact ⟨⟨rfl, htext, rfl⟩, rfl⟩

theorem linked_insertSection {ini : CIniFile} (h : Linked ini) {line : Line}
    (htype : line.type = .lineTypeSection) (haddr : line.addr = ini.fresh) :
    Linked { ini.insertSection line with fresh := ini.fresh + 1 } := by
  refine ⟨?_, ?_, ?_⟩
  · simp only [insertSection, List.map_cons, List.nodup_cons]
    refine ⟨fun hmem => ?_, h.nodup⟩
    obtain ⟨l, hl, hle⟩ := List.mem_map.mp hmem
    exact absurd (hle.trans haddr) (Nat.ne_of_lt (h.fresh l hl))
  · intro l hl
    rcases List.mem_cons.mp hl with rfl | hl
    · exact haddr ▸ Nat.lt_succ_self _
    · exact Nat.lt_succ_of_lt (h.fresh l hl)
  · simp [insertSection, h.sections, htype]

theorem linked_insertKeyLine {ini : CIniFile} (h : Linked ini) {pre post : List Line}
    {hdr line : Line} (he : ini.lines = pre ++ hdr :: post) (htype : line.type = .lineTypeKey)
    (haddr : line.addr = ini.fresh) :
    Linked { ini.insertKeyLine hdr.addr line with fresh := ini.fresh + 1 } ∧
      (ini.insertKeyLine hdr.addr line).lines = pre ++ hdr :: line :: post := by
  have hlines : (ini.insertKeyLine hdr.addr line).lines = pre ++ hdr :: line :: post := by
    rw [insertKeyLine, he, linkAfter_of_split (h.addr_ne he).1]
  -- a permutation of the new line and the old ones, for the addresses; the order is not in them
  have hperm : (pre ++ hdr :: line :: post).Perm (line :: ini.lines) := by
    rw [he]
    exact ((List.Perm.swap line hdr post).append_left pre).trans List.perm_middle
  refine ⟨⟨?_, ?_, ?_⟩, hlines⟩
  · have hnew : line.addr ∉ ini.lines.map Line.addr := by
      intro hmem
      obtain ⟨l, hl, hle⟩ := List.mem_map.mp hmem
      exact absurd (hle.trans haddr) (Nat.ne_of_lt (h.fresh l hl))
    simp only [hlines]
    rw [(hperm.map Line.addr).nodup_iff, List.map_cons, List.nodup_cons]
    exact ⟨hnew, h.nodup⟩
  · intro l hl
    simp only [hlines] at hl
    rcases List.mem_cons.mp (hperm.mem_iff.mp hl) with rfl | hl
    · exact haddr ▸ Nat.lt_succ_self _
    · exact Nat.lt_succ_of_lt (h.fresh l hl)
  · simp only [hlines]
    rw [insertKeyLine, h.sections, he]
    simp [List.filter_append, List.filter_cons, htype]

theorem linked_rewriteText {ini : CIniFile} (h : Linked ini) (addr : ℕ) (text : List Char) :
    Linked (ini.rewriteText addr text) := by
  have haddr : ∀ l : Line, (if l.addr = addr then { l with text := text } else l).addr = l.addr :=
    fun l => by split <;> rfl
  have htype : ∀ l : Line, (if l.addr = addr then { l with text := text } else l).type = l.type :=
    fun l => by split <;> rfl
  refine ⟨?_, ?_, ?_⟩
  · rw [rewriteText, List.map_map]
    exact (List.map_congr_left fun l _ => haddr l) ▸ h.nodup
  · intro l hl
    obtain ⟨p, hp, rfl⟩ := List.mem_map.mp hl
    rw [haddr]
    exact h.fresh p hp
  · simp only [rewriteText, h.sections, List.filter_map, List.map_map, Function.comp_def, haddr,
      htype]

/-- **The three ways to set a value**, each of which keeps the two lists in step. -/
theorem setLines_cases {ini ini' : CIniFile} (h : Linked ini) {name key value : List Char}
    (hs : ini.setLines name key value = some ini') :
    SetStep name key value ini.lines ini'.lines ∧ Linked ini' ∧
      ini'.mpFileName = ini.mpFileName := by
  rw [setLines] at hs
  rcases getSection_cases h name with
    ⟨hnone, hmiss⟩ | ⟨pre, hdr, post, he, hmiss, hty, hnamed, hsome, hafter⟩
  · simp only [hnone, Option.bind_eq_bind, Option.bind_eq_some_iff] at hs
    obtain ⟨text, htext, keyLine, hkey, hini⟩ := hs
    obtain rfl := Option.some.inj hini
    obtain ⟨hline, haddr⟩ := newKeyLine_of_eq_some hkey
    let sec : Line := ⟨ini.fresh, .lineTypeSection, text, 0⟩
    have hsec : Linked { ini.insertSection sec with fresh := ini.fresh + 1 } :=
      linked_insertSection h rfl rfl
    -- the new section line is first, and the key line is linked behind it
    have hsplit : (ini.insertSection sec).lines = [] ++ sec :: ini.lines := rfl
    obtain ⟨hlinked, hlines⟩ := linked_insertKeyLine hsec hsplit hline.type haddr
    have hnew : NewSectionLine name sec := ⟨rfl, htext, rfl⟩
    refine ⟨?_, hlinked, rfl⟩
    exact hlines ▸ SetStep.newSection hmiss hnew hline
  · simp only [hsome, getKeyLineAtSec, hafter] at hs
    cases hk : keyLineIn key post with
    | none =>
      simp only [hk, Option.bind_eq_bind, Option.bind_eq_some_iff] at hs
      obtain ⟨keyLine, hkey, hini⟩ := hs
      obtain rfl := Option.some.inj hini
      obtain ⟨hline, haddr⟩ := newKeyLine_of_eq_some hkey
      obtain ⟨hlinked, hlines⟩ := linked_insertKeyLine h he hline.type haddr
      refine ⟨?_, hlinked, rfl⟩
      simp only [hlines, he]
      exact .newKey hmiss hty hnamed hk hline
    | some line =>
      simp only [hk, Option.bind_eq_bind, Option.bind_eq_some_iff] at hs
      obtain ⟨text, htext, hini⟩ := hs
      obtain rfl := Option.some.inj hini
      -- rewriting goes by the address, which occurs once
      obtain ⟨mid, rest, rfl, hpass, htype, hpfx⟩ := keyLineIn_eq_some hk
      refine ⟨?_, linked_rewriteText h _ _, rfl⟩
      have hsplit : ini.lines = (pre ++ hdr :: mid) ++ line :: rest := by simp [he]
      have hne := h.addr_ne hsplit
      rw [rewriteText, hsplit]
      simp only [map_rewrite_of_split text hne.1 hne.2]
      simpa using SetStep.rewrite hmiss hty hnamed hpass htype hpfx htext

/-- Setting a value is defined exactly where the texts that it prints fit their buffers. -/
theorem exists_setLines_iff (ini : CIniFile) (name key value : List Char) :
    (∃ ini', ini.setLines name key value = some ini') ↔
      (keyText key value).length < maxIniFileLineLen ∧
        (ini.getSection name = none → (sectionText name).length < maxIniFileLineLen) := by
  constructor
  · rintro ⟨ini', hset⟩
    rw [setLines] at hset
    cases hsec : ini.getSection name with
    | none =>
      simp only [hsec, Option.bind_eq_bind, Option.bind_eq_some_iff] at hset
      obtain ⟨text, htext, keyLine, hkeyLine, -⟩ := hset
      exact ⟨length_of_sprintfText (newKeyLine_of_eq_some hkeyLine).1.text,
        fun _ => length_of_sprintfText htext⟩
    | some sec =>
      cases hline : ini.getKeyLineAtSec sec key with
      | none =>
        simp only [hsec, hline, Option.bind_eq_bind, Option.bind_eq_some_iff] at hset
        obtain ⟨keyLine, hkeyLine, -⟩ := hset
        exact ⟨length_of_sprintfText (newKeyLine_of_eq_some hkeyLine).1.text, by simp⟩
      | some line =>
        simp only [hsec, hline, Option.bind_eq_bind, Option.bind_eq_some_iff] at hset
        obtain ⟨text, htext, -⟩ := hset
        exact ⟨length_of_sprintfText htext, by simp⟩
  · rintro ⟨hkey, hsec⟩
    have hprint (text new : List Char) (hnew : new.length < maxIniFileLineLen) :
        ∃ text', sprintfText text new = some text' := ⟨_, if_pos hnew⟩
    rw [setLines]
    split
    · rename_i hnone
      obtain ⟨sec, hsec⟩ := hprint [] _ (hsec hnone)
      obtain ⟨text, htext⟩ := hprint [] _ hkey
      simp [hsec, newKeyLine, htext]
    · split
      · obtain ⟨text, htext⟩ := hprint [] _ hkey
        simp [newKeyLine, htext]
      · rename_i line _
        obtain ⟨text, htext⟩ := hprint line.text _ hkey
        simp [htext]

theorem exists_setLines (ini : CIniFile) {name key value : List Char}
    (hname : (sectionText name).length < maxIniFileLineLen)
    (hkey : (keyText key value).length < maxIniFileLineLen) :
    ∃ ini', ini.setLines name key value = some ini' :=
  (exists_setLines_iff ini name key value).mpr ⟨hkey, fun _ => hname⟩

end CIniFile
