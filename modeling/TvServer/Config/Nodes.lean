import Mathlib.Data.List.Perm.Subperm
import TvServer.Config.Writes
import TvServer.Foundations.Links

/-!
# The nodes of an ini file

The ini file as it stands in the heap: the nodes of its lines and the nodes of its sections, each
with a pointer to the next one, and the pointers to the first ones. Loading keeps a pointer to the
last node of either list, setting a value links nodes in at the head and in the middle. All of this
does to the nodes what the ini file as two lists says, and no null pointer is followed.

## Main definitions

* `IniHeap`: the nodes and the first pointers
* `IniHeap.loadFromFile`, `IniHeap.getString`, `IniHeap.setString`: the operations on the nodes
* `Represents`: the nodes of a heap are those of an ini file as two lists
* `Edits`: what a list of lines is left as by setting a value

## Main results

* `represents_loadFromFile`, `setString_rel`, `getString_eq`: the operations on the nodes are
  those on the lists
* `lists_in_step`: the two lists over every load and all calls after it
-/

open Lines Links

/-- An ini file in the heap: the nodes of the lines, those of the sections, each of which points
to its line, the pointers to the first ones, and the next address of either kind. -/
structure IniHeap where
  mpFileName : List Char
  lineHeap : Heap ℕ Line
  sectionHeap : Heap ℕ ℕ
  mpFirstLine : Option ℕ
  mpFirstSection : Option ℕ
  freshLine : ℕ
  freshSection : ℕ

namespace IniHeap

open CIniFile (SaveOutcome sprintfText sectionText keyText keyLineIn isSectionNamed)

def freeAllMem (ini : IniHeap) : IniHeap :=
  { ini with
    lineHeap := free ini.lineHeap ini.freshLine ini.mpFirstLine
    mpFirstLine := none
    sectionHeap := free ini.sectionHeap ini.freshSection ini.mpFirstSection
    mpFirstSection := none }

/-- Allocate a line; its address is the next one. -/
def newLine (ini : IniHeap) (line : Line) : IniHeap :=
  { ini with lineHeap := alloc ini.lineHeap ini.freshLine line, freshLine := ini.freshLine + 1 }

/-- Allocate a section that points to a line. -/
def newSection (ini : IniHeap) (pLine : ℕ) : IniHeap :=
  { ini with
    sectionHeap := alloc ini.sectionHeap ini.freshSection pLine
    freshSection := ini.freshSection + 1 }

/-! ## Loading -/

/-- The loop that loads a file: the ini file, and the last line and section so far. -/
structure Loading where
  ini : IniHeap
  pCurLine : Option ℕ
  pCurSection : Option ℕ

/-- One round of the loop. There is no result where a null pointer is followed. -/
def loadLine (st : Loading) (lineStr : List Char) : Option Loading := do
  let str := CIniFile.allTrim (cstr lineStr)
  let pLine := st.ini.freshLine
  let line : Line := ⟨pLine, CIniFile.getLineType str, str, CIniFile.valueStart str⟩
  let ini := st.ini.newLine line
  let (lineHeap, mpFirstLine) ← linkLast ini.lineHeap ini.mpFirstLine st.pCurLine pLine
  let ini := { ini with lineHeap := lineHeap, mpFirstLine := mpFirstLine }
  match line.type with
  | .lineTypeSection =>
    let pSec := ini.freshSection
    let ini := ini.newSection pLine
    let (sectionHeap, mpFirstSection) ←
      linkLast ini.sectionHeap ini.mpFirstSection st.pCurSection pSec
    let ini := { ini with sectionHeap := sectionHeap, mpFirstSection := mpFirstSection }
    return ⟨ini, some pLine, some pSec⟩
  | _ => return ⟨ini, some pLine, st.pCurSection⟩

def loadFromFile (ini : IniHeap) (files : Files) : Option (List Char) → Option (Int32 × IniHeap)
  | none => some (-1, ini.freeAllMem)
  | some filename =>
    let named := { ini.freeAllMem with mpFileName := filename.take 255 }
    match files named.mpFileName with
    | none => some (-1, named)
    | some content =>
      ((chunks (CIniFile.maxIniFileLineLen - 1) content).foldlM loadLine ⟨named, none, none⟩).map
        fun st => (0, st.ini)

/-! ## Loops over the nodes -/

/-- The lines that a loop meets from a pointer on. -/
def linesFrom (ini : IniHeap) (p : Option ℕ) : List Line :=
  (walk ini.lineHeap ini.freshLine p).map Prod.snd

/-- The sections that a loop meets, with their lines. -/
def sectionNodes (ini : IniHeap) : List (ℕ × ℕ) :=
  walk ini.sectionHeap ini.freshSection ini.mpFirstSection

def getSection (ini : IniHeap) (name : List Char) : Option ℕ :=
  (ini.sectionNodes.find? fun sec =>
    (ini.lineHeap sec.2).any fun line => isSectionNamed name line.data).map Prod.fst

def getKeyLineAtSec (ini : IniHeap) (pSec : ℕ) (key : List Char) : Option Line := do
  let sec ← ini.sectionHeap pSec
  let line ← ini.lineHeap sec.data
  keyLineIn key (ini.linesFrom line.next)

/-- The value of a key in a section, or the default. -/
def getString (ini : IniHeap) (name key : List Char) (default : Option (List Char)) :
    Option (List Char) :=
  match ini.getSection name with
  | none => default
  | some pSec =>
    match ini.getKeyLineAtSec pSec key with
    | none => default
    | some line => some line.value

/-- What the loops over the nodes see of an ini file. -/
def view (ini : IniHeap) : CIniFile :=
  ⟨ini.mpFileName, ini.linesFrom ini.mpFirstLine, ini.sectionNodes.map Prod.snd, ini.freshLine⟩

/-- Save the lines that the loop meets. -/
def saveToFile (ini : IniHeap) (files : Files) (outcome : SaveOutcome)
    (filename : Option (List Char)) : Int32 × Files := ini.view.saveToFile files outcome filename

/-! ## Setting a value -/

def insertSection (ini : IniHeap) (pSec : ℕ) : Option IniHeap := do
  let sectionHeap ← setNext ini.sectionHeap pSec ini.mpFirstSection
  let sec ← sectionHeap pSec
  let lineHeap ← setNext ini.lineHeap sec.data ini.mpFirstLine
  return { ini with
    sectionHeap := sectionHeap, mpFirstSection := some pSec
    lineHeap := lineHeap, mpFirstLine := some sec.data }

def insertKeyLine (ini : IniHeap) (pSec pLine : ℕ) : Option IniHeap := do
  let sec ← ini.sectionHeap pSec
  let line1 ← ini.lineHeap sec.data
  let lineHeap ← setNext ini.lineHeap sec.data (some pLine)
  let lineHeap ← setNext lineHeap pLine line1.next
  return { ini with lineHeap := lineHeap }

/-- Print a new key line and link it behind the line of a section. -/
def addKeyLine (ini : IniHeap) (pSec : ℕ) (key value : List Char) : Option IniHeap := do
  let text ← sprintfText [] (keyText key value)
  let pLine := ini.freshLine
  (ini.newLine ⟨pLine, .lineTypeKey, text, key.length + 1⟩).insertKeyLine pSec pLine

/-- Set a value in memory, in one of the three ways. -/
def setLines (ini : IniHeap) (name key value : List Char) : Option IniHeap :=
  match ini.getSection name with
  | none => do
    let text ← sprintfText [] (sectionText name)
    let pLine := ini.freshLine
    let pSec := ini.freshSection
    let ini := (ini.newLine ⟨pLine, .lineTypeSection, text, 0⟩).newSection pLine
    let ini ← ini.insertSection pSec
    ini.addKeyLine pSec key value
  | some pSec =>
    match ini.getKeyLineAtSec pSec key with
    | none => ini.addKeyLine pSec key value
    | some line => do
      let text ← sprintfText line.text (keyText key value)
      let lineHeap ← setData ini.lineHeap line.addr fun line => { line with text := text }
      return { ini with lineHeap := lineHeap }

def setString (ini : IniHeap) (files : Files) (outcome : SaveOutcome)
    (name key value : List Char) : Option (IniHeap × Files) :=
  (ini.setLines name key value).map fun ini => (ini, (ini.saveToFile files outcome none).2)

/-! ## The nodes of two lists -/

end IniHeap

/-- The node of a line. -/
def Line.node (l : Line) : ℕ × Line := (l.addr, l)

@[simp] theorem Line.fst_node (l : Line) : l.node.1 = l.addr := rfl

theorem map_fst_node (ls : List Line) : (ls.map Line.node).map Prod.fst = ls.map Line.addr := by
  rw [List.map_map]
  rfl

namespace IniHeap

open CIniFile (Linked LoadedOk SaveOutcome sprintfText sectionText keyText keyLineIn)

/-- The nodes are those of an ini file as two lists. -/
structure Represents (m : IniHeap) (ini : CIniFile) : Prop where
  name : m.mpFileName = ini.mpFileName
  fresh : m.freshLine = ini.fresh
  lines : IsList m.lineHeap m.mpFirstLine (ini.lines.map Line.node)
  sections : ∃ nodes, IsList m.sectionHeap m.mpFirstSection nodes ∧
    nodes.map Prod.snd = ini.sections ∧ ∀ a ∈ nodes.map Prod.fst, a < m.freshSection

variable {m : IniHeap} {ini : CIniFile}

/-- Different addresses below a bound are no more than the bound. -/
theorem length_le_of_nodup {as : List ℕ} (hnd : as.Nodup) {n : ℕ} (hlt : ∀ a ∈ as, a < n) :
    as.length ≤ n := by
  have hsub : as ⊆ List.range n := fun a ha => List.mem_range.mpr (hlt a ha)
  simpa using (hnd.subperm hsub).length_le

theorem addr_ne_fresh (hl : Linked ini) : ∀ a ∈ (ini.lines.map Line.node).map Prod.fst,
    a ≠ ini.fresh := by
  intro a ha
  rw [map_fst_node] at ha
  obtain ⟨l, hmem, rfl⟩ := List.mem_map.mp ha
  exact Nat.ne_of_lt (hl.fresh l hmem)

theorem length_lines_le (hl : Linked ini) : ini.lines.length ≤ ini.fresh := by
  have hlt : ∀ a ∈ ini.lines.map Line.addr, a < ini.fresh := by
    intro a ha
    obtain ⟨l, hmem, rfl⟩ := List.mem_map.mp ha
    exact hl.fresh l hmem
  simpa using length_le_of_nodup hl.nodup hlt

/-- A loop from the line behind another one meets the lines behind it. -/
theorem linesFrom_eq (hr : Represents m ini) (hl : Linked ini) {p : Option ℕ} {ls : List Line}
    (hlist : IsList m.lineHeap p (ls.map Line.node)) (hle : ls.length ≤ ini.lines.length) :
    m.linesFrom p = ls := by
  have hrounds : (ls.map Line.node).length ≤ m.freshLine := by
    rw [List.length_map, hr.fresh]
    exact hle.trans (length_lines_le hl)
  rw [linesFrom, hlist.walk_eq hrounds, List.map_map]
  exact List.map_id ls

theorem sectionNodes_eq {nodes : List (ℕ × ℕ)}
    (hlist : IsList m.sectionHeap m.mpFirstSection nodes)
    (hlt : ∀ a ∈ nodes.map Prod.fst, a < m.freshSection) : m.sectionNodes = nodes := by
  refine hlist.walk_eq ?_
  simpa using length_le_of_nodup hlist.nodup hlt

/-- **The loops over the nodes see the two lists.** -/
theorem Represents.view_eq (hr : Represents m ini) (hl : Linked ini) : m.view = ini := by
  obtain ⟨nodes, hlist, hsnd, hlt⟩ := hr.sections
  rw [view, linesFrom_eq hr hl hr.lines le_rfl, sectionNodes_eq hlist hlt, hsnd, hr.name, hr.fresh]

/-- The node of a line, and the list behind it. -/
theorem Represents.node_of_split (hr : Represents m ini) {pre post : List Line} {l : Line}
    (he : ini.lines = pre ++ l :: post) :
    ∃ r, m.lineHeap l.addr = some ⟨l, r⟩ ∧ IsList m.lineHeap r (post.map Line.node) := by
  have hlines := hr.lines
  rw [he, List.map_append, List.map_cons] at hlines
  exact hlines.split.2

theorem data_of_mem (hr : Represents m ini) {l : Line} (hmem : l ∈ ini.lines) :
    ∃ r, m.lineHeap l.addr = some ⟨l, r⟩ :=
  Seg.node_of_mem hr.lines (List.mem_map_of_mem hmem)

/-! ## Searches -/

/-- **The search for a section** stops at the node that points to the line found. -/
theorem getSection_rel (hr : Represents m ini) (hl : Linked ini) (name : List Char) :
    Option.Rel (fun pSec pLine => ∃ q, m.sectionHeap pSec = some ⟨pLine, q⟩)
      (m.getSection name) (ini.getSection name) := by
  obtain ⟨nodes, hlist, hsnd, hlt⟩ := hr.sections
  have hsame : ∀ sec ∈ nodes,
      ((m.lineHeap sec.2).any fun line => CIniFile.isSectionNamed name line.data) =
        (ini.deref sec.2).any (CIniFile.isSectionNamed name) := by
    intro sec hsec
    -- a section points to a line, which is where the list of the lines has it
    have hmem : sec.2 ∈ ini.sections := hsnd ▸ List.mem_map_of_mem hsec
    rw [hl.sections] at hmem
    obtain ⟨l, hlmem, hladdr⟩ := List.mem_map.mp hmem
    have hline := (List.mem_filter.mp hlmem).1
    obtain ⟨r, hdata⟩ := data_of_mem hr hline
    rw [← hladdr, hdata, CIniFile.deref_of_mem hl hline]
    rfl
  rw [getSection, CIniFile.getSection, sectionNodes_eq hlist hlt, ← hsnd, List.find?_map,
    List.find?_congr hsame]
  cases hfound : nodes.find? fun sec => (ini.deref sec.2).any (CIniFile.isSectionNamed name) with
  | none =>
    have hnone : nodes.find? ((fun addr => (ini.deref addr).any (CIniFile.isSectionNamed name)) ∘
        Prod.snd) = none := hfound
    rw [hnone]
    exact .none
  | some sec =>
    have hsome : nodes.find? ((fun addr => (ini.deref addr).any (CIniFile.isSectionNamed name)) ∘
        Prod.snd) = some sec := hfound
    rw [hsome]
    exact .some (Seg.node_of_mem hlist (List.mem_of_find?_eq_some hfound))

/-- The search for a key goes through the lines behind that of the section. -/
theorem getKeyLineAtSec_eq (hr : Represents m ini) (hl : Linked ini) {pSec : ℕ} {q : Option ℕ}
    {pre post : List Line} {hdr : Line} (he : ini.lines = pre ++ hdr :: post)
    (hsec : m.sectionHeap pSec = some ⟨hdr.addr, q⟩) (key : List Char) :
    m.getKeyLineAtSec pSec key = keyLineIn key post := by
  obtain ⟨r, hhdr, hpost⟩ := hr.node_of_split he
  have hle : post.length ≤ ini.lines.length := by
    rw [he, List.length_append, List.length_cons]
    omega
  simp only [getKeyLineAtSec, hsec, hhdr, Option.bind_eq_bind, Option.bind_some,
    linesFrom_eq hr hl hpost hle]

/-- **Both searches end alike**: there is no section, or the same one is found, and the key is
looked for among the lines behind it. -/
theorem search_cases (hr : Represents m ini) (hl : Linked ini) (name : List Char) :
    (m.getSection name = none ∧ ini.getSection name = none) ∨
      ∃ pre hdr post pSec q, ini.lines = pre ++ hdr :: post ∧
        m.getSection name = some pSec ∧ ini.getSection name = some hdr.addr ∧
        m.sectionHeap pSec = some ⟨hdr.addr, q⟩ ∧
        ∀ key, m.getKeyLineAtSec pSec key = keyLineIn key post ∧
          ini.getKeyLineAtSec hdr.addr key = keyLineIn key post := by
  have hsearch := getSection_rel hr hl name
  rcases CIniFile.getSection_cases hl name with
    ⟨hnone, -⟩ | ⟨pre, hdr, post, he, -, -, -, hsome, hafter⟩
  · rw [hnone] at hsearch
    cases hfound : m.getSection name with
    | none => exact .inl ⟨rfl, hnone⟩
    | some pSec =>
      rw [hfound] at hsearch
      cases hsearch
  · rw [hsome] at hsearch
    cases hfound : m.getSection name with
    | none =>
      rw [hfound] at hsearch
      cases hsearch
    | some pSec =>
      rw [hfound] at hsearch
      obtain ⟨q, hq⟩ := Option.rel_some_some.mp hsearch
      refine .inr ⟨pre, hdr, post, pSec, q, he, rfl, hsome, hq, fun key => ⟨?_, ?_⟩⟩
      · exact getKeyLineAtSec_eq hr hl he hq key
      · rw [CIniFile.getKeyLineAtSec, hafter]

/-! ## Loading -/

/-- The nodes while a file is loaded: the last ones are pointed to. -/
structure LoadRepresents (st : Loading) (ini : CIniFile) : Prop where
  name : st.ini.mpFileName = ini.mpFileName
  fresh : st.ini.freshLine = ini.fresh
  lines : IsList st.ini.lineHeap st.ini.mpFirstLine (ini.lines.map Line.node)
  pCurLine : st.pCurLine = (ini.lines.map Line.node).getLast?.map Prod.fst
  sections : ∃ nodes, IsList st.ini.sectionHeap st.ini.mpFirstSection nodes ∧
    nodes.map Prod.snd = ini.sections ∧ (∀ a ∈ nodes.map Prod.fst, a < st.ini.freshSection) ∧
    st.pCurSection = nodes.getLast?.map Prod.fst

theorem LoadRepresents.represents {st : Loading} (hr : LoadRepresents st ini) :
    Represents st.ini ini := by
  obtain ⟨nodes, hlist, hsnd, hlt, -⟩ := hr.sections
  exact ⟨hr.name, hr.fresh, hr.lines, nodes, hlist, hsnd, hlt⟩

/-- A new section is linked behind the last one, and takes the next address. -/
theorem allocLast_section {heap : Heap ℕ ℕ} {first : Option ℕ} {nodes : List (ℕ × ℕ)} {fresh : ℕ}
    (hlist : IsList heap first nodes) (hlt : ∀ a ∈ nodes.map Prod.fst, a < fresh) (pLine : ℕ) :
    ∃ heap' first', linkLast (alloc heap fresh pLine) first (nodes.getLast?.map Prod.fst) fresh =
        some (heap', first') ∧
      IsList heap' first' (nodes ++ [(fresh, pLine)]) ∧
      ∀ a ∈ (nodes ++ [(fresh, pLine)]).map Prod.fst, a < fresh + 1 := by
  obtain ⟨heap', first', hlink, hlist'⟩ :=
    hlist.allocLast pLine fun a ha => Nat.ne_of_lt (hlt a ha)
  refine ⟨heap', first', hlink, hlist', ?_⟩
  rw [List.map_append, List.map_singleton, List.forall_mem_append, List.forall_mem_singleton]
  exact ⟨fun a ha => Nat.lt_succ_of_lt (hlt a ha), Nat.lt_succ_self fresh⟩

/-- A line read is linked behind the last one, and its section, if it is one, behind the last
section. -/
theorem loadRepresents_loadLine {st : Loading} (hr : LoadRepresents st ini) (hl : Linked ini)
    (lineStr : List Char) :
    ∃ st', loadLine st lineStr = some st' ∧ LoadRepresents st' (ini.loadLine lineStr) := by
  obtain ⟨nodes, hlist, hsnd, hlt, hcur⟩ := hr.sections
  let str := CIniFile.allTrim (cstr lineStr)
  let line : Line := ⟨ini.fresh, CIniFile.getLineType str, str, CIniFile.valueStart str⟩
  have hne := addr_ne_fresh hl
  obtain ⟨lineHeap, mpFirstLine, hlink, hlines⟩ := hr.lines.allocLast line hne
  have hsnoc : (ini.loadLine lineStr).lines.map Line.node =
      ini.lines.map Line.node ++ [(ini.fresh, line)] := List.map_append
  have hlast : some ini.fresh =
      ((ini.loadLine lineStr).lines.map Line.node).getLast?.map Prod.fst := by
    rw [hsnoc, List.getLast?_concat]
    rfl
  have hfresh : st.ini.freshLine + 1 = (ini.loadLine lineStr).fresh := congrArg (· + 1) hr.fresh
  simp only [loadLine, newLine, hr.fresh, hr.pCurLine, Option.bind_eq_bind]
  rw [hlink, Option.bind_some]
  rw [← hsnoc] at hlines
  cases hty : CIniFile.getLineType str with
  | lineTypeSection =>
    obtain ⟨sectionHeap, mpFirstSection, hslink, hsections, hslt⟩ :=
      allocLast_section hlist hlt ini.fresh
    have hseclist : (ini.loadLine lineStr).sections = ini.sections ++ [ini.fresh] := by
      simp [CIniFile.loadLine, str, hty]
    simp only [newSection, hcur, hslink, Option.bind_some]
    refine ⟨_, rfl, hr.name, hr.fresh ▸ hfresh, hlines, hlast,
      nodes ++ [(st.ini.freshSection, ini.fresh)], hsections, ?_, hslt, ?_⟩
    · rw [List.map_append, hsnd, hseclist]
      rfl
    · rw [List.getLast?_concat]
      rfl
  | _ =>
    have hseclist : (ini.loadLine lineStr).sections = ini.sections := by
      simp [CIniFile.loadLine, str, hty]
    exact ⟨_, rfl, hr.name, hr.fresh ▸ hfresh, hlines, hlast, nodes, hlist, hseclist ▸ hsnd, hlt,
      hcur⟩

/-- The loop over the lines of a file. -/
theorem loadRepresents_foldl (cs : List (List Char)) {st : Loading} (hr : LoadRepresents st ini)
    (hl : Linked ini) :
    ∃ st', cs.foldlM loadLine st = some st' ∧
      LoadRepresents st' (cs.foldl CIniFile.loadLine ini) := by
  induction cs generalizing st ini with
  | nil => exact ⟨st, rfl, hr⟩
  | cons c cs ih =>
    obtain ⟨st₁, hline, hr₁⟩ := loadRepresents_loadLine hr hl c
    obtain ⟨st₂, hrest, hr₂⟩ := ih hr₁ (CIniFile.linked_loadLine hl c)
    refine ⟨st₂, ?_, hr₂⟩
    rw [List.foldlM_cons, hline, Option.bind_eq_bind, Option.bind_some, hrest]

/-- The nodes behind the first pointers set to null. -/
theorem loadRepresents_freeAllMem (m : IniHeap) (name : List Char) (nextLine : ℕ)
    (hfresh : m.freshLine = nextLine) :
    LoadRepresents ⟨{ m.freeAllMem with mpFileName := name }, none, none⟩
      ⟨name, [], [], nextLine⟩ :=
  ⟨rfl, hfresh, rfl, rfl, [], rfl, rfl, by simp, rfl⟩

/-- **Loading builds the two lists**, whatever was in the heap before: no null pointer is
followed, and the nodes are those of the ini file that is loaded as two lists. -/
theorem represents_loadFromFile (m : IniHeap) (ini : CIniFile)
    (hname : m.mpFileName = ini.mpFileName) (hfresh : m.freshLine = ini.fresh) (files : Files)
    (filename : Option (List Char)) :
    ∃ ret m', m.loadFromFile files filename = some (ret, m') ∧
      ret = (ini.loadFromFile files filename).1 ∧
      Represents m' (ini.loadFromFile files filename).2 := by
  have hempty := fun name => loadRepresents_freeAllMem m name ini.fresh hfresh
  cases filename with
  | none => exact ⟨-1, _, rfl, rfl, hname, hfresh, rfl, [], rfl, rfl, by simp⟩
  | some filename =>
    rw [loadFromFile, CIniFile.loadFromFile]
    dsimp only
    cases hfile : files (filename.take 255) with
    | none => exact ⟨-1, _, rfl, rfl, (hempty _).represents⟩
    | some content =>
      have hlinked : Linked ⟨filename.take 255, [], [], ini.fresh⟩ :=
        ⟨List.nodup_nil, by simp, rfl⟩
      obtain ⟨st, hloop, hr⟩ := loadRepresents_foldl
        (chunks (CIniFile.maxIniFileLineLen - 1) content) (hempty (filename.take 255)) hlinked
      have hload := congrArg (Option.map fun st : Loading => ((0 : Int32), st.ini)) hloop
      exact ⟨0, st.ini, hload, rfl, hr.represents⟩

/-! ## Setting a value -/

/-- A key line is linked behind the line of its section. -/
theorem addKeyLine_rel (hr : Represents m ini) (hl : Linked ini) {pSec : ℕ} {q : Option ℕ}
    {pre post : List Line} {hdr : Line} (he : ini.lines = pre ++ hdr :: post)
    (hsec : m.sectionHeap pSec = some ⟨hdr.addr, q⟩) (key value : List Char) :
    Option.Rel Represents (m.addKeyLine pSec key value)
      ((ini.newKeyLine key value).bind fun keyLine =>
        some { ini.insertKeyLine hdr.addr keyLine with fresh := ini.fresh + 1 }) := by
  rw [addKeyLine, CIniFile.newKeyLine]
  cases sprintfText [] (keyText key value) with
  | none => exact .none
  | some text =>
    let line : Line := ⟨ini.fresh, .lineTypeKey, text, key.length + 1⟩
    have hne := addr_ne_fresh hl
    have halloc := hr.lines.alloc hne line
    have hinsert : (ini.insertKeyLine hdr.addr line).lines = pre ++ hdr :: line :: post := by
      rw [CIniFile.insertKeyLine, he, CIniFile.linkAfter_of_split (hl.addr_ne he).1]
    rw [he, List.map_append, List.map_cons] at halloc hne
    obtain ⟨s, h₁, h₂, hhdr, hnext, hline, hlist⟩ := halloc.insertAfter
      (alloc_self m.lineHeap ini.fresh line) hne
    have hadd : (m.newLine line).insertKeyLine pSec ini.fresh =
        some { m.newLine line with lineHeap := h₂ } := by
      simp only [insertKeyLine, newLine, hr.fresh, hsec, hhdr, hnext, hline, Option.bind_eq_bind,
        Option.bind_some]
      rfl
    simp only [Option.bind_eq_bind, Option.bind_some, Option.map_some, hr.fresh]
    rw [hadd]
    refine .some ⟨hr.name, congrArg (· + 1) hr.fresh, ?_, hr.sections⟩
    rw [hinsert, List.map_append, List.map_cons, List.map_cons]
    exact hlist

/-- A section line and its section are linked in front of the two lists. -/
theorem insertSection_rel (hr : Represents m ini) (hl : Linked ini) (text : List Char) :
    let line : Line := ⟨ini.fresh, .lineTypeSection, text, 0⟩
    ∃ m', ((m.newLine line).newSection ini.fresh).insertSection m.freshSection = some m' ∧
      Represents m' { ini.insertSection line with fresh := ini.fresh + 1 } ∧
      ∃ q, m'.sectionHeap m.freshSection = some ⟨ini.fresh, q⟩ := by
  intro line
  obtain ⟨nodes, hlist, hsnd, hlt⟩ := hr.sections
  have hne := addr_ne_fresh hl
  have hsne : ∀ a ∈ nodes.map Prod.fst, a ≠ m.freshSection := fun a ha => Nat.ne_of_lt (hlt a ha)
  obtain ⟨h₁, hnext, hlines⟩ := (hr.lines.alloc hne line).insertFirst
    (alloc_self m.lineHeap ini.fresh line) hne
  obtain ⟨s₁, hsnext, hsections⟩ := (hlist.alloc hsne ini.fresh).insertFirst
    (alloc_self m.sectionHeap m.freshSection ini.fresh) hsne
  obtain ⟨q, hq, -⟩ := hsections.2
  have hinsert : ((m.newLine line).newSection ini.fresh).insertSection m.freshSection =
      some { (m.newLine line).newSection ini.fresh with
        sectionHeap := s₁, mpFirstSection := some m.freshSection
        lineHeap := h₁, mpFirstLine := some ini.fresh } := by
    simp only [insertSection, newSection, newLine, hr.fresh, hsnext, hq, hnext,
      Option.bind_eq_bind, Option.bind_some]
    rfl
  refine ⟨_, hinsert, ⟨hr.name, congrArg (· + 1) hr.fresh, hlines,
    (m.freshSection, ini.fresh) :: nodes, hsections, congrArg _ hsnd, ?_⟩, q, hq⟩
  intro a ha
  rcases List.mem_cons.mp ha with rfl | ha
  · exact Nat.lt_succ_self _
  · exact Nat.lt_succ_of_lt (hlt a ha)

/-- **Setting a value edits the nodes as it edits the two lists**, and no null pointer is
followed. -/
theorem represents_setLines (hr : Represents m ini) (hl : Linked ini)
    (name key value : List Char) :
    Option.Rel Represents (m.setLines name key value) (ini.setLines name key value) := by
  rw [setLines, CIniFile.setLines]
  rcases search_cases hr hl name with
    ⟨hnone, hnone'⟩ | ⟨pre, hdr, post, pSec, q, he, hsome, hsome', hq, hkeys⟩
  · rw [hnone, hnone']
    dsimp only
    cases sprintfText [] (sectionText name) with
    | none => exact .none
    | some text =>
      let line : Line := ⟨ini.fresh, .lineTypeSection, text, 0⟩
      obtain ⟨m', hinsert, hr', q, hq⟩ := insertSection_rel hr hl text
      have hl' := @CIniFile.linked_insertSection ini hl line rfl rfl
      have hsplit : (ini.insertSection line).lines = [] ++ line :: ini.lines := rfl
      simp only [Option.bind_eq_bind, Option.bind_some, hr.fresh]
      rw [hinsert, Option.bind_some]
      exact addKeyLine_rel hr' hl' hsplit hq key value
  · rw [hsome, hsome']
    dsimp only
    rw [(hkeys key).1, (hkeys key).2]
    cases hk : keyLineIn key post with
    | none =>
      dsimp only
      exact addKeyLine_rel hr hl he hq key value
    | some line =>
      dsimp only
      cases sprintfText line.text (keyText key value) with
      | none => exact .none
      | some text =>
        -- the line found is a node of the list, and its text is set there
        obtain ⟨mid, rest, rfl, -⟩ := CIniFile.keyLineIn_eq_some hk
        have hsplit : ini.lines = (pre ++ hdr :: mid) ++ line :: rest := by simp [he]
        have hlines := hr.lines
        rw [hsplit, List.map_append, List.map_cons] at hlines
        obtain ⟨h', hset, hlist⟩ := hlines.setData fun l : Line => { l with text := text }
        have hne := hl.addr_ne hsplit
        simp only [Option.bind_eq_bind, Option.bind_some]
        rw [hset, Option.bind_some]
        refine .some ⟨hr.name, hr.fresh, ?_, hr.sections⟩
        rw [CIniFile.rewriteText, hsplit, CIniFile.map_rewrite_of_split text hne.1 hne.2,
          List.map_append, List.map_cons]
        exact hlist

/-- **Setting a value and saving** does to the nodes and the files what it does to the two lists and
the files. -/
theorem setString_rel (hr : Represents m ini) (hl : Linked ini) (files : Files)
    (outcome : SaveOutcome) (name key value : List Char) :
    Option.Rel (fun st st' => Represents st.1 st'.1 ∧ st.2 = st'.2)
      (m.setString files outcome name key value) (ini.setString files outcome name key value) := by
  have hrel := represents_setLines hr hl name key value
  rw [setString, CIniFile.setString]
  generalize hini : ini.setLines name key value = set at hrel
  generalize m.setLines name key value = mset at hrel
  cases hrel with
  | none => exact .none
  | @some m' ini' hr' =>
    have hl' := (CIniFile.setLines_cases hl hini).2.1
    have hsave : (m'.saveToFile files outcome none).2 = (m'.view.saveToFile files outcome none).2 :=
      rfl
    exact .some ⟨hr', hsave.trans (by rw [hr'.view_eq hl'])⟩

/-- **Reading a value** from the nodes is reading it from the two lists. -/
theorem getString_eq (hr : Represents m ini) (hl : Linked ini) (name key : List Char)
    (default : Option (List Char)) :
    m.getString name key default = ini.getString name key default := by
  rw [getString, CIniFile.getString]
  rcases search_cases hr hl name with
    ⟨hnone, hnone'⟩ | ⟨pre, hdr, post, pSec, q, -, hsome, hsome', -, hkeys⟩
  · simp only [hnone, hnone']
  · cases hfound : keyLineIn key post with
    | none => simp only [hsome, hsome', hkeys, hfound]
    | some line => simp only [hsome, hsome', hkeys, hfound]

/-! ## The two lists over a run -/

/-- The lines of the line list, in the order of the pointers. -/
def HasLines (m : IniHeap) (lines : List Line) : Prop :=
  IsList m.lineHeap m.mpFirstLine (lines.map Line.node)

/-- The lines that the section list points to, in the order of the pointers. -/
def HasSections (m : IniHeap) (pLines : List ℕ) : Prop :=
  ∃ nodes, IsList m.sectionHeap m.mpFirstSection nodes ∧ nodes.map Prod.snd = pLines

/-- The lines are kept in their order, the text of one at most is rewritten, and two at most are
added. -/
def Edits (lines lines' : List Line) : Prop :=
  ∃ i text, (lines.modify i fun l => { l with text := text }).Sublist lines' ∧
    lines'.length ≤ lines.length + 2

/-- A sequence of calls, each with how its save goes. -/
def setStrings (st : IniHeap × Files) (calls : List (CIniFile.Setting × SaveOutcome)) :
    Option (IniHeap × Files) :=
  calls.foldlM (fun st c => st.1.setString st.2 c.2 c.1.name c.1.key c.1.value) st

theorem edits_of_sublist {lines lines' : List Line} (hsub : lines.Sublist lines')
    (hlen : lines'.length ≤ lines.length + 2) : Edits lines lines' :=
  -- behind the last line there is nothing to rewrite
  ⟨lines.length, [], by rwa [List.modify_eq_self le_rfl], hlen⟩

theorem modify_append_cons (pre post : List Line) (l : Line) (f : Line → Line) :
    (pre ++ l :: post).modify pre.length f = pre ++ f l :: post := by
  induction pre with
  | nil => rfl
  | cons p pre ih =>
    rw [List.cons_append, List.length_cons, List.modify_succ_cons, ih, List.cons_append]

theorem edits_of_setStep {name key value : List Char} {lines lines' : List Line}
    (hstep : CIniFile.SetStep name key value lines lines') : Edits lines lines' := by
  cases hstep with
  | @newSection _ sec line hmiss hsec hline =>
    exact edits_of_sublist ((List.sublist_cons_self line lines).cons sec) le_rfl
  | @newKey pre post hdr line hmiss htype hnamed hnone hline =>
    apply edits_of_sublist
    · exact ((List.sublist_cons_self line post).cons_cons hdr).append_left pre
    · simp only [List.length_append, List.length_cons]
      omega
  | @rewrite pre mid post hdr line text hmiss htype hnamed hpass hkey hpfx htext =>
    refine ⟨(pre ++ hdr :: mid).length, text, ?_, by simp⟩
    have hsplit (l : Line) :
        pre ++ hdr :: (mid ++ l :: post) = (pre ++ hdr :: mid) ++ l :: post := by simp
    rw [hsplit, hsplit, modify_append_cons]

/-- What a call of `SetString` does: the lists stay the two lists, and the lines are edited. -/
theorem represents_setString {m' : IniHeap} {files files' : Files} {outcome : SaveOutcome}
    {name key value : List Char} (hr : Represents m ini) (hl : Linked ini)
    (hset : m.setString files outcome name key value = some (m', files')) :
    ∃ ini', Represents m' ini' ∧ Linked ini' ∧ Edits ini.lines ini'.lines := by
  have hrel := setString_rel hr hl files outcome name key value
  rw [hset] at hrel
  generalize hini : ini.setString files outcome name key value = set at hrel
  cases hrel with
  | @some _ st' hst =>
    obtain ⟨hstep, hl', -⟩ := CIniFile.setLines_cases hl (CIniFile.setLines_of_setString hini)
    exact ⟨st'.1, hst.1, hl', edits_of_setStep hstep⟩

/-- A call whose lines fit has a result. -/
theorem isSome_setString (hr : Represents m ini) (hl : Linked ini) {name key value : List Char}
    (hname : (sectionText name).length < CIniFile.maxIniFileLineLen)
    (hkey : (keyText key value).length < CIniFile.maxIniFileLineLen) (files : Files)
    (outcome : SaveOutcome) : (m.setString files outcome name key value).isSome := by
  obtain ⟨ini', hset⟩ := CIniFile.exists_setLines ini hname hkey
  have hrel := setString_rel hr hl files outcome name key value
  rw [CIniFile.setString, hset] at hrel
  generalize m.setString files outcome name key value = st at hrel
  cases hrel with
  | some hst => exact Option.isSome_some

theorem represents_setStrings (calls : List (CIniFile.Setting × SaveOutcome)) {m' : IniHeap}
    {files files' : Files} (hr : Represents m ini) (hl : Linked ini)
    (hrun : setStrings (m, files) calls = some (m', files')) :
    ∃ ini', Represents m' ini' ∧ Linked ini' := by
  induction calls generalizing m ini files with
  | nil =>
    obtain ⟨rfl, -⟩ := Prod.mk.inj (Option.some.inj hrun)
    exact ⟨ini, hr, hl⟩
  | cons c calls ih =>
    rw [setStrings, List.foldlM_cons, Option.bind_eq_bind, Option.bind_eq_some_iff] at hrun
    obtain ⟨⟨m₁, files₁⟩, hset, hrest⟩ := hrun
    obtain ⟨ini₁, hr₁, hl₁, -⟩ := represents_setString hr hl hset
    exact ih hr₁ hl₁ hrest

theorem Represents.hasSections (hr : Represents m ini) : m.HasSections ini.sections := by
  obtain ⟨nodes, hlist, hsnd, -⟩ := hr.sections
  exact ⟨nodes, hlist, hsnd⟩

/-- **The two lists are in step**, over every load of a file and all calls of `SetString` after it
whose lines fit. Loading follows no null pointer, and what it reads fits the lines. After any calls
the section list points to the section lines of the line list, in their order, and one more call
keeps the lines; it has a result if its lines fit. -/
theorem lists_in_step (m : IniHeap) (files : Files) (filename : Option (List Char)) :
    ∃ ret loaded lines, m.loadFromFile files filename = some (ret, loaded) ∧
      loaded.HasLines lines ∧ (∀ l ∈ lines, LoadedOk l) ∧
      ∀ calls m₁ files₁, setStrings (loaded, files) calls = some (m₁, files₁) →
        ∃ lines₁, m₁.HasLines lines₁ ∧
          m₁.HasSections
            ((lines₁.filter fun l => l.type = .lineTypeSection).map Line.addr) ∧
          ∀ outcome name key value,
            ((sectionText name).length < CIniFile.maxIniFileLineLen →
              (keyText key value).length < CIniFile.maxIniFileLineLen →
              (m₁.setString files₁ outcome name key value).isSome) ∧
            ∀ m₂ files₂, m₁.setString files₁ outcome name key value = some (m₂, files₂) →
              ∃ lines₂, m₂.HasLines lines₂ ∧ Edits lines₁ lines₂ := by
  let start : CIniFile := ⟨m.mpFileName, [], [], m.freshLine⟩
  obtain ⟨ret, loaded, hload, -, hr⟩ := represents_loadFromFile m start rfl rfl files filename
  have hl := CIniFile.linked_loadFromFile start files filename
  refine ⟨ret, loaded, _, hload, hr.lines, CIniFile.loadedOk_loadFromFile start files filename, ?_⟩
  intro calls m₁ files₁ hrun
  obtain ⟨ini₁, hr₁, hl₁⟩ := represents_setStrings calls hr hl hrun
  refine ⟨ini₁.lines, hr₁.lines, hl₁.sections ▸ hr₁.hasSections, ?_⟩
  intro outcome name key value
  refine ⟨fun hname hkey => isSome_setString hr₁ hl₁ hname hkey files₁ outcome, ?_⟩
  intro m₂ files₂ hset
  obtain ⟨ini₂, hr₂, -, hedits⟩ := represents_setString hr₁ hl₁ hset
  exact ⟨ini₂.lines, hr₂.lines, hedits⟩

end IniHeap
