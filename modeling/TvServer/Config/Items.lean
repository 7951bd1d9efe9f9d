import Mathlib.Data.List.TakeWhile
import TvServer.Config.Lists
import TvServer.Foundations.Sections

/-!
# The items of an ini file

A line with a well-formed text is an item of a sectioned list: a section line is a header, a key
line an entry, and any other line a remark. On section names and keys none of which is a prefix
of another, the prefix comparisons of the searches are comparisons of names, so that reading a
value is a lookup in the items, and setting one sets it in the items.

## Main definitions

* `Names S K`: the conditions on the section names `S` and the keys `K`
* `Line.item`: the item of a line
* `Reads S K t i`: the text `t` is that of the item `i`
* `LineOk S K l`: the text of `l` is well formed, and its cached data fit the text

## Main results

* `getString_eq_lookup`: reading a value is a lookup in the items
* `items_setLines`: setting a value sets it in the items
-/

open Lines Sections

/-- The items of an ini file: names, keys and values are strings. -/
abbrev IniItem := Item (List Char) (List Char) (List Char)

namespace CIniFile

/-! ## Names and texts -/

/-- A character with no meaning for the syntax of the file. -/
def Plain (c : Char) : Prop :=
  c ≠ '\x00' ∧ c ≠ ' ' ∧ c ≠ '\r' ∧ c ≠ '\n' ∧ c ≠ '#' ∧ c ≠ '[' ∧ c ≠ ']'

instance : DecidablePred Plain := fun c => by unfold Plain; infer_instance

/-- Section names and keys that the prefix comparisons tell apart. -/
structure Names (S K : Set (List Char)) : Prop where
  section_plain : ∀ s ∈ S, ∀ c ∈ s, Plain c
  key_plain : ∀ k ∈ K, ∀ c ∈ k, Plain c
  key_no_eq : ∀ k ∈ K, '=' ∉ k
  section_prefix : ∀ s ∈ S, ∀ t ∈ S, s <+: t → s = t
  key_prefix : ∀ k ∈ K, ∀ j ∈ K, k <+: j → k = j

/-- The text of an item: a header in brackets, a key and a value, or a remark that has a `#` or
is blank. -/
def Reads (S K : Set (List Char)) (t : List Char) : IniItem → Prop
  | .header s => s ∈ S ∧ t = sectionText s
  | .entry k v => k ∈ K ∧ t = keyText k v ∧ '#' ∉ v ∧ '[' ∉ v ∧ ']' ∉ v
  | .remark => '#' ∈ t ∨ t = []

theorem not_mem_of_plain {t : List Char} (h : ∀ c ∈ t, Plain c) :
    '\x00' ∉ t ∧ ' ' ∉ t ∧ '\r' ∉ t ∧ '\n' ∉ t ∧ '#' ∉ t ∧ '[' ∉ t ∧ ']' ∉ t :=
  ⟨fun hm => (h _ hm).1 rfl, fun hm => (h _ hm).2.1 rfl, fun hm => (h _ hm).2.2.1 rfl,
    fun hm => (h _ hm).2.2.2.1 rfl, fun hm => (h _ hm).2.2.2.2.1 rfl,
    fun hm => (h _ hm).2.2.2.2.2.1 rfl, fun hm => (h _ hm).2.2.2.2.2.2 rfl⟩

theorem getLineType_sectionText {s : List Char} (hs : ∀ c ∈ s, Plain c) :
    getLineType (sectionText s) = .lineTypeSection := by
  have := not_mem_of_plain hs
  simp [getLineType, sectionText, this]

theorem getLineType_keyText {k v : List Char} (hk : ∀ c ∈ k, Plain c) (hv : '#' ∉ v)
    (hv' : '[' ∉ v) : getLineType (keyText k v) = .lineTypeKey := by
  have := not_mem_of_plain hk
  simp [getLineType, keyText, this, hv, hv']

theorem getLineType_remark {t : List Char} (h : '#' ∈ t ∨ t = []) :
    getLineType t = .lineTypeComment := by
  rcases h with h | rfl
  · simp [getLineType, h]
  · rfl

theorem valueStart_keyText {k v : List Char} (hk : ∀ c ∈ k, Plain c) (hk' : '=' ∉ k)
    (hv : '#' ∉ v) (hv' : '[' ∉ v) : valueStart (keyText k v) = k.length + 1 := by
  rw [valueStart, getLineType_keyText hk hv hv', keyText, List.idxOf_append_of_notMem hk']
  simp

/-! ## C strings in buffers -/

/-- A text printed into a buffer is read back from it, from any of its positions on. -/
theorem cstr_drop_sprintfText {old new text : List Char} (h : sprintfText old new = some text)
    (hnew : '\x00' ∉ new) {n : ℕ} (hn : n ≤ new.length) : cstr (text.drop n) = new.drop n := by
  rw [sprintfText] at h
  split at h
  · obtain rfl := Option.some.inj h
    rw [List.drop_append_of_le_length hn]
    exact cstr_append_null (fun hm => hnew (List.mem_of_mem_drop hm)) _
  · cases h

/-! ## Lines -/

end CIniFile

/-- The item of a line. -/
def Line.item (l : Line) : IniItem :=
  match l.type with
  | .lineTypeSection => .header (l.str.drop 1).dropLast
  | .lineTypeKey => .entry (l.str.takeWhile (· ≠ '=')) l.value
  | .lineTypeComment => .remark

namespace CIniFile

variable {S K : Set (List Char)}

/-- A text that is saved and loaded again as one line, up to blank lines: where it fills the
buffer of a read, it must not end with the carriage return that the read would drop. -/
def Storable (t : List Char) : Prop :=
  '\n' ∉ t ∧ ' ' ∉ t ∧ t.length < maxIniFileLineLen ∧
    (t.length = maxIniFileLineLen - 1 → t.getLast? ≠ some '\r')

/-- A line whose text is well formed, with the type and the value the text has. -/
structure LineOk (S K : Set (List Char)) (l : Line) : Prop where
  type : l.type = getLineType l.str
  start : l.pValueStart = valueStart l.str
  value : l.value = l.str.drop l.pValueStart
  reads : ∃ i, Reads S K l.str i
  storable : Storable l.str

/-- The item of a line is the one its text reads. -/
theorem LineOk.item_eq (hN : Names S K) {l : Line} (h : LineOk S K l) {i : IniItem}
    (hi : Reads S K l.str i) : l.item = i := by
  rw [Line.item, h.type, h.value, h.start]
  cases i with
  | header s =>
    obtain ⟨hs, ht⟩ := hi
    rw [ht, getLineType_sectionText (hN.section_plain s hs)]
    simp [sectionText]
  | entry k v =>
    obtain ⟨hk, ht, hv, hv', -⟩ := hi
    rw [ht, getLineType_keyText (hN.key_plain k hk) hv hv',
      valueStart_keyText (hN.key_plain k hk) (hN.key_no_eq k hk) hv hv']
    rw [keyText, takeWhile_ne_append (hN.key_no_eq k hk)]
    simp [List.drop_append]
  | remark => rw [getLineType_remark hi]

theorem LineOk.reads_item (hN : Names S K) {l : Line} (h : LineOk S K l) :
    Reads S K l.str l.item := by
  obtain ⟨i, hi⟩ := h.reads
  rwa [h.item_eq hN hi]

theorem LineOk.null_not_mem (l : Line) : '\x00' ∉ l.str := not_mem_cstr l.text

/-- A section line is named by a prefix exactly when its item is the header of that name. -/
theorem LineOk.isSectionNamed_iff (hN : Names S K) {l : Line} (h : LineOk S K l)
    (hty : l.type = .lineTypeSection) {s : List Char} (hs : s ∈ S) :
    isSectionNamed s l = true ↔ l.item = .header s := by
  have hread := h.reads_item hN
  have hitem : l.item = .header (l.str.drop 1).dropLast := by rw [Line.item, hty]
  rw [hitem] at hread ⊢
  obtain ⟨ht, hstr⟩ := hread
  generalize (l.str.drop 1).dropLast = t at ht hstr
  rw [isSectionNamed, hstr, List.isPrefixOf_iff_prefix, Item.header.injEq]
  constructor
  · intro hpfx
    have htpfx : t <+: (sectionText t).drop 1 := ⟨[']'], rfl⟩
    -- both names are prefixes of one text, so that one is a prefix of the other
    rcases List.prefix_or_prefix_of_prefix hpfx htpfx with hst | hts
    · exact (hN.section_prefix s hs t ht hst).symm
    · exact hN.section_prefix t ht s hs hts
  · rintro rfl
    exact ⟨[']'], rfl⟩

/-- A key line starts with a key exactly when its item is an entry of that key. -/
theorem LineOk.isPrefixOf_iff (hN : Names S K) {l : Line} (h : LineOk S K l)
    (hty : l.type = .lineTypeKey) {k : List Char} (hk : k ∈ K) :
    k.isPrefixOf l.str = true ↔ l.item = .entry k l.value := by
  have hread := h.reads_item hN
  have hitem : l.item = .entry (l.str.takeWhile (· ≠ '=')) l.value := by rw [Line.item, hty]
  rw [hitem] at hread ⊢
  obtain ⟨hj, hstr, -⟩ := hread
  generalize l.str.takeWhile (· ≠ '=') = j at hj hstr
  rw [hstr, List.isPrefixOf_iff_prefix, Item.entry.injEq]
  constructor
  · intro hpfx
    -- as for section names: `k` and `j` are prefixes of one text
    have hjpfx : j <+: keyText j l.value := ⟨'=' :: l.value, rfl⟩
    rcases List.prefix_or_prefix_of_prefix hpfx hjpfx with hkj | hjk
    · exact ⟨(hN.key_prefix k hk j hj hkj).symm, rfl⟩
    · exact ⟨hN.key_prefix j hj k hk hjk, rfl⟩
  · rintro ⟨rfl, -⟩
    exact ⟨'=' :: l.value, rfl⟩

/-! ## Reading a value -/

/-- The items of a file, in the order of its lines. -/
def items (ini : CIniFile) : List IniItem := ini.lines.map Line.item

theorem header_not_mem_items (hN : Names S K) {ls : List Line} (hok : ∀ l ∈ ls, LineOk S K l)
    {s : List Char} (hs : s ∈ S) (hmiss : ∀ l ∈ ls, Misses s l) :
    .header s ∉ ls.map Line.item := by
  intro hmem
  obtain ⟨l, hl, he⟩ := List.mem_map.mp hmem
  have hty : l.type = .lineTypeSection := by
    rw [Line.item] at he
    split at he
    · assumption
    · cases he
    · cases he
  have hnamed := ((hok l hl).isSectionNamed_iff hN hty hs).mpr he
  exact Bool.false_ne_true ((hmiss l hl hty).symm.trans hnamed)

/-- The search for a key line finds the entry of the key. -/
theorem keyLineIn_eq_entryIn (hN : Names S K) {ls : List Line} (hok : ∀ l ∈ ls, LineOk S K l)
    {k : List Char} (hk : k ∈ K) :
    (keyLineIn k ls).map Line.value = entryIn k (ls.map Line.item) := by
  induction ls with
  | nil => rfl
  | cons l ls ih =>
    rw [List.forall_mem_cons] at hok
    rw [keyLineIn, List.map_cons]
    split
    · rename_i hty
      simp [Line.item, hty, entryIn]
    · rename_i hty
      have hiff := hok.1.isPrefixOf_iff hN hty hk
      have hitem : l.item = .entry (l.str.takeWhile (· ≠ '=')) l.value := by rw [Line.item, hty]
      rw [hitem, Item.entry.injEq] at hiff
      rw [hitem, entryIn]
      by_cases hkey : l.str.takeWhile (· ≠ '=') = k
      · rw [if_pos hkey, if_pos (hiff.mpr ⟨hkey, rfl⟩), Option.map_some]
      · rw [if_neg hkey, if_neg fun hp => hkey (hiff.mp hp).1, ih hok.2]
    · rename_i hty
      simp [Line.item, hty, entryIn, ih hok.2]

/-- **Reading a value is a lookup in the items.** -/
theorem getString_eq_lookup (hN : Names S K) {ini : CIniFile} (h : Linked ini)
    (hok : ∀ l ∈ ini.lines, LineOk S K l) {s k : List Char} (hs : s ∈ S) (hk : k ∈ K)
    (default : Option (List Char)) :
    ini.getString s k default = (lookup s k ini.items).or default := by
  rw [getString, items, lookup]
  rcases getSection_cases h s with
    ⟨hnone, hmiss⟩ | ⟨pre, hdr, post, he, hmiss, hty, hnamed, hsome, hafter⟩
  · rw [hnone, afterSection_of_not_mem (header_not_mem_items hN hok hs hmiss)]
    rfl
  · rw [he, List.forall_mem_append, List.forall_mem_cons] at hok
    have hhdr := (hok.2.1.isSectionNamed_iff hN hty hs).mp hnamed
    have hpre := header_not_mem_items hN hok.1 hs hmiss
    rw [hsome, he, List.map_append, List.map_cons, hhdr, afterSection_append hpre,
      Option.bind_some, ← keyLineIn_eq_entryIn hN hok.2.2 hk]
    simp only [getKeyLineAtSec, hafter]
    cases keyLineIn k post <;> rfl

/-! ## Setting a value -/

theorem NewSectionLine.lineOk (hN : Names S K) {s : List Char} (hs : s ∈ S) {l : Line}
    (h : NewSectionLine s l) : LineOk S K l ∧ l.item = .header s := by
  have hplain := not_mem_of_plain (hN.section_plain s hs)
  have hnull : '\x00' ∉ sectionText s := by simp [sectionText, hplain]
  have hstr : l.str = sectionText s := by
    simpa [Line.str] using cstr_drop_sprintfText h.text hnull (Nat.zero_le _)
  have hty := getLineType_sectionText (hN.section_plain s hs)
  have hreads : Reads S K l.str (.header s) := ⟨hs, hstr⟩
  have hok : LineOk S K l := by
    refine ⟨?_, ?_, ?_, ⟨_, hreads⟩, ?_⟩
    · rw [hstr, hty, h.type]
    · rw [hstr, valueStart, hty, h.pValueStart]
    · rw [Line.value, h.pValueStart]
      rfl
    · rw [hstr]
      refine ⟨?_, ?_, length_of_sprintfText h.text, fun _ => ?_⟩
      · simp [sectionText, hplain]
      · simp [sectionText, hplain]
      · simp [sectionText, List.getLast?_cons]
  exact ⟨hok, hok.item_eq hN hreads⟩

/-- A key line with the text for a key and a plain value is well formed. -/
theorem lineOk_of_keyText (hN : Names S K) {k v : List Char} (hk : k ∈ K)
    (hv : ∀ c ∈ v, Plain c) {l : Line} {old : List Char} (hty : l.type = .lineTypeKey)
    (hstart : l.pValueStart = k.length + 1) (htext : sprintfText old (keyText k v) = some l.text) :
    LineOk S K l ∧ l.item = .entry k v := by
  have hkplain := not_mem_of_plain (hN.key_plain k hk)
  have hvplain := not_mem_of_plain hv
  have hnull : '\x00' ∉ keyText k v := by simp [keyText, hkplain, hvplain]
  have hstr : l.str = keyText k v := by
    simpa [Line.str] using cstr_drop_sprintfText htext hnull (Nat.zero_le _)
  -- the value starts inside the printed text, in front of its terminator at the latest
  have hlen : l.pValueStart ≤ (keyText k v).length := by
    rw [hstart]
    simp [keyText]
  have hreads : Reads S K l.str (.entry k v) :=
    ⟨hk, hstr, hvplain.2.2.2.2.1, hvplain.2.2.2.2.2.1, hvplain.2.2.2.2.2.2⟩
  have hvalid := hreads.2.2
  have hok : LineOk S K l := by
    refine ⟨?_, ?_, ?_, ⟨_, hreads⟩, ?_⟩
    · rw [hstr, hty, getLineType_keyText (hN.key_plain k hk) hvalid.1 hvalid.2.1]
    · rw [hstr, hstart,
        valueStart_keyText (hN.key_plain k hk) (hN.key_no_eq k hk) hvalid.1 hvalid.2.1]
    · rw [hstr, Line.value, cstr_drop_sprintfText htext hnull hlen]
    · rw [hstr]
      refine ⟨?_, ?_, length_of_sprintfText htext, fun _ => ?_⟩
      · simp [keyText, hkplain, hvplain]
      · simp [keyText, hkplain, hvplain]
      · intro hlast
        have hmem := List.mem_of_getLast? hlast
        simp [keyText, hkplain, hvplain] at hmem
  exact ⟨hok, hok.item_eq hN hreads⟩

theorem passes_of_passes (hN : Names S K) {ls : List Line} (hok : ∀ l ∈ ls, LineOk S K l)
    {k : List Char} (hk : k ∈ K) (hpass : ∀ l ∈ ls, Passes k l) :
    ∀ i ∈ ls.map Line.item, i.passes k := by
  intro i hi
  obtain ⟨l, hl, rfl⟩ := List.mem_map.mp hi
  obtain ⟨hsec, hkey⟩ := hpass l hl
  cases hty : l.type with
  | lineTypeSection => exact absurd hty hsec
  | lineTypeComment => simp [Line.item, hty, Item.passes]
  | lineTypeKey =>
    have hne : l.item ≠ .entry k l.value := fun he =>
      Bool.false_ne_true ((hkey hty).symm.trans (((hok l hl).isPrefixOf_iff hN hty hk).mpr he))
    simp only [Line.item, hty] at hne ⊢
    exact decide_eq_true fun he => hne (he ▸ rfl)

/-- **A step on the lines is a step on the items.** -/
theorem SetStep.items_eq (hN : Names S K) {s k v : List Char} (hs : s ∈ S) (hk : k ∈ K)
    (hv : ∀ c ∈ v, Plain c) {ls ls' : List Line} (h : SetStep s k v ls ls')
    (hok : ∀ l ∈ ls, LineOk S K l) :
    ls'.map Line.item = set s k v (ls.map Line.item) ∧ ∀ l ∈ ls', LineOk S K l := by
  cases h with
  | @newSection _ sec line hmiss hsec hline =>
    obtain ⟨hsecOk, hsecItem⟩ := hsec.lineOk hN hs
    obtain ⟨hlineOk, hlineItem⟩ :=
      lineOk_of_keyText hN hk hv hline.type hline.pValueStart hline.text
    constructor
    · rw [set_of_not_mem (header_not_mem_items hN hok hs hmiss), List.map_cons, List.map_cons,
        hsecItem, hlineItem]
    · exact List.forall_mem_cons.mpr ⟨hsecOk, List.forall_mem_cons.mpr ⟨hlineOk, hok⟩⟩
  | @newKey pre post hdr line hmiss hty hnamed hnone hline =>
    obtain ⟨hlineOk, hlineItem⟩ :=
      lineOk_of_keyText hN hk hv hline.type hline.pValueStart hline.text
    rw [List.forall_mem_append, List.forall_mem_cons] at hok
    have hhdr := (hok.2.1.isSectionNamed_iff hN hty hs).mp hnamed
    have hpre := header_not_mem_items hN hok.1 hs hmiss
    -- the key is missing among the items as well, so that setting it adds an entry
    have hfree : entryIn k (post.map Line.item) = none := by
      rw [← keyLineIn_eq_entryIn hN hok.2.2 hk, hnone, Option.map_none]
    constructor
    · simp only [List.map_append, List.map_cons, hhdr, hlineItem]
      rw [set_append hpre, setEntry_of_entryIn_eq_none hfree]
    · exact List.forall_mem_append.mpr ⟨hok.1, List.forall_mem_cons.mpr
        ⟨hok.2.1, List.forall_mem_cons.mpr ⟨hlineOk, hok.2.2⟩⟩⟩
  | @rewrite pre mid post hdr line text hmiss hty hnamed hpass hkey hpfx htext =>
    simp only [List.forall_mem_append, List.forall_mem_cons] at hok
    obtain ⟨hpreOk, hhdrOk, hmidOk, hlineOk, hpostOk⟩ := hok
    have hhdr := (hhdrOk.isSectionNamed_iff hN hty hs).mp hnamed
    have hpre := header_not_mem_items hN hpreOk hs hmiss
    have hitem := (hlineOk.isPrefixOf_iff hN hkey hk).mp hpfx
    have hread := hlineOk.reads_item hN
    rw [hitem] at hread
    -- the line read the same key before, so that the old pointer fits the new text
    have hstart : line.pValueStart = k.length + 1 := by
      rw [hlineOk.start, hread.2.1,
        valueStart_keyText (hN.key_plain k hk) (hN.key_no_eq k hk) hread.2.2.1 hread.2.2.2.1]
    obtain ⟨hnewOk, hnewItem⟩ : LineOk S K { line with text := text } ∧
        Line.item { line with text := text } = .entry k v :=
      lineOk_of_keyText hN hk hv hkey hstart htext
    constructor
    · simp only [List.map_append, List.map_cons, hhdr, hitem, hnewItem]
      rw [set_append hpre, setEntry_append (passes_of_passes hN hmidOk hk hpass)]
    · simp only [List.forall_mem_append, List.forall_mem_cons]
      exact ⟨hpreOk, hhdrOk, hmidOk, hnewOk, hpostOk⟩

/-- **Setting a value sets it in the items**, and keeps the lines well formed. -/
theorem items_setLines (hN : Names S K) {ini ini' : CIniFile} (h : Linked ini)
    (hok : ∀ l ∈ ini.lines, LineOk S K l) {s k v : List Char} (hs : s ∈ S) (hk : k ∈ K)
    (hv : ∀ c ∈ v, Plain c) (hset : ini.setLines s k v = some ini') :
    ini'.items = set s k v ini.items ∧ ∀ l ∈ ini'.lines, LineOk S K l :=
  (setLines_cases h hset).1.items_eq hN hs hk hv hok

end CIniFile
