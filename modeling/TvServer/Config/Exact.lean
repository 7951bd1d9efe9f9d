import TvServer.Config.Searches

/-!
# Lookups by prefix and by name

The searches compare names and keys up to the length of what is asked for. In a file of section
lines, key lines, comments and blank lines, a lookup is therefore exact only where the first line
that the comparisons lead to is the one that is asked for: a section or a key that the name asked
for is a prefix of stands in front otherwise, and a value with both brackets ends a section. Another
line can have the value that is asked for by coincidence only.

## Main definitions

* `Spells t i`: the trimmed line `t` is that of the item `i`
* `prefixQuery`: the search of the prefix comparisons, in the items
* `TakenForSection`, `TakenForKey`: what a line is taken for
* `Unshadowed`: nothing in front is taken for what is asked for, or what is has the same value

## Main results

* `getString_exact_iff`: a lookup in a loaded file is exact exactly where nothing shadows it
* `unshadowed_of_apart`: nothing shadows names that are no proper prefixes of others
-/

open Lines Sections Search

namespace CIniFile

/-- A character of section names and keys. -/
def NameChar (c : Char) : Prop := c ≠ '#' ∧ c ≠ '[' ∧ c ≠ ']' ∧ c ≠ '=' ∧ c ≠ ' '

instance : DecidablePred NameChar := fun c => by unfold NameChar; infer_instance

/-- The trimmed line of an item: a name in brackets, a key and a value, a comment or a blank
line. -/
def Spells (t : List Char) : IniItem → Prop
  | .header n => (∀ c ∈ n, NameChar c) ∧ t = sectionText n
  | .entry k v => (∀ c ∈ k, NameChar c) ∧ t = keyText k v
  | .remark => '#' ∈ t ∨ t = []

/-- What the line of an item counts as: a value may make a comment or a section line of it. -/
def itemType : IniItem → LineType
  | .header _ => .lineTypeSection
  | .entry _ v =>
    if '#' ∈ v then .lineTypeComment
    else if '[' ∈ v ∧ ']' ∈ v then .lineTypeSection
    else .lineTypeKey
  | .remark => .lineTypeComment

def itemText : IniItem → List Char
  | .header n => sectionText n
  | .entry k v => keyText k v
  | .remark => []

/-- The search of the prefix comparisons, in the items. -/
def prefixQuery (s k : List Char) : Query IniItem where
  opens i := itemType i = .lineTypeSection
  named i := s.isPrefixOf ((itemText i).drop 1)
  wanted i := itemType i = .lineTypeKey ∧ k.isPrefixOf (itemText i)

def itemValue : IniItem → Option (List Char)
  | .header _ => none
  | .entry _ v => some v
  | .remark => none

/-! ## What is taken for what -/

/-- The line of an item ends a section: a section line, and a key line with both brackets. -/
def EndsSection : IniItem → Prop
  | .header _ => True
  | .entry _ v => '#' ∉ v ∧ '[' ∈ v ∧ ']' ∈ v
  | .remark => False

/-- The line of an item is taken for that of the section `s`: it ends a section, and its text starts
with `s` behind the first character. -/
def TakenForSection (s : List Char) (i : IniItem) : Prop :=
  EndsSection i ∧ s <+: (itemText i).drop 1

/-- The line of an item is taken for that of the key `k`: it counts as a key line, and its text
starts with `k`. -/
def TakenForKey (k : List Char) : IniItem → Prop
  | .entry k' v => '#' ∉ v ∧ ¬ ('[' ∈ v ∧ ']' ∈ v) ∧ k <+: keyText k' v
  | _ => False

/-- The key line of `k` in the section `s`, with nothing in front that is taken for the one or the
other, or ends the section. -/
def Direct (s k : List Char) (is : List IniItem) : Prop :=
  ∃ pre mid v post, is = pre ++ .header s :: (mid ++ .entry k v :: post) ∧
    (∀ i ∈ pre, ¬ TakenForSection s i) ∧
    (∀ i ∈ mid, ¬ EndsSection i ∧ ¬ TakenForKey k i ∧ i.passes k) ∧ TakenForKey k (.entry k v)

/-- The line of an entry with the value `v` stands behind `n` others and the one that is taken for
the section line, and is taken for the key line. -/
def TakenAt (s k : List Char) (is : List IniItem) (n : ℕ) (v : List Char) : Prop :=
  ∃ pre hdr mid k' post, is = pre ++ hdr :: (mid ++ .entry k' v :: post) ∧
    pre.length + mid.length = n ∧ (∀ i ∈ pre, ¬ TakenForSection s i) ∧ TakenForSection s hdr ∧
    (∀ i ∈ mid, ¬ EndsSection i ∧ ¬ TakenForKey k i) ∧ TakenForKey k (.entry k' v)

/-- The key line that is asked for has the value `v`, and stands behind `n` others and its section
line. -/
def StandsAt (s k : List Char) (is : List IniItem) (n : ℕ) (v : List Char) : Prop :=
  ∃ pre mid post, is = pre ++ .header s :: (mid ++ .entry k v :: post) ∧
    pre.length + mid.length = n ∧ .header s ∉ pre ∧ ∀ i ∈ mid, i.passes k

/-- Neither is a line taken for that of the key, nor is there one. -/
def Absent (s k : List Char) (is : List IniItem) : Prop :=
  (∀ n v, ¬ TakenAt s k is n v) ∧ ∀ n v, ¬ StandsAt s k is n v

/-- Another line is taken for that of the key, and has the same value. -/
def Coincides (s k : List Char) (is : List IniItem) : Prop :=
  ∃ n m v, n ≠ m ∧ TakenAt s k is n v ∧ StandsAt s k is m v

/-- The line that is asked for has nothing in front that is taken for it, or there is neither such a
line nor one that is taken for it. What is left are lines that are taken for it and have its value
by coincidence. -/
def Unshadowed (s k : List Char) (is : List IniItem) : Prop :=
  Direct s k is ∨ Absent s k is ∨ Coincides s k is

variable {s k v : List Char} {is : List IniItem}

theorem opens_iff {i : IniItem} : (prefixQuery s k).opens i = true ↔ EndsSection i := by
  simp only [prefixQuery, decide_eq_true_eq]
  cases i with
  | header n => exact iff_of_true rfl trivial
  | entry k' v =>
    simp only [itemType, EndsSection]
    split_ifs with hc hb
    · exact iff_of_false (by simp) fun h => h.1 hc
    · exact iff_of_true rfl ⟨hc, hb⟩
    · exact iff_of_false (by simp) fun h => hb h.2
  | remark => exact iff_of_false (by simp [itemType]) id

theorem wanted_iff {i : IniItem} : (prefixQuery s k).wanted i = true ↔ TakenForKey k i := by
  simp only [prefixQuery, decide_eq_true_eq]
  cases i with
  | header n => exact iff_of_false (by simp [itemType]) id
  | entry k' v =>
    simp only [itemType, itemText, TakenForKey, List.isPrefixOf_iff_prefix]
    split_ifs with hc hb
    · exact iff_of_false (by simp) fun h => h.1 hc
    · exact iff_of_false (by simp) fun h => h.2.1 hb
    · exact ⟨fun h => ⟨hc, hb, h.2⟩, fun h => ⟨rfl, h.2.2⟩⟩
  | remark => exact iff_of_false (by simp [itemType]) id

theorem takenForSection_iff {i : IniItem} : (prefixQuery s k).opens i = true ∧
    (prefixQuery s k).named i = true ↔ TakenForSection s i := by
  rw [opens_iff]
  exact and_congr_right fun _ => List.isPrefixOf_iff_prefix

theorem misses_prefixQuery_iff {i : IniItem} :
    (prefixQuery s k).Misses i ↔ ¬ TakenForSection s i := by
  rw [← takenForSection_iff (k := k), not_and, Query.Misses, Bool.not_eq_true]

theorem passes_prefixQuery_iff {i : IniItem} :
    (prefixQuery s k).Passes i ↔ ¬ EndsSection i ∧ ¬ TakenForKey k i := by
  rw [← opens_iff (s := s) (k := k), ← wanted_iff (s := s), Bool.not_eq_true, Bool.not_eq_true]
  rfl

/-- **The comparisons lead** to the line that is taken for that of the key. -/
theorem find_eq_some_iff_takenAt :
    ((prefixQuery s k).find is).bind itemValue = some v ↔ ∃ n, TakenAt s k is n v := by
  rw [Option.bind_eq_some_iff]
  constructor
  · rintro ⟨i, hi, hv⟩
    obtain ⟨pre, hdr, mid, post, rfl, hpre, ho, hn, hmid, -, hw⟩ := Query.find_eq_some_iff.mp hi
    have hkey := wanted_iff.mp hw
    -- the line found is that of an entry
    cases i with
    | header n => exact hkey.elim
    | remark => exact hkey.elim
    | entry k' w =>
      obtain rfl := Option.some.inj hv
      exact ⟨_, pre, hdr, mid, k', post, rfl, rfl,
        fun i hi => misses_prefixQuery_iff.mp (hpre i hi), takenForSection_iff.mp ⟨ho, hn⟩,
        fun i hi => passes_prefixQuery_iff.mp (hmid i hi), hkey⟩
  · rintro ⟨n, pre, hdr, mid, k', post, rfl, -, hpre, hhdr, hmid, hkey⟩
    obtain ⟨ho, hn⟩ := takenForSection_iff (k := k).mpr hhdr
    have hopen : ¬ (prefixQuery s k).opens (.entry k' v) = true := fun h =>
      hkey.2.1 (opens_iff.mp h).2
    refine ⟨.entry k' v, Query.find_eq_some_iff.mpr ?_, rfl⟩
    exact ⟨pre, hdr, mid, post, rfl, fun i hi => misses_prefixQuery_iff.mpr (hpre i hi), ho, hn,
      fun i hi => passes_prefixQuery_iff.mpr (hmid i hi), Bool.eq_false_iff.mpr hopen,
      wanted_iff.mpr hkey⟩

theorem lookup_eq_some_iff_standsAt : lookup s k is = some v ↔ ∃ n, StandsAt s k is n v := by
  rw [lookup_eq_some_iff]
  constructor
  · rintro ⟨pre, mid, post, his, hpre, hmid⟩
    exact ⟨_, pre, mid, post, his, rfl, hpre, hmid⟩
  · rintro ⟨n, pre, mid, post, his, -, hpre, hmid⟩
    exact ⟨pre, mid, post, his, hpre, hmid⟩

theorem takenForSection_header (s : List Char) : TakenForSection s (.header s) :=
  ⟨trivial, List.prefix_append s [']']⟩

/-- **The same line** is taken for that of the key and asked for exactly if nothing in front of it
is taken for it. -/
theorem direct_iff : Direct s k is ↔ ∃ n v, TakenAt s k is n v ∧ StandsAt s k is n v := by
  constructor
  · rintro ⟨pre, mid, v, post, his, hpre, hmid, hkey⟩
    refine ⟨_, v, ⟨pre, _, mid, k, post, his, rfl, hpre, takenForSection_header s,
      fun i hi => ⟨(hmid i hi).1, (hmid i hi).2.1⟩, hkey⟩, pre, mid, post, his, rfl, ?_,
      fun i hi => (hmid i hi).2.2⟩
    exact fun hmem => hpre _ hmem (takenForSection_header s)
  · rintro ⟨n, v, ⟨pre, hdr, mid, k', post, his, hn, hpre, -, hmid, hkey⟩,
      pre', mid', post', his', hn', -, hmid'⟩
    have hget : is[pre'.length]? = some (.header s) := by simp [his']
    rcases Nat.lt_trichotomy pre.length pre'.length with hlt | heq | hgt
    · -- the section line that is asked for ends the section of the other one
      rw [his, List.getElem?_append_right hlt.le, List.getElem?_cons,
        if_neg (by omega), List.getElem?_append_left (by omega)] at hget
      exact absurd trivial (hmid _ (List.mem_of_getElem? hget)).1
    · -- the two splits of the list are the same one
      obtain ⟨rfl, hsection⟩ := List.append_inj (his.symm.trans his') heq
      obtain ⟨rfl, hbehind⟩ := List.cons.inj hsection
      obtain ⟨rfl, hkeys⟩ := List.append_inj hbehind (by omega)
      obtain ⟨hentry, rfl⟩ := List.cons.inj hkeys
      obtain ⟨rfl, -⟩ := Item.entry.inj hentry
      exact ⟨pre, mid, v, post, his, hpre,
        fun i hi => ⟨(hmid i hi).1, (hmid i hi).2, hmid' i hi⟩, hkey⟩
    · -- the section line that is asked for is in front
      rw [his, List.getElem?_append_left hgt] at hget
      exact absurd (takenForSection_header s) (hpre _ (List.mem_of_getElem? hget))

/-- **Nothing shadows a lookup** exactly if the comparisons lead to the value that is asked for. -/
theorem unshadowed_iff :
    Unshadowed s k is ↔ ((prefixQuery s k).find is).bind itemValue = lookup s k is := by
  constructor
  · have hboth : ∀ {n m v}, TakenAt s k is n v → StandsAt s k is m v →
        ((prefixQuery s k).find is).bind itemValue = lookup s k is := fun htaken hstands =>
      (find_eq_some_iff_takenAt.mpr ⟨_, htaken⟩).trans
        (lookup_eq_some_iff_standsAt.mpr ⟨_, hstands⟩).symm
    rintro (hdirect | ⟨htaken, hstands⟩ | ⟨n, m, v, -, htaken, hstands⟩)
    · obtain ⟨n, v, htaken, hstands⟩ := direct_iff.mp hdirect
      exact hboth htaken hstands
    · -- neither the search nor the lookup has a line
      have hfound : ((prefixQuery s k).find is).bind itemValue = none :=
        Option.eq_none_iff_forall_ne_some.mpr fun v hv =>
          (find_eq_some_iff_takenAt.mp hv).elim fun n => htaken n v
      have hlookup : lookup s k is = none :=
        Option.eq_none_iff_forall_ne_some.mpr fun v hv =>
          (lookup_eq_some_iff_standsAt.mp hv).elim fun n => hstands n v
      exact hfound.trans hlookup.symm
    · exact hboth htaken hstands
  · intro h
    cases hv : lookup s k is with
    | none =>
      refine .inr (.inl ⟨fun n v htaken => ?_, fun n v hstands => ?_⟩)
      · have hfound := find_eq_some_iff_takenAt.mpr ⟨n, htaken⟩
        rw [h, hv] at hfound
        cases hfound
      · cases hv.symm.trans (lookup_eq_some_iff_standsAt.mpr ⟨n, hstands⟩)
    | some v =>
      obtain ⟨n, htaken⟩ := find_eq_some_iff_takenAt.mp (h.trans hv)
      obtain ⟨m, hstands⟩ := lookup_eq_some_iff_standsAt.mp hv
      -- one line, or two with the same value
      by_cases hnm : n = m
      · subst hnm
        exact .inl (direct_iff.mpr ⟨n, v, htaken, hstands⟩)
      · exact .inr (.inr ⟨n, m, v, hnm, htaken, hstands⟩)

instance (s k : List Char) (is : List IniItem) : Decidable (Unshadowed s k is) :=
  decidable_of_iff _ unshadowed_iff.symm

/-! ## Lines and items -/

theorem not_mem_of_nameChar {n : List Char} (h : ∀ c ∈ n, NameChar c) :
    '#' ∉ n ∧ '[' ∉ n ∧ ']' ∉ n ∧ '=' ∉ n :=
  ⟨fun hm => (h _ hm).1 rfl, fun hm => (h _ hm).2.1 rfl, fun hm => (h _ hm).2.2.1 rfl,
    fun hm => (h _ hm).2.2.2.1 rfl⟩

theorem Spells.type_eq {t : List Char} {i : IniItem} (h : Spells t i) :
    getLineType t = itemType i := by
  cases i with
  | header n =>
    obtain ⟨hn, rfl⟩ := h
    have := not_mem_of_nameChar hn
    simp [getLineType, sectionText, itemType, this]
  | entry k v =>
    obtain ⟨hk, rfl⟩ := h
    have := not_mem_of_nameChar hk
    simp [getLineType, keyText, itemType, this]
  | remark => exact getLineType_remark h

theorem Spells.text_eq {t : List Char} {i : IniItem} (h : Spells t i)
    (hty : itemType i ≠ .lineTypeComment) : t = itemText i := by
  cases i with
  | header n => exact h.2
  | entry k v => exact h.2
  | remark => exact absurd rfl hty

/-- The value of a key line starts behind its key, which has no `=`. -/
theorem Spells.textValue_eq {t k v : List Char} (h : Spells t (.entry k v))
    (hty : itemType (.entry k v) = .lineTypeKey) : textValue t = v := by
  have htype : getLineType t = .lineTypeKey := h.type_eq.trans hty
  obtain ⟨hk, ht⟩ := h
  have heq : '=' ∉ k := (not_mem_of_nameChar hk).2.2.2
  have hstart : valueStart t = k.length + 1 := by
    rw [valueStart, htype, ht, keyText, List.idxOf_append_of_notMem heq]
    simp
  rw [textValue, hstart, ht, keyText]
  simp

/-- The searches in the lines and in the items stop at the same place. -/
theorem find_of_spells {ts : List (List Char)} {is : List IniItem}
    (h : List.Forall₂ Spells ts is) (s k : List Char) :
    Option.Rel Spells ((textQuery s k).find ts) ((prefixQuery s k).find is) := by
  refine Query.find_forall₂ (fun t i hi => ?_) (fun t i hi ho => ?_) (fun t i hi ho => ?_) h
  · simp only [textQuery, prefixQuery, hi.type_eq]
  · have hty : itemType i = .lineTypeSection := of_decide_eq_true ho
    have ht := hi.text_eq (by simp [hty])
    simp only [textQuery, prefixQuery, ht]
  · by_cases hty : itemType i = .lineTypeKey
    · have ht := hi.text_eq (by simp [hty])
      simp only [textQuery, prefixQuery, hi.type_eq]
      rw [ht]
    · simp [textQuery, prefixQuery, hi.type_eq, hty]

/-! ## Lookups -/

/-- The value of the line found is that of the item found. -/
theorem textValue_find_of_spells {ts : List (List Char)} {is : List IniItem}
    (h : List.Forall₂ Spells ts is) (s k : List Char) :
    ((textQuery s k).find ts).map textValue = ((prefixQuery s k).find is).bind itemValue := by
  have hrel := find_of_spells h s k
  cases hi : (prefixQuery s k).find is with
  | none =>
    rw [hi] at hrel
    cases ht : (textQuery s k).find ts with
    | none => rfl
    | some t =>
      rw [ht] at hrel
      cases hrel
  | some i =>
    rw [hi] at hrel
    cases ht : (textQuery s k).find ts with
    | none =>
      rw [ht] at hrel
      cases hrel
    | some t =>
      rw [ht] at hrel
      obtain ⟨hspell⟩ := hrel
      obtain ⟨-, -, -, -, -, -, -, -, -, -, hw⟩ := Query.find_eq_some_iff.mp hi
      have hty : itemType i = .lineTypeKey := (of_decide_eq_true hw).1
      -- a key line is that of an entry
      cases i with
      | header n => cases hty
      | remark => cases hty
      | entry k' v => exact congrArg some (hspell.textValue_eq hty)

/-- **A lookup in a loaded file is exact** exactly where nothing shadows it. -/
theorem getString_exact_iff (ini : CIniFile) {files : Files} {path content : List Char}
    (hfile : files (path.take 255) = some content) {is : List IniItem}
    (hspell : List.Forall₂ Spells (trimmedLines content) is) (s k : List Char) :
    (∀ default, (ini.loadFromFile files (some path)).2.getString s k default =
      (lookup s k is).or default) ↔ Unshadowed s k is := by
  have hlines : fileLines files path = trimmedLines content := by
    rw [fileLines, hfile]
    rfl
  rw [unshadowed_iff, ← textValue_find_of_spells hspell]
  constructor
  · intro h
    have hnone := h none
    rwa [getString_load, hlines, Option.or_none, Option.or_none] at hnone
  · intro h default
    rw [getString_load, hlines, h]

/-- The value of a key that a longer key stands in front of. -/
theorem getString_exact_iff_longer_key :
    ∃ (files : Files) (is : List IniItem), Unshadowed ['T', 'V'] ['k'] is ∧
      ∀ default, (new.loadFromFile files (some ['f'])).2.getString ['T', 'V'] ['k'] default =
        (lookup ['T', 'V'] ['k'] is).or default := by
  let content := ['[', 'T', 'V', ']', '\r', '\n', 'k', ' ', '=', '1', '\n', 'k', 'x', '=', '2']
  let is : List IniItem := [.header ['T', 'V'], .entry ['k'] ['1'], .entry ['k', 'x'] ['2']]
  have hspell : List.Forall₂ Spells (trimmedLines content) is := by
    have hlines : trimmedLines content =
        [sectionText ['T', 'V'], keyText ['k'] ['1'], keyText ['k', 'x'] ['2']] := rfl
    rw [hlines]
    refine .cons ⟨?_, rfl⟩ (.cons ⟨?_, rfl⟩ (.cons ⟨?_, rfl⟩ .nil)) <;> simp [NameChar]
  let files : Files := fun _ => some content
  have hfile : files (['f'].take 255) = some content := rfl
  have hexact : Unshadowed ['T', 'V'] ['k'] is :=
    .inl ⟨[], [], ['1'], [.entry ['k', 'x'] ['2']], rfl, by simp, by simp,
      by simp [TakenForKey, keyText]⟩
  exact ⟨files, is, hexact, (getString_exact_iff new hfile hspell _ _).mpr hexact⟩

/-- A longer key in front is found instead. -/
theorem not_forall_getString_exact :
    ¬ ∀ (files : Files) (path content : List Char) (is : List IniItem) (s k : List Char)
      (default : Option (List Char)), files (path.take 255) = some content →
      List.Forall₂ Spells (trimmedLines content) is → (∀ t ∈ trimmedLines content, t.length < 510) →
      s ≠ [] → k ≠ [] → (new.loadFromFile files (some path)).2.getString s k default =
        (lookup s k is).or default := by
  intro h
  let content := "[TV]\ntvin.userpet.timeout=5\ntvin.userpet=1\n".toList
  let timeout := "tvin.userpet.timeout".toList
  let userpet := "tvin.userpet".toList
  have hlines : trimmedLines content =
      [sectionText ['T', 'V'], keyText timeout ['5'], keyText userpet ['1']] := rfl
  have hspell : List.Forall₂ Spells (trimmedLines content)
      [.header ['T', 'V'], .entry timeout ['5'], .entry userpet ['1']] := by
    rw [hlines]
    refine .cons ⟨?_, rfl⟩ (.cons ⟨?_, rfl⟩ (.cons ⟨?_, rfl⟩ .nil)) <;>
      simp [NameChar, timeout, userpet]
  have hlength : ∀ t ∈ trimmedLines content, t.length < 510 := by
    rw [hlines]
    simp only [List.forall_mem_cons, List.not_mem_nil, false_imp_iff, implies_true]
    decide
  have hget := h (fun _ => some content) ['f'] content _ ['T', 'V'] userpet none rfl hspell
    hlength (by simp) (by decide)
  have hfound : (new.loadFromFile (fun _ => some content) (some ['f'])).2.getString ['T', 'V']
      userpet none = some ['5'] := rfl
  exact absurd (hfound.symm.trans hget) (by decide)

/-! ## Files without shadows -/

/-- An item that the comparisons with a name and a key take for what it is. -/
def Apart (s k : List Char) : IniItem → Prop
  | .header n => s <+: n ++ [']'] → n = s
  | .entry k' v => '#' ∉ v ∧ ¬ ('[' ∈ v ∧ ']' ∈ v) ∧ (k <+: keyText k' v → k' = k)
  | .remark => True

theorem Apart.itemType_entry {s k k' v : List Char} (h : Apart s k (.entry k' v)) :
    itemType (.entry k' v) = .lineTypeKey := by
  rw [itemType, if_neg h.1, if_neg h.2.1]

theorem inSection_of_apart {s k : List Char} {is : List IniItem} (h : ∀ i ∈ is, Apart s k i) :
    ((prefixQuery s k).inSection is).bind itemValue = entryIn k is := by
  induction is with
  | nil => rfl
  | cons i is ih =>
    rw [List.forall_mem_cons] at h
    cases i with
    | header n => rfl
    | remark => exact ih h.2
    | entry k' v =>
      have hty := h.1.itemType_entry
      have ho : (prefixQuery s k).opens (.entry k' v) = false := by simp [prefixQuery, hty]
      by_cases hkey : k' = k
      · subst hkey
        have hw : (prefixQuery s k').wanted (.entry k' v) = true := by
          simp [prefixQuery, hty, itemText, keyText]
        rw [Query.inSection_cons ho hw, entryIn, if_pos rfl]
        rfl
      · have hw : (prefixQuery s k).wanted (.entry k' v) = false := by
          have hnot : ¬ k <+: keyText k' v := fun hp => hkey (h.1.2.2 hp)
          simp [prefixQuery, itemText, hnot]
        rw [Query.inSection_cons_of_passes ⟨ho, hw⟩, entryIn, if_neg hkey]
        exact ih h.2

/-- **Nothing shadows what stands apart**: a key of a section where no other section name and no
other key starts with theirs, and no value makes a comment or a section of its line. -/
theorem unshadowed_of_apart {s k : List Char} {is : List IniItem} (h : ∀ i ∈ is, Apart s k i) :
    Unshadowed s k is := by
  rw [unshadowed_iff]
  induction is with
  | nil => rfl
  | cons i is ih =>
    rw [List.forall_mem_cons] at h
    cases i with
    | header n =>
      by_cases hn : n = s
      · subst hn
        have hnamed : (prefixQuery n k).named (.header n) = true := by
          simp [prefixQuery, itemText, sectionText]
        rw [Query.find_cons rfl hnamed, inSection_of_apart h.2, lookup, afterSection, if_pos rfl]
        rfl
      · have hmiss : (prefixQuery s k).Misses (.header n) := fun _ => by
          have hnot : ¬ s <+: n ++ [']'] := fun hp => hn (h.1 hp)
          simpa [prefixQuery, itemText, sectionText, ← Bool.not_eq_true] using hnot
        rw [Query.find_cons_of_misses hmiss, ih h.2, lookup, lookup, afterSection, if_neg hn]
    | entry k' v =>
      have hmiss : (prefixQuery s k).Misses (.entry k' v) := fun ho => by
        simp [prefixQuery, h.1.itemType_entry] at ho
      rw [Query.find_cons_of_misses hmiss, ih h.2]
      rfl
    | remark =>
      have hmiss : (prefixQuery s k).Misses .remark := fun ho => by
        simp [prefixQuery, itemType] at ho
      rw [Query.find_cons_of_misses hmiss, ih h.2]
      rfl

end CIniFile
