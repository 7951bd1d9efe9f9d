import TvServer.Config.Items
import TvServer.Config.Searches

/-!
# What a write does to the values

Setting a value puts a section line in front of all lines, a key line behind its section line, or
a text into the line found for the key. What any key reads as after it is given by what is found
before it: a new line is found first by every key that its text starts with, the lines in front of
the first section become part of a new one, and a rewritten line keeps its pointer to the value.

## Main definitions

* `Reachable`: the ini files that loading and setting values lead to
* `valueAfter`: what a key reads as after a write
* `ReadsBack`: the value written is the one that is read
* `Undisturbed`: a key that a write leaves alone

## Main results

* `getString_setString`: what is read after a write
* `readsBack_iff`: when a write is read back
* `undisturbed_iff`: when another key keeps its value
-/

open Lines Search

namespace CIniFile

/-- The ini files that loading files and setting values lead to. -/
inductive Reachable : CIniFile → Prop
  | new : Reachable new
  | load {ini : CIniFile} (files : Files) (filename : Option (List Char)) :
      Reachable ini → Reachable (ini.loadFromFile files filename).2
  | set {ini ini' : CIniFile} {files files' : Files} {outcome : SaveOutcome}
      {name key value : List Char} : Reachable ini →
      ini.setString files outcome name key value = some (ini', files') → Reachable ini'

theorem setLines_of_setString {ini ini' : CIniFile} {files files' : Files} {outcome : SaveOutcome}
    {name key value : List Char}
    (h : ini.setString files outcome name key value = some (ini', files')) :
    ini.setLines name key value = some ini' := by
  obtain ⟨ini₁, hset, he⟩ := Option.map_eq_some_iff.mp h
  rwa [← (Prod.mk.inj he).1]

theorem Reachable.linked {ini : CIniFile} (h : Reachable ini) : Linked ini := by
  induction h with
  | new => exact ⟨List.nodup_nil, by simp [CIniFile.new], rfl⟩
  | load files filename _ _ => exact linked_loadFromFile _ files filename
  | set _ hset ih => exact (setLines_cases ih (setLines_of_setString hset)).2.1

/-! ## The lines written -/

theorem NewSectionLine.str_eq {s : List Char} {l : Line} (h : NewSectionLine s l)
    (hs : '\x00' ∉ s) : l.str = sectionText s := by
  have hnull : '\x00' ∉ sectionText s := by simp [sectionText, hs]
  simpa [Line.str] using cstr_drop_sprintfText h.text hnull (Nat.zero_le _)

theorem null_not_mem_keyText {k v : List Char} (hk : '\x00' ∉ k) (hv : '\x00' ∉ v) :
    '\x00' ∉ keyText k v := by simp [keyText, hk, hv]

theorem NewKeyLine.str_eq {k v : List Char} {l : Line} (h : NewKeyLine k v l) (hk : '\x00' ∉ k)
    (hv : '\x00' ∉ v) : l.str = keyText k v := by
  simpa [Line.str] using cstr_drop_sprintfText h.text (null_not_mem_keyText hk hv) (Nat.zero_le _)

theorem NewKeyLine.value_eq {k v : List Char} {l : Line} (h : NewKeyLine k v l)
    (hk : '\x00' ∉ k) (hv : '\x00' ∉ v) : l.value = v := by
  rw [Line.value, h.pValueStart, cstr_drop_sprintfText h.text (null_not_mem_keyText hk hv)]
  · simp [keyText]
  · simp [keyText]

/-- What the pointer of a line to its value leads to when its text is rewritten: into the new text,
or behind it to what the buffer still holds. -/
def rewrittenValue (line : Line) (key value : List Char) : List Char :=
  if line.pValueStart ≤ (keyText key value).length then (keyText key value).drop line.pValueStart
  else line.value

theorem value_of_rewrite {line : Line} {k v text : List Char} (hk : '\x00' ∉ k) (hv : '\x00' ∉ v)
    (h : sprintfText line.text (keyText k v) = some text) :
    Line.value { line with text := text } = rewrittenValue line k v := by
  rw [rewrittenValue]
  split
  · rename_i hle
    exact cstr_drop_sprintfText h (null_not_mem_keyText hk hv) hle
  · rename_i hgt
    rw [sprintfText] at h
    split at h
    · obtain rfl := Option.some.inj h
      obtain ⟨n, hn⟩ := Nat.exists_eq_add_of_lt (Nat.lt_of_not_le hgt)
      have hbehind : ∀ new rest : List Char,
          (new ++ '\x00' :: rest).drop (new.length + (n + 1)) = rest.drop n := by
        intro new rest
        rw [List.drop_length_add_append, List.drop_succ_cons]
      rw [Line.value, Line.value, hn, Nat.add_assoc, hbehind, List.drop_drop]
      congr 2
      omega
    · cases h

/-! ## What is read after a write -/

/-- The lines of a section in front of one of its lines. -/
def linesInFront (ini : CIniFile) (sec : ℕ) (line : Line) : List Line :=
  (ini.linesAfter sec).takeWhile fun l => l.addr ≠ line.addr

theorem linesInFront_of_split {ini : CIniFile} (h : Linked ini) {pre mid post : List Line}
    {hdr line : Line} (he : ini.lines = pre ++ hdr :: (mid ++ line :: post)) :
    ini.linesInFront hdr.addr line = mid := by
  have hsplit : ini.lines = (pre ++ hdr :: mid) ++ line :: post := by simp [he]
  rw [linesInFront, linesAfter_of_split h he, List.takeWhile_append_of_pos]
  · simp
  · intro l hl
    simpa using (h.addr_ne hsplit).1 l (by simp [hl])

/-- What a key reads as after a write, by what is found before it. -/
def valueAfter (ini : CIniFile) (s k v s' k' : List Char) : Option (List Char) :=
  let before := ini.getString s' k' none
  match ini.getSection s with
  | none =>
    -- the new section is the first one, and goes on with the lines in front of all sections
    if s' <+: s ++ [']'] then
      if k' <+: keyText k v then some v else (keyLineIn k' ini.lines).map Line.value
    else before
  | some sec =>
    if ini.getSection s' = some sec then
      match ini.getKeyLineAtSec sec k with
      | none => if k' <+: keyText k v then some v else before
      | some line =>
        if (keyLineIn k' (ini.linesInFront sec line)).isSome then before
        else if k' <+: keyText k v then some (rewrittenValue line k v)
        else (keyLineIn k' (ini.linesAfter line.addr)).map Line.value
    else before

theorem keyLineIn_cons_key {l : Line} (hty : l.type = .lineTypeKey) (key : List Char)
    (ls : List Line) :
    keyLineIn key (l :: ls) = if key <+: l.str then some l else keyLineIn key ls := by
  simp only [keyLineIn, hty, List.isPrefixOf_iff_prefix]

theorem keyLineIn_append {pre : List Line} (h : ∀ l ∈ pre, l.type ≠ .lineTypeSection)
    (key : List Char) (ls : List Line) :
    keyLineIn key (pre ++ ls) = (keyLineIn key pre).or (keyLineIn key ls) := by
  rw [keyLineIn_eq_inSection [], keyLineIn_eq_inSection [], keyLineIn_eq_inSection []]
  exact Query.inSection_append_of_not_opens (fun l hl => decide_eq_false (h l hl)) ls

theorem keyLineIn_of_passes {key : List Char} {mid : List Line} (h : ∀ l ∈ mid, Passes key l)
    (ls : List Line) : keyLineIn key (mid ++ ls) = keyLineIn key ls := by
  rw [keyLineIn_eq_inSection [], keyLineIn_eq_inSection []]
  exact Query.inSection_append (fun l hl => passes_iff.mpr (h l hl)) ls

/-- The first line of a key is the one found for it. -/
theorem keyLineIn_of_split {key : List Char} {mid : List Line} {line : Line}
    (hpass : ∀ l ∈ mid, Passes key l) (hty : line.type = .lineTypeKey)
    (hpfx : key.isPrefixOf line.str = true) (post : List Line) :
    keyLineIn key (mid ++ line :: post) = some line := by
  rw [keyLineIn_of_passes hpass, keyLineIn_cons_key hty,
    if_pos (List.isPrefixOf_iff_prefix.mp hpfx)]

/-- A key is read in the section that the search for its name stops at. -/
theorem getString_of_getSection {ini : CIniFile} (h : Linked ini) {pre post : List Line}
    {hdr : Line} (he : ini.lines = pre ++ hdr :: post) {s : List Char}
    (hs : ini.getSection s = some hdr.addr) (k : List Char) :
    ini.getString s k none = (keyLineIn k post).map Line.value := by
  rw [getString, hs]
  simp only [getKeyLineAtSec, linesAfter_of_split h he]
  cases keyLineIn k post <;> rfl

/-- Writing into a section leaves the keys of all others alone. -/
theorem getString_of_getSection_ne {ini ini' : CIniFile} (h : Linked ini) (h' : Linked ini')
    {pre x y post : List Line} {hdr : Line} (he : ini.lines = pre ++ hdr :: (x ++ post))
    (he' : ini'.lines = pre ++ hdr :: (y ++ post)) (hty : hdr.type = .lineTypeSection)
    (hx : ∀ l ∈ x, l.type ≠ .lineTypeSection) (hy : ∀ l ∈ y, l.type ≠ .lineTypeSection)
    {s : List Char} (hs : ini.getSection s ≠ some hdr.addr) (k : List Char) :
    ini'.getString s k none = ini.getString s k none := by
  have hother : (∀ l ∈ pre, (lineQuery s k).Misses l) → (lineQuery s k).named hdr = false := by
    intro hmiss
    refine Bool.eq_false_iff.mpr fun hnamed => hs ?_
    exact (getSection_eq_some_iff h he hty s).mpr ⟨fun l hl => misses_iff.mp (hmiss l hl), hnamed⟩
  rw [getString_eq_find h, getString_eq_find h', he, he', Query.find_congr_section
    (decide_eq_true hty) (fun l hl => decide_eq_false (hx l hl))
    (fun l hl => decide_eq_false (hy l hl)) hother]

theorem getString_newSection {ini ini' : CIniFile} (h : Linked ini) (h' : Linked ini')
    {s k v : List Char} (hs : '\x00' ∉ s) (hk : '\x00' ∉ k) (hv : '\x00' ∉ v) {sec line : Line}
    (he' : ini'.lines = sec :: line :: ini.lines) (hsec : NewSectionLine s sec)
    (hline : NewKeyLine k v line) (s' k' : List Char) :
    ini'.getString s' k' none =
      if s' <+: s ++ [']'] then
        if k' <+: keyText k v then some v else (keyLineIn k' ini.lines).map Line.value
      else ini.getString s' k' none := by
  have hnamed : isSectionNamed s' sec = true ↔ s' <+: s ++ [']'] := by
    rw [isSectionNamed, hsec.str_eq hs, List.isPrefixOf_iff_prefix]
    rfl
  split
  · rename_i hpfx
    have hsplit : ini'.lines = [] ++ sec :: line :: ini.lines := he'
    have hfound : ini'.getSection s' = some sec.addr :=
      (getSection_eq_some_iff h' hsplit hsec.type s').mpr ⟨by simp, hnamed.mpr hpfx⟩
    rw [getString_of_getSection h' hsplit hfound, keyLineIn_cons_key hline.type,
      hline.str_eq hk hv]
    split
    · rw [Option.map_some, hline.value_eq hk hv]
    · rfl
  · rename_i hpfx
    have hmiss : (lineQuery s' k').Misses sec :=
      fun _ => Bool.eq_false_iff.mpr fun hn => hpfx (hnamed.mp hn)
    have hmiss' : (lineQuery s' k').Misses line := fun ho =>
      absurd (of_decide_eq_true ho) (by simp [hline.type])
    rw [getString_eq_find h', he', Query.find_cons_of_misses hmiss,
      Query.find_cons_of_misses hmiss', ← getString_eq_find h]

theorem getString_newKey {ini ini' : CIniFile} (h : Linked ini) (h' : Linked ini')
    {k v : List Char} (hk : '\x00' ∉ k) (hv : '\x00' ∉ v) {pre post : List Line} {hdr line : Line}
    (he : ini.lines = pre ++ hdr :: post) (he' : ini'.lines = pre ++ hdr :: line :: post)
    (hty : hdr.type = .lineTypeSection) (hline : NewKeyLine k v line) (s' k' : List Char) :
    ini'.getString s' k' none =
      if ini.getSection s' = some hdr.addr then
        if k' <+: keyText k v then some v else ini.getString s' k' none
      else ini.getString s' k' none := by
  split
  · rename_i hsec
    have hsec' : ini'.getSection s' = some hdr.addr := by
      rw [getSection_eq_some_iff h' he' hty, ← getSection_eq_some_iff h he hty]
      exact hsec
    rw [getString_of_getSection h' he' hsec', keyLineIn_cons_key hline.type, hline.str_eq hk hv,
      getString_of_getSection h he hsec]
    split
    · rw [Option.map_some, hline.value_eq hk hv]
    · rfl
  · rename_i hsec
    exact getString_of_getSection_ne h h' (x := []) (y := [line]) he he' hty (by simp)
      (by simp [hline.type]) hsec k'

theorem getString_rewrite {ini ini' : CIniFile} (h : Linked ini) (h' : Linked ini')
    {k v : List Char} (hk : '\x00' ∉ k) (hv : '\x00' ∉ v) {pre mid post : List Line}
    {hdr line : Line} {text : List Char} (he : ini.lines = pre ++ hdr :: (mid ++ line :: post))
    (he' : ini'.lines = pre ++ hdr :: (mid ++ { line with text := text } :: post))
    (hty : hdr.type = .lineTypeSection) (hmid : ∀ l ∈ mid, l.type ≠ .lineTypeSection)
    (hkey : line.type = .lineTypeKey) (htext : sprintfText line.text (keyText k v) = some text)
    (s' k' : List Char) :
    ini'.getString s' k' none =
      if ini.getSection s' = some hdr.addr then
        if (keyLineIn k' mid).isSome then ini.getString s' k' none
        else if k' <+: keyText k v then some (rewrittenValue line k v)
        else (keyLineIn k' post).map Line.value
      else ini.getString s' k' none := by
  have hstr : Line.str { line with text := text } = keyText k v := by
    simpa [Line.str] using
      cstr_drop_sprintfText htext (null_not_mem_keyText hk hv) (Nat.zero_le _)
  have hkey' : Line.type { line with text := text } = .lineTypeKey := hkey
  split
  · rename_i hsec
    have hsec' : ini'.getSection s' = some hdr.addr := by
      rw [getSection_eq_some_iff h' he' hty, ← getSection_eq_some_iff h he hty]
      exact hsec
    rw [getString_of_getSection h' he' hsec', keyLineIn_append hmid, getString_of_getSection h he
      hsec, keyLineIn_append hmid, keyLineIn_cons_key hkey', hstr]
    cases keyLineIn k' mid with
    | some l => rfl
    | none =>
      simp only [Option.none_or, Option.isSome_none, Bool.false_eq_true, if_false]
      split
      · rw [Option.map_some, value_of_rewrite hk hv htext]
      · rfl
  · rename_i hsec
    have hx : ini.lines = pre ++ hdr :: (mid ++ [line] ++ post) := by simp [he]
    have hy : ini'.lines = pre ++ hdr :: (mid ++ [{ line with text := text }] ++ post) := by
      simp [he']
    refine getString_of_getSection_ne h h' hx hy hty ?_ ?_ hsec k'
    · exact List.forall_mem_append.mpr ⟨hmid, by simp [hkey]⟩
    · exact List.forall_mem_append.mpr ⟨hmid, by simp [hkey]⟩

/-- **What is read after a write.** -/
theorem getString_setLines {ini ini' : CIniFile} (h : Linked ini) {s k v : List Char}
    (hs : '\x00' ∉ s) (hk : '\x00' ∉ k) (hv : '\x00' ∉ v) (hset : ini.setLines s k v = some ini')
    (s' k' : List Char) : ini'.getString s' k' none = ini.valueAfter s k v s' k' := by
  obtain ⟨hstep, h', -⟩ := setLines_cases h hset
  generalize hls : ini.lines = ls at hstep
  generalize hls' : ini'.lines = ls' at hstep
  rw [valueAfter]
  cases hstep with
  | newSection hmiss hsec hline =>
    subst hls
    rw [(getSection_eq_none_iff h s).mpr hmiss]
    exact getString_newSection h h' hs hk hv hls' hsec hline s' k'
  | @newKey pre post hdr line hmiss hty hnamed hnone hline =>
    have hfound := (getSection_eq_some_iff h hls hty s).mpr ⟨hmiss, hnamed⟩
    simp only [hfound, getKeyLineAtSec, linesAfter_of_split h hls, hnone]
    exact getString_newKey h h' hk hv hls hls' hty hline s' k'
  | @rewrite pre mid post hdr line text hmiss hty hnamed hpass hkey hpfx htext =>
    have hfound := (getSection_eq_some_iff h hls hty s).mpr ⟨hmiss, hnamed⟩
    have hmid : ∀ l ∈ mid, l.type ≠ .lineTypeSection := fun l hl => (hpass l hl).1
    have hsplit : ini.lines = (pre ++ hdr :: mid) ++ line :: post := by simp [hls]
    -- the line is the first one of the key, and the only one with its address
    have hline := keyLineIn_of_split hpass hkey hpfx post
    simp only [hfound, getKeyLineAtSec, linesAfter_of_split h hls, hline,
      linesInFront_of_split h hls, linesAfter_of_split h hsplit]
    exact getString_rewrite h h' hk hv hls hls' hty hmid hkey htext s' k'

theorem getString_or (ini : CIniFile) (s k : List Char) (default : Option (List Char)) :
    ini.getString s k default = (ini.getString s k none).or default := by
  rw [getString, getString]
  cases ini.getSection s with
  | none => rfl
  | some sec => cases h : ini.getKeyLineAtSec sec k <;> simp [h]

/-- What a call of `setString` comes to: it is defined, and leaves what the spec of the write
gives. -/
theorem getString_setString {ini : CIniFile} (h : Linked ini) {s k v : List Char}
    (hs : '\x00' ∉ s) (hk : '\x00' ∉ k) (hv : '\x00' ∉ v) (files : Files) (outcome : SaveOutcome)
    (s' k' : List Char) (P : Option (List Char) → Prop) :
    (∃ ini' files', ini.setString files outcome s k v = some (ini', files') ∧
      P (ini'.getString s' k' none)) ↔
      ((keyText k v).length < maxIniFileLineLen ∧
        (ini.getSection s = none → (sectionText s).length < maxIniFileLineLen)) ∧
      P (ini.valueAfter s k v s' k') := by
  rw [← exists_setLines_iff]
  constructor
  · rintro ⟨ini', files', hset, hp⟩
    have hlines := setLines_of_setString hset
    rw [getString_setLines h hs hk hv hlines] at hp
    exact ⟨⟨ini', hlines⟩, hp⟩
  · rintro ⟨⟨ini', hlines⟩, hp⟩
    rw [← getString_setLines h hs hk hv hlines] at hp
    exact ⟨ini', _, by rw [setString, hlines, Option.map_some], hp⟩

/-! ## Reading back what was written -/

/-- The value written is the one that is read: the name of a new section fits its line, and a line
that is rewritten has its value behind a key of the same length. (Or the value happens to stand
where the pointer leads, behind the new text.) -/
def ReadsBack (ini : CIniFile) (s k v : List Char) : Prop :=
  match ini.getSection s with
  | none => (sectionText s).length < maxIniFileLineLen
  | some sec =>
    match ini.getKeyLineAtSec sec k with
    | none => True
    | some line => line.pValueStart = k.length + 1 ∨
        (keyText k v).length < line.pValueStart ∧ line.value = v

theorem rewrittenValue_eq_iff (line : Line) (k v : List Char) :
    rewrittenValue line k v = v ↔ line.pValueStart = k.length + 1 ∨
      (keyText k v).length < line.pValueStart ∧ line.value = v := by
  have hlen : (keyText k v).length = k.length + 1 + v.length := by
    rw [keyText, List.length_append, List.length_cons]
    omega
  rw [rewrittenValue]
  split
  · rename_i hle
    constructor
    · intro hdrop
      have hcount := congrArg List.length hdrop
      rw [List.length_drop] at hcount
      exact .inl (by omega)
    · rintro (hstart | ⟨hgt, -⟩)
      · rw [hstart, keyText]
        simp
      · omega
  · rename_i hgt
    constructor
    · exact fun hval => .inr ⟨Nat.lt_of_not_le hgt, hval⟩
    · rintro (hstart | ⟨-, hval⟩)
      · omega
      · exact hval

/-- No line in front of the one found for a key starts with the key. -/
theorem keyLineIn_linesInFront {ini : CIniFile} (h : Linked ini) {s k : List Char} {sec : ℕ}
    {line : Line} (hsec : ini.getSection s = some sec)
    (hline : ini.getKeyLineAtSec sec k = some line) :
    keyLineIn k (ini.linesInFront sec line) = none := by
  rcases getSection_cases h s with
    ⟨hnone, -⟩ | ⟨pre, hdr, post, he, -, -, -, hsome, hafter⟩
  · cases hnone.symm.trans hsec
  · obtain rfl := Option.some.inj (hsome.symm.trans hsec)
    rw [getKeyLineAtSec, hafter] at hline
    obtain ⟨mid, rest, rfl, hpass, -⟩ := keyLineIn_eq_some hline
    have hnone := keyLineIn_of_passes hpass []
    rw [List.append_nil] at hnone
    rw [linesInFront_of_split h he, hnone]
    rfl

/-- **When a write is read back**, in every ini file that loading and setting values lead to. -/
theorem readsBack_iff {ini : CIniFile} (h : Reachable ini) {s k v : List Char} (hs : '\x00' ∉ s)
    (hk : '\x00' ∉ k) (hv : '\x00' ∉ v) (hfit : (keyText k v).length < maxIniFileLineLen)
    (files : Files) (outcome : SaveOutcome) :
    (∃ ini' files', ini.setString files outcome s k v = some (ini', files') ∧
      ∀ default, ini'.getString s k default = some v) ↔ ReadsBack ini s k v := by
  have hdefault : ∀ ini' : CIniFile, (∀ default, ini'.getString s k default = some v) ↔
      ini'.getString s k none = some v := fun ini' =>
    ⟨fun hall => hall none, fun hnone default => by rw [getString_or, hnone, Option.some_or]⟩
  simp only [hdefault]
  rw [getString_setString h.linked hs hk hv files outcome s k (· = some v), ReadsBack, valueAfter]
  have hpfx : k <+: keyText k v := ⟨'=' :: v, rfl⟩
  cases hsec : ini.getSection s with
  | none => simp [hfit, hpfx]
  | some sec =>
    cases hline : ini.getKeyLineAtSec sec k with
    | none => simp [hfit, hline, hpfx]
    | some line =>
      have hfront := keyLineIn_linesInFront h.linked hsec hline
      simp only [hfit, hline, hfront, hpfx, Option.isSome_none, if_true, Bool.false_eq_true,
        if_false, Option.some.injEq, reduceCtorEq, false_imp_iff, and_self, true_and]
      exact rewrittenValue_eq_iff line k v

/-- A value that replaces another one in a loaded file. -/
theorem readsBack_iff_overwrite :
    ∃ ini, Reachable ini ∧ ReadsBack ini ['s'] ['a'] ['y'] ∧
      ∃ ini' files', ini.setString (fun _ => none) .openFails ['s'] ['a'] ['y'] =
          some (ini', files') ∧
        ∀ default, ini'.getString ['s'] ['a'] default = some ['y'] := by
  let ini := (new.loadFromFile (fun _ => some ['[', 's', ']', '\n', 'a', '=', 'x']) (some [])).2
  have hini : Reachable ini := .load _ _ .new
  have hreads : ReadsBack ini ['s'] ['a'] ['y'] := .inl rfl
  exact ⟨ini, hini, hreads,
    (readsBack_iff hini (by simp) (by simp) (by simp) (by decide) _ _).mpr hreads⟩

/-- In the line of a longer key the value is lost. -/
theorem not_forall_readsBack :
    ¬ ∀ (ini : CIniFile) (files : Files) (outcome : SaveOutcome) (s k v : List Char),
      Reachable ini → '\x00' ∉ s → '\x00' ∉ k → '\x00' ∉ v → s ≠ [] → k ≠ [] → '=' ∉ k →
      (sectionText s).length < maxIniFileLineLen → (keyText k v).length < maxIniFileLineLen →
      ∃ ini' files', ini.setString files outcome s k v = some (ini', files') ∧
        ∀ default, ini'.getString s k default = some v := by
  intro h
  let content := ['[', 's', ']', '\n', 'a', 'b', 'c', '=', '1']
  let ini := (new.loadFromFile (fun _ => some content) (some [])).2
  obtain ⟨ini', files', hset, hget⟩ := h ini (fun _ => none) .openFails ['s'] ['a', 'b'] ['x']
    (.load _ _ .new) (by simp) (by simp) (by simp) (by simp) (by simp) (by simp) (by decide)
    (by decide)
  have hread := getString_setLines (linked_loadFromFile _ _ _) (by simp) (by simp) (by simp)
    (setLines_of_setString hset) ['s'] ['a', 'b']
  have hvalue : ini.valueAfter ['s'] ['a', 'b'] ['x'] ['s'] ['a', 'b'] = some [] := rfl
  exact absurd ((hget none).symm.trans (hread.trans hvalue)) (by simp)

/-! ## What another key reads as -/

/-- A key that a write leaves alone: nothing that the write puts where the key is looked for
changes what is found. A new section counts where its name starts with that of the key, a new key
line in the section of the key, and a rewritten line there with no line of the key in front. -/
def Undisturbed (ini : CIniFile) (s k v s' k' : List Char) : Prop :=
  let before := ini.getString s' k' none
  match ini.getSection s with
  | none => s' <+: s ++ [']'] →
      if k' <+: keyText k v then before = some v
      else before = (keyLineIn k' ini.lines).map Line.value
  | some sec => ini.getSection s' = some sec →
      match ini.getKeyLineAtSec sec k with
      | none => k' <+: keyText k v → before = some v
      | some line => keyLineIn k' (ini.linesInFront sec line) = none →
          if k' <+: keyText k v then before = some (rewrittenValue line k v)
          else before = (keyLineIn k' (ini.linesAfter line.addr)).map Line.value

/-- **When another key keeps its value**, in every ini file that loading and setting values lead
to. -/
theorem undisturbed_iff {ini : CIniFile} (h : Reachable ini) {s k v : List Char} (hs : '\x00' ∉ s)
    (hk : '\x00' ∉ k) (hv : '\x00' ∉ v) (files : Files) (outcome : SaveOutcome)
    (s' k' : List Char) :
    (∃ ini' files', ini.setString files outcome s k v = some (ini', files') ∧
      ∀ default, ini'.getString s' k' default = ini.getString s' k' default) ↔
      ((keyText k v).length < maxIniFileLineLen ∧
        (ini.getSection s = none → (sectionText s).length < maxIniFileLineLen)) ∧
      Undisturbed ini s k v s' k' := by
  have hdefault : ∀ ini' : CIniFile,
      (∀ default, ini'.getString s' k' default = ini.getString s' k' default) ↔
        ini'.getString s' k' none = ini.getString s' k' none := fun ini' =>
    ⟨fun hall => hall none, fun hnone default => by
      rw [getString_or, hnone, ← getString_or]⟩
  simp only [hdefault]
  rw [getString_setString h.linked hs hk hv files outcome s' k' (· = ini.getString s' k' none)]
  refine and_congr_right fun _ => ?_
  rw [valueAfter, Undisturbed]
  cases hsec : ini.getSection s with
  | none =>
    dsimp only
    by_cases hpfx : s' <+: s ++ [']']
    · by_cases hkey : k' <+: keyText k v <;> simp [hpfx, hkey, eq_comm]
    · simp [hpfx]
  | some sec =>
    dsimp only
    by_cases hsame : ini.getSection s' = some sec
    · cases hline : ini.getKeyLineAtSec sec k with
      | none => by_cases hkey : k' <+: keyText k v <;> simp [hsame, hkey, eq_comm]
      | some line =>
        dsimp only
        cases hfront : keyLineIn k' (ini.linesInFront sec line) with
        | some l => simp [hsame]
        | none => by_cases hkey : k' <+: keyText k v <;> simp [hsame, hkey, eq_comm]
    · simp [hsame]

/-- A key beside the one that is overwritten. -/
theorem undisturbed_iff_overwrite :
    ∃ ini, Reachable ini ∧ Undisturbed ini ['s'] ['a'] ['y'] ['s'] ['b'] ∧
      ∃ ini' files', ini.setString (fun _ => none) .openFails ['s'] ['a'] ['y'] =
          some (ini', files') ∧
        ∀ default, ini'.getString ['s'] ['b'] default = ini.getString ['s'] ['b'] default := by
  let content := ['[', 's', ']', '\n', 'a', '=', 'x', '\n', 'b', '=', 'z']
  let ini := (new.loadFromFile (fun _ => some content) (some [])).2
  have hini : Reachable ini := .load _ _ .new
  have hundisturbed : Undisturbed ini ['s'] ['a'] ['y'] ['s'] ['b'] := fun _ _ => rfl
  have hfits : (keyText ['a'] ['y']).length < maxIniFileLineLen ∧
      (ini.getSection ['s'] = none → (sectionText ['s']).length < maxIniFileLineLen) :=
    ⟨by decide, fun _ => by decide⟩
  exact ⟨ini, hini, hundisturbed,
    (undisturbed_iff hini (by simp) (by simp) (by simp) _ _ _ _).mpr ⟨hfits, hundisturbed⟩⟩

/-- A new section takes the lines in front of the first section. -/
theorem not_forall_undisturbed :
    ¬ ∀ (ini : CIniFile) (files : Files) (outcome : SaveOutcome) (s k v s' k' : List Char),
      Reachable ini → '\x00' ∉ s → '\x00' ∉ k → '\x00' ∉ v → (s', k') ≠ (s, k) →
      (sectionText s).length < maxIniFileLineLen → (keyText k v).length < maxIniFileLineLen →
      ∃ ini' files', ini.setString files outcome s k v = some (ini', files') ∧
        ∀ default, ini'.getString s' k' default = ini.getString s' k' default := by
  intro h
  let ini := (new.loadFromFile (fun _ => some ['k', '=', '1']) (some [])).2
  obtain ⟨ini', files', hset, hget⟩ := h ini (fun _ => none) .openFails ['s'] ['j'] ['2'] ['s']
    ['k'] (.load _ _ .new) (by simp) (by simp) (by simp) (by simp) (by decide) (by decide)
  have hread := getString_setLines (linked_loadFromFile _ _ _) (by simp) (by simp) (by simp)
    (setLines_of_setString hset) ['s'] ['k']
  have hvalue : ini.valueAfter ['s'] ['j'] ['2'] ['s'] ['k'] = some ['1'] := rfl
  have hbefore : ini.getString ['s'] ['k'] none = none := rfl
  exact absurd (hbefore.symm.trans ((hget none).symm.trans (hread.trans hvalue))) (by simp)

end CIniFile
