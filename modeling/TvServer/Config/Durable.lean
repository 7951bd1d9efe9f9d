import TvServer.Config.Resave
import TvServer.Config.Writes

/-!
# Values that outlive the process

A write is saved at once, and what the save returns is not looked at. Read back from the file, the
value is there where the save got past its text, where the lines in front of it still lead to it
when their texts are read again, and where its own text is still a key line: nothing is escaped,
so that a value with a space, a `#` or brackets, or an earlier such line, changes what is read.
Otherwise it is read only if another line has the same value.

## Main definitions

* `textsInFront`, `textsBehind`: the lines around the one that is written
* `SaveOutcome.writes`: what a save writes of the characters at an offset
* `Durable`: the conditions under which the line written is found in the file, with its value
* `FoundElsewhere`: the value is that of another line

## Main results

* `trimmedLines_writes`: the file that a save leaves is read back line by line, up to where it ends
* `getString_reload_iff`: when a value is read from the file
-/

open Lines Search

namespace CIniFile

theorem Reachable.length_mpFileName {ini : CIniFile} (h : Reachable ini) :
    ini.mpFileName.length ≤ 255 := by
  induction h with
  | new => exact Nat.zero_le _
  | @load ini files filename _ ih =>
    rcases filename with _ | path
    · exact ih
    · rw [mpFileName_loadFromFile, List.length_take]
      exact Nat.min_le_left _ _
  | set hini hset ih =>
    rw [(setLines_cases hini.linked (setLines_of_setString hset)).2.2]
    exact ih

/-! ## The lines around the one that is written -/

/-- The texts of the lines in front of the one that a write goes to: of a new first section, of
the lines up to the section found, or of those in front of the line found. -/
def textsInFront (ini : CIniFile) (s k : List Char) : List (List Char) :=
  match ini.getSection s with
  | none => [sectionText s]
  | some sec =>
    match ini.getKeyLineAtSec sec k with
    | none =>
      ((ini.lines.takeWhile fun l => l.addr ≠ sec) ++ (ini.deref sec).toList).map Line.str
    | some line => (ini.lines.takeWhile fun l => l.addr ≠ line.addr).map Line.str

theorem takeWhile_addr_of_split {ini : CIniFile} (h : Linked ini) {pre post : List Line}
    {line : Line} (he : ini.lines = pre ++ line :: post) :
    ini.lines.takeWhile (fun l => l.addr ≠ line.addr) = pre := by
  rw [he, List.takeWhile_append_of_pos]
  · simp
  · intro l hl
    simpa using (h.addr_ne he).1 l hl

/-- The texts of the lines behind the one that a write goes to. -/
def textsBehind (ini : CIniFile) (s k : List Char) : List (List Char) :=
  match ini.getSection s with
  | none => ini.lines.map Line.str
  | some sec =>
    match ini.getKeyLineAtSec sec k with
    | none => (ini.linesAfter sec).map Line.str
    | some line => (ini.linesAfter line.addr).map Line.str

/-- **A write leaves its key line** between the lines in front of it and those behind it. -/
theorem str_setLines {ini ini' : CIniFile} (h : Linked ini) {s k v : List Char}
    (hs : '\x00' ∉ s) (hk : '\x00' ∉ k) (hv : '\x00' ∉ v)
    (hset : ini.setLines s k v = some ini') :
    ini'.lines.map Line.str = ini.textsInFront s k ++ keyText k v :: ini.textsBehind s k := by
  obtain ⟨hstep, -, -⟩ := setLines_cases h hset
  generalize hls : ini.lines = ls at hstep
  generalize hls' : ini'.lines = ls' at hstep
  rw [textsInFront, textsBehind]
  cases hstep with
  | @newSection _ sec line hmiss hsec hline =>
    subst hls
    rw [(getSection_eq_none_iff h s).mpr hmiss, List.map_cons, List.map_cons, hsec.str_eq hs,
      hline.str_eq hk hv]
    rfl
  | @newKey pre post hdr line hmiss hty hnamed hnone hline =>
    have hfound := (getSection_eq_some_iff h hls hty s).mpr ⟨hmiss, hnamed⟩
    have hmem : hdr ∈ ini.lines := by simp [hls]
    simp only [hfound, getKeyLineAtSec, linesAfter_of_split h hls, hnone,
      takeWhile_addr_of_split h hls, deref_of_mem h hmem]
    simp [hline.str_eq hk hv]
  | @rewrite pre mid post hdr line text hmiss hty hnamed hpass hkey hpfx htext =>
    have hfound := (getSection_eq_some_iff h hls hty s).mpr ⟨hmiss, hnamed⟩
    have hsplit : ini.lines = (pre ++ hdr :: mid) ++ line :: post := by simp [hls]
    have hstr : Line.str { line with text := text } = keyText k v := by
      simpa [Line.str] using
        cstr_drop_sprintfText htext (null_not_mem_keyText hk hv) (Nat.zero_le _)
    simp only [hfound, getKeyLineAtSec, linesAfter_of_split h hls, keyLineIn_of_split hpass hkey
      hpfx, takeWhile_addr_of_split h hsplit, linesAfter_of_split h hsplit]
    simp [hstr]

/-! ## What a save leaves -/

/-- Whether a save writes the characters up to an offset. -/
def SaveOutcome.reaches (offset : ℕ) : SaveOutcome → Prop
  | .openFails => False
  | .truncated n => offset ≤ n
  | .complete => True

/-- What a save writes of the characters that come at an offset. -/
def SaveOutcome.writes (offset : ℕ) (cs : List Char) : SaveOutcome → List Char
  | .openFails => []
  | .truncated n => cs.take (n - offset)
  | .complete => cs

theorem writes_append (outcome : SaveOutcome) (offset : ℕ) (cs ds : List Char) :
    outcome.writes offset (cs ++ ds) =
      outcome.writes offset cs ++ outcome.writes (offset + cs.length) ds := by
  cases outcome with
  | openFails => rfl
  | truncated n =>
    rw [SaveOutcome.writes, SaveOutcome.writes, SaveOutcome.writes, List.take_append, Nat.sub_sub]
  | complete => rfl

theorem writes_of_reaches {outcome : SaveOutcome} {offset : ℕ} {cs : List Char}
    (h : outcome.reaches (offset + cs.length)) : outcome.writes offset cs = cs := by
  cases outcome with
  | openFails => exact absurd h id
  | truncated n => exact List.take_of_length_le (Nat.le_sub_of_add_le' h)
  | complete => rfl

theorem reaches_of_writes_ne_nil {outcome : SaveOutcome} {offset : ℕ} {cs : List Char}
    (h : outcome.writes offset cs ≠ []) : outcome.reaches offset := by
  cases outcome with
  | openFails => exact absurd rfl h
  | truncated n =>
    refine Nat.le_of_not_lt fun hlt => h ?_
    rw [SaveOutcome.writes, Nat.sub_eq_zero_of_le (Nat.le_of_lt hlt), List.take_zero]
  | complete => trivial

/-- **What a save leaves is read back line by line**, up to the line that it ends in. -/
theorem trimmedLines_writes (outcome : SaveOutcome) (offset : ℕ) (ts : List (List Char))
    (rest : List Char) :
    trimmedLines (outcome.writes offset (saved ts ++ rest)) =
      trimmedLines (outcome.writes offset (saved ts)) ++
        trimmedLines (outcome.writes (offset + (saved ts).length) rest) := by
  rw [writes_append]
  by_cases hrest : outcome.writes (offset + (saved ts).length) rest = []
  · rw [hrest, List.append_nil]
    exact (List.append_nil _).symm
  · have hsaved := trimmedLines_saved ts []
    rw [List.append_nil, show trimmedLines [] = [] from rfl, List.append_nil] at hsaved
    rw [writes_of_reaches (reaches_of_writes_ne_nil hrest), trimmedLines_saved, hsaved]

/-- What is read of the lines in front of the one written. -/
def leftInFront (ini : CIniFile) (outcome : SaveOutcome) (s k : List Char) : List (List Char) :=
  trimmedLines (outcome.writes 0 (saved (ini.textsInFront s k)))

/-- What is read of the line written. -/
def leftOfLine (ini : CIniFile) (outcome : SaveOutcome) (s k v : List Char) : List (List Char) :=
  trimmedLines (outcome.writes (saved (ini.textsInFront s k)).length (saved [keyText k v]))

/-- What is read of the lines behind the one written. -/
def leftBehind (ini : CIniFile) (outcome : SaveOutcome) (s k v : List Char) : List (List Char) :=
  trimmedLines (outcome.writes (saved (ini.textsInFront s k ++ [keyText k v])).length
    (saved (ini.textsBehind s k)))

theorem saved_append (ts us : List (List Char)) : saved (ts ++ us) = saved ts ++ saved us :=
  List.flatMap_append

/-- The lines of the file after a write. -/
theorem fileLines_setString {ini ini' : CIniFile} (h : Reachable ini) (hname : ini.mpFileName ≠ [])
    {s k v : List Char} (hs : '\x00' ∉ s) (hk : '\x00' ∉ k) (hv : '\x00' ∉ v)
    {files files' : Files} {outcome : SaveOutcome}
    (hset : ini.setString files outcome s k v = some (ini', files')) :
    fileLines files' ini.mpFileName =
      if outcome = .openFails then fileLines files ini.mpFileName
      else ini.leftInFront outcome s k ++ ini.leftOfLine outcome s k v ++
        ini.leftBehind outcome s k v := by
  have hlines := setLines_of_setString hset
  have hname' : ini'.mpFileName = ini.mpFileName := (setLines_cases h.linked hlines).2.2
  have htake : ini.mpFileName.take 255 = ini.mpFileName :=
    List.take_of_length_le h.length_mpFileName
  have hfiles : files' = (ini'.saveToFile files outcome none).2 := by
    rw [setString, hlines] at hset
    exact ((Prod.mk.inj (Option.some.inj hset)).2).symm
  have hcontent : ini'.content = saved (ini.textsInFront s k) ++
      (saved [keyText k v] ++ saved (ini.textsBehind s k)) := by
    rw [content_eq_saved, str_setLines h.linked hs hk hv hlines, ← saved_append, ← saved_append]
    rfl
  have hlen : (saved (ini.textsInFront s k)).length + (saved [keyText k v]).length =
      (saved (ini.textsInFront s k ++ [keyText k v])).length := by
    rw [saved_append, List.length_append]
  have hleft : trimmedLines (outcome.writes 0 ini'.content) =
      ini.leftInFront outcome s k ++ ini.leftOfLine outcome s k v ++
        ini.leftBehind outcome s k v := by
    rw [hcontent, trimmedLines_writes, Nat.zero_add, trimmedLines_writes, hlen, List.append_assoc]
    rfl
  have hne : ¬ ((none : Option (List Char)) = none ∧ ini'.mpFileName = []) := by
    simp [hname', hname]
  rw [← hleft, hfiles, fileLines, fileLines, htake]
  cases outcome with
  | openFails =>
    rw [saveToFile, if_neg hne]
    rfl
  | truncated _ | complete =>
    rw [saveToFile, if_neg hne, Option.getD_none, hname']
    show ((Function.update files ini.mpFileName _ ini.mpFileName).map _).getD _ = _
    rw [Function.update_self]
    rfl

/-! ## The line written -/

/-- A text that a save leaves whole: the save gets to its end, and nothing is trimmed off it when
it is read. Its end is trimmed where it fills the buffer or is the end of the file. -/
structure Kept (outcome : SaveOutcome) (offset : ℕ) (t : List Char) : Prop where
  reaches : outcome.reaches (offset + t.length)
  lf : '\n' ∉ t
  space : ' ' ∉ t
  cr : t.length = maxIniFileLineLen - 1 ∨ outcome = .truncated (offset + t.length) →
    t.getLast? ≠ some '\r'

theorem kept_iff_rereadText {outcome : SaveOutcome} {offset : ℕ} {t : List Char}
    (hlf : '\n' ∉ t) (hreach : outcome.reaches (offset + t.length))
    (hend : outcome ≠ .truncated (offset + t.length)) :
    rereadText t = t ↔ Kept outcome offset t := by
  rw [rereadText_eq_self_iff hlf]
  constructor
  · rintro ⟨hsp, hcr⟩
    exact ⟨hreach, hlf, hsp, fun h => hcr (h.resolve_right hend)⟩
  · exact fun h => ⟨h.space, fun hmax => h.cr (.inl hmax)⟩

/-- What is read of a line that a save may cut: nothing, or a part of its text, which is all of it
exactly if it was kept. -/
theorem trimmedLines_writes_line {t : List Char} (hnull : '\x00' ∉ t) (hlf : '\n' ∉ t)
    (hlen : t.length < maxIniFileLineLen) (hne : t ≠ []) (outcome : SaveOutcome) (offset : ℕ) :
    (trimmedLines (outcome.writes offset (saved [t])) = [] ∧ ¬ Kept outcome offset t) ∨
      ∃ t' blanks, trimmedLines (outcome.writes offset (saved [t])) = t' :: blanks ∧
        (∀ b ∈ blanks, b = []) ∧ t'.Sublist t ∧ (t' = t ↔ Kept outcome offset t) := by
  have hpos : 0 < t.length := List.length_pos_iff.mpr hne
  have hsaved : saved [t] = t ++ ['\r', '\n'] := List.flatMap_singleton _ _
  -- the text is read with at least the carriage return of its line end
  have hwhole {left : List (List Char)} (hleft : left = [rereadText t] ∨ left = [rereadText t, []])
      (hreach : outcome.reaches (offset + t.length))
      (hend : outcome ≠ .truncated (offset + t.length)) :
      ∃ t' blanks, left = t' :: blanks ∧ (∀ b ∈ blanks, b = []) ∧ t'.Sublist t ∧
        (t' = t ↔ Kept outcome offset t) := by
    have hiff := kept_iff_rereadText hlf hreach hend
    rcases hleft with rfl | rfl
    · exact ⟨_, [], rfl, by simp, rereadText_sublist t, hiff⟩
    · exact ⟨_, [[]], rfl, by simp, rereadText_sublist t, hiff⟩
  rw [hsaved]
  cases outcome with
  | openFails => exact .inl ⟨rfl, fun h => h.reaches⟩
  | complete => exact .inr (hwhole (reread_eq hnull hlf hlen) trivial SaveOutcome.noConfusion)
  | truncated n =>
    rw [SaveOutcome.writes]
    rcases Nat.lt_trichotomy n (offset + t.length) with hlt | rfl | hgt
    · -- the text is cut
      have hcut : (t ++ ['\r', '\n']).take (n - offset) = t.take (n - offset) :=
        List.take_append_of_le_length (by omega)
      have hnot : ¬ Kept (.truncated n) offset t := fun h => Nat.not_le.mpr hlt h.reaches
      rw [hcut]
      by_cases hnil : t.take (n - offset) = []
      · rw [hnil]
        exact .inl ⟨rfl, hnot⟩
      · have hlf' : '\n' ∉ t.take (n - offset) := fun hm => hlf (List.mem_of_mem_take hm)
        have hsub := loadedText_sublist (t.take (n - offset))
        have hshort : (t.take (n - offset)).length < t.length := by
          rw [List.length_take]
          omega
        refine .inr ⟨_, [], trimmedLines_last hlf' hnil (by omega), by simp,
          hsub.trans (List.take_sublist _ _), iff_of_false (fun he => ?_) hnot⟩
        exact absurd (congrArg List.length he) (Nat.ne_of_lt (hsub.length_le.trans_lt hshort))
    · -- the text is the end of the file
      rw [Nat.add_sub_cancel_left, List.take_left]
      refine .inr ⟨_, [], trimmedLines_last hlf hne (by omega), by simp, loadedText_sublist t, ?_⟩
      rw [loadedText, cstr_of_not_mem hnull, allTrim_eq_self_iff hlf]
      constructor
      · exact fun h => ⟨Nat.le_refl _, hlf, h.1, fun _ => h.2⟩
      · exact fun h => ⟨h.space, h.cr (.inr rfl)⟩
    · have hend : SaveOutcome.truncated n ≠ .truncated (offset + t.length) := fun he =>
        Nat.ne_of_gt hgt (SaveOutcome.truncated.inj he)
      refine .inr (hwhole ?_ (Nat.le_of_lt hgt) hend)
      rcases Nat.eq_or_lt_of_le (Nat.succ_le_of_lt hgt) with heq | hmore
      · -- the line feed is missing
        have hcut : (t ++ ['\r', '\n']).take (n - offset) = t ++ ['\r'] := by
          have hn : n - offset = t.length + 1 := by omega
          rw [hn, List.take_append, List.take_of_length_le (Nat.le_succ _), Nat.add_sub_cancel_left]
          rfl
        rw [hcut]
        exact trimmedLines_append_cr hnull hlf hlen
      · rw [List.take_of_length_le (by simp; omega)]
        exact reread_eq hnull hlf hlen

/-! ## Reading the file -/

/-- The conditions under which the line written is found in the file, with its value. -/
structure Durable (ini : CIniFile) (outcome : SaveOutcome) (s k v : List Char) : Prop where
  /-- the lines in front, as they are read again, open the section and do not have the key -/
  inFront : (textQuery s k).Leads ((ini.textsInFront s k).flatMap reread)
  /-- the text of the line is read again as it is -/
  kept : Kept outcome (saved (ini.textsInFront s k)).length (keyText k v)
  /-- and as a key line -/
  type : getLineType (keyText k v) = .lineTypeKey

/-- The value is found in some lines. -/
def FoundIn (s k v : List Char) (ts : List (List Char)) : Prop :=
  ((textQuery s k).find ts).map textValue = some v

/-- The value is that of another line than the one written: of a line of the old file, where that
one stays, of a line in front, or of a line behind where none is found up to the one written. -/
def FoundElsewhere (ini : CIniFile) (files : Files) (outcome : SaveOutcome) (s k v : List Char) :
    Prop :=
  match outcome with
  | .openFails => FoundIn s k v (fileLines files ini.mpFileName)
  | _ =>
    let inFront := ini.leftInFront outcome s k
    let upTo := inFront ++ ini.leftOfLine outcome s k v
    FoundIn s k v inFront ∨
      (textQuery s k).find upTo = none ∧ FoundIn s k v (upTo ++ ini.leftBehind outcome s k v)

theorem foundIn_append_iff {s k v : List Char} {ts us : List (List Char)} :
    FoundIn s k v (ts ++ us) ↔
      FoundIn s k v ts ∨ (textQuery s k).find ts = none ∧ FoundIn s k v (ts ++ us) := by
  cases hts : (textQuery s k).find ts with
  | none => simp [FoundIn, hts]
  | some t => simp [FoundIn, hts, Query.find_append_of_eq_some hts]

/-- What is found is found in a key line that starts with the key. -/
theorem foundIn_iff {s k v : List Char} {ts : List (List Char)} :
    FoundIn s k v ts ↔ ∃ t, (textQuery s k).find ts = some t ∧ t ∈ ts ∧
      getLineType t = .lineTypeKey ∧ k <+: t ∧ textValue t = v := by
  rw [FoundIn, Option.map_eq_some_iff]
  constructor
  · rintro ⟨t, hfound, hvalue⟩
    obtain ⟨pre, hdr, mid, post, rfl, -, -, -, -, -, hw⟩ := Query.find_eq_some_iff.mp hfound
    have hwanted := of_decide_eq_true hw
    exact ⟨t, hfound, by simp, hwanted.1, List.isPrefixOf_iff_prefix.mp hwanted.2, hvalue⟩
  · exact fun ⟨t, hfound, _, _, _, hvalue⟩ => ⟨t, hfound, hvalue⟩

theorem textValue_keyText {k v : List Char} (heq : '=' ∉ k)
    (hty : getLineType (keyText k v) = .lineTypeKey) : textValue (keyText k v) = v := by
  have hstart : valueStart (keyText k v) = k.length + 1 := by
    rw [valueStart, hty, keyText, List.idxOf_append_of_notMem heq]
    simp
  rw [textValue, hstart, keyText]
  simp

theorem eq_mem_of_key {t : List Char} (hty : getLineType t = .lineTypeKey) : '=' ∈ t := by
  rw [getLineType] at hty
  split at hty
  · cases hty
  · split at hty
    · cases hty
    · split at hty
      · assumption
      · cases hty

/-- A part of the text of a key line that has its key and its value is all of it. -/
theorem eq_keyText_of_sublist {k v t : List Char} (heq : '=' ∉ k)
    (hsub : t.Sublist (keyText k v)) (hty : getLineType t = .lineTypeKey) (hpfx : k <+: t)
    (hvalue : textValue t = v) : t = keyText k v := by
  obtain ⟨rest, rfl⟩ := hpfx
  refine hsub.eq_of_length_le ?_
  have hstart : valueStart (k ++ rest) = k.length + rest.idxOf '=' + 1 := by
    rw [valueStart, hty, List.idxOf_append_of_notMem heq, Nat.add_comm k.length]
  have hmem : '=' ∈ rest := (List.mem_append.mp (eq_mem_of_key hty)).resolve_left heq
  have hidx := List.idxOf_lt_length_of_mem hmem
  have hlen := congrArg List.length hvalue
  rw [textValue, hstart, List.length_drop, List.length_append] at hlen
  rw [keyText, List.length_append, List.length_append, List.length_cons]
  omega

/-- Nothing is found for a key with a line feed. -/
theorem lf_not_mem_of_foundIn {s k v content content' : List Char}
    (h : FoundIn s k v (trimmedLines content ++ trimmedLines content')) : '\n' ∉ k := by
  obtain ⟨t, -, hmem, -, hpfx, -⟩ := foundIn_iff.mp h
  intro hk
  rcases List.mem_append.mp hmem with ht | ht
  · exact (storable_of_mem_trimmedLines ht).1 (hpfx.subset hk)
  · exact (storable_of_mem_trimmedLines ht).1 (hpfx.subset hk)

/-- Where anything of the line written is there, the lines in front are all there. -/
theorem leftInFront_of_leftOfLine {ini : CIniFile} {outcome : SaveOutcome} {s k v : List Char}
    (h : ini.leftOfLine outcome s k v ≠ []) :
    ini.leftInFront outcome s k = (ini.textsInFront s k).flatMap reread := by
  have hwrites : outcome.writes (saved (ini.textsInFront s k)).length (saved [keyText k v]) ≠ [] :=
    fun hnil => h (by rw [leftOfLine, hnil]; rfl)
  have hreach := reaches_of_writes_ne_nil hwrites
  have hsaved := trimmedLines_saved (ini.textsInFront s k) []
  rw [List.append_nil, show trimmedLines [] = [] from rfl, List.append_nil] at hsaved
  rw [leftInFront, writes_of_reaches (by rwa [Nat.zero_add]), hsaved]

theorem foundIn_append_blanks {s k v : List Char} (ts : List (List Char))
    {blanks : List (List Char)} (hb : ∀ b ∈ blanks, b = []) :
    FoundIn s k v (ts ++ blanks) ↔ FoundIn s k v ts := by
  have hnil : blanks.filter nonBlank = [] :=
    List.filter_eq_nil_iff.mpr fun b hmem => by simp [nonBlank, hb b hmem]
  have hfilter : (ts ++ blanks).filter nonBlank = ts.filter nonBlank := by
    rw [List.filter_append, hnil, List.append_nil]
  rw [FoundIn, FoundIn, Query.find_congr_filter (fun _ => textQuery_passes_of_blank s k) hfilter]

/-- **The line written is found with its value**, and none in front, exactly if it is durable. -/
theorem foundIn_leftOfLine_iff (ini : CIniFile) {s k v : List Char} (hk : '\x00' ∉ k)
    (hv : '\x00' ∉ v) (heq : '=' ∉ k) (hlf : '\n' ∉ v)
    (hlen : (keyText k v).length < maxIniFileLineLen) (outcome : SaveOutcome) :
    ((textQuery s k).find (ini.leftInFront outcome s k) = none ∧
      FoundIn s k v (ini.leftInFront outcome s k ++ ini.leftOfLine outcome s k v)) ↔
      Durable ini outcome s k v := by
  have hnull := null_not_mem_keyText hk hv
  have hne : keyText k v ≠ [] := by simp [keyText]
  constructor
  · rintro ⟨hnone, hfound⟩
    have hlf' : '\n' ∉ keyText k v := by
      have hklf : '\n' ∉ k := lf_not_mem_of_foundIn hfound
      simp [keyText, hklf, hlf]
    rcases trimmedLines_writes_line hnull hlf' hlen hne outcome
      (saved (ini.textsInFront s k)).length with ⟨hnil, -⟩ | ⟨t, blanks, hleft, hb, hsub, hkept⟩
    · -- nothing of the line is read
      rw [leftOfLine, hnil, List.append_nil, FoundIn, hnone] at hfound
      cases hfound
    · have hfront : ini.leftInFront outcome s k = (ini.textsInFront s k).flatMap reread :=
        leftInFront_of_leftOfLine (hleft ▸ List.cons_ne_nil _ _)
      rw [leftOfLine, hleft, List.append_cons, foundIn_append_blanks _ hb] at hfound
      obtain ⟨t', hfound, -, hty, hpfx, hvalue⟩ := foundIn_iff.mp hfound
      obtain ⟨hleads, -, -, rfl⟩ := (Query.find_concat_eq_some_iff hnone).mp hfound
      obtain rfl := eq_keyText_of_sublist heq hsub hty hpfx hvalue
      exact ⟨hfront ▸ hleads, hkept.mp rfl, hty⟩
  · intro h
    rcases trimmedLines_writes_line hnull h.kept.lf hlen hne outcome
      (saved (ini.textsInFront s k)).length with ⟨-, hnot⟩ | ⟨t, blanks, hleft, hb, -, hkept⟩
    · exact absurd h.kept hnot
    · obtain rfl := hkept.mpr h.kept
      have hfront : ini.leftInFront outcome s k = (ini.textsInFront s k).flatMap reread :=
        leftInFront_of_leftOfLine (hleft ▸ List.cons_ne_nil _ _)
      have hnone := Query.find_eq_none_of_leads h.inFront
      have hopens : (textQuery s k).opens (keyText k v) = false :=
        decide_eq_false (by rw [h.type]; exact LineType.noConfusion)
      have hwanted : (textQuery s k).wanted (keyText k v) = true :=
        decide_eq_true ⟨h.type, List.isPrefixOf_iff_prefix.mpr ⟨'=' :: v, rfl⟩⟩
      rw [hfront, leftOfLine, hleft, List.append_cons, foundIn_append_blanks _ hb, FoundIn,
        (Query.find_concat_eq_some_iff hnone).mpr ⟨h.inFront, hopens, hwanted, rfl⟩]
      exact ⟨hnone, congrArg some (textValue_keyText heq h.type)⟩

/-- **When a value is read from the file** by a fresh load, after it was set in an ini file that
loading and setting values lead to: where its line is durable, and else only where another line has
the same value. -/
theorem getString_reload_iff {ini : CIniFile} (h : Reachable ini) (hname : ini.mpFileName ≠ [])
    {s k v : List Char} (hs : '\x00' ∉ s) (hk : '\x00' ∉ k) (hv : '\x00' ∉ v) (heq : '=' ∉ k)
    (hlf : '\n' ∉ v) {ini' : CIniFile} {files files' : Files} {outcome : SaveOutcome}
    (hset : ini.setString files outcome s k v = some (ini', files')) :
    (∀ (loaded : CIniFile) (default : Option (List Char)),
      (loaded.loadFromFile files' (some ini.mpFileName)).2.getString s k default = some v) ↔
      Durable ini outcome s k v ∨ FoundElsewhere ini files outcome s k v := by
  have hfits : (keyText k v).length < maxIniFileLineLen :=
    ((exists_setLines_iff ini s k v).mp ⟨ini', setLines_of_setString hset⟩).1
  have hread : (∀ (loaded : CIniFile) (default : Option (List Char)),
      (loaded.loadFromFile files' (some ini.mpFileName)).2.getString s k default = some v) ↔
      FoundIn s k v (fileLines files' ini.mpFileName) := by
    simp only [getString_load, FoundIn]
    constructor
    · intro hall
      simpa using hall new none
    · intro hfound _ default
      rw [hfound, Option.some_or]
  rw [hread, fileLines_setString h hname hs hk hv hset]
  have hline := foundIn_leftOfLine_iff ini (s := s) hk hv heq hlf hfits outcome
  cases outcome with
  | openFails =>
    have hnot : ¬ Durable ini .openFails s k v := fun hd => hd.kept.reaches
    rw [if_pos rfl, or_iff_right hnot]
    rfl
  | truncated _ | complete =>
    rw [if_neg SaveOutcome.noConfusion, foundIn_append_iff, foundIn_append_iff, hline,
      or_comm (b := Durable _ _ _ _ _), or_assoc]
    rfl

/-- A plain value in a new section. -/
theorem getString_reload_iff_plain :
    ∃ ini ini' files', Reachable ini ∧ Durable ini .complete ['s'] ['k'] ['1'] ∧
      ini.setString (fun _ => none) .complete ['s'] ['k'] ['1'] = some (ini', files') ∧
      ∀ (loaded : CIniFile) (default : Option (List Char)),
        (loaded.loadFromFile files' (some ini.mpFileName)).2.getString ['s'] ['k'] default =
          some ['1'] := by
  let ini := (new.loadFromFile (fun _ => none) (some ['f'])).2
  have hini : Reachable ini := .load _ _ .new
  have hdurable : Durable ini .complete ['s'] ['k'] ['1'] :=
    ⟨⟨[], rfl, by simp⟩, ⟨trivial, by decide, by decide, by decide⟩, rfl⟩
  have hname : (sectionText ['s']).length < maxIniFileLineLen := by decide
  have hkey : (keyText ['k'] ['1']).length < maxIniFileLineLen := by decide
  obtain ⟨ini', hlines⟩ := exists_setLines ini hname hkey
  obtain ⟨files', hset⟩ : ∃ files',
      ini.setString (fun _ => none) .complete ['s'] ['k'] ['1'] = some (ini', files') :=
    ⟨_, by rw [setString, hlines, Option.map_some]⟩
  exact ⟨ini, ini', files', hini, hdurable, hset, (getString_reload_iff hini (List.cons_ne_nil _ _)
    (by simp) (by simp) (by simp) (by simp) (by simp) hset).mpr (.inl hdurable)⟩

/-- A value with a space is read back without it. -/
theorem not_forall_durable :
    ¬ ∀ (ini ini' loaded : CIniFile) (files files' : Files) (outcome : SaveOutcome)
      (s k v : List Char) (default : Option (List Char)), Reachable ini → ini.mpFileName ≠ [] →
      '\x00' ∉ s → '\x00' ∉ k → '\x00' ∉ v → s ≠ [] → k ≠ [] → '=' ∉ k → '\n' ∉ v →
      ini.setString files outcome s k v = some (ini', files') →
      (loaded.loadFromFile files' (some ini.mpFileName)).2.getString s k default = some v := by
  intro h
  let ini := (new.loadFromFile (fun _ => none) (some ['f'])).2
  have hget := h ini _ new (fun _ => none) _ .complete ['s'] ['k'] ['a', ' ', 'b'] none
    (.load _ _ .new) (List.cons_ne_nil _ _) (by simp) (by simp) (by simp) (by simp) (by simp)
    (by simp) (by simp) rfl
  exact absurd hget (by decide)

end CIniFile
