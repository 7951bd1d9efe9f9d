import TvServer.Config.Writes
import TvServer.Foundations.CText

/-!
# Integer settings

An integer is set as its decimal text, and read as the integer at the start of the text that is
read for its key. In a file just loaded it is read back where the key has no line, or its first
line has the key in front of the first equals sign: the pointer to the value of that line was made
for another text, and fits the new one.

## Main definitions

* `setInt`, `getInt`: setting and reading an integer
* `HasKeyLine`: the line that is found for a key is one of this key, and not of a longer one

## Main results

* `getString_written`: a value that is set is read back
* `getInt_setInt`: an integer that is set is read back
-/

open Lines CText

namespace CIniFile

/-- Set an integer: it is printed to a buffer with room for every integer. -/
def setInt (ini : CIniFile) (files : Files) (outcome : SaveOutcome) (name key : List Char)
    (value : Int32) : Option (CIniFile × Files) :=
  ini.setString files outcome name key (decText value)

/-- The integer at the start of the value of a key, or the default. -/
def getInt (ini : CIniFile) (name key : List Char) (default : Int32) : Int32 :=
  match ini.getString name key none with
  | some num => atoi num
  | none => default

/-- The first line that begins with a key, if there is one in the section found, goes on with an
equals sign. -/
def HasKeyLine (ini : CIniFile) (name key : List Char) : Prop :=
  ∀ sec, ini.getSection name = some sec →
    ∀ line, ini.getKeyLineAtSec sec key = some line → key ++ ['='] <+: line.str

theorem idxOf_of_prefix {key : List Char} (hkey : '=' ∉ key) {t : List Char}
    (hpfx : key ++ ['='] <+: t) : t.idxOf '=' = key.length := by
  obtain ⟨rest, rfl⟩ := hpfx
  rw [List.append_assoc, List.idxOf_append_of_notMem hkey]
  simp

/-- A line of a file just loaded has its value right behind the key. -/
theorem pValueStart_of_hasKeyLine {ini : CIniFile} (hl : Linked ini)
    (hloaded : ∀ l ∈ ini.lines, LoadedOk l) {name key : List Char} (hkey : '=' ∉ key)
    (hline : ini.HasKeyLine name key) {sec : ℕ} (hsec : ini.getSection name = some sec)
    {line : Line} (hfound : ini.getKeyLineAtSec sec key = some line) :
    line.pValueStart = key.length + 1 := by
  have hpfx := hline sec hsec line hfound
  rcases getSection_cases hl name with
    ⟨hnone, -⟩ | ⟨pre, hdr, post, he, -, -, -, hsome, hafter⟩
  · cases hnone.symm.trans hsec
  · obtain rfl := Option.some.inj (hsome.symm.trans hsec)
    rw [getKeyLineAtSec, hafter] at hfound
    obtain ⟨mid, rest, rfl, -, hty, -⟩ := keyLineIn_eq_some hfound
    have hmem : line ∈ ini.lines := by simp [he]
    obtain ⟨-, hstart, -⟩ := (hloaded line hmem).value hty
    rw [hstart, idxOf_of_prefix hkey hpfx]

/-- A value that is set where the key has no line, or one of its own, is read back. -/
theorem getString_written {ini : CIniFile} (hl : Linked ini)
    (hloaded : ∀ l ∈ ini.lines, LoadedOk l) {s k v : List Char} (hs : '\x00' ∉ s)
    (hk : '\x00' ∉ k) (hv : '\x00' ∉ v) (hkey : '=' ∉ k) (hline : ini.HasKeyLine s k)
    (hfit : (keyText k v).length < maxIniFileLineLen)
    (hsec : ini.getSection s = none → (sectionText s).length < maxIniFileLineLen) (files : Files)
    (outcome : SaveOutcome) :
    ∃ ini' files', ini.setString files outcome s k v = some (ini', files') ∧
      ini'.getString s k none = some v := by
  refine (getString_setString hl hs hk hv files outcome s k (· = some v)).mpr ⟨⟨hfit, hsec⟩, ?_⟩
  have hpfx : k <+: keyText k v := ⟨'=' :: v, rfl⟩
  rw [valueAfter]
  cases hfound : ini.getSection s with
  | none => simp [hpfx]
  | some sec =>
    cases hkeyLine : ini.getKeyLineAtSec sec k with
    | none => simp [hkeyLine, hpfx]
    | some line =>
      -- the search passes by the lines in front, and the pointer is right for the new text
      have hfront := keyLineIn_linesInFront hl hfound hkeyLine
      have hstart := pValueStart_of_hasKeyLine hl hloaded hkey hline hfound hkeyLine
      have hvalue := (rewrittenValue_eq_iff line k v).mpr (.inl hstart)
      simp [hkeyLine, hfront, hpfx, hvalue]

/-- **Integers are read back.** In a file just loaded, a key that has no line in the section found,
or whose first line is one of this key, reads as the integer that was set, and as its decimal
text. -/
theorem getInt_setInt (start : CIniFile) (loadFiles : Files) (filename : Option (List Char))
    {s k : List Char} (hs : '\x00' ∉ s) (hk : '\x00' ∉ k) (hkey : '=' ∉ k) (v : Int32)
    (hline : (start.loadFromFile loadFiles filename).2.HasKeyLine s k)
    (hfit : (keyText k (decText v)).length < maxIniFileLineLen)
    (hsec : (start.loadFromFile loadFiles filename).2.getSection s = none →
      (sectionText s).length < maxIniFileLineLen) (files : Files) (outcome : SaveOutcome) :
    ∃ ini files', (start.loadFromFile loadFiles filename).2.setInt files outcome s k v =
        some (ini, files') ∧
      ∀ d default, ini.getInt s k d = v ∧ ini.getString s k default = some (decText v) := by
  have hv : '\x00' ∉ decText v := not_mem_decText rfl (by decide) v
  obtain ⟨ini, files', hset, hget⟩ := getString_written (linked_loadFromFile _ _ _)
    (loadedOk_loadFromFile start loadFiles filename) hs hk hv hkey hline hfit hsec files outcome
  refine ⟨ini, files', hset, fun d default => ⟨?_, ?_⟩⟩
  · simp only [getInt, hget, atoi_decText]
  · rw [getString_or, hget, Option.some_or]

/-- The least integer in place of a shorter text. -/
theorem getInt_setInt_least :
    ∃ ini files', (new.loadFromFile (fun _ => some ['[', 's', ']', '\n', 'a', '=', '7'])
        (some [])).2.setInt (fun _ => none) .openFails ['s'] ['a'] (-2147483648) =
          some (ini, files') ∧
      ∀ d default, ini.getInt ['s'] ['a'] d = -2147483648 ∧
        ini.getString ['s'] ['a'] default = some (decText (-2147483648)) := by
  let files : Files := fun _ => some ['[', 's', ']', '\n', 'a', '=', '7']
  have hline : (new.loadFromFile files (some [])).2.HasKeyLine ['s'] ['a'] := by
    intro sec hsec line hfound
    obtain rfl : 0 = sec := Option.some.inj hsec
    obtain rfl := Option.some.inj hfound
    exact ⟨['7'], rfl⟩
  exact getInt_setInt new files (some []) (by simp) (by simp) (by simp) _ hline (by decide)
    (fun _ => by decide) _ _

end CIniFile
