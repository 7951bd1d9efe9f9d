import TvServer.Config.Writes

/-!
# The prints of a call

Setting a value prints a section or a key with its value to the buffer of a line, without a look at
the size of the buffer. The greatest lengths that are declared for a key and a value are more than
a line holds.

## Main definitions

* `TextPrint`: a text that is printed to the buffer of a line
* `setPrints`: the prints of a call, in their order
* `TextPrint.InBuffer`: everything that is written is inside the buffer

## Main results

* `exists_setLines_iff_inBuffer`: setting a value is defined where its prints are inside
* `setPrints_inBuffer_iff`: the lengths whose prints are inside
-/

namespace CIniFile

/-- The greatest lengths that are declared for a key and for a value. -/
def ccCfgKeyStrMaxLen : ℕ := 128

def ccCfgValueStrMaxLen : ℕ := 512

/-- A text that is printed to the buffer of the line at an address. -/
structure TextPrint where
  addr : ℕ
  text : List Char

/-- What is written for a text, from the start of the buffer on. -/
def TextPrint.written (w : TextPrint) : List Char := w.text ++ ['\x00']

/-- Every index that is written is one of the buffer. -/
def TextPrint.InBuffer (w : TextPrint) : Prop :=
  ∀ i, i < w.written.length → i < maxIniFileLineLen

/-- The prints of a call that sets a value: to a new section line and a new key line, to a new key
line, or to the line of the key. No call is refused. -/
def setPrints (ini : CIniFile) (name key value : List Char) : List TextPrint :=
  match ini.getSection name with
  | none => [⟨ini.fresh, sectionText name⟩, ⟨ini.fresh + 1, keyText key value⟩]
  | some sec =>
    match ini.getKeyLineAtSec sec key with
    | none => [⟨ini.fresh, keyText key value⟩]
    | some line => [⟨line.addr, keyText key value⟩]

theorem length_keyText (key value : List Char) :
    (keyText key value).length = key.length + value.length + 1 := by
  rw [keyText, List.length_append, List.length_cons, Nat.add_assoc]

theorem length_sectionText (name : List Char) : (sectionText name).length = name.length + 2 := by
  rw [sectionText, List.length_append, List.length_cons, List.length_singleton]

theorem TextPrint.inBuffer_iff (w : TextPrint) :
    w.InBuffer ↔ w.text.length < maxIniFileLineLen := by
  have hlen : w.written.length = w.text.length + 1 := by
    rw [written, List.length_append, List.length_singleton]
  rw [InBuffer, hlen]
  constructor
  · intro h
    exact h w.text.length (Nat.lt_succ_self _)
  · intro h i hi
    omega

/-- Every call prints its key and value, and one that finds no section prints this as well. -/
theorem forall_setPrints_iff (ini : CIniFile) (name key value : List Char) (P : List Char → Prop) :
    (∀ w ∈ ini.setPrints name key value, P w.text) ↔
      P (keyText key value) ∧ (ini.getSection name = none → P (sectionText name)) := by
  rw [setPrints]
  cases hsec : ini.getSection name with
  | none => simp [and_comm]
  | some sec => cases hline : ini.getKeyLineAtSec sec key <;> simp [hline]

/-- No call is refused. -/
theorem setPrints_ne_nil (ini : CIniFile) (name key value : List Char) :
    ini.setPrints name key value ≠ [] := by
  rw [setPrints]
  cases hsec : ini.getSection name with
  | none => simp
  | some sec => cases hline : ini.getKeyLineAtSec sec key <;> simp [hline]

/-- **Setting a value is defined** exactly where everything it prints is inside the buffers. -/
theorem exists_setLines_iff_inBuffer (ini : CIniFile) (name key value : List Char) :
    (∃ ini', ini.setLines name key value = some ini') ↔
      ∀ w ∈ ini.setPrints name key value, w.InBuffer := by
  simp only [TextPrint.inBuffer_iff]
  rw [exists_setLines_iff,
    forall_setPrints_iff ini name key value fun text => text.length < maxIniFileLineLen]

/-- **The lengths that fit.** A call writes inside the buffers of its lines, or is refused, exactly
if its key and value together have 510 characters at most, and its section, where it is a new one,
has 509 at most; and for these the call is defined, with any files and whatever comes of the save,
and for no others. -/
theorem setPrints_inBuffer_iff (ini : CIniFile) (name key value : List Char) :
    let fits := key.length + value.length ≤ 510 ∧
      (ini.getSection name = none → name.length ≤ 509)
    (((∀ w ∈ ini.setPrints name key value, w.InBuffer) ∨ ini.setPrints name key value = []) ↔
        fits) ∧
      ∀ files outcome, (ini.setString files outcome name key value).isSome ↔ fits := by
  intro fits
  have hprints : (∀ w ∈ ini.setPrints name key value, w.InBuffer) ↔ fits := by
    simp only [TextPrint.inBuffer_iff]
    rw [forall_setPrints_iff ini name key value fun text => text.length < maxIniFileLineLen,
      length_keyText, length_sectionText, maxIniFileLineLen]
    exact and_congr (by omega) (imp_congr_right fun _ => by omega)
  refine ⟨(or_iff_left (setPrints_ne_nil ini name key value)).trans hprints, ?_⟩
  intro files outcome
  rw [setString, Option.isSome_map, Option.isSome_iff_exists, exists_setLines_iff_inBuffer, hprints]

/-- A value of the greatest length does not fit behind any key. -/
theorem not_forall_setPrints_inBuffer :
    ¬ ∀ (ini : CIniFile) (name key value : List Char), Reachable ini →
      key.length ≤ ccCfgKeyStrMaxLen → value.length ≤ ccCfgValueStrMaxLen →
      (∀ w ∈ ini.setPrints name key value, w.InBuffer) ∨ ini.setPrints name key value = [] := by
  intro hall
  let value := List.replicate ccCfgValueStrMaxLen '1'
  have hlen : value.length = 512 := List.length_replicate
  rcases hall new ['s'] ['k'] value .new (by decide) hlen.le with hfits | hrefused
  · have hkey := ((forall_setPrints_iff new ['s'] ['k'] value fun text =>
      text.length < maxIniFileLineLen).mp fun w hw => w.inBuffer_iff.mp (hfits w hw)).1
    rw [length_keyText, hlen, maxIniFileLineLen] at hkey
    simp at hkey
  · exact setPrints_ne_nil _ _ _ _ hrefused

end CIniFile
