import TvServer.Client.EdidData
import TvServer.Client.Methods
import TvServer.Tv.EdidVersions

/-!
# Reading EDID data back

The client asks for the EDID data of a source by a command, and the text of the command ends with
what the buffer for the data holds. The service knows no such command among those that read EDID
versions: it does nothing and returns 0. No data travels back, so that the buffer is left as it
was.

## Main definitions

* `getEdidData`: the method of the client
* `ReadBackFits`: the command of a buffer is terminated and fits
* `EdidReadsBack`: data that is uploaded is read back

## Main results

* `getEdidData_eq`: what the method does
* `edidReadsBack_iff`: when data that is uploaded is read back
-/

namespace TvClient

open CText (decText)
open TvService (commandText)
open CTv (realEdidDataSize EdidPortWriteSucceeds)

variable {ans : Answers} {tv : CTv}

/-! ## The method -/

/-- The text at the start of a memory, as `%s` prints it: the bytes in front of the first zero.
There is none where no zero is in the memory. -/
def memoryText (memory : List Int8) : Option (List Char) :=
  if 0 ∈ memory then some ((memory.takeWhile (· ≠ 0)).map fun b => Char.ofUInt8 b.toUInt8)
  else none

/-- The fields of the command, of which the last one is the text in the buffer. -/
def getEdidDataFields (source : SourceInput) (text : List Char) : List (List Char) :=
  ["edid".toList, "get".toList, decText hdmiEdidDataGet, decText source, text]

/-- Format the command with what is in the buffer, send it and return its result, with the memory
of the buffer behind the call: nothing is written to it. -/
def getEdidData (ans : Answers) (tv : CTv) (source : SourceInput) (dataBuf : List Int8) :
    Option (Int32 × List Int8 × CTv) := do
  let text ← memoryText dataBuf
  let (ret, tv) ← sendCommand ans tv 512 (getEdidDataFields source text)
  some (ret, dataBuf, tv)

/-- The command of a buffer is terminated, and fits the buffer that it is formatted to. -/
def ReadBackFits (source : SourceInput) (dataBuf : List Int8) : Prop :=
  ∃ text, memoryText dataBuf = some text ∧
    (commandText (getEdidDataFields source text)).length < 512

/-- The command is not one that reads versions. -/
theorem sendCommand_getEdidData {source : SourceInput} {text : List Char}
    (hfits : (commandText (getEdidDataFields source text)).length < 512) :
    sendCommand ans tv 512 (getEdidDataFields source text) = some (0, tv) := by
  have hget : "get".toList ≠ [] ∧ '.' ∉ "get".toList := by decide
  rw [sendCommand_of_length_lt hfits, getEdidDataFields,
    TvService.parserTvCommand_edid (hfits.trans (by decide)), TvService.parserEdidCommand,
    TvService.strtok_commandText hget.1 hget.2]
  simp only [TvService.strtokInt_commandText, Option.bind_eq_bind, Option.bind_some]
  rfl

/-- **What the method does**: it returns 0 and leaves the buffer, or its command does not fit. -/
theorem getEdidData_eq (source : SourceInput) (dataBuf : List Int8) :
    (ReadBackFits source dataBuf → getEdidData ans tv source dataBuf = some (0, dataBuf, tv)) ∧
      (¬ ReadBackFits source dataBuf → getEdidData ans tv source dataBuf = none) := by
  constructor
  · rintro ⟨text, htext, hfits⟩
    rw [getEdidData, htext]
    show (do
      let (ret, tv) ← sendCommand ans tv 512 (getEdidDataFields source text)
      some (ret, dataBuf, tv)) = _
    rw [sendCommand_getEdidData hfits]
    rfl
  · intro hno
    rw [getEdidData]
    rcases htext : memoryText dataBuf with _ | text
    · rfl
    · -- the text is there, so that it is too long
      have hlong : ¬ (commandText (getEdidDataFields source text)).length < 512 :=
        fun hfits => hno ⟨text, htext, hfits⟩
      show (do
        let (ret, tv) ← sendCommand ans tv 512 (getEdidDataFields source text)
        some (ret, dataBuf, tv)) = _
      rw [sendCommand, if_neg hlong]
      rfl

/-! ## Reading back -/

theorem setEdidData_nonneg_iff (portAns : EdidPortAnswers) (tv : CTv) (source : SourceInput)
    (data : Vector Int8 realEdidDataSize) :
    0 ≤ (tv.setEdidData portAns source data).1 ↔ EdidPortWriteSucceeds portAns := by
  rw [CTv.setEdidData, CTv.updataEdidDataWithPort, EdidPortWriteSucceeds]
  by_cases hopen : portAns.dataOpen = true
  · rw [if_pos hopen, and_iff_right hopen]
    split
    · rename_i hwrite
      exact iff_of_false not_nonneg_failure (not_not_intro hwrite)
    · rename_i hwrite
      exact iff_of_true (Int32.le_refl 0) hwrite
  · rw [if_neg hopen]
    exact iff_of_false not_nonneg_failure fun h => hopen h.1

/-- Data that is uploaded is read back: where the upload returns no negative value, neither does
the call that follows, and the first bytes of its buffer are the data. -/
def EdidReadsBack (portAns : EdidPortAnswers) (ans : Answers) (tv : CTv) (source : SourceInput)
    (data : Vector Int8 realEdidDataSize) (behind : List Char) (dataBuf : List Int8) : Prop :=
  ∀ ret actions, setEdidData portAns tv source data behind = some (ret, actions) → 0 ≤ ret →
    ∃ ret' dataBuf' tv', getEdidData ans tv source dataBuf = some (ret', dataBuf', tv') ∧
      0 ≤ ret' ∧ dataBuf'.take realEdidDataSize = data.toList

/-- **Data that is read back** is data that was in the buffer before: in all other cases the upload
fails, or the data is lost. -/
theorem edidReadsBack_iff (portAns : EdidPortAnswers) (ans : Answers) (tv : CTv)
    (source : SourceInput) (data : Vector Int8 realEdidDataSize) (behind : List Char)
    (dataBuf : List Int8) :
    EdidReadsBack portAns ans tv source data behind dataBuf ↔
      (EdidPortWriteSucceeds portAns →
        ReadBackFits source dataBuf ∧ dataBuf.take realEdidDataSize = data.toList) := by
  rw [EdidReadsBack, setEdidData_eq, ← setEdidData_nonneg_iff portAns tv source data]
  constructor
  · intro hback hret
    obtain ⟨ret', dataBuf', tv', hget, -, hdata⟩ := hback _ _ rfl hret
    by_cases hfits : ReadBackFits source dataBuf
    · rw [(getEdidData_eq source dataBuf).1 hfits] at hget
      cases hget
      exact ⟨hfits, hdata⟩
    · rw [(getEdidData_eq source dataBuf).2 hfits] at hget
      cases hget
  · rintro hcond ret actions hcall hret
    have hupload : (tv.setEdidData portAns source data).1 = ret :=
      congrArg Prod.fst (Option.some.inj hcall)
    obtain ⟨hfits, hdata⟩ := hcond (hupload ▸ hret)
    exact ⟨0, dataBuf, tv, (getEdidData_eq source dataBuf).1 hfits, Int32.le_refl 0, hdata⟩

/-- Ones are uploaded, and the buffer stays cleared. -/
theorem not_forall_edidReadsBack :
    ¬ ∀ (portAns : EdidPortAnswers) (ans : Answers) (tv : CTv) (source : SourceInput)
      (data : Vector Int8 realEdidDataSize) (behind : List Char) (dataBuf : List Int8),
      sourceHdmi1 ≤ source → source ≤ sourceHdmi4 →
      tv.tvinGetSourcePortBySourceInput source ∈ hdmiPorts.map Prod.snd →
      dataBuf.length = realEdidDataSize →
        EdidReadsBack portAns ans tv source data behind dataBuf := by
  intro hall
  let tv := (CTv.allocate ⟨fun _ => none, none, true, true, sourceTv⟩).tvinLoadSourceInputToPortMap
  have hport : tv.tvinGetSourcePortBySourceInput sourceHdmi2 ∈ hdmiPorts.map Prod.snd := by
    decide +kernel
  have hback := hall ⟨true, 257, 0⟩ (Answers.granting 0 CTv.noSignalInfo) tv sourceHdmi2
    (Vector.replicate realEdidDataSize 1) [] (List.replicate realEdidDataSize 0) (by decide)
    (by decide) hport List.length_replicate
  have hdata := ((edidReadsBack_iff _ _ _ _ _ _ _).mp hback ⟨rfl, by decide⟩).2
  rw [Vector.toList_replicate, List.take_replicate, Nat.min_self] at hdata
  exact absurd hdata (by decide)

end TvClient
