import TvServer.Client.EdidData
import TvServer.Client.Methods

/-!
# The command buffers of the client

A method of the client with integer arguments prints its command to a buffer of 32 characters. One
integer of any size leaves room in it, and two may not.

## Main definitions

* `IntegerCommand`: a method that prints integer arguments to such a buffer
* `IntegerCommand.written`: what it prints, with the terminator
* `IntegerCommand.Short`: the arguments have texts that are short enough

## Main results

* `call_of_method`: the methods send what is printed
* `length_written_le_iff`: when what is printed fits
-/

namespace TvClient

open CText (decText length_decText_le)
open TvService (commandText length_commandText_cons commandText_singleton)

/-- The size of the buffers `buf` and `CmdString`. -/
def commandBufferSize : ℕ := 32

/-- A method that prints integer arguments to a buffer of this size. -/
inductive IntegerCommand where
  | startTv (source : SourceInput)
  | stopTv (source : SourceInput)
  | setEdidVersion (source : SourceInput) (edidVer : Int32)
  | getEdidVersion (source : SourceInput)
  | setEdidData (source : SourceInput)
  | getSourceConnectStatus (source : SourceInput)

namespace IntegerCommand

/-- The fields of the command that is printed; EDID data has a dot at the end. -/
def fields : IntegerCommand → List (List Char)
  | startTv source => ["control".toList, decText tvControlStartTv, decText source]
  | stopTv source => ["control".toList, decText tvControlStopTv, decText source]
  | setEdidVersion source edidVer => setEdidVersionFields source edidVer
  | getEdidVersion source => ["edid".toList, "get".toList, decText hdmiEdidVerGet, decText source]
  | setEdidData source => [decText hdmiEdidDataSet, decText source, []]
  | getSourceConnectStatus source =>
    ["control".toList, decText tvControlGetConnectStatus, decText source]

/-- What `sprintf` writes from the start of the buffer on. -/
def written (c : IntegerCommand) : List Char := commandText c.fields ++ ['\x00']

/-- The method that sends the command as it is; EDID data is sent beside words. -/
def method : IntegerCommand → Option Method
  | startTv source => some (.startTv source)
  | stopTv source => some (.stopTv source)
  | setEdidVersion source edidVer => some (.setEdidVersion source edidVer)
  | getEdidVersion source => some (.getEdidVersion source)
  | setEdidData _ => none
  | getSourceConnectStatus source => some (.getSourceConnectStatus source)

/-- The texts of a source and a version together have 17 characters at most. -/
def Short : IntegerCommand → Prop
  | setEdidVersion source edidVer => (decText source).length + (decText edidVer).length ≤ 17
  | _ => True

/-- The methods send what is printed. -/
theorem call_of_method (ans : Answers) (tv : CTv) {c : IntegerCommand} {m : Method}
    (hm : c.method = some m) : m.call ans tv = sendCommand ans tv commandBufferSize c.fields := by
  cases c with
  | setEdidData source => cases hm
  | _ =>
    obtain rfl := Option.some.inj hm
    rfl

theorem length_written (c : IntegerCommand) :
    c.written.length = (commandText c.fields).length + 1 := by
  rw [written, List.length_append, List.length_singleton]

/-- A command of the television object fits. -/
theorem length_control_le (id source : Int32) :
    (commandText ["control".toList, decText id, decText source]).length + 1 ≤ commandBufferSize :=
  length_control_lt id source

/-- The command that sets an EDID version has 14 characters beside the two integers. -/
theorem length_setEdidVersion (source : SourceInput) (edidVer : Int32) :
    (commandText (setEdidVersionFields source edidVer)).length =
      14 + (decText source).length + (decText edidVer).length := by
  have hwords : "edid".toList.length = 4 ∧ "set".toList.length = 3 := ⟨rfl, rfl⟩
  have hid : (decText hdmiEdidVerSet).length = 3 := rfl
  simp only [setEdidVersionFields, length_commandText_cons, commandText_singleton, hwords, hid]
  omega

/-- **What fits the buffers**: a command with one integer always does, and the one with a source
and a version exactly if their texts together have 17 characters at most. -/
theorem length_written_le_iff (c : IntegerCommand) :
    c.written.length ≤ commandBufferSize ↔ c.Short := by
  rw [length_written]
  cases c with
  | startTv source => exact iff_of_true (length_control_le _ source) trivial
  | stopTv source => exact iff_of_true (length_control_le _ source) trivial
  | getSourceConnectStatus source => exact iff_of_true (length_control_le _ source) trivial
  | setEdidVersion source edidVer =>
    rw [fields, length_setEdidVersion, Short, commandBufferSize]
    omega
  | getEdidVersion source =>
    have hwords : "edid".toList.length = 4 ∧ "get".toList.length = 3 := ⟨rfl, rfl⟩
    have hid : (decText hdmiEdidVerGet).length = 3 := rfl
    have hsource := length_decText_le source
    refine iff_of_true ?_ trivial
    simp only [fields, length_commandText_cons, commandText_singleton, hwords, hid,
      commandBufferSize]
    omega
  | setEdidData source =>
    have hid : (decText hdmiEdidDataSet).length = 3 := rfl
    have hsource := length_decText_le source
    refine iff_of_true ?_ trivial
    simp only [fields, length_commandText_cons, commandText_singleton, hid, List.length_nil,
      commandBufferSize]
    omega

/-- Two integers of eleven characters each do not fit. -/
theorem not_forall_length_written_le :
    ¬ ∀ c : IntegerCommand, c.written.length ≤ commandBufferSize := by
  intro hall
  have hlen := hall (.setEdidVersion (-2147483648) (-2147483648))
  have hleast : (decText (-2147483648)).length = 11 := by decide +kernel
  rw [length_written, fields, length_setEdidVersion, hleast, commandBufferSize] at hlen
  omega

end IntegerCommand

end TvClient
