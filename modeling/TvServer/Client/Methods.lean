import TvServer.Foundations.Machine
import TvServer.Service.Commands

/-!
# The methods of the client

A method of the client formats a command into a buffer, sends it to the service and returns the
reply. A call does what the operation of the television object does that the method is named
after, with the arguments it was given.

## Main definitions

* `startTv`, `setEdidVersion`, `getCurrentSourceColorRange`, ...: the methods
* `Method`: a method with its arguments, with its call `Method.call`
* `Method.operation`: the operation a method is named after
* `Method.Fits`: the command fits into the buffer of the method

## Main results

* `Method.operation_run`: the operation of a method is a run of commands
* `call_eq_operation`: a call performs the operation and returns its result
-/

namespace TvClient

open CText (decText)
open TvService (commandText parserControlCommand parserEdidCommand parserHdmiCommand
  strtokInt_commandText strtok_commandText)

variable (ans : Answers) (tv : CTv)

/-! ## Calls -/

/-- Send a command to the service and read its reply. -/
def sendMethodCall (cmdString : List Char) : Option (Int32 × CTv) :=
  (TvService.onTransactTvAction ans tv cmdString []).map fun (reply, tv) =>
    (reply.readInt32.1, tv)

/-- Format a command into a buffer and send it. There is no result where the buffer overflows. -/
def sendCommand (size : ℕ) (fields : List (List Char)) : Option (Int32 × CTv) :=
  if (commandText fields).length < size then sendMethodCall ans tv (commandText fields) else none

/-- A command whose reply is cast to an enumeration. -/
def sendEnumCommand (size : ℕ) (fields : List (List Char)) : Option (UInt32 × CTv) :=
  (sendCommand ans tv size fields).map fun (ret, tv) => (ret.toUInt32, tv)

/-! ## Methods -/

def startTv (source : SourceInput) : Option (Int32 × CTv) :=
  sendCommand ans tv 32 ["control".toList, decText tvControlStartTv, decText source]

def stopTv (source : SourceInput) : Option (Int32 × CTv) :=
  sendCommand ans tv 32 ["control".toList, decText tvControlStopTv, decText source]

def setVdinWorkMode (vdinWorkMode : UInt32) : Option (Int32 × CTv) :=
  sendCommand ans tv 512
    ["control".toList, decText tvControlVdinWorkModeSet, decText vdinWorkMode.toInt32]

/-- The fields of the command that sets an EDID version. -/
def setEdidVersionFields (source : SourceInput) (edidVer : Int32) : List (List Char) :=
  ["edid".toList, "set".toList, decText hdmiEdidVerSet, decText source, decText edidVer]

def setEdidVersion (source : SourceInput) (edidVer : Int32) : Option (Int32 × CTv) :=
  sendCommand ans tv 32 (setEdidVersionFields source edidVer)

def getEdidVersion (source : SourceInput) : Option (Int32 × CTv) :=
  sendCommand ans tv 32 ["edid".toList, "get".toList, decText hdmiEdidVerGet, decText source]

def getCurrentSourceFrameHeight : Option (Int32 × CTv) :=
  sendCommand ans tv 32 ["control".toList, decText tvControlGetFrameHeight]

def getCurrentSourceFrameWidth : Option (Int32 × CTv) :=
  sendCommand ans tv 32 ["control".toList, decText tvControlGetFrameWidth]

def getCurrentSourceFrameFps : Option (Int32 × CTv) :=
  sendCommand ans tv 32 ["control".toList, decText tvControlGetFrameRate]

def getCurrentSourceColorDepth : Option (Int32 × CTv) :=
  sendCommand ans tv 32 ["control".toList, decText tvControlGetColorDepth]

def getCurrentSourceAspectRatio : Option (UInt32 × CTv) :=
  sendEnumCommand ans tv 32 ["hdmi".toList, decText hdmiGetAspectRatio]

def getCurrentSourceColorFormat : Option (UInt32 × CTv) :=
  sendEnumCommand ans tv 32 ["hdmi".toList, decText hdmiGetColorFormat]

def getCurrentSourceColorRange : Option (UInt32 × CTv) :=
  sendEnumCommand ans tv 32 ["hdmi".toList, decText hdmiGetColorRange]

def getCurrentSourceLineScanMode : Option (UInt32 × CTv) :=
  sendEnumCommand ans tv 32 ["control".toList, decText tvControlGetLineScanMode]

def getSourceConnectStatus (source : SourceInput) : Option (Int32 × CTv) :=
  sendCommand ans tv 32 ["control".toList, decText tvControlGetConnectStatus, decText source]

/-- A method that is sent with integer arguments. -/
inductive Method where
  | startTv (source : SourceInput)
  | stopTv (source : SourceInput)
  | setVdinWorkMode (vdinWorkMode : UInt32)
  | setEdidVersion (source : SourceInput) (edidVer : Int32)
  | getEdidVersion (source : SourceInput)
  | getCurrentSourceFrameHeight
  | getCurrentSourceFrameWidth
  | getCurrentSourceFrameFps
  | getCurrentSourceColorDepth
  | getCurrentSourceAspectRatio
  | getCurrentSourceColorFormat
  | getCurrentSourceColorRange
  | getCurrentSourceLineScanMode
  | getSourceConnectStatus (source : SourceInput)

namespace Method

/-- The result of a method whose result is an enumeration, as an integer. -/
def enumResult (result : Option (UInt32 × CTv)) : Option (Int32 × CTv) :=
  result.map fun (ret, tv) => (ret.toInt32, tv)

/-- The call of a method: the integer it returns, and the television object behind it. -/
def call : Method → Option (Int32 × CTv)
  | startTv source => TvClient.startTv ans tv source
  | stopTv source => TvClient.stopTv ans tv source
  | setVdinWorkMode vdinWorkMode => TvClient.setVdinWorkMode ans tv vdinWorkMode
  | setEdidVersion source edidVer => TvClient.setEdidVersion ans tv source edidVer
  | getEdidVersion source => TvClient.getEdidVersion ans tv source
  | getCurrentSourceFrameHeight => TvClient.getCurrentSourceFrameHeight ans tv
  | getCurrentSourceFrameWidth => TvClient.getCurrentSourceFrameWidth ans tv
  | getCurrentSourceFrameFps => TvClient.getCurrentSourceFrameFps ans tv
  | getCurrentSourceColorDepth => TvClient.getCurrentSourceColorDepth ans tv
  | getCurrentSourceAspectRatio => enumResult (TvClient.getCurrentSourceAspectRatio ans tv)
  | getCurrentSourceColorFormat => enumResult (TvClient.getCurrentSourceColorFormat ans tv)
  | getCurrentSourceColorRange => enumResult (TvClient.getCurrentSourceColorRange ans tv)
  | getCurrentSourceLineScanMode => enumResult (TvClient.getCurrentSourceLineScanMode ans tv)
  | getSourceConnectStatus source => TvClient.getSourceConnectStatus ans tv source

/-- A query of a field of the frontend info, which the television object fills from zero. -/
def frontendQuery (field : TvinFrontendInfo → UInt32) : Option (Int32 × CTv) :=
  let info := tv.getFrontendInfo ans .zero
  some ((field info.1.2).toInt32, info.2)

/-- What a method is meant to do: the operation of the television object that it is named after,
or a query of a field. -/
def operation : Method → Option (Int32 × CTv)
  | startTv source => some (tv.startTv ans source)
  | stopTv source => some (tv.stopTv ans source)
  | setVdinWorkMode vdinWorkMode => some (tv.setVdinWorkMode vdinWorkMode)
  | setEdidVersion source edidVer => some (tv.setEdidVersion ans source edidVer.toUInt32)
  | getEdidVersion source => some ((tv.getEdidVersion source).toInt32, tv)
  | getCurrentSourceFrameHeight => frontendQuery ans tv (·.height)
  | getCurrentSourceFrameWidth => frontendQuery ans tv (·.width)
  | getCurrentSourceFrameFps => frontendQuery ans tv (·.fps)
  | getCurrentSourceColorDepth => frontendQuery ans tv (·.colordepth)
  | getCurrentSourceAspectRatio => some (tv.getCurrentSourceInfo.aspectRatio.toInt32, tv)
  | getCurrentSourceColorFormat => some (tv.getCurrentSourceInfo.cfmt.toInt32, tv)
  | getCurrentSourceColorRange => some (tv.getColorRangeMode ans)
  | getCurrentSourceLineScanMode => frontendQuery ans tv (·.scanMode)
  | getSourceConnectStatus source =>
    (tv.getSourceConnectStatus ans source).map fun ret => (ret, tv)

/-- The television object that the operation is performed on: the color range is got behind the
frontend info, which is not used. -/
def served : Method → CTv
  | getCurrentSourceColorRange => (tv.getFrontendInfo ans .zero).2
  | _ => tv

/-- The commands that a method makes the television object handle. -/
def commands : Method → List CTv.Command
  | startTv source => [.startTv source]
  | stopTv source => [.stopTv source]
  | setVdinWorkMode vdinWorkMode => [.setVdinWorkMode vdinWorkMode]
  | setEdidVersion source edidVer => [.setEdidVersion source edidVer.toUInt32]
  | getCurrentSourceFrameHeight | getCurrentSourceFrameWidth | getCurrentSourceFrameFps
  | getCurrentSourceColorDepth | getCurrentSourceLineScanMode => [.getFrontendInfo .zero]
  | getCurrentSourceColorRange => [.getFrontendInfo .zero, .getColorRangeMode]
  | getEdidVersion _ | getCurrentSourceAspectRatio | getCurrentSourceColorFormat
  | getSourceConnectStatus _ => []

/-- Whether the command of a method fits into its buffer; only an EDID version may not. -/
def Fits : Method → Prop
  | setEdidVersion source edidVer => (commandText (setEdidVersionFields source edidVer)).length < 32
  | _ => True

/-- **Methods are runs**: the television object is left in the state behind the commands of the
method. -/
theorem operation_run (m : Method) : ∀ r ∈ m.operation ans (m.served ans tv),
    r.2 = Machine.run CTv.step tv (m.commands.map fun command => (command, ans)) := by
  intro r hr
  cases m with
  | getSourceConnectStatus source =>
    obtain ⟨_, -, he⟩ := Option.map_eq_some_iff.mp hr
    exact (congrArg Prod.snd he).symm
  | _ => exact (congrArg Prod.snd (Option.some.inj hr)).symm

end Method

/-! ## Calls are operations -/

section Families

variable {ans tv} {size : ℕ} {fields : List (List Char)}

/-- A command that fits is parsed by the service, and its result returned. -/
theorem sendCommand_of_length_lt (hlen : (commandText fields).length < size) :
    sendCommand ans tv size fields = TvService.parserTvCommand ans tv (commandText fields) := by
  rw [sendCommand, if_pos hlen, sendMethodCall, TvService.onTransactTvAction, Option.map_map]
  exact Option.map_id_apply

theorem sendCommand_control (hsize : size ≤ 1024)
    (hlen : (commandText ("control".toList :: fields)).length < size) :
    sendCommand ans tv size ("control".toList :: fields) =
      parserControlCommand ans tv (commandText fields) := by
  rw [sendCommand_of_length_lt hlen, TvService.parserTvCommand_control (hlen.trans_le hsize)]

theorem sendCommand_edid (hlen : (commandText ("edid".toList :: fields)).length < 32) :
    sendCommand ans tv 32 ("edid".toList :: fields) =
      parserEdidCommand ans tv (commandText fields) := by
  rw [sendCommand_of_length_lt hlen, TvService.parserTvCommand_edid (by omega)]

theorem sendCommand_hdmi (hlen : (commandText ("hdmi".toList :: fields)).length < 32) :
    sendCommand ans tv 32 ("hdmi".toList :: fields) =
      parserHdmiCommand ans tv (commandText fields) := by
  rw [sendCommand_of_length_lt hlen, TvService.parserTvCommand_hdmi (by omega)]

/-- Two integers behind a family name of seven letters fit into the smallest buffer. -/
theorem length_command_lt {family : List Char} (hfamily : family.length ≤ 7) (i j : Int32) :
    (commandText [family, decText i]).length < 32 ∧
      (commandText [family, decText i, decText j]).length < 32 := by
  -- eleven characters for each integer, and the dots
  have hi := CText.length_decText_le i
  have hj := CText.length_decText_le j
  simp only [TvService.length_commandText_cons, TvService.commandText_singleton]
  omega

/-- A command of the television object with an argument fits whatever the argument. -/
theorem length_control_lt (id argument : Int32) :
    (commandText ["control".toList, decText id, decText argument]).length < 32 :=
  have hcontrol : "control".toList.length ≤ 7 := le_rfl
  (length_command_lt hcontrol id argument).2

theorem sendCommand_control_argument (id argument : Int32) :
    sendCommand ans tv 32 ["control".toList, decText id, decText argument] =
      parserControlCommand ans tv (commandText [decText id, decText argument]) :=
  sendCommand_control (by omega) (length_control_lt id argument)

theorem sendCommand_control_query (id : Int32) :
    sendCommand ans tv 32 ["control".toList, decText id] =
      parserControlCommand ans tv (commandText [decText id]) :=
  have hcontrol : "control".toList.length ≤ 7 := le_rfl
  sendCommand_control (by omega) (length_command_lt hcontrol id 0).1

theorem sendCommand_hdmi_query (id : Int32) :
    sendCommand ans tv 32 ["hdmi".toList, decText id] =
      parserHdmiCommand ans tv (commandText [decText id]) :=
  have hhdmi : "hdmi".toList.length ≤ 7 := Nat.le_of_ble_eq_true rfl
  sendCommand_hdmi (length_command_lt hhdmi id 0).1

/-- The command that gets an EDID version fits whatever the source. -/
theorem sendCommand_edid_get (source : Int32) :
    sendCommand ans tv 32 ["edid".toList, "get".toList, decText hdmiEdidVerGet, decText source] =
      parserEdidCommand ans tv
        (commandText ["get".toList, decText hdmiEdidVerGet, decText source]) := by
  apply sendCommand_edid
  -- two words, and an id of three digits, leave room for the longest integer
  have hwords : "edid".toList.length = 4 ∧ "get".toList.length = 3 := ⟨rfl, rfl⟩
  have hid : (decText hdmiEdidVerGet).length = 3 := rfl
  have hsource := CText.length_decText_le source
  simp only [TvService.length_commandText_cons, TvService.commandText_singleton, hid, hwords]
  omega

end Families

variable {ans tv}

/-- **A call performs its operation.** Whatever the arguments and the state, a method whose
command fits into its buffer performs the operation it is named after with these arguments, and
returns its result. -/
theorem call_eq_operation (m : Method) (hfits : m.Fits) :
    m.call ans tv = m.operation ans (m.served ans tv) := by
  -- the fields are read back one by one, and the id selects the arm of the parser
  cases m with
  | startTv source =>
    rw [Method.call, startTv, sendCommand_control_argument, parserControlCommand]
    simp only [strtokInt_commandText, Option.bind_eq_bind, Option.bind_some]
    rfl
  | stopTv source =>
    rw [Method.call, stopTv, sendCommand_control_argument, parserControlCommand]
    simp only [strtokInt_commandText, Option.bind_eq_bind, Option.bind_some]
    rfl
  | setVdinWorkMode vdinWorkMode =>
    have hlen : _ < 512 := (length_control_lt tvControlVdinWorkModeSet vdinWorkMode.toInt32).trans
      (by omega)
    rw [Method.call, setVdinWorkMode, sendCommand_control (by omega) hlen, parserControlCommand]
    simp only [strtokInt_commandText, Option.bind_eq_bind, Option.bind_some]
    rfl
  | setEdidVersion source edidVer =>
    have hset : "set".toList ≠ [] ∧ '.' ∉ "set".toList := by decide
    rw [Method.call, setEdidVersion, setEdidVersionFields, sendCommand_edid hfits,
      parserEdidCommand, strtok_commandText hset.1 hset.2]
    simp only [strtokInt_commandText, Option.bind_eq_bind, Option.bind_some]
    rfl
  | getEdidVersion source =>
    have hget : "get".toList ≠ [] ∧ '.' ∉ "get".toList := by decide
    rw [Method.call, getEdidVersion, sendCommand_edid_get, parserEdidCommand,
      strtok_commandText hget.1 hget.2]
    simp only [strtokInt_commandText, Option.bind_eq_bind, Option.bind_some]
    rfl
  | getCurrentSourceFrameHeight =>
    rw [Method.call, getCurrentSourceFrameHeight, sendCommand_control_query, parserControlCommand]
    simp only [strtokInt_commandText, Option.bind_eq_bind, Option.bind_some]
    rfl
  | getCurrentSourceFrameWidth =>
    rw [Method.call, getCurrentSourceFrameWidth, sendCommand_control_query, parserControlCommand]
    simp only [strtokInt_commandText, Option.bind_eq_bind, Option.bind_some]
    rfl
  | getCurrentSourceFrameFps =>
    rw [Method.call, getCurrentSourceFrameFps, sendCommand_control_query, parserControlCommand]
    simp only [strtokInt_commandText, Option.bind_eq_bind, Option.bind_some]
    rfl
  | getCurrentSourceColorDepth =>
    rw [Method.call, getCurrentSourceColorDepth, sendCommand_control_query, parserControlCommand]
    simp only [strtokInt_commandText, Option.bind_eq_bind, Option.bind_some]
    rfl
  | getCurrentSourceAspectRatio =>
    rw [Method.call, getCurrentSourceAspectRatio, sendEnumCommand, sendCommand_hdmi_query,
      parserHdmiCommand]
    simp only [strtokInt_commandText, Option.bind_eq_bind, Option.bind_some]
    rfl
  | getCurrentSourceColorFormat =>
    rw [Method.call, getCurrentSourceColorFormat, sendEnumCommand, sendCommand_hdmi_query,
      parserHdmiCommand]
    simp only [strtokInt_commandText, Option.bind_eq_bind, Option.bind_some]
    rfl
  | getCurrentSourceColorRange =>
    rw [Method.call, getCurrentSourceColorRange, sendEnumCommand, sendCommand_hdmi_query,
      parserHdmiCommand]
    simp only [strtokInt_commandText, Option.bind_eq_bind, Option.bind_some]
    rfl
  | getCurrentSourceLineScanMode =>
    rw [Method.call, getCurrentSourceLineScanMode, sendEnumCommand, sendCommand_control_query,
      parserControlCommand]
    simp only [strtokInt_commandText, Option.bind_eq_bind, Option.bind_some]
    rfl
  | getSourceConnectStatus source =>
    rw [Method.call, getSourceConnectStatus, sendCommand_control_argument, parserControlCommand]
    simp only [strtokInt_commandText, Option.bind_eq_bind, Option.bind_some]
    rfl

/-- A source and a version of either sign reach the operation unchanged. -/
theorem call_eq_operation_negative :
    let ans := Answers.granting 0 CTv.noSignalInfo
    let tv := CTv.construct ans ⟨fun _ => none, none, true, true, sourceTv⟩
    (commandText (setEdidVersionFields (-7) (-1))).length < 32 ∧
      Method.call ans tv (.setEdidVersion (-7) (-1)) =
        some (tv.setEdidVersion ans (-7) 0xffffffff) := by
  intro ans tv
  have hfits : Method.Fits (.setEdidVersion (-7) (-1)) :=
    (by decide : (commandText (setEdidVersionFields (-7) (-1))).length < 32)
  exact ⟨hfits, call_eq_operation (.setEdidVersion (-7) (-1)) hfits⟩

/-- The color range is not the only thing that the service asks for when it is asked for it. -/
theorem not_forall_call_eq_operation :
    ¬ ∀ (ans : Answers) (tv : CTv) (m : Method), m.Fits → m.call ans tv = m.operation ans tv := by
  intro hall
  let ans := Answers.granting 0 CTv.noSignalInfo
  let tv := CTv.construct ans ⟨fun _ => none, none, true, true, sourceTv⟩
  have hcall := hall ans tv .getCurrentSourceColorRange trivial
  -- the call makes two ioctls and the operation one
  have htrace := congrArg (Option.map fun r => r.2.trace.length) hcall
  exact absurd htrace (by decide +kernel)

end TvClient
