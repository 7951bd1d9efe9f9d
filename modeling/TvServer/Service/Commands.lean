import TvServer.Tv.CTv

/-!
# The commands of the service

A client sends a command to the service as a text of fields that are joined by dots: the family of
the command, its id, and its arguments. The service takes the text apart and performs the
operation of the television object. There is no result where the parser would read a token that
the text does not have, or overflow the buffer it copies the text to.

## Main definitions

* `parserTvCommand`: a command, performed
* `onTransactTvAction`: the transaction that carries a command
* `commandText`: the text with given fields

## Main results

* `parserTvCommand_commandText`: a command is dispatched by its first field
* `strtokInt_commandText`: an integer field is read back
-/

/-! ## Command ids -/

def tvControlStartTv : Int32 := 3
def tvControlStopTv : Int32 := 4
def tvControlGetFrameHeight : Int32 := 5
def tvControlGetFrameWidth : Int32 := 6
def tvControlGetColorDepth : Int32 := 7
def tvControlGetFrameRate : Int32 := 8
def tvControlGetLineScanMode : Int32 := 9
def tvControlGetConnectStatus : Int32 := 10
def tvControlVdinWorkModeSet : Int32 := 98
def hdmiEdidVerSet : Int32 := 101
def hdmiEdidVerGet : Int32 := 102
def hdmiGetColorFormat : Int32 := 106
def hdmiGetColorRange : Int32 := 108
def hdmiGetColorDepth : Int32 := 110
def hdmiGetAspectRatio : Int32 := 112

namespace TvService

variable (ans : Answers) (mpTv : CTv)

/-! ## The parser -/

/-- The next token, as an integer, and the text behind it. -/
def strtokInt (rest : List Char) : Option (Int32 × List Char) :=
  match CText.strtok '.' rest with
  | some (temp, rest) => some (CText.atoi temp, rest)
  | none => none

/-- A field of the frontend info, which is zero before `GetFrontendInfo` fills it. -/
def frontendField (field : TvinFrontendInfo → UInt32) : Int32 × CTv :=
  let info := mpTv.getFrontendInfo ans .zero
  ((field info.1.2).toInt32, info.2)

/-- The commands that start with `control`. -/
def parserControlCommand (rest : List Char) : Option (Int32 × CTv) := do
  let (moudleID, rest) ← strtokInt rest
  if moudleID = tvControlStartTv then
    let (startSource, _) ← strtokInt rest
    some (mpTv.startTv ans startSource)
  else if moudleID = tvControlStopTv then
    let (stopSource, _) ← strtokInt rest
    some (mpTv.stopTv ans stopSource)
  else if moudleID = tvControlVdinWorkModeSet then
    let (setVdinWorkMode, _) ← strtokInt rest
    some (mpTv.setVdinWorkMode setVdinWorkMode.toUInt32)
  else if moudleID = tvControlGetFrameHeight then some (frontendField ans mpTv (·.height))
  else if moudleID = tvControlGetFrameWidth then some (frontendField ans mpTv (·.width))
  else if moudleID = tvControlGetFrameRate then some (frontendField ans mpTv (·.fps))
  else if moudleID = tvControlGetColorDepth then some (frontendField ans mpTv (·.colordepth))
  else if moudleID = tvControlGetLineScanMode then some (frontendField ans mpTv (·.scanMode))
  else if moudleID = tvControlGetConnectStatus then
    let (source, _) ← strtokInt rest
    (mpTv.getSourceConnectStatus ans source).map fun ret => (ret, mpTv)
  else some (0, mpTv)

/-- The commands that start with `edid`, whose source is read before their id is looked at. -/
def parserEdidCommand (rest : List Char) : Option (Int32 × CTv) := do
  let (temp, rest) ← CText.strtok '.' rest
  if temp = "set".toList then
    let (moudleID, rest) ← strtokInt rest
    let (setSource, rest) ← strtokInt rest
    if moudleID = hdmiEdidVerSet then
      let (setVersion, _) ← strtokInt rest
      some (mpTv.setEdidVersion ans setSource setVersion.toUInt32)
    else some (0, mpTv)
  else if temp = "get".toList then
    let (moudleID, rest) ← strtokInt rest
    let (getSource, _) ← strtokInt rest
    if moudleID = hdmiEdidVerGet then some ((mpTv.getEdidVersion getSource).toInt32, mpTv)
    else some (0, mpTv)
  else some (0, mpTv)

/-- The commands that start with `hdmi`. -/
def parserHdmiCommand (rest : List Char) : Option (Int32 × CTv) := do
  let (moudleID, _) ← strtokInt rest
  if moudleID = hdmiGetColorFormat then some (mpTv.getCurrentSourceInfo.cfmt.toInt32, mpTv)
  else if moudleID = hdmiGetColorRange then
    -- the frontend info is got and not used
    some ((mpTv.getFrontendInfo ans .zero).2.getColorRangeMode ans)
  else if moudleID = hdmiGetColorDepth then
    -- the field is that of the frontend info, which is zero here
    some (TvinFrontendInfo.zero.colordepth.toInt32, mpTv)
  else if moudleID = hdmiGetAspectRatio then
    some (mpTv.getCurrentSourceInfo.aspectRatio.toInt32, mpTv)
  else some (0, mpTv)

/-- Perform a command: its result, and the television object behind it. -/
def parserTvCommand (commandData : List Char) : Option (Int32 × CTv) :=
  -- the text is copied to a buffer of this size, without a check, where its end needs room too
  if commandData.length < 1024 then do
    let (temp, rest) ← CText.strtok '.' commandData
    if temp = "control".toList then parserControlCommand ans mpTv rest
    else if temp = "edid".toList then parserEdidCommand ans mpTv rest
    else if temp = "hdmi".toList then parserHdmiCommand ans mpTv rest
    else some (0, mpTv)
  else none

/-- The transaction `CMD_TV_ACTION`: the command is performed and its result written to the
reply. -/
def onTransactTvAction (command : List Char) (reply : Parcel) : Option (Parcel × CTv) :=
  (parserTvCommand ans mpTv command).map fun (ret, mpTv) => (reply.writeInt32 ret, mpTv)

/-! ## Fields -/

/-- The text of a command with given fields. -/
def commandText (fields : List (List Char)) : List Char := ['.'].intercalate fields

theorem commandText_singleton (field : List Char) : commandText [field] = field :=
  List.append_nil field

theorem length_commandText_cons (field next : List Char) (fields : List (List Char)) :
    (commandText (field :: next :: fields)).length =
      field.length + 1 + (commandText (next :: fields)).length := by
  rw [commandText, List.intercalate_cons_cons, List.length_append, List.length_append,
    List.length_singleton, commandText]

theorem strtokInt_commandText (i : Int32) (fields : List (List Char)) :
    strtokInt (commandText (CText.decText i :: fields)) = some (i, commandText fields) := by
  rw [strtokInt, commandText,
    CText.strtok_intercalate (CText.decText_ne_nil i) (CText.dot_not_mem_decText i)]
  show some (CText.atoi (CText.decText i), commandText fields) = some (i, commandText fields)
  rw [CText.atoi_decText]

theorem strtok_commandText {temp : List Char} (hne : temp ≠ []) (hd : '.' ∉ temp)
    (fields : List (List Char)) :
    CText.strtok '.' (commandText (temp :: fields)) = some (temp, commandText fields) :=
  CText.strtok_intercalate hne hd fields

variable {ans mpTv}

/-- A command is dispatched by its first field. -/
theorem parserTvCommand_commandText {temp : List Char} (hne : temp ≠ []) (hd : '.' ∉ temp)
    {fields : List (List Char)} (hlen : (commandText (temp :: fields)).length < 1024) :
    parserTvCommand ans mpTv (commandText (temp :: fields)) =
      if temp = "control".toList then parserControlCommand ans mpTv (commandText fields)
      else if temp = "edid".toList then parserEdidCommand ans mpTv (commandText fields)
      else if temp = "hdmi".toList then parserHdmiCommand ans mpTv (commandText fields)
      else some (0, mpTv) := by
  rw [parserTvCommand, if_pos hlen, strtok_commandText hne hd]
  rfl

section

variable {fields : List (List Char)}

theorem parserTvCommand_control
    (hlen : (commandText ("control".toList :: fields)).length < 1024) :
    parserTvCommand ans mpTv (commandText ("control".toList :: fields)) =
      parserControlCommand ans mpTv (commandText fields) :=
  have hd : '.' ∉ "control".toList := by decide
  parserTvCommand_commandText (List.cons_ne_nil _ _) hd hlen

theorem parserTvCommand_edid (hlen : (commandText ("edid".toList :: fields)).length < 1024) :
    parserTvCommand ans mpTv (commandText ("edid".toList :: fields)) =
      parserEdidCommand ans mpTv (commandText fields) :=
  have hd : '.' ∉ "edid".toList := by decide
  parserTvCommand_commandText (List.cons_ne_nil _ _) hd hlen

theorem parserTvCommand_hdmi (hlen : (commandText ("hdmi".toList :: fields)).length < 1024) :
    parserTvCommand ans mpTv (commandText ("hdmi".toList :: fields)) =
      parserHdmiCommand ans mpTv (commandText fields) :=
  have hd : '.' ∉ "hdmi".toList := by decide
  parserTvCommand_commandText (List.cons_ne_nil _ _) hd hlen

end

end TvService
