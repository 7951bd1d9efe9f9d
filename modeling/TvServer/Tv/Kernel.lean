import TvServer.Event
import TvServer.TvCommon

/-!
# The kernel under the television object

The television object drives the hardware through device files, sysfs nodes and the audio
interface. Here are the requests it makes, the answers it may get, and the actions that a run
leaves behind. The answers to one command are a record: a command makes each request at most
once, so that a record per command covers every behavior of the drivers.

## Main definitions

* `VdinRequest`, `AfeRequest`, `AmVideoRequest`, `SysNode`: what is requested, and of whom
* `Answers`: the answers to the requests of one command
* `TvAction`: what the television object did
-/

/-- What is returned for a failure is negative. -/
theorem failure_neg : (-1 : Int32) < 0 := by decide

theorem not_nonneg_failure : ¬ (0 : Int32) ≤ -1 := Int32.not_le.mpr failure_neg

/-! ## Requests -/

/-- An ioctl of the vdin device, `TVIN_IOC_*`. -/
inductive VdinRequest where
  | openPort (port : TvinPort)
  | closePort
  | startDec (info : TvinInfo)
  | stopDec
  | getEventInfo
  | getSigInfo
  | getFrontendInfo
  | getColorRange
  | snowOn
  | snowOff
deriving DecidableEq

/-- An ioctl of the analog frontend, `TVIN_IOC_S_AFE_SONWON` and `TVIN_IOC_S_AFE_SONWOFF`. -/
inductive AfeRequest where
  | snowOn
  | snowOff
deriving DecidableEq

/-- An ioctl of the video layer, `AMSTREAM_IOC_*`. -/
inductive AmVideoRequest where
  | setVideoDisableMode (status : Int32)
  | setVideoOutput (mode : Int32)
deriving DecidableEq

/-- The sysfs nodes that are written. -/
inductive SysNode where
  | vfmMap
  | tsyncEnable
  | tsyncMode
  | freerunMode
  | disableVideo
  | screenMode
  | testScreen
deriving DecidableEq

/-- The input devices of audio patches, `AUDIO_DEVICE_IN_*`. -/
inductive AudioDeviceIn where
  | tvTuner
  | line
  | hdmi
  | spdif
deriving DecidableEq

/-- A report of the AV detection, `report_data_s`. -/
structure AvinReport where
  channel : UInt32
  status : UInt32
deriving DecidableEq

/-- What the audio singleton is constructed with: whether the interface loaded, and the handle
its memory holds. -/
structure CTvAudio where
  iSInit : Bool
  patchHandle : Int32
deriving DecidableEq

/-! ## Answers -/

/-- The answers to the requests of one command. -/
structure Answers where
  /-- Whether the vdin device opens, where it has to be opened for a request. -/
  vdinOpen : VdinRequest → Bool
  vdin : VdinRequest → Int32
  afeOpen : Bool
  afe : AfeRequest → Int32
  amVideo : AmVideoRequest → Int32
  /-- The event word that `TVIN_IOC_G_EVENT_INFO` delivers. -/
  eventInfo : UInt32
  /-- The signal info that `TVIN_IOC_G_SIG_INFO` delivers. -/
  sigInfo : TvinInfo
  /-- What `TVIN_IOC_G_FRONTEND_INFO` makes of the buffer it is given. -/
  frontendInfo : TvinFrontendInfo → TvinFrontendInfo
  /-- What `TVIN_IOC_GET_COLOR_RANGE` makes of the integer it is given. -/
  colorRange : Int32 → Int32
  writeSysfs : SysNode → Int32
  /-- The text read from the screen mode node, empty where the read fails. -/
  screenMode : List Char
  /-- The text read from the dolby vision node. -/
  dolbyVisionEnable : List Char
  fileExists : List Char → Bool
  /-- The bytes of a file, none where it cannot be opened or read. -/
  readFile : List Char → Option (List UInt8)
  edidOpen : Bool
  edidWrite : Int32
  edidSelectOpen : Bool
  edidSelectWrite : Int32
  edidUpdate : Int32
  audioLoad : CTvAudio
  /-- The result of `create_audio_patch`, and the handle it leaves. -/
  createAudioPatch : Int32 × Int32
  releaseAudioPatch : Int32
  avinReports : AvinReport × AvinReport
  hdmiStatus : Int32

/-- The answers of a kernel that grants every request, with an event word and a signal info. -/
def Answers.granting (eventInfo : UInt32) (sigInfo : TvinInfo) : Answers where
  vdinOpen _ := true
  vdin _ := 0
  afeOpen := true
  afe _ := 0
  amVideo _ := 0
  eventInfo := eventInfo
  sigInfo := sigInfo
  frontendInfo frontendInfo := frontendInfo
  colorRange rangeMode := rangeMode
  writeSysfs _ := 1
  screenMode := ['0']
  dolbyVisionEnable := ['N']
  fileExists _ := true
  readFile _ := none
  edidOpen := true
  edidWrite := 1536
  edidSelectOpen := true
  edidSelectWrite := 4
  edidUpdate := 0
  audioLoad := ⟨true, 0⟩
  createAudioPatch := (0, 1)
  releaseAudioPatch := 0
  avinReports := (⟨0, 0⟩, ⟨1, 0⟩)
  hdmiStatus := 0

/-! ## Actions -/

/-- The lines of the log by which the arms of a switch and the signal handlers can be told. -/
inductive LogLine where
  | hdrInfoChange
  | colorFmtChange
  | colorRangeChange
  | colorBitChange
  | vsFrqChange
  | vdinSignalStatusChange
  | afdInfoChange
  | allmInfoChange
  | invalidVdinEvent
  | onSigToStable
  | onSigToUnstable
  | onSigToUnSupport
  | onSigToNoSig
  | invalidSignalStatus
deriving DecidableEq

/-- What the television object did, with the result it got. -/
inductive TvAction where
  | vdin (request : VdinRequest) (ret : Int32)
  | afe (request : AfeRequest) (ret : Int32)
  | amVideo (request : AmVideoRequest) (ret : Int32)
  | writeSysfs (node : SysNode) (value : List Char) (ret : Int32)
  | writeEdid (data : List UInt8) (ret : Int32)
  | writeEdidSelect (value : List Char) (ret : Int32)
  | edidUpdate (ret : Int32)
  | createAudioPatch (deviceType : AudioDeviceIn) (ret : Int32)
  | releaseAudioPatch (handle : Int32) (ret : Int32)
  | tvEvent (event : CTvEvent)
  | log (line : LogLine)
deriving DecidableEq
