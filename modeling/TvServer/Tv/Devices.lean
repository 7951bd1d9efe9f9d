import TvServer.Config.IniFile
import TvServer.Foundations.CText
import TvServer.Tv.Kernel
import Mathlib.Data.Vector.Basic

/-!
# The devices of the television object

The state of the television object together with the objects it owns, and the operations of
these: the vdin device and the analog frontend, the video planes, the video layer, the HDMI
receiver, the audio patches and the detection of plugs. An operation takes the answers of the
kernel and appends what it did to the trace.

## Main definitions

* `CTv`: the state
* `vdinDeviceIOCtl`, `tvinStartDecoder`, `tvinStopDecoder`, `tvinSwitchSnow`: the vdin device
* `vppSetVideoColor`, `setVideoScreenMode`: the video planes
* `hdmiRxEdidDataSwitch`, `hdmiRxEdidVerSwitch`: the HDMI receiver
* `getSourceConnectStatus`: whether a source is plugged in
-/

/-- The television object: its own state, that of its vdin device, audio patches and
configuration, the EDID versions of the HDMI sources, and the trace of its actions. -/
structure CTv where
  /-- Whether the vdin device is open. -/
  mVdin0DevFd : Bool
  /-- Whether the analog frontend is open. -/
  mAfeDevFd : Bool
  mDecoderStarted : Bool
  mSourceInputToPortMap : Vector TvinPort 16
  /-- The info block of `mTvinParam`, whose other fields stay zero. -/
  mTvinParamInfo : TvinInfo
  /-- The audio singleton, once it was used. -/
  mAudio : Option CTvAudio
  hdmi1CurrentEdidVer : UInt32
  hdmi2CurrentEdidVer : UInt32
  hdmi3CurrentEdidVer : UInt32
  hdmi4CurrentEdidVer : UInt32
  pIniFile : CIniFile
  mLastScreenMode : Int32
  mCurrentSignalInfo : TvinInfo
  mCurrentSource : SourceInput
  mVdinWorkMode : UInt32
  mATVDisplaySnow : Bool
  /-- Whether an observer is set. -/
  mpObserver : Bool
  trace : List TvAction

namespace CTv

variable (ans : Answers) (tv : CTv)

/-! ## Actions and assignments -/

/-- Append an action to the trace. -/
def perform (action : TvAction) : CTv := { tv with trace := tv.trace ++ [action] }

def setVdin0DevFd (isOpen : Bool) : CTv := { tv with mVdin0DevFd := isOpen }

def setAfeDevFd (isOpen : Bool) : CTv := { tv with mAfeDevFd := isOpen }

def setDecoderStarted (started : Bool) : CTv := { tv with mDecoderStarted := started }

def setTvinParamInfo (info : TvinInfo) : CTv := { tv with mTvinParamInfo := info }

def setAudio (audio : CTvAudio) : CTv := { tv with mAudio := some audio }

def setLastScreenMode (screenMode : Int32) : CTv := { tv with mLastScreenMode := screenMode }

def assignVdinWorkMode (vdinWorkMode : UInt32) : CTv := { tv with mVdinWorkMode := vdinWorkMode }

def setCurrentSource (source : SourceInput) : CTv := { tv with mCurrentSource := source }

/-! ## The vdin device and the analog frontend -/

/-- An ioctl of the vdin device, which is opened first if it is not open. -/
def vdinDeviceIOCtl (request : VdinRequest) : Int32 × CTv :=
  -- a failing open leaves the device closed, and the next request tries again
  let tv := if tv.mVdin0DevFd then tv else tv.setVdin0DevFd (ans.vdinOpen request)
  if tv.mVdin0DevFd then (ans.vdin request, tv.perform (.vdin request (ans.vdin request)))
  else (-1, tv)

/-- An ioctl of the analog frontend, which is opened first if it is not open, and closed. -/
def afeDeviceIOCtl (request : AfeRequest) : Int32 × CTv :=
  let tv := if tv.mAfeDevFd then tv else tv.setAfeDevFd ans.afeOpen
  if tv.mAfeDevFd then
    (ans.afe request, (tv.perform (.afe request (ans.afe request))).setAfeDevFd false)
  else (-1, tv)

section

variable {ans tv}

/-- What an ioctl of the vdin device does, whether or not the device was open. -/
theorem vdinDeviceIOCtl_eq (request : VdinRequest) : tv.vdinDeviceIOCtl ans request =
    if tv.mVdin0DevFd || ans.vdinOpen request then
      (ans.vdin request,
        (tv.setVdin0DevFd true).perform (.vdin request (ans.vdin request)))
    else (-1, tv) := by
  obtain ⟨fd⟩ := tv
  rw [vdinDeviceIOCtl]
  cases fd <;> cases ans.vdinOpen request <;> simp [perform, setVdin0DevFd]

/-- What an ioctl of the analog frontend does, which is closed behind it. -/
theorem afeDeviceIOCtl_eq (request : AfeRequest) : tv.afeDeviceIOCtl ans request =
    if tv.mAfeDevFd || ans.afeOpen then
      (ans.afe request, (tv.perform (.afe request (ans.afe request))).setAfeDevFd false)
    else (-1, tv) := by
  obtain ⟨vdinFd, afeFd⟩ := tv
  rw [afeDeviceIOCtl]
  cases afeFd <;> cases ans.afeOpen <;> simp [perform, setAfeDevFd]

/-- An ioctl of an open device is made. -/
theorem vdinDeviceIOCtl_of_open (hopen : tv.mVdin0DevFd = true) (request : VdinRequest) :
    tv.vdinDeviceIOCtl ans request =
      (ans.vdin request, tv.perform (.vdin request (ans.vdin request))) := by
  simp [vdinDeviceIOCtl, hopen]

/-- An ioctl succeeds only on an open device. -/
theorem open_of_nonneg {request : VdinRequest} (h : 0 ≤ (tv.vdinDeviceIOCtl ans request).1) :
    (tv.vdinDeviceIOCtl ans request).2.mVdin0DevFd = true := by
  rw [vdinDeviceIOCtl_eq] at h ⊢
  split at h
  · rename_i ho
    rw [if_pos ho]
    rfl
  · exact absurd h not_nonneg_failure

end

def tvinOpenPort (sourcePort : TvinPort) : Int32 × CTv :=
  tv.vdinDeviceIOCtl ans (.openPort sourcePort)

/-- Close the port that is open, whatever the port given. -/
def tvinClosePort (_sourcePort : TvinPort) : Int32 × CTv := tv.vdinDeviceIOCtl ans .closePort

def tvinSourceInputToSourceInputType (sourceInput : SourceInput) : SourceInputType :=
  if sourceInput = sourceTv then .tv
  else if sourceInput = sourceAv1 ∨ sourceInput = sourceAv2 then .av
  else if sourceInput = sourceYpbpr1 ∨ sourceInput = sourceYpbpr2 then .component
  else if sourceInput = sourceVga then .vga
  else if sourceInput = sourceHdmi1 ∨ sourceInput = sourceHdmi2 ∨ sourceInput = sourceHdmi3 ∨
    sourceInput = sourceHdmi4 then .hdmi
  else if sourceInput = sourceDtv then .dtv
  else if sourceInput = sourceIptv then .iptv
  else if sourceInput = sourceSpdif then .spdif
  else .mpeg

/-- The port of a source; there is none outside the range of the map. -/
def tvinGetSourcePortBySourceInput (sourceInput : SourceInput) : TvinPort :=
  if h : sourceTv ≤ sourceInput ∧ sourceInput.toInt.toNat < 16 then
    tv.mSourceInputToPortMap[sourceInput.toInt.toNat]
  else tvinPortNull

/-- The port id of a source, `TVIN_PORT_ID_MAX` unless it is an HDMI source on an HDMI port. -/
def tvinGetHdmiPortIdBySourceInput (sourceInput : SourceInput) : TvinPortId :=
  if sourceHdmi4 < sourceInput ∨ sourceInput < sourceHdmi1 then tvinPortIdMax
  else
    let portValue := tv.tvinGetSourcePortBySourceInput sourceInput
    if portValue = tvinPortHdmi0 then tvinPortId1
    else if portValue = tvinPortHdmi1 then tvinPortId2
    else if portValue = tvinPortHdmi2 then tvinPortId3
    else if portValue = tvinPortHdmi3 then tvinPortId4
    else tvinPortIdMax

/-- Start the decoder with a signal info, unless it was started already. -/
def tvinStartDecoder (info : TvinInfo) : Int32 × CTv :=
  if tv.mDecoderStarted then (0, tv)
  else
    -- the parameters are overwritten also where the ioctl fails
    let tv := tv.setTvinParamInfo info
    let dec := tv.vdinDeviceIOCtl ans (.startDec tv.mTvinParamInfo)
    if 0 ≤ dec.1 then (0, dec.2.setDecoderStarted true)
    else (-1, dec.2.setDecoderStarted false)

/-- Stop the decoder if it was started; it counts as stopped also where the ioctl fails. -/
def tvinStopDecoder : Int32 × CTv :=
  if !tv.mDecoderStarted then (0, tv)
  else
    let dec := tv.vdinDeviceIOCtl ans .stopDec
    if 0 ≤ dec.1 then (0, dec.2.setDecoderStarted false)
    else (-1, dec.2.setDecoderStarted false)

/-- Switch both snow generators; the result is that of the vdin device. -/
def tvinSwitchSnow (enable : Bool) : Int32 × CTv :=
  if enable then (tv.afeDeviceIOCtl ans .snowOn).2.vdinDeviceIOCtl ans .snowOn
  else (tv.afeDeviceIOCtl ans .snowOff).2.vdinDeviceIOCtl ans .snowOff

def tvinGetSignalEventInfo : Int32 × CTv := tv.vdinDeviceIOCtl ans .getEventInfo

def tvinGetSignalInfo : Int32 × CTv := tv.vdinDeviceIOCtl ans .getSigInfo

/-- The result of the ioctl, and the buffer it was given. -/
def tvinGetFrontendInfo (frontendInfo : TvinFrontendInfo) :
    (Int32 × TvinFrontendInfo) × CTv :=
  let info := tv.vdinDeviceIOCtl ans .getFrontendInfo
  -- the buffer is filled by the ioctl, whatever it returns
  if info.2.mVdin0DevFd then ((info.1, ans.frontendInfo frontendInfo), info.2)
  else ((info.1, frontendInfo), info.2)

/-- The color range, whatever the ioctl returns. -/
def tvinGetColorRangeMode : Int32 × CTv :=
  let range := tv.vdinDeviceIOCtl ans .getColorRange
  if range.2.mVdin0DevFd then (ans.colorRange tvinColorRangeAuto, range.2)
  else (tvinColorRangeAuto, range.2)

/-! ## Sysfs and the video planes -/

def tvWriteSysfs (node : SysNode) (value : List Char) : Int32 × CTv :=
  (ans.writeSysfs node, tv.perform (.writeSysfs node value (ans.writeSysfs node)))

/-- Paint the test screen with a color. -/
def setVideoColorYuv (vdinBlendingMask y u v : UInt32) : Int32 × CTv :=
  let value := vdinBlendingMask <<< 24 ||| y <<< 16 ||| u <<< 8 ||| v
  tv.tvWriteSysfs ans .testScreen ('0' :: 'x' :: CText.hexText value)

def videoLayerColorBlack : Int32 := 0

def videoLayerColorBlue : Int32 := 1

/-- Paint the test screen: black or blue with the video disabled before, or black with the video
disabled behind. -/
def setVideoColor (color : Int32) : Int32 × CTv :=
  if color = videoLayerColorBlack then
    (tv.tvWriteSysfs ans .disableVideo ['1']).2.setVideoColorYuv ans 0 16 128 128
  else if color = videoLayerColorBlue then
    (tv.tvWriteSysfs ans .disableVideo ['1']).2.setVideoColorYuv ans 0 41 240 110
  else
    let screen := tv.setVideoColorYuv ans 0 16 128 128
    (screen.1, (screen.2.tvWriteSysfs ans .disableVideo ['2']).2)

def vppSetVideoColor (needColor : Bool) : Int32 × CTv :=
  if needColor then tv.setVideoColor ans 1 else tv.setVideoColor ans 3

def setVideoScreenMode (value : Int32) : CTv :=
  (tv.tvWriteSysfs ans .screenMode (CText.decText value)).2

/-- The screen mode the node shows. -/
def getVideoScreenMode : Int32 := CText.atoi ans.screenMode

/-! ## The video layer -/

def videoLayerStatusEnable : Int32 := 0

def videoLayerStatusDisable : Int32 := 1

def videoGlobalOutputModeDisable : Int32 := 0

def videoGlobalOutputModeEnable : Int32 := 1

def amVideoDeviceIOCtl (request : AmVideoRequest) : Int32 × CTv :=
  (ans.amVideo request, tv.perform (.amVideo request (ans.amVideo request)))

def setVideoLayerStatus (status : Int32) : Int32 × CTv :=
  tv.amVideoDeviceIOCtl ans (.setVideoDisableMode status)

def setVideoGlobalOutputMode (mode : Int32) : Int32 × CTv :=
  tv.amVideoDeviceIOCtl ans (.setVideoOutput mode)

/-! ## The HDMI receiver -/

/-- The ioctl `HDMI_IOC_EDID_UPDATE`. -/
def hdmiRxEdidUpdate : Int32 × CTv := (ans.edidUpdate, tv.perform (.edidUpdate ans.edidUpdate))

/-- The size of an EDID. -/
def realEdidDataSize : ℕ := 256

/-- Load the EDID data of all ports, which are six binaries; a failing write is not reported. -/
def hdmiRxEdidDataSwitch (data : List UInt8) : Int32 × CTv :=
  let loadCount := 6 * realEdidDataSize
  if ans.edidOpen then (0, tv.perform (.writeEdid (data.take loadCount) ans.edidWrite))
  else (-1, tv)

/-- Write the version word of all ports. -/
def hdmiRxEdidVerSwitch (verValue : UInt32) : Int32 × CTv :=
  if ans.edidSelectOpen then
    (if ans.edidSelectWrite < 0 then -1 else 0,
      tv.perform (.writeEdidSelect (CText.hexText verValue) ans.edidSelectWrite))
  else (-1, tv)

/-! ## Audio patches -/

/-- The audio singleton, constructed at its first use. -/
def audioInstance : CTvAudio := tv.mAudio.getD ans.audioLoad

def createAudioPatch (deviceType : AudioDeviceIn) : CTv :=
  -- the singleton is constructed even if nothing is done
  let audio := tv.audioInstance ans
  if audio.iSInit then
    (tv.perform (.createAudioPatch deviceType ans.createAudioPatch.1)).setAudio
      { audio with patchHandle := ans.createAudioPatch.2 }
  else tv.setAudio audio

def releaseAudioPatch : CTv :=
  let audio := tv.audioInstance ans
  if audio.patchHandle ≠ 0 ∧ audio.iSInit then
    (tv.perform (.releaseAudioPatch audio.patchHandle ans.releaseAudioPatch)).setAudio audio
  else tv.setAudio audio

/-! ## The detection of plugs -/

def avinStatusIn : UInt32 := 0

def avinChannel1 : UInt32 := 0

def avinChannel2 : UInt32 := 1

def sourcePlugOut : Int32 := 0

def sourcePlugIn : Int32 := 1

/-- The bit of an HDMI source in the status word, that of the first port for other ports. -/
def sourceInputMaptoChipHdmiPort (sourceInput : SourceInput) : Int32 :=
  let sourcePort := tv.tvinGetSourcePortBySourceInput sourceInput
  if sourcePort = tvinPortHdmi0 then 0x01
  else if sourcePort = tvinPortHdmi1 then 0x02
  else if sourcePort = tvinPortHdmi2 then 0x04
  else if sourcePort = tvinPortHdmi3 then 0x08
  else 0x01

/-- The names of the sources, for the log. -/
def inputName : List String :=
  ["TV", "AV1", "AV2", "YPBPR1", "YPBPR2", "HDMI1", "HDMI2", "HDMI3", "HDMI4", "VGA,", "MPEG",
    "DTV", "SVIDEO", "IPTV", "DUMMY", "SPDIF", "ADTV", "MAX"]

/-- The name of a source. There is none where the table would be read outside its bounds. -/
def inputToName (srcInput : SourceInput) : Option String :=
  if srcInput = sourceInvalid then some "INVALID"
  else if srcInput < 0 then none
  else inputName[srcInput.toInt.toNat]?

/-- The loop over the reports of the AV detection: the source of a report with another channel
is that of the report before. -/
def avinPlugStatus (sourceInput : SourceInput) : SourceInput → List AvinReport → Int32
  | _, [] => -1
  | source, report :: reports =>
    let source :=
      if report.channel = avinChannel1 then sourceAv1
      else if report.channel = avinChannel2 then sourceAv2
      else source
    if source = sourceInput then
      if report.status = avinStatusIn then sourcePlugIn else sourcePlugOut
    else avinPlugStatus sourceInput source reports

/-- Whether a source is plugged in. There is no result where the name of the source is read
outside the table. -/
def getSourceConnectStatus (sourceInput : SourceInput) : Option Int32 := do
  let _name ← inputToName sourceInput
  if sourceInput = sourceAv2 ∨ sourceInput = sourceAv1 then
    some (avinPlugStatus sourceInput (-1) [ans.avinReports.1, ans.avinReports.2])
  else if sourceInput = sourceHdmi1 ∨ sourceInput = sourceHdmi2 ∨ sourceInput = sourceHdmi3 ∨
    sourceInput = sourceHdmi4 then
    let hdmiDetectStatusBit := tv.sourceInputMaptoChipHdmiPort sourceInput
    some (if ans.hdmiStatus &&& hdmiDetectStatusBit = hdmiDetectStatusBit then sourcePlugIn
      else sourcePlugOut)
  else some (-1)

end CTv
