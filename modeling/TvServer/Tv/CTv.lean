import TvServer.Foundations.Buffer
import TvServer.Tv.Devices

/-!
# The television object

The commands of the television object and its handlers of driver events. A command is handled in
one step, with the answers the kernel gives to its requests.

## Main definitions

* `startTv`, `stopTv`, `switchSource`: the commands for the current source
* `setEdidVersion`, `getEdidVersion`, `loadEdidData`: the commands for the EDID of the HDMI ports
* `onVdinSignalChange`, `onSigStatusChange`: the handlers of the vdin events
* `construct`: the constructor
* `Command`, `step`: the commands and events as steps
-/

namespace CTv

variable (ans : Answers) (tv : CTv)

/-! ## Configuration -/

def cfgSectionTv : List Char := "TV".toList

def cfgSectionHdmi : List Char := "HDMI".toList

def cfgSectionSrcInput : List Char := "SourceInputMap".toList

def cfgSectionSetting : List Char := "SETTING".toList

/-- `ConfigGetStr`, with a default that is not null. -/
def configGetStr (sectionName key default : List Char) : List Char :=
  (tv.pIniFile.getString sectionName key (some default)).getD default

def configGetInt (sectionName key : List Char) (default : Int32) : Int32 :=
  match tv.pIniFile.getString sectionName key none with
  | some num => CText.atoi num
  | none => default

/-! ## Events and the signal info -/

/-- Hand an event to the observer, if one is set. -/
def sendTvEvent (event : CTvEvent) : CTv :=
  if tv.mpObserver then tv.perform (.tvEvent event) else tv

def setCurrenSourceInfo (sigInfo : TvinInfo) : CTv := { tv with mCurrentSignalInfo := sigInfo }

def getCurrentSourceInfo : TvinInfo := tv.mCurrentSignalInfo

/-- The signal info of a television object without a signal. -/
def noSignalInfo : TvinInfo :=
  { transFmt := tvinTfmt2d, fmt := tvinSigFmtNull, status := tvinSigStatusNull,
    cfmt := tvinColorFmtMax, fps := 60, isDvi := 0, hdrInfo := 0, aspectRatio := tvinAspectNull }

/-- The event that reports the signal at the current source. -/
def signalDetectEvent : CTvEvent :=
  .signalDetect
    { mSourceInput := tv.mCurrentSource
      mFmt := tv.mCurrentSignalInfo.fmt.toInt32
      mTransFmt := tv.mCurrentSignalInfo.transFmt.toInt32
      mStatus := tv.mCurrentSignalInfo.status.toInt32
      mDviFlag := tv.mCurrentSignalInfo.isDvi.toInt32 }

/-! ## The current source -/

def mapSourcetoAudiotupe (destSource : SourceInput) : AudioDeviceIn :=
  if destSource = sourceTv ∨ destSource = sourceDtv then .tvTuner
  else if destSource = sourceAv1 ∨ destSource = sourceAv2 then .line
  else if destSource = sourceHdmi1 ∨ destSource = sourceHdmi2 ∨ destSource = sourceHdmi3 ∨
    destSource = sourceHdmi4 then .hdmi
  else if destSource = sourceSpdif then .spdif
  else .line

def startTv (source : SourceInput) : Int32 × CTv :=
  let tv := if source = sourceDtv then (tv.vppSetVideoColor ans true).2 else tv
  -- only DTV needs the synchronization of frames with the audio
  let tv :=
    if source ≠ sourceDtv then
      ((tv.tvWriteSysfs ans .tsyncEnable ['0']).2.tvWriteSysfs ans .tsyncMode ['0']).2
    else (tv.tvWriteSysfs ans .freerunMode ['0']).2
  let sourcePort := tv.tvinGetSourcePortBySourceInput source
  let port := tv.tvinOpenPort ans sourcePort
  let tv := port.2.setCurrentSource source
  if source = sourceMpeg then (port.1, tv)
  else (port.1, tv.createAudioPatch ans (mapSourcetoAudiotupe source))

def stopTv (source : SourceInput) : Int32 × CTv :=
  let tv := tv.releaseAudioPatch ans
  let tv := (tv.setVideoLayerStatus ans videoLayerStatusDisable).2
  let tv := (tv.setVideoGlobalOutputMode ans videoGlobalOutputModeDisable).2
  let tv := (tv.tvinStopDecoder ans).2
  let sourcePort := tv.tvinGetSourcePortBySourceInput source
  let tv := (tv.tvinClosePort ans sourcePort).2
  let tv := (tv.assignVdinWorkMode vdinWorkModeVfm).setCurrentSource sourceInvalid
  (0, tv.setCurrenSourceInfo noSignalInfo)

def switchSource (destSource : SourceInput) : Int32 × CTv :=
  if destSource ≠ tv.mCurrentSource then
    (0, ((tv.stopTv ans tv.mCurrentSource).2.startTv ans destSource).2)
  else (0, tv)

/-! ## EDID -/

/-- The HDMI sources, over which the loops that collect their versions run. -/
def hdmiSources : List SourceInput := [sourceHdmi1, sourceHdmi2, sourceHdmi3, sourceHdmi4]

/-- The version stored for an HDMI source; version 1.4 for other sources. -/
def getEdidVersion (source : SourceInput) : UInt32 :=
  if source = sourceHdmi1 then tv.hdmi1CurrentEdidVer
  else if source = sourceHdmi2 then tv.hdmi2CurrentEdidVer
  else if source = sourceHdmi3 then tv.hdmi3CurrentEdidVer
  else if source = sourceHdmi4 then tv.hdmi4CurrentEdidVer
  else hdmiEdidVer14

/-- One round of the loop that collects the versions: the version of a source is shifted to the
digit of its port. -/
def collectEdidVersion (version : SourceInput → UInt32) (edidSetValue : UInt32)
    (source : SourceInput) : UInt32 :=
  let portId := tv.tvinGetHdmiPortIdBySourceInput source
  edidSetValue ||| version source <<< (4 * portId - 4)

/-- The version word of all ports. -/
def edidSetValue (version : SourceInput → UInt32) : UInt32 :=
  hdmiSources.foldl (tv.collectEdidVersion version) 0

/-- Store the version of an HDMI source. -/
def storeEdidVersion (source : SourceInput) (edidVer : UInt32) : CTv :=
  if source = sourceHdmi1 then { tv with hdmi1CurrentEdidVer := edidVer }
  else if source = sourceHdmi2 then { tv with hdmi2CurrentEdidVer := edidVer }
  else if source = sourceHdmi3 then { tv with hdmi3CurrentEdidVer := edidVer }
  else if source = sourceHdmi4 then { tv with hdmi4CurrentEdidVer := edidVer }
  else tv

def setEdidVersion (source : SourceInput) (edidVer : UInt32) : Int32 × CTv :=
  if tv.getEdidVersion source ≠ edidVer then
    -- the decoder is stopped even if the write fails below
    let tv := (tv.tvinStopDecoder ans).2
    let value :=
      tv.edidSetValue fun s => if s = source then edidVer else tv.getEdidVersion s
    let switch := tv.hdmiRxEdidVerSwitch ans value
    -- the update is requested whether or not the write succeeded
    let tv := if tv.mCurrentSource = source then (switch.2.hdmiRxEdidUpdate ans).2 else switch.2
    if switch.1 < 0 then (-1, tv) else (switch.1, tv.storeEdidVersion source edidVer)
  else (0, tv)

/-- The name of an EDID file: two for each port, with the data of either version. -/
def edidFileName (edidFilePath suffix : List Char) (loadNum : ℕ) : List Char :=
  -- odd numbers are the files for version 1.4, even ones those for 2.0
  if loadNum % 2 ≠ 0 then
    edidFilePath ++ "/port".toList ++ Nat.toDigits 10 (loadNum / 2 + 1) ++ "_14".toList ++ suffix
  else edidFilePath ++ "/port".toList ++ Nat.toDigits 10 (loadNum / 2) ++ "_20".toList ++ suffix

/-- Read from a file into a buffer: what is available, up to a size. -/
def readDataFromFile {n : ℕ} (fileName : List Char) (offset nsize : ℕ) (dataBuf : Vector UInt8 n) :
    Int32 × Vector UInt8 n :=
  match ans.readFile fileName with
  | none => (-1, dataBuf)
  | some content =>
    let bytes := (content.drop offset).take nsize
    (Int32.ofNat bytes.length, Buffer.memcpy dataBuf 0 bytes)

/-- The buffers of `loadEdidData`. -/
structure EdidBuffers where
  edidLoadBuf : Vector UInt8 (6 * realEdidDataSize)
  edidReadBuf : Vector UInt8 realEdidDataSize
  edidFileName : Vector Char 100

/-- One round of the loop of `loadEdidData`. -/
def loadEdidFile (edidFilePath suffix : List Char) (bufs : EdidBuffers) (loadNum : ℕ) :
    EdidBuffers :=
  let fileName := Buffer.sprintf bufs.edidFileName (edidFileName edidFilePath suffix loadNum)
  let readBuf := Buffer.memset bufs.edidReadBuf 0
  let readBuf :=
    (readDataFromFile ans (Lines.cstr fileName.toList) 0 realEdidDataSize readBuf).2
  let loadBuf :=
    Buffer.memcpy bufs.edidLoadBuf ((loadNum - 1) * realEdidDataSize) readBuf.toList
  ⟨loadBuf, readBuf, fileName⟩

/-- The contents of the six EDID files, one after the other: the buffer that the loop fills. -/
def edidLoadBuf (edidFilePath suffix : List Char) : List UInt8 :=
  ((List.range' 1 6).foldl (loadEdidFile ans edidFilePath suffix)
    ⟨Vector.replicate _ 0, Vector.replicate _ 0, Vector.replicate _ '\x00'⟩).edidLoadBuf.toList

def configEdidFilePathDef : List Char := "/etc/tvconfig/hdmi".toList

def dolbyVisionTvKoPath : List Char := "/vendor/lib/modules/dovi_tv.ko".toList

def dolbyVisionStbKoPath : List Char := "/vendor/lib/modules/dovi.ko".toList

def loadEdidData (isNeedBlackScreen isDolbyVisionEnable : Int32) : Int32 × CTv :=
  let tv := if isNeedBlackScreen = 1 then (tv.tvinStopDecoder ans).2 else tv
  let edidFilePath :=
    tv.configGetStr cfgSectionHdmi "edid.file.path".toList configEdidFilePathDef
  let dolbyModulePath :=
    tv.configGetStr cfgSectionSetting "module.dolby.path".toList dolbyVisionTvKoPath
  let isDolbyVisionKoExist := ans.fileExists dolbyModulePath || ans.fileExists dolbyVisionStbKoPath
  let suffix := if isDolbyVisionKoExist ∧ isDolbyVisionEnable = 1 then "_dv.bin" else ".bin"
  let data := tv.hdmiRxEdidDataSwitch ans (edidLoadBuf ans edidFilePath suffix.toList)
  -- the versions are written only once the data is
  if data.1 = 0 then
    data.2.hdmiRxEdidVerSwitch ans (data.2.edidSetValue data.2.getEdidVersion)
  else data

/-! ## Queries -/

def setVdinWorkMode (vdinWorkMode : UInt32) : Int32 × CTv :=
  (0, tv.assignVdinWorkMode vdinWorkMode)

def getFrontendInfo (frontendInfo : TvinFrontendInfo) : (Int32 × TvinFrontendInfo) × CTv :=
  tv.tvinGetFrontendInfo ans frontendInfo

def getColorRangeMode : Int32 × CTv := tv.tvinGetColorRangeMode ans

/-! ## Signal handlers -/

def onSigToStable : CTv :=
  let tv := tv.perform (.log .onSigToStable)
  let tv := (tv.tvinStartDecoder ans tv.mCurrentSignalInfo).2
  let tv := (tv.setVideoLayerStatus ans videoLayerStatusEnable).2
  let tv := (tv.setVideoGlobalOutputMode ans videoGlobalOutputModeEnable).2
  tv.sendTvEvent tv.signalDetectEvent

def onSigToUnstable : CTv := (tv.tvinStopDecoder ans).2.perform (.log .onSigToUnstable)

def onSigToUnSupport : CTv :=
  let tv := tv.perform (.log .onSigToUnSupport)
  let tv := (tv.tvinStopDecoder ans).2
  tv.sendTvEvent tv.signalDetectEvent

def needSnowEffect : Bool := tv.mCurrentSource = sourceTv && tv.mATVDisplaySnow

/-- Switch the snow, which is shown in full screen; the screen mode is saved before. -/
def setSnowShowEnable (enable : Bool) : Int32 × CTv :=
  let tv :=
    if enable then
      (tv.setLastScreenMode (getVideoScreenMode ans)).setVideoScreenMode ans 1
    else tv.setVideoScreenMode ans tv.mLastScreenMode
  tv.tvinSwitchSnow ans enable

def onSigToNoSig : CTv :=
  let tv := tv.perform (.log .onSigToNoSig)
  let tv :=
    if tv.needSnowEffect then
      -- the snow is shown by the decoder, which is started with a missing signal
      let tv := (tv.setSnowShowEnable ans true).2
      let tv := (tv.tvinStartDecoder ans tv.mCurrentSignalInfo).2
      let tv := (tv.setVideoLayerStatus ans videoLayerStatusEnable).2
      (tv.vppSetVideoColor ans false).2
    else
      let tv := (tv.vppSetVideoColor ans false).2
      (tv.tvinStopDecoder ans).2
  tv.sendTvEvent tv.signalDetectEvent

/-- Handle a report with its status, the signal info being recorded already. -/
def onSigTo (status : UInt32) : CTv :=
  if status = tvinSigStatusStable then tv.onSigToStable ans
  else if status = tvinSigStatusUnstable then tv.onSigToUnstable ans
  else if status = tvinSigStatusNotsup then tv.onSigToUnSupport ans
  else if status = tvinSigStatusNosig then tv.onSigToNoSig ans
  else tv.perform (.log .invalidSignalStatus)

def onSigStatusChange : CTv :=
  let info := tv.tvinGetSignalInfo ans
  if info.1 < 0 then info.2
  else
    let tv := info.2.setCurrenSourceInfo ans.sigInfo
    tv.onSigTo ans tv.mCurrentSignalInfo.status

/-! ## Vdin events -/

/-- The arm of the changes between dynamic ranges. -/
def onHdrInfoChange : CTv :=
  let tv := tv.perform (.log .hdrInfoChange)
  let info := tv.tvinGetSignalInfo ans
  if info.1 < 0 then info.2
  else if tv.mCurrentSignalInfo.status = tvinSigStatusStable ∧
      tv.mCurrentSignalInfo.hdrInfo ≠ ans.sigInfo.hdrInfo then
    info.2.setCurrenSourceInfo { tv.mCurrentSignalInfo with hdrInfo := ans.sigInfo.hdrInfo }
  else info.2

/-- The arm of the changes of the aspect ratio, which only HDMI sources report. -/
def onAfdInfoChange (sourceType : SourceInputType) : CTv :=
  let tv := tv.perform (.log .afdInfoChange)
  if sourceType = .hdmi then
    let info := tv.tvinGetSignalInfo ans
    if info.1 < 0 then info.2
    else if ans.sigInfo.status = tvinSigStatusStable ∧
        tv.mCurrentSignalInfo.aspectRatio ≠ ans.sigInfo.aspectRatio then
      info.2.setCurrenSourceInfo
        { tv.mCurrentSignalInfo with aspectRatio := ans.sigInfo.aspectRatio }
    else info.2
  else tv

/-- The switch over the event word, each case of which is one flag. -/
def onVdinEvent (vdinEventType : UInt32) : CTv :=
  let sourceType := tvinSourceInputToSourceInputType tv.mCurrentSource
  if vdinEventType = tvinSigChgSdr2hdr ∨ vdinEventType = tvinSigChgHdr2sdr ∨
      vdinEventType = tvinSigChgDv2no ∨ vdinEventType = tvinSigChgNo2dv then
    tv.onHdrInfoChange ans
  else if vdinEventType = tvinSigChgColorFmt then tv.perform (.log .colorFmtChange)
  else if vdinEventType = tvinSigChgRange then tv.perform (.log .colorRangeChange)
  else if vdinEventType = tvinSigChgBit then tv.perform (.log .colorBitChange)
  else if vdinEventType = tvinSigChgVsFrq then tv.perform (.log .vsFrqChange)
  else if vdinEventType = tvinSigChgSts then
    (tv.perform (.log .vdinSignalStatusChange)).onSigStatusChange ans
  else if vdinEventType = tvinSigChgAfd then tv.onAfdInfoChange ans sourceType
  else if vdinEventType = tvinSigChgDvAllm then tv.perform (.log .allmInfoChange)
  else tv.perform (.log .invalidVdinEvent)

def onVdinSignalChange : CTv :=
  let event := tv.tvinGetSignalEventInfo ans
  if event.1 < 0 then event.2 else event.2.onVdinEvent ans ans.eventInfo

def onSourceConnect (source connectStatus : Int32) : CTv :=
  tv.sendTvEvent (.sourceConnect { mSourceInput := source, connectionState := connectStatus })

/-! ## Construction -/

/-- The names of ports in the configuration. -/
def portNames : List (String × TvinPort) :=
  [("TVIN_PORT_CVBS0", tvinPortCvbs0), ("TVIN_PORT_CVBS1", tvinPortCvbs1),
    ("TVIN_PORT_CVBS2", tvinPortCvbs2), ("TVIN_PORT_CVBS3", tvinPortCvbs3),
    ("TVIN_PORT_COMP0", tvinPortComp0), ("TVIN_PORT_COMP1", tvinPortComp1),
    ("TVIN_PORT_VGA0", tvinPortVga0), ("TVIN_PORT_HDMI0", tvinPortHdmi0),
    ("TVIN_PORT_HDMI1", tvinPortHdmi1), ("TVIN_PORT_HDMI2", tvinPortHdmi2),
    ("TVIN_PORT_HDMI3", tvinPortHdmi3)]

/-- The port with a name, in capital or small letters. -/
def tvinTransPortStringToValue (portStr : List Char) : TvinPort :=
  match portNames.find? fun p => portStr.map Char.toLower = p.1.toList.map Char.toLower with
  | some p => p.2
  | none => tvinPortNull

/-- The port the configuration gives for a channel. -/
def configPort (key default : String) : TvinPort :=
  tvinTransPortStringToValue (tv.configGetStr cfgSectionSrcInput key.toList default.toList)

/-- Load the ports of the sources; the entries of other sources stay as they are. -/
def tvinLoadSourceInputToPortMap : CTv :=
  { tv with
    mSourceInputToPortMap := #v[
      tv.configPort "ro.tv.tvinchannel.atv" "TVIN_PORT_CVBS3",
      tv.configPort "ro.tv.tvinchannel.av1" "TVIN_PORT_CVBS1",
      tv.configPort "ro.tv.tvinchannel.av2" "TVIN_PORT_CVBS2",
      tv.configPort "ro.tv.tvinchannel.ypbpr1" "TVIN_PORT_COMP0",
      tv.configPort "ro.tv.tvinchannel.ypbpr2" "TVIN_PORT_COMP1",
      tv.configPort "ro.tv.tvinchannel.hdmi1" "TVIN_PORT_HDMI0",
      tv.configPort "ro.tv.tvinchannel.hdmi2" "TVIN_PORT_HDMI2",
      tv.configPort "ro.tv.tvinchannel.hdmi3" "TVIN_PORT_HDMI1",
      tv.configPort "ro.tv.tvinchannel.hdmi4" "TVIN_PORT_HDMI3",
      tv.configPort "ro.tv.tvinchannel.vga" "TVIN_PORT_VGA0",
      tvinPortMpeg0, tvinPortDtv, tv.mSourceInputToPortMap[12], tvinPortBt656,
      tv.mSourceInputToPortMap[14], tvinPortCvbs3] }

def amlvideo2DevPath : List Char := "/dev/video11".toList

/-- Add the path of the vdin device to the video planes. -/
def tvinAddVideoPath : Int32 × CTv :=
  let vdinPath :=
    if ans.fileExists amlvideo2DevPath then "add tvpath vdin0 amlvideo2.0 "
    else "add tvpath vdin0 "
  tv.tvWriteSysfs ans .vfmMap (vdinPath.toList ++ "deinterlace amvideo".toList)

/-- What the constructor finds: the files, the environment variable with the path of the
configuration, whether the devices open, and what the memory of the current source holds. -/
structure Boot where
  files : Files
  tvConfigFilePath : Option (List Char)
  vdinOpen : Bool
  afeOpen : Bool
  mCurrentSource : SourceInput

def configFilePathDef : List Char := "/etc/tvconfig/tvconfig.conf".toList

/-- The television object before its constructor reads the configuration. -/
def allocate (boot : Boot) : CTv where
  mVdin0DevFd := boot.vdinOpen
  mAfeDevFd := boot.afeOpen
  mDecoderStarted := false
  -- `memset` with `SOURCE_INVALID` sets all bytes to ones
  mSourceInputToPortMap := Vector.replicate 16 (-1)
  mTvinParamInfo := ⟨0, 0, 0, 0, 0, 0, 0, 0⟩
  mAudio := none
  hdmi1CurrentEdidVer := hdmiEdidVer14
  hdmi2CurrentEdidVer := hdmiEdidVer14
  hdmi3CurrentEdidVer := hdmiEdidVer14
  hdmi4CurrentEdidVer := hdmiEdidVer14
  pIniFile :=
    (CIniFile.new.loadFromFile boot.files
      (some (boot.tvConfigFilePath.getD configFilePathDef))).2
  mLastScreenMode := -1
  mCurrentSignalInfo := noSignalInfo
  mCurrentSource := boot.mCurrentSource
  mVdinWorkMode := vdinWorkModeVfm
  mATVDisplaySnow := false
  mpObserver := false
  trace := []

/-- Whether the configuration asks for snow at a television channel without a signal. -/
def loadATVDisplaySnow : CTv :=
  let value := tv.configGetStr cfgSectionTv "tvin.atv.display.snow".toList "null".toList
  { tv with mATVDisplaySnow := value = "enable".toList }

/-- The constructor. -/
def construct (boot : Boot) : CTv :=
  let tv := (allocate boot).loadATVDisplaySnow
  let tv := (tv.tvinAddVideoPath ans).2
  let tv := tv.tvinLoadSourceInputToPortMap
  let tv := tv.setCurrenSourceInfo noSignalInfo
  let edidAutoLoadEnable := tv.configGetInt cfgSectionHdmi "edid.data.auto.load.en".toList 1
  if edidAutoLoadEnable = 1 then
    (tv.loadEdidData ans 0 (if ans.dolbyVisionEnable = ['Y'] then 1 else 0)).2
  else tv

def setTvObserver : CTv := { tv with mpObserver := true }

/-! ## Steps -/

/-- A command to the television object, or an event that is delivered to it. -/
inductive Command where
  | startTv (source : SourceInput)
  | stopTv (source : SourceInput)
  | switchSource (destSource : SourceInput)
  | setEdidVersion (source : SourceInput) (edidVer : UInt32)
  | loadEdidData (isNeedBlackScreen isDolbyVisionEnable : Int32)
  | setVdinWorkMode (vdinWorkMode : UInt32)
  | getFrontendInfo (frontendInfo : TvinFrontendInfo)
  | getColorRangeMode
  | sourceConnect (source connectStatus : Int32)
  | vdinSignalChange

/-- One command, with the answers the kernel gives to its requests. -/
def step (tv : CTv) : Command × Answers → CTv
  | (.startTv source, ans) => (tv.startTv ans source).2
  | (.stopTv source, ans) => (tv.stopTv ans source).2
  | (.switchSource destSource, ans) => (tv.switchSource ans destSource).2
  | (.setEdidVersion source edidVer, ans) => (tv.setEdidVersion ans source edidVer).2
  | (.loadEdidData isNeedBlackScreen isDolbyVisionEnable, ans) =>
    (tv.loadEdidData ans isNeedBlackScreen isDolbyVisionEnable).2
  | (.setVdinWorkMode vdinWorkMode, _) => (tv.setVdinWorkMode vdinWorkMode).2
  | (.getFrontendInfo frontendInfo, ans) => (tv.getFrontendInfo ans frontendInfo).2
  | (.getColorRangeMode, ans) => (tv.getColorRangeMode ans).2
  | (.sourceConnect source connectStatus, _) => tv.onSourceConnect source connectStatus
  | (.vdinSignalChange, ans) => tv.onVdinSignalChange ans

end CTv
