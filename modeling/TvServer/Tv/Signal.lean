import TvServer.Foundations.Journal
import TvServer.Tv.Footprint

/-!
# The path of the signal

Of the state of the television object the decoder and the snow generators depend on few values:
the source, the recorded signal, whether the decoder runs and with which format, and what was
last done to the generators and to the screen mode. These values change by a small machine of
their own, in which a driver event is either a status report or nothing, and the television
object follows this machine step by step.

## Main definitions

* `SignalPath`, `SignalInput`, `SignalPath.step`: the machine
* `CTv.path`: the values in the state of the television object
* `CTv.report`: the status report that an event delivers
* `CTv.signalInput`: a step of the television object as an input of the machine

## Main results

* `path_step`: the television object follows the machine
* `path_construct`: the state after construction
-/

/-- The format of a signal. -/
def TvinInfo.format (info : TvinInfo) : UInt32 × UInt32 := (info.fmt, info.transFmt)

/-! ## Reading the trace -/

namespace TvAction

/-- The info block of a decoder that was started. -/
def startedDec : TvAction → Option TvinInfo
  | .vdin (.startDec info) ret => if 0 ≤ ret then some info else none
  | _ => none

/-- What a snow generator was told. -/
def snow : TvAction → Option Bool
  | .vdin .snowOn _ | .afe .snowOn _ => some true
  | .vdin .snowOff _ | .afe .snowOff _ => some false
  | _ => none

/-- The screen mode that was written. -/
def screenMode : TvAction → Option (List Char)
  | .writeSysfs .screenMode value _ => some value
  | _ => none

theorem startedDec_eq_none {action : TvAction} (h : action.part ≠ .startDec) :
    action.startedDec = none := by
  cases action with
  | vdin request ret => cases request <;> first | rfl | exact absurd rfl h
  | _ => rfl

theorem snow_eq_none {action : TvAction} (h : action.part ≠ .snow) : action.snow = none := by
  cases action with
  | vdin request ret => cases request <;> first | rfl | exact absurd rfl h
  | afe request ret => exact absurd rfl h
  | _ => rfl

theorem screenMode_eq_none {action : TvAction} (h : action.part ≠ .screenMode) :
    action.screenMode = none := by
  cases action with
  | writeSysfs node value ret => cases node <;> first | rfl | exact absurd rfl h
  | _ => rfl

end TvAction

/-! ## The machine -/

/-- The source and its signal, the decoder, the snow and the screen mode. -/
structure SignalPath where
  source : SourceInput
  status : UInt32
  format : UInt32 × UInt32
  started : Bool
  /-- The format in `mTvinParam`. -/
  paramFormat : UInt32 × UInt32
  /-- The format the decoder was last started with. -/
  decoderFormat : Option (UInt32 × UInt32)
  /-- What the snow generators were last told. -/
  snow : Option Bool
  lastScreenMode : Int32
  /-- The screen mode last written. -/
  screenMode : Option (List Char)
  displaySnow : Bool
deriving DecidableEq

/-- An input of the machine: a change of the source, a stop of the decoder, or a status report,
with the outcome of a start of the decoder and the screen mode that is read. -/
inductive SignalInput where
  | quiet
  | start (source : SourceInput)
  | stop
  | switch (destSource : SourceInput)
  | stopDecoder
  | report (info : TvinInfo) (starts : Bool) (screenMode : Int32)

namespace SignalPath

def needSnow (p : SignalPath) : Bool := p.source = sourceTv && p.displaySnow

def startDecoder (p : SignalPath) (starts : Bool) : SignalPath :=
  if p.started then p
  else
    { p with
      paramFormat := p.format
      started := starts
      decoderFormat := if starts then some p.format else p.decoderFormat }

def stopDecoder (p : SignalPath) : SignalPath := { p with started := false }

def showSnow (p : SignalPath) (screenMode : Int32) : SignalPath :=
  { p with
    lastScreenMode := screenMode
    screenMode := some (CText.decText 1)
    snow := some true }

def stop (p : SignalPath) : SignalPath :=
  { p with
    source := sourceInvalid
    status := tvinSigStatusNull
    format := CTv.noSignalInfo.format
    started := false }

/-- What a report does once its signal is recorded. -/
def reported (p : SignalPath) (status : UInt32) (starts : Bool) (screenMode : Int32) :
    SignalPath :=
  if status = tvinSigStatusStable then p.startDecoder starts
  else if status = tvinSigStatusUnstable then p.stopDecoder
  else if status = tvinSigStatusNotsup then p.stopDecoder
  else if status = tvinSigStatusNosig then
    if p.needSnow then (p.showSnow screenMode).startDecoder starts else p.stopDecoder
  else p

def record (p : SignalPath) (info : TvinInfo) : SignalPath :=
  { p with status := info.status, format := info.format }

/-- One input of the machine. -/
def step (p : SignalPath) : SignalInput → SignalPath
  | .quiet => p
  | .start source => { p with source := source }
  | .stop => p.stop
  | .switch destSource =>
    if destSource = p.source then p else { p.stop with source := destSource }
  | .stopDecoder => p.stopDecoder
  | .report info starts screenMode => (p.record info).reported info.status starts screenMode

theorem needSnow_iff {p : SignalPath} :
    p.needSnow = true ↔ p.source = sourceTv ∧ p.displaySnow = true := by
  simp [needSnow]

theorem step_report_stable (p : SignalPath) {info : TvinInfo}
    (hstable : info.status = tvinSigStatusStable) (starts : Bool) (screenMode : Int32) :
    p.step (.report info starts screenMode) = (p.record info).startDecoder starts := by
  rw [step, reported, if_pos hstable]

theorem step_report_noSig (p : SignalPath) {info : TvinInfo}
    (hnosig : info.status = tvinSigStatusNosig) (starts : Bool) (screenMode : Int32) :
    p.step (.report info starts screenMode) =
      if p.needSnow then ((p.record info).showSnow screenMode).startDecoder starts
      else (p.record info).stopDecoder := by
  rw [step, reported, hnosig]
  rfl

end SignalPath

namespace CTv

variable (ans : Answers) (tv : CTv)

/-- The values the machine works on. -/
def path : SignalPath where
  source := tv.mCurrentSource
  status := tv.mCurrentSignalInfo.status
  format := tv.mCurrentSignalInfo.format
  started := tv.mDecoderStarted
  paramFormat := tv.mTvinParamInfo.format
  decoderFormat := (Journal.lastOf TvAction.startedDec tv.trace).map TvinInfo.format
  snow := Journal.lastOf TvAction.snow tv.trace
  lastScreenMode := tv.mLastScreenMode
  screenMode := Journal.lastOf TvAction.screenMode tv.trace
  displaySnow := tv.mATVDisplaySnow

/-- The signal info that an event delivers as a status report: the event word is the flag of the
signal status, and both ioctls succeed. -/
def report : Option TvinInfo :=
  if 0 ≤ (tv.tvinGetSignalEventInfo ans).1 ∧ ans.eventInfo = tvinSigChgSts ∧
      0 ≤ ans.vdin .getSigInfo then some ans.sigInfo
  else none

/-- A step of the television object as an input of the machine. -/
def signalInput : Command × Answers → SignalInput
  | (.startTv source, _) => .start source
  | (.stopTv _, _) => .stop
  | (.switchSource destSource, _) => .switch destSource
  | (.setEdidVersion source edidVer, _) =>
    if tv.getEdidVersion source ≠ edidVer then .stopDecoder else .quiet
  | (.loadEdidData isNeedBlackScreen _, _) =>
    if isNeedBlackScreen = 1 then .stopDecoder else .quiet
  | (.vdinSignalChange, ans) =>
    match tv.report ans with
    | some info => .report info (0 ≤ ans.vdin (.startDec info)) (getVideoScreenMode ans)
    | none => .quiet
  | _ => .quiet

variable {ans tv}

/-- A granting kernel delivers a report with the flag of the signal status. -/
theorem report_granting (info : TvinInfo) :
    tv.report (.granting tvinSigChgSts info) = some info := by
  let ans := Answers.granting tvinSigChgSts info
  have hopen : (tv.mVdin0DevFd || ans.vdinOpen .getEventInfo) = true := Bool.or_true _
  have hevent : (tv.tvinGetSignalEventInfo ans).1 = 0 := by
    rw [tvinGetSignalEventInfo, vdinDeviceIOCtl_eq, if_pos hopen]
    rfl
  rw [report, hevent]
  rfl

/-! ## What leaves the path alone -/

/-- The parts that the path is read from. -/
def pathParts : List Part :=
  [.decoder, .params, .startDec, .snow, .lastScreenMode, .screenMode, .signalInfo, .source]

theorem path_dependsOn : DependsOn path pathParts := by
  intro tv u hu
  cases u with
  | perform action =>
    simp only [Update.part, pathParts, List.mem_cons, not_or] at hu
    obtain ⟨-, -, hstart, hsnow, -, hmode, -⟩ := hu
    simp [update, path, perform, Journal.lastOf_snoc, TvAction.startedDec_eq_none hstart,
      TvAction.snow_eq_none hsnow, TvAction.screenMode_eq_none hmode]
  | storeEdidVersion source edidVer =>
    exact storeEdidVersion_keeps path tv (fun _ _ _ _ => rfl) source edidVer
  -- the other fields are no values of the path, or parts of it
  | _ => first | rfl | exact absurd (of_decide_eq_true rfl) hu

/-- What touches no part of the path keeps it. -/
theorem path_of_touches {parts : List Part} {tv' : CTv} (h : Touches parts tv tv')
    (hparts : Footprint.avoids parts pathParts = true) : tv'.path = tv.path :=
  h.frame path_dependsOn hparts

@[simp] theorem path_log (line : LogLine) : (tv.perform (.log line)).path = tv.path :=
  path_of_touches (touches_log tv line) rfl

@[simp] theorem path_sendTvEvent (event : CTvEvent) : (tv.sendTvEvent event).path = tv.path :=
  path_of_touches (touches_sendTvEvent tv event) rfl

@[simp] theorem path_vppSetVideoColor (needColor : Bool) :
    (tv.vppSetVideoColor ans needColor).2.path = tv.path :=
  path_of_touches (touches_vppSetVideoColor ans tv needColor) rfl

@[simp] theorem path_setVideoLayerStatus (status : Int32) :
    (tv.setVideoLayerStatus ans status).2.path = tv.path :=
  path_of_touches (touches_setVideoLayerStatus ans tv status) rfl

@[simp] theorem path_setVideoGlobalOutputMode (mode : Int32) :
    (tv.setVideoGlobalOutputMode ans mode).2.path = tv.path :=
  path_of_touches (touches_setVideoGlobalOutputMode ans tv mode) rfl

@[simp] theorem path_createAudioPatch (deviceType : AudioDeviceIn) :
    (tv.createAudioPatch ans deviceType).path = tv.path :=
  path_of_touches (touches_createAudioPatch ans tv deviceType) rfl

@[simp] theorem path_releaseAudioPatch : (tv.releaseAudioPatch ans).path = tv.path :=
  path_of_touches (touches_releaseAudioPatch ans tv) rfl

@[simp] theorem path_hdmiRxEdidUpdate : (tv.hdmiRxEdidUpdate ans).2.path = tv.path :=
  path_of_touches (touches_hdmiRxEdidUpdate ans tv) rfl

@[simp] theorem path_hdmiRxEdidVerSwitch (verValue : UInt32) :
    (tv.hdmiRxEdidVerSwitch ans verValue).2.path = tv.path :=
  path_of_touches (touches_hdmiRxEdidVerSwitch ans tv verValue) rfl

@[simp] theorem path_hdmiRxEdidDataSwitch (data : List UInt8) :
    (tv.hdmiRxEdidDataSwitch ans data).2.path = tv.path :=
  path_of_touches (touches_hdmiRxEdidDataSwitch ans tv data) rfl

@[simp] theorem path_storeEdidVersion (source : SourceInput) (edidVer : UInt32) :
    (tv.storeEdidVersion source edidVer).path = tv.path :=
  path_of_touches (touches_storeEdidVersion tv source edidVer) rfl

theorem path_tvWriteSysfs {node : SysNode} (hnode : node ≠ .screenMode) (value : List Char) :
    (tv.tvWriteSysfs ans node value).2.path = tv.path := by
  have hpart : node.part = .sysfs := by
    cases node <;> first | rfl | exact absurd rfl hnode
  exact path_of_touches (hpart ▸ touches_tvWriteSysfs ans tv node value) rfl

theorem path_tvinGetSignalInfo : (tv.tvinGetSignalInfo ans).2.path = tv.path :=
  path_of_touches (touches_tvinGetSignalInfo ans tv) rfl

/-! ## The decoder and the snow -/

@[simp] theorem path_tvinStopDecoder : (tv.tvinStopDecoder ans).2.path = tv.path.stopDecoder := by
  have hioctl : (tv.vdinDeviceIOCtl ans .stopDec).2.path = tv.path :=
    path_of_touches (touches_vdinDeviceIOCtl ans tv .stopDec) rfl
  rw [tvinStopDecoder]
  split
  · rename_i hstarted
    -- a decoder that is stopped is left alone
    have hfalse : tv.mDecoderStarted = false := by simpa using hstarted
    simp [path, SignalPath.stopDecoder, hfalse]
  · rw [← hioctl]
    dsimp only
    split <;> rfl

/-- On an open device the decoder starts as the ioctl answers. -/
theorem path_tvinStartDecoder (hopen : tv.mVdin0DevFd = true) {info : TvinInfo}
    (hinfo : info.format = tv.path.format) : (tv.tvinStartDecoder ans info).2.path =
      tv.path.startDecoder (0 ≤ ans.vdin (.startDec info)) := by
  have hpath : tv.path.started = tv.mDecoderStarted := rfl
  have hopen' : (tv.setTvinParamInfo info).mVdin0DevFd = true := hopen
  have hformat : tv.mCurrentSignalInfo.format = info.format := hinfo.symm
  rw [tvinStartDecoder, SignalPath.startDecoder, hpath]
  split
  · rfl
  · dsimp only
    rw [vdinDeviceIOCtl_of_open hopen']
    by_cases hstarts : 0 ≤ ans.vdin (.startDec info) <;>
      simp [path, perform, setTvinParamInfo, setDecoderStarted, Journal.lastOf_snoc,
        TvAction.startedDec, TvAction.snow, TvAction.screenMode, hstarts, hformat]

theorem path_afeDeviceIOCtl (request : AfeRequest) :
    (tv.afeDeviceIOCtl ans request).2.path =
      { tv.path with snow :=
          if tv.mAfeDevFd || ans.afeOpen then some (request = .snowOn) else tv.path.snow } := by
  rw [afeDeviceIOCtl_eq]
  split
  · cases request <;>
      simp [path, perform, setAfeDevFd, Journal.lastOf_snoc, TvAction.startedDec, TvAction.snow,
        TvAction.screenMode]
  · rfl

/-- The analog frontend leaves the vdin device and the signal info alone. -/
theorem afeDeviceIOCtl_frame (request : AfeRequest) :
    (tv.afeDeviceIOCtl ans request).2.mVdin0DevFd = tv.mVdin0DevFd ∧
      (tv.afeDeviceIOCtl ans request).2.mCurrentSignalInfo = tv.mCurrentSignalInfo := by
  rw [afeDeviceIOCtl_eq]
  split <;> exact ⟨rfl, rfl⟩

/-- On an open device the snow is shown, whatever the ioctls return. -/
theorem path_setSnowShowEnable (hopen : tv.mVdin0DevFd = true) :
    (tv.setSnowShowEnable ans true).2.path = tv.path.showSnow (getVideoScreenMode ans) := by
  have hmode : ((tv.setLastScreenMode (getVideoScreenMode ans)).setVideoScreenMode ans 1).path =
      { tv.path with
        lastScreenMode := getVideoScreenMode ans
        screenMode := some (CText.decText 1) } := by
    simp [path, setVideoScreenMode, setLastScreenMode, tvWriteSysfs, perform, Journal.lastOf_snoc,
      TvAction.startedDec, TvAction.snow, TvAction.screenMode]
  have hsnow : ∀ tv : CTv, (tv.perform (.vdin .snowOn (ans.vdin .snowOn))).path =
      { tv.path with snow := some true } := by
    intro tv
    simp [path, perform, Journal.lastOf_snoc, TvAction.startedDec, TvAction.snow,
      TvAction.screenMode]
  -- the analog frontend closes its own device only
  have hafe : (((tv.setLastScreenMode (getVideoScreenMode ans)).setVideoScreenMode
      ans 1).afeDeviceIOCtl ans .snowOn).2.mVdin0DevFd = true := by
    rw [(afeDeviceIOCtl_frame _).1]
    exact hopen
  -- both generators are told to switch the snow on, the vdin device last
  simp only [setSnowShowEnable, tvinSwitchSnow, if_true]
  rw [vdinDeviceIOCtl_of_open hafe, hsnow, path_afeDeviceIOCtl, hmode]
  rfl

theorem setSnowShowEnable_frame (hopen : tv.mVdin0DevFd = true) :
    (tv.setSnowShowEnable ans true).2.mVdin0DevFd = true ∧
      (tv.setSnowShowEnable ans true).2.mCurrentSignalInfo = tv.mCurrentSignalInfo := by
  let shown := (tv.setLastScreenMode (getVideoScreenMode ans)).setVideoScreenMode ans 1
  have hafe : (shown.afeDeviceIOCtl ans .snowOn).2.mVdin0DevFd = true :=
    (afeDeviceIOCtl_frame _).1.trans hopen
  have hinfo : (shown.afeDeviceIOCtl ans .snowOn).2.mCurrentSignalInfo = tv.mCurrentSignalInfo :=
    (afeDeviceIOCtl_frame _).2
  simp only [setSnowShowEnable, tvinSwitchSnow, if_true]
  rw [vdinDeviceIOCtl_of_open hafe]
  exact ⟨hafe, hinfo⟩

/-! ## Handlers -/

theorem path_onSigToStable (hopen : tv.mVdin0DevFd = true) : (tv.onSigToStable ans).path =
    tv.path.startDecoder (0 ≤ ans.vdin (.startDec tv.mCurrentSignalInfo)) := by
  have hlog : (tv.perform (.log .onSigToStable)).mVdin0DevFd = true := hopen
  rw [onSigToStable, path_sendTvEvent, path_setVideoGlobalOutputMode, path_setVideoLayerStatus,
    path_tvinStartDecoder hlog (by rfl), path_log]
  rfl

theorem path_onSigToUnstable : (tv.onSigToUnstable ans).path = tv.path.stopDecoder := by
  rw [onSigToUnstable, path_log, path_tvinStopDecoder]

theorem path_onSigToUnSupport : (tv.onSigToUnSupport ans).path = tv.path.stopDecoder := by
  rw [onSigToUnSupport, path_sendTvEvent, path_tvinStopDecoder, path_log]

theorem path_onSigToNoSig (hopen : tv.mVdin0DevFd = true) : (tv.onSigToNoSig ans).path =
    if tv.path.needSnow then
      (tv.path.showSnow (getVideoScreenMode ans)).startDecoder
        (0 ≤ ans.vdin (.startDec tv.mCurrentSignalInfo))
    else tv.path.stopDecoder := by
  have hlog : (tv.perform (.log .onSigToNoSig)).mVdin0DevFd = true := hopen
  have hneed : (tv.perform (.log .onSigToNoSig)).needSnowEffect = tv.path.needSnow := rfl
  rw [onSigToNoSig, path_sendTvEvent, hneed]
  split
  · -- the snow is switched on before the decoder is started
    obtain ⟨hfd, hinfo⟩ := setSnowShowEnable_frame hlog
    rw [path_vppSetVideoColor, path_setVideoLayerStatus, path_tvinStartDecoder hfd (by rfl),
      path_setSnowShowEnable hlog, path_log, hinfo]
    rfl
  · rw [path_tvinStopDecoder, path_vppSetVideoColor, path_log]

theorem path_onSigTo (hopen : tv.mVdin0DevFd = true) (status : UInt32) :
    (tv.onSigTo ans status).path = tv.path.reported status
      (0 ≤ ans.vdin (.startDec tv.mCurrentSignalInfo)) (getVideoScreenMode ans) := by
  unfold onSigTo SignalPath.reported
  split_ifs with hstable hunstable hnotsup hnosig hneed
  · exact path_onSigToStable hopen
  · exact path_onSigToUnstable
  · exact path_onSigToUnSupport
  · rw [path_onSigToNoSig hopen, if_pos hneed]
  · rw [path_onSigToNoSig hopen, if_neg hneed]
  · exact path_log _

theorem path_setCurrenSourceInfo (sigInfo : TvinInfo) :
    (tv.setCurrenSourceInfo sigInfo).path = tv.path.record sigInfo := rfl

theorem path_onSigStatusChange (hopen : tv.mVdin0DevFd = true) :
    (tv.onSigStatusChange ans).path =
      if 0 ≤ ans.vdin .getSigInfo then
        tv.path.step (.report ans.sigInfo (0 ≤ ans.vdin (.startDec ans.sigInfo))
          (getVideoScreenMode ans))
      else tv.path := by
  have hinfo : tv.tvinGetSignalInfo ans = (ans.vdin .getSigInfo, _) :=
    vdinDeviceIOCtl_of_open hopen .getSigInfo
  rw [onSigStatusChange]
  dsimp only
  by_cases hfail : (tv.tvinGetSignalInfo ans).1 < 0
  · have hneg : ¬ 0 ≤ ans.vdin .getSigInfo := by simpa [hinfo] using hfail
    rw [if_pos hfail, if_neg hneg, path_tvinGetSignalInfo]
  · have hpos : 0 ≤ ans.vdin .getSigInfo := by simpa [hinfo] using hfail
    -- an ioctl that succeeded leaves the device open for the handlers
    have hfd : ((tv.tvinGetSignalInfo ans).2.setCurrenSourceInfo ans.sigInfo).mVdin0DevFd = true :=
      open_of_nonneg (Int32.not_lt.mp hfail)
    rw [if_neg hfail, if_pos hpos, path_onSigTo hfd, path_setCurrenSourceInfo,
      path_tvinGetSignalInfo]
    rfl

theorem path_onHdrInfoChange : (tv.onHdrInfoChange ans).path = tv.path := by
  unfold onHdrInfoChange
  dsimp only
  split_ifs <;> simp [path_setCurrenSourceInfo, path_tvinGetSignalInfo, SignalPath.record]
  rfl

theorem path_onAfdInfoChange (sourceType : SourceInputType) :
    (tv.onAfdInfoChange ans sourceType).path = tv.path := by
  unfold onAfdInfoChange
  dsimp only
  split_ifs <;> simp [path_setCurrenSourceInfo, path_tvinGetSignalInfo, SignalPath.record]
  rfl

/-- The arm of the signal status. -/
theorem onVdinEvent_sts : tv.onVdinEvent ans tvinSigChgSts =
    (tv.perform (.log .vdinSignalStatusChange)).onSigStatusChange ans := rfl

/-- The device is open once an event word was read, whatever is logged. -/
theorem open_of_event (hevent : 0 ≤ (tv.tvinGetSignalEventInfo ans).1) (line : LogLine) :
    ((tv.tvinGetSignalEventInfo ans).2.perform (.log line)).mVdin0DevFd = true :=
  open_of_nonneg hevent

/-- Only the flag of the signal status bears on the path. -/
theorem path_onVdinEvent (hopen : tv.mVdin0DevFd = true) (word : UInt32) :
    (tv.onVdinEvent ans word).path =
      if word = tvinSigChgSts ∧ 0 ≤ ans.vdin .getSigInfo then
        tv.path.step (.report ans.sigInfo (0 ≤ ans.vdin (.startDec ans.sigInfo))
          (getVideoScreenMode ans))
      else tv.path := by
  -- of the other arms none reaches the decoder, the snow or the source
  by_cases hsts : word = tvinSigChgSts
  · subst hsts
    have hlog : (tv.perform (.log .vdinSignalStatusChange)).mVdin0DevFd = true := hopen
    rw [onVdinEvent_sts, path_onSigStatusChange hlog, path_log]
    simp
  · rw [if_neg fun h => hsts h.1]
    unfold onVdinEvent
    dsimp only
    split_ifs <;> simp [path_onHdrInfoChange, path_onAfdInfoChange]

theorem path_onVdinSignalChange : (tv.onVdinSignalChange ans).path =
    tv.path.step (tv.signalInput (.vdinSignalChange, ans)) := by
  have hevent : (tv.tvinGetSignalEventInfo ans).2.path = tv.path :=
    path_of_touches (touches_tvinGetSignalEventInfo ans tv) rfl
  rw [onVdinSignalChange, signalInput, report]
  -- an event whose word cannot be read is dropped
  by_cases hfail : (tv.tvinGetSignalEventInfo ans).1 < 0
  · have hneg : ¬ 0 ≤ (tv.tvinGetSignalEventInfo ans).1 := by simpa using hfail
    rw [if_pos hfail, if_neg fun h => hneg h.1, hevent]
    rfl
  · have hpos : 0 ≤ (tv.tvinGetSignalEventInfo ans).1 := by simpa using hfail
    have hfd : (tv.tvinGetSignalEventInfo ans).2.mVdin0DevFd = true := open_of_nonneg hpos
    rw [if_neg hfail, path_onVdinEvent hfd, hevent]
    by_cases hrep : ans.eventInfo = tvinSigChgSts ∧ 0 ≤ ans.vdin .getSigInfo
    · rw [if_pos hrep, if_pos ⟨hpos, hrep⟩]
    · rw [if_neg hrep, if_neg fun h => hrep h.2]
      rfl

/-! ## Commands -/

theorem path_startTv (source : SourceInput) :
    (tv.startTv ans source).2.path = { tv.path with source := source } := by
  have hsource : ∀ tv : CTv,
      (tv.setCurrentSource source).path = { tv.path with source := source } := fun _ => rfl
  have hport : ∀ (tv : CTv) port, (tv.tvinOpenPort ans port).2.path = tv.path :=
    fun tv port => path_of_touches (touches_tvinOpenPort ans tv port) rfl
  unfold startTv
  dsimp only
  split_ifs <;> simp [hsource, hport, path_tvWriteSysfs]

theorem path_stopTv (source : SourceInput) : (tv.stopTv ans source).2.path = tv.path.stop := by
  have hport : ∀ (tv : CTv) port, (tv.tvinClosePort ans port).2.path = tv.path :=
    fun tv port => path_of_touches (touches_tvinClosePort ans tv port) rfl
  have hassign : ∀ tv : CTv, ((tv.assignVdinWorkMode vdinWorkModeVfm).setCurrentSource
      sourceInvalid).path = { tv.path with source := sourceInvalid } := fun _ => rfl
  rw [stopTv, path_setCurrenSourceInfo, hassign, hport, path_tvinStopDecoder,
    path_setVideoGlobalOutputMode, path_setVideoLayerStatus, path_releaseAudioPatch]
  rfl

theorem path_switchSource (destSource : SourceInput) :
    (tv.switchSource ans destSource).2.path = tv.path.step (.switch destSource) := by
  have hsource : tv.path.source = tv.mCurrentSource := rfl
  rw [switchSource, SignalPath.step, hsource]
  by_cases hsame : destSource = tv.mCurrentSource
  · rw [if_neg (not_not_intro hsame), if_pos hsame]
  · rw [if_pos hsame, if_neg hsame, path_startTv, path_stopTv]

theorem path_setEdidVersion (source : SourceInput) (edidVer : UInt32) :
    (tv.setEdidVersion ans source edidVer).2.path =
      if tv.getEdidVersion source ≠ edidVer then tv.path.stopDecoder else tv.path := by
  unfold setEdidVersion
  dsimp only
  split_ifs <;> simp

theorem path_loadEdidData (isNeedBlackScreen isDolbyVisionEnable : Int32) :
    (tv.loadEdidData ans isNeedBlackScreen isDolbyVisionEnable).2.path =
      if isNeedBlackScreen = 1 then tv.path.stopDecoder else tv.path := by
  unfold loadEdidData
  dsimp only
  split_ifs <;> simp

/-- **The television object follows the machine**, step by step. -/
theorem path_step (x : Command × Answers) : (tv.step x).path = tv.path.step (tv.signalInput x) := by
  obtain ⟨command, ans⟩ := x
  cases command with
  | startTv source => exact path_startTv source
  | stopTv source => exact path_stopTv source
  | switchSource destSource => exact path_switchSource destSource
  | setEdidVersion source edidVer =>
    refine (path_setEdidVersion source edidVer).trans ?_
    rw [signalInput]
    split_ifs <;> rfl
  | loadEdidData isNeedBlackScreen isDolbyVisionEnable =>
    refine (path_loadEdidData isNeedBlackScreen isDolbyVisionEnable).trans ?_
    rw [signalInput]
    split_ifs <;> rfl
  | setVdinWorkMode vdinWorkMode => rfl
  | getFrontendInfo frontendInfo =>
    exact path_of_touches (touches_tvinGetFrontendInfo ans tv frontendInfo) rfl
  | getColorRangeMode =>
    exact path_of_touches (touches_tvinGetColorRangeMode ans tv) rfl
  | sourceConnect source connectStatus => exact path_sendTvEvent _
  | vdinSignalChange => exact path_onVdinSignalChange

/-- The path of a television object just constructed: no signal, and nothing started yet. -/
theorem path_construct (boot : Boot) : (construct ans boot).path =
    { (allocate boot).path with displaySnow := (construct ans boot).mATVDisplaySnow } := by
  have hvideo : ∀ tv : CTv, (tv.tvinAddVideoPath ans).2.path = tv.path :=
    fun _ => path_tvWriteSysfs (by decide) _
  have hmap : ∀ tv : CTv, tv.tvinLoadSourceInputToPortMap.path = tv.path := fun _ => rfl
  -- the constructor loads the EDID data without a black screen
  have hblack : ¬ (0 : Int32) = 1 := by decide
  have hpath : (construct ans boot).path = (allocate boot).loadATVDisplaySnow.path := by
    unfold construct
    dsimp only
    split_ifs
    all_goals
      simp only [path_loadEdidData, if_neg hblack, path_setCurrenSourceInfo, hmap, hvideo]
      rfl
  have hsnow : (construct ans boot).mATVDisplaySnow =
      (allocate boot).loadATVDisplaySnow.mATVDisplaySnow := congrArg SignalPath.displaySnow hpath
  rw [hpath, hsnow]
  rfl

end CTv
