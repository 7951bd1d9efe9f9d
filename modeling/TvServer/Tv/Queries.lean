import TvServer.Foundations.Unwinding
import TvServer.Tv.Invariants

/-!
# Queries

Clients ask for the frontend info and for the color range, and they set the work mode of the vdin
device, which nobody reads but the log. These commands change nothing that another client or the
observer could notice: every other command does and returns the same with them and without them.

## Main definitions

* `Command.isQuery`: the commands that nobody notices
* `effects`: the television object without the work mode, and without queries and log in its trace
* `Alike`, `AlikeReturns`: states, and returns of operations, with the same effects
* `ret`: what a command returns

## Main results

* `alike_step`, `ret_congr`: what a command does and returns depends on the effects alone
* `queries_isolated`: runs that differ in queries have the same effects
-/

/-- Whether an action is more than a query or a line of the log. -/
def TvAction.isEffect (action : TvAction) : Bool :=
  action.part ≠ .vdinQuery ∧ action.part ≠ .log

namespace CTv

/-- The television object without the work mode, and without queries and log in its trace. -/
def effects (tv : CTv) : CTv :=
  { tv with mVdinWorkMode := 0, trace := tv.trace.filter TvAction.isEffect }

/-- States with the same effects. -/
def Alike (tv tv' : CTv) : Prop := tv.effects = tv'.effects

/-- Operations that return the same, in states with the same effects. -/
structure AlikeReturns {ρ : Type} (p p' : ρ × CTv) : Prop where
  ret : p.1 = p'.1
  state : Alike p.2 p'.2

variable (ans : Answers) {tv tv' : CTv}

/-! ## Actions and assignments -/

theorem effects_perform (tv : CTv) (action : TvAction) : (tv.perform action).effects =
    { tv.effects with trace := tv.effects.trace ++ [action].filter TvAction.isEffect } := by
  simp [effects, perform, List.filter_append]

theorem effects_storeEdidVersion (tv : CTv) (source : SourceInput) (edidVer : UInt32) :
    (tv.storeEdidVersion source edidVer).effects = tv.effects.storeEdidVersion source edidVer := by
  unfold storeEdidVersion
  split_ifs <;> rfl

namespace Alike

/-- An observation that the effects keep is the same. -/
theorem observe {V : Type*} (f : CTv → V) (hf : ∀ tv, f tv.effects = f tv) (h : Alike tv tv') :
    f tv = f tv' := by
  rw [← hf tv, ← hf tv', h]

variable (h : Alike tv tv')

include h

/-- The same action or assignment. -/
theorem update (u : Update) : Alike (tv.update u) (tv'.update u) := by
  cases u with
  | perform action =>
    show (tv.perform action).effects = (tv'.perform action).effects
    rw [effects_perform, effects_perform, h]
  | storeEdidVersion source edidVer =>
    show (tv.storeEdidVersion source edidVer).effects =
      (tv'.storeEdidVersion source edidVer).effects
    rw [effects_storeEdidVersion, effects_storeEdidVersion, h]
  | setVdin0DevFd isOpen => exact congrArg (setVdin0DevFd · isOpen) h
  | setAfeDevFd isOpen => exact congrArg (setAfeDevFd · isOpen) h
  | setDecoderStarted started => exact congrArg (setDecoderStarted · started) h
  | setTvinParamInfo info => exact congrArg (setTvinParamInfo · info) h
  | setAudio audio => exact congrArg (setAudio · audio) h
  | setLastScreenMode screenMode => exact congrArg (setLastScreenMode · screenMode) h
  | setCurrenSourceInfo sigInfo => exact congrArg (setCurrenSourceInfo · sigInfo) h
  | setCurrentSource source => exact congrArg (setCurrentSource · source) h
  | assignVdinWorkMode vdinWorkMode => exact h

theorem mCurrentSource : tv.mCurrentSource = tv'.mCurrentSource := h.observe _ fun _ => rfl

theorem mCurrentSignalInfo : tv.mCurrentSignalInfo = tv'.mCurrentSignalInfo :=
  h.observe _ fun _ => rfl

theorem mDecoderStarted : tv.mDecoderStarted = tv'.mDecoderStarted := h.observe _ fun _ => rfl

theorem sourcePort : tv.tvinGetSourcePortBySourceInput = tv'.tvinGetSourcePortBySourceInput :=
  h.observe _ fun _ => rfl

theorem getEdidVersion : tv.getEdidVersion = tv'.getEdidVersion := h.observe _ fun _ => rfl

/-! ## Operations of the devices -/

theorem vdinDeviceIOCtl (request : VdinRequest) :
    AlikeReturns (tv.vdinDeviceIOCtl ans request) (tv'.vdinDeviceIOCtl ans request) := by
  have hfd : tv.mVdin0DevFd = tv'.mVdin0DevFd := h.observe _ fun _ => rfl
  rw [vdinDeviceIOCtl_eq, vdinDeviceIOCtl_eq, hfd]
  split
  · exact ⟨rfl, (h.update (.setVdin0DevFd true)).update (.perform _)⟩
  · exact ⟨rfl, h⟩

theorem afeDeviceIOCtl (request : AfeRequest) :
    AlikeReturns (tv.afeDeviceIOCtl ans request) (tv'.afeDeviceIOCtl ans request) := by
  have hfd : tv.mAfeDevFd = tv'.mAfeDevFd := h.observe _ fun _ => rfl
  rw [afeDeviceIOCtl_eq, afeDeviceIOCtl_eq, hfd]
  split
  · exact ⟨rfl, (h.update (.perform _)).update (.setAfeDevFd false)⟩
  · exact ⟨rfl, h⟩

theorem tvWriteSysfs (node : SysNode) (value : List Char) :
    AlikeReturns (tv.tvWriteSysfs ans node value) (tv'.tvWriteSysfs ans node value) :=
  ⟨rfl, h.update (.perform _)⟩

theorem vppSetVideoColor (needColor : Bool) :
    AlikeReturns (tv.vppSetVideoColor ans needColor) (tv'.vppSetVideoColor ans needColor) := by
  have hyuv {tv tv' : CTv} (h : Alike tv tv') (vdinBlendingMask y u v : UInt32) :
      AlikeReturns (tv.setVideoColorYuv ans vdinBlendingMask y u v)
        (tv'.setVideoColorYuv ans vdinBlendingMask y u v) := h.tvWriteSysfs ans .testScreen _
  have hdisabled := (h.tvWriteSysfs ans .disableVideo ['1']).state
  cases needColor with
  | true => exact hyuv hdisabled 0 41 240 110
  | false =>
    have hscreen := hyuv h 0 16 128 128
    exact ⟨hscreen.ret, (hscreen.state.tvWriteSysfs ans .disableVideo ['2']).state⟩

theorem setVideoLayerStatus (status : Int32) :
    Alike (tv.setVideoLayerStatus ans status).2 (tv'.setVideoLayerStatus ans status).2 :=
  h.update (.perform _)

theorem setVideoGlobalOutputMode (mode : Int32) :
    Alike (tv.setVideoGlobalOutputMode ans mode).2 (tv'.setVideoGlobalOutputMode ans mode).2 :=
  h.update (.perform _)

theorem sendTvEvent (event : CTvEvent) : Alike (tv.sendTvEvent event) (tv'.sendTvEvent event) := by
  have hobserver : tv.mpObserver = tv'.mpObserver := h.observe _ fun _ => rfl
  rw [CTv.sendTvEvent, CTv.sendTvEvent, hobserver]
  split
  · exact h.update (.perform _)
  · exact h

theorem hdmiRxEdidDataSwitch (data : List UInt8) :
    AlikeReturns (tv.hdmiRxEdidDataSwitch ans data) (tv'.hdmiRxEdidDataSwitch ans data) := by
  rw [CTv.hdmiRxEdidDataSwitch, CTv.hdmiRxEdidDataSwitch]
  split
  · exact ⟨rfl, h.update (.perform _)⟩
  · exact ⟨rfl, h⟩

theorem hdmiRxEdidVerSwitch (verValue : UInt32) :
    AlikeReturns (tv.hdmiRxEdidVerSwitch ans verValue) (tv'.hdmiRxEdidVerSwitch ans verValue) := by
  rw [CTv.hdmiRxEdidVerSwitch, CTv.hdmiRxEdidVerSwitch]
  split
  · exact ⟨rfl, h.update (.perform _)⟩
  · exact ⟨rfl, h⟩

theorem audioInstance : tv.audioInstance ans = tv'.audioInstance ans := h.observe _ fun _ => rfl

theorem createAudioPatch (deviceType : AudioDeviceIn) :
    Alike (tv.createAudioPatch ans deviceType) (tv'.createAudioPatch ans deviceType) := by
  rw [CTv.createAudioPatch, CTv.createAudioPatch, h.audioInstance]
  split
  · exact (h.update (.perform _)).update (.setAudio _)
  · exact h.update (.setAudio _)

theorem releaseAudioPatch : Alike (tv.releaseAudioPatch ans) (tv'.releaseAudioPatch ans) := by
  rw [CTv.releaseAudioPatch, CTv.releaseAudioPatch, h.audioInstance]
  split
  · exact (h.update (.perform _)).update (.setAudio _)
  · exact h.update (.setAudio _)

end Alike

/-- The flag of the decoder is set by the result of an ioctl. -/
theorem AlikeReturns.setStarted {p p' : Int32 × CTv} (hp : AlikeReturns p p') (started : Bool) :
    AlikeReturns
      (if 0 ≤ p.1 then (0, p.2.setDecoderStarted started) else (-1, p.2.setDecoderStarted false))
      (if 0 ≤ p'.1 then (0, p'.2.setDecoderStarted started)
        else ((-1 : Int32), p'.2.setDecoderStarted false)) := by
  rw [hp.ret]
  split
  · exact ⟨rfl, hp.state.update (.setDecoderStarted started)⟩
  · exact ⟨rfl, hp.state.update (.setDecoderStarted false)⟩

namespace Alike

variable (h : Alike tv tv')

include h

theorem tvinStartDecoder (info : TvinInfo) :
    AlikeReturns (tv.tvinStartDecoder ans info) (tv'.tvinStartDecoder ans info) := by
  rw [CTv.tvinStartDecoder, CTv.tvinStartDecoder, h.mDecoderStarted]
  split
  · exact ⟨rfl, h⟩
  · have hinfo := h.update (.setTvinParamInfo info)
    exact (hinfo.vdinDeviceIOCtl ans (.startDec info)).setStarted true

theorem tvinStopDecoder :
    AlikeReturns (tv.tvinStopDecoder ans) (tv'.tvinStopDecoder ans) := by
  rw [CTv.tvinStopDecoder, CTv.tvinStopDecoder, h.mDecoderStarted]
  split
  · exact ⟨rfl, h⟩
  · exact (h.vdinDeviceIOCtl ans .stopDec).setStarted false

theorem tvinSwitchSnow (enable : Bool) :
    AlikeReturns (tv.tvinSwitchSnow ans enable) (tv'.tvinSwitchSnow ans enable) := by
  cases enable with
  | true => exact (h.afeDeviceIOCtl ans .snowOn).state.vdinDeviceIOCtl ans .snowOn
  | false => exact (h.afeDeviceIOCtl ans .snowOff).state.vdinDeviceIOCtl ans .snowOff

/-! ## Commands -/

theorem startTv (source : SourceInput) :
    AlikeReturns (tv.startTv ans source) (tv'.startTv ans source) := by
  have hprepare : Alike (tv.prepare ans source) (tv'.prepare ans source) := by
    have hcolor : Alike (if source = sourceDtv then (tv.vppSetVideoColor ans true).2 else tv)
        (if source = sourceDtv then (tv'.vppSetVideoColor ans true).2 else tv') := by
      split
      · exact (h.vppSetVideoColor ans true).state
      · exact h
    rw [prepare, prepare]
    generalize (if source = sourceDtv then (tv.vppSetVideoColor ans true).2 else tv) = colored
      at hcolor ⊢
    generalize (if source = sourceDtv then (tv'.vppSetVideoColor ans true).2 else tv') = colored'
      at hcolor ⊢
    split
    · have henable := (hcolor.tvWriteSysfs ans .tsyncEnable ['0']).state
      exact (henable.tvWriteSysfs ans .tsyncMode ['0']).state
    · exact (hcolor.tvWriteSysfs ans .freerunMode ['0']).state
  have hopened : AlikeReturns (tv.opened ans source) (tv'.opened ans source) := by
    rw [opened, opened, h.sourcePort]
    exact hprepare.vdinDeviceIOCtl ans _
  rw [startTv_eq_opened, startTv_eq_opened]
  refine ⟨hopened.ret, ?_⟩
  have hassigned := hopened.state.update (.setCurrentSource source)
  split
  · exact hassigned
  · exact hassigned.createAudioPatch ans _

theorem stopTv (source : SourceInput) :
    AlikeReturns (tv.stopTv ans source) (tv'.stopTv ans source) := by
  have hmuted := (h.releaseAudioPatch ans).setVideoLayerStatus ans
    videoLayerStatusDisable
  have hoff := hmuted.setVideoGlobalOutputMode ans videoGlobalOutputModeDisable
  have hstopped := hoff.tvinStopDecoder
    ans
  have hclosed := (hstopped.state.vdinDeviceIOCtl ans .closePort).state
  have hreset := (hclosed.update (.assignVdinWorkMode vdinWorkModeVfm)).update
    (.setCurrentSource sourceInvalid)
  exact ⟨rfl, hreset.update (.setCurrenSourceInfo noSignalInfo)⟩

theorem switchSource (destSource : SourceInput) :
    AlikeReturns (tv.switchSource ans destSource) (tv'.switchSource ans destSource) := by
  rw [CTv.switchSource, CTv.switchSource, h.mCurrentSource]
  split
  · exact ⟨rfl, ((h.stopTv ans _).state.startTv ans destSource).state⟩
  · exact ⟨rfl, h⟩

theorem setEdidVersion (source : SourceInput) (edidVer : UInt32) :
    AlikeReturns (tv.setEdidVersion ans source edidVer)
      (tv'.setEdidVersion ans source edidVer) := by
  have hstopped := (h.tvinStopDecoder ans).state
  rw [CTv.setEdidVersion, CTv.setEdidVersion, h.getEdidVersion]
  split
  · dsimp only
    have hvalue : (tv.tvinStopDecoder ans).2.edidSetValue =
        (tv'.tvinStopDecoder ans).2.edidSetValue := hstopped.observe _ fun _ => rfl
    rw [hvalue, hstopped.getEdidVersion, hstopped.mCurrentSource]
    generalize (tv'.tvinStopDecoder ans).2.edidSetValue _ = value
    have hswitch := hstopped.hdmiRxEdidVerSwitch ans value
    have hupdated : Alike
        (if (tv'.tvinStopDecoder ans).2.mCurrentSource = source then
          (((tv.tvinStopDecoder ans).2.hdmiRxEdidVerSwitch ans value).2.hdmiRxEdidUpdate ans).2
        else ((tv.tvinStopDecoder ans).2.hdmiRxEdidVerSwitch ans value).2)
        (if (tv'.tvinStopDecoder ans).2.mCurrentSource = source then
          (((tv'.tvinStopDecoder ans).2.hdmiRxEdidVerSwitch ans value).2.hdmiRxEdidUpdate ans).2
        else ((tv'.tvinStopDecoder ans).2.hdmiRxEdidVerSwitch ans value).2) := by
      split
      · exact hswitch.state.update (.perform _)
      · exact hswitch.state
    rw [hswitch.ret]
    split
    · exact ⟨rfl, hupdated⟩
    · exact ⟨rfl, hupdated.update (.storeEdidVersion source edidVer)⟩
  · exact ⟨rfl, h⟩

theorem loadEdidData (isNeedBlackScreen isDolbyVisionEnable : Int32) :
    AlikeReturns (tv.loadEdidData ans isNeedBlackScreen isDolbyVisionEnable)
      (tv'.loadEdidData ans isNeedBlackScreen isDolbyVisionEnable) := by
  have hstopped : Alike (if isNeedBlackScreen = 1 then (tv.tvinStopDecoder ans).2 else tv)
      (if isNeedBlackScreen = 1 then (tv'.tvinStopDecoder ans).2 else tv') := by
    split
    · exact (h.tvinStopDecoder ans).state
    · exact h
  rw [CTv.loadEdidData, CTv.loadEdidData]
  generalize (if isNeedBlackScreen = 1 then (tv.tvinStopDecoder ans).2 else tv) = stopped
    at hstopped ⊢
  generalize (if isNeedBlackScreen = 1 then (tv'.tvinStopDecoder ans).2 else tv') = stopped'
    at hstopped ⊢
  have hstr : stopped.configGetStr = stopped'.configGetStr := hstopped.observe _ fun _ => rfl
  rw [hstr]
  generalize edidLoadBuf ans _ _ = data
  have hdata := hstopped.hdmiRxEdidDataSwitch ans data
  have hvalue : (stopped.hdmiRxEdidDataSwitch ans data).2.edidSetValue =
      (stopped'.hdmiRxEdidDataSwitch ans data).2.edidSetValue := hdata.state.observe _ fun _ => rfl
  rw [hdata.ret, hvalue, hdata.state.getEdidVersion]
  split
  · exact hdata.state.hdmiRxEdidVerSwitch ans _
  · exact hdata

theorem getFrontendInfo (frontendInfo : TvinFrontendInfo) :
    AlikeReturns (tv.getFrontendInfo ans frontendInfo) (tv'.getFrontendInfo ans frontendInfo) := by
  obtain ⟨hret, hstate⟩ := h.vdinDeviceIOCtl ans .getFrontendInfo
  have hfd := hstate.observe mVdin0DevFd fun _ => rfl
  rw [CTv.getFrontendInfo, CTv.getFrontendInfo, tvinGetFrontendInfo, tvinGetFrontendInfo]
  rw [hret, hfd]
  split
  · exact ⟨rfl, hstate⟩
  · exact ⟨rfl, hstate⟩

theorem getColorRangeMode :
    AlikeReturns (tv.getColorRangeMode ans) (tv'.getColorRangeMode ans) := by
  obtain ⟨-, hstate⟩ := h.vdinDeviceIOCtl ans .getColorRange
  have hfd := hstate.observe mVdin0DevFd fun _ => rfl
  rw [CTv.getColorRangeMode, CTv.getColorRangeMode, tvinGetColorRangeMode, tvinGetColorRangeMode]
  rw [hfd]
  split
  · exact ⟨rfl, hstate⟩
  · exact ⟨rfl, hstate⟩

/-! ## Vdin events -/

theorem log (line : LogLine) : Alike (tv.perform (.log line)) (tv'.perform (.log line)) :=
  h.update (.perform _)

theorem sendSignalDetect :
    Alike (tv.sendTvEvent tv.signalDetectEvent) (tv'.sendTvEvent tv'.signalDetectEvent) := by
  have hevent : tv.signalDetectEvent = tv'.signalDetectEvent := h.observe _ fun _ => rfl
  rw [hevent]
  exact h.sendTvEvent _

theorem setSnowShowEnable (enable : Bool) :
    Alike (tv.setSnowShowEnable ans enable).2 (tv'.setSnowShowEnable ans enable).2 := by
  have hmode : tv.mLastScreenMode = tv'.mLastScreenMode := h.observe _ fun _ => rfl
  rw [CTv.setSnowShowEnable, CTv.setSnowShowEnable, hmode]
  cases enable with
  | true =>
    have hsaved := h.update (.setLastScreenMode (getVideoScreenMode ans))
    exact ((hsaved.tvWriteSysfs ans .screenMode _).state.tvinSwitchSnow ans true).state
  | false => exact ((h.tvWriteSysfs ans .screenMode _).state.tvinSwitchSnow ans false).state

theorem onSigTo (status : UInt32) : Alike (tv.onSigTo ans status) (tv'.onSigTo ans status) := by
  have hstart {tv tv' : CTv} (h : Alike tv tv') :
      Alike (tv.tvinStartDecoder ans tv.mCurrentSignalInfo).2
        (tv'.tvinStartDecoder ans tv'.mCurrentSignalInfo).2 := by
    rw [h.mCurrentSignalInfo]
    exact (h.tvinStartDecoder ans _).state
  unfold CTv.onSigTo
  split_ifs
  · have hshown := (hstart (h.log .onSigToStable)).setVideoLayerStatus ans videoLayerStatusEnable
    exact (hshown.setVideoGlobalOutputMode ans videoGlobalOutputModeEnable).sendSignalDetect
  · exact (h.tvinStopDecoder ans).state.log .onSigToUnstable
  · exact ((h.log .onSigToUnSupport).tvinStopDecoder ans).state.sendSignalDetect
  · have hlogged := h.log .onSigToNoSig
    have hneed : (tv.perform (.log .onSigToNoSig)).needSnowEffect =
        (tv'.perform (.log .onSigToNoSig)).needSnowEffect := hlogged.observe _ fun _ => rfl
    rw [onSigToNoSig, onSigToNoSig]
    apply sendSignalDetect
    dsimp only
    rw [hneed]
    split
    · have hshown := (hstart (hlogged.setSnowShowEnable ans true)).setVideoLayerStatus ans
        videoLayerStatusEnable
      exact (hshown.vppSetVideoColor ans false).state
    · exact ((hlogged.vppSetVideoColor ans false).state.tvinStopDecoder ans).state
  · exact h.log .invalidSignalStatus

theorem onSigStatusChange : Alike (tv.onSigStatusChange ans) (tv'.onSigStatusChange ans) := by
  obtain ⟨hret, hstate⟩ := h.vdinDeviceIOCtl ans .getSigInfo
  rw [CTv.onSigStatusChange, CTv.onSigStatusChange, tvinGetSignalInfo, tvinGetSignalInfo]
  dsimp only
  rw [hret]
  split
  · exact hstate
  · exact (hstate.update (.setCurrenSourceInfo ans.sigInfo)).onSigTo ans _

theorem onHdrInfoChange : Alike (tv.onHdrInfoChange ans) (tv'.onHdrInfoChange ans) := by
  obtain ⟨hret, hstate⟩ := (h.log .hdrInfoChange).vdinDeviceIOCtl ans .getSigInfo
  have hinfo := (h.log .hdrInfoChange).mCurrentSignalInfo
  rw [CTv.onHdrInfoChange, CTv.onHdrInfoChange, tvinGetSignalInfo, tvinGetSignalInfo]
  dsimp only
  rw [hret, hinfo]
  split_ifs
  · exact hstate
  · exact hstate.update (.setCurrenSourceInfo _)
  · exact hstate

theorem onAfdInfoChange (sourceType : SourceInputType) :
    Alike (tv.onAfdInfoChange ans sourceType) (tv'.onAfdInfoChange ans sourceType) := by
  obtain ⟨hret, hstate⟩ := (h.log .afdInfoChange).vdinDeviceIOCtl ans .getSigInfo
  have hinfo := (h.log .afdInfoChange).mCurrentSignalInfo
  rw [CTv.onAfdInfoChange, CTv.onAfdInfoChange, tvinGetSignalInfo, tvinGetSignalInfo]
  dsimp only
  rw [hret, hinfo]
  split_ifs
  · exact hstate
  · exact hstate.update (.setCurrenSourceInfo _)
  · exact hstate
  · exact h.log .afdInfoChange

theorem onVdinSignalChange : Alike (tv.onVdinSignalChange ans) (tv'.onVdinSignalChange ans) := by
  obtain ⟨hret, hstate⟩ := h.vdinDeviceIOCtl ans .getEventInfo
  rw [CTv.onVdinSignalChange, CTv.onVdinSignalChange, tvinGetSignalEventInfo,
    tvinGetSignalEventInfo]
  rw [hret]
  split
  · exact hstate
  · unfold onVdinEvent
    dsimp only
    rw [hstate.mCurrentSource]
    split_ifs
    · exact hstate.onHdrInfoChange ans
    · exact hstate.log .colorFmtChange
    · exact hstate.log .colorRangeChange
    · exact hstate.log .colorBitChange
    · exact hstate.log .vsFrqChange
    · exact (hstate.log .vdinSignalStatusChange).onSigStatusChange ans
    · exact hstate.onAfdInfoChange ans _
    · exact hstate.log .allmInfoChange
    · exact hstate.log .invalidVdinEvent

end Alike

/-! ## Steps -/

/-- The commands that nobody notices. -/
def Command.isQuery : Command → Bool
  | setVdinWorkMode _ | getFrontendInfo _ | getColorRangeMode => true
  | _ => false

/-- What a command returns, with the frontend info that it fills in. -/
def ret (tv : CTv) : Command × Answers → Int32 × Option TvinFrontendInfo
  | (.startTv source, ans) => ((tv.startTv ans source).1, none)
  | (.stopTv source, ans) => ((tv.stopTv ans source).1, none)
  | (.switchSource destSource, ans) => ((tv.switchSource ans destSource).1, none)
  | (.setEdidVersion source edidVer, ans) => ((tv.setEdidVersion ans source edidVer).1, none)
  | (.loadEdidData isNeedBlackScreen isDolbyVisionEnable, ans) =>
    ((tv.loadEdidData ans isNeedBlackScreen isDolbyVisionEnable).1, none)
  | (.setVdinWorkMode vdinWorkMode, _) => ((tv.setVdinWorkMode vdinWorkMode).1, none)
  | (.getFrontendInfo frontendInfo, ans) =>
    ((tv.getFrontendInfo ans frontendInfo).1.1, some (tv.getFrontendInfo ans frontendInfo).1.2)
  | (.getColorRangeMode, ans) => ((tv.getColorRangeMode ans).1, none)
  -- the handlers of the events return nothing
  | (.sourceConnect _ _, _) | (.vdinSignalChange, _) => (0, none)

variable {ans}

theorem alike_step (h : Alike tv tv') (x : Command × Answers) :
    Alike (tv.step x) (tv'.step x) := by
  obtain ⟨command, ans⟩ := x
  cases command with
  | startTv source => exact (h.startTv ans source).state
  | stopTv source => exact (h.stopTv ans source).state
  | switchSource destSource => exact (h.switchSource ans destSource).state
  | setEdidVersion source edidVer => exact (h.setEdidVersion ans source edidVer).state
  | loadEdidData isNeedBlackScreen isDolbyVisionEnable => exact (h.loadEdidData ans _ _).state
  | setVdinWorkMode vdinWorkMode => exact h
  | getFrontendInfo frontendInfo => exact (h.getFrontendInfo ans frontendInfo).state
  | getColorRangeMode => exact (h.getColorRangeMode ans).state
  | sourceConnect source connectStatus => exact h.sendTvEvent _
  | vdinSignalChange => exact h.onVdinSignalChange ans

theorem ret_congr (h : Alike tv tv') (x : Command × Answers) : tv.ret x = tv'.ret x := by
  obtain ⟨command, ans⟩ := x
  cases command with
  | startTv source => exact congrArg (·, none) (h.startTv ans source).ret
  | stopTv source => exact congrArg (·, none) (h.stopTv ans source).ret
  | switchSource destSource => exact congrArg (·, none) (h.switchSource ans destSource).ret
  | setEdidVersion source edidVer =>
    exact congrArg (·, none) (h.setEdidVersion ans source edidVer).ret
  | loadEdidData isNeedBlackScreen isDolbyVisionEnable =>
    exact congrArg (·, none) (h.loadEdidData ans _ _).ret
  | getFrontendInfo frontendInfo =>
    have hret := (h.getFrontendInfo ans frontendInfo).ret
    exact congrArg (fun p : Int32 × TvinFrontendInfo => (p.1, some p.2)) hret
  | getColorRangeMode => exact congrArg (·, none) (h.getColorRangeMode ans).ret
  | setVdinWorkMode _ | sourceConnect _ _ | vdinSignalChange => rfl

/-- A vdin device that is open stays open. -/
theorem preserves_open : Preserves fun tv => tv.mVdin0DevFd = true := by
  have hioctl (ans : Answers) (tv : CTv) (request : VdinRequest) (h : tv.mVdin0DevFd = true) :
      (tv.vdinDeviceIOCtl ans request).2.mVdin0DevFd = true := by
    rw [vdinDeviceIOCtl_of_open h]
    exact h
  refine ⟨fun tv u hu h => ?_, fun ans tv request h => ?_,
    fun ans tv request _ _ => hioctl ans tv _, fun ans tv info h => ?_, fun ans tv h => ?_⟩
  · cases u with
    | setVdin0DevFd isOpen => exact absurd List.mem_cons_self hu
    | storeEdidVersion source edidVer =>
      show (tv.storeEdidVersion source edidVer).mVdin0DevFd = true
      rw [storeEdidVersion_keeps mVdin0DevFd tv (fun _ _ _ _ => rfl)]
      exact h
    | _ => exact h
  · rw [afeDeviceIOCtl_eq]
    split <;> exact h
  · rw [tvinStartDecoder]
    split
    · exact h
    · have hstart := hioctl ans (tv.setTvinParamInfo info) (.startDec info) h
      dsimp only
      split <;> exact hstart
  · rw [tvinStopDecoder]
    split
    · exact h
    · have hstop := hioctl ans tv .stopDec h
      dsimp only
      split <;> exact hstop

/-- A query of an open device has no effect. -/
theorem effects_query (hopen : tv.mVdin0DevFd = true) {x : Command × Answers}
    (hquery : x.1.isQuery = true) : (tv.step x).effects = tv.effects := by
  have hhidden {tv : CTv} (hopen : tv.mVdin0DevFd = true) (ans : Answers) {request : VdinRequest}
      (hpart : request.part = .vdinQuery) :
      (tv.vdinDeviceIOCtl ans request).2.effects = tv.effects := by
    rw [vdinDeviceIOCtl_of_open hopen, effects_perform]
    have hnone : TvAction.isEffect (.vdin request (ans.vdin request)) = false := by
      simp [TvAction.isEffect, TvAction.part, hpart]
    rw [List.filter_singleton, hnone, cond_false, List.append_nil]
  obtain ⟨command, ans⟩ := x
  cases command with
  | setVdinWorkMode vdinWorkMode => rfl
  | getFrontendInfo frontendInfo =>
    show (tv.tvinGetFrontendInfo ans frontendInfo).2.effects = tv.effects
    rw [tvinGetFrontendInfo]
    split <;> exact hhidden hopen ans rfl
  | getColorRangeMode =>
    show (tv.tvinGetColorRangeMode ans).2.effects = tv.effects
    rw [tvinGetColorRangeMode]
    split <;> exact hhidden hopen ans rfl
  | _ => cases hquery

theorem unwinds_queries : Machine.Unwinds step ret effects (fun x => x.1.isQuery)
    (fun tv => tv.mVdin0DevFd = true) where
  inv_step _ x h := preserves_open.step x h
  view_silent _ _ hopen hquery := effects_query hopen hquery
  view_congr _ _ x h _ := alike_step h x
  output_congr _ _ x h := ret_congr h x

/-- **Queries are isolated.** From a television object with an open vdin device, take two runs of
commands and events that differ in queries only. Behind them the objects agree but for the work
mode, and they have done the same operations and sent the same events, in the same order; and
whatever comes next returns the same. -/
theorem queries_isolated (hopen : tv.mVdin0DevFd = true) {xs ys : List (Command × Answers)}
    (hsame : xs.filter (fun x => !x.1.isQuery) = ys.filter fun x => !x.1.isQuery) :
    (Machine.run step tv xs).effects = (Machine.run step tv ys).effects ∧
      ∀ x, (Machine.run step tv xs).ret x = (Machine.run step tv ys).ret x :=
  unwinds_queries.noninterference hopen hsame

/-- A client asks for the color range and sets the work mode before the source is started. -/
theorem queries_isolated_start :
    let ans := Answers.granting 0 noSignalInfo
    let tv := allocate ⟨fun _ => none, none, true, true, sourceInvalid⟩
    let start := (Command.startTv sourceHdmi1, ans)
    (Machine.run step tv [(.getColorRangeMode, ans), (.setVdinWorkMode 1, ans), start]).effects =
      (Machine.run step tv [start]).effects := by
  intro ans tv start
  exact (queries_isolated rfl rfl).1

end CTv
