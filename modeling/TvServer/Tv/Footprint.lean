import TvServer.Foundations.Footprint
import TvServer.Tv.CTv

/-!
# The footprints of the operations

Every operation of the television object is a run of actions and assignments. Its footprint is the
list of the fields it may assign and of the kinds of actions it may perform; what does not depend
on these is the same before and after it.

## Main definitions

* `Part`: a field, or a kind of actions
* `Update`, `update`: an action or an assignment
* `Touches`: a state is reached by updates of some parts
* `opened`, `closed`: the ioctls for the port, within the commands

## Main results

* `trace_dependsOn`: what an observation of the trace sees
* `touches_vdinDeviceIOCtl`, `touches_stopTv`, ...: the footprints of the operations
* `touches_startTv_of_opened`, `touches_stopTv_of_closed`: what the commands do behind these
* `touches_step`: the footprint of a step
-/

/-- A field of the state, or a kind of actions. -/
inductive CTv.Part where
  | vdinFd
  | afeFd
  | decoder
  | params
  | audio
  | edidVersions
  | lastScreenMode
  | signalInfo
  | source
  | workMode
  | openPort
  | closePort
  | startDec
  | stopDec
  | vdinQuery
  | snow
  | amVideo
  | sysfs
  | screenMode
  | edidData
  | edidSelect
  | edidUpdate
  | audioPatch
  | tvEvent
  | log
deriving DecidableEq

/-- The kind of an ioctl of the vdin device. -/
def VdinRequest.part : VdinRequest → CTv.Part
  | .openPort _ => .openPort
  | .closePort => .closePort
  | .startDec _ => .startDec
  | .stopDec => .stopDec
  | .getEventInfo | .getSigInfo | .getFrontendInfo | .getColorRange => .vdinQuery
  | .snowOn | .snowOff => .snow

/-- The kind of a write to a sysfs node. -/
def SysNode.part : SysNode → CTv.Part
  | .screenMode => .screenMode
  | .vfmMap | .tsyncEnable | .tsyncMode | .freerunMode | .disableVideo | .testScreen => .sysfs

/-- The kind of an action. -/
def TvAction.part : TvAction → CTv.Part
  | .vdin request _ => request.part
  | .afe _ _ => .snow
  | .amVideo _ _ => .amVideo
  | .writeSysfs node _ _ => node.part
  | .writeEdid _ _ => .edidData
  | .writeEdidSelect _ _ => .edidSelect
  | .edidUpdate _ => .edidUpdate
  | .createAudioPatch _ _ | .releaseAudioPatch _ _ => .audioPatch
  | .tvEvent _ => .tvEvent
  | .log _ => .log

namespace CTv

/-- An action, or an assignment to a field. -/
inductive Update where
  | perform (action : TvAction)
  | setVdin0DevFd (isOpen : Bool)
  | setAfeDevFd (isOpen : Bool)
  | setDecoderStarted (started : Bool)
  | setTvinParamInfo (info : TvinInfo)
  | setAudio (audio : CTvAudio)
  | storeEdidVersion (source : SourceInput) (edidVer : UInt32)
  | setLastScreenMode (screenMode : Int32)
  | setCurrenSourceInfo (sigInfo : TvinInfo)
  | setCurrentSource (source : SourceInput)
  | assignVdinWorkMode (vdinWorkMode : UInt32)

/-- The part that an update belongs to. -/
def Update.part : Update → Part
  | perform action => action.part
  | setVdin0DevFd _ => .vdinFd
  | setAfeDevFd _ => .afeFd
  | setDecoderStarted _ => .decoder
  | setTvinParamInfo _ => .params
  | setAudio _ => .audio
  | storeEdidVersion _ _ => .edidVersions
  | setLastScreenMode _ => .lastScreenMode
  | setCurrenSourceInfo _ => .signalInfo
  | setCurrentSource _ => .source
  | assignVdinWorkMode _ => .workMode

/-- The state after an update. -/
def update (tv : CTv) : Update → CTv
  | .perform action => tv.perform action
  | .setVdin0DevFd isOpen => tv.setVdin0DevFd isOpen
  | .setAfeDevFd isOpen => tv.setAfeDevFd isOpen
  | .setDecoderStarted started => tv.setDecoderStarted started
  | .setTvinParamInfo info => tv.setTvinParamInfo info
  | .setAudio audio => tv.setAudio audio
  | .storeEdidVersion source edidVer => tv.storeEdidVersion source edidVer
  | .setLastScreenMode screenMode => tv.setLastScreenMode screenMode
  | .setCurrenSourceInfo sigInfo => tv.setCurrenSourceInfo sigInfo
  | .setCurrentSource source => tv.setCurrentSource source
  | .assignVdinWorkMode vdinWorkMode => tv.assignVdinWorkMode vdinWorkMode

/-- A state is reached by updates of some parts. -/
abbrev Touches (parts : List Part) (tv tv' : CTv) : Prop :=
  Footprint.Touches update Update.part parts tv tv'

/-- An observation sees the updates of some parts only. -/
abbrev DependsOn {V : Type*} (f : CTv → V) (parts : List Part) : Prop :=
  Footprint.DependsOn update Update.part f parts

/-- Nothing but the versions sees a version that is stored. -/
theorem storeEdidVersion_keeps {V : Type*} (f : CTv → V) (tv : CTv)
    (hf : ∀ v1 v2 v3 v4, f { tv with
      hdmi1CurrentEdidVer := v1, hdmi2CurrentEdidVer := v2, hdmi3CurrentEdidVer := v3,
      hdmi4CurrentEdidVer := v4 } = f tv)
    (source : SourceInput) (edidVer : UInt32) : f (tv.storeEdidVersion source edidVer) = f tv := by
  unfold storeEdidVersion
  split_ifs
  · exact hf edidVer _ _ _
  · exact hf _ edidVer _ _
  · exact hf _ _ edidVer _
  · exact hf _ _ _ edidVer
  · rfl

theorem trace_storeEdidVersion (tv : CTv) (source : SourceInput) (edidVer : UInt32) :
    (tv.storeEdidVersion source edidVer).trace = tv.trace :=
  storeEdidVersion_keeps trace tv (fun _ _ _ _ => rfl) source edidVer

/-- An observation of the trace sees the kinds of actions only that it distinguishes. -/
theorem trace_dependsOn {V : Type*} {f : List TvAction → V} {parts : List Part}
    (hf : ∀ trace action, action.part ∉ parts → f (trace ++ [action]) = f trace) :
    DependsOn (fun tv => f tv.trace) parts := by
  intro tv u hu
  cases u with
  | perform action => exact hf tv.trace action hu
  | storeEdidVersion source edidVer => exact congrArg f (trace_storeEdidVersion tv source edidVer)
  | _ => rfl

theorem filterMap_dependsOn {V : Type*} {f : TvAction → Option V} {parts : List Part}
    (hf : ∀ action : TvAction, action.part ∉ parts → f action = none) :
    DependsOn (fun tv => tv.trace.filterMap f) parts := by
  apply trace_dependsOn
  intro trace action haction
  rw [List.filterMap_append]
  simp [hf action haction]

/-- Actions are not undone. -/
theorem trace_prefix_of_touches {parts : List Part} {tv tv' : CTv} (h : Touches parts tv tv') :
    tv.trace <+: tv'.trace := by
  have hstep (tv' : CTv) (u : Update) (hpre : tv.trace <+: tv'.trace) :
      tv.trace <+: (update tv' u).trace := by
    cases u with
    | perform action => exact hpre.trans (List.prefix_append _ _)
    | storeEdidVersion source edidVer =>
      exact hpre.trans (trace_storeEdidVersion tv' source edidVer ▸ List.prefix_rfl)
    | _ => exact hpre
  obtain ⟨us, -, rfl⟩ := h
  exact Machine.run_invariant (fun tv' : CTv => tv.trace <+: tv'.trace) hstep
    (List.prefix_refl _) us

/-- The actions that are added are of the kinds that are touched. -/
theorem part_mem_of_touches {parts : List Part} {tv tv' : CTv} (h : Touches parts tv tv') :
    ∀ action ∈ tv'.trace.drop tv.trace.length, action.part ∈ parts := by
  obtain ⟨us, hus, rfl⟩ := h
  have hstep (tv' : CTv) (u : Update) (hu : u ∈ us)
      (hnew : ∃ new, tv'.trace = tv.trace ++ new ∧ ∀ action ∈ new, action.part ∈ parts) :
      ∃ new, (update tv' u).trace = tv.trace ++ new ∧ ∀ action ∈ new, action.part ∈ parts := by
    obtain ⟨new, htrace, hparts⟩ := hnew
    cases u with
    | perform action =>
      refine ⟨new ++ [action], ?_, List.forall_mem_append.mpr ⟨hparts, ?_⟩⟩
      · rw [← List.append_assoc, ← htrace]
        rfl
      · exact List.forall_mem_singleton.mpr (hus (.perform action) hu)
    | storeEdidVersion source edidVer =>
      exact ⟨new, (trace_storeEdidVersion tv' source edidVer).trans htrace, hparts⟩
    | _ => exact ⟨new, htrace, hparts⟩
  obtain ⟨new, htrace, hparts⟩ := Machine.run_invariant_of_mem (fun tv' : CTv =>
    ∃ new, tv'.trace = tv.trace ++ new ∧ ∀ action ∈ new, action.part ∈ parts) hstep
    ⟨[], (List.append_nil _).symm, fun _ hmem => absurd hmem List.not_mem_nil⟩
  rw [htrace, List.drop_left]
  exact hparts

theorem mCurrentSource_dependsOn : DependsOn mCurrentSource [.source] := by
  intro tv u hu
  cases u with
  | storeEdidVersion source edidVer =>
    exact storeEdidVersion_keeps mCurrentSource tv (fun _ _ _ _ => rfl) source edidVer
  | _ => first | rfl | exact absurd (of_decide_eq_true rfl) hu

/-- Of what the need for snow depends on only the source is ever assigned. -/
theorem needSnowEffect_dependsOn : DependsOn needSnowEffect [.source] := by
  intro tv u hu
  cases u with
  | storeEdidVersion source edidVer =>
    exact storeEdidVersion_keeps needSnowEffect tv (fun _ _ _ _ => rfl) source edidVer
  | _ => first | rfl | exact absurd (of_decide_eq_true rfl) hu

variable (ans : Answers) (tv : CTv)

/-! ## Devices -/

theorem touches_update (u : Update) : Touches [u.part] tv (tv.update u) :=
  Footprint.Touches.single tv u

theorem touches_perform (action : TvAction) : Touches [action.part] tv (tv.perform action) :=
  touches_update tv (.perform action)

theorem touches_setCurrenSourceInfo (sigInfo : TvinInfo) :
    Touches [.signalInfo] tv (tv.setCurrenSourceInfo sigInfo) :=
  touches_update tv (.setCurrenSourceInfo sigInfo)

theorem touches_storeEdidVersion (source : SourceInput) (edidVer : UInt32) :
    Touches [.edidVersions] tv (tv.storeEdidVersion source edidVer) :=
  touches_update tv (.storeEdidVersion source edidVer)

theorem touches_log (line : LogLine) : Touches [.log] tv (tv.perform (.log line)) :=
  touches_perform tv (.log line)

theorem touches_vdinDeviceIOCtl (request : VdinRequest) :
    Touches [.vdinFd, request.part] tv (tv.vdinDeviceIOCtl ans request).2 := by
  have hopen : Touches [.vdinFd] tv (tv.setVdin0DevFd true) :=
    touches_update tv (.setVdin0DevFd true)
  rw [vdinDeviceIOCtl_eq]
  split
  · exact hopen.trans (touches_perform _ (.vdin request (ans.vdin request)))
  · exact .refl _ _

theorem touches_tvinOpenPort (sourcePort : TvinPort) :
    Touches [.vdinFd, .openPort] tv (tv.tvinOpenPort ans sourcePort).2 :=
  touches_vdinDeviceIOCtl ans tv (.openPort sourcePort)

theorem touches_tvinClosePort (sourcePort : TvinPort) :
    Touches [.vdinFd, .closePort] tv (tv.tvinClosePort ans sourcePort).2 :=
  touches_vdinDeviceIOCtl ans tv .closePort

theorem touches_tvinGetSignalEventInfo :
    Touches [.vdinFd, .vdinQuery] tv (tv.tvinGetSignalEventInfo ans).2 :=
  touches_vdinDeviceIOCtl ans tv .getEventInfo

theorem touches_tvinGetSignalInfo :
    Touches [.vdinFd, .vdinQuery] tv (tv.tvinGetSignalInfo ans).2 :=
  touches_vdinDeviceIOCtl ans tv .getSigInfo

theorem touches_afeDeviceIOCtl (request : AfeRequest) :
    Touches [.snow, .afeFd] tv (tv.afeDeviceIOCtl ans request).2 := by
  have hrequest : Touches [.snow] tv (tv.perform (.afe request (ans.afe request))) :=
    touches_perform tv (.afe request (ans.afe request))
  rw [afeDeviceIOCtl_eq]
  split
  · exact hrequest.trans (touches_update _ (.setAfeDevFd false))
  · exact .refl _ _

theorem touches_tvinStartDecoder (info : TvinInfo) :
    Touches [.params, .vdinFd, .startDec, .decoder] tv (tv.tvinStartDecoder ans info).2 := by
  have hparams : Touches [.params] tv (tv.setTvinParamInfo info) :=
    touches_update tv (.setTvinParamInfo info)
  have hioctl := hparams.trans (touches_vdinDeviceIOCtl ans _ (.startDec info))
  rw [tvinStartDecoder]
  split
  · exact .refl _ _
  · dsimp only
    split <;> exact hioctl.trans (touches_update _ (.setDecoderStarted _))

theorem touches_tvinStopDecoder :
    Touches [.vdinFd, .stopDec, .decoder] tv (tv.tvinStopDecoder ans).2 := by
  have hioctl := touches_vdinDeviceIOCtl ans tv .stopDec
  rw [tvinStopDecoder]
  split
  · exact .refl _ _
  · dsimp only
    split <;> exact hioctl.trans (touches_update _ (.setDecoderStarted _))

theorem touches_tvinSwitchSnow (enable : Bool) :
    Touches [.snow, .afeFd, .vdinFd] tv (tv.tvinSwitchSnow ans enable).2 := by
  have hsnow (afe : AfeRequest) (vdin : VdinRequest) (hvdin : vdin.part = .snow) :
      Touches [.snow, .afeFd, .vdinFd] tv
        ((tv.afeDeviceIOCtl ans afe).2.vdinDeviceIOCtl ans vdin).2 := by
    have hvdin := hvdin ▸ touches_vdinDeviceIOCtl ans (tv.afeDeviceIOCtl ans afe).2 vdin
    exact ((touches_afeDeviceIOCtl ans tv afe).trans hvdin).mono rfl
  rw [tvinSwitchSnow]
  split
  · exact hsnow .snowOn .snowOn rfl
  · exact hsnow .snowOff .snowOff rfl

theorem touches_tvinGetFrontendInfo (frontendInfo : TvinFrontendInfo) :
    Touches [.vdinFd, .vdinQuery] tv (tv.tvinGetFrontendInfo ans frontendInfo).2 := by
  rw [tvinGetFrontendInfo]
  split <;> exact touches_vdinDeviceIOCtl ans tv .getFrontendInfo

theorem touches_tvinGetColorRangeMode :
    Touches [.vdinFd, .vdinQuery] tv (tv.tvinGetColorRangeMode ans).2 := by
  rw [tvinGetColorRangeMode]
  split <;> exact touches_vdinDeviceIOCtl ans tv .getColorRange

theorem touches_tvWriteSysfs (node : SysNode) (value : List Char) :
    Touches [node.part] tv (tv.tvWriteSysfs ans node value).2 :=
  touches_perform tv (.writeSysfs node value (ans.writeSysfs node))

theorem touches_vppSetVideoColor (needColor : Bool) :
    Touches [.sysfs] tv (tv.vppSetVideoColor ans needColor).2 := by
  have hwrite (tv : CTv) (node : SysNode) (value : List Char) (hnode : node.part = .sysfs) :
      Touches [.sysfs] tv (tv.tvWriteSysfs ans node value).2 :=
    hnode ▸ touches_tvWriteSysfs ans tv node value
  cases needColor
  · exact ((hwrite tv .testScreen _ rfl).trans (hwrite _ .disableVideo _ rfl)).mono rfl
  · exact ((hwrite tv .disableVideo _ rfl).trans (hwrite _ .testScreen _ rfl)).mono rfl

theorem touches_setVideoLayerStatus (status : Int32) :
    Touches [.amVideo] tv (tv.setVideoLayerStatus ans status).2 :=
  touches_perform tv (.amVideo (.setVideoDisableMode status) _)

theorem touches_setVideoGlobalOutputMode (mode : Int32) :
    Touches [.amVideo] tv (tv.setVideoGlobalOutputMode ans mode).2 :=
  touches_perform tv (.amVideo (.setVideoOutput mode) _)

theorem touches_hdmiRxEdidUpdate : Touches [.edidUpdate] tv (tv.hdmiRxEdidUpdate ans).2 :=
  touches_perform tv (.edidUpdate ans.edidUpdate)

theorem touches_hdmiRxEdidDataSwitch (data : List UInt8) :
    Touches [.edidData] tv (tv.hdmiRxEdidDataSwitch ans data).2 := by
  rw [hdmiRxEdidDataSwitch]
  split
  · exact touches_perform tv (.writeEdid _ ans.edidWrite)
  · exact .refl _ _

theorem touches_hdmiRxEdidVerSwitch (verValue : UInt32) :
    Touches [.edidSelect] tv (tv.hdmiRxEdidVerSwitch ans verValue).2 := by
  rw [hdmiRxEdidVerSwitch]
  split
  · exact touches_perform tv (.writeEdidSelect (CText.hexText verValue) ans.edidSelectWrite)
  · exact .refl _ _

theorem touches_createAudioPatch (deviceType : AudioDeviceIn) :
    Touches [.audioPatch, .audio] tv (tv.createAudioPatch ans deviceType) := by
  have hassign (tv : CTv) (audio : CTvAudio) : Touches [.audio] tv (tv.setAudio audio) :=
    touches_update tv (.setAudio audio)
  rw [createAudioPatch]
  split
  · exact (touches_perform tv (.createAudioPatch deviceType _)).trans (hassign _ _)
  · exact (hassign tv _).mono rfl

theorem touches_releaseAudioPatch :
    Touches [.audioPatch, .audio] tv (tv.releaseAudioPatch ans) := by
  have hassign (tv : CTv) (audio : CTvAudio) : Touches [.audio] tv (tv.setAudio audio) :=
    touches_update tv (.setAudio audio)
  rw [releaseAudioPatch]
  split
  · exact (touches_perform tv (.releaseAudioPatch _ _)).trans (hassign _ _)
  · exact (hassign tv _).mono rfl

theorem touches_setSnowShowEnable (enable : Bool) :
    Touches [.lastScreenMode, .screenMode, .snow, .afeFd, .vdinFd] tv
      (tv.setSnowShowEnable ans enable).2 := by
  have hwrite (tv : CTv) (value : Int32) :
      Touches [.screenMode] tv (tv.setVideoScreenMode ans value) :=
    touches_tvWriteSysfs ans tv .screenMode (CText.decText value)
  have hsave := touches_update tv (.setLastScreenMode (getVideoScreenMode ans))
  cases enable
  · exact ((hwrite tv _).trans (touches_tvinSwitchSnow ans _ false)).mono rfl
  · exact (hsave.trans (hwrite _ 1)).trans (touches_tvinSwitchSnow ans _ true)

theorem touches_sendTvEvent (event : CTvEvent) : Touches [.tvEvent] tv (tv.sendTvEvent event) := by
  rw [sendTvEvent]
  split
  · exact touches_perform tv (.tvEvent event)
  · exact .refl _ _

/-! ## Commands -/

/-- The footprint of `startTv`. -/
def startParts : List Part := [.sysfs, .vdinFd, .openPort, .source, .audioPatch, .audio]

/-- The footprint of `stopTv`. -/
def stopParts : List Part :=
  [.audioPatch, .audio, .amVideo, .vdinFd, .stopDec, .decoder, .closePort, .workMode, .source,
    .signalInfo]

/-- The footprint of `setEdidVersion`. -/
def edidVersionParts : List Part :=
  [.vdinFd, .stopDec, .decoder, .edidSelect, .edidUpdate, .edidVersions]

/-- The footprint of `loadEdidData`. -/
def edidDataParts : List Part := [.vdinFd, .stopDec, .decoder, .edidData, .edidSelect]

/-- The footprint of the handlers of a status report that show no snow. -/
def snowlessParts : List Part :=
  [.log, .params, .vdinFd, .startDec, .stopDec, .decoder, .amVideo, .tvEvent, .sysfs]

/-- The footprint of the handlers of a status report. -/
def reportParts : List Part :=
  [.log, .params, .vdinFd, .startDec, .stopDec, .decoder, .amVideo, .tvEvent, .sysfs,
    .lastScreenMode, .screenMode, .snow, .afeFd]

/-- The footprint of a command. -/
def Command.parts : Command → List Part
  | startTv _ => startParts
  | stopTv _ => stopParts
  | switchSource _ => stopParts ++ startParts
  | setEdidVersion _ _ => edidVersionParts
  | loadEdidData _ _ => edidDataParts
  | setVdinWorkMode _ => [.workMode]
  | getFrontendInfo _ | getColorRangeMode => [.vdinFd, .vdinQuery]
  | sourceConnect _ _ => [.tvEvent]
  | vdinSignalChange => .vdinQuery :: .signalInfo :: reportParts

/-- The state in which `startTv` opens the port: the test screen and the synchronization are
set. -/
def prepare (source : SourceInput) : CTv :=
  let tv := if source = sourceDtv then (tv.vppSetVideoColor ans true).2 else tv
  if source ≠ sourceDtv then
    ((tv.tvWriteSysfs ans .tsyncEnable ['0']).2.tvWriteSysfs ans .tsyncMode ['0']).2
  else (tv.tvWriteSysfs ans .freerunMode ['0']).2

theorem touches_prepare (source : SourceInput) : Touches [.sysfs] tv (tv.prepare ans source) := by
  have hcolor : Touches [.sysfs] tv
      (if source = sourceDtv then (tv.vppSetVideoColor ans true).2 else tv) := by
    split
    · exact touches_vppSetVideoColor ans tv true
    · exact .refl _ _
  have hsync (tv : CTv) : Touches [.sysfs] tv
      (if source ≠ sourceDtv then
        ((tv.tvWriteSysfs ans .tsyncEnable ['0']).2.tvWriteSysfs ans .tsyncMode ['0']).2
      else (tv.tvWriteSysfs ans .freerunMode ['0']).2) := by
    split
    · have henable := touches_tvWriteSysfs ans tv .tsyncEnable ['0']
      exact (henable.trans (touches_tvWriteSysfs ans _ .tsyncMode ['0'])).mono rfl
    · exact touches_tvWriteSysfs ans tv .freerunMode ['0']
  exact (hcolor.trans (hsync _)).mono rfl

/-- No update moves a source to another port. -/
theorem tvinGetSourcePortBySourceInput_of_touches {parts : List Part} {tv tv' : CTv}
    (h : Touches parts tv tv') (source : SourceInput) :
    tv'.tvinGetSourcePortBySourceInput source = tv.tvinGetSourcePortBySourceInput source := by
  have hmap : DependsOn mSourceInputToPortMap [] := by
    intro tv u _
    cases u with
    | storeEdidVersion source edidVer =>
      exact storeEdidVersion_keeps mSourceInputToPortMap tv (fun _ _ _ _ => rfl) source edidVer
    | _ => rfl
  have hports : tv'.mSourceInputToPortMap = tv.mSourceInputToPortMap :=
    h.frame hmap (by simp [Footprint.avoids])
  rw [tvinGetSourcePortBySourceInput, tvinGetSourcePortBySourceInput, hports]

/-- The ioctl of `startTv` that opens the port: its result, and the state behind it. -/
def opened (source : SourceInput) : Int32 × CTv :=
  (tv.prepare ans source).vdinDeviceIOCtl ans
    (.openPort (tv.tvinGetSourcePortBySourceInput source))

theorem startTv_eq_opened (source : SourceInput) : tv.startTv ans source =
    ((tv.opened ans source).1,
      let tv := (tv.opened ans source).2.setCurrentSource source
      if source = sourceMpeg then tv
      else tv.createAudioPatch ans (mapSourcetoAudiotupe source)) := by
  have hport := tvinGetSourcePortBySourceInput_of_touches (touches_prepare ans tv source) source
  rw [opened, ← hport]
  exact (apply_ite (Prod.mk _) _ _ _).symm

/-- Behind the ioctl that opens the port the source is recorded and the audio patched. -/
theorem touches_startTv_of_opened (source : SourceInput) :
    Touches [.source, .audioPatch, .audio] (tv.opened ans source).2 (tv.startTv ans source).2 := by
  have hsource : Touches [.source] (tv.opened ans source).2
      ((tv.opened ans source).2.setCurrentSource source) :=
    touches_update _ (.setCurrentSource source)
  rw [startTv_eq_opened]
  dsimp only
  split
  · exact hsource.mono rfl
  · exact hsource.trans (touches_createAudioPatch ans _ _)

theorem touches_startTv (source : SourceInput) :
    Touches startParts tv (tv.startTv ans source).2 := by
  have hopened := (touches_prepare ans tv source).trans (touches_vdinDeviceIOCtl ans _
    (.openPort (tv.tvinGetSourcePortBySourceInput source)))
  exact (hopened.trans (touches_startTv_of_opened ans tv source)).mono rfl

/-- The state in which `stopTv` stops the decoder: the audio patch is released and the layer
disabled. -/
def mute : CTv :=
  (((tv.releaseAudioPatch ans).setVideoLayerStatus ans
    videoLayerStatusDisable).2.setVideoGlobalOutputMode ans videoGlobalOutputModeDisable).2

theorem touches_mute : Touches [.audioPatch, .audio, .amVideo] tv (tv.mute ans) := by
  have hlayer := (touches_releaseAudioPatch ans tv).trans
    (touches_setVideoLayerStatus ans _ videoLayerStatusDisable)
  exact (hlayer.trans (touches_setVideoGlobalOutputMode ans _ _)).mono rfl

/-- The state behind the ioctl of `stopTv` that closes the port. -/
def closed : CTv := (((tv.mute ans).tvinStopDecoder ans).2.vdinDeviceIOCtl ans .closePort).2

/-- Behind the ioctl that closes the port the source and its signal are reset. -/
theorem touches_stopTv_of_closed (source : SourceInput) :
    Touches [.workMode, .source, .signalInfo] (tv.closed ans) (tv.stopTv ans source).2 := by
  have hmode := touches_update (tv.closed ans) (.assignVdinWorkMode vdinWorkModeVfm)
  have hsource := hmode.trans (touches_update _ (.setCurrentSource sourceInvalid))
  exact hsource.trans (touches_setCurrenSourceInfo _ noSignalInfo)

theorem touches_stopTv (source : SourceInput) : Touches stopParts tv (tv.stopTv ans source).2 := by
  have hstopped := (touches_mute ans tv).trans (touches_tvinStopDecoder ans _)
  have hclosed := hstopped.trans (touches_vdinDeviceIOCtl ans _ .closePort)
  exact (hclosed.trans (touches_stopTv_of_closed ans tv source)).mono rfl

theorem touches_switchSource (destSource : SourceInput) :
    Touches (stopParts ++ startParts) tv (tv.switchSource ans destSource).2 := by
  rw [switchSource]
  split
  · exact (touches_stopTv ans tv _).trans (touches_startTv ans _ destSource)
  · exact .refl _ _

/-- A version that is not the stored one is written behind the stop of the decoder, with the update
of the current source and the store. -/
theorem touches_setEdidVersion_of_ne {source : SourceInput} {edidVer : UInt32}
    (hne : tv.getEdidVersion source ≠ edidVer) :
    Touches [.edidSelect, .edidUpdate, .edidVersions] (tv.tvinStopDecoder ans).2
      (tv.setEdidVersion ans source edidVer).2 := by
  have hwrite := fun value => touches_hdmiRxEdidVerSwitch ans (tv.tvinStopDecoder ans).2 value
  have hstore := fun tv => touches_storeEdidVersion tv source edidVer
  rw [setEdidVersion, if_pos hne]
  dsimp only
  split_ifs
  · exact .mono ((hwrite _).trans (touches_hdmiRxEdidUpdate ans _)) rfl
  · exact .mono (hwrite _) rfl
  · exact .mono (((hwrite _).trans (touches_hdmiRxEdidUpdate ans _)).trans (hstore _)) rfl
  · exact .mono ((hwrite _).trans (hstore _)) rfl

theorem touches_setEdidVersion (source : SourceInput) (edidVer : UInt32) :
    Touches edidVersionParts tv (tv.setEdidVersion ans source edidVer).2 := by
  by_cases hne : tv.getEdidVersion source ≠ edidVer
  · exact .mono ((touches_tvinStopDecoder ans tv).trans
      (touches_setEdidVersion_of_ne ans tv hne)) rfl
  · rw [setEdidVersion, if_neg hne]
    exact .refl _ _

theorem touches_blackScreen (isNeedBlackScreen : Int32) : Touches [.vdinFd, .stopDec, .decoder] tv
    (if isNeedBlackScreen = 1 then (tv.tvinStopDecoder ans).2 else tv) := by
  split
  · exact touches_tvinStopDecoder ans tv
  · exact .refl _ _

theorem touches_loadEdidData (isNeedBlackScreen isDolbyVisionEnable : Int32) :
    Touches edidDataParts tv
      (tv.loadEdidData ans isNeedBlackScreen isDolbyVisionEnable).2 := by
  have hstop := touches_blackScreen ans tv isNeedBlackScreen
  rw [loadEdidData]
  generalize (if isNeedBlackScreen = 1 then (tv.tvinStopDecoder ans).2 else tv) = stopped
    at hstop ⊢
  generalize edidLoadBuf ans _ _ = data
  have hdata := hstop.trans (touches_hdmiRxEdidDataSwitch ans stopped data)
  split
  · exact (hdata.trans (touches_hdmiRxEdidVerSwitch ans _ _)).mono rfl
  · exact hdata.mono rfl

/-- The state in which the constructor sets the signal info: the ports are loaded. -/
def configured (boot : Boot) : CTv :=
  ((allocate boot).loadATVDisplaySnow.tvinAddVideoPath ans).2.tvinLoadSourceInputToPortMap

theorem touches_construct (boot : Boot) :
    Touches (.signalInfo :: edidDataParts) (configured ans boot) (construct ans boot) := by
  have hinfo := touches_setCurrenSourceInfo (configured ans boot) noSignalInfo
  rw [construct]
  split
  · exact hinfo.trans (touches_loadEdidData ans _ 0 _)
  · exact hinfo.mono rfl

/-! ## Vdin events -/

/-- The snow is shown for a missing signal only, where it is asked for. -/
theorem touches_onSigTo_of_no_snow {status : UInt32}
    (h : ¬ (status = tvinSigStatusNosig ∧ tv.needSnowEffect = true)) :
    Touches snowlessParts tv (tv.onSigTo ans status) := by
  have hstart := fun tv => touches_tvinStartDecoder ans tv tv.mCurrentSignalInfo
  have hlayer (tv : CTv) := touches_setVideoLayerStatus ans tv videoLayerStatusEnable
  have houtput (tv : CTv) := touches_setVideoGlobalOutputMode ans tv videoGlobalOutputModeEnable
  have hsend := fun tv : CTv => touches_sendTvEvent tv tv.signalDetectEvent
  unfold onSigTo
  split_ifs with _ _ _ hnosig
  · have hshown := (((touches_log tv .onSigToStable).trans (hstart _)).trans (hlayer _)).trans
      (houtput _)
    exact (hshown.trans (hsend _)).mono rfl
  · have hstopped := touches_tvinStopDecoder ans tv
    exact (hstopped.trans (touches_log _ .onSigToUnstable)).mono rfl
  · have hstopped := (touches_log tv .onSigToUnSupport).trans (touches_tvinStopDecoder ans _)
    exact (hstopped.trans (hsend _)).mono rfl
  · have hneed : (tv.perform (.log .onSigToNoSig)).needSnowEffect ≠ true :=
      fun hneed => h ⟨hnosig, hneed⟩
    have hcolor := (touches_log tv .onSigToNoSig).trans (touches_vppSetVideoColor ans _ false)
    rw [onSigToNoSig, if_neg hneed]
    exact ((hcolor.trans (touches_tvinStopDecoder ans _)).trans (hsend _)).mono rfl
  · exact (touches_log tv .invalidSignalStatus).mono rfl

/-- What the handler of a missing signal does behind the snow. -/
theorem touches_onSigTo_of_snow (hneed : tv.needSnowEffect = true) :
    Touches snowlessParts ((tv.perform (.log .onSigToNoSig)).setSnowShowEnable ans true).2
      (tv.onSigTo ans tvinSigStatusNosig) := by
  have harm : tv.onSigTo ans tvinSigStatusNosig = tv.onSigToNoSig ans := rfl
  have hneed' : (tv.perform (.log .onSigToNoSig)).needSnowEffect = true := hneed
  let shown := ((tv.perform (.log .onSigToNoSig)).setSnowShowEnable ans true).2
  have hlayer := (touches_tvinStartDecoder ans shown shown.mCurrentSignalInfo).trans
    (touches_setVideoLayerStatus ans _ videoLayerStatusEnable)
  have hcolor := hlayer.trans (touches_vppSetVideoColor ans _ false)
  rw [harm, onSigToNoSig, if_pos hneed']
  exact (hcolor.trans (touches_sendTvEvent _ _)).mono rfl

theorem touches_onSigTo (status : UInt32) : Touches reportParts tv (tv.onSigTo ans status) := by
  by_cases hsnow : status = tvinSigStatusNosig ∧ tv.needSnowEffect = true
  · obtain ⟨rfl, hneed⟩ := hsnow
    have hshown := (touches_log tv .onSigToNoSig).trans (touches_setSnowShowEnable ans _ true)
    exact (hshown.trans (touches_onSigTo_of_snow ans tv hneed)).mono rfl
  · exact (touches_onSigTo_of_no_snow ans tv hsnow).mono rfl

theorem touches_onSigStatusChange :
    Touches (.vdinQuery :: .signalInfo :: reportParts) tv (tv.onSigStatusChange ans) := by
  have hquery := touches_tvinGetSignalInfo ans tv
  have hinfo := fun tv => touches_setCurrenSourceInfo tv ans.sigInfo
  rw [onSigStatusChange]
  split
  · exact hquery.mono rfl
  · exact .mono ((hquery.trans (hinfo _)).trans (touches_onSigTo ans _ _)) rfl

/-- The footprint of the arms that look at the signal info. -/
def infoParts : List Part := [.log, .vdinFd, .vdinQuery, .signalInfo]

theorem touches_onHdrInfoChange : Touches infoParts tv (tv.onHdrInfoChange ans) := by
  have hquery := (touches_log tv .hdrInfoChange).trans (touches_tvinGetSignalInfo ans _)
  unfold onHdrInfoChange
  dsimp only
  split_ifs
  · exact hquery.mono rfl
  · exact hquery.trans (touches_setCurrenSourceInfo _ _)
  · exact hquery.mono rfl

theorem touches_onAfdInfoChange (sourceType : SourceInputType) :
    Touches infoParts tv (tv.onAfdInfoChange ans sourceType) := by
  have hlog := touches_log tv .afdInfoChange
  have hquery := hlog.trans (touches_tvinGetSignalInfo ans _)
  unfold onAfdInfoChange
  dsimp only
  split_ifs
  · exact hquery.mono rfl
  · exact hquery.trans (touches_setCurrenSourceInfo _ _)
  · exact hquery.mono rfl
  · exact hlog.mono rfl

theorem touches_onVdinEvent (word : UInt32) :
    Touches (Command.parts .vdinSignalChange) tv (tv.onVdinEvent ans word) := by
  have hline (line : LogLine) :
      Touches (Command.parts .vdinSignalChange) tv (tv.perform (.log line)) :=
    (touches_log tv line).mono rfl
  unfold onVdinEvent
  dsimp only
  split_ifs
  · exact (touches_onHdrInfoChange ans tv).mono rfl
  · exact hline _
  · exact hline _
  · exact hline _
  · exact hline _
  · have hlog := touches_log tv .vdinSignalStatusChange
    exact (hlog.trans (touches_onSigStatusChange ans _)).mono rfl
  · exact (touches_onAfdInfoChange ans tv _).mono rfl
  · exact hline _
  · exact hline _

theorem touches_onVdinSignalChange :
    Touches (Command.parts .vdinSignalChange) tv (tv.onVdinSignalChange ans) := by
  have hquery := touches_tvinGetSignalEventInfo ans tv
  rw [onVdinSignalChange]
  split
  · exact hquery.mono rfl
  · exact (hquery.trans (touches_onVdinEvent ans _ ans.eventInfo)).mono rfl

/-- **The footprint of a step** is that of its command. -/
theorem touches_step (x : Command × Answers) : Touches x.1.parts tv (tv.step x) := by
  obtain ⟨command, ans⟩ := x
  cases command with
  | startTv source => exact touches_startTv ans tv source
  | stopTv source => exact touches_stopTv ans tv source
  | switchSource destSource => exact touches_switchSource ans tv destSource
  | setEdidVersion source edidVer => exact touches_setEdidVersion ans tv source edidVer
  | loadEdidData isNeedBlackScreen isDolbyVisionEnable =>
    exact touches_loadEdidData ans tv isNeedBlackScreen isDolbyVisionEnable
  | setVdinWorkMode vdinWorkMode => exact touches_update tv (.assignVdinWorkMode vdinWorkMode)
  | getFrontendInfo frontendInfo => exact touches_tvinGetFrontendInfo ans tv frontendInfo
  | getColorRangeMode => exact touches_tvinGetColorRangeMode ans tv
  | sourceConnect source connectStatus => exact touches_sendTvEvent tv _
  | vdinSignalChange => exact touches_onVdinSignalChange ans tv

end CTv
