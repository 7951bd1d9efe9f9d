import TvServer.Foundations.Hidden
import TvServer.Tv.DecoderProtocol
import TvServer.Tv.Edid

/-!
# The source before the first start

The constructor leaves the current source as the memory was. A client that starts or stops a source
assigns it, but a command or an event before that may read it: a switch of the source compares it, a
new EDID version asks for an update of its port, and the handlers of the events report it.

## Main definitions

* `operations`: the operations on the devices, and the events
* `readsSource`: the steps that read the current source
* `booted`: the television object of the service, with a value of the source

## Main results

* `setCurrentSource_step`: a step that does not read the source is the same for all values of it
* `hidden_source`: the steps that read the source can be observed
* `sourceHidden_iff`: the runs that do not depend on the initial source
-/

/-- Whether an action is an operation on a device or an event, and no line of the log. -/
def TvAction.isOperation : TvAction → Bool
  | .log _ => false
  | _ => true

/-- The source of a report that was sent. -/
def TvAction.reportedSource : TvAction → Option SourceInput
  | .tvEvent (.signalDetect event) => some event.mSourceInput
  | _ => none

namespace CTv

variable {ans : Answers} {tv : CTv} (v : SourceInput)

/-! ## Operations that do not read the source -/

theorem setCurrentSource_vdinDeviceIOCtl (request : VdinRequest) :
    (tv.setCurrentSource v).vdinDeviceIOCtl ans request =
      ((tv.vdinDeviceIOCtl ans request).1,
        (tv.vdinDeviceIOCtl ans request).2.setCurrentSource v) := by
  have hfd : (tv.setCurrentSource v).mVdin0DevFd = tv.mVdin0DevFd := rfl
  rw [vdinDeviceIOCtl_eq, vdinDeviceIOCtl_eq, hfd]
  split <;> rfl

theorem setCurrentSource_tvinStopDecoder :
    ((tv.setCurrentSource v).tvinStopDecoder ans).2 =
      (tv.tvinStopDecoder ans).2.setCurrentSource v := by
  rw [tvinStopDecoder, tvinStopDecoder, setCurrentSource_vdinDeviceIOCtl]
  have hflag : (tv.setCurrentSource v).mDecoderStarted = tv.mDecoderStarted := rfl
  rw [hflag]
  dsimp only
  split_ifs <;> rfl

theorem setCurrentSource_hdmiRxEdidVerSwitch (verValue : UInt32) :
    (tv.setCurrentSource v).hdmiRxEdidVerSwitch ans verValue =
      ((tv.hdmiRxEdidVerSwitch ans verValue).1,
        (tv.hdmiRxEdidVerSwitch ans verValue).2.setCurrentSource v) := by
  rw [hdmiRxEdidVerSwitch, hdmiRxEdidVerSwitch]
  split <;> rfl

theorem setCurrentSource_loadEdidData (isNeedBlackScreen isDolbyVisionEnable : Int32) :
    ((tv.setCurrentSource v).loadEdidData ans isNeedBlackScreen isDolbyVisionEnable).2 =
      (tv.loadEdidData ans isNeedBlackScreen isDolbyVisionEnable).2.setCurrentSource v := by
  have hstop : (if isNeedBlackScreen = 1 then ((tv.setCurrentSource v).tvinStopDecoder ans).2
      else tv.setCurrentSource v) =
        (if isNeedBlackScreen = 1 then (tv.tvinStopDecoder ans).2 else tv).setCurrentSource v := by
    split
    · exact setCurrentSource_tvinStopDecoder v
    · rfl
  have hload (tv : CTv) (data : List UInt8) :
      (tv.setCurrentSource v).hdmiRxEdidDataSwitch ans data =
        ((tv.hdmiRxEdidDataSwitch ans data).1,
          (tv.hdmiRxEdidDataSwitch ans data).2.setCurrentSource v) := by
    rw [hdmiRxEdidDataSwitch, hdmiRxEdidDataSwitch]
    split <;> rfl
  rw [loadEdidData, loadEdidData, hstop]
  generalize (if isNeedBlackScreen = 1 then (tv.tvinStopDecoder ans).2 else tv) = stopped
  -- the configuration and the stored versions are read, but not the source
  have hstr (sectionName key default : List Char) :
      (stopped.setCurrentSource v).configGetStr sectionName key default =
        stopped.configGetStr sectionName key default := rfl
  rw [hstr, hstr, hload]
  generalize edidLoadBuf ans _ _ = data
  generalize stopped.hdmiRxEdidDataSwitch ans data = loaded
  have hvalue : (loaded.2.setCurrentSource v).edidSetValue
      (loaded.2.setCurrentSource v).getEdidVersion =
        loaded.2.edidSetValue loaded.2.getEdidVersion := rfl
  dsimp only
  split
  · rw [hvalue, setCurrentSource_hdmiRxEdidVerSwitch]
  · rfl

/-- The constructor does not read the source. -/
theorem construct_setCurrentSource (ans : Answers) (boot : Boot) :
    construct ans { boot with mCurrentSource := v } = (construct ans boot).setCurrentSource v := by
  have hconfigured : (configured ans { boot with mCurrentSource := v }).setCurrenSourceInfo
      noSignalInfo = ((configured ans boot).setCurrenSourceInfo noSignalInfo).setCurrentSource v :=
    rfl
  have hconstruct (boot : Boot) : construct ans boot =
      let tv := (configured ans boot).setCurrenSourceInfo noSignalInfo
      if tv.configGetInt cfgSectionHdmi "edid.data.auto.load.en".toList 1 = 1 then
        (tv.loadEdidData ans 0 (if ans.dolbyVisionEnable = ['Y'] then 1 else 0)).2
      else tv := rfl
  have hint (tv : CTv) (sectionName key : List Char) (default : Int32) :
      (tv.setCurrentSource v).configGetInt sectionName key default =
        tv.configGetInt sectionName key default := rfl
  rw [hconstruct, hconstruct, hconfigured]
  dsimp only
  rw [hint, setCurrentSource_loadEdidData]
  split <;> rfl

theorem setCurrentSource_startTv (source : SourceInput) :
    (tv.setCurrentSource v).startTv ans source = tv.startTv ans source := by
  have hprepare : (tv.setCurrentSource v).prepare ans source =
      (tv.prepare ans source).setCurrentSource v := by
    unfold prepare
    split_ifs <;> rfl
  have hport : (tv.setCurrentSource v).tvinGetSourcePortBySourceInput source =
      tv.tvinGetSourcePortBySourceInput source := rfl
  -- the start assigns the source, and the value is forgotten
  have hassign (tv : CTv) :
      (tv.setCurrentSource v).setCurrentSource source = tv.setCurrentSource source := rfl
  rw [startTv_eq_opened, startTv_eq_opened, opened, opened, hprepare, hport,
    setCurrentSource_vdinDeviceIOCtl]
  dsimp only
  rw [hassign]

theorem setCurrentSource_stopTv (source : SourceInput) :
    (tv.setCurrentSource v).stopTv ans source = tv.stopTv ans source := by
  have hmute : (tv.setCurrentSource v).mute ans = (tv.mute ans).setCurrentSource v := by
    have haudio : (tv.setCurrentSource v).audioInstance ans = tv.audioInstance ans := rfl
    have hrelease : (tv.setCurrentSource v).releaseAudioPatch ans =
        (tv.releaseAudioPatch ans).setCurrentSource v := by
      rw [releaseAudioPatch, releaseAudioPatch, haudio]
      split <;> rfl
    rw [mute, mute, hrelease]
    rfl
  have hclosed : (tv.setCurrentSource v).closed ans = (tv.closed ans).setCurrentSource v := by
    rw [closed, closed, hmute, setCurrentSource_tvinStopDecoder, setCurrentSource_vdinDeviceIOCtl]
  have hstop (tv : CTv) : tv.stopTv ans source = (0, (((tv.closed ans).assignVdinWorkMode
      vdinWorkModeVfm).setCurrentSource sourceInvalid).setCurrenSourceInfo noSignalInfo) := rfl
  -- the stop resets the source, and the value is forgotten
  rw [hstop, hstop, hclosed]
  rfl

/-! ## Reading the source -/

/-- Whether a step starts or stops a source, whatever the current one is. -/
def assignsSource : Command × Answers → Bool
  | (.startTv _, _) | (.stopTv _, _) => true
  | _ => false

/-- Whether a step reads the current source: a switch of the source, a new EDID version, a report
that the observer is told of, or a change of the aspect ratio. -/
def readsSource (tv : CTv) : Command × Answers → Bool
  | (.switchSource _, _) => true
  | (.setEdidVersion source edidVer, _) => tv.getEdidVersion source ≠ edidVer
  | (.vdinSignalChange, ans) =>
    match tv.report ans with
    | some info =>
      info.status = tvinSigStatusStable ∨ info.status = tvinSigStatusNotsup ∨
        info.status = tvinSigStatusNosig
    | none => 0 ≤ (tv.tvinGetSignalEventInfo ans).1 ∧ ans.eventInfo = tvinSigChgAfd
  | _ => false

theorem setCurrentSource_report : (tv.setCurrentSource v).report ans = tv.report ans := by
  rw [report, report, tvinGetSignalEventInfo, setCurrentSource_vdinDeviceIOCtl]
  rfl

theorem setCurrentSource_onHdrInfoChange : (tv.setCurrentSource v).onHdrInfoChange ans =
    (tv.onHdrInfoChange ans).setCurrentSource v := by
  have hlog : (tv.setCurrentSource v).perform (.log .hdrInfoChange) =
      (tv.perform (.log .hdrInfoChange)).setCurrentSource v := rfl
  rw [onHdrInfoChange, onHdrInfoChange, hlog, tvinGetSignalInfo, tvinGetSignalInfo,
    setCurrentSource_vdinDeviceIOCtl]
  have hinfo (tv : CTv) :
      (tv.setCurrentSource v).mCurrentSignalInfo = tv.mCurrentSignalInfo := rfl
  generalize (tv.perform (.log .hdrInfoChange)).vdinDeviceIOCtl ans .getSigInfo = info
  dsimp only
  rw [hinfo]
  split_ifs <;> rfl

/-- Of the handlers of a report those that tell no one do not read the source. -/
theorem setCurrentSource_onSigTo {status : UInt32} (hstable : status ≠ tvinSigStatusStable)
    (hnotsup : status ≠ tvinSigStatusNotsup) (hnosig : status ≠ tvinSigStatusNosig) :
    (tv.setCurrentSource v).onSigTo ans status = (tv.onSigTo ans status).setCurrentSource v := by
  rw [onSigTo, onSigTo, if_neg hstable, if_neg hstable, if_neg hnotsup, if_neg hnotsup,
    if_neg hnosig, if_neg hnosig]
  split
  · rw [onSigToUnstable, setCurrentSource_tvinStopDecoder]
    rfl
  · rfl

theorem setCurrentSource_recorded : (tv.setCurrentSource v).recorded ans =
    (tv.recorded ans).setCurrentSource v := by
  have hlog (tv : CTv) : (tv.setCurrentSource v).perform (.log .vdinSignalStatusChange) =
      (tv.perform (.log .vdinSignalStatusChange)).setCurrentSource v := rfl
  rw [recorded, recorded, tvinGetSignalEventInfo, setCurrentSource_vdinDeviceIOCtl]
  dsimp only
  rw [hlog, tvinGetSignalInfo, setCurrentSource_vdinDeviceIOCtl]
  rfl

/-- An event that delivers no report does not read the source, unless the aspect ratio changes. -/
theorem setCurrentSource_onVdinSignalChange_of_no_report (h : tv.report ans = none)
    (hafd : 0 ≤ (tv.tvinGetSignalEventInfo ans).1 → ans.eventInfo ≠ tvinSigChgAfd) :
    (tv.setCurrentSource v).onVdinSignalChange ans =
      (tv.onVdinSignalChange ans).setCurrentSource v := by
  have hevent : (tv.setCurrentSource v).tvinGetSignalEventInfo ans =
      ((tv.tvinGetSignalEventInfo ans).1,
        (tv.tvinGetSignalEventInfo ans).2.setCurrentSource v) :=
    setCurrentSource_vdinDeviceIOCtl v .getEventInfo
  have hlog (tv : CTv) (line : LogLine) : (tv.setCurrentSource v).perform (.log line) =
      (tv.perform (.log line)).setCurrentSource v := rfl
  rw [onVdinSignalChange, onVdinSignalChange, hevent]
  dsimp only
  split
  · rfl
  · rename_i hret
    have hpos : 0 ≤ (tv.tvinGetSignalEventInfo ans).1 := Int32.not_lt.mp hret
    by_cases hsts : ans.eventInfo = tvinSigChgSts
    · -- an event of the signal status is dropped, as its signal info cannot be read
      have hfail := signalInfo_fails_of_no_report h hpos hsts
      have hinfo (tv : CTv) : (tv.setCurrentSource v).tvinGetSignalInfo ans =
          ((tv.tvinGetSignalInfo ans).1, (tv.tvinGetSignalInfo ans).2.setCurrentSource v) :=
        setCurrentSource_vdinDeviceIOCtl v .getSigInfo
      have hfail' : ((((tv.tvinGetSignalEventInfo ans).2.setCurrentSource v).perform
          (.log .vdinSignalStatusChange)).tvinGetSignalInfo ans).1 < 0 := by
        rw [hlog, hinfo]
        exact hfail
      rw [hsts, onVdinEvent_of_fails hfail, onVdinEvent_of_fails hfail', hlog, hinfo]
    · have hword := hafd hpos
      generalize (tv.tvinGetSignalEventInfo ans).2 = read
      unfold onVdinEvent
      dsimp only
      split_ifs
      · exact setCurrentSource_onHdrInfoChange v
      -- the other words are logged at most
      all_goals rfl

/-- **A step that does not read the source** is the same for all values of it. -/
theorem setCurrentSource_step {x : Command × Answers} (hassigns : assignsSource x = false)
    (hreads : tv.readsSource x = false) :
    (tv.setCurrentSource v).step x = (tv.step x).setCurrentSource v := by
  obtain ⟨command, ans⟩ := x
  cases command with
  | startTv source => cases hassigns
  | stopTv source => cases hassigns
  | switchSource destSource => cases hreads
  | setEdidVersion source edidVer =>
    have hsame : ¬ tv.getEdidVersion source ≠ edidVer := of_decide_eq_false hreads
    have hsame' : ¬ (tv.setCurrentSource v).getEdidVersion source ≠ edidVer := hsame
    show ((tv.setCurrentSource v).setEdidVersion ans source edidVer).2 =
      (tv.setEdidVersion ans source edidVer).2.setCurrentSource v
    rw [setEdidVersion, setEdidVersion, if_neg hsame, if_neg hsame']
  | loadEdidData isNeedBlackScreen isDolbyVisionEnable => exact setCurrentSource_loadEdidData v _ _
  | setVdinWorkMode vdinWorkMode => rfl
  | getFrontendInfo frontendInfo =>
    show ((tv.setCurrentSource v).tvinGetFrontendInfo ans frontendInfo).2 =
      (tv.tvinGetFrontendInfo ans frontendInfo).2.setCurrentSource v
    rw [tvinGetFrontendInfo, tvinGetFrontendInfo, setCurrentSource_vdinDeviceIOCtl]
    generalize tv.vdinDeviceIOCtl ans .getFrontendInfo = info
    have hfd : (info.2.setCurrentSource v).mVdin0DevFd = info.2.mVdin0DevFd := rfl
    dsimp only
    rw [hfd]
    split <;> rfl
  | getColorRangeMode =>
    show ((tv.setCurrentSource v).tvinGetColorRangeMode ans).2 =
      (tv.tvinGetColorRangeMode ans).2.setCurrentSource v
    rw [tvinGetColorRangeMode, tvinGetColorRangeMode, setCurrentSource_vdinDeviceIOCtl]
    generalize tv.vdinDeviceIOCtl ans .getColorRange = range
    have hfd : (range.2.setCurrentSource v).mVdin0DevFd = range.2.mVdin0DevFd := rfl
    dsimp only
    rw [hfd]
    split <;> rfl
  | sourceConnect source connectStatus =>
    show (tv.setCurrentSource v).sendTvEvent _ = (tv.sendTvEvent _).setCurrentSource v
    rw [sendTvEvent, sendTvEvent]
    have hobserver : (tv.setCurrentSource v).mpObserver = tv.mpObserver := rfl
    rw [hobserver]
    split <;> rfl
  | vdinSignalChange =>
    show (tv.setCurrentSource v).onVdinSignalChange ans =
      (tv.onVdinSignalChange ans).setCurrentSource v
    rw [readsSource] at hreads
    cases hreport : tv.report ans with
    | none =>
      rw [hreport] at hreads
      apply setCurrentSource_onVdinSignalChange_of_no_report v hreport
      exact fun hpos hword => of_decide_eq_false hreads ⟨hpos, hword⟩
    | some info =>
      rw [hreport] at hreads
      obtain ⟨hstable, hrest⟩ := not_or.mp (of_decide_eq_false hreads)
      obtain ⟨hnotsup, hnosig⟩ := not_or.mp hrest
      have hreport' : (tv.setCurrentSource v).report ans = some info :=
        (setCurrentSource_report v).trans hreport
      rw [onVdinSignalChange_of_report hreport, onVdinSignalChange_of_report hreport',
        setCurrentSource_recorded, setCurrentSource_onSigTo v hstable hnotsup hnosig]

/-! ## Telling the sources apart -/

/-- The operations on the devices, and the events that were sent. -/
def operations (tv : CTv) : List TvAction := tv.trace.filter TvAction.isOperation

/-- Operations are not undone. -/
theorem operations_length_le_of_touches {parts : List Part} {tv' : CTv}
    (h : Touches parts tv tv') : tv.operations.length ≤ tv'.operations.length :=
  ((trace_prefix_of_touches h).filter _).length_le

theorem operations_perform (tv : CTv) (action : TvAction) :
    (tv.perform action).operations =
      tv.operations ++ if action.isOperation then [action] else [] := by
  show (tv.trace ++ [action]).filter _ = _
  rw [List.filter_append, List.filter_singleton]
  cases action.isOperation <;> rfl

/-- A stop of the source performs operations. -/
theorem operations_stopTv_lt (tv : CTv) (ans : Answers) (source : SourceInput) :
    tv.operations.length < (tv.stopTv ans source).2.operations.length := by
  have hrelease := operations_length_le_of_touches (touches_releaseAudioPatch ans tv)
  let disabled := ((tv.releaseAudioPatch ans).setVideoLayerStatus ans videoLayerStatusDisable).2
  have hlayer : disabled.operations = (tv.releaseAudioPatch ans).operations ++ _ :=
    operations_perform _ _
  have hrest := (((touches_setVideoGlobalOutputMode ans disabled
    videoGlobalOutputModeDisable).trans (touches_tvinStopDecoder ans _)).trans
      (touches_vdinDeviceIOCtl ans _ .closePort)).trans (touches_stopTv_of_closed ans tv source)
  have hbehind := operations_length_le_of_touches hrest
  rw [hlayer, List.length_append] at hbehind
  exact Nat.lt_of_lt_of_le (Nat.lt_succ_of_le hrelease) hbehind

theorem operations_startTv_le (tv : CTv) (ans : Answers) (source : SourceInput) :
    tv.operations.length ≤ (tv.startTv ans source).2.operations.length :=
  operations_length_le_of_touches (touches_startTv ans tv source)

/-- A switch of the source tells whether the destination is the current source. -/
theorem tells_switchSource (destSource : SourceInput) : ∃ v v' : SourceInput,
    ((tv.setCurrentSource v).switchSource ans destSource).2.operations ≠
      ((tv.setCurrentSource v').switchSource ans destSource).2.operations := by
  obtain ⟨v', hv'⟩ : ∃ v' : SourceInput, destSource ≠ v' := by
    by_cases htv : destSource = sourceTv
    · exact ⟨sourceInvalid, by rw [htv]; decide⟩
    · exact ⟨sourceTv, htv⟩
  refine ⟨destSource, v', fun hsame => ?_⟩
  have hstay : ((tv.setCurrentSource destSource).switchSource ans destSource).2 =
      tv.setCurrentSource destSource := by
    have hcurrent : (tv.setCurrentSource destSource).mCurrentSource = destSource := rfl
    rw [switchSource, hcurrent, if_neg (not_not_intro rfl)]
  have hne : destSource ≠ (tv.setCurrentSource v').mCurrentSource := hv'
  rw [hstay, switchSource, if_pos hne] at hsame
  -- the other run stops its source and starts the destination
  have hlt := Nat.lt_of_lt_of_le ((tv.setCurrentSource v').operations_stopTv_lt ans v')
    (operations_startTv_le _ ans destSource)
  exact absurd (congrArg List.length hsame) (Nat.ne_of_lt hlt)

/-- A new EDID version tells whether its source is the current one, which asks for an update. -/
theorem tells_setEdidVersion {source : SourceInput} {edidVer : UInt32}
    (hne : tv.getEdidVersion source ≠ edidVer) : ∃ v v' : SourceInput,
    ((tv.setCurrentSource v).setEdidVersion ans source edidVer).2.operations ≠
      ((tv.setCurrentSource v').setEdidVersion ans source edidVer).2.operations := by
  obtain ⟨v', hv'⟩ : ∃ v' : SourceInput, v' ≠ source := by
    by_cases htv : source = sourceTv
    · exact ⟨sourceInvalid, by rw [htv]; decide⟩
    · exact ⟨sourceTv, Ne.symm htv⟩
  let switch := (tv.tvinStopDecoder ans).2.hdmiRxEdidVerSwitch ans
    (tv.newEdidSetValue source edidVer)
  have hoperations (v : SourceInput) :
      ((tv.setCurrentSource v).setEdidVersion ans source edidVer).2.operations =
        switch.2.operations ++ if v = source then [.edidUpdate ans.edidUpdate] else [] := by
    have hstore (tv : CTv) : (tv.storeEdidVersion source edidVer).operations = tv.operations :=
      storeEdidVersion_keeps operations tv (fun _ _ _ _ => rfl) source edidVer
    have hne' : (tv.setCurrentSource v).getEdidVersion source ≠ edidVer := hne
    have hvalue : (tv.setCurrentSource v).newEdidSetValue source edidVer =
        tv.newEdidSetValue source edidVer := rfl
    have hcurrent (tv : CTv) : (tv.setCurrentSource v).mCurrentSource = v := rfl
    have hupdate : (if v = source then ((switch.2.setCurrentSource v).hdmiRxEdidUpdate ans).2
        else switch.2.setCurrentSource v).operations =
          switch.2.operations ++ if v = source then [.edidUpdate ans.edidUpdate] else [] := by
      split
      · exact operations_perform _ _
      · exact (List.append_nil _).symm
    rw [setEdidVersion_eq ans hne', setCurrentSource_tvinStopDecoder, hvalue,
      setCurrentSource_hdmiRxEdidVerSwitch, ← hupdate]
    dsimp only
    rw [hcurrent]
    split
    · rfl
    · exact hstore _
  -- one of the runs asks for an update, and the other does not
  refine ⟨source, v', fun hsame => ?_⟩
  rw [hoperations, hoperations, if_pos rfl, if_neg hv', List.append_nil] at hsame
  exact absurd (congrArg List.length hsame) (by simp)

/-- A change of the aspect ratio tells whether the current source is an HDMI source, whose signal
info is read. -/
theorem tells_aspectRatio (hevent : 0 ≤ (tv.tvinGetSignalEventInfo ans).1)
    (hafd : ans.eventInfo = tvinSigChgAfd) :
    ((tv.setCurrentSource sourceHdmi1).onVdinSignalChange ans).operations ≠
      ((tv.setCurrentSource sourceTv).onVdinSignalChange ans).operations := by
  let read := (tv.tvinGetSignalEventInfo ans).2
  have hopen : read.mVdin0DevFd = true := open_of_nonneg hevent
  have harm (v : SourceInput) : (tv.setCurrentSource v).onVdinSignalChange ans =
      (read.setCurrentSource v).onAfdInfoChange ans (tvinSourceInputToSourceInputType v) := by
    have hread : (tv.setCurrentSource v).tvinGetSignalEventInfo ans =
        ((tv.tvinGetSignalEventInfo ans).1, read.setCurrentSource v) :=
      setCurrentSource_vdinDeviceIOCtl v .getEventInfo
    rw [onVdinSignalChange, hread]
    dsimp only
    rw [if_neg (Int32.not_lt.mpr hevent), hafd]
    rfl
  -- for a television channel the event is only logged
  have htv : ((tv.setCurrentSource sourceTv).onVdinSignalChange ans).operations =
      read.operations := by
    rw [harm, onAfdInfoChange, if_neg (by decide)]
    exact (operations_perform _ _).trans (List.append_nil _)
  -- for an HDMI source its signal info is read, whatever comes of it
  have hhdmi : read.operations.length <
      ((tv.setCurrentSource sourceHdmi1).onVdinSignalChange ans).operations.length := by
    let logged := (read.setCurrentSource sourceHdmi1).perform (.log .afdInfoChange)
    have hlogged : logged.operations = read.operations :=
      (operations_perform _ _).trans (List.append_nil _)
    have hinfo : (logged.tvinGetSignalInfo ans).2.operations =
        read.operations ++ [.vdin .getSigInfo (ans.vdin .getSigInfo)] := by
      have hfd : logged.mVdin0DevFd = true := hopen
      rw [tvinGetSignalInfo, vdinDeviceIOCtl_of_open hfd, ← hlogged]
      exact operations_perform _ _
    have hlt : read.operations.length < (logged.tvinGetSignalInfo ans).2.operations.length := by
      rw [hinfo, List.length_append]
      exact Nat.lt_succ_self _
    rw [harm, onAfdInfoChange, if_pos (by decide)]
    dsimp only
    split_ifs <;> exact hlt
  intro hsame
  rw [hsame, htv] at hhdmi
  exact absurd hhdmi (Nat.lt_irrefl _)

theorem mpObserver_dependsOn : DependsOn mpObserver [] := by
  intro tv u _
  cases u with
  | storeEdidVersion source edidVer =>
    exact storeEdidVersion_keeps mpObserver tv (fun _ _ _ _ => rfl) source edidVer
  | _ => rfl

theorem mpObserver_of_touches {parts : List Part} {tv' : CTv} (h : Touches parts tv tv') :
    tv'.mpObserver = tv.mpObserver := h.frame mpObserver_dependsOn (by simp [Footprint.avoids])

/-- What the operations say about the last report. -/
theorem lastOf_operations (tv : CTv) :
    Journal.lastOf TvAction.reportedSource tv.operations =
      Journal.lastOf TvAction.reportedSource tv.trace := by
  rw [Journal.lastOf, Journal.lastOf, operations, List.filterMap_filter]
  congr 1
  apply List.filterMap_congr
  intro action _
  cases action <;> rfl

/-- An observer is told the current source. -/
theorem lastOf_sendTvEvent (hobserver : tv.mpObserver = true) :
    Journal.lastOf TvAction.reportedSource (tv.sendTvEvent tv.signalDetectEvent).operations =
      some tv.mCurrentSource := by
  rw [lastOf_operations, sendTvEvent, if_pos hobserver]
  exact Journal.lastOf_snoc _ _ _

/-- A report that the observer is told of names the current source. -/
theorem lastOf_onSigTo (hobserver : tv.mpObserver = true) {status : UInt32}
    (hstatus : status = tvinSigStatusStable ∨ status = tvinSigStatusNotsup ∨
      status = tvinSigStatusNosig) :
    Journal.lastOf TvAction.reportedSource (tv.onSigTo ans status).operations =
      some tv.mCurrentSource := by
  have hsend {parts : List Part} {tv' : CTv} (h : Touches parts tv tv')
      (hparts : Footprint.avoids parts [.source] = true) :
      Journal.lastOf TvAction.reportedSource
        (tv'.sendTvEvent tv'.signalDetectEvent).operations = some tv.mCurrentSource := by
    rw [lastOf_sendTvEvent ((mpObserver_of_touches h).trans hobserver)]
    exact congrArg some (h.frame mCurrentSource_dependsOn hparts)
  have hlayer (tv : CTv) := touches_setVideoLayerStatus ans tv videoLayerStatusEnable
  have hcolor := fun tv : CTv => touches_vppSetVideoColor ans tv false
  have hstart := fun tv : CTv => touches_tvinStartDecoder ans tv tv.mCurrentSignalInfo
  rcases hstatus with rfl | rfl | rfl
  · have hstarted := (touches_log tv .onSigToStable).trans (hstart _)
    exact hsend ((hstarted.trans (hlayer _)).trans
      (touches_setVideoGlobalOutputMode ans _ videoGlobalOutputModeEnable)) rfl
  · have hlog := touches_log tv .onSigToUnSupport
    exact hsend (hlog.trans (touches_tvinStopDecoder ans _)) rfl
  · have harm : tv.onSigTo ans tvinSigStatusNosig = tv.onSigToNoSig ans := rfl
    have hlog := touches_log tv .onSigToNoSig
    rw [harm, onSigToNoSig]
    split
    · have hshown := (hlog.trans (touches_setSnowShowEnable ans _ true)).trans (hstart _)
      exact hsend ((hshown.trans (hlayer _)).trans (hcolor _)) rfl
    · exact hsend ((hlog.trans (hcolor _)).trans (touches_tvinStopDecoder ans _)) rfl

/-- A report that the observer is told of tells the current source. -/
theorem tells_report (hobserver : tv.mpObserver = true) {info : TvinInfo}
    (hreport : tv.report ans = some info) (hstatus : info.status = tvinSigStatusStable ∨
      info.status = tvinSigStatusNotsup ∨ info.status = tvinSigStatusNosig) :
    ((tv.setCurrentSource sourceHdmi1).onVdinSignalChange ans).operations ≠
      ((tv.setCurrentSource sourceTv).onVdinSignalChange ans).operations := by
  have hobserver' : (tv.recorded ans).mpObserver = true :=
    (mpObserver_of_touches (touches_recorded ans tv)).trans hobserver
  -- the last report of a run names the value it started with
  have hlast (v : SourceInput) : Journal.lastOf TvAction.reportedSource
      ((tv.setCurrentSource v).onVdinSignalChange ans).operations = some v := by
    have hreport' : (tv.setCurrentSource v).report ans = some info :=
      (setCurrentSource_report v).trans hreport
    have hrecorded : ((tv.recorded ans).setCurrentSource v).mpObserver = true := hobserver'
    rw [onVdinSignalChange_of_report hreport', setCurrentSource_recorded]
    exact lastOf_onSigTo hrecorded hstatus
  intro hsame
  have hsources : some sourceHdmi1 = some sourceTv := by
    rw [← hlast sourceHdmi1, hsame, hlast sourceTv]
  exact absurd (Option.some.inj hsources) (by decide)

/-! ## Runs -/

/-- **The source is hidden** from those who see the operations of an observed television object, as
long as no step reads it. -/
theorem hidden_source : Machine.Hidden (fun tv : CTv => tv.mpObserver = true) step
    setCurrentSource operations assignsSource readsSource where
  inv_step tv x hobserver := (mpObserver_of_touches (touches_step tv x)).trans hobserver
  observe_hide _ _ := rfl
  keeps _ _ v hassigns hreads := setCurrentSource_step v hassigns hreads
  forgets tv x v hassigns := by
    obtain ⟨command, ans⟩ := x
    cases command with
    | startTv source => exact congrArg Prod.snd (setCurrentSource_startTv v source)
    | stopTv source => exact congrArg Prod.snd (setCurrentSource_stopTv v source)
    | _ => cases hassigns
  tells tv x hobserver hassigns hreads := by
    obtain ⟨command, ans⟩ := x
    cases command with
    | switchSource destSource => exact tells_switchSource destSource
    | setEdidVersion source edidVer => exact tells_setEdidVersion (of_decide_eq_true hreads)
    | vdinSignalChange =>
      rw [readsSource] at hreads
      refine ⟨sourceHdmi1, sourceTv, ?_⟩
      cases hreport : tv.report ans with
      | none =>
        rw [hreport] at hreads
        obtain ⟨hevent, hafd⟩ := of_decide_eq_true hreads
        exact tells_aspectRatio hevent hafd
      | some info =>
        rw [hreport] at hreads
        exact tells_report hobserver hreport (of_decide_eq_true hreads)
    | startTv source => cases hassigns
    | stopTv source => cases hassigns
    | _ => cases hreads

/-- The television object of the service, just constructed, with a value of the current source. -/
def booted (ans : Answers) (boot : Boot) (v : SourceInput) : CTv :=
  (construct ans { boot with mCurrentSource := v }).setTvObserver

/-- The runs with all initial values of the current source perform the same operations and send the
same events, at any time. -/
def SourceHidden (ans : Answers) (boot : Boot) (xs : List (Command × Answers)) : Prop :=
  ∀ v v' pre, pre <+: xs → (Machine.run step (booted ans boot v) pre).operations =
    (Machine.run step (booted ans boot v') pre).operations

/-- **Runs without the initial source**: the runs with all initial values perform the same
operations and send the same events, exactly if no step before the first start or stop of a source
reads the current source. -/
theorem sourceHidden_iff (ans : Answers) (boot : Boot) (xs : List (Command × Answers)) :
    SourceHidden ans boot xs ↔
      Machine.Along step (fun tv x => tv.readsSource x = false)
        ((construct ans boot).setTvObserver) (xs.takeWhile fun x => !assignsSource x) := by
  have hbooted (v : SourceInput) :
      booted ans boot v = ((construct ans boot).setTvObserver).setCurrentSource v := by
    rw [booted, construct_setCurrentSource]
    rfl
  rw [← hidden_source.indistinguishable_iff (rfl : _ = true) xs]
  simp only [SourceHidden, Machine.Indistinguishable, hbooted]

/-- A switch to `HDMI1` is the first command. -/
theorem not_forall_sourceHidden :
    ¬ ∀ (ans : Answers) (boot : Boot) (xs : List (Command × Answers)),
      SourceHidden ans boot xs := by
  intro hall
  let ans := Answers.granting 0 noSignalInfo
  let boot : Boot := ⟨fun _ => none, none, true, true, sourceTv⟩
  have hreads := (sourceHidden_iff ans boot [(.switchSource sourceHdmi1, ans)]).mp (hall _ _ _)
  exact absurd hreads.1 nofun

end CTv
