import TvServer.Tv.Picture
import TvServer.Tv.QuietEvents

/-!
# New sessions

Requests fail, and what they failed to do is left behind. A start that succeeds behind a stop begins
a session that does not depend on what was before, whatever failed then or in the stop itself: the
port of the source is open, the video layer and the output are disabled, and no signal is recorded.
A stable signal is then shown in the format that is reported. What is left of the past is a decoder
of the driver that once failed to stop: it is not told to stop again, and it is told to start by the
next stable signal.

## Main definitions

* `Answers.Grants`: the requests to the vdin device succeed
* `IsFresh`: a session that began, without a signal
* `IsShown`: a session whose signal is shown

## Main results

* `isFresh_startTv`, `driverStarted_restart`: what a stop and a start lead to
* `isShown_step`: a stable signal is shown
* `session_resets`: new sessions behind every run
-/

/-- The requests to the vdin device succeed. -/
structure Answers.Grants (ans : Answers) : Prop where
  vdinOpen : ∀ request, ans.vdinOpen request = true
  vdin : ∀ request, 0 ≤ ans.vdin request

theorem Answers.granting_grants (eventInfo : UInt32) (sigInfo : TvinInfo) :
    (Answers.granting eventInfo sigInfo).Grants :=
  ⟨fun _ => rfl, fun _ => Int32.le_refl 0⟩

namespace CTv

variable {ans : Answers} {tv : CTv}

/-- A session of a source that began, and has no signal yet. -/
structure IsFresh (tv : CTv) (source : SourceInput) : Prop where
  port : tv.session.port = some (some (tv.tvinGetSourcePortBySourceInput source))
  source : tv.mCurrentSource = source
  sigInfo : tv.mCurrentSignalInfo = noSignalInfo
  workMode : tv.mVdinWorkMode = vdinWorkModeVfm
  stopped : tv.mDecoderStarted = false
  layer : tv.picture.layer = some false
  output : tv.picture.output = some false

/-- A session of a source whose signal is shown. -/
structure IsShown (tv : CTv) (source : SourceInput) (info : TvinInfo) : Prop where
  port : tv.session.port = some (some (tv.tvinGetSourcePortBySourceInput source))
  source : tv.mCurrentSource = source
  sigInfo : tv.mCurrentSignalInfo = info
  decoding : tv.decoding = (true, true)
  format : tv.path.decoderFormat = some info.format
  layer : tv.picture.layer = some true
  output : tv.picture.output = some true

theorem mVdinWorkMode_dependsOn : DependsOn mVdinWorkMode [.workMode] := by
  intro tv u hu
  cases u with
  | storeEdidVersion source edidVer =>
    exact storeEdidVersion_keeps mVdinWorkMode tv (fun _ _ _ _ => rfl) source edidVer
  | _ => first | rfl | exact absurd (of_decide_eq_true rfl) hu

/-! ## A stop and a start -/

/-- A stop clears the flag; the decoder of the driver stops if it is told to, and succeeds. -/
theorem decoding_stopTv (hg : tv.Grounded) (source : SourceInput) :
    (tv.stopTv ans source).2.decoding =
      (false, tv.driverStarted && !(tv.mDecoderStarted && 0 ≤ ans.vdin .stopDec)) := by
  have hmute := touches_mute ans tv
  have hmuted : (tv.mute ans).Grounded := Grounded.preserves.touches hmute rfl hg
  have hbefore : (tv.mute ans).decoding = tv.decoding := hmute.frame decoding_dependsOn rfl
  have hbehind := (touches_vdinDeviceIOCtl ans ((tv.mute ans).tvinStopDecoder ans).2
    .closePort).trans (touches_stopTv_of_closed ans tv source)
  have hflag : (tv.mute ans).mDecoderStarted = tv.mDecoderStarted := congrArg Prod.fst hbefore
  have hdriver : (tv.mute ans).driverStarted = tv.driverStarted := congrArg Prod.snd hbefore
  refine (hbehind.frame decoding_dependsOn rfl).trans ((decoding_tvinStopDecoder hmuted).trans ?_)
  rw [hflag, hdriver, hbefore, decoding]
  -- a decoder that is not known to run is not told to stop
  cases tv.mDecoderStarted with
  | true =>
    by_cases hret : 0 ≤ ans.vdin .stopDec
    · simp [hret]
    · simp [hret]
  | false => simp

/-- A start that succeeds behind a stop begins a session. -/
theorem isFresh_startTv (stop : Answers) (hstart : ans.Grants) (old source : SourceInput) :
    ((tv.stopTv stop old).2.startTv ans source).2.IsFresh source := by
  have hpath : ((tv.stopTv stop old).2.startTv ans source).2.path =
      { tv.path.stop with source := source } := by
    rw [path_startTv, path_stopTv]
  have hpicture : ((tv.stopTv stop old).2.startTv ans source).2.picture =
      Machine.run Picture.step (tv.picture.step .stop) (startEvents source) := by
    rw [picture_startTv, picture_stopTv]
  -- a start paints the test screen at most
  have hlayer : ∀ p : Picture, (Machine.run Picture.step p (startEvents source)).layer = p.layer ∧
      (Machine.run Picture.step p (startEvents source)).output = p.output := by
    intro p
    rw [startEvents]
    split <;> exact ⟨rfl, rfl⟩
  obtain ⟨hlayer, houtput⟩ := hlayer (tv.picture.step .stop)
  have htouches := touches_startTv ans (tv.stopTv stop old).2 source
  constructor
  · have hopens : (tv.stopTv stop old).2.opens ans source = true := by
      rw [opens, hstart.vdinOpen]
      exact Bool.or_true _
    have hport := tvinGetSourcePortBySourceInput_of_touches htouches source
    refine (lastOf_startTv (fun _ => TvAction.port_eq_none) source).trans ?_
    dsimp only
    rw [if_pos hopens, TvAction.port, if_pos (hstart.vdin _), hport]
    rfl
  · exact congrArg SignalPath.source hpath
  · exact htouches.frame mCurrentSignalInfo_dependsOn rfl
  · exact htouches.frame mVdinWorkMode_dependsOn rfl
  · exact congrArg SignalPath.started hpath
  · exact (congrArg Picture.layer hpicture).trans hlayer
  · exact (congrArg Picture.output hpicture).trans houtput

/-- The decoder of the driver runs on if it was not known to run, or fails to stop. -/
theorem driverStarted_restart (hg : tv.Grounded) (stop : Answers) (old source : SourceInput) :
    ((tv.stopTv stop old).2.startTv ans source).2.driverStarted =
      (tv.driverStarted && !(tv.mDecoderStarted && 0 ≤ stop.vdin .stopDec)) := by
  have htouches := touches_startTv ans (tv.stopTv stop old).2 source
  have hdecoding := htouches.frame decoding_dependsOn rfl
  exact congrArg Prod.snd (hdecoding.trans (decoding_stopTv hg old))

/-! ## A stable signal -/

/-- A step that starts the decoder starts that of the driver. -/
theorem decoding_of_started (hg : tv.Grounded) (hstopped : tv.mDecoderStarted = false)
    {x : Command × Answers} (hstarted : (tv.step x).mDecoderStarted = true) :
    (tv.step x).decoding = (true, true) := by
  have hchanged : (tv.step x).decoding ≠ tv.decoding := by
    intro hsame
    have hflag : (tv.step x).mDecoderStarted = tv.mDecoderStarted := congrArg Prod.fst hsame
    rw [hstarted, hstopped] at hflag
    exact absurd hflag (by decide)
  have hstep := step_decoder hg x
  generalize tv.stopsDecoder x = stops at hstep
  cases hstep with
  | beside h => exact absurd (decoding_of_touches h) hchanged
  | start before info hbefore hbehind =>
    rcases before.decoding_tvinStartDecoder x.2 info with hkeep | hboth
    · have hsame := (decoding_of_touches hbehind).trans hkeep
      exact absurd (hsame.trans (decoding_of_touches hbefore)) hchanged
    · exact (decoding_of_touches hbehind).trans hboth
  | stop before hbefore htouches hbehind =>
    -- a stop leaves a decoder that is stopped
    have hsame : before.decoding = tv.decoding := decoding_of_touches htouches
    have hflag : before.mDecoderStarted = false := (congrArg Prod.fst hsame).trans hstopped
    have hstop : (before.tvinStopDecoder x.2).2.decoding = before.decoding := by
      rw [decoding_tvinStopDecoder hbefore, hflag, if_neg Bool.false_ne_true]
    exact absurd ((decoding_of_touches hbehind).trans (hstop.trans hsame)) hchanged

/-- An event of the signal status delivers a report if its requests succeed. -/
theorem report_of_grants (hans : ans.Grants) (hword : ans.eventInfo = tvinSigChgSts) :
    tv.report ans = some ans.sigInfo := by
  have hopen : (tv.mVdin0DevFd || ans.vdinOpen .getEventInfo) = true := by
    rw [hans.vdinOpen]
    exact Bool.or_true _
  have hevent : 0 ≤ (tv.tvinGetSignalEventInfo ans).1 := by
    rw [tvinGetSignalEventInfo, vdinDeviceIOCtl_eq, if_pos hopen]
    exact hans.vdin .getEventInfo
  exact if_pos ⟨hevent, hword, hans.vdin .getSigInfo⟩

/-- A session that began shows a stable signal that is reported. -/
theorem isShown_step (hg : tv.Grounded) {source : SourceInput} (hfresh : tv.IsFresh source)
    (hans : ans.Grants) (hword : ans.eventInfo = tvinSigChgSts)
    (hstable : ans.sigInfo.status = tvinSigStatusStable) :
    (tv.step (.vdinSignalChange, ans)).IsShown source ans.sigInfo := by
  have hreport : tv.report ans = some ans.sigInfo := report_of_grants hans hword
  have htouches := touches_step tv (.vdinSignalChange, ans)
  have hpath : (tv.step (.vdinSignalChange, ans)).path =
      (tv.path.record ans.sigInfo).startDecoder true := by
    rw [path_step, signalInput, hreport, ← decide_eq_true (hans.vdin (.startDec ans.sigInfo))]
    exact SignalPath.step_report_stable _ hstable _ _
  have hstopped : ¬ (tv.path.record ans.sigInfo).started = true := by
    have hflag : (tv.path.record ans.sigInfo).started = false := hfresh.stopped
    rw [hflag]
    exact Bool.false_ne_true
  rw [SignalPath.startDecoder, if_neg hstopped] at hpath
  have hpicture : (tv.step (.vdinSignalChange, ans)).picture = tv.picture.step .stable := by
    rw [picture_step, pictureEvents, hreport]
    show Machine.run Picture.step tv.picture (tv.statusEvents ans.sigInfo.status) = _
    rw [statusEvents, if_pos hstable]
    rfl
  constructor
  · have hsame := htouches.frame (lastOf_dependsOn fun _ => TvAction.port_eq_none) rfl
    have hport := tvinGetSourcePortBySourceInput_of_touches htouches source
    rw [hport]
    exact hsame.trans hfresh.port
  · exact (congrArg SignalPath.source hpath).trans hfresh.source
  · show (tv.onVdinSignalChange ans).mCurrentSignalInfo = ans.sigInfo
    rw [onVdinSignalChange_of_report hreport, hstable]
    -- the handler reads the signal that is recorded
    exact (touches_onSigTo ans (tv.recorded ans) tvinSigStatusStable).frame
      mCurrentSignalInfo_dependsOn rfl
  · exact decoding_of_started hg hfresh.stopped (congrArg SignalPath.started hpath)
  · exact congrArg SignalPath.decoderFormat hpath
  · exact congrArg Picture.layer hpicture
  · exact congrArg Picture.output hpicture

/-! ## New sessions -/

/-- **New sessions.** Whatever failed in a run, and in a stop behind it, a start that succeeds
begins a session, in which a stable signal is shown if its report and the start of its decoder
succeed. Of the past a decoder of the driver is left that runs unnoticed. -/
theorem session_resets (ans : Answers) (boot : Boot) (xs : List (Command × Answers))
    (stop : Answers) {start shown : Answers} (hstart : start.Grants) (hshown : shown.Grants)
    (hword : shown.eventInfo = tvinSigChgSts)
    (hstable : shown.sigInfo.status = tvinSigStatusStable) (old source : SourceInput) :
    let tv := Machine.run step (construct ans boot) xs
    let fresh := Machine.run step tv [(.stopTv old, stop), (.startTv source, start)]
    fresh.IsFresh source ∧
      fresh.driverStarted =
        (tv.driverStarted && !(tv.mDecoderStarted && 0 ≤ stop.vdin .stopDec)) ∧
      (fresh.step (.vdinSignalChange, shown)).IsShown source shown.sigInfo := by
  intro tv fresh
  have hg : tv.Grounded := grounded_run ans boot xs
  have hstopped : (tv.step (.stopTv old, stop)).Grounded := Grounded.preserves.step _ hg
  have hgrounded : fresh.Grounded := Grounded.preserves.step (.startTv source, start) hstopped
  have hfresh : fresh.IsFresh source := isFresh_startTv stop hstart old source
  refine ⟨hfresh, driverStarted_restart hg stop old source, ?_⟩
  exact isShown_step hgrounded hfresh hshown hword hstable

/-- A signal is shown behind a stop that failed. -/
theorem session_resets_granting :
    let boot : Boot := ⟨fun _ => none, none, true, true, sourceTv⟩
    let stable : TvinInfo := { noSignalInfo with fmt := 0x401, status := tvinSigStatusStable }
    let ans := Answers.granting tvinSigChgSts stable
    let fails : Answers := { ans with vdin := fun _ => -1 }
    let tv := Machine.run step (construct ans boot)
      [(.startTv sourceHdmi1, ans), (.vdinSignalChange, ans)]
    let fresh := Machine.run step tv [(.stopTv sourceHdmi1, fails), (.startTv sourceHdmi2, ans)]
    (fresh.step (.vdinSignalChange, ans)).IsShown sourceHdmi2 stable := by
  intro boot stable ans fails tv fresh
  have hans : ans.Grants := Answers.granting_grants tvinSigChgSts stable
  exact (session_resets ans boot _ fails hans hans rfl rfl sourceHdmi1 sourceHdmi2).2.2

end CTv
