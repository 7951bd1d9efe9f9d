import TvServer.Foundations.Journal
import TvServer.Tv.Decoder
import TvServer.Tv.Invariants

/-!
# The protocol of the decoder

The flag of the television object is the only guard of the decoder of the driver: where it is set
the decoder is not started, and where it is not set the decoder is not stopped. The ioctls of the
decoder alternate thanks to it. The flag is cleared also where the ioctl that stops the decoder
fails, so that the decoder of the driver then runs on unnoticed.

## Main definitions

* `DecoderAllows`: when the decoder may be told what
* `driverStarted`: whether the decoder of the driver runs
* `InSync`: the flag says so
* `stopsDecoder`, `StopsInSync`: the steps that stop the decoder, and those where this succeeds
* `DecoderStep`: what a step does to the decoder

## Main results

* `protocol_run`, `decoder_protocol`: the ioctls of the decoder alternate in every run
* `step_decoder`: every step starts the decoder, or stops it, or leaves it alone
* `inSync_step_iff`, `inSync_iff_stops`: the runs in which the flag is right throughout
-/

/-! ## The ioctls of the decoder -/

namespace TvAction

/-- What the ioctls that succeed made of the decoder of the driver. -/
def driverDecoding : TvAction → Option Bool
  | .vdin (.startDec _) ret => if 0 ≤ ret then some true else none
  | .vdin .stopDec ret => if 0 ≤ ret then some false else none
  | _ => none

/-- The kinds of actions that bear on the decoder. -/
def decoderParts : List CTv.Part := [.decoder, .startDec, .stopDec]

theorem driverDecoding_eq_none {action : TvAction} (h : action.part ∉ decoderParts) :
    action.driverDecoding = none := by
  cases action with
  | vdin request ret =>
    cases request <;> first | rfl | exact absurd (of_decide_eq_true rfl) h
  | _ => rfl

theorem decoding_eq_some_true {action : TvAction} : action.decoding = some true ↔
    ∃ info ret, action = .vdin (.startDec info) ret ∧ 0 ≤ ret := by
  constructor
  · intro h
    cases action with
    | vdin request ret =>
      cases request with
      | startDec info => exact ⟨info, ret, rfl, by simpa [decoding] using h⟩
      | _ => cases h
    | _ => cases h
  · rintro ⟨info, ret, rfl, hret⟩
    exact if_pos hret

/-- When the decoder may be told what: it is started where it is not started, and stopped where
it is. -/
def DecoderAllows (before : List TvAction) : TvAction → Prop
  | .vdin (.startDec _) _ => Journal.lastOf decoding before ≠ some true
  | .vdin .stopDec _ => Journal.lastOf decoding before = some true
  | _ => True

theorem decoderAllows_of_part {before : List TvAction} {action : TvAction}
    (h : action.part ∉ decoderParts) : DecoderAllows before action := by
  cases action with
  | vdin request ret =>
    cases request <;> first | trivial | exact absurd (of_decide_eq_true rfl) h
  | _ => trivial

/-- A decoder that is told only what is allowed is switched over each time. -/
theorem alternates_of_decoderAllows {trace : List TvAction}
    (h : Journal.Disciplined DecoderAllows trace) : Journal.Alternates decoding trace := by
  intro pre action hpre v hv
  have hallows := h pre action hpre
  cases action with
  | vdin request ret =>
    cases request with
    | startDec info =>
      have hoff : Journal.lastOf decoding pre ≠ some true := hallows
      simp only [decoding, Option.mem_def, Option.ite_none_right_eq_some, Option.some.injEq] at hv
      rw [← hv.2]
      cases hlast : Journal.lastOf decoding pre with
      | none => rfl
      | some started =>
        cases started with
        | false => rfl
        | true => exact absurd hlast hoff
    | stopDec =>
      have hon : Journal.lastOf decoding pre = some true := hallows
      have hv : v = false := (Option.some.inj hv).symm
      rw [hon, hv]
      rfl
    | _ => cases hv
  | _ => cases hv

end TvAction

namespace CTv

variable {ans : Answers} {tv : CTv}

/-! ## The protocol -/

/-- The state agrees with the trace, in which the decoder was told only what was allowed. -/
structure Protocol (tv : CTv) : Prop where
  grounded : tv.Grounded
  disciplined : Journal.Disciplined TvAction.DecoderAllows tv.trace

namespace Protocol

theorem disciplined_perform {action : TvAction} (haction : action.part ∉ TvAction.decoderParts)
    (h : Journal.Disciplined TvAction.DecoderAllows tv.trace) :
    Journal.Disciplined TvAction.DecoderAllows (tv.perform action).trace :=
  Journal.disciplined_snoc.mpr ⟨h, TvAction.decoderAllows_of_part haction⟩

/-- An ioctl of the decoder keeps the discipline if it is allowed. -/
theorem disciplined_ioctl (ans : Answers) (tv : CTv) (request : VdinRequest)
    (hallows : TvAction.DecoderAllows tv.trace (.vdin request (ans.vdin request)))
    (h : Journal.Disciplined TvAction.DecoderAllows tv.trace) :
    Journal.Disciplined TvAction.DecoderAllows (tv.vdinDeviceIOCtl ans request).2.trace := by
  rw [vdinDeviceIOCtl_eq]
  split
  · exact Journal.disciplined_snoc.mpr ⟨h, hallows⟩
  · exact h

theorem preserves : Preserves Protocol where
  update tv u hu h := by
    refine ⟨Grounded.preserves.update tv u hu h.grounded, ?_⟩
    cases u with
    | perform action =>
      refine disciplined_perform (fun hmem => hu ?_) h.disciplined
      simp only [TvAction.decoderParts, List.mem_cons, List.not_mem_nil, or_false] at hmem
      rcases hmem with hmem | hmem | hmem <;> simp [Update.part, deviceParts, hmem]
    | storeEdidVersion source edidVer =>
      show Journal.Disciplined _ (tv.storeEdidVersion source edidVer).trace
      rw [trace_storeEdidVersion]
      exact h.disciplined
    | _ => exact h.disciplined
  afe ans tv request h := by
    refine ⟨Grounded.preserves.afe ans tv request h.grounded, ?_⟩
    rw [afeDeviceIOCtl_eq]
    split
    · exact disciplined_perform (by simp [TvAction.part, TvAction.decoderParts]) h.disciplined
    · exact h.disciplined
  ioctl ans tv request hstart hstop h := by
    refine ⟨Grounded.preserves.ioctl ans tv request hstart hstop h.grounded, ?_⟩
    apply disciplined_ioctl ans tv request _ h.disciplined
    cases request <;> trivial
  startDecoder ans tv info h := by
    refine ⟨Grounded.preserves.startDecoder ans tv info h.grounded, ?_⟩
    rw [tvinStartDecoder]
    split
    · exact h.disciplined
    · -- the flag is not set, and so the decoder was not started last
      rename_i hstarted
      have hoff : Journal.lastOf TvAction.decoding tv.trace ≠ some true :=
        fun hon => hstarted (h.grounded.decoder.mp hon)
      have hioctl := disciplined_ioctl ans (tv.setTvinParamInfo info) (.startDec info) hoff
        h.disciplined
      dsimp only
      split <;> exact hioctl
  stopDecoder ans tv h := by
    refine ⟨Grounded.preserves.stopDecoder ans tv h.grounded, ?_⟩
    rw [tvinStopDecoder]
    split
    · exact h.disciplined
    · rename_i hstarted
      -- the flag is set, and so the decoder was started last
      have hon : Journal.lastOf TvAction.decoding tv.trace = some true :=
        h.grounded.decoder.mpr (by simpa using hstarted)
      have hioctl := disciplined_ioctl ans tv .stopDec hon h.disciplined
      dsimp only
      split <;> exact hioctl

theorem construct (ans : Answers) (boot : Boot) : (construct ans boot).Protocol := by
  apply preserves.construct
  exact ⟨Grounded.configured ans boot,
    Journal.disciplined_snoc.mpr ⟨Journal.disciplined_nil, trivial⟩⟩

end Protocol

/-- **After every run** the decoder was told only what was allowed. -/
theorem protocol_run (ans : Answers) (boot : Boot) (xs : List (Command × Answers)) :
    (Machine.run step (construct ans boot) xs).Protocol :=
  Machine.run_invariant Protocol (fun _ x => Protocol.preserves.step x)
    (Protocol.construct ans boot) xs

/-- **The ioctls of the decoder alternate** in every run: an ioctl that stops the decoder comes
behind one that started it, with none that stops or starts it in between; between two that started
it there is one more that stops it than there are others that started it, so that there is exactly
one if there are no others; and a decoder that was started last is not told to start. -/
theorem decoder_protocol (ans : Answers) (boot : Boot) (xs : List (Command × Answers)) :
    let trace := (Machine.run step (construct ans boot) xs).trace
    (∀ pre ret post, trace = pre ++ .vdin .stopDec ret :: post →
      ∃ before info ret' between, pre = before ++ .vdin (.startDec info) ret' :: between ∧
        0 ≤ ret' ∧ ∀ action ∈ between, action.decoding = none) ∧
    (∀ pre start mid start' post, trace = pre ++ start :: (mid ++ start' :: post) →
      start.decoding = some true → start'.decoding = some true →
        Journal.thrown TvAction.decoding false mid =
          Journal.thrown TvAction.decoding true mid + 1) ∧
    (∀ pre info ret post, trace = pre ++ .vdin (.startDec info) ret :: post →
      Journal.lastOf TvAction.decoding pre ≠ some true) := by
  intro trace
  have hdisciplined : Journal.Disciplined TvAction.DecoderAllows trace :=
    (protocol_run ans boot xs).disciplined
  have hallows : ∀ pre action post, trace = pre ++ action :: post →
      TvAction.DecoderAllows pre action := by
    intro pre action post htrace
    exact hdisciplined pre action ⟨post, by simp [htrace]⟩
  refine ⟨?_, ?_, ?_⟩
  · intro pre ret post htrace
    have hon : Journal.lastOf TvAction.decoding pre = some true := hallows _ _ _ htrace
    obtain ⟨before, start, between, hpre, hstart, hbetween⟩ :=
      Journal.exists_split_of_lastOf hon
    obtain ⟨info, ret', rfl, hret⟩ := TvAction.decoding_eq_some_true.mp hstart
    exact ⟨before, info, ret', between, hpre, hret, hbetween⟩
  · intro pre start mid start' post htrace hstart hstart'
    have halternates := TvAction.alternates_of_decoderAllows hdisciplined
    rw [htrace] at halternates
    exact halternates.count_eq hstart hstart'
  · intro pre info ret post htrace
    exact hallows _ _ _ htrace

/-! ## The decoder of the driver -/

/-- Whether the decoder of the driver runs. It does not at first, and an ioctl that fails leaves
it as it was. -/
def driverStarted (tv : CTv) : Bool :=
  (Journal.lastOf TvAction.driverDecoding tv.trace).getD false

/-- The flag and the decoder of the driver. -/
def decoding (tv : CTv) : Bool × Bool := (tv.mDecoderStarted, tv.driverStarted)

/-- The flag says whether the decoder of the driver runs, which is then told to stop by the next
call that stops the decoder. -/
structure InSync (tv : CTv) : Prop where
  agrees : tv.mDecoderStarted = tv.driverStarted
  retries : ∀ ans, tv.driverStarted = true → (tv.tvinStopDecoder ans).2.trace =
    tv.trace ++ [.vdin .stopDec (ans.vdin .stopDec)]

theorem driverStarted_perform (tv : CTv) (action : TvAction) :
    (tv.perform action).driverStarted = action.driverDecoding.getD tv.driverStarted := by
  show (Journal.lastOf TvAction.driverDecoding (tv.trace ++ [action])).getD false = _
  rw [Journal.lastOf_snoc]
  cases action.driverDecoding <;> rfl

theorem decoding_dependsOn : DependsOn decoding TvAction.decoderParts := by
  intro tv u hu
  cases u with
  | perform action =>
    have hdriver : (tv.perform action).driverStarted = tv.driverStarted := by
      rw [driverStarted_perform, TvAction.driverDecoding_eq_none hu]
      rfl
    exact congrArg (Prod.mk tv.mDecoderStarted) hdriver
  | storeEdidVersion source edidVer =>
    exact storeEdidVersion_keeps decoding tv (fun _ _ _ _ => rfl) source edidVer
  | _ => first | rfl | exact absurd (of_decide_eq_true rfl) hu

/-- A decoder that is started is told to stop, and then counts as stopped. -/
theorem tvinStopDecoder_of_started (hg : tv.Grounded) (hstarted : tv.mDecoderStarted = true) :
    (tv.tvinStopDecoder ans).2 =
      (tv.perform (.vdin .stopDec (ans.vdin .stopDec))).setDecoderStarted false := by
  have hioctl : (tv.vdinDeviceIOCtl ans .stopDec).2 =
      tv.perform (.vdin .stopDec (ans.vdin .stopDec)) := by
    rw [vdinDeviceIOCtl_of_open (hg.open_of_started hstarted)]
  rw [tvinStopDecoder, if_neg (by simp [hstarted]), ← hioctl]
  dsimp only
  split <;> rfl

/-- A decoder that is stopped counts as started if it can be told to start, and does. -/
theorem tvinStartDecoder_of_stopped (hstopped : tv.mDecoderStarted = false) (info : TvinInfo) :
    (tv.tvinStartDecoder ans info).2 =
      if tv.mVdin0DevFd || ans.vdinOpen (.startDec info) then
        (((tv.setTvinParamInfo info).setVdin0DevFd true).perform
          (.vdin (.startDec info) (ans.vdin (.startDec info)))).setDecoderStarted
            (0 ≤ ans.vdin (.startDec info))
      else (tv.setTvinParamInfo info).setDecoderStarted false := by
  have hparams : (tv.setTvinParamInfo info).mTvinParamInfo = info := rfl
  rw [tvinStartDecoder, if_neg (by simp [hstopped])]
  dsimp only
  rw [hparams, vdinDeviceIOCtl_eq]
  -- the ioctl needs the device, which is opened if it is not open
  by_cases hioctl : (tv.mVdin0DevFd || ans.vdinOpen (.startDec info)) = true
  · have hioctl' : ((tv.setTvinParamInfo info).mVdin0DevFd || ans.vdinOpen (.startDec info)) =
        true := hioctl
    rw [if_pos hioctl, if_pos hioctl']
    by_cases hret : 0 ≤ ans.vdin (.startDec info)
    · rw [if_pos hret, decide_eq_true hret]
    · rw [if_neg hret, decide_eq_false hret]
  · have hioctl' : ¬ ((tv.setTvinParamInfo info).mVdin0DevFd || ans.vdinOpen (.startDec info)) =
        true := hioctl
    rw [if_neg hioctl, if_neg hioctl', if_neg not_nonneg_failure]

/-- A stop of the decoder clears the flag; the decoder of the driver stops if the ioctl
succeeds. -/
theorem decoding_tvinStopDecoder (hg : tv.Grounded) : (tv.tvinStopDecoder ans).2.decoding =
    if tv.mDecoderStarted then
      (false, if 0 ≤ ans.vdin .stopDec then false else tv.driverStarted)
    else tv.decoding := by
  split
  · rename_i hstarted
    rw [tvinStopDecoder_of_started hg hstarted]
    refine congrArg (Prod.mk false) ((driverStarted_perform tv _).trans ?_)
    rw [TvAction.driverDecoding]
    split <;> rfl
  · rename_i hstopped
    rw [tvinStopDecoder, if_pos (by simpa using hstopped)]

/-- A start of the decoder leaves both as they are, or starts both. -/
theorem decoding_tvinStartDecoder (tv : CTv) (ans : Answers) (info : TvinInfo) :
    (tv.tvinStartDecoder ans info).2.decoding = tv.decoding ∨
      (tv.tvinStartDecoder ans info).2.decoding = (true, true) := by
  by_cases hstarted : tv.mDecoderStarted = true
  · rw [tvinStartDecoder, if_pos hstarted]
    exact .inl rfl
  · have hstopped : tv.mDecoderStarted = false := by simpa using hstarted
    have hkeep : (false, tv.driverStarted) = tv.decoding := by rw [decoding, hstopped]
    rw [tvinStartDecoder_of_stopped hstopped, ← hkeep]
    split
    · -- the ioctl starts the decoder of the driver exactly if it succeeds
      have hdriver := driverStarted_perform ((tv.setTvinParamInfo info).setVdin0DevFd true)
        (.vdin (.startDec info) (ans.vdin (.startDec info)))
      by_cases hret : 0 ≤ ans.vdin (.startDec info)
      · refine .inr (Prod.ext (decide_eq_true hret) (hdriver.trans ?_))
        simp [TvAction.driverDecoding, hret]
      · refine .inl (Prod.ext (decide_eq_false hret) (hdriver.trans ?_))
        simp only [TvAction.driverDecoding, hret, if_false, Option.getD_none]
        rfl
    · exact .inl rfl

/-! ## Steps -/

/-- The state in which a status report is handled: its signal info is recorded. -/
def recorded (tv : CTv) (ans : Answers) : CTv :=
  (((tv.tvinGetSignalEventInfo ans).2.perform (.log .vdinSignalStatusChange)).tvinGetSignalInfo
    ans).2.setCurrenSourceInfo ans.sigInfo

theorem touches_recorded (ans : Answers) (tv : CTv) : Touches infoParts tv (tv.recorded ans) := by
  have hread := (touches_tvinGetSignalEventInfo ans tv).trans
    (touches_log _ .vdinSignalStatusChange)
  have hinfo := hread.trans (touches_tvinGetSignalInfo ans _)
  exact (hinfo.trans (touches_setCurrenSourceInfo _ ans.sigInfo)).mono rfl

/-- An event that delivers a report is handled as one. -/
theorem onVdinSignalChange_of_report {info : TvinInfo} (h : tv.report ans = some info) :
    tv.onVdinSignalChange ans = (tv.recorded ans).onSigTo ans info.status := by
  rw [report, Option.ite_none_right_eq_some, Option.some.injEq] at h
  obtain ⟨⟨hevent, hword, hinfo⟩, rfl⟩ := h
  have hret : ¬ (((tv.tvinGetSignalEventInfo ans).2.perform
      (.log .vdinSignalStatusChange)).tvinGetSignalInfo ans).1 < 0 := by
    rw [tvinGetSignalInfo, vdinDeviceIOCtl_of_open (open_of_event hevent _)]
    exact Int32.not_lt.mpr hinfo
  rw [onVdinSignalChange, if_neg (Int32.not_lt.mpr hevent), hword, onVdinEvent_sts,
    onSigStatusChange]
  dsimp only
  rw [if_neg hret]
  rfl

/-- An event of the signal status delivers no report where its signal info cannot be read. -/
theorem signalInfo_fails_of_no_report (h : tv.report ans = none)
    (hevent : 0 ≤ (tv.tvinGetSignalEventInfo ans).1) (hsts : ans.eventInfo = tvinSigChgSts) :
    (((tv.tvinGetSignalEventInfo ans).2.perform
      (.log .vdinSignalStatusChange)).tvinGetSignalInfo ans).1 < 0 := by
  rw [tvinGetSignalInfo, vdinDeviceIOCtl_of_open (open_of_event hevent _)]
  rw [report, ite_eq_right_iff] at h
  refine Int32.not_le.mp fun hinfo => ?_
  exact absurd (h ⟨hevent, hsts, hinfo⟩) (Option.some_ne_none _)

/-- An event of the signal status whose signal info cannot be read is dropped. -/
theorem onVdinEvent_of_fails (hfail : ((tv.perform
    (.log .vdinSignalStatusChange)).tvinGetSignalInfo ans).1 < 0) :
    tv.onVdinEvent ans tvinSigChgSts =
      ((tv.perform (.log .vdinSignalStatusChange)).tvinGetSignalInfo ans).2 := by
  rw [onVdinEvent_sts, onSigStatusChange]
  exact if_pos hfail

/-- An event that delivers no report looks at the signal info at most. -/
theorem touches_onVdinSignalChange_of_no_report (h : tv.report ans = none) :
    Touches infoParts tv (tv.onVdinSignalChange ans) := by
  have hevent := touches_tvinGetSignalEventInfo ans tv
  have hlog := fun line => hevent.trans (touches_log _ line)
  rw [onVdinSignalChange]
  split
  · exact hevent.mono rfl
  · rename_i hret
    by_cases hsts : ans.eventInfo = tvinSigChgSts
    · have hfail := signalInfo_fails_of_no_report h (Int32.not_lt.mp hret) hsts
      rw [hsts, onVdinEvent_of_fails hfail]
      exact ((hlog _).trans (touches_tvinGetSignalInfo ans _)).mono rfl
    · unfold onVdinEvent
      dsimp only
      split_ifs
      · exact (hevent.trans (touches_onHdrInfoChange ans _)).mono rfl
      · exact (hlog _).mono rfl
      · exact (hlog _).mono rfl
      · exact (hlog _).mono rfl
      · exact (hlog _).mono rfl
      · exact (hevent.trans (touches_onAfdInfoChange ans _ _)).mono rfl
      · exact (hlog _).mono rfl
      · exact (hlog _).mono rfl

/-- The parts beside the decoder. -/
def besideParts : List Part :=
  [.vdinFd, .afeFd, .params, .audio, .edidVersions, .lastScreenMode, .signalInfo, .source,
    .workMode, .openPort, .closePort, .vdinQuery, .snow, .amVideo, .sysfs, .screenMode, .edidData,
    .edidSelect, .edidUpdate, .audioPatch, .tvEvent, .log]

/-- What a step does to the decoder, with what it does before and behind: it stops the decoder, or
it starts it at most. -/
inductive DecoderStep (ans : Answers) (tv tv' : CTv) : Bool → Prop
  | beside (h : Touches besideParts tv tv') : DecoderStep ans tv tv' false
  | start (before : CTv) (info : TvinInfo) (hbefore : Touches besideParts tv before)
      (hbehind : Touches besideParts (before.tvinStartDecoder ans info).2 tv') :
      DecoderStep ans tv tv' false
  | stop (before : CTv) (hg : before.Grounded) (hbefore : Touches besideParts tv before)
      (hbehind : Touches besideParts (before.tvinStopDecoder ans).2 tv') :
      DecoderStep ans tv tv' true

/-- Whether a status report stops the decoder. -/
def reportStops (tv : CTv) (status : UInt32) : Bool :=
  if status = tvinSigStatusStable then false
  else if status = tvinSigStatusUnstable then true
  else if status = tvinSigStatusNotsup then true
  else if status = tvinSigStatusNosig then !tv.needSnowEffect
  else false

/-- Whether a step stops the decoder. -/
def stopsDecoder (tv : CTv) : Command × Answers → Bool
  | (.stopTv _, _) => true
  | (.switchSource destSource, _) => destSource ≠ tv.mCurrentSource
  | (.setEdidVersion source edidVer, _) => tv.getEdidVersion source ≠ edidVer
  | (.loadEdidData isNeedBlackScreen _, _) => isNeedBlackScreen = 1
  | (.vdinSignalChange, ans) =>
    match tv.report ans with
    | some info => tv.reportStops info.status
    | none => false
  | _ => false

/-- What the handlers of a status report do to the decoder. -/
theorem decoderStep_onSigTo (hg : tv.Grounded) (status : UInt32) :
    DecoderStep ans tv (tv.onSigTo ans status) (tv.reportStops status) := by
  have hlayer (tv : CTv) := touches_setVideoLayerStatus ans tv videoLayerStatusEnable
  have houtput (tv : CTv) := touches_setVideoGlobalOutputMode ans tv videoGlobalOutputModeEnable
  have hsend := fun tv : CTv => touches_sendTvEvent tv tv.signalDetectEvent
  rw [onSigTo, reportStops]
  split_ifs
  · have hlog := touches_log tv .onSigToStable
    refine .start _ tv.mCurrentSignalInfo (hlog.mono rfl) ?_
    exact (((hlayer _).trans (houtput _)).trans (hsend _)).mono rfl
  · exact .stop tv hg (.refl _ _) ((touches_log _ .onSigToUnstable).mono rfl)
  · have hlog := touches_log tv .onSigToUnSupport
    have hlogged := Grounded.preserves.log .onSigToUnSupport hg
    exact .stop _ hlogged (hlog.mono rfl) ((hsend _).mono rfl)
  · have hlog := touches_log tv .onSigToNoSig
    have hlogged := Grounded.preserves.log .onSigToNoSig hg
    have hneed : (tv.perform (.log .onSigToNoSig)).needSnowEffect = tv.needSnowEffect := rfl
    rw [onSigToNoSig, hneed]
    -- the decoder shows the snow, if there is any
    cases tv.needSnowEffect with
    | true =>
      have hsnow := hlog.trans (touches_setSnowShowEnable ans _ true)
      have hcolor := fun tv : CTv => touches_vppSetVideoColor ans tv false
      let shown := ((tv.perform (.log .onSigToNoSig)).setSnowShowEnable ans true).2
      refine .start shown shown.mCurrentSignalInfo (hsnow.mono rfl) ?_
      exact (((hlayer _).trans (hcolor _)).trans (hsend _)).mono rfl
    | false =>
      have hcolor := hlog.trans (touches_vppSetVideoColor ans _ false)
      exact .stop _ (Grounded.preserves.videoColor false hlogged) (hcolor.mono rfl)
        ((hsend _).mono rfl)
  · exact .beside ((touches_log tv .invalidSignalStatus).mono rfl)

theorem decoderStep_of_touches {parts : List Part} {tv' : CTv} (h : Touches parts tv tv')
    (hparts : (parts.all fun p => p ∈ besideParts) = true) : DecoderStep ans tv tv' false :=
  .beside (h.mono hparts)

theorem decoderStep_stopTv (hg : tv.Grounded) (source : SourceInput) :
    DecoderStep ans tv (tv.stopTv ans source).2 true := by
  have hmute := touches_mute ans tv
  have hbehind := (touches_vdinDeviceIOCtl ans ((tv.mute ans).tvinStopDecoder ans).2
    .closePort).trans (touches_stopTv_of_closed ans tv source)
  exact .stop _ (Grounded.preserves.touches hmute rfl hg) (hmute.mono rfl) (hbehind.mono rfl)

theorem decoderStep_setEdidVersion (hg : tv.Grounded) (source : SourceInput) (edidVer : UInt32) :
    DecoderStep ans tv (tv.setEdidVersion ans source edidVer).2
      (tv.getEdidVersion source ≠ edidVer) := by
  by_cases hne : tv.getEdidVersion source ≠ edidVer
  · rw [decide_eq_true hne]
    exact .stop tv hg (.refl _ _) ((touches_setEdidVersion_of_ne ans tv hne).mono rfl)
  · rw [decide_eq_false hne, setEdidVersion, if_neg hne]
    exact .beside (.refl _ _)

theorem decoderStep_loadEdidData (hg : tv.Grounded)
    (isNeedBlackScreen isDolbyVisionEnable : Int32) :
    DecoderStep ans tv (tv.loadEdidData ans isNeedBlackScreen isDolbyVisionEnable).2
      (isNeedBlackScreen = 1) := by
  have hload (tv : CTv) (bytes : List UInt8) (value : CTv → UInt32) : Touches besideParts tv
      (if (tv.hdmiRxEdidDataSwitch ans bytes).1 = 0 then
        (tv.hdmiRxEdidDataSwitch ans bytes).2.hdmiRxEdidVerSwitch ans
          (value (tv.hdmiRxEdidDataSwitch ans bytes).2)
      else tv.hdmiRxEdidDataSwitch ans bytes).2 := by
    have hdata := touches_hdmiRxEdidDataSwitch ans tv bytes
    split
    · exact (hdata.trans (touches_hdmiRxEdidVerSwitch ans _ _)).mono rfl
    · exact hdata.mono rfl
  rw [loadEdidData]
  by_cases hblack : isNeedBlackScreen = 1
  · rw [if_pos hblack, decide_eq_true hblack]
    exact .stop tv hg (.refl _ _) (hload _ _ fun tv => tv.edidSetValue tv.getEdidVersion)
  · rw [if_neg hblack, decide_eq_false hblack]
    exact .beside (hload _ _ fun tv => tv.edidSetValue tv.getEdidVersion)

theorem DecoderStep.of_touches {tv₁ tv₂ : CTv} {stops : Bool} (h : Touches besideParts tv tv₁)
    (hstep : DecoderStep ans tv₁ tv₂ stops) : DecoderStep ans tv tv₂ stops := by
  cases hstep with
  | beside hbeside => exact .beside ((h.trans hbeside).mono rfl)
  | start before info hbefore hbehind =>
    exact .start before info ((h.trans hbefore).mono rfl) hbehind
  | stop before hg hbefore hbehind =>
    exact .stop before hg ((h.trans hbefore).mono rfl) hbehind

theorem decoderStep_onVdinSignalChange (hg : tv.Grounded) :
    DecoderStep ans tv (tv.onVdinSignalChange ans)
      (tv.stopsDecoder (.vdinSignalChange, ans)) := by
  rw [stopsDecoder]
  cases hreport : tv.report ans with
  | none => exact decoderStep_of_touches (touches_onVdinSignalChange_of_no_report hreport) rfl
  | some info =>
    have htouches := touches_recorded ans tv
    have hrecorded : (tv.recorded ans).Grounded := by
      apply Grounded.preserves.recordInfo
      apply Grounded.preserves.signalInfo
      apply Grounded.preserves.log
      exact Grounded.preserves.ioctl ans tv .getEventInfo (by decide) (by decide) hg
    -- neither the source nor the display of snow is changed before the report is handled
    have hsnow : (tv.recorded ans).needSnowEffect = tv.needSnowEffect :=
      htouches.frame needSnowEffect_dependsOn rfl
    have hstops : (tv.recorded ans).reportStops info.status = tv.reportStops info.status := by
      rw [reportStops, hsnow, reportStops]
    rw [onVdinSignalChange_of_report hreport]
    refine .of_touches (htouches.mono rfl) ?_
    dsimp only
    rw [← hstops]
    exact decoderStep_onSigTo hrecorded info.status

/-- **What a step does to the decoder**: it stops it, or starts it at most. -/
theorem step_decoder (hg : tv.Grounded) (x : Command × Answers) :
    DecoderStep x.2 tv (tv.step x) (tv.stopsDecoder x) := by
  obtain ⟨command, ans⟩ := x
  cases command with
  | startTv source => exact decoderStep_of_touches (touches_startTv ans tv source) rfl
  | stopTv source => exact decoderStep_stopTv hg source
  | switchSource destSource =>
    show DecoderStep ans tv (tv.switchSource ans destSource).2 (destSource ≠ tv.mCurrentSource)
    rw [switchSource]
    split
    · rename_i hne
      rw [decide_eq_true hne]
      -- the start of the destination comes behind the stop, and leaves the decoder alone
      cases decoderStep_stopTv hg tv.mCurrentSource with
      | stop before hbefore htouches hbehind =>
        exact .stop before hbefore htouches ((hbehind.trans (touches_startTv ans _ _)).mono rfl)
    · rename_i hsame
      rw [decide_eq_false hsame]
      exact .beside (.refl _ _)
  | setEdidVersion source edidVer => exact decoderStep_setEdidVersion hg source edidVer
  | loadEdidData isNeedBlackScreen isDolbyVisionEnable =>
    exact decoderStep_loadEdidData hg isNeedBlackScreen isDolbyVisionEnable
  | vdinSignalChange => exact decoderStep_onVdinSignalChange hg
  | _ => exact decoderStep_of_touches (touches_step tv _) rfl

/-! ## The flag and the driver -/

/-- The steps that keep the flag right: the ioctl that stops the decoder, if there is one, does not
fail. -/
def StopsInSync (tv : CTv) (x : Command × Answers) : Prop :=
  tv.mDecoderStarted = true → tv.stopsDecoder x = true → 0 ≤ x.2.vdin .stopDec

theorem inSync_of_agrees (hg : tv.Grounded) (h : tv.mDecoderStarted = tv.driverStarted) :
    tv.InSync := by
  refine ⟨h, fun ans hdriver => ?_⟩
  rw [tvinStopDecoder_of_started hg (h.trans hdriver)]
  rfl

theorem inSync_iff (hg : tv.Grounded) : tv.InSync ↔ tv.decoding.1 = tv.decoding.2 :=
  ⟨InSync.agrees, inSync_of_agrees hg⟩

theorem decoding_of_touches {tv' : CTv} (h : Touches besideParts tv tv') :
    tv'.decoding = tv.decoding := h.frame decoding_dependsOn rfl

theorem inSync_decoderStep {tv' : CTv} {stops : Bool} (hg' : tv'.Grounded) (hs : tv.InSync)
    (hstep : DecoderStep ans tv tv' stops) : tv'.InSync ↔
      (tv.mDecoderStarted = true → stops = true → 0 ≤ ans.vdin .stopDec) := by
  have hagrees : tv.decoding.1 = tv.decoding.2 := hs.agrees
  rw [inSync_iff hg']
  cases hstep with
  | beside h =>
    rw [decoding_of_touches h]
    exact iff_of_true hagrees nofun
  | start before info hbefore hbehind =>
    rw [decoding_of_touches hbehind]
    refine iff_of_true ?_ nofun
    rcases before.decoding_tvinStartDecoder ans info with hkeep | hstarted
    · rw [hkeep, decoding_of_touches hbefore]
      exact hagrees
    · rw [hstarted]
  | stop before hbefore htouches hbehind =>
    have hsame : before.decoding = tv.decoding := decoding_of_touches htouches
    have hstarted : before.mDecoderStarted = tv.mDecoderStarted := congrArg Prod.fst hsame
    have hdriver : before.driverStarted = tv.driverStarted := congrArg Prod.snd hsame
    rw [decoding_of_touches hbehind, decoding_tvinStopDecoder hbefore, hstarted, hdriver,
      ← hs.agrees, hsame]
    -- the decoder of the driver runs on where the flag was set and the ioctl fails
    cases tv.mDecoderStarted with
    | false => exact iff_of_true hagrees nofun
    | true =>
      by_cases hret : 0 ≤ ans.vdin .stopDec <;> simp [hret]

/-- **Steps in sync**: the steps that keep the flag right are exactly those whose ioctl that stops
the decoder, if there is one, does not fail. -/
theorem inSync_step_iff (hg : tv.Grounded) (hs : tv.InSync) (x : Command × Answers) :
    (tv.step x).InSync ↔ tv.StopsInSync x :=
  inSync_decoderStep (Grounded.preserves.step x hg) hs (step_decoder hg x)

theorem inSync_construct (ans : Answers) (boot : Boot) : (construct ans boot).InSync := by
  have hgrounded := Grounded.construct ans boot
  let tv := (configured ans boot).setCurrenSourceInfo noSignalInfo
  have hinfo : tv.Grounded := Grounded.preserves.recordInfo _ (Grounded.configured ans boot)
  have hstopped : tv.InSync := inSync_of_agrees hinfo rfl
  rw [construct] at hgrounded ⊢
  split
  · rename_i hauto
    rw [if_pos hauto] at hgrounded
    -- the data is loaded without a black screen
    refine (inSync_decoderStep hgrounded hstopped (decoderStep_loadEdidData hinfo 0 _)).mpr ?_
    intro _ hstops
    exact absurd (of_decide_eq_true hstops) (by decide)
  · exact hstopped

/-- **Runs in sync**: the flag says in every state of a run whether the decoder of the driver runs,
exactly if no ioctl that stops the decoder fails. -/
theorem inSync_iff_stops (ans : Answers) (boot : Boot) (xs : List (Command × Answers)) :
    Machine.Throughout step InSync (construct ans boot) xs ↔
      Machine.Along step StopsInSync (construct ans boot) xs := by
  apply Machine.throughout_iff_along Grounded
  · exact fun tv x => Grounded.preserves.step x
  · exact fun tv x hg hs => inSync_step_iff hg hs x
  · exact Grounded.construct ans boot
  · exact inSync_construct ans boot

/-- A stable report starts the decoder, if the kernel grants everything. -/
theorem started_of_stable (tv : CTv) {info : TvinInfo}
    (hstable : info.status = tvinSigStatusStable) :
    (tv.step (.vdinSignalChange, .granting tvinSigChgSts info)).mDecoderStarted = true := by
  have hpath : (tv.step (.vdinSignalChange, .granting tvinSigChgSts info)).path =
      (tv.path.record info).startDecoder true := by
    rw [path_step, signalInput, report_granting]
    exact SignalPath.step_report_stable _ hstable _ _
  have hstarted : ((tv.path.record info).startDecoder true).started = true := by
    rw [SignalPath.startDecoder]
    split
    · assumption
    · rfl
  rw [← hpath] at hstarted
  exact hstarted

/-- The ioctl that stops the decoder fails as an unstable signal is reported. -/
theorem not_forall_inSync :
    ¬ ∀ (ans : Answers) (boot : Boot) (xs : List (Command × Answers)),
      (Machine.run step (construct ans boot) xs).InSync := by
  intro hall
  let boot : Boot := ⟨fun _ => none, none, true, true, sourceTv⟩
  let stable : TvinInfo := { noSignalInfo with fmt := 0x401, status := tvinSigStatusStable }
  let unstable : TvinInfo := { noSignalInfo with status := tvinSigStatusUnstable }
  let ans := Answers.granting tvinSigChgSts stable
  let fails : Answers :=
    { Answers.granting tvinSigChgSts unstable with
      vdin := fun request => if request = .stopDec then -1 else 0 }
  have hrun := hall ans boot [(.vdinSignalChange, ans), (.vdinSignalChange, fails)]
  have hsync := hall ans boot [(.vdinSignalChange, ans)]
  have hgrounded := grounded_run ans boot [(.vdinSignalChange, ans)]
  have hstable : stable.status = tvinSigStatusStable := rfl
  have hstarted := started_of_stable (construct ans boot) hstable
  simp only [Machine.run_cons, Machine.run_nil] at hrun hsync hgrounded
  generalize (construct ans boot).step (.vdinSignalChange, ans) = tv
    at hrun hsync hgrounded hstarted
  -- the second event delivers its report, as the device is open
  have hreport : tv.report fails = some unstable := by
    have hopen : tv.mVdin0DevFd = true := hgrounded.open_of_started hstarted
    rw [report, tvinGetSignalEventInfo, vdinDeviceIOCtl_of_open hopen]
    exact if_pos ⟨Int32.le_refl 0, rfl, Int32.le_refl 0⟩
  have hstops : tv.stopsDecoder (.vdinSignalChange, fails) = true := by
    rw [stopsDecoder, hreport]
    rfl
  -- the flag is cleared, and the decoder of the driver runs on
  have hret := (inSync_step_iff hgrounded hsync _).mp hrun hstarted hstops
  have hfails : fails.vdin .stopDec = -1 := rfl
  rw [hfails] at hret
  exact not_nonneg_failure hret

end CTv
