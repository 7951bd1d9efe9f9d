import TvServer.Foundations.Journal
import TvServer.Tv.Footprint

/-!
# Invariants of the television object

Every step of the television object is made of ioctls and assignments, and what these keep is kept
by every step. In particular the state of the object agrees with its trace: a device that was
asked for something is open, and a decoder counts as started exactly if it was started last.

## Main definitions

* `Preserves Inv`: the operations of the devices keep an invariant
* `Grounded`: the state agrees with the trace

## Main results

* `Preserves.step`: an invariant that the operations of the devices keep is kept by every step
* `grounded_run`: after every run the state agrees with the trace
-/

/-- What the decoder was told: a start that failed leaves it as it is. -/
def TvAction.decoding : TvAction → Option Bool
  | .vdin (.startDec _) ret => if 0 ≤ ret then some true else none
  | .vdin .stopDec _ => some false
  | _ => none

namespace CTv

/-- The parts that the ioctls of the vdin device and of the analog frontend touch. -/
def deviceParts : List Part :=
  [.vdinFd, .afeFd, .decoder, .openPort, .closePort, .startDec, .stopDec, .vdinQuery, .snow]

/-- An invariant that is kept by the operations of the devices, and by what does not touch
these. -/
structure Preserves (Inv : CTv → Prop) : Prop where
  update : ∀ tv u, u.part ∉ deviceParts → Inv tv → Inv (update tv u)
  afe : ∀ ans tv request, Inv tv → Inv (afeDeviceIOCtl ans tv request).2
  ioctl : ∀ ans tv request, request.part ≠ .startDec → request.part ≠ .stopDec → Inv tv →
    Inv (vdinDeviceIOCtl ans tv request).2
  startDecoder : ∀ ans tv info, Inv tv → Inv (tvinStartDecoder ans tv info).2
  stopDecoder : ∀ ans tv, Inv tv → Inv (tvinStopDecoder ans tv).2

namespace Preserves

variable {Inv : CTv → Prop} {ans : Answers} {tv : CTv} (h : Preserves Inv)

include h

/-- What touches no part of the devices keeps the invariant. -/
theorem touches {parts : List Part} {tv' : CTv} (htouches : Touches parts tv tv')
    (hparts : Footprint.avoids parts deviceParts = true) (hi : Inv tv) : Inv tv' := by
  rw [Footprint.avoids, List.all_eq_true] at hparts
  obtain ⟨us, hus, rfl⟩ := htouches
  refine Machine.run_invariant_of_mem Inv (fun tv u hu => h.update tv u ?_) hi
  exact of_decide_eq_true (hparts _ (hus u hu))

theorem log (line : LogLine) (hi : Inv tv) : Inv (tv.perform (.log line)) :=
  h.touches (touches_log tv line) rfl hi

theorem sendTvEvent (event : CTvEvent) (hi : Inv tv) : Inv (tv.sendTvEvent event) :=
  h.touches (touches_sendTvEvent tv event) rfl hi

theorem videoColor (needColor : Bool) (hi : Inv tv) :
    Inv (tv.vppSetVideoColor ans needColor).2 :=
  h.touches (touches_vppSetVideoColor ans tv needColor) rfl hi

theorem videoLayer (status : Int32) (hi : Inv tv) : Inv (tv.setVideoLayerStatus ans status).2 :=
  h.touches (touches_setVideoLayerStatus ans tv status) rfl hi

theorem videoOutput (mode : Int32) (hi : Inv tv) :
    Inv (tv.setVideoGlobalOutputMode ans mode).2 :=
  h.touches (touches_setVideoGlobalOutputMode ans tv mode) rfl hi

theorem signalInfo (hi : Inv tv) : Inv (tv.tvinGetSignalInfo ans).2 :=
  h.ioctl ans tv .getSigInfo (by decide) (by decide) hi

theorem recordInfo (sigInfo : TvinInfo) (hi : Inv tv) : Inv (tv.setCurrenSourceInfo sigInfo) :=
  h.touches (touches_setCurrenSourceInfo tv sigInfo) rfl hi

/-! ### Commands -/

theorem startTv (source : SourceInput) (hi : Inv tv) : Inv (tv.startTv ans source).2 := by
  have hopened : Inv (tv.opened ans source).2 := by
    apply h.ioctl _ _ (.openPort _)
    · simp [VdinRequest.part]
    · simp [VdinRequest.part]
    · exact h.touches (touches_prepare ans tv source) rfl hi
  exact h.touches (touches_startTv_of_opened ans tv source) rfl hopened

theorem stopTv (source : SourceInput) (hi : Inv tv) : Inv (tv.stopTv ans source).2 := by
  have hstopped : Inv ((tv.mute ans).tvinStopDecoder ans).2 :=
    h.stopDecoder ans _ (h.touches (touches_mute ans tv) rfl hi)
  have hclosed : Inv (tv.closed ans) := h.ioctl ans _ .closePort (by decide) (by decide) hstopped
  exact h.touches (touches_stopTv_of_closed ans tv source) rfl hclosed

theorem switchSource (destSource : SourceInput) (hi : Inv tv) :
    Inv (tv.switchSource ans destSource).2 := by
  rw [CTv.switchSource]
  split
  · exact h.startTv destSource (h.stopTv _ hi)
  · exact hi

theorem setEdidVersion (source : SourceInput) (edidVer : UInt32) (hi : Inv tv) :
    Inv (tv.setEdidVersion ans source edidVer).2 := by
  have hwrite : ∀ value, Inv ((tv.tvinStopDecoder ans).2.hdmiRxEdidVerSwitch ans value).2 :=
    fun value => h.touches (touches_hdmiRxEdidVerSwitch ans _ value) rfl (h.stopDecoder ans tv hi)
  have hupdate : ∀ tv, Inv tv → Inv (tv.hdmiRxEdidUpdate ans).2 :=
    fun tv => h.touches (touches_hdmiRxEdidUpdate ans tv) rfl
  have hstore : ∀ tv, Inv tv → Inv (tv.storeEdidVersion source edidVer) :=
    fun tv => h.touches (touches_storeEdidVersion tv source edidVer) rfl
  unfold CTv.setEdidVersion
  dsimp only
  split_ifs
  · exact hupdate _ (hwrite _)
  · exact hwrite _
  · exact hstore _ (hupdate _ (hwrite _))
  · exact hstore _ (hwrite _)
  · exact hi

theorem loadEdidData (isNeedBlackScreen isDolbyVisionEnable : Int32) (hi : Inv tv) :
    Inv (tv.loadEdidData ans isNeedBlackScreen isDolbyVisionEnable).2 := by
  have hstopped : Inv (if isNeedBlackScreen = 1 then (tv.tvinStopDecoder ans).2 else tv) := by
    split
    · exact h.stopDecoder ans tv hi
    · exact hi
  have hdata : ∀ tv data, Inv tv → Inv (tv.hdmiRxEdidDataSwitch ans data).2 :=
    fun tv data => h.touches (touches_hdmiRxEdidDataSwitch ans tv data) rfl
  have hversion : ∀ tv value, Inv tv → Inv (tv.hdmiRxEdidVerSwitch ans value).2 :=
    fun tv value => h.touches (touches_hdmiRxEdidVerSwitch ans tv value) rfl
  rw [CTv.loadEdidData]
  generalize (if isNeedBlackScreen = 1 then (tv.tvinStopDecoder ans).2 else tv) = stopped
    at hstopped ⊢
  generalize edidLoadBuf ans _ _ = data
  split
  · exact hversion _ _ (hdata _ _ hstopped)
  · exact hdata _ _ hstopped

theorem getFrontendInfo (frontendInfo : TvinFrontendInfo) (hi : Inv tv) :
    Inv (tv.getFrontendInfo ans frontendInfo).2 := by
  have hquery := h.ioctl ans tv .getFrontendInfo (by decide) (by decide) hi
  rw [CTv.getFrontendInfo, tvinGetFrontendInfo]
  split <;> exact hquery

theorem getColorRangeMode (hi : Inv tv) : Inv (tv.getColorRangeMode ans).2 := by
  have hquery := h.ioctl ans tv .getColorRange (by decide) (by decide) hi
  rw [CTv.getColorRangeMode, tvinGetColorRangeMode]
  split <;> exact hquery

/-! ### Vdin events -/

theorem setSnowShowEnable (enable : Bool) (hi : Inv tv) :
    Inv (tv.setSnowShowEnable ans enable).2 := by
  have hmode : ∀ tv value, Inv tv → Inv (tv.setVideoScreenMode ans value) :=
    fun tv value => h.touches (touches_tvWriteSysfs ans tv .screenMode _) rfl
  have hsnow : ∀ tv, Inv tv → Inv (tv.tvinSwitchSnow ans enable).2 := by
    intro tv hi
    rw [tvinSwitchSnow]
    split
    · exact h.ioctl ans _ .snowOn (by decide) (by decide) (h.afe ans tv .snowOn hi)
    · exact h.ioctl ans _ .snowOff (by decide) (by decide) (h.afe ans tv .snowOff hi)
  rw [CTv.setSnowShowEnable]
  apply hsnow
  split
  · apply hmode
    exact h.touches (touches_update tv (.setLastScreenMode _)) rfl hi
  · exact hmode _ _ hi

theorem onSigTo (status : UInt32) (hi : Inv tv) : Inv (tv.onSigTo ans status) := by
  unfold CTv.onSigTo
  split_ifs
  · exact h.sendTvEvent _ (h.videoOutput _ (h.videoLayer _ (h.startDecoder ans _ _
      (h.log .onSigToStable hi))))
  · exact h.log .onSigToUnstable (h.stopDecoder ans tv hi)
  · exact h.sendTvEvent _ (h.stopDecoder ans _ (h.log .onSigToUnSupport hi))
  · rw [onSigToNoSig]
    apply h.sendTvEvent
    split
    · have hsnow : Inv ((tv.perform (.log .onSigToNoSig)).setSnowShowEnable ans true).2 :=
        h.setSnowShowEnable true (h.log .onSigToNoSig hi)
      exact h.videoColor false (h.videoLayer _ (h.startDecoder ans _ _ hsnow))
    · exact h.stopDecoder ans _ (h.videoColor false (h.log .onSigToNoSig hi))
  · exact h.log .invalidSignalStatus hi

theorem onSigStatusChange (hi : Inv tv) : Inv (tv.onSigStatusChange ans) := by
  rw [CTv.onSigStatusChange]
  split
  · exact h.signalInfo hi
  · exact h.onSigTo _ (h.recordInfo _ (h.signalInfo hi))

theorem onVdinEvent (word : UInt32) (hi : Inv tv) : Inv (tv.onVdinEvent ans word) := by
  unfold CTv.onVdinEvent
  dsimp only
  split_ifs
  · have hlog := h.log .hdrInfoChange hi
    unfold onHdrInfoChange
    dsimp only
    split_ifs
    · exact h.signalInfo hlog
    · exact h.recordInfo _ (h.signalInfo hlog)
    · exact h.signalInfo hlog
  · exact h.log _ hi
  · exact h.log _ hi
  · exact h.log _ hi
  · exact h.log _ hi
  · exact h.onSigStatusChange (h.log .vdinSignalStatusChange hi)
  · have hlog := h.log .afdInfoChange hi
    unfold onAfdInfoChange
    dsimp only
    split_ifs
    · exact h.signalInfo hlog
    · exact h.recordInfo _ (h.signalInfo hlog)
    · exact h.signalInfo hlog
    · exact hlog
  · exact h.log _ hi
  · exact h.log _ hi

theorem onVdinSignalChange (hi : Inv tv) : Inv (tv.onVdinSignalChange ans) := by
  have hevent : Inv (tv.tvinGetSignalEventInfo ans).2 :=
    h.ioctl ans tv .getEventInfo (by decide) (by decide) hi
  rw [CTv.onVdinSignalChange]
  split
  · exact hevent
  · exact h.onVdinEvent ans.eventInfo hevent

/-- **Invariants of the devices** are kept by every step. -/
theorem step (x : Command × Answers) (hi : Inv tv) : Inv (tv.step x) := by
  obtain ⟨command, ans⟩ := x
  cases command with
  | startTv source => exact h.startTv source hi
  | stopTv source => exact h.stopTv source hi
  | switchSource destSource => exact h.switchSource destSource hi
  | setEdidVersion source edidVer => exact h.setEdidVersion source edidVer hi
  | loadEdidData isNeedBlackScreen isDolbyVisionEnable =>
    exact h.loadEdidData isNeedBlackScreen isDolbyVisionEnable hi
  | setVdinWorkMode vdinWorkMode =>
    exact h.touches (touches_update tv (.assignVdinWorkMode vdinWorkMode)) rfl hi
  | getFrontendInfo frontendInfo => exact h.getFrontendInfo frontendInfo hi
  | getColorRangeMode => exact h.getColorRangeMode hi
  | sourceConnect source connectStatus => exact h.sendTvEvent _ hi
  | vdinSignalChange => exact h.onVdinSignalChange hi

/-- The constructor keeps an invariant that holds once the ports are loaded. -/
theorem construct {boot : Boot} (hi : Inv (configured ans boot)) : Inv (construct ans boot) := by
  have hinfo := h.recordInfo noSignalInfo hi
  rw [CTv.construct]
  split
  · exact h.loadEdidData 0 _ hinfo
  · exact hinfo

end Preserves

/-! ## The state and the trace -/

/-- The state agrees with the trace: a vdin device that was asked for something is open, and the
decoder counts as started exactly if it was started last. -/
structure Grounded (tv : CTv) : Prop where
  device : ∀ request ret, .vdin request ret ∈ tv.trace → tv.mVdin0DevFd = true
  decoder : Journal.lastOf TvAction.decoding tv.trace = some true ↔ tv.mDecoderStarted = true

namespace Grounded

variable {ans : Answers} {tv : CTv}

/-- An ioctl that was made leaves the device open; the decoder counts as started or not as the
ioctl left it. -/
theorem of_ioctl (request : VdinRequest) (ret : Int32) {started : Bool}
    (hstarted : (TvAction.vdin request ret).decoding.or
      (Journal.lastOf TvAction.decoding tv.trace) = some true ↔ started = true) :
    (((tv.setVdin0DevFd true).perform (.vdin request ret)).setDecoderStarted started).Grounded := by
  constructor
  · exact fun _ _ _ => rfl
  · show Journal.lastOf TvAction.decoding (tv.trace ++ [.vdin request ret]) = some true ↔ _
    rw [Journal.lastOf_snoc]
    exact hstarted

section

variable (h : tv.Grounded)

include h

/-- What the vdin device is not asked for leaves the agreement alone. -/
theorem perform {action : TvAction} (haction : ∀ request ret, action ≠ .vdin request ret) :
    (tv.perform action).Grounded := by
  have hdecoding : action.decoding = none := by
    cases action with
    | vdin request ret => exact absurd rfl (haction request ret)
    | _ => rfl
  constructor
  · intro request ret hmem
    rcases List.mem_append.mp hmem with hmem | hmem
    · exact h.device request ret hmem
    · exact absurd (List.mem_singleton.mp hmem).symm (haction request ret)
  · show Journal.lastOf TvAction.decoding (tv.trace ++ [action]) = some true ↔ _
    rw [Journal.lastOf_snoc, hdecoding]
    exact h.decoder

/-- A decoder that is stopped may be assigned to be stopped. -/
theorem assign_stopped (hstopped : tv.mDecoderStarted = false) :
    (tv.setDecoderStarted false).Grounded :=
  ⟨h.device, h.decoder.trans (by rw [hstopped]; rfl)⟩

/-- A decoder was started by an ioctl, which leaves the device open. -/
theorem open_of_started (hstarted : tv.mDecoderStarted = true) : tv.mVdin0DevFd = true := by
  obtain ⟨action, hmem, haction⟩ := Journal.exists_mem_of_lastOf (h.decoder.mpr hstarted)
  cases action with
  | vdin request ret => exact h.device request ret hmem
  | _ => exact absurd haction (by simp [TvAction.decoding])

end

theorem preserves : Preserves Grounded where
  update tv u hu h := by
    cases u with
    | perform action =>
      refine h.perform fun request ret haction => hu ?_
      subst haction
      cases request <;> exact of_decide_eq_true rfl
    | storeEdidVersion source edidVer =>
      show (tv.storeEdidVersion source edidVer).Grounded
      unfold storeEdidVersion
      split_ifs <;> exact ⟨h.device, h.decoder⟩
    | setVdin0DevFd isOpen => exact absurd (of_decide_eq_true rfl) hu
    | setDecoderStarted started => exact absurd (of_decide_eq_true rfl) hu
    | _ => exact ⟨h.device, h.decoder⟩
  afe ans tv request h := by
    rw [afeDeviceIOCtl_eq]
    split
    · have hafe : (tv.perform (.afe request (ans.afe request))).Grounded := h.perform (by simp)
      exact ⟨hafe.device, hafe.decoder⟩
    · exact h
  ioctl ans tv request hstart hstop h := by
    rw [vdinDeviceIOCtl_eq]
    split
    · refine of_ioctl request (ans.vdin request) ?_
      have hdecoding : (TvAction.vdin request (ans.vdin request)).decoding = none := by
        cases request <;> first | rfl | exact absurd rfl hstart | exact absurd rfl hstop
      rw [hdecoding]
      exact h.decoder
    · exact h
  startDecoder ans tv info h := by
    rw [tvinStartDecoder]
    split
    · exact h
    · rename_i hstarted
      have hstopped : tv.mDecoderStarted = false := by simpa using hstarted
      have hparams : (tv.setTvinParamInfo info).Grounded := ⟨h.device, h.decoder⟩
      have hlast : Journal.lastOf TvAction.decoding (tv.setTvinParamInfo info).trace ≠ some true :=
        fun hon => hstarted (h.decoder.mp hon)
      dsimp only
      rw [vdinDeviceIOCtl_eq]
      split
      · dsimp only
        split <;> apply of_ioctl
        · rename_i hret
          simp [TvAction.decoding, hret]
        · rename_i hret
          simpa [TvAction.decoding, hret] using hlast
      · exact hparams.assign_stopped hstopped
  stopDecoder ans tv h := by
    rw [tvinStopDecoder]
    split
    · exact h
    · rename_i hstarted
      have hon : tv.mDecoderStarted = true := by simpa using hstarted
      have hioctl : (tv.mVdin0DevFd || ans.vdinOpen .stopDec) = true := by
        rw [h.open_of_started hon]
        rfl
      dsimp only
      rw [vdinDeviceIOCtl_eq, if_pos hioctl]
      split <;> exact of_ioctl .stopDec (ans.vdin .stopDec) (by simp [TvAction.decoding])

theorem configured (ans : Answers) (boot : Boot) : (configured ans boot).Grounded := by
  have hallocated : (allocate boot).loadATVDisplaySnow.Grounded :=
    ⟨fun _ _ hmem => absurd hmem List.not_mem_nil, iff_of_false nofun nofun⟩
  have hpath : ((allocate boot).loadATVDisplaySnow.tvinAddVideoPath ans).2.Grounded :=
    hallocated.perform (by simp)
  exact ⟨hpath.device, hpath.decoder⟩

theorem construct (ans : Answers) (boot : Boot) : (construct ans boot).Grounded :=
  preserves.construct (configured ans boot)

end Grounded

/-- **After every run** the state agrees with the trace. -/
theorem grounded_run (ans : Answers) (boot : Boot) (xs : List (Command × Answers)) :
    (Machine.run step (construct ans boot) xs).Grounded :=
  Machine.run_invariant Grounded (fun _ x => Grounded.preserves.step x)
    (Grounded.construct ans boot) xs

end CTv
