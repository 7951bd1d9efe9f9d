import TvServer.Foundations.Sensor
import TvServer.Tv.DecoderProtocol
import TvServer.Tv.Session

/-!
# The video planes

Above the decoder stand the video layer, the output of all video, the node that disables the video
and the test screen. A stop disables the layer and the output. A stable signal enables both, but a
missing signal that is shown as snow enables the layer only. A start of `DTV` disables the video by
its node and paints the test screen blue; only a missing signal enables it again, so that a stable
signal of the next source does not.

## Main definitions

* `Picture`: what the video planes were last told
* `PictureEvent`, `Picture.step`: what the television object does to them
* `CTv.pictureEvents`: what a step does to them

## Main results

* `picture_step`: a step does its events
* `picture_run`: what the video planes were told along a run
-/

namespace TvAction

/-- Whether the output of all video was enabled or disabled. -/
def output : TvAction → Option Bool
  | .amVideo (.setVideoOutput mode) _ => some (mode = CTv.videoGlobalOutputModeEnable)
  | _ => none

/-- What was written to the node that disables the video. -/
def disableVideo : TvAction → Option (List Char)
  | .writeSysfs .disableVideo value _ => some value
  | _ => none

/-- The color of the test screen. -/
def testScreen : TvAction → Option (List Char)
  | .writeSysfs .testScreen value _ => some value
  | _ => none

end TvAction

/-! ## What the planes are told -/

/-- What the video planes were last told, if anything. -/
@[ext] structure Picture where
  layer : Option Bool
  output : Option Bool
  disableVideo : Option (List Char)
  testScreen : Option (List Char)

/-- What the television object does to the planes: blue for `DTV`, a stop, a stable signal, and a
missing signal with snow or without. -/
inductive PictureEvent where
  | blue
  | stop
  | stable
  | snow
  | noSignal

namespace Picture

/-- The text for the color with these components. -/
def screenText (y u v : UInt32) : List Char :=
  '0' :: 'x' :: CText.hexText ((0 : UInt32) <<< 24 ||| y <<< 16 ||| u <<< 8 ||| v)

def blueScreen : List Char := screenText 41 240 110

def blackScreen : List Char := screenText 16 128 128

theorem blackScreen_ne : blackScreen ≠ blueScreen := by decide

/-- The planes that were told nothing yet. -/
def untold : Picture := ⟨none, none, none, none⟩

/-- Paint the test screen blue with the video disabled, or black with the video enabled. -/
def color (p : Picture) (needColor : Bool) : Picture :=
  if needColor then { p with disableVideo := some ['1'], testScreen := some blueScreen }
  else { p with disableVideo := some ['2'], testScreen := some blackScreen }

def step (p : Picture) : PictureEvent → Picture
  | .blue => p.color true
  | .stop => { p with layer := some false, output := some false }
  | .stable => { p with layer := some true, output := some true }
  | .snow => { p with layer := some true }.color false
  | .noSignal => p.color false

/-- The layer is enabled by a stable signal or by snow, until a stop. -/
theorem layer_run_iff {p : Picture} (hp : p.layer ≠ some true) (es : List PictureEvent) :
    (Machine.run step p es).layer = some true ↔
      Journal.Since (fun e => e = .stable ∨ e = .snow) (fun e => e = .stop) es := by
  apply Journal.run_iff_since (R := fun p : Picture => p.layer = some true) _ hp
  intro p e
  cases e <;> simp [step, color]

/-- The output is enabled by a stable signal, until a stop. -/
theorem output_run_iff {p : Picture} (hp : p.output ≠ some true) (es : List PictureEvent) :
    (Machine.run step p es).output = some true ↔
      Journal.Since (fun e => e = .stable) (fun e => e = .stop) es := by
  apply Journal.run_iff_since (R := fun p : Picture => p.output = some true) _ hp
  intro p e
  cases e <;> simp [step, color]

/-- The video is disabled by a start of `DTV`, until a missing signal. -/
theorem disableVideo_run_iff {p : Picture} (hp : p.disableVideo ≠ some ['1'])
    (es : List PictureEvent) :
    (Machine.run step p es).disableVideo = some ['1'] ↔
      Journal.Since (fun e => e = .blue) (fun e => e = .snow ∨ e = .noSignal) es := by
  apply Journal.run_iff_since (R := fun p : Picture => p.disableVideo = some ['1']) _ hp
  intro p e
  cases e <;> simp [step, color]

/-- The test screen is blue exactly where the video is disabled. -/
def BlueDisabled (p : Picture) : Prop :=
  p.testScreen = some blueScreen ↔ p.disableVideo = some ['1']

theorem blueDisabled_run {p : Picture} (hp : p.BlueDisabled) (es : List PictureEvent) :
    (Machine.run step p es).BlueDisabled := by
  apply Machine.run_invariant BlueDisabled _ hp
  intro p e hp
  have hblue : (p.color true).BlueDisabled := iff_of_true rfl rfl
  have hblack (p : Picture) : (p.color false).BlueDisabled := by
    apply iff_of_false
    · exact fun h => blackScreen_ne (Option.some_inj.mp h)
    · exact fun h => absurd (Option.some_inj.mp h) (by decide)
  cases e with
  | blue => exact hblue
  | stop => exact hp
  | stable => exact hp
  | snow => exact hblack _
  | noSignal => exact hblack _

end Picture

namespace CTv

variable {ans : Answers} {tv : CTv}

/-- What the television object last told the video planes. -/
def picture (tv : CTv) : Picture where
  layer := Journal.lastOf TvAction.layer tv.trace
  output := Journal.lastOf TvAction.output tv.trace
  disableVideo := Journal.lastOf TvAction.disableVideo tv.trace
  testScreen := Journal.lastOf TvAction.testScreen tv.trace

/-- What a start of a source does to the planes. -/
def startEvents (source : SourceInput) : List PictureEvent :=
  if source = sourceDtv then [.blue] else []

/-- What the report of a status does to the planes. -/
def statusEvents (tv : CTv) (status : UInt32) : List PictureEvent :=
  if status = tvinSigStatusStable then [.stable]
  else if status = tvinSigStatusNosig then
    if tv.needSnowEffect then [.snow] else [.noSignal]
  else []

/-- What a step does to the planes. -/
def pictureEvents (tv : CTv) : Command × Answers → List PictureEvent
  | (.startTv source, _) => startEvents source
  | (.stopTv _, _) => [.stop]
  | (.switchSource destSource, _) =>
    if destSource ≠ tv.mCurrentSource then .stop :: startEvents destSource else []
  | (.vdinSignalChange, ans) => (tv.report ans).elim [] fun info => tv.statusEvents info.status
  | _ => []

/-! ## Operations -/

theorem picture_dependsOn : DependsOn picture [.amVideo, .sysfs] := by
  apply trace_dependsOn (f := fun trace => Picture.mk (Journal.lastOf TvAction.layer trace)
    (Journal.lastOf TvAction.output trace) (Journal.lastOf TvAction.disableVideo trace)
    (Journal.lastOf TvAction.testScreen trace))
  intro trace action haction
  simp only [List.mem_cons, List.not_mem_nil, or_false, not_or] at haction
  obtain ⟨hlayer, hsysfs⟩ := haction
  have houtput : action.output = none := by
    cases action with
    | amVideo request ret => exact absurd rfl hlayer
    | _ => rfl
  have hdisable : action.disableVideo = none := by
    cases action with
    | writeSysfs node value ret => cases node <;> first | rfl | exact absurd rfl hsysfs
    | _ => rfl
  have hscreen : action.testScreen = none := by
    cases action with
    | writeSysfs node value ret => cases node <;> first | rfl | exact absurd rfl hsysfs
    | _ => rfl
  have hnone : action.layer = none := TvAction.layer_eq_none (by simpa using hlayer)
  simp [Journal.lastOf_snoc, hnone, houtput, hdisable, hscreen]

/-- What touches neither the planes nor their nodes leaves the picture. -/
theorem picture_of_touches {parts : List Part} {tv' : CTv} (h : Touches parts tv tv')
    (hparts : Footprint.avoids parts [.amVideo, .sysfs] = true) : tv'.picture = tv.picture :=
  h.frame picture_dependsOn hparts

theorem picture_setVideoLayerStatus (status : Int32) :
    (tv.setVideoLayerStatus ans status).2.picture =
      { tv.picture with layer := some (status = videoLayerStatusEnable) } := by
  simp [picture, setVideoLayerStatus, amVideoDeviceIOCtl, perform, Journal.lastOf_snoc,
    TvAction.layer, TvAction.output, TvAction.disableVideo, TvAction.testScreen]

theorem picture_setVideoGlobalOutputMode (mode : Int32) :
    (tv.setVideoGlobalOutputMode ans mode).2.picture =
      { tv.picture with output := some (mode = videoGlobalOutputModeEnable) } := by
  simp [picture, setVideoGlobalOutputMode, amVideoDeviceIOCtl, perform, Journal.lastOf_snoc,
    TvAction.layer, TvAction.output, TvAction.disableVideo, TvAction.testScreen]

theorem picture_disableVideo (value : List Char) :
    (tv.tvWriteSysfs ans .disableVideo value).2.picture =
      { tv.picture with disableVideo := some value } := by
  simp [picture, tvWriteSysfs, perform, Journal.lastOf_snoc, TvAction.layer, TvAction.output,
    TvAction.disableVideo, TvAction.testScreen]

theorem picture_setVideoColorYuv (y u v : UInt32) :
    (tv.setVideoColorYuv ans 0 y u v).2.picture =
      { tv.picture with testScreen := some (Picture.screenText y u v) } := by
  simp [picture, setVideoColorYuv, tvWriteSysfs, perform, Journal.lastOf_snoc, TvAction.layer,
    TvAction.output, TvAction.disableVideo, TvAction.testScreen, Picture.screenText]

theorem picture_vppSetVideoColor (needColor : Bool) :
    (tv.vppSetVideoColor ans needColor).2.picture = tv.picture.color needColor := by
  cases needColor with
  | false =>
    -- neither black nor blue: the video is disabled behind the test screen
    have hblack : tv.vppSetVideoColor ans false = ((tv.setVideoColorYuv ans 0 16 128 128).1,
      ((tv.setVideoColorYuv ans 0 16 128 128).2.tvWriteSysfs ans .disableVideo ['2']).2) := rfl
    rw [hblack, picture_disableVideo, picture_setVideoColorYuv]
    rfl
  | true =>
    have hblue : tv.vppSetVideoColor ans true =
      (tv.tvWriteSysfs ans .disableVideo ['1']).2.setVideoColorYuv ans 0 41 240 110 := rfl
    rw [hblue, picture_setVideoColorYuv, picture_disableVideo]
    rfl

/-- The nodes of the synchronization are not those of the planes. -/
theorem picture_tvWriteSysfs {node : SysNode} (hdisable : node ≠ .disableVideo)
    (hscreen : node ≠ .testScreen) (value : List Char) :
    (tv.tvWriteSysfs ans node value).2.picture = tv.picture := by
  cases node with
  | disableVideo => exact absurd rfl hdisable
  | testScreen => exact absurd rfl hscreen
  | _ =>
    simp [picture, tvWriteSysfs, perform, Journal.lastOf_snoc, TvAction.layer, TvAction.output,
      TvAction.disableVideo, TvAction.testScreen]

/-! ## Commands -/

/-- The planes are prepared before the port is opened. -/
theorem picture_prepare (source : SourceInput) :
    (tv.prepare ans source).picture =
      Machine.run Picture.step tv.picture (startEvents source) := by
  by_cases hdtv : source = sourceDtv
  · rw [prepare, if_pos hdtv, if_neg (not_not_intro hdtv), startEvents, if_pos hdtv,
      picture_tvWriteSysfs (by decide) (by decide), picture_vppSetVideoColor]
    rfl
  · rw [prepare, if_neg hdtv, if_pos hdtv, startEvents, if_neg hdtv,
      picture_tvWriteSysfs (by decide) (by decide), picture_tvWriteSysfs (by decide) (by decide)]
    rfl

theorem picture_startTv (source : SourceInput) :
    (tv.startTv ans source).2.picture =
      Machine.run Picture.step tv.picture (startEvents source) := by
  have hopened : (tv.opened ans source).2.picture = (tv.prepare ans source).picture :=
    picture_of_touches (touches_vdinDeviceIOCtl ans _ (.openPort _)) rfl
  have hbehind := picture_of_touches (touches_startTv_of_opened ans tv source) rfl
  exact hbehind.trans (hopened.trans (picture_prepare source))

theorem picture_stopTv (source : SourceInput) :
    (tv.stopTv ans source).2.picture = tv.picture.step .stop := by
  have hrelease : (tv.releaseAudioPatch ans).picture = tv.picture :=
    picture_of_touches (touches_releaseAudioPatch ans tv) rfl
  have hmute : (tv.mute ans).picture = tv.picture.step .stop := by
    rw [mute, picture_setVideoGlobalOutputMode, picture_setVideoLayerStatus, hrelease]
    rfl
  have hstopped := (touches_tvinStopDecoder ans (tv.mute ans)).trans
    (touches_vdinDeviceIOCtl ans _ .closePort)
  have hbehind := hstopped.trans (touches_stopTv_of_closed ans tv source)
  exact (picture_of_touches hbehind rfl).trans hmute

theorem picture_onSigToStable : (tv.onSigToStable ans).picture = tv.picture.step .stable := by
  have hstart := (touches_log tv .onSigToStable).trans (touches_tvinStartDecoder ans _
    (tv.perform (.log .onSigToStable)).mCurrentSignalInfo)
  have hsend (tv : CTv) (event : CTvEvent) : (tv.sendTvEvent event).picture = tv.picture :=
    picture_of_touches (touches_sendTvEvent tv event) rfl
  rw [onSigToStable, hsend, picture_setVideoGlobalOutputMode, picture_setVideoLayerStatus,
    picture_of_touches hstart rfl]
  rfl

theorem picture_onSigToNoSig : (tv.onSigToNoSig ans).picture =
    if tv.needSnowEffect then tv.picture.step .snow else tv.picture.step .noSignal := by
  have hlog := touches_log tv .onSigToNoSig
  have hneed : (tv.perform (.log .onSigToNoSig)).needSnowEffect = tv.needSnowEffect := rfl
  have hsend (tv : CTv) (event : CTvEvent) : (tv.sendTvEvent event).picture = tv.picture :=
    picture_of_touches (touches_sendTvEvent tv event) rfl
  rw [onSigToNoSig, hsend, hneed]
  split
  · -- the layer is enabled behind the decoder, and the output is left as it is
    have hshown := hlog.trans (touches_setSnowShowEnable ans _ true)
    rw [picture_vppSetVideoColor, picture_setVideoLayerStatus,
      picture_of_touches (hshown.trans (touches_tvinStartDecoder ans _ _)) rfl]
    rfl
  · rw [picture_of_touches (touches_tvinStopDecoder ans _) rfl, picture_vppSetVideoColor,
      picture_of_touches hlog rfl]
    rfl

theorem picture_onSigTo (status : UInt32) : (tv.onSigTo ans status).picture =
    Machine.run Picture.step tv.picture (tv.statusEvents status) := by
  have hstop := touches_tvinStopDecoder ans
  unfold onSigTo
  split_ifs with hstable hunstable hnotsup hnosig
  · rw [picture_onSigToStable, statusEvents, if_pos hstable]
    rfl
  · -- the planes are left as they are, but for the two statuses
    subst hunstable
    exact picture_of_touches ((hstop tv).trans (touches_log _ .onSigToUnstable)) rfl
  · subst hnotsup
    have hstopped := (touches_log tv .onSigToUnSupport).trans (hstop _)
    exact picture_of_touches (hstopped.trans (touches_sendTvEvent _ _)) rfl
  · rw [picture_onSigToNoSig, statusEvents, if_neg hstable, if_pos hnosig]
    split <;> rfl
  · rw [statusEvents, if_neg hstable, if_neg hnosig]
    exact picture_of_touches (touches_log tv .invalidSignalStatus) rfl

/-- **A step** does its events to the planes. -/
theorem picture_step (x : Command × Answers) : (tv.step x).picture =
    Machine.run Picture.step tv.picture (tv.pictureEvents x) := by
  obtain ⟨command, ans⟩ := x
  have htouches := touches_step tv (command, ans)
  cases command with
  | startTv source => exact picture_startTv source
  | stopTv source => exact picture_stopTv source
  | switchSource destSource =>
    rw [pictureEvents, step, switchSource]
    split
    · rw [picture_startTv, picture_stopTv]
      rfl
    · rfl
  | vdinSignalChange =>
    rw [pictureEvents, step]
    cases hreport : tv.report ans with
    | none => exact picture_of_touches (touches_onVdinSignalChange_of_no_report hreport) rfl
    | some info =>
      have hrecorded := touches_recorded ans tv
      have hneed : (tv.recorded ans).needSnowEffect = tv.needSnowEffect :=
        hrecorded.frame needSnowEffect_dependsOn rfl
      rw [onVdinSignalChange_of_report hreport, picture_onSigTo, statusEvents, hneed,
        picture_of_touches hrecorded rfl]
      rfl
  | _ => exact picture_of_touches htouches rfl

/-! ## Runs -/

/-- What a run does to the planes. -/
abbrev pictureRun (tv : CTv) (xs : List (Command × Answers)) : List PictureEvent :=
  Sensor.outputs (fun tv x => (tv.pictureEvents x, tv.step x)) tv xs

theorem picture_run_eq (tv : CTv) (xs : List (Command × Answers)) :
    (Machine.run step tv xs).picture =
      Machine.run Picture.step tv.picture (tv.pictureRun xs) := by
  let sensor (tv : CTv) (x : Command × Answers) := (tv.pictureEvents x, tv.step x)
  have hstep (tv : CTv) (x : Command × Answers) : (sensor tv x).2.picture =
      Machine.run Picture.step tv.picture (sensor tv x).1 := picture_step x
  exact Sensor.followed hstep tv xs

/-- The constructor tells the planes nothing. -/
theorem picture_construct (ans : Answers) (boot : Boot) :
    (construct ans boot).picture = .untold := by
  have hconfigured : (configured ans boot).picture = .untold :=
    picture_tvWriteSysfs (by decide) (by decide) _
  exact (picture_of_touches (touches_construct ans boot) rfl).trans hconfigured

/-- **The picture along every run.** The layer is enabled exactly if there was a stable signal or
snow since the last stop, but the output only if there was a stable signal. The video is disabled by
its node, and the test screen blue, exactly if `DTV` was started and no signal went missing since,
whatever source was started, and whatever signal was stable behind it. -/
theorem picture_run (ans : Answers) (boot : Boot) (xs : List (Command × Answers)) :
    let p := (Machine.run step (construct ans boot) xs).picture
    let es := (construct ans boot).pictureRun xs
    (p.layer = some true ↔
      Journal.Since (fun e => e = .stable ∨ e = .snow) (fun e => e = .stop) es) ∧
    (p.output = some true ↔ Journal.Since (fun e => e = .stable) (fun e => e = .stop) es) ∧
    (p.disableVideo = some ['1'] ↔
      Journal.Since (fun e => e = .blue) (fun e => e = .snow ∨ e = .noSignal) es) ∧
    (p.testScreen = some Picture.blueScreen ↔ p.disableVideo = some ['1']) := by
  intro p es
  have hp : p = Machine.run Picture.step .untold es :=
    (picture_run_eq _ xs).trans (congrArg (Machine.run Picture.step · es)
      (picture_construct ans boot))
  rw [hp]
  refine ⟨Picture.layer_run_iff (by decide) es, Picture.output_run_iff (by decide) es,
    Picture.disableVideo_run_iff (by decide) es, ?_⟩
  exact Picture.blueDisabled_run (iff_of_false (by decide) (by decide)) es

end CTv
