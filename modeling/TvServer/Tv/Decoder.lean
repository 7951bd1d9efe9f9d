import TvServer.Foundations.Machine
import TvServer.Tv.Signal

/-!
# The decoder

The decoder is started and stopped by the handlers of the status reports, by the commands for the
source and by those for the EDID. It should run only at a source and with a signal that can be
shown, and with the format of that signal.

## Main definitions

* `DecoderSafe`: the decoder runs only at a source whose signal can be shown
* `KeepsDecoderSafe`: the steps that keep this
* `DecoderCurrent`: a stable signal is shown with its own format
* `MeetsFormat`: the reports that reach this

## Main results

* `decoderSafe_step_iff`: which steps keep the decoder safe
* `decoderSafe_iff_keeps`: the runs in which the decoder is safe throughout
* `decoderCurrent_iff_meets`: the reports after which the decoder runs with the current format
-/

namespace CTv

/-! ## Safety -/

/-- A started decoder has a source, and a signal that is stable, or missing at a television
channel where snow is displayed. -/
def DecoderSafe (tv : CTv) : Prop :=
  tv.mDecoderStarted = true →
    tv.mCurrentSource ≠ sourceInvalid ∧
      (tv.mCurrentSignalInfo.status = tvinSigStatusStable ∨
        tv.mCurrentSignalInfo.status = tvinSigStatusNosig ∧ tv.mCurrentSource = sourceTv ∧
          tv.mATVDisplaySnow = true)

/-- The steps that keep a safe decoder safe. A command that starts a source keeps it safe unless
the decoder runs and the recorded signal cannot be shown there. A stable report does so unless it
starts the decoder without a source, and a report of no known status unless the decoder runs. -/
def KeepsDecoderSafe (tv : CTv) : Command × Answers → Prop
  | (.startTv source, _) =>
    tv.mDecoderStarted = true →
      source ≠ sourceInvalid ∧
        (tv.mCurrentSignalInfo.status = tvinSigStatusStable ∨
          tv.mCurrentSignalInfo.status = tvinSigStatusNosig ∧ source = sourceTv ∧
            tv.mATVDisplaySnow = true)
  | (.vdinSignalChange, ans) =>
    ∀ info ∈ tv.report ans,
      if info.status = tvinSigStatusStable then
        tv.mCurrentSource ≠ sourceInvalid ∨ ans.vdin (.startDec info) < 0
      else
        info.status = tvinSigStatusUnstable ∨ info.status = tvinSigStatusNotsup ∨
          info.status = tvinSigStatusNosig ∨ tv.mDecoderStarted = false
  | _ => True

end CTv

namespace SignalPath

/-- `CTv.DecoderSafe`, of the path. -/
def DecoderSafe (p : SignalPath) : Prop :=
  p.started = true →
    p.source ≠ sourceInvalid ∧
      (p.status = tvinSigStatusStable ∨
        p.status = tvinSigStatusNosig ∧ p.source = sourceTv ∧ p.displaySnow = true)

theorem decoderSafe_of_not_started {p : SignalPath} (h : p.started = false) : p.DecoderSafe :=
  fun hs => absurd hs (by simp [h])

/-- A stable report keeps the decoder safe unless it starts the decoder without a source. -/
theorem decoderSafe_stable_iff {p : SignalPath} (hp : p.DecoderSafe) {info : TvinInfo}
    (hstable : info.status = tvinSigStatusStable) (starts : Bool) (screenMode : Int32) :
    (p.step (.report info starts screenMode)).DecoderSafe ↔
      p.source ≠ sourceInvalid ∨ starts = false := by
  rw [step_report_stable p hstable, startDecoder]
  split
  · -- it runs already, and so has a source
    rename_i hstarted
    have hsource : p.source ≠ sourceInvalid := (hp hstarted).1
    exact iff_of_true (fun _ => ⟨hsource, .inl hstable⟩) (.inl hsource)
  · cases starts with
    | false => exact iff_of_true (decoderSafe_of_not_started rfl) (.inr rfl)
    | true =>
      constructor
      · intro h
        exact .inl (h rfl).1
      · intro h hs
        exact ⟨h.resolve_right (by decide), .inl hstable⟩

/-- Without a signal the decoder runs for the snow, or is stopped. -/
theorem decoderSafe_noSig {p : SignalPath} {info : TvinInfo}
    (hnosig : info.status = tvinSigStatusNosig) (starts : Bool) (screenMode : Int32) :
    (p.step (.report info starts screenMode)).DecoderSafe := by
  rw [step_report_noSig p hnosig]
  split
  · rename_i hneed
    obtain ⟨hsource, hsnow⟩ := needSnow_iff.mp hneed
    have hvalid : p.source ≠ sourceInvalid := by
      rw [hsource]
      decide
    rw [startDecoder]
    split <;> exact fun _ => ⟨hvalid, .inr ⟨hnosig, hsource, hsnow⟩⟩
  · exact decoderSafe_of_not_started rfl

/-- A report with another status keeps the decoder safe if it stops the decoder, or finds it
stopped. -/
theorem decoderSafe_other_iff {p : SignalPath} {info : TvinInfo}
    (hstable : info.status ≠ tvinSigStatusStable) (hnosig : info.status ≠ tvinSigStatusNosig)
    (starts : Bool) (screenMode : Int32) :
    (p.step (.report info starts screenMode)).DecoderSafe ↔
      info.status = tvinSigStatusUnstable ∨ info.status = tvinSigStatusNotsup ∨
        p.started = false := by
  rw [step, reported, if_neg hstable, if_neg hnosig]
  split_ifs with hunstable hnotsup
  · exact iff_of_true (decoderSafe_of_not_started rfl) (.inl hunstable)
  · exact iff_of_true (decoderSafe_of_not_started rfl) (.inr (.inl hnotsup))
  · constructor
    · -- without a known status the handlers do nothing, so that a running decoder runs on
      intro h
      refine .inr (.inr ?_)
      rw [← Bool.not_eq_true]
      intro hs
      rcases (h hs).2 with hst | ⟨hst, -⟩
      · exact hstable hst
      · exact hnosig hst
    · intro h
      apply decoderSafe_of_not_started
      exact (h.resolve_left hunstable).resolve_left hnotsup

end SignalPath

namespace CTv

theorem decoderSafe_step_vdin_iff {tv : CTv} (hs : tv.DecoderSafe) (ans : Answers) :
    (tv.step (.vdinSignalChange, ans)).DecoderSafe ↔
      tv.KeepsDecoderSafe (.vdinSignalChange, ans) := by
  have hpath : (tv.step (.vdinSignalChange, ans)).DecoderSafe ↔
      (tv.path.step (tv.signalInput (.vdinSignalChange, ans))).DecoderSafe := by
    rw [← path_step]
    rfl
  have hsafe : tv.path.DecoderSafe := hs
  rw [hpath, signalInput, KeepsDecoderSafe]
  cases tv.report ans with
  | none => exact iff_of_true hsafe (by simp)
  | some info =>
    simp only [Option.mem_some_iff, forall_eq']
    split
    · rename_i hstable
      rw [SignalPath.decoderSafe_stable_iff hsafe hstable]
      simp [path]
    · rename_i hstable
      by_cases hnosig : info.status = tvinSigStatusNosig
      · exact iff_of_true (SignalPath.decoderSafe_noSig hnosig _ _) (.inr (.inr (.inl hnosig)))
      · rw [SignalPath.decoderSafe_other_iff hstable hnosig]
        simp [path, hnosig]

/-- **Steps of a safe decoder**: exactly the steps that meet the condition keep it safe. -/
theorem decoderSafe_step_iff {tv : CTv} (hs : tv.DecoderSafe) (x : Command × Answers) :
    (tv.step x).DecoderSafe ↔ tv.KeepsDecoderSafe x := by
  obtain ⟨command, ans⟩ := x
  have hpath : (tv.step (command, ans)).DecoderSafe ↔
      (tv.path.step (tv.signalInput (command, ans))).DecoderSafe := by
    rw [← path_step]
    rfl
  -- each step is an input of the machine, and most of them stop the decoder or change nothing
  cases command with
  | vdinSignalChange => exact decoderSafe_step_vdin_iff hs ans
  | startTv source => exact hpath
  | stopTv source =>
    exact iff_of_true (hpath.mpr (SignalPath.decoderSafe_of_not_started rfl)) trivial
  | switchSource destSource =>
    refine iff_of_true (hpath.mpr ?_) trivial
    rw [signalInput, SignalPath.step]
    split
    · exact hs
    · exact SignalPath.decoderSafe_of_not_started rfl
  | setEdidVersion source edidVer =>
    refine iff_of_true (hpath.mpr ?_) trivial
    rw [signalInput]
    split
    · exact SignalPath.decoderSafe_of_not_started rfl
    · exact hs
  | loadEdidData isNeedBlackScreen isDolbyVisionEnable =>
    refine iff_of_true (hpath.mpr ?_) trivial
    rw [signalInput]
    split
    · exact SignalPath.decoderSafe_of_not_started rfl
    · exact hs
  | setVdinWorkMode vdinWorkMode => exact iff_of_true hs trivial
  | getFrontendInfo frontendInfo => exact iff_of_true (hpath.mpr hs) trivial
  | getColorRangeMode => exact iff_of_true (hpath.mpr hs) trivial
  | sourceConnect source connectStatus => exact iff_of_true (hpath.mpr hs) trivial

theorem decoderSafe_construct (ans : Answers) (boot : Boot) : (construct ans boot).DecoderSafe := by
  have hstarted : (construct ans boot).mDecoderStarted = false :=
    congrArg SignalPath.started (path_construct boot)
  exact fun hs => absurd hs (by simp [hstarted])

/-- **Runs with a safe decoder**: the decoder is safe in every state of a run exactly if every
step meets the condition. -/
theorem decoderSafe_iff_keeps (ans : Answers) (boot : Boot) (xs : List (Command × Answers)) :
    Machine.Throughout step DecoderSafe (construct ans boot) xs ↔
      Machine.Along step KeepsDecoderSafe (construct ans boot) xs := by
  apply Machine.throughout_iff_along fun _ => True
  · exact fun _ _ _ => trivial
  · exact fun tv x _ hs => decoderSafe_step_iff hs x
  · trivial
  · exact decoderSafe_construct ans boot

/-- A stable report on a stopped source starts the decoder without a source. -/
theorem not_decoderSafe_stopTv (tv : CTv) (ans : Answers) (source : SourceInput) {info : TvinInfo}
    (hstable : info.status = tvinSigStatusStable) :
    ¬ ((tv.stopTv ans source).2.step
      (.vdinSignalChange, .granting tvinSigChgSts info)).DecoderSafe := by
  have hpath : (tv.stopTv ans source).2.path = tv.path.stop := path_stopTv source
  have hsource : (tv.stopTv ans source).2.mCurrentSource = sourceInvalid :=
    congrArg SignalPath.source hpath
  have hstopped : (tv.stopTv ans source).2.mDecoderStarted = false :=
    congrArg SignalPath.started hpath
  have hsafe : (tv.stopTv ans source).2.DecoderSafe := fun hs => absurd hs (by simp [hstopped])
  rw [decoderSafe_step_iff hsafe]
  intro hkeeps
  -- the source is invalid and the ioctl succeeds, so that the condition fails
  have hreport := hkeeps info (report_granting info)
  rw [if_pos hstable] at hreport
  rcases hreport with hvalid | hfails
  · exact hvalid hsource
  · exact Int32.lt_irrefl hfails

/-- A stable signal is reported just after the source was stopped. -/
theorem not_forall_decoderSafe :
    ¬ ∀ (ans : Answers) (boot : Boot) (xs : List (Command × Answers)),
      (Machine.run step (construct ans boot) xs).DecoderSafe := by
  intro hall
  let stable : TvinInfo := { noSignalInfo with fmt := 0x401, status := tvinSigStatusStable }
  let ans := Answers.granting tvinSigChgSts stable
  have hrun := hall ans ⟨fun _ => none, none, true, true, sourceTv⟩
    [(.startTv sourceHdmi1, ans), (.stopTv sourceHdmi1, ans), (.vdinSignalChange, ans)]
  simp only [Machine.run_cons, Machine.run_nil] at hrun
  exact not_decoderSafe_stopTv _ ans sourceHdmi1 rfl hrun

/-! ## The current format -/

/-- A started decoder was last started with the format of the recorded signal. -/
def DecoderCurrent (tv : CTv) : Prop :=
  tv.mDecoderStarted = true →
    ∃ info, Journal.lastOf TvAction.startedDec tv.trace = some info ∧
      info.fmt = tv.mCurrentSignalInfo.fmt ∧ info.transFmt = tv.mCurrentSignalInfo.transFmt

/-- After a stable report the decoder runs with the current format, if it runs. -/
def ShowsReport (tv : CTv) : Command × Answers → Prop
  | (.vdinSignalChange, ans) =>
    ∀ info ∈ tv.report ans, info.status = tvinSigStatusStable →
      (tv.step (.vdinSignalChange, ans)).DecoderCurrent
  | _ => True

/-- A stable report finds the decoder stopped, or with the reported format in its parameters. -/
def MeetsFormat (tv : CTv) : Command × Answers → Prop
  | (.vdinSignalChange, ans) =>
    ∀ info ∈ tv.report ans, info.status = tvinSigStatusStable → tv.mDecoderStarted = true →
      tv.mTvinParamInfo.fmt = info.fmt ∧ tv.mTvinParamInfo.transFmt = info.transFmt
  | _ => True

theorem decoderCurrent_iff {tv : CTv} :
    tv.DecoderCurrent ↔ tv.path.started = true → tv.path.decoderFormat = some tv.path.format := by
  have hformat : tv.path.decoderFormat = some tv.path.format ↔
      ∃ info, Journal.lastOf TvAction.startedDec tv.trace = some info ∧
        info.fmt = tv.mCurrentSignalInfo.fmt ∧ info.transFmt = tv.mCurrentSignalInfo.transFmt := by
    simp [path, TvinInfo.format, Option.map_eq_some_iff]
  rw [hformat]
  rfl

end CTv

namespace SignalPath

/-- A started decoder was last started with the format in its parameters. -/
def ParamsCurrent (p : SignalPath) : Prop :=
  p.started = true → p.decoderFormat = some p.paramFormat

theorem paramsCurrent_of_not_started {p : SignalPath} (h : p.started = false) :
    p.ParamsCurrent := fun hs => absurd hs (by simp [h])

theorem paramsCurrent_startDecoder {p : SignalPath} (hp : p.ParamsCurrent) (starts : Bool) :
    (p.startDecoder starts).ParamsCurrent := by
  rw [startDecoder]
  split
  · exact hp
  · intro hs
    have hstarts : starts = true := hs
    simp [hstarts]

theorem paramsCurrent_step {p : SignalPath} (hp : p.ParamsCurrent) (i : SignalInput) :
    (p.step i).ParamsCurrent := by
  cases i with
  | quiet => exact hp
  | start source => exact hp
  | stop => exact paramsCurrent_of_not_started rfl
  | switch destSource =>
    rw [step]
    split
    · exact hp
    · exact paramsCurrent_of_not_started rfl
  | stopDecoder => exact paramsCurrent_of_not_started rfl
  | report info starts screenMode =>
    -- neither recording a signal nor the snow touches the decoder
    have hrecord : (p.record info).ParamsCurrent := hp
    have hsnow : ((p.record info).showSnow screenMode).ParamsCurrent := hp
    rw [step, reported]
    split_ifs
    · exact paramsCurrent_startDecoder hrecord starts
    · exact paramsCurrent_of_not_started rfl
    · exact paramsCurrent_of_not_started rfl
    · exact paramsCurrent_startDecoder hsnow starts
    · exact paramsCurrent_of_not_started rfl
    · exact hp

end SignalPath

namespace CTv

theorem paramsCurrent_run (ans : Answers) (boot : Boot) (xs : List (Command × Answers)) :
    (Machine.run step (construct ans boot) xs).path.ParamsCurrent := by
  have hstep : ∀ (tv : CTv) x, tv.path.ParamsCurrent → (tv.step x).path.ParamsCurrent := by
    intro tv x hp
    rw [path_step]
    exact SignalPath.paramsCurrent_step hp _
  have hconstruct : (construct ans boot).path.ParamsCurrent := by
    rw [path_construct]
    exact SignalPath.paramsCurrent_of_not_started rfl
  exact Machine.run_invariant (fun tv : CTv => tv.path.ParamsCurrent) hstep hconstruct xs

/-- Once the parameters are those the decoder was started with, a stable report is shown with its
format exactly if the decoder is stopped, or has this format in its parameters. -/
theorem showsReport_iff_meets {tv : CTv} (hp : tv.path.ParamsCurrent) (x : Command × Answers) :
    tv.ShowsReport x ↔ tv.MeetsFormat x := by
  obtain ⟨command, ans⟩ := x
  cases command with
  | vdinSignalChange =>
    rw [ShowsReport, MeetsFormat]
    refine forall₃_congr fun info hreport hstable => ?_
    have hstep : (tv.step (.vdinSignalChange, ans)).path =
        (tv.path.record info).startDecoder (0 ≤ ans.vdin (.startDec info)) := by
      rw [path_step, signalInput, Option.mem_def.mp hreport]
      exact SignalPath.step_report_stable _ hstable _ _
    rw [decoderCurrent_iff, hstep, SignalPath.startDecoder]
    split
    · -- the decoder runs on, with the format it was started with
      rename_i hstarted
      have hparam : (tv.path.record info).decoderFormat = some tv.mTvinParamInfo.format :=
        hp hstarted
      rw [hparam]
      simp [SignalPath.record, path, TvinInfo.format]
    · rename_i hstopped
      refine iff_of_true (fun hstarts => ?_) fun hstarted => absurd hstarted hstopped
      exact if_pos hstarts
  | _ => exact Iff.rfl

/-- **Reports with the current format**: after every run, a stable report is shown with its format
exactly if the decoder is stopped before, or has this format in its parameters. -/
theorem decoderCurrent_iff_meets (ans : Answers) (boot : Boot) (xs : List (Command × Answers))
    (x : Command × Answers) :
    let tv := Machine.run step (construct ans boot) xs
    tv.ShowsReport x ↔ tv.MeetsFormat x :=
  showsReport_iff_meets (paramsCurrent_run ans boot xs) x

/-- A stable signal that is reported with another format is shown with the format before. -/
theorem not_forall_showsReport :
    ¬ ∀ (ans : Answers) (boot : Boot) (xs : List (Command × Answers)) (x : Command × Answers),
      (Machine.run step (construct ans boot) xs).ShowsReport x := by
  intro hall
  let boot : Boot := ⟨fun _ => none, none, true, true, sourceTv⟩
  let before : TvinInfo := { noSignalInfo with fmt := 0x401, status := tvinSigStatusStable }
  let after : TvinInfo := { noSignalInfo with fmt := 0x402, status := tvinSigStatusStable }
  let ans := Answers.granting tvinSigChgSts before
  have hpath : ((construct ans boot).step (.vdinSignalChange, ans)).path =
      ((construct ans boot).path.record before).startDecoder true := by
    rw [path_step, signalInput, report_granting]
    rfl
  have hshows := hall ans boot [(.vdinSignalChange, ans)]
    (.vdinSignalChange, .granting tvinSigChgSts after)
  have hparams := paramsCurrent_run ans boot [(.vdinSignalChange, ans)]
  simp only [Machine.run_cons, Machine.run_nil] at hshows hparams
  generalize (construct ans boot).step (.vdinSignalChange, ans) = tv at hpath hshows hparams
  have hstarted : tv.mDecoderStarted = true := by
    have hstart : tv.path.started = true := by
      rw [hpath, path_construct]
      rfl
    exact hstart
  have hformat : tv.mTvinParamInfo.fmt = 0x401 := by
    have hparam : tv.path.paramFormat.1 = 0x401 := by
      rw [hpath, path_construct]
      rfl
    exact hparam
  -- the second report would have to find its own format in the parameters
  have hmeets := (showsReport_iff_meets hparams _).mp hshows
    after (report_granting after) rfl hstarted
  rw [hformat] at hmeets
  exact absurd hmeets.1 (by decide)

end CTv
