import TvServer.Foundations.Machine
import TvServer.Tv.Signal

/-!
# The snow

Without a signal at a television channel the snow generators are switched on, and the video is
shown in full screen. They should be on only in this state, and when it is left they should be
switched off and the screen mode set back. No handler switches them off: once on they stay on,
and the discipline is kept exactly as long as the state is not left.

## Main definitions

* `snowOn`: whether the snow generators were last switched on
* `SnowSafe`: the snow is on only without a signal at a television channel
* `SnowDisciplined`: a step keeps this, and sets the screen mode back where the state is left
* `KeepsSnow`: the steps that do not leave the state while the snow is on

## Main results

* `snowOn_step`: the snow stays on
* `snowDisciplined_iff_keeps`: which steps keep the discipline
* `snowDisciplined_along_iff`: the runs all of whose steps keep it
-/

namespace SignalPath

/-- There is no signal at a television channel where snow is displayed. -/
def MayShowSnow (p : SignalPath) : Prop :=
  p.status = tvinSigStatusNosig ∧ p.source = sourceTv ∧ p.displaySnow = true

theorem mayShowSnow_startDecoder {p : SignalPath} (starts : Bool) :
    (p.startDecoder starts).MayShowSnow ↔ p.MayShowSnow := by
  rw [startDecoder]
  split <;> rfl

theorem snow_startDecoder (p : SignalPath) (starts : Bool) :
    (p.startDecoder starts).snow = p.snow := by
  rw [startDecoder]
  split <;> rfl

/-- The handling of a report leaves the recorded signal and the source alone. -/
theorem mayShowSnow_reported {p : SignalPath} (status : UInt32) (starts : Bool)
    (screenMode : Int32) : (p.reported status starts screenMode).MayShowSnow ↔ p.MayShowSnow := by
  rw [reported]
  split_ifs
  · exact mayShowSnow_startDecoder starts
  · rfl
  · rfl
  · exact mayShowSnow_startDecoder starts
  · rfl
  · rfl

/-- A report switches the snow on without a signal at a television channel, and never off. -/
theorem snow_report (p : SignalPath) (info : TvinInfo) (starts : Bool) (screenMode : Int32) :
    (p.step (.report info starts screenMode)).snow =
      if info.status = tvinSigStatusNosig ∧ p.needSnow then some true else p.snow := by
  by_cases hnosig : info.status = tvinSigStatusNosig
  · rw [step_report_noSig p hnosig, hnosig]
    cases p.needSnow with
    | false => rfl
    | true => exact snow_startDecoder _ starts
  · rw [if_neg fun h => hnosig h.1, step, reported]
    split_ifs
    · exact snow_startDecoder _ starts
    · rfl
    · rfl
    · rfl

/-- No input of the machine switches the snow off. -/
theorem snow_step {p : SignalPath} (hon : p.snow = some true) (i : SignalInput) :
    (p.step i).snow = some true := by
  cases i with
  | quiet => exact hon
  | start source => exact hon
  | stop => exact hon
  | switch destSource =>
    rw [step]
    split <;> exact hon
  | stopDecoder => exact hon
  | report info starts screenMode =>
    rw [snow_report]
    split
    · rfl
    · exact hon

/-- Where the snow is off, a step switches it on only where it may be shown. -/
theorem mayShowSnow_of_snow_step {p : SignalPath} (hoff : p.snow ≠ some true) {i : SignalInput}
    (hon : (p.step i).snow = some true) : (p.step i).MayShowSnow := by
  cases i with
  | quiet => exact absurd hon hoff
  | start source => exact absurd hon hoff
  | stop => exact absurd hon hoff
  | switch destSource =>
    rw [step] at hon
    split at hon <;> exact absurd hon hoff
  | stopDecoder => exact absurd hon hoff
  | report info starts screenMode =>
    rw [snow_report] at hon
    split at hon
    · -- only the handler for a missing signal switches it on, and only where it is needed
      rename_i hsnow
      obtain ⟨hsource, hdisplay⟩ := needSnow_iff.mp hsnow.2
      rw [step, mayShowSnow_reported]
      exact ⟨hsnow.1, hsource, hdisplay⟩
    · exact absurd hon hoff

end SignalPath

namespace CTv

/-- Whether the last ioctl to a snow generator switched it on. -/
def snowOn (tv : CTv) : Prop := Journal.lastOf TvAction.snow tv.trace = some true

instance (tv : CTv) : Decidable tv.snowOn := inferInstanceAs (Decidable (_ = _))

/-- The snow is on only without a signal at a television channel where it is displayed. -/
def SnowSafe (tv : CTv) : Prop :=
  tv.snowOn →
    tv.mCurrentSignalInfo.status = tvinSigStatusNosig ∧ tv.mCurrentSource = sourceTv ∧
      tv.mATVDisplaySnow = true

instance (tv : CTv) : Decidable tv.SnowSafe := inferInstanceAs (Decidable (_ → _))

/-- After the step the snow is on only where it should be, and a step to a stable signal or away
from the television source has switched it off and written the saved screen mode. -/
def SnowDisciplined (tv : CTv) (x : Command × Answers) : Prop :=
  (tv.step x).SnowSafe ∧
    (tv.snowOn →
      (tv.step x).mCurrentSignalInfo.status = tvinSigStatusStable ∨
        (tv.step x).mCurrentSource ≠ sourceTv →
      ¬ (tv.step x).snowOn ∧
        Journal.lastOf TvAction.screenMode (tv.step x).trace =
          some (CText.decText tv.mLastScreenMode))

/-- The steps that, while the snow is on, leave neither the television source nor the state
without a signal. -/
def KeepsSnow (tv : CTv) : Command × Answers → Prop
  | (.startTv source, _) => tv.snowOn → source = sourceTv
  | (.stopTv _, _) => ¬ tv.snowOn
  | (.switchSource destSource, _) => tv.snowOn → destSource = tv.mCurrentSource
  | (.vdinSignalChange, ans) =>
    tv.snowOn → ∀ info ∈ tv.report ans, info.status = tvinSigStatusNosig
  | _ => True

/-- Once on, the snow stays on. -/
theorem snowOn_step {tv : CTv} (hon : tv.snowOn) (x : Command × Answers) : (tv.step x).snowOn := by
  have hpathOn : tv.path.snow = some true := hon
  have hpath : (tv.step x).path.snow = some true := by
    rw [path_step]
    exact SignalPath.snow_step hpathOn _
  exact hpath

theorem snowSafe_step_of_off {tv : CTv} (hoff : ¬ tv.snowOn) (x : Command × Answers) :
    (tv.step x).SnowSafe := by
  intro hon
  have hpath : (tv.step x).path.snow = some true := hon
  have hmay : (tv.step x).path.MayShowSnow := by
    rw [path_step] at hpath ⊢
    have hpathOff : tv.path.snow ≠ some true := hoff
    exact SignalPath.mayShowSnow_of_snow_step hpathOff hpath
  exact hmay

/-- While the snow is on, the discipline is that it may be shown after the step. -/
theorem snowDisciplined_iff_of_on {tv : CTv} (hon : tv.snowOn) (x : Command × Answers) :
    tv.SnowDisciplined x ↔ (tv.path.step (tv.signalInput x)).MayShowSnow := by
  have hstep : (tv.path.step (tv.signalInput x)).MayShowSnow ↔
      (tv.step x).path.MayShowSnow := by rw [path_step]
  rw [hstep]
  constructor
  · -- the snow is still on after the step, where it has to be safe
    rintro ⟨hsafe, -⟩
    exact hsafe (snowOn_step hon x)
  · rintro ⟨hnosig, hsource, hdisplay⟩
    -- the state is not left, so that nothing has to be switched off
    refine ⟨fun _ => ⟨hnosig, hsource, hdisplay⟩, ?_⟩
    rintro - (hstable | hleft)
    · have hne : tvinSigStatusNosig ≠ tvinSigStatusStable := by decide
      exact absurd (hnosig.symm.trans hstable) hne
    · exact absurd hsource hleft

/-- **Steps of the snow**: exactly the steps that do not leave the state of the snow while it is on
keep the discipline. -/
theorem snowDisciplined_iff_keeps {tv : CTv} (hs : tv.SnowSafe) (x : Command × Answers) :
    tv.SnowDisciplined x ↔ tv.KeepsSnow x := by
  obtain ⟨command, ans⟩ := x
  -- while the snow is on, the step has to stay in its state; while it is off, any step may be taken
  by_cases hon : tv.snowOn
  · obtain ⟨hnosig, hsource, hdisplay⟩ := hs hon
    have hmay : tv.path.MayShowSnow := ⟨hnosig, hsource, hdisplay⟩
    have hnull : tvinSigStatusNull ≠ tvinSigStatusNosig := by decide
    rw [snowDisciplined_iff_of_on hon]
    cases command with
    | startTv source =>
      constructor
      · intro h _
        exact h.2.1
      · intro h
        exact ⟨hnosig, h hon, hdisplay⟩
    | stopTv source =>
      -- stopping a source resets the recorded status, and the snow stays on
      refine iff_of_false (fun h => ?_) (not_not_intro hon)
      exact hnull h.1
    | switchSource destSource =>
      rw [signalInput, SignalPath.step, KeepsSnow]
      split
      · rename_i hsame
        exact iff_of_true hmay fun _ => hsame
      · rename_i hother
        refine iff_of_false (fun h => ?_) fun h => hother (h hon)
        exact hnull h.1
    | setEdidVersion source edidVer =>
      rw [signalInput]
      split <;> exact iff_of_true hmay trivial
    | loadEdidData isNeedBlackScreen isDolbyVisionEnable =>
      rw [signalInput]
      split <;> exact iff_of_true hmay trivial
    | vdinSignalChange =>
      rw [signalInput, KeepsSnow]
      cases tv.report ans with
      | none => exact iff_of_true hmay (by simp)
      | some info =>
        rw [SignalPath.step, SignalPath.mayShowSnow_reported]
        constructor
        · intro h _ reported hreported
          rw [← Option.some.inj hreported]
          exact h.1
        · intro h
          exact ⟨h hon info rfl, hsource, hdisplay⟩
    | _ => exact iff_of_true hmay trivial
  · have hdisciplined : tv.SnowDisciplined (command, ans) :=
      ⟨snowSafe_step_of_off hon _, fun h => absurd h hon⟩
    refine iff_of_true hdisciplined ?_
    cases command <;> first | trivial | exact hon | exact fun h => absurd h hon

/-- **Runs with disciplined snow**: every step of a run keeps the discipline of the snow exactly if
every step meets the condition. -/
theorem snowDisciplined_along_iff (ans : Answers) (boot : Boot) (xs : List (Command × Answers)) :
    Machine.Along step SnowDisciplined (construct ans boot) xs ↔
      Machine.Along step KeepsSnow (construct ans boot) xs := by
  have hoff : ¬ (construct ans boot).snowOn := by
    have hpath : (construct ans boot).path.snow = none := by
      rw [path_construct]
      rfl
    intro hon
    exact absurd (hpath.symm.trans hon) (by simp)
  apply Machine.along_congr SnowSafe
  · exact fun _ _ _ hdisciplined => hdisciplined.1
  · exact fun _ x hs => snowDisciplined_iff_keeps hs x
  · exact fun hon => absurd hon hoff

/-- A television channel without a signal, at which a signal becomes stable: the snow stays on. -/
theorem not_forall_snowDisciplined :
    ¬ ∀ (ans : Answers) (boot : Boot) (xs : List (Command × Answers)),
      Machine.Along step SnowDisciplined (construct ans boot) xs := by
  intro hall
  have hrun := hall (.granting 0 noSignalInfo)
    ⟨fun _ => some "[TV]\ntvin.atv.display.snow=enable\n".toList, none, true, true, sourceInvalid⟩
    [(.startTv sourceTv, .granting 0 noSignalInfo),
      (.vdinSignalChange,
        .granting tvinSigChgSts { noSignalInfo with status := tvinSigStatusNosig }),
      (.vdinSignalChange,
        .granting tvinSigChgSts { noSignalInfo with status := tvinSigStatusStable })]
  obtain ⟨-, -, ⟨hsafe, -⟩, -⟩ := hrun
  exact absurd hsafe (by decide +kernel)

end CTv
