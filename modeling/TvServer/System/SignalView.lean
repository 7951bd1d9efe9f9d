import TvServer.System.Notification
import TvServer.Tv.QuietEvents

/-!
# The signal that a client knows

A client is called for a report of a stable, an unsupported or a missing signal. It is not called
when the signal becomes unstable, nor when the source is stopped, which resets the recorded signal.
What the client was told last is thus out of date in these states, and in no others.

## Main definitions

* `TvinInfo.Told`: the signals that clients are called for
* `SignalDetectCallback.Shows`: a call has the data of a signal

## Main results

* `shows_step`: what a step does to the recorded signal, and to what a client was told of it
* `signal_shown_iff`: when the last call of a client shows the recorded signal
-/

/-- A signal that clients are called for: it is stable, unsupported or missing. -/
def TvinInfo.Told (info : TvinInfo) : Prop :=
  info.status = tvinSigStatusStable ∨ info.status = tvinSigStatusNotsup ∨
    info.status = tvinSigStatusNosig

/-- The data of a signal that a call has. -/
def TvinInfo.shown (info : TvinInfo) : UInt32 × UInt32 × UInt32 × Int32 :=
  (info.fmt, info.transFmt, info.status, info.isDvi.toInt32)

/-- A call has the data of a signal. -/
def SignalDetectCallback.Shows (data : SignalDetectCallback) (info : TvinInfo) : Prop :=
  (data.signalFmt, data.transFmt, data.signalStatus, data.isDviSignal) = info.shown

namespace CTv

variable {ans : Answers} {tv : CTv}

theorem not_told_noSignalInfo : ¬ noSignalInfo.Told := by
  rintro (h | h | h)
  all_goals cases h

/-- Whether a signal is told depends on the data that a call has. -/
theorem told_of_shown {info info' : TvinInfo} (h : info.shown = info'.shown) (htold : info.Told) :
    info'.Told := by
  have hstatus : info.status = info'.status := congrArg (·.2.2.1) h
  rwa [TvinInfo.Told, ← hstatus]

/-- An event that delivers no report keeps the data that a call has. -/
theorem shown_onVdinSignalChange_of_no_report (h : tv.report ans = none) :
    (tv.onVdinSignalChange ans).mCurrentSignalInfo.shown = tv.mCurrentSignalInfo.shown := by
  by_cases hsts : ans.eventInfo = tvinSigChgSts
  · have hquery := touches_tvinGetSignalEventInfo ans tv
    rw [onVdinSignalChange]
    split
    · rw [hquery.frame mCurrentSignalInfo_dependsOn rfl]
    · -- the signal info could not be read
      rename_i hret
      have hfail := signalInfo_fails_of_no_report h (Int32.not_lt.mp hret) hsts
      have hread := (hquery.trans (touches_log _ .vdinSignalStatusChange)).trans
        (touches_tvinGetSignalInfo ans _)
      rw [hsts, onVdinEvent_of_fails hfail, hread.frame mCurrentSignalInfo_dependsOn rfl]
  · have hchange := @infoChange_onVdinSignalChange ans tv hsts
    generalize (tv.onVdinSignalChange ans).mCurrentSignalInfo = info at hchange
    cases hchange <;> rfl

/-- The signal of a report is recorded. -/
theorem mCurrentSignalInfo_of_report {info : TvinInfo} (h : tv.report ans = some info) :
    (tv.onVdinSignalChange ans).mCurrentSignalInfo = info := by
  have hinfo := congrArg ReportView.info (view_of_report h)
  rwa [info_reported] at hinfo

end CTv

namespace TvSystem

/-- A step shows the signal that it records, or it tells nothing and keeps the data of the signal,
or a signal is recorded that is not told. -/
theorem shows_step (tv : CTv) (x : CTv.Command × Answers) :
    (∃ data, stepReport tv x = [data] ∧ data.Shows (tv.step x).mCurrentSignalInfo ∧
      (tv.step x).mCurrentSignalInfo.Told) ∨
    (stepReport tv x = [] ∧
      ((tv.step x).mCurrentSignalInfo.shown = tv.mCurrentSignalInfo.shown ∨
        ¬ (tv.step x).mCurrentSignalInfo.Told)) := by
  obtain ⟨command, ans⟩ := x
  have hkeep (hparts : Footprint.avoids command.parts [.signalInfo] = true) :
      (tv.step (command, ans)).mCurrentSignalInfo.shown = tv.mCurrentSignalInfo.shown := by
    rw [(CTv.touches_step tv (command, ans)).frame CTv.mCurrentSignalInfo_dependsOn hparts]
  cases command with
  | stopTv source => exact .inr ⟨rfl, .inr CTv.not_told_noSignalInfo⟩
  | switchSource destSource =>
    refine .inr ⟨rfl, ?_⟩
    show (tv.switchSource ans destSource).2.mCurrentSignalInfo.shown = _ ∨
      ¬ (tv.switchSource ans destSource).2.mCurrentSignalInfo.Told
    rw [CTv.switchSource]
    split
    · -- the stop resets the signal, and the start keeps it
      have hstart := CTv.touches_startTv ans (tv.stopTv ans tv.mCurrentSource).2 destSource
      rw [hstart.frame CTv.mCurrentSignalInfo_dependsOn rfl]
      exact .inr CTv.not_told_noSignalInfo
    · exact .inl rfl
  | vdinSignalChange =>
    show (∃ data, stepReport tv (.vdinSignalChange, ans) = [data] ∧
        data.Shows (tv.onVdinSignalChange ans).mCurrentSignalInfo ∧
        (tv.onVdinSignalChange ans).mCurrentSignalInfo.Told) ∨
      (stepReport tv (.vdinSignalChange, ans) = [] ∧
        ((tv.onVdinSignalChange ans).mCurrentSignalInfo.shown = tv.mCurrentSignalInfo.shown ∨
          ¬ (tv.onVdinSignalChange ans).mCurrentSignalInfo.Told))
    cases hreport : tv.report ans with
    | none =>
      have hnone : stepReport tv (.vdinSignalChange, ans) = [] := by
        simp only [stepReport, hreport]
      exact .inr ⟨hnone, .inl (CTv.shown_onVdinSignalChange_of_no_report hreport)⟩
    | some info =>
      rw [CTv.mCurrentSignalInfo_of_report hreport]
      simp only [stepReport, hreport]
      split
      · rename_i htold
        exact .inl ⟨_, rfl, rfl, htold⟩
      · rename_i hother
        exact .inr ⟨rfl, .inr hother⟩
  | _ => exact .inr ⟨rfl, .inl (hkeep rfl)⟩

/-- The television object behind the steps of a run. -/
def tvAfter (tv : CTv) (inputs : List Input) : CTv :=
  Machine.run
    (fun tv : CTv => fun
      | .register => tv
      | .command x => tv.step x)
    tv inputs

theorem mpTv_run {s : TvSystem} (h : s.Filled) (inputs : List Input) :
    (Machine.run step s inputs).mpTv = tvAfter s.mpTv inputs := by
  induction inputs generalizing s with
  | nil => rfl
  | cons input inputs ih =>
    rw [Machine.run_cons, ih (filled_step h input)]
    cases input with
    | register => rfl
    | command x =>
      have htv : (s.command x).mpTv = s.mpTv.step x := by rw [command_eq h]
      show tvAfter (s.command x).mpTv inputs = _
      rw [htv]
      rfl

/-- What was told last about the signal: it is still so exactly if the recorded signal is one that
is told. -/
def ShownWhileTold (last : Option SignalDetectCallback) (info : TvinInfo) : Prop :=
  ∀ data ∈ last, data.Shows info ↔ info.Told

/-- A step keeps this, where what was told last is a signal that is told. -/
theorem ShownWhileTold.step {last : Option SignalDetectCallback} {tv : CTv}
    (h : ShownWhileTold last tv.mCurrentSignalInfo)
    (hlast : ∀ data ∈ last, ∃ info : TvinInfo, data.Shows info ∧ info.Told)
    (x : CTv.Command × Answers) :
    ShownWhileTold ((stepReport tv x).getLast?.or last) (tv.step x).mCurrentSignalInfo ∧
      ∀ data ∈ (stepReport tv x).getLast?.or last,
        ∃ info : TvinInfo, data.Shows info ∧ info.Told := by
  rcases shows_step tv x with ⟨data, hreport, hshows, htold⟩ | ⟨hreport, hkept | hother⟩
  · rw [hreport]
    constructor
    · rintro _ ⟨⟩
      exact iff_of_true hshows htold
    · rintro _ ⟨⟩
      exact ⟨_, hshows, htold⟩
  · rw [hreport]
    refine ⟨fun data hdata => ?_, hlast⟩
    rw [SignalDetectCallback.Shows, hkept]
    refine (h data hdata).trans ⟨CTv.told_of_shown hkept.symm, CTv.told_of_shown hkept⟩
  · rw [hreport]
    refine ⟨fun data hdata => iff_of_false (fun hshows => ?_) hother, hlast⟩
    obtain ⟨info, hinfo, htold⟩ := hlast data hdata
    exact hother (CTv.told_of_shown (hinfo.symm.trans hshows) htold)

/-- The reports of a run, behind what was told before. -/
theorem shownWhileTold_run (tv : CTv) (inputs : List Input) :
    ShownWhileTold (reports tv inputs).getLast? (tvAfter tv inputs).mCurrentSignalInfo := by
  -- what was told last before the rest of the run
  suffices h : ∀ last, ShownWhileTold last tv.mCurrentSignalInfo →
      (∀ data ∈ last, ∃ info : TvinInfo, data.Shows info ∧ info.Told) →
      ShownWhileTold ((reports tv inputs).getLast?.or last)
        (tvAfter tv inputs).mCurrentSignalInfo by
    have hrun := h none (fun _ hdata => absurd hdata (Option.not_mem_none _)) fun _ hdata =>
      absurd hdata (Option.not_mem_none _)
    rwa [Option.or_none] at hrun
  induction inputs generalizing tv with
  | nil => exact fun last h _ => h
  | cons input inputs ih =>
    intro last h hlast
    cases input with
    | register => exact ih tv last h hlast
    | command x =>
      obtain ⟨hnext, hnextLast⟩ := h.step hlast x
      have hrun := ih (tv.step x) _ hnext hnextLast
      rwa [reports, List.getLast?_append, Option.or_assoc]

/-- **The signal that a client knows.** In every run of registrations and steps, what a client was
told last about a signal is the signal that is recorded exactly if that is stable, unsupported or
missing: nobody is told that a signal became unstable, or that the source was stopped. -/
theorem signal_shown_iff (ans : Answers) (b : CTv.Boot) (pre post : List Input) :
    let s := Machine.run step (boot ans b) pre
    let s' := Machine.run step (boot ans b) (pre ++ .register :: post)
    ∃ client, s'.clients[s.clients.length]? = some client ∧
      ∀ data, (client.called.filterMap EventCallback.signal).getLast? = some data →
        (data.Shows s'.mpTv.mCurrentSignalInfo ↔ s'.mpTv.mCurrentSignalInfo.Told) := by
  intro s s'
  have hfilled : s.Filled :=
    Machine.run_invariant Filled (fun _ input h => filled_step h input) (filled_boot ans b) pre
  have hnew : s.register.clients[s.clients.length]? = some TvClient.construct :=
    List.getElem?_concat_length
  have hrun : s' = Machine.run step s.register post := Machine.run_append step _ _ _
  refine ⟨TvClient.construct.call (callbacks s.mpTv post), ?_, fun data hdata => ?_⟩
  · rw [hrun]
    exact clients_run (filled_register hfilled) post hnew
  · have hlast : (reports s.mpTv post).getLast? = some data := by
      rw [← signal_callbacks]
      exact hdata
    rw [hrun, mpTv_run (filled_register hfilled)]
    exact shownWhileTold_run s.mpTv post data hlast

end TvSystem
