import TvServer.Tv.Signal

/-!
# Reports of the signal

What a vdin event makes known: the signal info it leaves in the state, the lines of the log, by
which the arms and handlers that ran can be told, and the events sent to the observer. The event
word is a set of flags, and the television object compares it with single flags.

## Main definitions

* `ReportView`, `CTv.view`: what is known of a report
* `sigChangeFlags`: the flags, each with the line of the arm that handles it
* `HandlesWord`: every flag in the event word is handled

## Main results

* `view_onSigTo`, `view_onSigStatusChange`: what the handlers of a report make known
* `view_of_report`: what an event makes known that delivers a status report
* `handlesWord_iff`: the event words all of whose flags are handled
-/

/-! ## Lines and events -/

namespace TvAction

/-- The line of the log that was written. -/
def line : TvAction → Option LogLine
  | .log line => some line
  | _ => none

/-- The event that was sent. -/
def event : TvAction → Option CTvEvent
  | .tvEvent event => some event
  | _ => none

theorem line_eq_none {action : TvAction} (h : action.part ≠ .log) : action.line = none := by
  cases action with
  | log line => exact absurd rfl h
  | _ => rfl

theorem event_eq_none {action : TvAction} (h : action.part ≠ .tvEvent) : action.event = none := by
  cases action with
  | tvEvent event => exact absurd rfl h
  | _ => rfl

end TvAction

/-- The source and the recorded signal, whether there is an observer, and the lines and events of
the trace. -/
structure ReportView where
  source : SourceInput
  info : TvinInfo
  observed : Bool
  lines : List LogLine
  events : List CTvEvent

namespace ReportView

def log (v : ReportView) (line : LogLine) : ReportView := { v with lines := v.lines ++ [line] }

def record (v : ReportView) (info : TvinInfo) : ReportView := { v with info := info }

/-- The event that reports the recorded signal. -/
def signalEvent (v : ReportView) : CTvEvent :=
  .signalDetect
    { mSourceInput := v.source
      mFmt := v.info.fmt.toInt32
      mTransFmt := v.info.transFmt.toInt32
      mStatus := v.info.status.toInt32
      mDviFlag := v.info.isDvi.toInt32 }

def notify (v : ReportView) : ReportView :=
  { v with events := if v.observed then v.events ++ [v.signalEvent] else v.events }

/-- What the handler of a status makes known. -/
def reported (v : ReportView) (status : UInt32) : ReportView :=
  if status = tvinSigStatusStable then (v.log .onSigToStable).notify
  else if status = tvinSigStatusUnstable then v.log .onSigToUnstable
  else if status = tvinSigStatusNotsup then (v.log .onSigToUnSupport).notify
  else if status = tvinSigStatusNosig then (v.log .onSigToNoSig).notify
  else v.log .invalidSignalStatus

end ReportView

namespace CTv

variable {ans : Answers} {tv : CTv}

/-- What is known of the reports. -/
def view (tv : CTv) : ReportView where
  source := tv.mCurrentSource
  info := tv.mCurrentSignalInfo
  observed := tv.mpObserver
  lines := tv.trace.filterMap TvAction.line
  events := tv.trace.filterMap TvAction.event

/-! ## What makes nothing known -/

/-- The parts that are known of the reports. -/
def viewParts : List Part := [.signalInfo, .source, .tvEvent, .log]

theorem view_dependsOn : DependsOn view viewParts := by
  intro tv u hu
  cases u with
  | perform action =>
    simp only [Update.part, viewParts, List.mem_cons, not_or] at hu
    obtain ⟨-, -, hevent, hline, -⟩ := hu
    simp [update, view, perform, TvAction.line_eq_none hline, TvAction.event_eq_none hevent]
  | storeEdidVersion source edidVer =>
    exact storeEdidVersion_keeps view tv (fun _ _ _ _ => rfl) source edidVer
  | _ => first | rfl | exact absurd (of_decide_eq_true rfl) hu

/-- What touches no part that is known makes nothing known. -/
theorem view_of_touches {parts : List Part} {tv' : CTv} (h : Touches parts tv tv')
    (hparts : Footprint.avoids parts viewParts = true) : tv'.view = tv.view :=
  h.frame view_dependsOn hparts

@[simp] theorem view_vppSetVideoColor (needColor : Bool) :
    (tv.vppSetVideoColor ans needColor).2.view = tv.view :=
  view_of_touches (touches_vppSetVideoColor ans tv needColor) rfl

@[simp] theorem view_setVideoLayerStatus (status : Int32) :
    (tv.setVideoLayerStatus ans status).2.view = tv.view :=
  view_of_touches (touches_setVideoLayerStatus ans tv status) rfl

@[simp] theorem view_setVideoGlobalOutputMode (mode : Int32) :
    (tv.setVideoGlobalOutputMode ans mode).2.view = tv.view :=
  view_of_touches (touches_setVideoGlobalOutputMode ans tv mode) rfl

@[simp] theorem view_tvinStartDecoder (info : TvinInfo) :
    (tv.tvinStartDecoder ans info).2.view = tv.view :=
  view_of_touches (touches_tvinStartDecoder ans tv info) rfl

@[simp] theorem view_tvinStopDecoder : (tv.tvinStopDecoder ans).2.view = tv.view :=
  view_of_touches (touches_tvinStopDecoder ans tv) rfl

@[simp] theorem view_setSnowShowEnable (enable : Bool) :
    (tv.setSnowShowEnable ans enable).2.view = tv.view :=
  view_of_touches (touches_setSnowShowEnable ans tv enable) rfl

@[simp] theorem view_tvinGetSignalInfo : (tv.tvinGetSignalInfo ans).2.view = tv.view :=
  view_of_touches (touches_tvinGetSignalInfo ans tv) rfl

theorem view_tvinGetSignalEventInfo : (tv.tvinGetSignalEventInfo ans).2.view = tv.view :=
  view_of_touches (touches_tvinGetSignalEventInfo ans tv) rfl

/-! ## What the handlers make known -/

@[simp] theorem view_log (line : LogLine) : (tv.perform (.log line)).view = tv.view.log line := by
  simp [view, perform, ReportView.log, TvAction.line, TvAction.event]

theorem view_sendTvEvent : (tv.sendTvEvent tv.signalDetectEvent).view = tv.view.notify := by
  rw [sendTvEvent, ReportView.notify]
  cases hobserver : tv.mpObserver <;>
    simp [view, perform, TvAction.line, TvAction.event, hobserver, signalDetectEvent,
      ReportView.signalEvent]

theorem view_onSigTo (status : UInt32) :
    (tv.onSigTo ans status).view = tv.view.reported status := by
  unfold onSigTo ReportView.reported
  split_ifs
  · rw [onSigToStable, view_sendTvEvent]
    simp
  · simp [onSigToUnstable]
  · rw [onSigToUnSupport, view_sendTvEvent]
    simp
  · rw [onSigToNoSig, view_sendTvEvent]
    split <;> simp
  · exact view_log _

theorem view_onSigStatusChange (hopen : tv.mVdin0DevFd = true) :
    (tv.onSigStatusChange ans).view =
      if 0 ≤ ans.vdin .getSigInfo then
        (tv.view.record ans.sigInfo).reported ans.sigInfo.status
      else tv.view := by
  have hinfo : (tv.tvinGetSignalInfo ans).1 = ans.vdin .getSigInfo :=
    congrArg Prod.fst (vdinDeviceIOCtl_of_open hopen .getSigInfo)
  have hrecord : ∀ tv : CTv,
      (tv.setCurrenSourceInfo ans.sigInfo).view = tv.view.record ans.sigInfo := fun _ => rfl
  rw [onSigStatusChange]
  dsimp only
  rw [hinfo]
  by_cases hfail : ans.vdin .getSigInfo < 0
  · rw [if_pos hfail, if_neg (by simpa using hfail), view_tvinGetSignalInfo]
  · rw [if_neg hfail, if_pos (Int32.not_lt.mp hfail), view_onSigTo, hrecord,
      view_tvinGetSignalInfo]
    rfl

/-! ## Events -/

theorem view_onHdrInfoChange :
    (tv.onHdrInfoChange ans).view.lines = tv.view.lines ++ [.hdrInfoChange] := by
  have hlines : ∀ (tv : CTv) info, (tv.setCurrenSourceInfo info).view.lines = tv.view.lines :=
    fun _ _ => rfl
  unfold onHdrInfoChange
  dsimp only
  split_ifs <;> simp [hlines, ReportView.log]

theorem view_onAfdInfoChange (sourceType : SourceInputType) :
    (tv.onAfdInfoChange ans sourceType).view.lines = tv.view.lines ++ [.afdInfoChange] := by
  have hlines : ∀ (tv : CTv) info, (tv.setCurrenSourceInfo info).view.lines = tv.view.lines :=
    fun _ _ => rfl
  unfold onAfdInfoChange
  dsimp only
  split_ifs <;> simp [hlines, ReportView.log]

/-- The flags of the event word, each with the line of the arm that handles it. -/
def sigChangeFlags : List (UInt32 × LogLine) :=
  [(tvinSigChgSdr2hdr, .hdrInfoChange), (tvinSigChgHdr2sdr, .hdrInfoChange),
    (tvinSigChgDv2no, .hdrInfoChange), (tvinSigChgNo2dv, .hdrInfoChange),
    (tvinSigChgColorFmt, .colorFmtChange), (tvinSigChgRange, .colorRangeChange),
    (tvinSigChgBit, .colorBitChange), (tvinSigChgVsFrq, .vsFrqChange),
    (tvinSigChgDvAllm, .allmInfoChange), (tvinSigChgAfd, .afdInfoChange),
    (tvinSigChgSts, .vdinSignalStatusChange)]

/-- The line of the arm for an event word. -/
def armLine (word : UInt32) : LogLine :=
  match sigChangeFlags.find? fun f => f.1 = word with
  | some f => f.2
  | none => .invalidVdinEvent

theorem armLine_of_not_flag {word : UInt32} (h : ∀ f ∈ sigChangeFlags, word ≠ f.1) :
    armLine word = .invalidVdinEvent := by
  have hnone : sigChangeFlags.find? (fun f => f.1 = word) = none := by
    rw [List.find?_eq_none]
    intro f hf
    simpa [eq_comm] using h f hf
  rw [armLine, hnone]

/-- The line of the handler of a status. -/
def handlerLine (status : UInt32) : LogLine :=
  if status = tvinSigStatusStable then .onSigToStable
  else if status = tvinSigStatusUnstable then .onSigToUnstable
  else if status = tvinSigStatusNotsup then .onSigToUnSupport
  else if status = tvinSigStatusNosig then .onSigToNoSig
  else .invalidSignalStatus

theorem lines_reported (v : ReportView) (status : UInt32) :
    (v.reported status).lines = v.lines ++ [handlerLine status] := by
  unfold ReportView.reported handlerLine
  split_ifs <;> rfl

theorem info_reported (v : ReportView) (status : UInt32) : (v.reported status).info = v.info := by
  unfold ReportView.reported
  split_ifs <;> rfl

/-- The lines of the arm that runs, with that of the handler where the arm handles a report. -/
theorem lines_onVdinEvent (hopen : tv.mVdin0DevFd = true) (word : UInt32) :
    (tv.onVdinEvent ans word).view.lines = tv.view.lines ++ armLine word ::
      if word = tvinSigChgSts ∧ 0 ≤ ans.vdin .getSigInfo then [handlerLine ans.sigInfo.status]
      else [] := by
  -- the arm of the signal status is the only one that logs a second line
  by_cases hsts : word = tvinSigChgSts
  · subst hsts
    have hlog : (tv.perform (.log .vdinSignalStatusChange)).mVdin0DevFd = true := hopen
    have hline : armLine tvinSigChgSts = .vdinSignalStatusChange := rfl
    rw [onVdinEvent_sts, hline, view_onSigStatusChange hlog, view_log]
    by_cases hinfo : 0 ≤ ans.vdin .getSigInfo
    · rw [if_pos hinfo, if_pos ⟨rfl, hinfo⟩, lines_reported]
      simp [ReportView.record, ReportView.log]
    · rw [if_neg hinfo, if_neg fun h => hinfo h.2]
      rfl
  · rw [if_neg fun h => hsts h.1]
    unfold onVdinEvent
    split_ifs with hhdr hcolor hrange hbit hfrq hafd hallm
    · rcases hhdr with rfl | rfl | rfl | rfl <;> exact view_onHdrInfoChange
    · subst hcolor
      exact congrArg ReportView.lines (view_log .colorFmtChange)
    · subst hrange
      exact congrArg ReportView.lines (view_log .colorRangeChange)
    · subst hbit
      exact congrArg ReportView.lines (view_log .colorBitChange)
    · subst hfrq
      exact congrArg ReportView.lines (view_log .vsFrqChange)
    · subst hafd
      exact view_onAfdInfoChange _
    · subst hallm
      exact congrArg ReportView.lines (view_log .allmInfoChange)
    · -- the default arm: the word is none of the flags
      simp only [not_or] at hhdr
      have hnot : ∀ f ∈ sigChangeFlags, word ≠ f.1 := by
        simp only [sigChangeFlags, List.forall_mem_cons]
        exact ⟨hhdr.1, hhdr.2.1, hhdr.2.2.1, hhdr.2.2.2, hcolor, hrange, hbit, hfrq, hallm, hafd,
          hsts, by simp⟩
      rw [armLine_of_not_flag hnot]
      exact congrArg ReportView.lines (view_log .invalidVdinEvent)

/-- The event word is delivered to the switch where its ioctl succeeds. -/
theorem onVdinSignalChange_of_event (hevent : 0 ≤ (tv.tvinGetSignalEventInfo ans).1) :
    tv.onVdinSignalChange ans =
      (tv.tvinGetSignalEventInfo ans).2.onVdinEvent ans ans.eventInfo := by
  rw [onVdinSignalChange, if_neg (Int32.not_lt.mpr hevent)]

/-- What an event makes known that delivers a status report. -/
theorem view_of_report {info : TvinInfo} (h : tv.report ans = some info) :
    (tv.onVdinSignalChange ans).view =
      ((tv.view.log .vdinSignalStatusChange).record info).reported info.status := by
  rw [report] at h
  split at h
  · rename_i hrep
    obtain ⟨hevent, hword, hinfo⟩ := hrep
    obtain rfl := Option.some.inj h
    rw [onVdinSignalChange_of_event hevent, hword, onVdinEvent_sts,
      view_onSigStatusChange (open_of_event hevent _), if_pos hinfo, view_log,
      view_tvinGetSignalEventInfo]
  · cases h

/-! ## Event words -/

/-- Every flag in the event word is handled: its arm runs, and for the flag of the signal status,
if the signal info can be read, it is recorded and the handler of its status runs. -/
def HandlesWord (tv : CTv) (ans : Answers) : Prop :=
  ∃ ran, (tv.onVdinSignalChange ans).view.lines = tv.view.lines ++ ran ∧
    (∀ f ∈ sigChangeFlags, ans.eventInfo &&& f.1 ≠ 0 → f.2 ∈ ran) ∧
    (ans.eventInfo &&& tvinSigChgSts ≠ 0 → 0 ≤ ans.vdin .getSigInfo →
      (tv.onVdinSignalChange ans).mCurrentSignalInfo = ans.sigInfo ∧
        handlerLine ans.sigInfo.status ∈ ran)

/-- Different flags have no bit in common. -/
theorem eq_of_and_ne_zero : ∀ f ∈ sigChangeFlags, ∀ g ∈ sigChangeFlags,
    g.1 &&& f.1 ≠ 0 → armLine g.1 = f.2 ∧ g.1 = f.1 := by decide

theorem line_ne_invalid : ∀ f ∈ sigChangeFlags, f.2 ≠ .invalidVdinEvent := by decide

theorem lines_onVdinSignalChange (hevent : 0 ≤ (tv.tvinGetSignalEventInfo ans).1) :
    (tv.onVdinSignalChange ans).view.lines = tv.view.lines ++ armLine ans.eventInfo ::
      if ans.eventInfo = tvinSigChgSts ∧ 0 ≤ ans.vdin .getSigInfo then
        [handlerLine ans.sigInfo.status]
      else [] := by
  have hfd : (tv.tvinGetSignalEventInfo ans).2.mVdin0DevFd = true := open_of_nonneg hevent
  rw [onVdinSignalChange_of_event hevent, lines_onVdinEvent hfd, view_tvinGetSignalEventInfo]

/-- **Event words**: every flag in the word is handled exactly if the word has no flag, or is one
of the flags. -/
theorem handlesWord_iff (hevent : 0 ≤ (tv.tvinGetSignalEventInfo ans).1) :
    tv.HandlesWord ans ↔
      (∀ f ∈ sigChangeFlags, ans.eventInfo &&& f.1 = 0) ∨
        ∃ f ∈ sigChangeFlags, ans.eventInfo = f.1 := by
  have hsts : (tvinSigChgSts, LogLine.vdinSignalStatusChange) ∈ sigChangeFlags := by decide
  have hlines := lines_onVdinSignalChange hevent
  constructor
  · rintro ⟨ran, hran, hflags, -⟩
    by_contra hno
    push Not at hno
    obtain ⟨⟨f, hf, hset⟩, hnot⟩ := hno
    -- a word that is no single flag falls through to the default arm
    rw [armLine_of_not_flag hnot, if_neg fun h => hnot _ hsts h.1] at hlines
    have hdefault : ran = [.invalidVdinEvent] := List.append_cancel_left (hran.symm.trans hlines)
    have hmem := hflags f hf hset
    rw [hdefault, List.mem_singleton] at hmem
    exact line_ne_invalid f hf hmem
  · rintro (hnone | ⟨g, hg, hword⟩)
    · refine ⟨_, hlines, fun f hf hset => absurd (hnone f hf) hset, fun hset _ => ?_⟩
      exact absurd (hnone _ hsts) hset
    · refine ⟨_, hlines, fun f hf hset => ?_, fun hset hinfo => ?_⟩
      · -- the flag set in the word is the word itself, since different flags share no bit
        rw [hword] at hset
        rw [hword, (eq_of_and_ne_zero f hf g hg hset).1]
        exact List.mem_cons_self
      · rw [hword] at hset
        have hstatus : ans.eventInfo = tvinSigChgSts :=
          hword.trans (eq_of_and_ne_zero _ hsts g hg hset).2
        have hreport : tv.report ans = some ans.sigInfo := if_pos ⟨hevent, hstatus, hinfo⟩
        have hrecorded := congrArg ReportView.info (view_of_report hreport)
        rw [info_reported] at hrecorded
        refine ⟨hrecorded, ?_⟩
        rw [if_pos ⟨hstatus, hinfo⟩]
        simp

/-- The dispatch handles a single change of the signal status. -/
theorem handlesWord_sts : (allocate ⟨fun _ => none, none, true, true, sourceTv⟩).HandlesWord
    (.granting tvinSigChgSts noSignalInfo) :=
  (handlesWord_iff (by decide)).mpr
    (.inr ⟨(tvinSigChgSts, .vdinSignalStatusChange), by decide, rfl⟩)

/-- A change of the signal status together with one of the dynamic range is lost. -/
theorem not_forall_handlesWord :
    ¬ ∀ (tv : CTv) (ans : Answers), 0 ≤ (tv.tvinGetSignalEventInfo ans).1 → tv.HandlesWord ans := by
  intro hall
  let tv := allocate ⟨fun _ => none, none, true, true, sourceTv⟩
  let ans := Answers.granting (tvinSigChgSts ||| tvinSigChgSdr2hdr) noSignalInfo
  obtain ⟨ran, hran, hflags, -⟩ := hall tv ans (by decide)
  have hlines : (tv.onVdinSignalChange ans).view.lines = tv.view.lines ++ [.invalidVdinEvent] :=
    lines_onVdinSignalChange (by decide)
  have hdefault : ran = [.invalidVdinEvent] := List.append_cancel_left (hran.symm.trans hlines)
  have hmem := hflags (tvinSigChgSts, .vdinSignalStatusChange) (by decide) (by decide)
  rw [hdefault] at hmem
  exact absurd hmem (by decide)

end CTv
