import TvServer.Tv.Reports

/-!
# The events of a step

The television object sends an event to its observer for every status report of a stable, an
unsupported or a missing signal, and for every source that is plugged in or out, and no other
event.

## Main definitions

* `CTv.notices`: whether there is an observer, and the events it was sent
* `CTv.sentEvents`: the events of a step

## Main results

* `notices_step`: a step sends its events and keeps the observer
-/

namespace ReportView

/-- The events once further ones were sent, if there is an observer. -/
def send (v : ReportView) (sent : List CTvEvent) : List CTvEvent :=
  v.events ++ if v.observed then sent else []

@[simp] theorem send_nil (v : ReportView) : v.send [] = v.events := by
  rw [send, ite_self, List.append_nil]

theorem events_notify (v : ReportView) : v.notify.events = v.send [v.signalEvent] := by
  show (if v.observed then v.events ++ [v.signalEvent] else v.events) = v.send [v.signalEvent]
  rw [send]
  split
  · rfl
  · rw [List.append_nil]

/-- The event for the report of a status. -/
def reportEvents (v : ReportView) (status : UInt32) : List CTvEvent :=
  if status = tvinSigStatusStable ∨ status = tvinSigStatusNotsup ∨ status = tvinSigStatusNosig then
    [v.signalEvent]
  else []

/-- The report of a status is passed on if the signal is stable, unsupported or missing. -/
theorem events_reported (v : ReportView) (status : UInt32) :
    (v.reported status).events = v.send (v.reportEvents status) := by
  have hnotify : ∀ line, (v.log line).notify.events = v.send [v.signalEvent] :=
    fun line => events_notify (v.log line)
  unfold reported
  split_ifs with hstable hunstable hnotsup hnosig
  · rw [reportEvents, if_pos (.inl hstable), hnotify]
  · have hother : v.reportEvents status = [] := by
      rw [reportEvents, hunstable]
      rfl
    rw [hother, send_nil]
    rfl
  · rw [reportEvents, if_pos (.inr (.inl hnotsup)), hnotify]
  · rw [reportEvents, if_pos (.inr (.inr hnosig)), hnotify]
  · have hother : v.reportEvents status = [] := if_neg (by simp [hstable, hnotsup, hnosig])
    rw [hother, send_nil]
    rfl

end ReportView

namespace CTv

variable {ans : Answers} {tv : CTv}

/-- Whether there is an observer, and the events it was sent. -/
def notices (tv : CTv) : Bool × List CTvEvent := (tv.view.observed, tv.view.events)

/-- The events of a step, if there is an observer. -/
def sentEvents (tv : CTv) : Command × Answers → List CTvEvent
  | (.sourceConnect source connectStatus, _) =>
    [.sourceConnect { mSourceInput := source, connectionState := connectStatus }]
  | (.vdinSignalChange, ans) =>
    match tv.report ans with
    | some info => (tv.view.record info).reportEvents info.status
    | none => []
  | _ => []

/-! ## Steps without events -/

theorem notices_of_view {tv' : CTv} (h : tv'.view = tv.view) : tv'.notices = tv.notices := by
  rw [notices, h]
  rfl

theorem notices_dependsOn : DependsOn notices [.tvEvent] := by
  intro tv u hu
  cases u with
  | perform action =>
    have hevent : action.event = none :=
      TvAction.event_eq_none fun he => hu (List.mem_singleton.mpr he)
    simp [update, notices, view, perform, hevent]
  | storeEdidVersion source edidVer =>
    exact storeEdidVersion_keeps notices tv (fun _ _ _ _ => rfl) source edidVer
  | _ => rfl

/-- What sends no event keeps the observer and what it was sent. -/
theorem notices_of_touches {parts : List Part} {tv' : CTv} (h : Touches parts tv tv')
    (hparts : Footprint.avoids parts [.tvEvent] = true) : tv'.notices = tv.notices :=
  h.frame notices_dependsOn hparts

/-! ## Vdin events -/

theorem notices_log (line : LogLine) : (tv.perform (.log line)).notices = tv.notices :=
  notices_of_touches (touches_log tv line) rfl

/-- An event with another word than that of a signal status is not passed on. -/
theorem notices_onVdinEvent_of_ne {word : UInt32} (hword : word ≠ tvinSigChgSts) :
    (tv.onVdinEvent ans word).notices = tv.notices := by
  unfold onVdinEvent
  dsimp only
  rw [if_neg hword]
  split_ifs
  · exact notices_of_touches (touches_onHdrInfoChange ans tv) rfl
  · exact notices_log _
  · exact notices_log _
  · exact notices_log _
  · exact notices_log _
  · exact notices_of_touches (touches_onAfdInfoChange ans tv _) rfl
  · exact notices_log _
  · exact notices_log _

/-- A vdin event that delivers no status report is not passed on. -/
theorem notices_of_report_eq_none (h : tv.report ans = none) :
    (tv.onVdinSignalChange ans).notices = tv.notices := by
  have hgot : (tv.tvinGetSignalEventInfo ans).2.notices = tv.notices :=
    notices_of_view view_tvinGetSignalEventInfo
  by_cases hevent : 0 ≤ (tv.tvinGetSignalEventInfo ans).1
  · rw [onVdinSignalChange_of_event hevent]
    by_cases hword : ans.eventInfo = tvinSigChgSts
    · -- the word is that of a report, so that it is the signal info that could not be read
      have hinfo : ¬ 0 ≤ ans.vdin .getSigInfo := by
        intro hinfo
        rw [report, if_pos ⟨hevent, hword, hinfo⟩] at h
        cases h
      have hfails : (((tv.tvinGetSignalEventInfo ans).2.perform
          (.log .vdinSignalStatusChange)).onSigStatusChange ans).view = _ :=
        (view_onSigStatusChange (open_of_event hevent _)).trans (if_neg hinfo)
      rw [hword, onVdinEvent_sts, notices_of_view hfails, notices_log, hgot]
    · rw [notices_onVdinEvent_of_ne hword, hgot]
  · rw [onVdinSignalChange, if_pos (Int32.not_le.mp hevent), hgot]

/-- What a status report makes the television object send. -/
theorem notices_of_report {info : TvinInfo} (h : tv.report ans = some info) :
    (tv.onVdinSignalChange ans).notices =
      (tv.mpObserver, tv.view.send ((tv.view.record info).reportEvents info.status)) := by
  have hobserved : ∀ (v : ReportView) status, (v.reported status).observed = v.observed := by
    intro v status
    unfold ReportView.reported
    split_ifs <;> rfl
  rw [notices, view_of_report h, ReportView.events_reported, hobserved]
  rfl

/-- **The events of a step**: it sends its events to the observer, if there is one, and keeps the
observer. -/
theorem notices_step (x : Command × Answers) : (tv.step x).notices =
    (tv.mpObserver, tv.view.send (tv.sentEvents x)) := by
  have hsilent : ∀ tv' : CTv, tv'.notices = tv.notices →
      tv'.notices = (tv.mpObserver, tv.view.send []) := by
    intro tv' h
    rw [h, ReportView.send_nil]
    rfl
  obtain ⟨command, ans⟩ := x
  -- only events from outside are passed on
  have hkeep (hparts : Footprint.avoids command.parts [.tvEvent] = true) :
      (tv.step (command, ans)).notices = tv.notices :=
    notices_of_touches (touches_step tv (command, ans)) hparts
  cases command with
  | sourceConnect source connectStatus =>
    show (tv.sendTvEvent _).notices = _
    rw [sendTvEvent]
    split
    · rename_i hobserver
      simp [notices, view, perform, ReportView.send, TvAction.event, sentEvents, hobserver]
    · rename_i hobserver
      simp [notices, view, ReportView.send, hobserver]
  | vdinSignalChange =>
    show (tv.onVdinSignalChange ans).notices = _
    cases hreport : tv.report ans with
    | some info =>
      have hsent : tv.sentEvents (.vdinSignalChange, ans) =
          (tv.view.record info).reportEvents info.status := by
        simp only [sentEvents, hreport]
      rw [hsent]
      exact notices_of_report hreport
    | none =>
      have hsent : tv.sentEvents (.vdinSignalChange, ans) = [] := by
        simp only [sentEvents, hreport]
      rw [hsent]
      exact hsilent _ (notices_of_report_eq_none hreport)
  | _ => exact hsilent _ (hkeep rfl)

end CTv
