import TvServer.Tv.DecoderProtocol

/-!
# Events that are no status reports

Most words of a vdin event are not about the status of the signal. What they change is one field of
the signal info at most: the dynamic range for the four words about it, once the signal is recorded
to be stable, and the aspect ratio for its word, if the driver has a stable signal for an HDMI
source. The driver is asked for no more than infos, and nobody is told.

## Main definitions

* `hdrWords`: the words about the dynamic range
* `ChangesItsField`: an event changes the field it is about at most

## Main results

* `changesItsField_onVdinSignalChange`: events that are no status reports change their field
-/

namespace CTv

variable {ans : Answers} {tv : CTv}

/-- The words about the dynamic range. -/
def hdrWords : List UInt32 :=
  [tvinSigChgSdr2hdr, tvinSigChgHdr2sdr, tvinSigChgDv2no, tvinSigChgNo2dv]

/-- An event with a word changes the field that the word is about at most: no more than infos are
asked of the driver, and what is recorded stays but for the dynamic range, where the signal is
recorded to be stable, and the aspect ratio, where the driver has a stable signal for an HDMI
source. Each becomes what the driver answers. -/
structure ChangesItsField (ans : Answers) (tv tv' : CTv) : Prop where
  actions : ∀ action ∈ tv'.trace.drop tv.trace.length, action.part ∈ [Part.log, Part.vdinQuery]
  source : tv'.mCurrentSource = tv.mCurrentSource
  info : tv'.mCurrentSignalInfo = { tv.mCurrentSignalInfo with
    hdrInfo := tv'.mCurrentSignalInfo.hdrInfo, aspectRatio := tv'.mCurrentSignalInfo.aspectRatio }
  hdrInfo : tv'.mCurrentSignalInfo.hdrInfo ≠ tv.mCurrentSignalInfo.hdrInfo →
    ans.eventInfo ∈ hdrWords ∧ tv.mCurrentSignalInfo.status = tvinSigStatusStable ∧
      tv'.mCurrentSignalInfo.hdrInfo = ans.sigInfo.hdrInfo
  aspectRatio : tv'.mCurrentSignalInfo.aspectRatio ≠ tv.mCurrentSignalInfo.aspectRatio →
    ans.eventInfo = tvinSigChgAfd ∧
      tvinSourceInputToSourceInputType tv.mCurrentSource = .hdmi ∧
      ans.sigInfo.status = tvinSigStatusStable ∧
      tv'.mCurrentSignalInfo.aspectRatio = ans.sigInfo.aspectRatio

theorem mCurrentSignalInfo_dependsOn : DependsOn mCurrentSignalInfo [.signalInfo] := by
  intro tv u hu
  cases u with
  | storeEdidVersion source edidVer =>
    exact storeEdidVersion_keeps mCurrentSignalInfo tv (fun _ _ _ _ => rfl) source edidVer
  | _ => first | rfl | exact absurd (of_decide_eq_true rfl) hu

/-- What an event does to the signal info that is recorded. -/
inductive InfoChange (ans : Answers) (source : SourceInput) (info : TvinInfo) : TvinInfo → Prop
  | none : InfoChange ans source info info
  | hdrInfo (hword : ans.eventInfo ∈ hdrWords) (hstable : info.status = tvinSigStatusStable) :
      InfoChange ans source info { info with hdrInfo := ans.sigInfo.hdrInfo }
  | aspectRatio (hword : ans.eventInfo = tvinSigChgAfd)
      (hsource : tvinSourceInputToSourceInputType source = .hdmi)
      (hstable : ans.sigInfo.status = tvinSigStatusStable) :
      InfoChange ans source info { info with aspectRatio := ans.sigInfo.aspectRatio }

/-- A query behind a line of the log changes nothing. -/
theorem infoChange_tvinGetSignalInfo (tv : CTv) (line : LogLine) :
    InfoChange ans tv.mCurrentSource tv.mCurrentSignalInfo
      ((tv.perform (.log line)).tvinGetSignalInfo ans).2.mCurrentSignalInfo := by
  have htouches := (touches_log tv line).trans (touches_tvinGetSignalInfo ans _)
  rw [htouches.frame mCurrentSignalInfo_dependsOn rfl]
  exact .none

/-- The arm of the dynamic range. -/
theorem infoChange_onHdrInfoChange (hword : ans.eventInfo ∈ hdrWords) :
    InfoChange ans tv.mCurrentSource tv.mCurrentSignalInfo
      (tv.onHdrInfoChange ans).mCurrentSignalInfo := by
  rw [onHdrInfoChange]
  dsimp only
  split_ifs with hfail hchange
  · exact infoChange_tvinGetSignalInfo tv .hdrInfoChange
  · exact .hdrInfo hword hchange.1
  · exact infoChange_tvinGetSignalInfo tv .hdrInfoChange

/-- The arm of the aspect ratio. -/
theorem infoChange_onAfdInfoChange (hword : ans.eventInfo = tvinSigChgAfd) :
    InfoChange ans tv.mCurrentSource tv.mCurrentSignalInfo
      (tv.onAfdInfoChange ans
        (tvinSourceInputToSourceInputType tv.mCurrentSource)).mCurrentSignalInfo := by
  rw [onAfdInfoChange]
  dsimp only
  split_ifs with hsource hfail hchange
  · exact infoChange_tvinGetSignalInfo tv .afdInfoChange
  · exact .aspectRatio hword hsource hchange.1
  · exact infoChange_tvinGetSignalInfo tv .afdInfoChange
  · exact .none

/-- The other arms only log a line. -/
theorem infoChange_onVdinEvent (hword : ans.eventInfo ≠ tvinSigChgSts) :
    InfoChange ans tv.mCurrentSource tv.mCurrentSignalInfo
      (tv.onVdinEvent ans ans.eventInfo).mCurrentSignalInfo := by
  rw [onVdinEvent]
  split_ifs with hhdr hcolor hrange hbit hfrq hafd hallm
  · apply infoChange_onHdrInfoChange
    simpa only [hdrWords, List.mem_cons, List.not_mem_nil, or_false] using hhdr
  · exact .none
  · exact .none
  · exact .none
  · exact .none
  · exact infoChange_onAfdInfoChange hafd
  · exact .none
  · exact .none

theorem infoChange_onVdinSignalChange (hword : ans.eventInfo ≠ tvinSigChgSts) :
    InfoChange ans tv.mCurrentSource tv.mCurrentSignalInfo
      (tv.onVdinSignalChange ans).mCurrentSignalInfo := by
  have hevent := touches_tvinGetSignalEventInfo ans tv
  have hsource : (tv.tvinGetSignalEventInfo ans).2.mCurrentSource = tv.mCurrentSource :=
    hevent.frame mCurrentSource_dependsOn rfl
  have hinfo : (tv.tvinGetSignalEventInfo ans).2.mCurrentSignalInfo = tv.mCurrentSignalInfo :=
    hevent.frame mCurrentSignalInfo_dependsOn rfl
  rw [onVdinSignalChange]
  split
  · rw [hinfo]
    exact .none
  · rw [← hsource, ← hinfo]
    exact infoChange_onVdinEvent hword

/-- The arms that look at the signal info log lines and ask for infos. -/
theorem part_of_infoParts {action : TvAction} (h : action.part ∈ infoParts) :
    action.part ∈ [Part.log, Part.vdinQuery] := by
  -- the other parts are assignments
  have hassign : action.part ≠ .vdinFd ∧ action.part ≠ .signalInfo := by
    cases action with
    | vdin request ret => cases request <;> simp [TvAction.part, VdinRequest.part]
    | writeSysfs node value ret => cases node <;> simp [TvAction.part, SysNode.part]
    | _ => simp [TvAction.part]
  simp only [infoParts, List.mem_cons, List.not_mem_nil, or_false] at h ⊢
  rcases h with h | h | h | h
  · exact .inl h
  · exact absurd h hassign.1
  · exact .inr h
  · exact absurd h hassign.2

/-- **Events that are no status reports** change the field they are about at most. -/
theorem changesItsField_onVdinSignalChange (tv : CTv) (ans : Answers)
    (hword : ans.eventInfo &&& tvinSigChgSts = 0) :
    ChangesItsField ans tv (tv.onVdinSignalChange ans) := by
  have hsts : ans.eventInfo ≠ tvinSigChgSts := by
    intro h
    rw [h, UInt32.and_self] at hword
    exact absurd hword (by decide)
  have hnone : tv.report ans = none := if_neg fun h => hsts h.2.1
  have htouches := touches_onVdinSignalChange_of_no_report hnone
  have hinfo := @infoChange_onVdinSignalChange ans tv hsts
  have hsource : (tv.onVdinSignalChange ans).mCurrentSource = tv.mCurrentSource :=
    htouches.frame mCurrentSource_dependsOn rfl
  have hactions : ∀ action ∈ (tv.onVdinSignalChange ans).trace.drop tv.trace.length,
      action.part ∈ [Part.log, Part.vdinQuery] :=
    fun action hmem => part_of_infoParts (part_mem_of_touches htouches action hmem)
  generalize tv.onVdinSignalChange ans = tv' at hinfo hsource hactions
  generalize hinfo' : tv'.mCurrentSignalInfo = info at hinfo
  rcases hinfo with _ | ⟨hhdr, hstable⟩ | ⟨hafd, hhdmi, hstable⟩
  · refine ⟨hactions, hsource, by rw [hinfo'], fun h => ?_, fun h => ?_⟩
    · exact absurd (by rw [hinfo']) h
    · exact absurd (by rw [hinfo']) h
  · refine ⟨hactions, hsource, by rw [hinfo'], fun _ => ?_, fun h => ?_⟩
    · exact ⟨hhdr, hstable, by rw [hinfo']⟩
    · exact absurd (by rw [hinfo']) h
  · refine ⟨hactions, hsource, by rw [hinfo'], fun h => ?_, fun _ => ?_⟩
    · exact absurd (by rw [hinfo']) h
    · exact ⟨hafd, hhdmi, hstable, by rw [hinfo']⟩

/-- The aspect ratio of a stable signal at an HDMI port. -/
theorem changesItsField_afd :
    let ans := Answers.granting tvinSigChgAfd
      { noSignalInfo with status := tvinSigStatusStable, aspectRatio := 2 }
    let tv := allocate ⟨fun _ => none, none, true, true, sourceHdmi1⟩
    ChangesItsField ans tv (tv.onVdinSignalChange ans) ∧
      (tv.onVdinSignalChange ans).mCurrentSignalInfo.aspectRatio = 2 := by
  intro ans tv
  exact ⟨changesItsField_onVdinSignalChange tv ans (by decide), rfl⟩

end CTv
