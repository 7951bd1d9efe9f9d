import TvServer.Service.DataCommands
import TvServer.Tv.DecoderProtocol
import TvServer.Tv.Edid

/-!
# Setting EDID data and versions

A version comes from the client as it is, and is packed into the version word and stored without a
look at its range; the decoder is stopped before the write is tried, whatever source it belongs to;
and a source without an HDMI port has the port id `TVIN_PORT_ID_MAX`, which is written as if it
were a port.

## Main definitions

* `Contained`: a version that is set exists, and changes the digit of its source only
* `BoundsVersion`: the calls that contain their version
* `Undisturbed`: a call that fails, or is for another source, leaves the decoder alone
* `RejectsData`, `RejectsVersion`: nothing is written for a source

## Main results

* `contained_iff_bounds`: the runs that contain all versions
* `decoder_undisturbed_iff`: the calls that leave the decoder alone as they should
* `rejectsNoPort_iff`: when nothing is written for a source without an HDMI port
-/

namespace TvAction

/-- The version word that was handed to a write. -/
def edidWord : TvAction → Option (List Char)
  | .writeEdidSelect value _ => some value
  | _ => none

/-- Whether an action wrote to a node of the HDMI receiver. -/
def writesHdmirx : TvAction → Bool
  | .writeEdid _ ret | .writeEdidSelect _ ret => 0 ≤ ret
  | _ => false

theorem edidWord_eq_none {action : TvAction} (h : action.part ≠ .edidSelect) :
    action.edidWord = none := by
  cases action with
  | writeEdidSelect value ret => exact absurd rfl h
  | _ => rfl

end TvAction

/-- Whether an action wrote to a node of the HDMI receiver. -/
def EdidPortAction.writes : EdidPortAction → Bool
  | .write _ ret => 0 ≤ ret
  | .update _ => false

namespace CTv

variable {ans : Answers} {tv : CTv}

/-! ## What is written -/

/-- The version words that were handed to a write. -/
def edidWords (tv : CTv) : List (List Char) := tv.trace.filterMap TvAction.edidWord

theorem edidWords_dependsOn : DependsOn edidWords [.edidSelect] := by
  apply filterMap_dependsOn
  intro action haction
  exact TvAction.edidWord_eq_none fun h => haction (h ▸ List.mem_cons_self)

theorem edidWords_hdmiRxEdidVerSwitch (tv : CTv) (ans : Answers) (verValue : UInt32) :
    (tv.hdmiRxEdidVerSwitch ans verValue).2.edidWords =
      tv.edidWords ++ if ans.edidSelectOpen then [CText.hexText verValue] else [] := by
  rw [hdmiRxEdidVerSwitch]
  split
  · exact List.filterMap_append
  · exact (List.append_nil _).symm

/-- What a new version of a source returns, and the version word it hands to the write. -/
theorem setEdidVersion_spec (ans : Answers) {source : SourceInput} {edidVer : UInt32}
    (hne : tv.getEdidVersion source ≠ edidVer) :
    ((tv.setEdidVersion ans source edidVer).1 < 0 ↔ ¬ EdidWriteSucceeds ans) ∧
      (tv.setEdidVersion ans source edidVer).2.edidWords = tv.edidWords ++
        if ans.edidSelectOpen then [CText.hexText (tv.newEdidSetValue source edidVer)] else [] := by
  have hstop : (tv.tvinStopDecoder ans).2.edidWords = tv.edidWords :=
    (touches_tvinStopDecoder ans tv).frame edidWords_dependsOn rfl
  have hwords := edidWords_hdmiRxEdidVerSwitch (tv.tvinStopDecoder ans).2 ans
    (tv.newEdidSetValue source edidVer)
  rw [hstop] at hwords
  rw [setEdidVersion_eq ans hne, ← hwords]
  have hret := (hdmiRxEdidVerSwitch_spec (tv.tvinStopDecoder ans).2 ans
    (tv.newEdidSetValue source edidVer)).1
  generalize (tv.tvinStopDecoder ans).2.hdmiRxEdidVerSwitch ans
    (tv.newEdidSetValue source edidVer) = switch at hret ⊢
  have hupdate : (if (tv.tvinStopDecoder ans).2.mCurrentSource = source then
      (switch.2.hdmiRxEdidUpdate ans).2 else switch.2).edidWords = switch.2.edidWords := by
    split
    · exact (touches_hdmiRxEdidUpdate ans _).frame edidWords_dependsOn rfl
    · rfl
  have hstore (tv : CTv) : (tv.storeEdidVersion source edidVer).edidWords = tv.edidWords :=
    (touches_storeEdidVersion tv source edidVer).frame edidWords_dependsOn rfl
  dsimp only
  split
  · rename_i hneg
    exact ⟨iff_of_true failure_neg (hret.mp hneg), hupdate⟩
  · rename_i hnonneg
    exact ⟨hret, (hstore _).trans hupdate⟩

/-! ## Containment -/

/-- The versions stored for the HDMI sources exist. -/
def VersionsExist (tv : CTv) : Prop :=
  ∀ source ∈ hdmiSources, tv.getEdidVersion source < hdmiEdidVerMax

/-- A version that is set for an HDMI source either fails and changes no stored version; or it
exists and is stored, and the word that is written has the bits of the stored versions at all
ports but that of the source. -/
def Contained (tv : CTv) : Command × Answers → Prop
  | (.setEdidVersion source edidVer, ans) =>
    let set := tv.setEdidVersion ans source edidVer
    source ∈ hdmiSources →
      (set.1 < 0 ∧ ∀ s ∈ hdmiSources, set.2.getEdidVersion s = tv.getEdidVersion s) ∨
      (edidVer < hdmiEdidVerMax ∧ set.2.getEdidVersion source = edidVer ∧
        ∃ words : List UInt32, set.2.edidWords = tv.edidWords ++ words.map CText.hexText ∧
          ∀ w ∈ words, (w ^^^ tv.edidSetValue tv.getEdidVersion) &&&
            ~~~ HexDigits.mask (tv.position source) = 0)
  | _ => True

/-- The calls that contain their version: for an HDMI source only versions that exist are
written. -/
def BoundsVersion (_tv : CTv) : Command × Answers → Prop
  | (.setEdidVersion source edidVer, ans) =>
    source ∈ hdmiSources → EdidWriteSucceeds ans → edidVer < hdmiEdidVerMax
  | _ => True

theorem lt_of_versionExists {edidVer : UInt32} (h : edidVer < hdmiEdidVerMax) : edidVer < 16 :=
  UInt32.lt_trans h (by decide)

theorem storeEdidVersion_of_notMem {source : SourceInput} (h : source ∉ hdmiSources)
    (edidVer : UInt32) : tv.storeEdidVersion source edidVer = tv := by
  simp only [hdmiSources, List.mem_cons, List.not_mem_nil, or_false, not_or] at h
  obtain ⟨h₁, h₂, h₃, h₄⟩ := h
  rw [storeEdidVersion, if_neg h₁, if_neg h₂, if_neg h₃, if_neg h₄]

theorem versionsExist_congr {tv' : CTv} (hversion : tv'.getEdidVersion = tv.getEdidVersion)
    (h : tv.VersionsExist) : tv'.VersionsExist := by
  rw [VersionsExist, hversion]
  exact h

/-- Calls that contain their version keep the stored ones in range. -/
theorem versionsExist_step (h : tv.VersionsExist) {x : Command × Answers}
    (hx : tv.BoundsVersion x) : (tv.step x).VersionsExist := by
  rcases edid_step x with hkeep | ⟨hsucceeds, hselect | ⟨source, edidVer, written, he, hwritten,
    hstep⟩⟩
  · exact versionsExist_congr (congrArg EdidView.version hkeep) h
  · exact versionsExist_congr (congrArg EdidView.version hselect) h
  · have hexist : written.VersionsExist :=
      versionsExist_congr (congrArg EdidView.version hwritten) h
    rw [hstep]
    by_cases hs : source ∈ hdmiSources
    · obtain ⟨command, ans⟩ := x
      obtain rfl : command = .setEdidVersion source edidVer := he
      -- the source has the new version, which exists, and the others have what they had
      have hlt : edidVer < hdmiEdidVerMax := hx hs hsucceeds
      intro s hmem
      rw [getEdidVersion_storeEdidVersion source edidVer s hmem]
      split
      · exact hlt
      · exact hexist s hmem
    · rw [storeEdidVersion_of_notMem hs]
      exact hexist

/-- A version that exists, and is written, reaches no digit but that of its source. -/
theorem contained_of_lt (h : tv.VersionsExist) {source : SourceInput} (hs : source ∈ hdmiSources)
    {edidVer : UInt32} (hne : tv.getEdidVersion source ≠ edidVer)
    (hsucceeds : EdidWriteSucceeds ans) (hlt : edidVer < hdmiEdidVerMax) :
    tv.Contained (.setEdidVersion source edidVer, ans) := by
  obtain ⟨-, hwords⟩ := setEdidVersion_spec ans hne
  obtain ⟨written, -, hset⟩ := setEdidVersion_of_ne ans hne
  rw [if_pos hsucceeds] at hset
  refine fun _ => .inr ⟨hlt, ?_, [tv.newEdidSetValue source edidVer], ?_, ?_⟩
  · rw [hset, getEdidVersion_storeEdidVersion source edidVer source hs, if_pos rfl]
  · rw [hwords, if_pos hsucceeds.1]
    rfl
  · intro w hw
    rw [List.mem_singleton.mp hw, newEdidSetValue, edidSetValue_eq_pack, edidSetValue_eq_pack]
    -- both words are packed from digits, which differ at the position of the source only
    apply HexDigits.pack_xor_and_not_mask
    · exact lt_of_versionExists (h source hs)
    · rw [if_pos rfl]
      exact lt_of_versionExists hlt
    · intro s _ hsource
      exact if_neg hsource

/-- **Contained calls**: as long as the stored versions exist, the calls that contain their version
are exactly those that write only versions that exist. -/
theorem contained_iff (h : tv.VersionsExist) (x : Command × Answers) :
    tv.Contained x ↔ tv.BoundsVersion x := by
  obtain ⟨command, ans⟩ := x
  cases command with
  | setEdidVersion source edidVer =>
    refine imp_congr_right fun hs => ?_
    by_cases hne : tv.getEdidVersion source = edidVer
    · -- nothing is written where the version is stored already
      have hlt : edidVer < hdmiEdidVerMax := hne ▸ h source hs
      rw [setEdidVersion, if_neg (not_not_intro hne)]
      refine iff_of_true (.inr ⟨hlt, hne, [], ?_, fun w hw => absurd hw List.not_mem_nil⟩)
        fun _ => hlt
      exact (List.append_nil _).symm
    · have hret := (setEdidVersion_spec ans hne).1
      by_cases hsucceeds : EdidWriteSucceeds ans
      · have hnonneg : ¬ (tv.setEdidVersion ans source edidVer).1 < 0 :=
          hret.not.mpr (not_not_intro hsucceeds)
        constructor
        · intro hcontained _
          exact (hcontained.resolve_left fun hfail => hnonneg hfail.1).1
        · intro hbounds
          exact contained_of_lt h hs hne hsucceeds (hbounds hsucceeds) hs
      · -- a write that fails stores nothing
        obtain ⟨written, hwritten, hset⟩ := setEdidVersion_of_ne ans hne
        rw [if_neg hsucceeds] at hwritten hset
        have hfail : (tv.setEdidVersion ans source edidVer).1 < 0 := hret.mpr hsucceeds
        refine iff_of_true (.inl ⟨hfail, fun s _ => ?_⟩) fun hyes => absurd hyes hsucceeds
        rw [hset]
        exact congrFun (congrArg EdidView.version hwritten) s
  | _ => exact Iff.rfl

theorem getEdidVersion_dependsOn : DependsOn getEdidVersion [.edidVersions] := by
  intro tv u hu
  cases u with
  | storeEdidVersion source edidVer => exact absurd (of_decide_eq_true rfl) hu
  | _ => rfl

/-- The constructor stores version 1.4 for all sources. -/
theorem versionsExist_construct (ans : Answers) (boot : Boot) :
    (construct ans boot).VersionsExist := by
  have hversion : (construct ans boot).getEdidVersion = (allocate boot).getEdidVersion :=
    (touches_construct ans boot).frame getEdidVersion_dependsOn rfl
  rw [VersionsExist, hversion]
  intro source hs
  simp only [hdmiSources, List.mem_cons, List.not_mem_nil, or_false] at hs
  rcases hs with rfl | rfl | rfl | rfl <;> exact (by decide : hdmiEdidVer14 < hdmiEdidVerMax)

/-- **Runs that contain all versions**: every version that is set in a run is contained, exactly if
no version out of range is written for an HDMI source. -/
theorem contained_iff_bounds (ans : Answers) (boot : Boot) (xs : List (Command × Answers)) :
    Machine.Along step Contained (construct ans boot) xs ↔
      Machine.Along step BoundsVersion (construct ans boot) xs := by
  symm
  apply Machine.along_congr VersionsExist
  · exact fun tv x h hx => versionsExist_step h hx
  · exact fun tv x h => (contained_iff h x).symm
  · exact versionsExist_construct ans boot

/-- A version of five bits reaches into the digit of another port. -/
theorem not_forall_contained :
    ¬ ∀ (ans : Answers) (boot : Boot) (xs : List (Command × Answers)),
      (construct ans boot).DistinctHdmiPorts →
        ∀ source edidVer ans', (Machine.run step (construct ans boot) xs).Contained
          (.setEdidVersion source edidVer, ans') := by
  intro hall
  let ans := Answers.granting 0 noSignalInfo
  let boot : Boot := ⟨fun _ => none, none, true, true, sourceTv⟩
  have hcontained := hall ans boot [] distinctHdmiPorts_default sourceHdmi1 16 ans
  have hbounds := (contained_iff (versionsExist_construct ans boot) _).mp hcontained
  have hlt : (16 : UInt32) < hdmiEdidVerMax := hbounds List.mem_cons_self (by decide)
  exact absurd hlt (by decide)

/-! ## The decoder -/

/-- A version that fails to be set, or is set for another source than the current one, leaves the
decoder alone. -/
def Undisturbed (tv : CTv) (ans : Answers) (source : SourceInput) (edidVer : UInt32) : Prop :=
  (tv.setEdidVersion ans source edidVer).1 < 0 ∨ source ≠ tv.mCurrentSource →
    (tv.setEdidVersion ans source edidVer).2.decoding = tv.decoding

/-- A new version stops a decoder that is started. -/
theorem decoding_setEdidVersion_iff (hg : tv.Grounded) (source : SourceInput) (edidVer : UInt32) :
    (tv.setEdidVersion ans source edidVer).2.decoding = tv.decoding ↔
      tv.getEdidVersion source = edidVer ∨ tv.mDecoderStarted = false := by
  by_cases hne : tv.getEdidVersion source = edidVer
  · rw [setEdidVersion, if_neg (not_not_intro hne)]
    exact iff_of_true rfl (.inl hne)
  · have hstep : DecoderStep ans tv (tv.setEdidVersion ans source edidVer).2
        (tv.getEdidVersion source ≠ edidVer) := decoderStep_setEdidVersion hg source edidVer
    rw [decide_eq_true hne] at hstep
    cases hstep with
    | stop before hbefore htouches hbehind =>
      have hsame : before.decoding = tv.decoding := decoding_of_touches htouches
      have hstarted : before.mDecoderStarted = tv.mDecoderStarted := congrArg Prod.fst hsame
      rw [decoding_of_touches hbehind, decoding_tvinStopDecoder hbefore, hstarted, hsame,
        or_iff_right hne]
      cases hflag : tv.mDecoderStarted with
      | false => exact iff_of_true rfl rfl
      | true =>
        -- the flag is cleared, whatever the ioctl does
        refine iff_of_false (fun heq => ?_) Bool.false_ne_true.symm
        have hcleared : false = tv.mDecoderStarted := congrArg Prod.fst heq
        exact Bool.false_ne_true (hcleared.trans hflag)

/-- **Calls that leave the decoder alone**: in every state that is reached, a call that fails or is
for another source leaves the decoder alone exactly if the version is stored already, or the
decoder is stopped, or the call does not fail and is for the current source. -/
theorem decoder_undisturbed_iff (ans : Answers) (boot : Boot) (xs : List (Command × Answers))
    (ans' : Answers) (source : SourceInput) (edidVer : UInt32) :
    let tv := Machine.run step (construct ans boot) xs
    tv.Undisturbed ans' source edidVer ↔
      tv.getEdidVersion source = edidVer ∨ tv.mDecoderStarted = false ∨
        (EdidWriteSucceeds ans' ∧ source = tv.mCurrentSource) := by
  intro tv
  have hg : tv.Grounded := grounded_run ans boot xs
  rw [Undisturbed, decoding_setEdidVersion_iff hg]
  by_cases hne : tv.getEdidVersion source = edidVer
  · exact iff_of_true (fun _ => .inl hne) (.inl hne)
  · have hret := (setEdidVersion_spec ans' hne).1
    rw [hret, or_iff_right hne, or_iff_right hne]
    constructor
    · intro h
      by_cases hcall : EdidWriteSucceeds ans' ∧ source = tv.mCurrentSource
      · exact .inr hcall
      · exact .inl (h (not_and_or.mp hcall))
    · -- a call that is asked to leave the decoder alone fails, or is for another source
      rintro (hstopped | ⟨hsucceeds, hsource⟩) hcall
      · exact hstopped
      · rcases hcall with hfails | hother
        · exact absurd hsucceeds hfails
        · exact absurd hsource hother

theorem mCurrentSource_startTv (source : SourceInput) :
    (tv.startTv ans source).2.mCurrentSource = source :=
  congrArg SignalPath.source (path_startTv source)

/-- Once a stable signal is shown, a new version of another source stops the decoder. -/
theorem not_undisturbed_of_stable (hg : tv.Grounded) {info : TvinInfo}
    (hstable : info.status = tvinSigStatusStable) {source : SourceInput} {edidVer : UInt32}
    (hne : tv.getEdidVersion source ≠ edidVer) (hother : source ≠ tv.mCurrentSource) :
    ¬ (tv.step (.vdinSignalChange, .granting tvinSigChgSts info)).Undisturbed ans source
      edidVer := by
  have hgrounded := Grounded.preserves.step (.vdinSignalChange, .granting tvinSigChgSts info) hg
  have hstarted := started_of_stable tv hstable
  have hversion : (tv.step (.vdinSignalChange, .granting tvinSigChgSts info)).getEdidVersion =
      tv.getEdidVersion := (touches_step tv _).frame getEdidVersion_dependsOn rfl
  have hsource : (tv.step (.vdinSignalChange, .granting tvinSigChgSts info)).mCurrentSource =
      tv.mCurrentSource := (touches_step tv _).frame mCurrentSource_dependsOn rfl
  generalize tv.step (.vdinSignalChange, .granting tvinSigChgSts info) = shown
    at hgrounded hstarted hversion hsource ⊢
  intro hundisturbed
  have hsame := hundisturbed (.inr (hsource ▸ hother))
  rcases (decoding_setEdidVersion_iff hgrounded source edidVer).mp hsame with hstored | hstopped
  · exact hne (hversion ▸ hstored)
  · exact absurd (hstarted.symm.trans hstopped) nofun

/-- A version of `HDMI2` is set while `HDMI1` is shown. -/
theorem not_forall_decoder_undisturbed :
    ¬ ∀ (ans : Answers) (boot : Boot) (xs : List (Command × Answers)) (ans' : Answers)
      (source : SourceInput) (edidVer : UInt32),
      (Machine.run step (construct ans boot) xs).Undisturbed ans' source edidVer := by
  intro hall
  let boot : Boot := ⟨fun _ => none, none, true, true, sourceInvalid⟩
  let stable : TvinInfo := { noSignalInfo with fmt := 0x401, status := tvinSigStatusStable }
  let ans := Answers.granting tvinSigChgSts stable
  have hundisturbed := hall ans boot [(.startTv sourceHdmi1, ans), (.vdinSignalChange, ans)] ans
    sourceHdmi2 hdmiEdidVer20
  simp only [Machine.run_cons, Machine.run_nil] at hundisturbed
  refine not_undisturbed_of_stable ?_ rfl ?_ ?_ hundisturbed
  · exact grounded_run ans boot [(.startTv sourceHdmi1, ans)]
  · have hshown := (touches_step (construct ans boot) (.startTv sourceHdmi1, ans)).frame
      getEdidVersion_dependsOn rfl
    have hconstruct := (touches_construct ans boot).frame getEdidVersion_dependsOn rfl
    rw [hshown, hconstruct]
    exact (by decide : hdmiEdidVer14 ≠ hdmiEdidVer20)
  · show sourceHdmi2 ≠ ((construct ans boot).startTv ans sourceHdmi1).2.mCurrentSource
    rw [mCurrentSource_startTv]
    decide

/-! ## Sources without a port -/

/-- What was written to the nodes of the HDMI receiver. -/
def hdmirxWrites (tv : CTv) : List TvAction := tv.trace.filter TvAction.writesHdmirx

/-- Whether a write of the EDID data of a port succeeds. -/
def EdidPortWriteSucceeds (ans : EdidPortAnswers) : Prop :=
  ans.dataOpen = true ∧ ¬ ans.dataWrite < 0

/-- EDID data is rejected for a source: the call fails, and nothing is written. -/
def RejectsData (tv : CTv) (ans : EdidPortAnswers) (source : SourceInput)
    (data : Vector Int8 realEdidDataSize) : Prop :=
  (tv.setEdidData ans source data).1 < 0 ∧
    ∀ action ∈ (tv.setEdidData ans source data).2, action.writes = false

/-- A version is rejected for a source: the call fails, and nothing is written. -/
def RejectsVersion (tv : CTv) (ans : Answers) (source : SourceInput) (edidVer : UInt32) : Prop :=
  (tv.setEdidVersion ans source edidVer).1 < 0 ∧
    (tv.setEdidVersion ans source edidVer).2.hdmirxWrites = tv.hdmirxWrites

/-- EDID data and new versions are rejected for a source without an HDMI port. -/
def RejectsNoPort (tv : CTv) (portAns : EdidPortAnswers) (ans : Answers) (source : SourceInput)
    (data : Vector Int8 realEdidDataSize) (edidVer : UInt32) : Prop :=
  tv.tvinGetHdmiPortIdBySourceInput source = tvinPortIdMax →
    tv.RejectsData portAns source data ∧
      (edidVer ≠ tv.getEdidVersion source → tv.RejectsVersion ans source edidVer)

/-- EDID data is rejected only where it cannot be written. -/
theorem rejectsData_iff (ans : EdidPortAnswers) (source : SourceInput)
    (data : Vector Int8 realEdidDataSize) :
    tv.RejectsData ans source data ↔ ¬ EdidPortWriteSucceeds ans := by
  rw [RejectsData, setEdidData, updataEdidDataWithPort, EdidPortWriteSucceeds]
  by_cases hopen : ans.dataOpen = true
  · by_cases hwrite : ans.dataWrite < 0
    · rw [if_pos hopen, if_pos hwrite]
      refine iff_of_true ⟨failure_neg, fun action hmem => ?_⟩ fun h => h.2 hwrite
      rw [List.mem_singleton.mp hmem]
      exact decide_eq_false (Int32.not_le.mpr hwrite)
    · rw [if_pos hopen, if_neg hwrite]
      exact iff_of_false (fun h => Int32.lt_irrefl h.1) fun h => h ⟨hopen, hwrite⟩
  · rw [if_neg hopen]
    refine iff_of_true ⟨failure_neg, ?_⟩ fun h => hopen h.1
    exact fun _ hmem => absurd hmem List.not_mem_nil

theorem hdmirxWrites_dependsOn : DependsOn hdmirxWrites [.edidData, .edidSelect] := by
  apply trace_dependsOn
  intro trace action haction
  have hnone : action.writesHdmirx = false := by
    cases action with
    | writeEdid data ret => exact absurd (of_decide_eq_true rfl) haction
    | writeEdidSelect value ret => exact absurd (of_decide_eq_true rfl) haction
    | _ => rfl
  rw [List.filter_append]
  simp [hnone]

/-- A new version is rejected only where it cannot be written. -/
theorem rejectsVersion_iff (ans : Answers) {source : SourceInput} {edidVer : UInt32}
    (hne : tv.getEdidVersion source ≠ edidVer) :
    tv.RejectsVersion ans source edidVer ↔ ¬ EdidWriteSucceeds ans := by
  have hret := (setEdidVersion_spec ans hne).1
  rw [RejectsVersion, hret]
  refine and_iff_left_of_imp fun hfails => ?_
  -- a write that is tried, and fails, writes nothing
  have hwrite (tv : CTv) (verValue : UInt32) :
      (tv.hdmiRxEdidVerSwitch ans verValue).2.hdmirxWrites = tv.hdmirxWrites := by
    rw [hdmiRxEdidVerSwitch]
    split
    · rename_i hopen
      have hneg : ans.edidSelectWrite < 0 := by
        by_contra hwrite
        exact hfails ⟨hopen, hwrite⟩
      have hnothing : TvAction.writesHdmirx
          (.writeEdidSelect (CText.hexText verValue) ans.edidSelectWrite) = false :=
        decide_eq_false (Int32.not_le.mpr hneg)
      refine (List.filter_append ..).trans ?_
      simp [hdmirxWrites, hnothing]
    · rfl
  have hstop : (tv.tvinStopDecoder ans).2.hdmirxWrites = tv.hdmirxWrites :=
    (touches_tvinStopDecoder ans tv).frame hdmirxWrites_dependsOn rfl
  have hupdate (tv : CTv) : (tv.hdmiRxEdidUpdate ans).2.hdmirxWrites = tv.hdmirxWrites :=
    (touches_hdmiRxEdidUpdate ans tv).frame hdmirxWrites_dependsOn rfl
  have hstore (tv : CTv) : (tv.storeEdidVersion source edidVer).hdmirxWrites = tv.hdmirxWrites :=
    (touches_storeEdidVersion tv source edidVer).frame hdmirxWrites_dependsOn rfl
  rw [setEdidVersion_eq ans hne]
  -- the write may fail or not, and the source may be the current one or not
  dsimp only
  split_ifs
  · rw [hupdate, hwrite, hstop]
  · rw [hwrite, hstop]
  · rw [hstore, hupdate, hwrite, hstop]
  · rw [hstore, hwrite, hstop]

/-- **Sources without a port**: nothing is written for them exactly where nothing can be
written. -/
theorem rejectsNoPort_iff (tv : CTv) (portAns : EdidPortAnswers) (ans : Answers)
    (source : SourceInput) (data : Vector Int8 realEdidDataSize) (edidVer : UInt32) :
    tv.RejectsNoPort portAns ans source data edidVer ↔
      (tv.tvinGetHdmiPortIdBySourceInput source = tvinPortIdMax →
        ¬ EdidPortWriteSucceeds portAns ∧
          (edidVer ≠ tv.getEdidVersion source → ¬ EdidWriteSucceeds ans)) := by
  rw [RejectsNoPort, rejectsData_iff]
  refine imp_congr_right fun _ => and_congr_right fun _ => imp_congr_right fun hne => ?_
  exact rejectsVersion_iff ans hne.symm

/-- EDID data is written for a television channel. -/
theorem not_forall_rejectsNoPort :
    ¬ ∀ (ans : Answers) (boot : Boot) (portAns : EdidPortAnswers) (ans' : Answers)
      (source : SourceInput) (data : Vector Int8 realEdidDataSize) (edidVer : UInt32),
      (construct ans boot).RejectsNoPort portAns ans' source data edidVer := by
  intro hall
  let ans := Answers.granting 0 noSignalInfo
  let portAns : EdidPortAnswers := ⟨true, 257, 0⟩
  have hrejects := hall ans ⟨fun _ => none, none, true, true, sourceTv⟩ portAns ans sourceTv
    (Vector.replicate realEdidDataSize 0) hdmiEdidVer20
  have hport : ∀ tv : CTv, tv.tvinGetHdmiPortIdBySourceInput sourceTv = tvinPortIdMax :=
    fun tv => if_pos (by decide)
  exact ((rejectsNoPort_iff _ _ _ _ _ _).mp hrejects (hport _)).1 ⟨rfl, by decide⟩

end CTv
