import TvServer.Foundations.HexDigits
import TvServer.Foundations.Journal
import TvServer.Foundations.Machine
import TvServer.Tv.Footprint

/-!
# EDID versions

The EDID versions of the HDMI ports are written to the receiver as one word, a hexadecimal digit
for each port. The version of a source is stored once its word was written, so that the last
word written always has the stored version of each source at the digit of its port.

## Main definitions

* `selectedEdid`: the word last written to the receiver, as text
* `DistinctHdmiPorts`: the HDMI sources are on different HDMI ports
* `EdidAgrees`: the word last written is that of the stored versions

## Main results

* `digit_edidSetValue`: the digits of the version word
* `edid_step`: what a step does to the stored versions and to the word last written
* `edidAgrees_step`: every step keeps the agreement
* `edid_agreement`: the last word has the stored versions, and a failed write changes none
-/

/-- The version word that was written. -/
def TvAction.selectedEdid : TvAction → Option (List Char)
  | .writeEdidSelect value ret => if ret < 0 then none else some value
  | _ => none

namespace CTv

variable {ans : Answers} {tv : CTv}

/-- The version word last written to the receiver. -/
def selectedEdid (tv : CTv) : Option (List Char) := Journal.lastOf TvAction.selectedEdid tv.trace

/-! ## Ports -/

def hdmiPorts : List TvinPort := [tvinPortHdmi0, tvinPortHdmi1, tvinPortHdmi2, tvinPortHdmi3]

/-- The HDMI sources are on different HDMI ports. -/
structure DistinctHdmiPorts (tv : CTv) : Prop where
  mem : ∀ source ∈ hdmiSources, tv.tvinGetSourcePortBySourceInput source ∈ hdmiPorts
  nodup : (hdmiSources.map tv.tvinGetSourcePortBySourceInput).Nodup

/-- The position of the digit of a port. -/
def portPosition (portValue : TvinPort) : UInt32 :=
  if portValue = tvinPortHdmi0 then 0
  else if portValue = tvinPortHdmi1 then 1
  else if portValue = tvinPortHdmi2 then 2
  else if portValue = tvinPortHdmi3 then 3
  else 4

theorem portPosition_lt : ∀ portValue ∈ hdmiPorts, portPosition portValue < 4 := by
  simp only [hdmiPorts, List.forall_mem_cons, List.not_mem_nil, false_imp_iff, implies_true]
  decide

theorem portPosition_injOn : ∀ portValue ∈ hdmiPorts, ∀ other ∈ hdmiPorts,
    portPosition portValue = portPosition other → portValue = other := by
  simp only [hdmiPorts, List.forall_mem_cons, List.not_mem_nil, false_imp_iff, implies_true]
  decide

/-- The digit of an HDMI source. -/
def position (tv : CTv) (source : SourceInput) : UInt32 :=
  tv.tvinGetHdmiPortIdBySourceInput source - 1

theorem position_eq {source : SourceInput} (hs : source ∈ hdmiSources) :
    tv.position source = portPosition (tv.tvinGetSourcePortBySourceInput source) := by
  -- the HDMI sources are in the range of the map
  have hrange : ¬ (sourceHdmi4 < source ∨ source < sourceHdmi1) := by
    simp only [hdmiSources, List.mem_cons, List.not_mem_nil, or_false] at hs
    rcases hs with rfl | rfl | rfl | rfl <;> decide
  rw [position, tvinGetHdmiPortIdBySourceInput, if_neg hrange, portPosition]
  dsimp only
  split_ifs <;> rfl

/-- The version word packs the versions at the positions of the ports. -/
theorem edidSetValue_eq_pack (version : SourceInput → UInt32) :
    tv.edidSetValue version = HexDigits.pack tv.position version 0 hdmiSources := by
  have hshift : ∀ portId : TvinPortId, 4 * (portId - 1) = 4 * portId - 4 := fun portId =>
    UInt32.mul_sub
  simp [edidSetValue, collectEdidVersion, HexDigits.pack, position, hshift, hdmiSources]

theorem position_lt (hp : tv.DistinctHdmiPorts) :
    ∀ source ∈ hdmiSources, tv.position source < 4 := by
  intro source hs
  rw [position_eq hs]
  exact portPosition_lt _ (hp.mem source hs)

theorem nodup_position (hp : tv.DistinctHdmiPorts) : (hdmiSources.map tv.position).Nodup := by
  have hmap : hdmiSources.map tv.position =
      (hdmiSources.map tv.tvinGetSourcePortBySourceInput).map portPosition := by
    rw [List.map_map]
    exact List.map_congr_left fun source hs => position_eq hs
  rw [hmap]
  -- different ports have different positions
  apply List.Nodup.map_on _ hp.nodup
  intro portValue hport other hother
  obtain ⟨source, hs, rfl⟩ := List.mem_map.mp hport
  obtain ⟨source', hs', rfl⟩ := List.mem_map.mp hother
  exact portPosition_injOn _ (hp.mem source hs) _ (hp.mem source' hs')

/-- **The digits of the version word** are the versions of the sources at their ports, and there
is nothing above the digits of the four ports. -/
theorem digit_edidSetValue (hp : tv.DistinctHdmiPorts) {version : SourceInput → UInt32}
    (hv : ∀ source ∈ hdmiSources, version source < 16) :
    (∀ source ∈ hdmiSources,
      HexDigits.digit (tv.edidSetValue version) (tv.position source) = version source) ∧
    tv.edidSetValue version >>> 16 = 0 := by
  have hlt : ∀ source ∈ hdmiSources, tv.position source < 8 := fun source hs =>
    UInt32.lt_trans (position_lt hp source hs) (by decide)
  rw [edidSetValue_eq_pack]
  constructor
  · intro source hs
    exact HexDigits.digit_pack hlt hv (nodup_position hp) hs (HexDigits.digit_zero _)
  · rw [HexDigits.pack_shiftRight (position_lt hp) hv]
    rfl

/-! ## What the commands do -/

/-- The ports of the sources, the stored versions, and the version word last written. -/
structure EdidView where
  ports : Vector TvinPort 16
  version : SourceInput → UInt32
  selected : Option (List Char)

/-- The view once a version word was written. -/
def EdidView.select (view : EdidView) (verValue : UInt32) : EdidView :=
  { view with selected := some (CText.hexText verValue) }

def edid (tv : CTv) : EdidView := ⟨tv.mSourceInputToPortMap, tv.getEdidVersion, tv.selectedEdid⟩

/-- Whether a write of the version word succeeds. -/
def EdidWriteSucceeds (ans : Answers) : Prop :=
  ans.edidSelectOpen = true ∧ ¬ ans.edidSelectWrite < 0

instance (ans : Answers) : Decidable (EdidWriteSucceeds ans) := inferInstanceAs (Decidable (_ ∧ _))

theorem edid_perform {action : TvAction} (h : action.selectedEdid = none) :
    (tv.perform action).edid = tv.edid := by
  have hselected : (tv.perform action).selectedEdid = tv.selectedEdid := by
    simp [selectedEdid, perform, Journal.lastOf_snoc, h]
  have hversion : (tv.perform action).getEdidVersion = tv.getEdidVersion := rfl
  rw [edid, hselected, hversion]
  rfl

/-- The parts that the stored versions and the written word are read from. -/
def edidParts : List Part := [.edidVersions, .edidSelect]

theorem edid_dependsOn : DependsOn edid edidParts := by
  intro tv u hu
  cases u with
  | perform action =>
    apply edid_perform
    cases action with
    | writeEdidSelect value ret => exact absurd (of_decide_eq_true rfl) hu
    | _ => rfl
  | storeEdidVersion source edidVer => exact absurd (of_decide_eq_true rfl) hu
  | _ => rfl

/-- What writes no version word and stores no version keeps both. -/
theorem edid_of_touches {parts : List Part} {tv' : CTv} (h : Touches parts tv tv')
    (hparts : Footprint.avoids parts edidParts = true) : tv'.edid = tv.edid :=
  h.frame edid_dependsOn hparts

theorem edid_tvinStopDecoder : (tv.tvinStopDecoder ans).2.edid = tv.edid :=
  edid_of_touches (touches_tvinStopDecoder ans tv) rfl

/-- A write of the version word succeeds and is recorded, or fails and is not. -/
theorem hdmiRxEdidVerSwitch_spec (tv : CTv) (ans : Answers) (verValue : UInt32) :
    ((tv.hdmiRxEdidVerSwitch ans verValue).1 < 0 ↔ ¬ EdidWriteSucceeds ans) ∧
      (tv.hdmiRxEdidVerSwitch ans verValue).2.edid =
        if EdidWriteSucceeds ans then tv.edid.select verValue else tv.edid := by
  rw [hdmiRxEdidVerSwitch]
  by_cases hopen : ans.edidSelectOpen = true
  · by_cases hwrite : ans.edidSelectWrite < 0
    · -- the write is in the trace, but does not count
      have hno : ¬ EdidWriteSucceeds ans := fun h => h.2 hwrite
      rw [if_pos hopen, if_pos hwrite, if_neg hno]
      refine ⟨iff_of_true failure_neg hno, edid_perform ?_⟩
      exact if_pos hwrite
    · have hyes : EdidWriteSucceeds ans := ⟨hopen, hwrite⟩
      rw [if_pos hopen, if_neg hwrite, if_pos hyes]
      refine ⟨iff_of_false Int32.lt_irrefl (not_not_intro hyes), ?_⟩
      simp [edid, selectedEdid, perform, Journal.lastOf_snoc, TvAction.selectedEdid, hwrite]
      rfl
  · have hno : ¬ EdidWriteSucceeds ans := fun h => hopen h.1
    rw [if_neg hopen, if_neg hno]
    exact ⟨iff_of_true failure_neg hno, rfl⟩

/-- The version stored last is read back, and the others stay. -/
theorem getEdidVersion_storeEdidVersion (source : SourceInput) (edidVer : UInt32) :
    ∀ s ∈ hdmiSources, (tv.storeEdidVersion source edidVer).getEdidVersion s =
      if s = source then edidVer else tv.getEdidVersion s := by
  intro s hs
  simp only [hdmiSources, List.mem_cons, List.not_mem_nil, or_false] at hs
  -- each HDMI source has a version of its own
  rcases hs with rfl | rfl | rfl | rfl
  all_goals
    unfold storeEdidVersion
    split_ifs <;>
      simp_all [getEdidVersion, sourceHdmi1, sourceHdmi2, sourceHdmi3, sourceHdmi4]

theorem storeEdidVersion_frame (source : SourceInput) (edidVer : UInt32) :
    (tv.storeEdidVersion source edidVer).mSourceInputToPortMap = tv.mSourceInputToPortMap ∧
      (tv.storeEdidVersion source edidVer).selectedEdid = tv.selectedEdid := by
  unfold storeEdidVersion
  split_ifs <;> exact ⟨rfl, rfl⟩

theorem tvinGetSourcePortBySourceInput_congr {tv tv' : CTv}
    (hports : tv.mSourceInputToPortMap = tv'.mSourceInputToPortMap) :
    tv.tvinGetSourcePortBySourceInput = tv'.tvinGetSourcePortBySourceInput := by
  funext source
  simp only [tvinGetSourcePortBySourceInput, hports]

theorem distinctHdmiPorts_congr {tv tv' : CTv}
    (hports : tv.mSourceInputToPortMap = tv'.mSourceInputToPortMap) (hp : tv.DistinctHdmiPorts) :
    tv'.DistinctHdmiPorts := by
  have hport := tvinGetSourcePortBySourceInput_congr hports
  constructor
  · rw [← hport]
    exact hp.mem
  · rw [← hport]
    exact hp.nodup

/-- The version word depends on the ports and on the versions of the HDMI sources. -/
theorem edidSetValue_congr {tv tv' : CTv}
    (hports : tv.mSourceInputToPortMap = tv'.mSourceInputToPortMap)
    {version version' : SourceInput → UInt32}
    (hversion : ∀ source ∈ hdmiSources, version source = version' source) :
    tv.edidSetValue version = tv'.edidSetValue version' := by
  have hport : tv.tvinGetHdmiPortIdBySourceInput = tv'.tvinGetHdmiPortIdBySourceInput := by
    funext source
    rw [tvinGetHdmiPortIdBySourceInput, tvinGetHdmiPortIdBySourceInput,
      tvinGetSourcePortBySourceInput_congr hports]
  rw [edidSetValue, edidSetValue]
  apply List.foldl_ext
  intro w source hs
  rw [collectEdidVersion, collectEdidVersion, hport, hversion source hs]

/-! ## Setting a version -/

/-- The version word that is written for a new version of a source. -/
def newEdidSetValue (tv : CTv) (source : SourceInput) (edidVer : UInt32) : UInt32 :=
  tv.edidSetValue fun s => if s = source then edidVer else tv.getEdidVersion s

/-- A new version is set with the word that has it and the stored ones. -/
theorem setEdidVersion_eq (ans : Answers) {source : SourceInput} {edidVer : UInt32}
    (hne : tv.getEdidVersion source ≠ edidVer) :
    tv.setEdidVersion ans source edidVer =
      let switch := (tv.tvinStopDecoder ans).2.hdmiRxEdidVerSwitch ans
        (tv.newEdidSetValue source edidVer)
      let written := if (tv.tvinStopDecoder ans).2.mCurrentSource = source then
        (switch.2.hdmiRxEdidUpdate ans).2 else switch.2
      if switch.1 < 0 then (-1, written)
      else (switch.1, written.storeEdidVersion source edidVer) := by
  have hstop : (tv.tvinStopDecoder ans).2.edid = tv.edid := edid_tvinStopDecoder
  have hversion : (tv.tvinStopDecoder ans).2.getEdidVersion = tv.getEdidVersion :=
    congrArg EdidView.version hstop
  -- stopping the decoder changes neither the ports nor the versions
  have hvalue : (tv.tvinStopDecoder ans).2.edidSetValue
      (fun s => if s = source then edidVer else (tv.tvinStopDecoder ans).2.getEdidVersion s) =
        tv.newEdidSetValue source edidVer := by
    apply edidSetValue_congr (congrArg EdidView.ports hstop)
    intro s _
    rw [hversion]
  rw [setEdidVersion, if_pos hne]
  dsimp only
  rw [hvalue]

/-- A new version is written together with the stored ones, and stored if the write succeeds. -/
theorem setEdidVersion_of_ne (ans : Answers) {source : SourceInput} {edidVer : UInt32}
    (hne : tv.getEdidVersion source ≠ edidVer) :
    ∃ written : CTv,
      written.edid = (if EdidWriteSucceeds ans then
        tv.edid.select (tv.newEdidSetValue source edidVer) else tv.edid) ∧
      (tv.setEdidVersion ans source edidVer).2 =
        if EdidWriteSucceeds ans then written.storeEdidVersion source edidVer else written := by
  rw [setEdidVersion_eq ans hne]
  have hspec := (tv.tvinStopDecoder ans).2.hdmiRxEdidVerSwitch_spec ans
    (tv.newEdidSetValue source edidVer)
  generalize (tv.tvinStopDecoder ans).2.hdmiRxEdidVerSwitch ans
    (tv.newEdidSetValue source edidVer) = switch at hspec ⊢
  obtain ⟨hret, hswitch⟩ := hspec
  rw [edid_tvinStopDecoder] at hswitch
  -- the state behind the write, with the update of the current source done
  refine ⟨if (tv.tvinStopDecoder ans).2.mCurrentSource = source then
    (switch.2.hdmiRxEdidUpdate ans).2 else switch.2, ?_, ?_⟩
  · rw [← hswitch]
    split
    · exact edid_perform rfl
    · rfl
  · by_cases hsucceeds : EdidWriteSucceeds ans
    · rw [if_pos hsucceeds, if_neg (hret.not.mpr (not_not_intro hsucceeds))]
    · rw [if_neg hsucceeds, if_pos (hret.mpr hsucceeds)]

/-! ## Loading the data -/

/-- The stored versions are written once the data was loaded. -/
theorem edid_loadEdidData (isNeedBlackScreen isDolbyVisionEnable : Int32) :
    (tv.loadEdidData ans isNeedBlackScreen isDolbyVisionEnable).2.edid =
      if ans.edidOpen = true ∧ EdidWriteSucceeds ans then
        tv.edid.select (tv.edidSetValue tv.getEdidVersion)
      else tv.edid := by
  have hstop : (if isNeedBlackScreen = 1 then (tv.tvinStopDecoder ans).2 else tv).edid =
      tv.edid := by
    split
    · exact edid_tvinStopDecoder
    · rfl
  rw [loadEdidData]
  generalize (if isNeedBlackScreen = 1 then (tv.tvinStopDecoder ans).2 else tv) = stopped at hstop ⊢
  generalize edidLoadBuf ans _ _ = data
  have hdata : (stopped.hdmiRxEdidDataSwitch ans data).2.edid = tv.edid :=
    (edid_of_touches (touches_hdmiRxEdidDataSwitch ans stopped data) rfl).trans hstop
  have hret : (stopped.hdmiRxEdidDataSwitch ans data).1 = 0 ↔ ans.edidOpen = true := by
    rw [hdmiRxEdidDataSwitch]
    split
    · rename_i hopen
      exact iff_of_true rfl hopen
    · rename_i hopen
      have hfail : ¬ (-1 : Int32) = 0 := by decide
      exact iff_of_false hfail hopen
  generalize stopped.hdmiRxEdidDataSwitch ans data = loaded at hdata hret ⊢
  have hvalue : loaded.2.edidSetValue loaded.2.getEdidVersion =
      tv.edidSetValue tv.getEdidVersion := by
    apply edidSetValue_congr (congrArg EdidView.ports hdata)
    intro s _
    exact congrFun (congrArg EdidView.version hdata) s
  by_cases hopen : ans.edidOpen = true
  · rw [if_pos (hret.mpr hopen), (hdmiRxEdidVerSwitch_spec _ _ _).2, hdata, hvalue]
    simp only [hopen, true_and]
  · rw [if_neg (hret.not.mpr hopen), if_neg fun h => hopen h.1, hdata]

/-! ## Steps -/

/-- **What a step does to the EDID**: nothing; or, where the write of the version word succeeds,
it selects the stored versions, or selects and stores a new one. -/
theorem edid_step (x : Command × Answers) :
    (tv.step x).edid = tv.edid ∨ EdidWriteSucceeds x.2 ∧
      ((tv.step x).edid = tv.edid.select (tv.edidSetValue tv.getEdidVersion) ∨
        ∃ (source : SourceInput) (edidVer : UInt32) (written : CTv),
          x.1 = .setEdidVersion source edidVer ∧
          written.edid = tv.edid.select (tv.newEdidSetValue source edidVer) ∧
          tv.step x = written.storeEdidVersion source edidVer) := by
  obtain ⟨command, ans⟩ := x
  -- only two commands write the version word
  have hkeep (hparts : Footprint.avoids command.parts edidParts = true) :
      (tv.step (command, ans)).edid = tv.edid :=
    edid_of_touches (touches_step tv (command, ans)) hparts
  cases command with
  | setEdidVersion source edidVer =>
    show (tv.setEdidVersion ans source edidVer).2.edid = tv.edid ∨ _
    by_cases hne : tv.getEdidVersion source = edidVer
    · rw [setEdidVersion, if_neg (not_not_intro hne)]
      exact .inl rfl
    · obtain ⟨written, hwritten, hset⟩ := setEdidVersion_of_ne ans hne
      by_cases hsucceeds : EdidWriteSucceeds ans
      · rw [if_pos hsucceeds] at hwritten hset
        exact .inr ⟨hsucceeds, .inr ⟨source, edidVer, written, rfl, hwritten, hset⟩⟩
      · rw [if_neg hsucceeds] at hwritten hset
        rw [hset]
        exact .inl hwritten
  | loadEdidData isNeedBlackScreen isDolbyVisionEnable =>
    have hload : (tv.step (.loadEdidData isNeedBlackScreen isDolbyVisionEnable, ans)).edid = _ :=
      edid_loadEdidData _ _
    split at hload
    · rename_i hok
      exact .inr ⟨hok.2, .inl hload⟩
    · exact .inl hload
  | _ => exact .inl (hkeep rfl)

/-- **The EDID versions agree**: the last version word is that of the stored versions. -/
structure EdidAgrees (tv : CTv) : Prop where
  ports : tv.DistinctHdmiPorts
  version_lt : ∀ source ∈ hdmiSources, tv.getEdidVersion source < hdmiEdidVerMax
  selected : ∀ text, tv.selectedEdid = some text →
    text = CText.hexText (tv.edidSetValue tv.getEdidVersion)

/-- Whether the versions a command sets exist. -/
def Command.VersionExists : Command → Prop
  | .setEdidVersion _ edidVer => edidVer < hdmiEdidVerMax
  | _ => True

theorem edidAgrees_congr {tv tv' : CTv} (he : tv'.edid = tv.edid) (h : tv.EdidAgrees) :
    tv'.EdidAgrees := by
  have hports : tv.mSourceInputToPortMap = tv'.mSourceInputToPortMap :=
    (congrArg EdidView.ports he).symm
  have hversion : tv'.getEdidVersion = tv.getEdidVersion := congrArg EdidView.version he
  have hselected : tv'.selectedEdid = tv.selectedEdid := congrArg EdidView.selected he
  refine ⟨distinctHdmiPorts_congr hports h.ports, ?_, ?_⟩
  · rw [hversion]
    exact h.version_lt
  · intro text htext
    rw [hversion, h.selected text (hselected ▸ htext), edidSetValue_congr hports fun _ _ => rfl]

/-- The versions agree once a word was selected that is that of the versions stored then. -/
theorem edidAgrees_of_select {tv tv' : CTv} {verValue : UInt32} (h : tv.DistinctHdmiPorts)
    (hports : tv'.mSourceInputToPortMap = tv.mSourceInputToPortMap)
    (hselected : tv'.selectedEdid = some (CText.hexText verValue)) {version : SourceInput → UInt32}
    (hversion : ∀ source ∈ hdmiSources, tv'.getEdidVersion source = version source)
    (hlt : ∀ source ∈ hdmiSources, version source < hdmiEdidVerMax)
    (hvalue : verValue = tv.edidSetValue version) : tv'.EdidAgrees := by
  refine ⟨distinctHdmiPorts_congr hports.symm h, ?_, ?_⟩
  · intro source hs
    rw [hversion source hs]
    exact hlt source hs
  · intro text htext
    rw [← Option.some.inj (hselected.symm.trans htext), hvalue]
    exact congrArg CText.hexText (edidSetValue_congr hports.symm fun s hs => (hversion s hs).symm)

/-- Every step keeps the agreement. -/
theorem edidAgrees_step (h : tv.EdidAgrees) {x : Command × Answers} (hx : x.1.VersionExists) :
    (tv.step x).EdidAgrees := by
  -- nothing is written; or the stored versions are; or a new one is, which is stored then
  rcases edid_step x with hkeep | ⟨-, hselect | ⟨source, edidVer, written, he, hwritten, hstep⟩⟩
  · exact edidAgrees_congr hkeep h
  · exact edidAgrees_of_select h.ports (congrArg EdidView.ports hselect)
      (congrArg EdidView.selected hselect)
      (fun s _ => congrFun (congrArg EdidView.version hselect) s) h.version_lt rfl
  · obtain ⟨hports, hselected⟩ := written.storeEdidVersion_frame source edidVer
    rw [he] at hx
    rw [hstep]
    refine edidAgrees_of_select h.ports (hports.trans (congrArg EdidView.ports hwritten))
      (hselected.trans (congrArg EdidView.selected hwritten)) ?_ ?_ rfl
    · intro s hs
      -- the versions before the new one was stored, which `newEdidSetValue` has collected
      have hold : written.getEdidVersion s = tv.getEdidVersion s :=
        congrFun (congrArg EdidView.version hwritten) s
      rw [getEdidVersion_storeEdidVersion source edidVer s hs, hold]
    · intro s hs
      split
      · exact hx
      · exact h.version_lt s hs

/-! ## Runs -/

/-- The constructor stores version 1.4 for all sources; it may write these, but no others. -/
theorem edidAgrees_construct {boot : Boot} (hports : (construct ans boot).DistinctHdmiPorts) :
    (construct ans boot).EdidAgrees := by
  -- the state before the EDID data is loaded, if it is loaded
  let tv := (((allocate boot).loadATVDisplaySnow.tvinAddVideoPath
    ans).2.tvinLoadSourceInputToPortMap).setCurrenSourceInfo noSignalInfo
  have hagrees : tv.DistinctHdmiPorts → tv.EdidAgrees := by
    intro hp
    refine ⟨hp, ?_, ?_⟩
    · show ∀ source ∈ hdmiSources, (allocate boot).getEdidVersion source < hdmiEdidVerMax
      intro source hs
      simp only [hdmiSources, List.mem_cons, List.not_mem_nil, or_false] at hs
      rcases hs with rfl | rfl | rfl | rfl <;> exact (by decide : hdmiEdidVer14 < hdmiEdidVerMax)
    · intro text htext
      -- nothing was written yet
      cases htext
  rw [construct] at hports ⊢
  split
  · rename_i hauto
    rw [if_pos hauto] at hports
    generalize (if ans.dolbyVisionEnable = ['Y'] then 1 else 0 : Int32) = enable at hports ⊢
    have hload : (tv.loadEdidData ans 0 enable).2.edid = _ := edid_loadEdidData 0 enable
    have hsame : (tv.loadEdidData ans 0 enable).2.mSourceInputToPortMap =
        tv.mSourceInputToPortMap := by
      have hloaded := congrArg EdidView.ports hload
      split at hloaded <;> exact hloaded
    have hx : Command.VersionExists (.loadEdidData 0 enable) := trivial
    exact edidAgrees_step (hagrees (distinctHdmiPorts_congr hsame hports)) (x := (_, ans)) hx
  · rename_i hauto
    rw [if_neg hauto] at hports
    exact hagrees hports

/-- **The EDID versions agree**: where the HDMI sources are on different HDMI ports, after every
run the version word last written has at the port of each source its stored version, and nothing
above the digits of the ports; and a command whose write fails changes no version. -/
theorem edid_agreement {boot : Boot} (hports : (construct ans boot).DistinctHdmiPorts)
    (xs : List (Command × Answers)) (hxs : ∀ x ∈ xs, x.1.VersionExists) :
    let tv := Machine.run step (construct ans boot) xs
    (∀ text, tv.selectedEdid = some text → ∃ w, text = CText.hexText w ∧
      (∀ source ∈ hdmiSources,
        HexDigits.digit w (tv.tvinGetHdmiPortIdBySourceInput source - 1) =
          tv.getEdidVersion source) ∧
      w >>> 16 = 0) ∧
    ∀ x : Command × Answers, ¬ EdidWriteSucceeds x.2 →
      (tv.step x).getEdidVersion = tv.getEdidVersion := by
  intro tv
  have hagrees : tv.EdidAgrees :=
    Machine.run_invariant_of_mem EdidAgrees (fun _ x hx h => edidAgrees_step h (hxs x hx))
      (edidAgrees_construct hports)
  constructor
  · intro text htext
    have hlt : ∀ source ∈ hdmiSources, tv.getEdidVersion source < 16 := fun source hs =>
      UInt32.lt_trans (hagrees.version_lt source hs) (by decide)
    obtain ⟨hdigits, hhigh⟩ := digit_edidSetValue hagrees.ports hlt
    exact ⟨_, hagrees.selected text htext, hdigits, hhigh⟩
  · intro x hfails
    rcases edid_step x with hkeep | ⟨hsucceeds, -⟩
    · exact congrArg EdidView.version hkeep
    · exact absurd hsucceeds hfails

/-- Without a configuration the HDMI sources are on different ports. -/
theorem distinctHdmiPorts_default :
    (construct (.granting 0 noSignalInfo)
      ⟨fun _ => none, none, true, true, sourceTv⟩).DistinctHdmiPorts := by
  refine ⟨?_, by decide +kernel⟩
  simp only [hdmiSources, List.forall_mem_cons, List.not_mem_nil, false_imp_iff, implies_true]
  decide +kernel

/-- On the default ports `HDMI2` has the third digit, where a new version of it is written. -/
theorem edid_agreement_default_ports :
    let ans := Answers.granting 0 noSignalInfo
    let tv := Machine.run step (construct ans ⟨fun _ => none, none, true, true, sourceTv⟩)
      [(.setEdidVersion sourceHdmi2 hdmiEdidVer20, ans)]
    tv.selectedEdid = some ['1', '0', '0'] ∧
    ∃ w, ['1', '0', '0'] = CText.hexText w ∧
      (∀ source ∈ hdmiSources,
        HexDigits.digit w (tv.tvinGetHdmiPortIdBySourceInput source - 1) =
          tv.getEdidVersion source) ∧
      w >>> 16 = 0 := by
  intro ans tv
  have hports := distinctHdmiPorts_default
  have hselected : tv.selectedEdid = some ['1', '0', '0'] := by decide +kernel
  have hxs : ∀ x ∈ [(Command.setEdidVersion sourceHdmi2 hdmiEdidVer20, ans)],
      x.1.VersionExists := by
    intro x hx
    rw [List.mem_singleton.mp hx]
    exact (by decide : hdmiEdidVer20 < hdmiEdidVerMax)
  exact ⟨hselected, (edid_agreement hports _ hxs).1 _ hselected⟩

end CTv
