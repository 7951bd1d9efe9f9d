import TvServer.Foundations.Journal
import TvServer.Tv.Edid

/-!
# Failures of a load of the EDID data

A load writes the EDID data to one node and the version word to another. What the second write
returns is what the load returns. The result of the first write is lost: an assignment behind it
makes it a success, so that the version word is written after data that was not.

## Main definitions

* `edidReturns`: what the writes of the load returned
* `ReportsFailures`: a load that returns 0 has written both, and in their order

## Main results

* `edidReturns_loadEdidData`: what the writes of a load return
* `reportsFailures_iff`: the loads that report their failures
-/

/-- The nodes that a load writes to. -/
inductive EdidNode where
  | edid
  | edidSelect
deriving DecidableEq

/-- What a write to one of the nodes returned. -/
def TvAction.edidReturn : TvAction → Option (EdidNode × Int32)
  | .writeEdid _ ret => some (.edid, ret)
  | .writeEdidSelect _ ret => some (.edidSelect, ret)
  | _ => none

namespace CTv

variable {ans : Answers} {tv : CTv}

/-! ## What the writes return -/

/-- What the writes to the nodes returned so far. -/
def edidReturns (tv : CTv) : List (EdidNode × Int32) := tv.trace.filterMap TvAction.edidReturn

theorem edidReturns_dependsOn : DependsOn edidReturns [.edidData, .edidSelect] := by
  apply filterMap_dependsOn
  intro action haction
  cases action with
  | writeEdid data ret => exact absurd (of_decide_eq_true rfl) haction
  | writeEdidSelect value ret => exact absurd (of_decide_eq_true rfl) haction
  | _ => rfl

/-- The write of the data is a success wherever its node opens. -/
theorem edidReturns_hdmiRxEdidDataSwitch (tv : CTv) (ans : Answers) (data : List UInt8) :
    (tv.hdmiRxEdidDataSwitch ans data).1 = (if ans.edidOpen then 0 else -1) ∧
      (tv.hdmiRxEdidDataSwitch ans data).2.edidReturns =
        tv.edidReturns ++ if ans.edidOpen then [(.edid, ans.edidWrite)] else [] := by
  rw [hdmiRxEdidDataSwitch]
  split
  · exact ⟨rfl, List.filterMap_append⟩
  · exact ⟨rfl, (List.append_nil _).symm⟩

theorem edidReturns_hdmiRxEdidVerSwitch (tv : CTv) (ans : Answers) (verValue : UInt32) :
    (tv.hdmiRxEdidVerSwitch ans verValue).1 = (if EdidWriteSucceeds ans then 0 else -1) ∧
      (tv.hdmiRxEdidVerSwitch ans verValue).2.edidReturns =
        tv.edidReturns ++
          if ans.edidSelectOpen then [(.edidSelect, ans.edidSelectWrite)] else [] := by
  rw [hdmiRxEdidVerSwitch]
  split
  · rename_i hopen
    refine ⟨?_, List.filterMap_append⟩
    simp only [EdidWriteSucceeds, hopen, true_and, ite_not]
  · rename_i hopen
    refine ⟨(if_neg fun h => hopen h.1).symm, (List.append_nil _).symm⟩

/-- The writes of a load: that of the data where its node opens, and then that of the version
word where the other one does. -/
def loadReturns (ans : Answers) : List (EdidNode × Int32) :=
  if ans.edidOpen then
    (.edid, ans.edidWrite) ::
      if ans.edidSelectOpen then [(.edidSelect, ans.edidSelectWrite)] else []
  else []

/-- **What the writes of a load return**, and what the load does: it fails if a node does not
open, or if the write of the version word fails. -/
theorem edidReturns_loadEdidData (tv : CTv) (ans : Answers)
    (isNeedBlackScreen isDolbyVisionEnable : Int32) :
    ((tv.loadEdidData ans isNeedBlackScreen isDolbyVisionEnable).1 = 0 ↔
      ans.edidOpen ∧ EdidWriteSucceeds ans) ∧
      (tv.loadEdidData ans isNeedBlackScreen isDolbyVisionEnable).2.edidReturns =
        tv.edidReturns ++ loadReturns ans := by
  have hstop : edidReturns (if isNeedBlackScreen = 1 then (tv.tvinStopDecoder ans).2 else tv) =
      tv.edidReturns :=
    (touches_blackScreen ans tv isNeedBlackScreen).frame edidReturns_dependsOn rfl
  rw [loadEdidData]
  generalize (if isNeedBlackScreen = 1 then (tv.tvinStopDecoder ans).2 else tv) = stopped
    at hstop ⊢
  generalize edidLoadBuf ans _ _ = data
  obtain ⟨hret, hdata⟩ := edidReturns_hdmiRxEdidDataSwitch stopped ans data
  generalize stopped.hdmiRxEdidDataSwitch ans data = loaded at hret hdata ⊢
  rw [hstop] at hdata
  by_cases hopen : ans.edidOpen = true
  · -- the write of the data passes for a success, and that of the version word decides
    obtain ⟨hver, hword⟩ := edidReturns_hdmiRxEdidVerSwitch loaded.2 ans
      (loaded.2.edidSetValue loaded.2.getEdidVersion)
    rw [if_pos hopen] at hret hdata
    rw [if_pos hret, hver, hword, hdata, loadReturns, if_pos hopen, List.append_assoc]
    refine ⟨?_, rfl⟩
    rw [and_iff_right hopen]
    split
    · exact iff_of_true rfl ‹_›
    · exact iff_of_false (by decide) ‹_›
  · rw [if_neg hopen] at hret hdata
    have hfail : loaded.1 ≠ 0 := by
      rw [hret]
      decide
    rw [if_neg hfail, hdata, loadReturns, if_neg hopen]
    exact ⟨iff_of_false hfail fun h => hopen h.1, rfl⟩

/-! ## Reports -/

/-- A write to a node succeeded. -/
def Wrote (node : EdidNode) (returns : List (EdidNode × Int32)) : Prop :=
  ∃ ret, (node, ret) ∈ returns ∧ 0 ≤ ret

/-- A load reports its failures: it returns 0 only if both writes succeed, and the version word is
not handed to a write before the data is written. -/
def ReportsFailures (tv : CTv) (ans : Answers) (isNeedBlackScreen isDolbyVisionEnable : Int32) :
    Prop :=
  let load := tv.loadEdidData ans isNeedBlackScreen isDolbyVisionEnable
  let returns := (load.2.trace.drop tv.trace.length).filterMap TvAction.edidReturn
  (load.1 = 0 → Wrote .edid returns ∧ Wrote .edidSelect returns) ∧
    Journal.Disciplined (fun before write => write.1 = .edidSelect → Wrote .edid before) returns

theorem wrote_singleton {node : EdidNode} {ret : Int32} : Wrote node [(node, ret)] ↔ 0 ≤ ret := by
  simp [Wrote]

/-- The version word is written behind data that is, if it is written at all. -/
theorem disciplined_loadReturns (ans : Answers) :
    Journal.Disciplined (fun before write => write.1 = .edidSelect → Wrote .edid before)
      (loadReturns ans) ↔ ¬ (ans.edidOpen ∧ ans.edidWrite < 0 ∧ ans.edidSelectOpen) := by
  have hdata : Journal.Disciplined (fun before write => write.1 = .edidSelect → Wrote .edid before)
      [(EdidNode.edid, ans.edidWrite)] :=
    Journal.disciplined_snoc.mpr ⟨Journal.disciplined_nil, fun h => EdidNode.noConfusion h⟩
  rw [loadReturns]
  by_cases hopen : ans.edidOpen = true
  · by_cases hselect : ans.edidSelectOpen = true
    · have hsnoc : [(EdidNode.edid, ans.edidWrite), (.edidSelect, ans.edidSelectWrite)] =
          [(EdidNode.edid, ans.edidWrite)] ++ [(.edidSelect, ans.edidSelectWrite)] := rfl
      rw [if_pos hopen, if_pos hselect, hsnoc, Journal.disciplined_snoc, and_iff_right hdata,
        wrote_singleton]
      simp only [hopen, hselect, true_and, and_true, Int32.not_lt, forall_const]
    · rw [if_pos hopen, if_neg hselect]
      exact iff_of_true hdata fun h => hselect h.2.2
  · rw [if_neg hopen]
    exact iff_of_true Journal.disciplined_nil fun h => hopen h.1

/-- **Loads that report their failures** are those in which no write of the data fails where the
version word can be written behind it. -/
theorem reportsFailures_iff (tv : CTv) (ans : Answers)
    (isNeedBlackScreen isDolbyVisionEnable : Int32) :
    tv.ReportsFailures ans isNeedBlackScreen isDolbyVisionEnable ↔
      ¬ (ans.edidOpen ∧ ans.edidWrite < 0 ∧ ans.edidSelectOpen) := by
  obtain ⟨hret, hall⟩ := edidReturns_loadEdidData tv ans isNeedBlackScreen isDolbyVisionEnable
  have hnew := Journal.filterMap_drop_of_prefix (trace_prefix_of_touches
    (touches_loadEdidData ans tv isNeedBlackScreen isDolbyVisionEnable)) hall
  rw [ReportsFailures, hnew, hret, disciplined_loadReturns]
  refine and_iff_right_of_imp fun hcond => ?_
  rintro ⟨hopen, hselect, hword⟩
  -- both nodes are open, so that the data was written, and the version word is
  have hdata : 0 ≤ ans.edidWrite := Int32.not_lt.mp fun hneg => hcond ⟨hopen, hneg, hselect⟩
  rw [loadReturns, if_pos hopen, if_pos hselect]
  exact ⟨⟨_, List.mem_cons_self, hdata⟩,
    ⟨_, List.mem_cons_of_mem _ List.mem_cons_self, Int32.not_lt.mp hword⟩⟩

/-- A write of the data that fails is not reported. -/
theorem not_forall_reportsFailures :
    ¬ ∀ (tv : CTv) (ans : Answers) (isNeedBlackScreen isDolbyVisionEnable : Int32),
      tv.ReportsFailures ans isNeedBlackScreen isDolbyVisionEnable := by
  intro hall
  let ans : Answers := { Answers.granting 0 noSignalInfo with edidWrite := -1 }
  let tv := allocate ⟨fun _ => none, none, true, true, sourceTv⟩
  have hreports := hall tv ans 0 0
  rw [reportsFailures_iff] at hreports
  exact hreports ⟨rfl, by decide, rfl⟩

end CTv
