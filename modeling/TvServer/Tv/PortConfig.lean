import TvServer.Config.Searches
import TvServer.Tv.EdidImage
import TvServer.Tv.FalsePlugs
import TvServer.Tv.PortMap

/-!
# Ports that are configured

The constructor reads the ports of the sources from the configuration file, and no command moves a
source to another port. The map from the sources to the ports need not be injective, nor need an
HDMI source be on an HDMI port. Where the search for the port of an HDMI source finds this source,
the calls for it and the answers about it agree; where it does not, one change of the status word
shows the difference. The file decides which it is.

## Main definitions

* `CallsFollowAnswers`: the last call for a source says what is answered about it
* `portSettings`, `configuredPort`: the ports in a configuration file

## Main results

* `callsFollowAnswers_iff`: the calls and the answers agree for the sources that own their ports
* `port_run`: the ports over every run
* `callsFollowAnswers_run_iff`: the configuration files for which calls and answers agree
-/

open Search

namespace CTv

variable {tv : CTv}

/-! ## Calls and answers -/

/-- Whatever the status at the beginning and whatever is read then: who asks for the source with
the last status is answered the plug of the last call for it, or what the status at the beginning
says if there was no call. -/
def CallsFollowAnswers (tv : CTv) (source : SourceInput) : Prop :=
  ∀ (ans : Answers) (avinStatus : AvinReport × AvinReport) (initial : Int32)
    (events : List PollEvent),
    let detect := CTvDevicesPollDetect.new.setObserver.initStatus avinStatus initial
    let plugs := (tv.threadLoop detect events).filterMap (plugOf source)
    let asked := fun status => tv.getSourceConnectStatus { ans with hdmiStatus := status } source
    asked (lastHdmiStatus initial events) = plugs.getLast?.or (asked initial)

/-- The bit that a source is looked up by is that of a port. -/
theorem exists_port_of_bit (tv : CTv) (source : SourceInput) :
    ∃ p ∈ hdmiDetectPorts, tv.sourceInputMaptoChipHdmiPort source = p.2 := by
  by_cases hport : tv.tvinGetSourcePortBySourceInput source ∈ hdmiPorts
  · obtain ⟨p, hp, hfst⟩ := List.mem_map.mp (show _ ∈ hdmiDetectPorts.map Prod.fst from hport)
    exact ⟨p, hp, sourceInputMaptoChipHdmiPort_eq hp hfst.symm⟩
  · exact ⟨_, List.mem_cons_self, sourceInputMaptoChipHdmiPort_of_notMem hport⟩

/-- A source is on its port if it is the one reported for its bit. -/
theorem ownsPort_iff {source : SourceInput} (hs : source ∈ hdmiSources) :
    tv.OwnsPort source ↔
      tv.chipHdmiPortMaptoSourceInput (tv.sourceInputMaptoChipHdmiPort source) = source := by
  constructor
  · intro h
    obtain ⟨p, hp, hfst⟩ := List.mem_map.mp (show _ ∈ hdmiDetectPorts.map Prod.fst from h.mem)
    rw [sourceInputMaptoChipHdmiPort_eq hp hfst.symm, chipHdmiPortMaptoSourceInput_eq hp, hfst]
    exact h.found
  · intro hback
    obtain ⟨p, hp, hbit⟩ := tv.exists_port_of_bit source
    rw [hbit] at hback
    have hport := port_of_chipHdmiPortMaptoSourceInput hs hp hback
    rw [chipHdmiPortMaptoSourceInput_eq hp] at hback
    exact ⟨hport ▸ fst_mem_hdmiPorts hp, hport ▸ hback⟩

/-- The block of a bit that changes calls for the source of the bit alone. -/
theorem chipHdmiPort_of_plugOf {detect : CTvDevicesPollDetect} {hdmiStatus bit plug : Int32}
    {source : SourceInput}
    (h : plug ∈ (tv.detectHdmi detect hdmiStatus bit).filterMap (plugOf source)) :
    hdmiStatus &&& bit ≠ detect.mHdmiStatus &&& bit ∧
      tv.chipHdmiPortMaptoSourceInput bit = source := by
  obtain ⟨call, hcall, hplug⟩ := List.mem_filterMap.mp h
  rw [detectHdmi] at hcall
  split at hcall
  · rename_i hchanged
    refine ⟨hchanged, ?_⟩
    rw [notifyConnect] at hcall
    split at hcall
    · obtain rfl := List.mem_singleton.mp hcall
      rw [plugOf] at hplug
      split at hplug
      · assumption
      · cases hplug
    · cases hcall
  · cases hcall

/-- The bits have nothing in common. -/
theorem bit_eq_of_and_ne : ∀ p ∈ hdmiDetectPorts, ∀ q ∈ hdmiDetectPorts,
    q.2 &&& p.2 ≠ 0 &&& p.2 → p.2 = q.2 := by
  simp only [hdmiDetectPorts, List.forall_mem_cons, List.not_mem_nil, false_imp_iff, implies_true]
  decide

/-- **Calls and answers agree** exactly for the HDMI sources that own their ports. -/
theorem callsFollowAnswers_iff {source : SourceInput} (hs : source ∈ hdmiSources) :
    tv.CallsFollowAnswers source ↔ tv.OwnsPort source := by
  constructor
  · intro h
    obtain ⟨q, hq, hbit⟩ := tv.exists_port_of_bit source
    -- the bit of the source is set, and no other one
    let detect := CTvDevicesPollDetect.new.setObserver.initStatus
      (⟨avinChannel1, avinStatusIn⟩, ⟨avinChannel1, avinStatusIn⟩) 0
    have hcalls := h (Answers.granting 0 noSignalInfo) (⟨avinChannel1, avinStatusIn⟩,
      ⟨avinChannel1, avinStatusIn⟩) 0 [.hdmi q.2]
    have hout : tv.threadLoop detect [.hdmi q.2] = (tv.onHdmiDetect detect q.2).1 :=
      List.append_nil _
    have hlast : lastHdmiStatus 0 [.hdmi q.2] = q.2 := rfl
    simp only [getSourceConnectStatus_eq hs, hlast] at hcalls
    have hin : tv.plugStatus source q.2 ≠ tv.plugStatus source 0 := by
      rw [plugStatus, plugStatus, hbit]
      simp only [hdmiDetectPorts, List.mem_cons, List.not_mem_nil, or_false] at hq
      rcases hq with rfl | rfl | rfl | rfl <;> decide
    have hcalled : (tv.onHdmiDetect detect q.2).1.filterMap (plugOf source) ≠ [] := by
      intro hnone
      rw [hout, hnone] at hcalls
      exact hin (Option.some.inj hcalls)
    obtain ⟨plug, hplug⟩ := List.exists_mem_of_ne_nil _ hcalled
    rw [onHdmiDetect_fst, List.filterMap_flatMap, List.mem_flatMap] at hplug
    obtain ⟨p, hp, hplug⟩ := hplug
    obtain ⟨hchanged, hsource⟩ := chipHdmiPort_of_plugOf hplug
    rw [ownsPort_iff hs, hbit, ← bit_eq_of_and_ne p hp q hq hchanged]
    exact hsource
  · intro hp ans avinStatus initial events detect plugs asked
    have hreports := threadLoopStep_reports_of_ownsPort hp hs
    have hobserver : detect.mpObserver = true := rfl
    have hlast : plugs.getLast?.getD (tv.plugStatus source initial) =
        tv.plugStatus source (lastHdmiStatus initial events) :=
      (hreports.getLast hobserver events).trans
        (congrArg (tv.plugStatus source) (mHdmiStatus_state detect events))
    simp only [asked, getSourceConnectStatus_eq hs]
    rw [← hlast]
    cases plugs.getLast? <;> rfl

/-! ## The configuration -/

/-- The keys of the sources that have a port in the configuration, in the order of the sources, with
the names of their default ports. -/
def portSettings : Vector (String × String) 10 := #v[
  ("ro.tv.tvinchannel.atv", "TVIN_PORT_CVBS3"), ("ro.tv.tvinchannel.av1", "TVIN_PORT_CVBS1"),
  ("ro.tv.tvinchannel.av2", "TVIN_PORT_CVBS2"), ("ro.tv.tvinchannel.ypbpr1", "TVIN_PORT_COMP0"),
  ("ro.tv.tvinchannel.ypbpr2", "TVIN_PORT_COMP1"), ("ro.tv.tvinchannel.hdmi1", "TVIN_PORT_HDMI0"),
  ("ro.tv.tvinchannel.hdmi2", "TVIN_PORT_HDMI2"), ("ro.tv.tvinchannel.hdmi3", "TVIN_PORT_HDMI1"),
  ("ro.tv.tvinchannel.hdmi4", "TVIN_PORT_HDMI3"), ("ro.tv.tvinchannel.vga", "TVIN_PORT_VGA0")]

/-- The lines of the configuration file that the constructor finds. -/
def Boot.configLines (boot : Boot) : List (List Char) :=
  CIniFile.fileLines boot.files (boot.tvConfigFilePath.getD configFilePathDef)

/-- The port that the lines of a configuration file have for a key, or its default. -/
def configuredPort (boot : Boot) (setting : String × String) : TvinPort :=
  let line := (CIniFile.textQuery cfgSectionSrcInput setting.1.toList).find boot.configLines
  tvinTransPortStringToValue ((line.map CIniFile.textValue).getD setting.2.toList)

/-- The port that is read for a setting, as long as the configuration is the one that was loaded. -/
theorem configPort_eq {boot : Boot} (h : tv.pIniFile = (allocate boot).pIniFile)
    (setting : String × String) :
    tv.configPort setting.1 setting.2 = configuredPort boot setting := by
  have hload := CIniFile.getString_load CIniFile.new boot.files
    (boot.tvConfigFilePath.getD configFilePathDef) cfgSectionSrcInput setting.1.toList
    (some setting.2.toList)
  rw [configPort, configGetStr, h, configuredPort, Boot.configLines]
  refine congrArg tvinTransPortStringToValue ((congrArg (Option.getD · _) hload).trans ?_)
  cases (CIniFile.textQuery cfgSectionSrcInput setting.1.toList).find
    (CIniFile.fileLines boot.files (boot.tvConfigFilePath.getD configFilePathDef)) <;> rfl

/-- The settings are read into the first entries of the map. -/
theorem mSourceInputToPortMap_load (tv : CTv) {i : ℕ} (hi : i < 10) :
    tv.tvinLoadSourceInputToPortMap.mSourceInputToPortMap[i] =
      tv.configPort portSettings[i].1 portSettings[i].2 := by
  obtain rfl | rfl | rfl | rfl | rfl | rfl | rfl | rfl | rfl | rfl : i = 0 ∨ i = 1 ∨ i = 2 ∨
    i = 3 ∨ i = 4 ∨ i = 5 ∨ i = 6 ∨ i = 7 ∨ i = 8 ∨ i = 9 := by omega
  all_goals rfl

/-- **The ports over every run** are those of the configuration file. -/
theorem port_run (ans : Answers) (boot : Boot) (inputs : List (Command × Answers)) {i : ℕ}
    (hi : i < 10) :
    (Machine.run step (construct ans boot) inputs).tvinGetSourcePortBySourceInput (Int32.ofNat i) =
      configuredPort boot portSettings[i] := by
  have hstep : ∀ (tv : CTv) (x : Command × Answers),
      tv.tvinGetSourcePortBySourceInput (Int32.ofNat i) = configuredPort boot portSettings[i] →
      (tv.step x).tvinGetSourcePortBySourceInput (Int32.ofNat i) =
        configuredPort boot portSettings[i] := fun tv x h =>
    (tvinGetSourcePortBySourceInput_of_touches (touches_step tv x) _).trans h
  refine Machine.run_invariant _ hstep ?_ inputs
  -- the constructor loads the ports from the file that it has loaded before
  rw [tvinGetSourcePortBySourceInput_of_touches (touches_construct ans boot),
    tvinGetSourcePortBySourceInput_ofNat (by omega)]
  have hini : ((allocate boot).loadATVDisplaySnow.tvinAddVideoPath ans).2.pIniFile =
      (allocate boot).pIniFile := (touches_tvWriteSysfs ans _ _ _).frame pIniFile_dependsOn rfl
  exact (mSourceInputToPortMap_load _ hi).trans (configPort_eq hini portSettings[i])

/-- `SOURCE_HDMI1` to `SOURCE_HDMI4`. -/
def hdmiSource (i : Fin 4) : SourceInput := Int32.ofNat (5 + i)

theorem hdmiSource_mem : ∀ i, hdmiSource i ∈ hdmiSources := by decide

/-- **The configuration files for which calls and answers agree**, after every run: an HDMI source
has to be configured to an HDMI port, and no source in front of it to the same one. -/
theorem callsFollowAnswers_run_iff (ans : Answers) (boot : Boot)
    (inputs : List (Command × Answers)) (i : Fin 4) :
    (Machine.run step (construct ans boot) inputs).CallsFollowAnswers (hdmiSource i) ↔
      configuredPort boot portSettings[5 + i.val] ∈ hdmiPorts ∧
        ∀ j : Fin 10, j.val < 5 + i.val →
          configuredPort boot portSettings[j] ≠ configuredPort boot portSettings[5 + i.val] := by
  generalize htv : Machine.run step (construct ans boot) inputs = tv
  have hport {j : ℕ} (hj : j < 10) :
      tv.tvinGetSourcePortBySourceInput (Int32.ofNat j) = configuredPort boot portSettings[j] :=
    htv ▸ port_run ans boot inputs hj
  have hlt : 5 + i.val < 10 := by omega
  have hentry {j : ℕ} (hj : j < 10) (port : TvinPort) :
      tv.portEntries[j] = port.toInt32 ↔ configuredPort boot portSettings[j] = port := by
    rw [tv.portEntries_eq_iff (by omega), hport hj]
  rw [callsFollowAnswers_iff (hdmiSource_mem i)]
  constructor
  · rintro ⟨hmem, hfound⟩
    rw [hdmiSource, hport hlt] at hmem hfound
    obtain ⟨-, hfirst⟩ := (tv.tvinPortToSourceInput_eq_ofNat_iff (by omega) _).mp hfound
    exact ⟨hmem, fun j hj he => hfirst j hj ((hentry j.isLt _).mpr he)⟩
  · rintro ⟨hmem, hfirst⟩
    constructor
    · rw [hdmiSource, hport hlt]
      exact hmem
    · rw [hdmiSource, hport hlt, tv.tvinPortToSourceInput_eq_ofNat_iff (by omega)]
      refine ⟨(hentry hlt _).mpr rfl, fun j hj he => ?_⟩
      exact hfirst ⟨j, by omega⟩ hj ((hentry (by omega) _).mp he)

end CTv
