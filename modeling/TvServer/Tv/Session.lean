import TvServer.Foundations.Machine
import TvServer.Tv.Invariants
import TvServer.Tv.Signal

/-!
# Sessions at the port

A source is shown in a session: its port is opened, the decoder and the video layer are switched
on, and all three are switched off again before the next session. The television object stops the
session before only where it switches the source; a client that starts a source finds whatever was
left behind, and a port that could not be opened is recorded as the current source all the same.

## Main definitions

* `Session`: what the trace says about the port, the decoder and the layer
* `Session.Allows`, `Exclusive`: no session starts on top of another
* `KeepsSession`: the steps that keep this
* `Recorded`: the port of the current source is open
* `OpensRecorded`: the steps that keep this

## Main results

* `exclusive_step_iff`, `exclusive_iff_keeps`: the runs whose sessions exclude each other
* `recorded_step_iff`, `recorded_iff_opens`: the runs whose current source is always open
-/

namespace TvAction

/-- What an ioctl that succeeded made of the port: open, or closed. -/
def port : TvAction → Option (Option TvinPort)
  | .vdin (.openPort port) ret => if 0 ≤ ret then some (some port) else none
  | .vdin .closePort ret => if 0 ≤ ret then some none else none
  | _ => none

/-- What came of the last try to open the port: nothing where it failed, or where the port was
closed since. -/
def attempt : TvAction → Option (Option TvinPort)
  | .vdin (.openPort port) ret => some (if 0 ≤ ret then some port else none)
  | .vdin .closePort ret => if 0 ≤ ret then some none else none
  | _ => none

/-- Whether the video layer was enabled or disabled. -/
def layer : TvAction → Option Bool
  | .amVideo (.setVideoDisableMode status) _ => some (status = CTv.videoLayerStatusEnable)
  | _ => none

/-- The kinds of actions that bear on the port. -/
def portParts : List CTv.Part := [.openPort, .closePort]

theorem port_eq_none {action : TvAction} (h : action.part ∉ portParts) : action.port = none := by
  cases action with
  | vdin request ret =>
    cases request <;> first | rfl | exact absurd (of_decide_eq_true rfl) h
  | _ => rfl

theorem attempt_eq_none {action : TvAction} (h : action.part ∉ portParts) :
    action.attempt = none := by
  cases action with
  | vdin request ret =>
    cases request <;> first | rfl | exact absurd (of_decide_eq_true rfl) h
  | _ => rfl

theorem layer_eq_none {action : TvAction} (h : action.part ∉ [CTv.Part.amVideo]) :
    action.layer = none := by
  cases action with
  | amVideo request ret => exact absurd (of_decide_eq_true rfl) h
  | _ => rfl

end TvAction

/-! ## Sessions -/

/-- What was last done to the port, the decoder and the video layer. -/
structure Session where
  port : Option (Option TvinPort)
  decoder : Option Bool
  layer : Option Bool
deriving DecidableEq

namespace Session

/-- What a trace says about the session. -/
def ofTrace (trace : List TvAction) : Session where
  port := Journal.lastOf TvAction.port trace
  decoder := Journal.lastOf TvAction.decoding trace
  layer := Journal.lastOf TvAction.layer trace

variable (s : Session)

/-- The port was opened and not closed since. -/
def PortOpen : Prop := s.port.join.isSome

/-- The port was closed and not opened since. -/
def PortClosed : Prop := s.port = some none

instance : Decidable s.PortOpen := inferInstanceAs (Decidable (_ = true))

instance : Decidable s.PortClosed := inferInstanceAs (Decidable (_ = _))

/-- What may be done in a session: the port is opened only where it is not open, with the decoder
stopped and the layer disabled, and it is not closed twice. -/
def Allows : TvAction → Prop
  | .vdin (.openPort _) _ => ¬ s.PortOpen ∧ s.decoder ≠ some true ∧ s.layer ≠ some true
  | .vdin .closePort ret => 0 ≤ ret → ¬ s.PortClosed
  | _ => True

variable {s}

theorem ne_none_of_portOpen (h : s.PortOpen) : s.port ≠ none := by
  intro hnone
  rw [PortOpen, hnone] at h
  exact absurd h (by decide)

theorem allows_of_part {action : TvAction} (h : action.part ∉ TvAction.portParts) :
    s.Allows action := by
  cases action with
  | vdin request ret =>
    cases request <;> first | trivial | exact absurd (of_decide_eq_true rfl) h
  | _ => trivial

end Session

namespace CTv

variable {ans : Answers} {tv : CTv}

def session (tv : CTv) : Session := Session.ofTrace tv.trace

/-- No session was started on top of another, and none stopped twice. -/
def Exclusive (tv : CTv) : Prop :=
  Journal.Disciplined (fun before action => (Session.ofTrace before).Allows action) tv.trace

/-- Whether `startTv` opens the port: the device is open, or can be opened. -/
def opens (tv : CTv) (ans : Answers) (source : SourceInput) : Bool :=
  tv.mVdin0DevFd || ans.vdinOpen (.openPort (tv.tvinGetSourcePortBySourceInput source))

/-- Whether `stopTv` closes the port: the device is open, or can be opened, and the ioctl
succeeds. -/
def closes (tv : CTv) (ans : Answers) : Bool :=
  (tv.mVdin0DevFd || ans.vdinOpen .closePort) && 0 ≤ ans.vdin .closePort

/-- The steps that keep sessions from overlapping. A port is opened only with nothing left from
before, and closed only once; a switch of the source has to close the port if it is open. -/
def KeepsSession (tv : CTv) : Command × Answers → Prop
  | (.startTv source, ans) =>
    tv.opens ans source = true →
      ¬ tv.session.PortOpen ∧ tv.mDecoderStarted = false ∧ tv.session.layer ≠ some true
  | (.stopTv _, ans) => tv.closes ans = true → ¬ tv.session.PortClosed
  | (.switchSource destSource, ans) =>
    destSource ≠ tv.mCurrentSource →
      (tv.session.PortOpen → tv.closes ans = true) ∧
        (tv.session.PortClosed → tv.closes ans = false)
  | _ => True

/-! ## What the commands do to a session -/

theorem exclusive_dependsOn : DependsOn Exclusive TvAction.portParts := by
  apply trace_dependsOn
  intro trace action haction
  rw [Journal.disciplined_snoc]
  exact propext (and_iff_left (Session.allows_of_part haction))

theorem lastOf_dependsOn {V : Type*} {f : TvAction → Option V} {parts : List Part}
    (hf : ∀ action : TvAction, action.part ∉ parts → f action = none) :
    DependsOn (fun tv => Journal.lastOf f tv.trace) parts := by
  apply trace_dependsOn
  intro trace action haction
  rw [Journal.lastOf_snoc, hf action haction]
  rfl

/-- The session before an ioctl of the port is that before the command. -/
theorem exclusive_vdinDeviceIOCtl (request : VdinRequest) :
    (tv.vdinDeviceIOCtl ans request).2.Exclusive ↔
      tv.Exclusive ∧ ((tv.mVdin0DevFd || ans.vdinOpen request) = true →
        tv.session.Allows (.vdin request (ans.vdin request))) := by
  rw [vdinDeviceIOCtl_eq]
  split
  · rename_i hioctl
    rw [imp_iff_right hioctl]
    exact Journal.disciplined_snoc
  · rename_i hioctl
    exact (and_iff_left fun h => absurd h hioctl).symm

theorem vdinFd_vdinDeviceIOCtl (request : VdinRequest) :
    (tv.vdinDeviceIOCtl ans request).2.mVdin0DevFd =
      (tv.mVdin0DevFd || ans.vdinOpen request) := by
  rw [vdinDeviceIOCtl_eq]
  split
  · rename_i hioctl
    exact hioctl.symm
  · rename_i hioctl
    simp only [Bool.or_eq_true, not_or, Bool.not_eq_true] at hioctl
    rw [hioctl.1, hioctl.2]
    rfl

theorem lastOf_vdinDeviceIOCtl {V : Type*} (f : TvAction → Option V) (request : VdinRequest) :
    Journal.lastOf f (tv.vdinDeviceIOCtl ans request).2.trace =
      if tv.mVdin0DevFd || ans.vdinOpen request then
        (f (.vdin request (ans.vdin request))).or (Journal.lastOf f tv.trace)
      else Journal.lastOf f tv.trace := by
  rw [vdinDeviceIOCtl_eq]
  split
  · exact Journal.lastOf_snoc f tv.trace _
  · rfl

theorem vdinFd_dependsOn : DependsOn mVdin0DevFd [.vdinFd] := by
  intro tv u hu
  cases u with
  | storeEdidVersion source edidVer =>
    exact storeEdidVersion_keeps mVdin0DevFd tv (fun _ _ _ _ => rfl) source edidVer
  | _ => first | rfl | exact absurd (of_decide_eq_true rfl) hu

theorem session_dependsOn :
    DependsOn session [.openPort, .closePort, .startDec, .stopDec, .amVideo] := by
  apply trace_dependsOn
  intro trace action haction
  simp only [List.mem_cons, List.not_mem_nil, or_false, not_or] at haction
  obtain ⟨hopen, hclose, hstart, hstop, hlayer⟩ := haction
  have hport : action.port = none := TvAction.port_eq_none (by simp [TvAction.portParts, *])
  have hdecoding : action.decoding = none := by
    cases action with
    | vdin request ret =>
      cases request <;> first | rfl | exact absurd rfl hstart | exact absurd rfl hstop
    | _ => rfl
  have hnone : action.layer = none := TvAction.layer_eq_none (by simpa using hlayer)
  simp [Session.ofTrace, Journal.lastOf_snoc, hport, hdecoding, hnone]

/-- A start of a source keeps sessions from overlapping if the port is not opened, or if nothing
is left from before. -/
theorem exclusive_startTv_iff (source : SourceInput) :
    (tv.startTv ans source).2.Exclusive ↔ tv.Exclusive ∧ (tv.opens ans source = true →
      ¬ tv.session.PortOpen ∧ tv.session.decoder ≠ some true ∧
        tv.session.layer ≠ some true) := by
  have hprepare := touches_prepare ans tv source
  have hfd : (tv.prepare ans source).mVdin0DevFd = tv.mVdin0DevFd :=
    hprepare.frame vdinFd_dependsOn rfl
  have hsession : (tv.prepare ans source).session = tv.session :=
    hprepare.frame session_dependsOn rfl
  have hexclusive : (tv.prepare ans source).Exclusive = tv.Exclusive :=
    hprepare.frame exclusive_dependsOn rfl
  have hbehind : (tv.startTv ans source).2.Exclusive = (tv.opened ans source).2.Exclusive :=
    (touches_startTv_of_opened ans tv source).frame exclusive_dependsOn rfl
  rw [hbehind, opened, exclusive_vdinDeviceIOCtl, hfd, hsession, hexclusive]
  rfl

/-- What the trace says about the port behind a start. -/
theorem lastOf_startTv {V : Type*} {f : TvAction → Option V}
    (hf : ∀ action : TvAction, action.part ∉ TvAction.portParts → f action = none)
    (source : SourceInput) : Journal.lastOf f (tv.startTv ans source).2.trace =
      let request := .openPort (tv.tvinGetSourcePortBySourceInput source)
      if tv.opens ans source then
        (f (.vdin request (ans.vdin request))).or (Journal.lastOf f tv.trace)
      else Journal.lastOf f tv.trace := by
  have hprepare := touches_prepare ans tv source
  have hfd : (tv.prepare ans source).mVdin0DevFd = tv.mVdin0DevFd :=
    hprepare.frame vdinFd_dependsOn rfl
  have hlast := hprepare.frame (lastOf_dependsOn hf) rfl
  have hbehind := (touches_startTv_of_opened ans tv source).frame (lastOf_dependsOn hf) rfl
  rw [hbehind, opened, lastOf_vdinDeviceIOCtl, hfd, hlast]
  rfl

section

variable (hg : tv.Grounded)

include hg

/-- A device whose port was ever opened or closed is open. -/
theorem vdinFd_of_port {f : TvAction → Option (Option TvinPort)}
    (hf : ∀ action : TvAction, action.part ∉ TvAction.portParts → f action = none)
    (hport : Journal.lastOf f tv.trace ≠ none) : tv.mVdin0DevFd = true := by
  obtain ⟨_, hlast⟩ := Option.ne_none_iff_exists'.mp hport
  obtain ⟨action, hmem, haction⟩ := Journal.exists_mem_of_lastOf hlast
  cases action with
  | vdin request ret => exact hg.device request ret hmem
  | writeSysfs node value ret =>
    have hnone : f (.writeSysfs node value ret) = none := by
      apply hf
      cases node <;> simp [TvAction.part, SysNode.part, TvAction.portParts]
    exact absurd haction (by simp [hnone])
  | _ =>
    rw [hf _ (by simp [TvAction.part, TvAction.portParts])] at haction
    exact absurd haction (by simp)

theorem vdinFd_tvinStopDecoder : (tv.tvinStopDecoder ans).2.mVdin0DevFd = tv.mVdin0DevFd := by
  rw [tvinStopDecoder]
  split
  · rfl
  · rename_i hstarted
    -- a running decoder was started on an open device
    have hopen : tv.mVdin0DevFd = true := hg.open_of_started (by simpa using hstarted)
    dsimp only
    rw [vdinDeviceIOCtl_of_open hopen]
    split <;> rfl

/-- The device is open at the ioctl that closes the port if it was open before the command. -/
theorem vdinFd_stopDecoder_mute :
    ((tv.mute ans).tvinStopDecoder ans).2.mVdin0DevFd = tv.mVdin0DevFd := by
  have hmute := touches_mute ans tv
  have hmuted : (tv.mute ans).Grounded := Grounded.preserves.touches hmute rfl hg
  rw [vdinFd_tvinStopDecoder hmuted]
  exact hmute.frame vdinFd_dependsOn rfl

theorem vdinFd_stopTv (source : SourceInput) : (tv.stopTv ans source).2.mVdin0DevFd =
    (tv.mVdin0DevFd || ans.vdinOpen .closePort) := by
  have hbehind := (touches_stopTv_of_closed ans tv source).frame vdinFd_dependsOn rfl
  rw [hbehind, closed, vdinFd_vdinDeviceIOCtl, vdinFd_stopDecoder_mute hg]

/-- What the trace says about the port behind a stop. -/
theorem lastOf_stopTv {V : Type*} {f : TvAction → Option V}
    (hf : ∀ action : TvAction, action.part ∉ TvAction.portParts → f action = none)
    (source : SourceInput) : Journal.lastOf f (tv.stopTv ans source).2.trace =
      if tv.mVdin0DevFd || ans.vdinOpen .closePort then
        (f (.vdin .closePort (ans.vdin .closePort))).or (Journal.lastOf f tv.trace)
      else Journal.lastOf f tv.trace := by
  have hstopped := (touches_mute ans tv).trans (touches_tvinStopDecoder ans _)
  have hlast := hstopped.frame (lastOf_dependsOn hf) rfl
  have hbehind := (touches_stopTv_of_closed ans tv source).frame (lastOf_dependsOn hf) rfl
  rw [hbehind, closed, lastOf_vdinDeviceIOCtl, vdinFd_stopDecoder_mute hg, hlast]

/-- A stop keeps sessions from overlapping unless it closes a port that was closed before. -/
theorem exclusive_stopTv_iff (source : SourceInput) :
    (tv.stopTv ans source).2.Exclusive ↔
      tv.Exclusive ∧ (tv.closes ans = true → ¬ tv.session.PortClosed) := by
  have hstopped := (touches_mute ans tv).trans (touches_tvinStopDecoder ans _)
  have hexclusive := hstopped.frame exclusive_dependsOn rfl
  have hport := hstopped.frame (lastOf_dependsOn fun _ => TvAction.port_eq_none) rfl
  have hbehind := (touches_stopTv_of_closed ans tv source).frame exclusive_dependsOn rfl
  have hclosed : ((tv.mute ans).tvinStopDecoder ans).2.session.PortClosed ↔
      tv.session.PortClosed := by
    exact iff_of_eq (congrArg (· = some none) hport)
  rw [hbehind, closed, exclusive_vdinDeviceIOCtl, vdinFd_stopDecoder_mute hg, hexclusive,
    Session.Allows, hclosed, closes, Bool.and_eq_true, decide_eq_true_iff, and_imp]

theorem session_port_stopTv (source : SourceInput) : (tv.stopTv ans source).2.session.port =
    if tv.closes ans then some none else tv.session.port := by
  refine (lastOf_stopTv hg (fun _ => TvAction.port_eq_none) source).trans ?_
  rw [closes]
  by_cases hioctl : (tv.mVdin0DevFd || ans.vdinOpen .closePort) = true <;>
    by_cases hret : 0 ≤ ans.vdin .closePort <;>
    simp [hioctl, hret, TvAction.port, session, Session.ofTrace]

end

/-- A stop leaves the layer disabled. -/
theorem session_layer_stopTv (source : SourceInput) :
    (tv.stopTv ans source).2.session.layer = some false := by
  have hdisable (tv : CTv) : Journal.lastOf TvAction.layer
      (tv.setVideoLayerStatus ans videoLayerStatusDisable).2.trace = some false :=
    Journal.lastOf_snoc _ _ _
  have houtput (tv : CTv) (mode : Int32) : Journal.lastOf TvAction.layer
      (tv.setVideoGlobalOutputMode ans mode).2.trace = Journal.lastOf TvAction.layer tv.trace :=
    Journal.lastOf_snoc _ _ _
  have hstopped := (touches_tvinStopDecoder ans (tv.mute ans)).trans
    (touches_vdinDeviceIOCtl ans _ .closePort)
  have hbehind := hstopped.trans (touches_stopTv_of_closed ans tv source)
  -- the decoder and the port are no part of the layer
  have hkeep := hbehind.frame (lastOf_dependsOn fun _ => TvAction.layer_eq_none) rfl
  exact hkeep.trans ((houtput _ _).trans (hdisable _))

/-! ## Runs -/

section

variable (hg : tv.Grounded)

include hg

theorem decoder_ne_iff : tv.session.decoder ≠ some true ↔ tv.mDecoderStarted = false := by
  rw [← Bool.not_eq_true]
  exact not_congr hg.decoder

/-- A switch to another source keeps sessions from overlapping if it closes the port exactly where
it is open. -/
theorem exclusive_switchSource_iff {destSource : SourceInput}
    (hne : destSource ≠ tv.mCurrentSource) :
    (tv.switchSource ans destSource).2.Exclusive ↔
      tv.Exclusive ∧ (tv.session.PortOpen → tv.closes ans = true) ∧
        (tv.session.PortClosed → tv.closes ans = false) := by
  let stopped := (tv.stopTv ans tv.mCurrentSource).2
  have hstopped : stopped.Grounded := Grounded.preserves.stopTv _ hg
  have hdecoder : stopped.session.decoder ≠ some true := by
    rw [decoder_ne_iff hstopped]
    exact congrArg SignalPath.started (path_stopTv _)
  have hlayer : stopped.session.layer ≠ some true := by
    rw [session_layer_stopTv]
    decide
  -- a port that is still open was opened on the device, which is then open for the start
  have hstart : (stopped.opens ans destSource = true → ¬ stopped.session.PortOpen ∧
      stopped.session.decoder ≠ some true ∧ stopped.session.layer ≠ some true) ↔
        ¬ stopped.session.PortOpen := by
    constructor
    · intro h hopen
      have hfd : stopped.mVdin0DevFd = true :=
        vdinFd_of_port hstopped (fun _ => TvAction.port_eq_none)
          (Session.ne_none_of_portOpen hopen)
      exact (h (by rw [opens, hfd]; rfl)).1 hopen
    · exact fun h _ => ⟨h, hdecoder, hlayer⟩
  have hport : stopped.session.PortOpen ↔ tv.closes ans = false ∧ tv.session.PortOpen := by
    rw [Session.PortOpen, session_port_stopTv hg]
    cases tv.closes ans <;> simp [Session.PortOpen]
  rw [switchSource, if_pos hne, exclusive_startTv_iff, hstart, hport, exclusive_stopTv_iff hg]
  cases tv.closes ans <;> simp [and_comm]

/-- **Steps between sessions**: exactly the steps that meet the condition keep sessions from
overlapping. -/
theorem exclusive_step_iff (hs : tv.Exclusive) (x : Command × Answers) :
    (tv.step x).Exclusive ↔ tv.KeepsSession x := by
  have hframe : Footprint.avoids x.1.parts TvAction.portParts = true → (tv.step x).Exclusive :=
    fun hparts => ((touches_step tv x).frame exclusive_dependsOn hparts).mpr hs
  obtain ⟨command, ans⟩ := x
  cases command with
  | startTv source =>
    refine (exclusive_startTv_iff source).trans ?_
    rw [decoder_ne_iff hg]
    exact and_iff_right hs
  | stopTv source => exact (exclusive_stopTv_iff hg source).trans (and_iff_right hs)
  | switchSource destSource =>
    by_cases hne : destSource ≠ tv.mCurrentSource
    · refine (exclusive_switchSource_iff hg hne).trans ?_
      rw [KeepsSession, imp_iff_right hne]
      exact and_iff_right hs
    · refine iff_of_true ?_ fun h => absurd h hne
      show (tv.switchSource ans destSource).2.Exclusive
      rw [switchSource, if_neg hne]
      exact hs
  | _ => exact iff_of_true (hframe rfl) trivial

end

theorem exclusive_construct (ans : Answers) (boot : Boot) : (construct ans boot).Exclusive := by
  have hconfigured : (configured ans boot).Exclusive :=
    Journal.disciplined_snoc.mpr ⟨Journal.disciplined_nil, trivial⟩
  exact ((touches_construct ans boot).frame exclusive_dependsOn rfl).mpr hconfigured

/-- **Runs with exclusive sessions**: no session starts on top of another in any state of a run
exactly if every step meets the condition. The list holds the commands of all clients, in the
order in which the mutex of the service admits them. -/
theorem exclusive_iff_keeps (ans : Answers) (boot : Boot) (xs : List (Command × Answers)) :
    Machine.Throughout step Exclusive (construct ans boot) xs ↔
      Machine.Along step KeepsSession (construct ans boot) xs := by
  apply Machine.throughout_iff_along Grounded
  · exact fun tv x => Grounded.preserves.step x
  · exact fun tv x hg hs => exclusive_step_iff hg hs x
  · exact Grounded.construct ans boot
  · exact exclusive_construct ans boot

/-- Two clients start a source each. -/
theorem not_forall_exclusive :
    ¬ ∀ (ans : Answers) (boot : Boot) (xs : List (Command × Answers)),
      (∀ x ∈ xs, ∃ source, x.1 = .startTv source ∨ x.1 = .stopTv source) →
        (Machine.run step (construct ans boot) xs).Exclusive := by
  intro hall
  let ans := Answers.granting 0 noSignalInfo
  let boot : Boot := ⟨fun _ => none, none, true, true, sourceInvalid⟩
  let first : Command × Answers := (.startTv sourceHdmi1, ans)
  let second : Command × Answers := (.startTv sourceHdmi2, ans)
  let tv := (construct ans boot).step first
  have hgrounded : tv.Grounded := grounded_run ans boot [first]
  have hrun : (tv.step second).Exclusive :=
    hall ans boot [first, second] (by simp [first, second])
  have hexclusive : tv.Exclusive := hall ans boot [first] (by simp [first])
  -- the first port is open when the second one is opened
  let port := (construct ans boot).tvinGetSourcePortBySourceInput sourceHdmi1
  have hlast : Journal.lastOf TvAction.port ((construct ans boot).startTv ans sourceHdmi1).2.trace =
      some (some port) := by
    have hopens : (construct ans boot).opens ans sourceHdmi1 = true := Bool.or_true _
    rw [lastOf_startTv fun _ => TvAction.port_eq_none, hopens]
    rfl
  have hport : tv.session.port = some (some port) := hlast
  have hkeeps := (exclusive_step_iff hgrounded hexclusive second).mp hrun
  have hopens : tv.opens ans sourceHdmi2 = true := Bool.or_true _
  apply (hkeeps hopens).1
  rw [Session.PortOpen, hport]
  rfl

/-! ## The recorded source -/

/-- The current source, if there is one, is the source whose port was opened last: this succeeded,
and the port was not closed since. -/
def Recorded (tv : CTv) : Prop :=
  tv.mCurrentSource ≠ sourceInvalid →
    Journal.lastOf TvAction.attempt tv.trace =
      some (some (tv.tvinGetSourcePortBySourceInput tv.mCurrentSource))

/-- After a start that fails the source is not the current one, unless it was before with its port
open, so that a switch to it tries to open the port again. -/
def RetriesAfterFailure (tv : CTv) : Command × Answers → Prop
  | (.startTv source, ans) =>
    let failed := (tv.startTv ans source).2
    source ≠ sourceInvalid → (tv.startTv ans source).1 < 0 →
      (tv.mCurrentSource = source ∧ Journal.lastOf TvAction.port tv.trace =
          some (some (tv.tvinGetSourcePortBySourceInput source))) ∨
        (failed.mCurrentSource ≠ source ∧
          ∀ later, (failed.switchSource later source).2 =
            ((failed.stopTv later failed.mCurrentSource).2.startTv later source).2)
  | _ => True

/-- The steps that record a source only with its port open: the device can be opened for the
ioctl, which succeeds. A switch of the source may open the device for the ioctl before. -/
def OpensRecorded (tv : CTv) : Command × Answers → Prop
  | (.startTv source, ans) =>
    source ≠ sourceInvalid → tv.opens ans source = true ∧
      0 ≤ ans.vdin (.openPort (tv.tvinGetSourcePortBySourceInput source))
  | (.switchSource destSource, ans) =>
    destSource ≠ tv.mCurrentSource → destSource ≠ sourceInvalid →
      (tv.opens ans destSource || ans.vdinOpen .closePort) = true ∧
        0 ≤ ans.vdin (.openPort (tv.tvinGetSourcePortBySourceInput destSource))
  | _ => True

theorem recorded_dependsOn : DependsOn Recorded (.source :: TvAction.portParts) := by
  have hattempt := lastOf_dependsOn fun _ => TvAction.attempt_eq_none
  intro tv u hu
  have hlast := hattempt tv u fun h => hu (List.mem_cons_of_mem _ h)
  have hports := tvinGetSourcePortBySourceInput_of_touches (touches_update tv u)
  have hsource : (tv.update u).mCurrentSource = tv.mCurrentSource :=
    mCurrentSource_dependsOn tv u fun h => hu (List.mem_cons.mpr (.inl (List.mem_singleton.mp h)))
  dsimp only at hlast
  rw [Recorded, Recorded, hlast, hports, hsource]

/-- A start records a source with its port open exactly if it opens the port. -/
theorem recorded_startTv_iff (hg : tv.Grounded) (source : SourceInput) :
    (tv.startTv ans source).2.Recorded ↔ tv.OpensRecorded (.startTv source, ans) := by
  have hsource : (tv.startTv ans source).2.mCurrentSource = source :=
    congrArg SignalPath.source (path_startTv source)
  have hport := tvinGetSourcePortBySourceInput_of_touches (touches_startTv ans tv source) source
  rw [Recorded, OpensRecorded, hsource, hport, lastOf_startTv fun _ => TvAction.attempt_eq_none]
  refine imp_congr_right fun _ => ?_
  dsimp only
  split
  · rename_i hopens
    rw [hopens]
    simp [TvAction.attempt]
  · rename_i hopens
    refine iff_of_false (fun hlast => ?_) fun h => hopens h.1
    -- a port was never opened on a device that is not open
    have hfd : tv.mVdin0DevFd = true :=
      vdinFd_of_port hg (fun _ => TvAction.attempt_eq_none) (by rw [hlast]; simp)
    exact hopens (by rw [opens, hfd]; rfl)

theorem recorded_switchSource_iff (hg : tv.Grounded) {destSource : SourceInput}
    (hne : destSource ≠ tv.mCurrentSource) : (tv.switchSource ans destSource).2.Recorded ↔
      tv.OpensRecorded (.switchSource destSource, ans) := by
  have hstopped : (tv.stopTv ans tv.mCurrentSource).2.Grounded := Grounded.preserves.stopTv _ hg
  have hport := tvinGetSourcePortBySourceInput_of_touches
    (touches_stopTv ans tv tv.mCurrentSource) destSource
  rw [switchSource, if_pos hne, recorded_startTv_iff hstopped, OpensRecorded, OpensRecorded,
    imp_iff_right hne, opens, opens, hport, vdinFd_stopTv hg, Bool.or_right_comm]

/-- **Steps with a recorded source**: exactly the steps that meet the condition record a source
only with its port open. -/
theorem recorded_step_iff (hg : tv.Grounded) (hs : tv.Recorded) (x : Command × Answers) :
    (tv.step x).Recorded ↔ tv.OpensRecorded x := by
  have hframe : Footprint.avoids x.1.parts (.source :: TvAction.portParts) = true →
      (tv.step x).Recorded :=
    fun hparts => ((touches_step tv x).frame recorded_dependsOn hparts).mpr hs
  obtain ⟨command, ans⟩ := x
  cases command with
  | startTv source => exact recorded_startTv_iff hg source
  | stopTv source =>
    have hpath : (tv.stopTv ans source).2.path = tv.path.stop := path_stopTv source
    have hsource : (tv.stopTv ans source).2.mCurrentSource = sourceInvalid :=
      congrArg SignalPath.source hpath
    exact iff_of_true (fun hvalid => absurd hsource hvalid) trivial
  | switchSource destSource =>
    by_cases hne : destSource ≠ tv.mCurrentSource
    · exact recorded_switchSource_iff hg hne
    · refine iff_of_true ?_ fun h => absurd h hne
      show (tv.switchSource ans destSource).2.Recorded
      rw [switchSource, if_neg hne]
      exact hs
  | _ => exact iff_of_true (hframe rfl) trivial

/-- A start that opens the port of its source does not fail. -/
theorem retriesAfterFailure_of_opens (tv : CTv) (x : Command × Answers)
    (h : tv.OpensRecorded x) : tv.RetriesAfterFailure x := by
  obtain ⟨command, ans⟩ := x
  cases command with
  | startTv source =>
    intro hvalid hfails
    obtain ⟨hopens, hret⟩ := h hvalid
    have hfd : (tv.prepare ans source).mVdin0DevFd = tv.mVdin0DevFd :=
      (touches_prepare ans tv source).frame vdinFd_dependsOn rfl
    have hresult : (tv.startTv ans source).1 =
        ans.vdin (.openPort (tv.tvinGetSourcePortBySourceInput source)) := by
      rw [startTv_eq_opened, opened, vdinDeviceIOCtl_eq, hfd]
      exact congrArg Prod.fst (if_pos hopens)
    exact absurd hret (Int32.not_le.mpr (hresult ▸ hfails))
  | _ => trivial

/-- The constructor leaves no trace of a port, so that its source is recorded only if it is
invalid. -/
theorem recorded_construct_iff (ans : Answers) (boot : Boot) :
    (construct ans boot).Recorded ↔ boot.mCurrentSource = sourceInvalid := by
  have hsource : (construct ans boot).mCurrentSource = boot.mCurrentSource :=
    congrArg SignalPath.source (path_construct boot)
  have hlast : Journal.lastOf TvAction.attempt (construct ans boot).trace = none :=
    (touches_construct ans boot).frame (lastOf_dependsOn fun _ => TvAction.attempt_eq_none) rfl
  rw [Recorded, hsource, hlast]
  simp

/-- **Runs with a recorded source**: the current source has its port open in every state of a run,
and failing starts are tried again, exactly if the source is invalid at first and every step meets
the condition. -/
theorem recorded_iff_opens (ans : Answers) (boot : Boot) (xs : List (Command × Answers)) :
    (Machine.Throughout step Recorded (construct ans boot) xs ∧
        Machine.Along step RetriesAfterFailure (construct ans boot) xs) ↔
      boot.mCurrentSource = sourceInvalid ∧
        Machine.Along step OpensRecorded (construct ans boot) xs := by
  have hrun (hs : (construct ans boot).Recorded) :
      Machine.Throughout step Recorded (construct ans boot) xs ↔
        Machine.Along step OpensRecorded (construct ans boot) xs := by
    apply Machine.throughout_iff_along Grounded
    · exact fun tv x => Grounded.preserves.step x
    · exact fun tv x hg hs => recorded_step_iff hg hs x
    · exact Grounded.construct ans boot
    · exact hs
  constructor
  · rintro ⟨hrecorded, -⟩
    have hs : (construct ans boot).Recorded := hrecorded [] List.nil_prefix
    exact ⟨(recorded_construct_iff ans boot).mp hs, (hrun hs).mp hrecorded⟩
  · rintro ⟨hinvalid, hopens⟩
    have hs : (construct ans boot).Recorded := (recorded_construct_iff ans boot).mpr hinvalid
    exact ⟨(hrun hs).mpr hopens, Machine.along_of_imp retriesAfterFailure_of_opens hopens⟩

/-- A start whose port cannot be opened is recorded all the same. -/
theorem not_forall_recorded :
    ¬ ∀ (ans : Answers) (boot : Boot) (xs : List (Command × Answers)),
      boot.mCurrentSource = sourceInvalid →
        (∀ x ∈ xs, ∃ source,
          x.1 = .startTv source ∨ x.1 = .stopTv source ∨ x.1 = .switchSource source) →
          (Machine.run step (construct ans boot) xs).Recorded := by
  intro hall
  let ans : Answers := { Answers.granting 0 noSignalInfo with vdin := fun _ => -1 }
  let boot : Boot := ⟨fun _ => none, none, true, true, sourceInvalid⟩
  have hrun : ((construct ans boot).startTv ans sourceHdmi1).2.Recorded :=
    hall ans boot [(.startTv sourceHdmi1, ans)] rfl (by simp)
  rw [recorded_startTv_iff (Grounded.construct ans boot)] at hrun
  exact absurd (hrun (by decide)).2 (by decide)

end CTv
