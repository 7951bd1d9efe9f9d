import TvServer.Foundations.Words
import TvServer.Tv.PollDetect

/-!
# False plugs

Two things pass for plugs that are none. A source that is on no HDMI port is looked up by the bit
of the first port, so that a cable there is reported for it. And what a read of a detection device
returns is dropped, so that a read that fails is taken for a status: that of no cables for the
HDMI ports, whose buffer is cleared before, and whatever was in memory for the AV channels.

## Main definitions

* `PlugsOwnPort`: a source is plugged in only by the bit of its port
* `DetectRead`: a read of a detection device, with the buffer it has
* `IgnoresFailure`: a read that fails changes nothing

## Main results

* `plugsOwnPort_iff`: the sources and status words without a foreign plug
* `ignoresFailure_iff`: the reads that fail and change nothing
-/

namespace CTv

variable {tv : CTv}

/-! ## Foreign ports -/

/-- An HDMI source that is reported to be plugged in is on an HDMI port, and the bit of that port
is set in the status word. -/
def PlugsOwnPort (tv : CTv) (ans : Answers) (source : SourceInput) (hdmiStatus : Int32) : Prop :=
  source ∈ hdmiSources →
    tv.getSourceConnectStatus { ans with hdmiStatus := hdmiStatus } source = some sourcePlugIn →
      ∃ p ∈ hdmiDetectPorts,
        tv.tvinGetSourcePortBySourceInput source = p.1 ∧ hdmiStatus &&& p.2 = p.2

/-- A source that is on no HDMI port has the bit of the first one. -/
theorem sourceInputMaptoChipHdmiPort_of_notMem {source : SourceInput}
    (hport : tv.tvinGetSourcePortBySourceInput source ∉ hdmiPorts) :
    tv.sourceInputMaptoChipHdmiPort source = hdmiDetectStatusBitA := by
  simp only [hdmiPorts, List.mem_cons, List.not_mem_nil, or_false, not_or] at hport
  obtain ⟨h₀, h₁, h₂, h₃⟩ := hport
  rw [sourceInputMaptoChipHdmiPort, if_neg h₀, if_neg h₁, if_neg h₂, if_neg h₃]
  rfl

theorem plugStatus_eq_sourcePlugIn_iff (source : SourceInput) (hdmiStatus : Int32) :
    tv.plugStatus source hdmiStatus = sourcePlugIn ↔
      hdmiStatus &&& tv.sourceInputMaptoChipHdmiPort source =
        tv.sourceInputMaptoChipHdmiPort source := by
  have hplug : sourcePlugOut ≠ sourcePlugIn := by decide
  rw [plugStatus]
  split
  · exact iff_of_true rfl ‹_›
  · exact iff_of_false hplug ‹_›

/-- **Foreign plugs** are reported for the sources that are on no HDMI port, by the bit of the
first one. -/
theorem plugsOwnPort_iff (tv : CTv) (ans : Answers) (source : SourceInput) (hdmiStatus : Int32) :
    tv.PlugsOwnPort ans source hdmiStatus ↔
      (source ∈ hdmiSources →
        tv.tvinGetSourcePortBySourceInput source ∈ hdmiPorts ∨
          hdmiStatus &&& hdmiDetectStatusBitA = 0) := by
  refine imp_congr_right fun hs => ?_
  rw [getSourceConnectStatus_eq hs, Option.some_inj, plugStatus_eq_sourcePlugIn_iff]
  have hbitA : (tvinPortHdmi0, hdmiDetectStatusBitA) ∈ hdmiDetectPorts := List.mem_cons_self
  have hnonzero : hdmiDetectStatusBitA ≠ 0 := by decide
  by_cases hport : tv.tvinGetSourcePortBySourceInput source ∈ hdmiPorts
  · -- the bit that is looked up is that of the port
    obtain ⟨p, hp, hfst⟩ := List.mem_map.mp (show _ ∈ hdmiDetectPorts.map Prod.fst from hport)
    rw [sourceInputMaptoChipHdmiPort_eq hp hfst.symm]
    exact iff_of_true (fun hbit => ⟨p, hp, hfst.symm, hbit⟩) (.inl hport)
  · have hforeign : ¬ ∃ p ∈ hdmiDetectPorts,
        tv.tvinGetSourcePortBySourceInput source = p.1 ∧ hdmiStatus &&& p.2 = p.2 := by
      rintro ⟨p, hp, hfst, -⟩
      exact hport (hfst ▸ fst_mem_hdmiPorts hp)
    rw [sourceInputMaptoChipHdmiPort_of_notMem hport, or_iff_right hport]
    constructor
    · intro hown
      rcases and_bit hbitA hdmiStatus with hclear | hset
      · exact hclear
      · exact absurd (hown hset) hforeign
    · intro hclear hset
      exact absurd (hset.symm.trans hclear) hnonzero

/-- `HDMI1` is configured to a composite port, and a cable is in the first HDMI port. -/
theorem not_forall_plugsOwnPort :
    ¬ ∀ (ans : Answers) (boot : Boot) (source : SourceInput) (hdmiStatus : Int32),
      (construct ans boot).PlugsOwnPort ans source hdmiStatus := by
  intro hall
  let ans := Answers.granting 0 noSignalInfo
  let boot : Boot := ⟨fun _ => some
    "[SourceInputMap]\nro.tv.tvinchannel.hdmi1=TVIN_PORT_CVBS0\n".toList, none, true, true,
    sourceTv⟩
  have hport : (construct ans boot).tvinGetSourcePortBySourceInput sourceHdmi1 = tvinPortCvbs0 := by
    decide +kernel
  have hown := (plugsOwnPort_iff _ _ _ _).mp (hall ans boot sourceHdmi1 1) List.mem_cons_self
  rw [hport] at hown
  exact absurd hown (by decide)

/-! ## Failed reads -/

/-- A read of the device that was signalled: what it delivers, if it does not fail, and for the AV
device what its buffer on the stack held before. -/
inductive DetectRead where
  | avin (status : Vector UInt8 (4 * 4)) (bytes : Option (List UInt8))
  | hdmi (bytes : Option (List UInt8))

namespace DetectRead

/-- The read fails, or delivers fewer bytes than requested. -/
def Fails : DetectRead → Prop
  | avin _ bytes => (bytes.getD []).length < 16
  | hdmi bytes => (bytes.getD []).length < 4

/-- What is made of the buffer of a read: two reports of two words each, or one word. -/
def event : DetectRead → PollEvent
  | avin status bytes =>
    let ws := Buffer.words (Buffer.received status bytes)
    .avin (⟨ws[0], ws[1]⟩, ⟨ws[2], ws[3]⟩)
  | hdmi bytes =>
    let hdmiStatus : Vector UInt8 (4 * 1) := Vector.replicate 4 0
    .hdmi (Buffer.words (Buffer.received hdmiStatus bytes))[0].toInt32

/-- The buffer behind the read holds the status that was recorded before. -/
def HoldsRecorded (detect : CTvDevicesPollDetect) : DetectRead → Prop
  | avin status bytes =>
    Buffer.received status bytes = Buffer.ofWords #v[detect.mAvinStatus.1.channel,
      detect.mAvinStatus.1.status, detect.mAvinStatus.2.channel, detect.mAvinStatus.2.status]
  | hdmi bytes =>
    let hdmiStatus : Vector UInt8 (4 * 1) := Vector.replicate 4 0
    Buffer.received hdmiStatus bytes = Buffer.ofWords #v[detect.mHdmiStatus.toUInt32]

end DetectRead

/-- A read that fails is ignored: no call is made for it, and the recorded status stays. -/
def IgnoresFailure (tv : CTv) (detect : CTvDevicesPollDetect) (read : DetectRead) : Prop :=
  read.Fails →
    (tv.threadLoopStep detect read.event).1.filterMap connectSource = [] ∧
      (tv.threadLoopStep detect read.event).2.mAvinStatus = detect.mAvinStatus ∧
      (tv.threadLoopStep detect read.event).2.mHdmiStatus = detect.mHdmiStatus

/-- No call is made for a report with the status that was recorded. -/
theorem detectAvin_self (detect : CTvDevicesPollDetect) (status : AvinReport) :
    detectAvin detect status status = [] := if_neg (not_not_intro rfl)

theorem detectHdmi_self (detect : CTvDevicesPollDetect) (bit : Int32) :
    tv.detectHdmi detect detect.mHdmiStatus bit = [] := if_neg (not_not_intro rfl)

/-- Events that make no call and leave the record are those with the recorded status. -/
theorem avin_ignored_iff (detect : CTvDevicesPollDetect) (status : AvinReport × AvinReport) :
    ((tv.threadLoopStep detect (.avin status)).1.filterMap connectSource = [] ∧
      (tv.threadLoopStep detect (.avin status)).2.mAvinStatus = detect.mAvinStatus ∧
      (tv.threadLoopStep detect (.avin status)).2.mHdmiStatus = detect.mHdmiStatus) ↔
      status = detect.mAvinStatus := by
  constructor
  · exact fun h => h.2.1
  · rintro rfl
    refine ⟨?_, rfl, rfl⟩
    rw [threadLoopStep, onAvinDetect, detectAvin_self, detectAvin_self]
    rfl

theorem hdmi_ignored_iff (detect : CTvDevicesPollDetect) (hdmiStatus : Int32) :
    ((tv.threadLoopStep detect (.hdmi hdmiStatus)).1.filterMap connectSource = [] ∧
      (tv.threadLoopStep detect (.hdmi hdmiStatus)).2.mAvinStatus = detect.mAvinStatus ∧
      (tv.threadLoopStep detect (.hdmi hdmiStatus)).2.mHdmiStatus = detect.mHdmiStatus) ↔
      hdmiStatus = detect.mHdmiStatus := by
  constructor
  · exact fun h => h.2.2
  · rintro rfl
    refine ⟨?_, rfl, rfl⟩
    rw [threadLoopStep, onHdmiDetect, detectHdmi_self, detectHdmi_self, detectHdmi_self,
      detectHdmi_self]
    rfl

/-- **Failures that are ignored**: a read that fails is ignored exactly if its buffer happens to
hold the status that was recorded. -/
theorem ignoresFailure_iff (tv : CTv) (detect : CTvDevicesPollDetect) (read : DetectRead) :
    tv.IgnoresFailure detect read ↔ (read.Fails → read.HoldsRecorded detect) := by
  refine imp_congr_right fun _ => ?_
  cases read with
  | avin status bytes =>
    rw [DetectRead.event, avin_ignored_iff, DetectRead.HoldsRecorded, ← Buffer.words_eq_iff]
    generalize Buffer.words (Buffer.received status bytes) = ws
    constructor
    · intro h
      rw [← h]
      refine Vector.ext fun i hi => ?_
      obtain rfl | rfl | rfl | rfl : i = 0 ∨ i = 1 ∨ i = 2 ∨ i = 3 := by omega
      all_goals rfl
    · intro h
      rw [h]
      rfl
  | hdmi bytes =>
    rw [DetectRead.event, hdmi_ignored_iff, DetectRead.HoldsRecorded, ← Buffer.words_eq_iff]
    generalize Buffer.words (m := 1) (Buffer.received (Vector.replicate 4 0) bytes) = ws
    constructor
    · intro h
      rw [← h]
      refine Vector.ext fun i hi => ?_
      obtain rfl : i = 0 := by omega
      rfl
    · intro h
      rw [h]
      rfl

/-- A read that fails plugs out a cable that is there. -/
theorem not_forall_ignoresFailure :
    ¬ ∀ (tv : CTv) (detect : CTvDevicesPollDetect) (read : DetectRead),
      tv.IgnoresFailure detect read := by
  intro hall
  let tv := allocate ⟨fun _ => none, none, true, true, sourceTv⟩
  let detect := CTvDevicesPollDetect.new.setObserver.initStatus
    (⟨avinChannel1, avinStatusIn⟩, ⟨avinChannel2, avinStatusIn⟩) 1
  have hignores := hall tv detect (.hdmi none)
  have hfails : (DetectRead.hdmi none).Fails := Nat.zero_lt_succ 3
  exact absurd (hignores hfails).2.2 (by decide)

end CTv
