import TvServer.Foundations.Sensor
import TvServer.Tv.Edid

/-!
# The detection of plugs

A thread waits for the detection devices. It keeps the last status it read from each device, and
calls its observer for what changed. A client can also ask whether a source is plugged in, which
reads the device anew. For the HDMI sources the calls and the answers agree, as long as each of
them has an HDMI port of its own.

## Main definitions

* `tvinPortToSourceInput`, `chipHdmiPortMaptoSourceInput`: the source at a port
* `CTvDevicesPollDetect`, `threadLoopStep`: the thread, with the commands it hands to the observer
* `OwnsHdmiPorts`: the HDMI sources, and no others, are on different HDMI ports
* `OwnsPort`: the search for the port of an HDMI source finds this source

## Main results

* `tvinPortToSourceInput_eq_iff`: the search for a source inverts the map to its port
* `threadLoopStep_reports`: the thread reports the plugs of each HDMI source
* `hotplug_agrees`: calls and answers agree
-/

/-- An event of the detection: a device is readable, with what its status buffer holds behind the
read. -/
inductive PollEvent where
  | avin (status : AvinReport × AvinReport)
  | hdmi (hdmiStatus : Int32)
  | vdin
deriving DecidableEq

/-- The HDMI status that was read, if any. -/
def PollEvent.hdmiStatus : PollEvent → Option Int32
  | .hdmi hdmiStatus => some hdmiStatus
  | _ => none

/-- The state of the detection: what was last read from the devices, and whether an observer is
set. -/
structure CTvDevicesPollDetect where
  mAvinStatus : AvinReport × AvinReport
  mHdmiStatus : Int32
  mpObserver : Bool
deriving DecidableEq

namespace CTvDevicesPollDetect

/-- The constructor. -/
def new : CTvDevicesPollDetect where
  mAvinStatus := (⟨CTv.avinChannel1, CTv.avinStatusIn⟩, ⟨CTv.avinChannel1, CTv.avinStatusIn⟩)
  mHdmiStatus := 0
  mpObserver := false

def setObserver (detect : CTvDevicesPollDetect) : CTvDevicesPollDetect :=
  { detect with mpObserver := true }

/-- The beginning of `ThreadLoop`, which reads the status of both devices. -/
def initStatus (detect : CTvDevicesPollDetect) (avinStatus : AvinReport × AvinReport)
    (hdmiStatus : Int32) : CTvDevicesPollDetect :=
  { detect with mAvinStatus := avinStatus, mHdmiStatus := hdmiStatus }

end CTvDevicesPollDetect

namespace CTv

variable (tv : CTv)

/-! ## Ports and bits -/

def hdmiDetectStatusBitA : Int32 := 0x01

def hdmiDetectStatusBitB : Int32 := 0x02

def hdmiDetectStatusBitC : Int32 := 0x04

def hdmiDetectStatusBitD : Int32 := 0x08

/-- The first source on a port, `SOURCE_MAX` if there is none. -/
def tvinPortToSourceInput (port : TvinPort) : SourceInput :=
  match tv.mSourceInputToPortMap.toList.findIdx? (· = port) with
  | some i => Int32.ofNat i
  | none => sourceMax

def chipHdmiPortMaptoSourceInput (port : Int32) : SourceInput :=
  if port = hdmiDetectStatusBitA then tv.tvinPortToSourceInput tvinPortHdmi0
  else if port = hdmiDetectStatusBitB then tv.tvinPortToSourceInput tvinPortHdmi1
  else if port = hdmiDetectStatusBitC then tv.tvinPortToSourceInput tvinPortHdmi2
  else if port = hdmiDetectStatusBitD then tv.tvinPortToSourceInput tvinPortHdmi3
  else tv.tvinPortToSourceInput tvinPortHdmi0

/-! ## The thread -/

/-- A call of `onSourceConnect`, if there is an observer. -/
def notifyConnect (detect : CTvDevicesPollDetect) (source plug : Int32) : List Command :=
  if detect.mpObserver then [.sourceConnect source plug] else []

/-- One round of the loop over the AV reports: only the status is compared, and the channel is
that of the new report. -/
def detectAvin (detect : CTvDevicesPollDetect) (last status : AvinReport) : List Command :=
  if status.status ≠ last.status then
    let plug := if status.status = avinStatusIn then sourcePlugIn else sourcePlugOut
    let source :=
      if status.channel = avinChannel1 then sourceAv1
      else if status.channel = avinChannel2 then sourceAv2
      else -1
    notifyConnect detect source plug
  else []

def onAvinDetect (detect : CTvDevicesPollDetect) (status : AvinReport × AvinReport) :
    List Command × CTvDevicesPollDetect :=
  (detectAvin detect detect.mAvinStatus.1 status.1 ++
      detectAvin detect detect.mAvinStatus.2 status.2,
    { detect with mAvinStatus := status })

/-- The block for one bit of the HDMI status. -/
def detectHdmi (detect : CTvDevicesPollDetect) (hdmiStatus bit : Int32) : List Command :=
  if hdmiStatus &&& bit ≠ detect.mHdmiStatus &&& bit then
    let source := tv.chipHdmiPortMaptoSourceInput bit
    let plug := if hdmiStatus &&& bit = bit then sourcePlugIn else sourcePlugOut
    notifyConnect detect source plug
  else []

def onHdmiDetect (detect : CTvDevicesPollDetect) (hdmiStatus : Int32) :
    List Command × CTvDevicesPollDetect :=
  (tv.detectHdmi detect hdmiStatus hdmiDetectStatusBitA ++
      tv.detectHdmi detect hdmiStatus hdmiDetectStatusBitB ++
      tv.detectHdmi detect hdmiStatus hdmiDetectStatusBitC ++
      tv.detectHdmi detect hdmiStatus hdmiDetectStatusBitD,
    { detect with mHdmiStatus := hdmiStatus })

/-- One event that the thread waited for. -/
def threadLoopStep (detect : CTvDevicesPollDetect) :
    PollEvent → List Command × CTvDevicesPollDetect
  | .avin status => onAvinDetect detect status
  | .hdmi hdmiStatus => tv.onHdmiDetect detect hdmiStatus
  | .vdin => (if detect.mpObserver then [.vdinSignalChange] else [], detect)

/-- The calls that the thread makes for a sequence of events. -/
def threadLoop (detect : CTvDevicesPollDetect) (events : List PollEvent) : List Command :=
  Sensor.outputs tv.threadLoopStep detect events

/-! ## The source at a port -/

variable {tv}

/-- The HDMI sources, and no others, are on different HDMI ports. -/
structure OwnsHdmiPorts (tv : CTv) : Prop extends tv.DistinctHdmiPorts where
  others : ∀ source, source ∉ hdmiSources → tv.tvinGetSourcePortBySourceInput source ∉ hdmiPorts

/-- The indices of the map are the sources in its range. -/
theorem tvinGetSourcePortBySourceInput_ofNat {i : ℕ} (hi : i < 16) :
    tv.tvinGetSourcePortBySourceInput (Int32.ofNat i) = tv.mSourceInputToPortMap[i] := by
  have hrange : ∀ j : Fin 16, sourceTv ≤ Int32.ofNat j ∧ (Int32.ofNat j).toInt.toNat = j := by
    decide
  obtain ⟨hlow, hindex⟩ := hrange ⟨i, hi⟩
  dsimp only at hlow hindex
  rw [tvinGetSourcePortBySourceInput, dif_pos ⟨hlow, hindex.trans_lt hi⟩]
  simp only [hindex]

/-- The search finds a source on the port, or there is none in the range of the map. -/
theorem tvinPortToSourceInput_cases (tv : CTv) (port : TvinPort) :
    (∃ i, i < 16 ∧ tv.tvinPortToSourceInput port = Int32.ofNat i ∧
      tv.tvinGetSourcePortBySourceInput (Int32.ofNat i) = port) ∨
    (tv.tvinPortToSourceInput port = sourceMax ∧
      ∀ i, i < 16 → tv.tvinGetSourcePortBySourceInput (Int32.ofNat i) ≠ port) := by
  rw [tvinPortToSourceInput]
  rcases hfind : tv.mSourceInputToPortMap.toList.findIdx? (· = port) with _ | i
  · refine .inr ⟨rfl, fun i hi heq => ?_⟩
    rw [List.findIdx?_eq_none_iff] at hfind
    rw [tvinGetSourcePortBySourceInput_ofNat hi] at heq
    have hmem : tv.mSourceInputToPortMap[i] ∈ tv.mSourceInputToPortMap.toList := by simp
    exact absurd heq (by simpa using hfind _ hmem)
  · obtain ⟨hi, hport, -⟩ := List.findIdx?_eq_some_iff_getElem.mp hfind
    have hlt : i < 16 := by simpa using hi
    refine .inl ⟨i, hlt, rfl, ?_⟩
    rw [tvinGetSourcePortBySourceInput_ofNat hlt]
    simpa using hport

/-- **The search inverts the map**: on an HDMI port it finds exactly the HDMI source there. -/
theorem tvinPortToSourceInput_eq_iff (hp : tv.OwnsHdmiPorts) {source : SourceInput}
    (hs : source ∈ hdmiSources) {port : TvinPort} (hport : port ∈ hdmiPorts) :
    tv.tvinPortToSourceInput port = source ↔
      tv.tvinGetSourcePortBySourceInput source = port := by
  have hindex : ∃ i, i < 16 ∧ source = Int32.ofNat i := by
    simp only [hdmiSources, List.mem_cons, List.not_mem_nil, or_false] at hs
    rcases hs with rfl | rfl | rfl | rfl
    exacts [⟨5, by decide, rfl⟩, ⟨6, by decide, rfl⟩, ⟨7, by decide, rfl⟩, ⟨8, by decide, rfl⟩]
  rcases tv.tvinPortToSourceInput_cases port with ⟨i, -, hfound, hon⟩ | ⟨hnone, hempty⟩
  · rw [hfound]
    constructor
    · rintro rfl
      exact hon
    · intro hsource
      -- the source that was found is on an HDMI port, which no other source is on
      have hi : Int32.ofNat i ∈ hdmiSources := by
        by_contra hother
        exact hp.others _ hother (hon ▸ hport)
      exact List.inj_on_of_nodup_map hp.nodup hi hs (hon.trans hsource.symm)
  · obtain ⟨i, hi, rfl⟩ := hindex
    refine iff_of_false (fun hmax => ?_) (hempty i hi)
    rw [hnone] at hmax
    exact absurd (hmax ▸ hs) (by decide)

/-! ## Bits -/

/-- The HDMI ports with their bits of the status, in the order of the blocks. -/
def hdmiDetectPorts : List (TvinPort × Int32) :=
  [(tvinPortHdmi0, hdmiDetectStatusBitA), (tvinPortHdmi1, hdmiDetectStatusBitB),
    (tvinPortHdmi2, hdmiDetectStatusBitC), (tvinPortHdmi3, hdmiDetectStatusBitD)]

/-- What a status says about a source. -/
def plugStatus (tv : CTv) (source : SourceInput) (hdmiStatus : Int32) : Int32 :=
  let bit := tv.sourceInputMaptoChipHdmiPort source
  if hdmiStatus &&& bit = bit then sourcePlugIn else sourcePlugOut

theorem onHdmiDetect_fst (detect : CTvDevicesPollDetect) (hdmiStatus : Int32) :
    (tv.onHdmiDetect detect hdmiStatus).1 =
      hdmiDetectPorts.flatMap fun p => tv.detectHdmi detect hdmiStatus p.2 := by
  simp [onHdmiDetect, hdmiDetectPorts]

theorem chipHdmiPortMaptoSourceInput_eq {p : TvinPort × Int32} (hp : p ∈ hdmiDetectPorts) :
    tv.chipHdmiPortMaptoSourceInput p.2 = tv.tvinPortToSourceInput p.1 := by
  simp only [hdmiDetectPorts, List.mem_cons, List.not_mem_nil, or_false] at hp
  rcases hp with rfl | rfl | rfl | rfl <;> rfl

theorem sourceInputMaptoChipHdmiPort_eq {p : TvinPort × Int32} (hp : p ∈ hdmiDetectPorts)
    {source : SourceInput} (hport : tv.tvinGetSourcePortBySourceInput source = p.1) :
    tv.sourceInputMaptoChipHdmiPort source = p.2 := by
  simp only [hdmiDetectPorts, List.mem_cons, List.not_mem_nil, or_false] at hp
  rw [sourceInputMaptoChipHdmiPort, hport]
  rcases hp with rfl | rfl | rfl | rfl <;> rfl

theorem fst_mem_hdmiPorts {p : TvinPort × Int32} (hp : p ∈ hdmiDetectPorts) :
    p.1 ∈ hdmiPorts := List.mem_map_of_mem (f := Prod.fst) hp

/-- A port has one bit, which is set in a status or is not. -/
theorem and_bit {p : TvinPort × Int32} (hp : p ∈ hdmiDetectPorts) (hdmiStatus : Int32) :
    hdmiStatus &&& p.2 = 0 ∨ hdmiStatus &&& p.2 = p.2 := by
  have hbit : ∃ i, p.2.toBitVec = BitVec.twoPow 32 i := by
    simp only [hdmiDetectPorts, List.mem_cons, List.not_mem_nil, or_false] at hp
    rcases hp with rfl | rfl | rfl | rfl
    exacts [⟨0, rfl⟩, ⟨1, rfl⟩, ⟨2, rfl⟩, ⟨3, rfl⟩]
  obtain ⟨i, hi⟩ := hbit
  have hand : (hdmiStatus &&& p.2).toBitVec =
      if hdmiStatus.toBitVec.getLsbD i then p.2.toBitVec else 0 := by
    rw [Int32.toBitVec_and, hi, BitVec.and_twoPow]
    rfl
  split at hand
  · exact .inr (Int32.toBitVec_inj.mp hand)
  · exact .inl (Int32.toBitVec_inj.mp hand)

/-- The bit of a port changes exactly where what it says changes. -/
theorem and_bit_ne_iff {p : TvinPort × Int32} (hp : p ∈ hdmiDetectPorts) (last status : Int32) :
    status &&& p.2 ≠ last &&& p.2 ↔
      (if status &&& p.2 = p.2 then sourcePlugIn else sourcePlugOut) ≠
        if last &&& p.2 = p.2 then sourcePlugIn else sourcePlugOut := by
  have hzero : (0 : Int32) ≠ p.2 := by
    simp only [hdmiDetectPorts, List.mem_cons, List.not_mem_nil, or_false] at hp
    rcases hp with rfl | rfl | rfl | rfl <;> decide
  have hplug : sourcePlugIn ≠ sourcePlugOut := by decide
  rcases and_bit hp status with hs | hs <;> rcases and_bit hp last with hl | hl <;>
    simp [hs, hl, hzero, hzero.symm, hplug, hplug.symm]

/-! ## Reports -/

/-- The plug that a call reports for a source. -/
def plugOf (source : SourceInput) : Command → Option Int32
  | .sourceConnect s plug => if s = source then some plug else none
  | _ => none

/-- An HDMI source that is found by the search for its port. -/
structure OwnsPort (tv : CTv) (source : SourceInput) : Prop where
  mem : tv.tvinGetSourcePortBySourceInput source ∈ hdmiPorts
  found : tv.tvinPortToSourceInput (tv.tvinGetSourcePortBySourceInput source) = source

theorem OwnsHdmiPorts.ownsPort (hp : tv.OwnsHdmiPorts) {source : SourceInput}
    (hs : source ∈ hdmiSources) : tv.OwnsPort source :=
  ⟨hp.mem source hs, (tvinPortToSourceInput_eq_iff hp hs (hp.mem source hs)).mpr rfl⟩

/-- The source of a bit is one that is on its port. -/
theorem port_of_chipHdmiPortMaptoSourceInput {source : SourceInput} (hs : source ∈ hdmiSources)
    {p : TvinPort × Int32} (hmem : p ∈ hdmiDetectPorts)
    (hbit : tv.chipHdmiPortMaptoSourceInput p.2 = source) :
    tv.tvinGetSourcePortBySourceInput source = p.1 := by
  rw [chipHdmiPortMaptoSourceInput_eq hmem] at hbit
  rcases tv.tvinPortToSourceInput_cases p.1 with ⟨i, -, hfound, hon⟩ | ⟨hnone, -⟩
  · rw [← hbit, hfound, hon]
  · rw [hnone] at hbit
    exact absurd (hbit ▸ hs) (by decide)

/-- The block of a port reports its source where the bit changes, and no other source. -/
theorem plugOf_detectHdmi {source : SourceInput} (hp : tv.OwnsPort source)
    (hs : source ∈ hdmiSources) {p : TvinPort × Int32} (hmem : p ∈ hdmiDetectPorts)
    {detect : CTvDevicesPollDetect} (hobserver : detect.mpObserver = true) (hdmiStatus : Int32) :
    (tv.detectHdmi detect hdmiStatus p.2).filterMap (plugOf source) =
      if tv.tvinGetSourcePortBySourceInput source = p.1 ∧
        tv.plugStatus source hdmiStatus ≠ tv.plugStatus source detect.mHdmiStatus then
        [tv.plugStatus source hdmiStatus]
      else [] := by
  have howner : tv.chipHdmiPortMaptoSourceInput p.2 = source ↔
      tv.tvinGetSourcePortBySourceInput source = p.1 := by
    refine ⟨port_of_chipHdmiPortMaptoSourceInput hs hmem, fun hport => ?_⟩
    rw [chipHdmiPortMaptoSourceInput_eq hmem, ← hport]
    exact hp.found
  by_cases hport : tv.tvinGetSourcePortBySourceInput source = p.1
  · have hbit := sourceInputMaptoChipHdmiPort_eq hmem hport
    have hchanged := and_bit_ne_iff hmem detect.mHdmiStatus hdmiStatus
    simp only [plugStatus, hbit, hport, true_and, ← hchanged, detectHdmi, notifyConnect,
      hobserver, if_true, howner.mpr hport]
    split <;> simp [plugOf]
  · rw [if_neg fun h => hport h.1, detectHdmi]
    split
    · simp [notifyConnect, hobserver, plugOf, mt howner.mp hport]
    · rfl

/-- The blocks together report a source that owns its port. -/
theorem plugOf_onHdmiDetect_of_ownsPort {source : SourceInput} (hp : tv.OwnsPort source)
    (hs : source ∈ hdmiSources) {detect : CTvDevicesPollDetect}
    (hobserver : detect.mpObserver = true) (hdmiStatus : Int32) :
    (tv.onHdmiDetect detect hdmiStatus).1.filterMap (plugOf source) =
      if tv.plugStatus source hdmiStatus = tv.plugStatus source detect.mHdmiStatus then []
      else [tv.plugStatus source hdmiStatus] := by
  have hblock : ∀ p ∈ hdmiDetectPorts, _ := fun p hmem =>
    plugOf_detectHdmi hp hs hmem hobserver hdmiStatus
  have hport := hp.mem
  simp only [hdmiDetectPorts, List.forall_mem_cons] at hblock
  simp only [hdmiPorts, List.mem_cons, List.not_mem_nil, or_false] at hport
  obtain ⟨hA, hB, hC, hD, -⟩ := hblock
  simp only [onHdmiDetect, List.filterMap_append, hA, hB, hC, hD]
  -- the source is on one of the four ports, whose block alone may report it
  rcases hport with h | h | h | h <;> rw [h] <;>
    simp [tvinPortHdmi0, tvinPortHdmi1, tvinPortHdmi2, tvinPortHdmi3]

theorem plugOf_onHdmiDetect (hp : tv.OwnsHdmiPorts) {source : SourceInput}
    (hs : source ∈ hdmiSources) {detect : CTvDevicesPollDetect}
    (hobserver : detect.mpObserver = true) (hdmiStatus : Int32) :
    (tv.onHdmiDetect detect hdmiStatus).1.filterMap (plugOf source) =
      if tv.plugStatus source hdmiStatus = tv.plugStatus source detect.mHdmiStatus then []
      else [tv.plugStatus source hdmiStatus] :=
  plugOf_onHdmiDetect_of_ownsPort (hp.ownsPort hs) hs hobserver hdmiStatus

/-- The blocks for the AV sources report no HDMI source. -/
theorem plugOf_detectAvin {source : SourceInput} (hs : source ∈ hdmiSources)
    (detect : CTvDevicesPollDetect) (last status : AvinReport) :
    (detectAvin detect last status).filterMap (plugOf source) = [] := by
  have hav : sourceAv1 ≠ source ∧ sourceAv2 ≠ source ∧ -1 ≠ source := by
    simp only [hdmiSources, List.mem_cons, List.not_mem_nil, or_false] at hs
    rcases hs with rfl | rfl | rfl | rfl <;> decide
  obtain ⟨hav1, hav2, hnone⟩ := hav
  unfold detectAvin notifyConnect
  dsimp only
  split_ifs <;> simp [plugOf, hav1, hav2, hnone]

/-- Events of the other devices report no HDMI source. -/
theorem plugOf_threadLoopStep {source : SourceInput} (hs : source ∈ hdmiSources)
    (detect : CTvDevicesPollDetect) {event : PollEvent} (hevent : ∀ status, event ≠ .hdmi status) :
    (tv.threadLoopStep detect event).1.filterMap (plugOf source) = [] := by
  cases event with
  | avin status => simp [threadLoopStep, onAvinDetect, plugOf_detectAvin hs]
  | hdmi hdmiStatus => exact absurd rfl (hevent hdmiStatus)
  | vdin =>
    rw [threadLoopStep]
    split <;> rfl

/-- **The thread reports the plugs** of an HDMI source that owns its port. -/
theorem threadLoopStep_reports_of_ownsPort {source : SourceInput} (hp : tv.OwnsPort source)
    (hs : source ∈ hdmiSources) :
    Sensor.Reports tv.threadLoopStep (fun detect => detect.mpObserver = true) (plugOf source)
      (fun detect => tv.plugStatus source detect.mHdmiStatus) where
  inv detect event hobserver := by cases event <;> exact hobserver
  report detect event hobserver := by
    cases event with
    | avin status => exact (plugOf_threadLoopStep hs detect (by simp)).trans (if_pos rfl).symm
    | hdmi hdmiStatus => exact plugOf_onHdmiDetect_of_ownsPort hp hs hobserver hdmiStatus
    | vdin => exact (plugOf_threadLoopStep hs detect (by simp)).trans (if_pos rfl).symm

theorem threadLoopStep_reports (hp : tv.OwnsHdmiPorts) {source : SourceInput}
    (hs : source ∈ hdmiSources) :
    Sensor.Reports tv.threadLoopStep (fun detect => detect.mpObserver = true) (plugOf source)
      (fun detect => tv.plugStatus source detect.mHdmiStatus) :=
  threadLoopStep_reports_of_ownsPort (hp.ownsPort hs) hs

/-- Where the ports are distinct each has its source. -/
theorem exists_source_of_hdmiPort (hp : tv.DistinctHdmiPorts) {port : TvinPort}
    (hport : port ∈ hdmiPorts) :
    ∃ source ∈ hdmiSources, tv.tvinGetSourcePortBySourceInput source = port := by
  have hsub : hdmiSources.map tv.tvinGetSourcePortBySourceInput ⊆ hdmiPorts := by
    intro port hmem
    obtain ⟨source, hs, rfl⟩ := List.mem_map.mp hmem
    exact hp.mem source hs
  have hperm := (List.subperm_of_subset hp.nodup hsub).perm_of_length_le
    (by rw [List.length_map]; rfl)
  exact List.mem_map.mp (hperm.mem_iff.mpr hport)

/-- The source that a call is about. -/
def connectSource : Command → Option SourceInput
  | .sourceConnect source _ => some source
  | _ => none

/-- The calls for a status are about the sources on the ports whose bits change, in order. -/
theorem connectSource_onHdmiDetect (hp : tv.OwnsHdmiPorts) {detect : CTvDevicesPollDetect}
    (hobserver : detect.mpObserver = true) (hdmiStatus : Int32) :
    ((tv.onHdmiDetect detect hdmiStatus).1.filterMap connectSource).map
        tv.tvinGetSourcePortBySourceInput =
      (hdmiDetectPorts.filter fun p =>
        hdmiStatus &&& p.2 ≠ detect.mHdmiStatus &&& p.2).map Prod.fst := by
  have howner : ∀ p ∈ hdmiDetectPorts,
      tv.tvinGetSourcePortBySourceInput (tv.chipHdmiPortMaptoSourceInput p.2) = p.1 := by
    intro p hmem
    have hport := fst_mem_hdmiPorts hmem
    obtain ⟨source, hs, hsource⟩ := exists_source_of_hdmiPort hp.toDistinctHdmiPorts hport
    rw [chipHdmiPortMaptoSourceInput_eq hmem,
      (tvinPortToSourceInput_eq_iff hp hs hport).mpr hsource]
    exact hsource
  have hblock : ∀ p ∈ hdmiDetectPorts,
      ((tv.detectHdmi detect hdmiStatus p.2).filterMap connectSource).map
          tv.tvinGetSourcePortBySourceInput =
        if hdmiStatus &&& p.2 ≠ detect.mHdmiStatus &&& p.2 then [p.1] else [] := by
    intro p hmem
    rw [detectHdmi]
    split
    · simp [notifyConnect, hobserver, connectSource, howner p hmem]
    · rfl
  rw [onHdmiDetect_fst]
  generalize hdmiDetectPorts = ports at hblock
  induction ports with
  | nil => rfl
  | cons p ports ih =>
    obtain ⟨hp, hports⟩ := List.forall_mem_cons.mp hblock
    rw [List.flatMap_cons, List.filterMap_append, List.map_append, hp, ih hports,
      List.filter_cons]
    by_cases hchanged : hdmiStatus &&& p.2 ≠ detect.mHdmiStatus &&& p.2 <;> simp [hchanged]

/-! ## Agreement -/

/-- The HDMI status that was read last. -/
def lastHdmiStatus (hdmiStatus : Int32) (events : List PollEvent) : Int32 :=
  (events.filterMap PollEvent.hdmiStatus).getLast?.getD hdmiStatus

theorem mHdmiStatus_state (detect : CTvDevicesPollDetect) (events : List PollEvent) :
    (Sensor.state tv.threadLoopStep detect events).mHdmiStatus =
      lastHdmiStatus detect.mHdmiStatus events := by
  induction events generalizing detect with
  | nil => rfl
  | cons event events ih =>
    refine (ih _).trans ?_
    cases event with
    | hdmi hdmiStatus => simp [lastHdmiStatus, threadLoopStep, onHdmiDetect, PollEvent.hdmiStatus,
        List.getLast?_cons]
    | _ => rfl

theorem getSourceConnectStatus_eq {ans : Answers} {source : SourceInput}
    (hs : source ∈ hdmiSources) :
    tv.getSourceConnectStatus ans source = some (tv.plugStatus source ans.hdmiStatus) := by
  simp only [hdmiSources, List.mem_cons, List.not_mem_nil, or_false] at hs
  rcases hs with rfl | rfl | rfl | rfl <;> rfl

/-- **Calls and answers agree.** If the HDMI sources, and no others, are on different HDMI ports,
then whatever the status at the beginning and whatever is read then, for each HDMI source: the
calls alternate between plugged in and plugged out; a status is followed by a call exactly if it
changes the bit of the port, and the calls for one status are in the order of the ports; and who
asks for the source with the last status is answered the plug of the last call, or what the status
at the beginning says if there was no call. -/
theorem hotplug_agrees (hp : tv.OwnsHdmiPorts) {source : SourceInput} (hs : source ∈ hdmiSources)
    (ans : Answers) (avinStatus : AvinReport × AvinReport) (initial : Int32)
    (events : List PollEvent) :
    let detect := CTvDevicesPollDetect.new.setObserver.initStatus avinStatus initial
    let plugs := (tv.threadLoop detect events).filterMap (plugOf source)
    let asked := fun status => tv.getSourceConnectStatus { ans with hdmiStatus := status } source
    (plugs.IsChain (· ≠ ·) ∧ ∀ plug ∈ plugs, plug = sourcePlugIn ∨ plug = sourcePlugOut) ∧
    (∀ pre event post, events = pre ++ event :: post →
      let last := lastHdmiStatus initial pre
      let calls := (tv.threadLoopStep (Sensor.state tv.threadLoopStep detect pre) event).1
      match event with
      | .hdmi status =>
        (∀ p ∈ hdmiDetectPorts, tv.tvinGetSourcePortBySourceInput source = p.1 →
          calls.filterMap (plugOf source) =
            if status &&& p.2 ≠ last &&& p.2 then
              [if status &&& p.2 = p.2 then sourcePlugIn else sourcePlugOut]
            else []) ∧
        (calls.filterMap connectSource).map tv.tvinGetSourcePortBySourceInput =
          (hdmiDetectPorts.filter fun p => status &&& p.2 ≠ last &&& p.2).map Prod.fst
      | _ => calls.filterMap (plugOf source) = []) ∧
    asked (lastHdmiStatus initial events) = plugs.getLast?.or (asked initial) := by
  intro detect plugs asked
  have hreports := threadLoopStep_reports hp hs
  have hdetect : detect.mpObserver = true := rfl
  refine ⟨⟨(hreports.alternates hdetect events).tail, ?_⟩, ?_, ?_⟩
  · intro plug hplug
    obtain ⟨state, rfl⟩ := hreports.exists_of_mem hdetect hplug
    dsimp only [plugStatus]
    split
    · exact .inl rfl
    · exact .inr rfl
  · rintro pre event post -
    let state := Sensor.state tv.threadLoopStep detect pre
    have hobserver : state.mpObserver = true :=
      Machine.run_invariant _ (fun s x => hreports.inv s x) hdetect pre
    have hlast : state.mHdmiStatus = lastHdmiStatus initial pre := mHdmiStatus_state detect pre
    cases event with
    | avin status => exact plugOf_threadLoopStep hs state (by simp)
    | vdin => exact plugOf_threadLoopStep hs state (by simp)
    | hdmi status =>
      rw [← hlast]
      refine ⟨fun p hmem hport => ?_, connectSource_onHdmiDetect hp hobserver status⟩
      have hbit := sourceInputMaptoChipHdmiPort_eq hmem hport
      have hchanged := and_bit_ne_iff hmem state.mHdmiStatus status
      refine (plugOf_onHdmiDetect hp hs hobserver status).trans ?_
      simp only [plugStatus, hbit, hchanged, ne_eq, ite_not]
  · have hlast : plugs.getLast?.getD (tv.plugStatus source initial) =
        tv.plugStatus source (lastHdmiStatus initial events) :=
      (hreports.getLast hdetect events).trans
        (congrArg (tv.plugStatus source) (mHdmiStatus_state detect events))
    simp only [asked, getSourceConnectStatus_eq hs]
    rw [← hlast]
    cases plugs.getLast? <;> rfl

/-- Outside the range of the map there is no port, so that the entries of the map decide which
sources are on HDMI ports. -/
theorem ownsHdmiPorts_of_map (hp : tv.DistinctHdmiPorts)
    (hothers : ∀ i : Fin 16, Int32.ofNat i ∉ hdmiSources →
      tv.mSourceInputToPortMap[i] ∉ hdmiPorts) : tv.OwnsHdmiPorts := by
  refine ⟨hp, fun source hs => ?_⟩
  rw [tvinGetSourcePortBySourceInput]
  split
  · rename_i hrange
    have hnonneg : 0 ≤ source.toInt := Int32.le_iff_toInt_le.mp hrange.1
    have hindex : Int32.ofNat source.toInt.toNat = source := by
      rw [← Int32.ofInt_eq_ofNat, Int.toNat_of_nonneg hnonneg, Int32.ofInt_toInt]
    exact hothers ⟨source.toInt.toNat, hrange.2⟩ (by rwa [hindex])
  · decide

/-- On the default ports `HDMI2` has the third bit, which is set and then cleared. -/
theorem hotplug_agrees_default_ports :
    let ans := Answers.granting 0 noSignalInfo
    let tv := construct ans ⟨fun _ => none, none, true, true, sourceInvalid⟩
    let detect := CTvDevicesPollDetect.new.setObserver.initStatus ans.avinReports 0
    (tv.threadLoop detect [.hdmi 4, .hdmi 0]).filterMap (plugOf sourceHdmi2) =
        [sourcePlugIn, sourcePlugOut] ∧
      tv.getSourceConnectStatus { ans with hdmiStatus := 0 } sourceHdmi2 = some sourcePlugOut := by
  intro ans tv detect
  have hdistinct : tv.DistinctHdmiPorts := by
    refine ⟨?_, by decide +kernel⟩
    simp only [hdmiSources, List.forall_mem_cons, List.not_mem_nil, false_imp_iff, implies_true]
    decide +kernel
  have hports : tv.OwnsHdmiPorts := ownsHdmiPorts_of_map hdistinct (by decide +kernel)
  have hplugs : (tv.threadLoop detect [.hdmi 4, .hdmi 0]).filterMap (plugOf sourceHdmi2) =
      [sourcePlugIn, sourcePlugOut] := by decide +kernel
  have hs : sourceHdmi2 ∈ hdmiSources := by decide
  obtain ⟨-, -, hasked⟩ := hotplug_agrees hports hs ans ans.avinReports 0 [.hdmi 4, .hdmi 0]
  rw [hplugs] at hasked
  exact ⟨hplugs, hasked⟩

end CTv
