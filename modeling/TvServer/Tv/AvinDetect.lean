import Mathlib.Tactic.Tauto
import TvServer.Tv.PollDetect

/-!
# The AV channels

A report of the AV device has two slots, each with a channel and its status. The thread compares
the status of each slot with the one that was in the slot before, while a plug belongs to the
channel that is in the slot now, and there are two ways for a channel to be plugged out. The two
views agree as long as a status changes only from or to that of a plug, and the channels change
their slots only where both are plugged in or both are not.

## Main definitions

* `ChannelReports`: a report that lists both channels
* `FollowsChannels`: the calls for a report are those for the channels whose plug changed
* `KeepsPlugs`: what a report may change

## Main results

* `followsChannels_iff`: the reports whose calls follow the channels
* `followsPlugs_iff`: the sequences of reports whose calls follow the channels and alternate
-/

namespace CTv

/-! ## Reports -/

def avinStatusOut : UInt32 := 1

def avinStatusUnknow : UInt32 := 2

theorem avinChannel1_ne_avinChannel2 : avinChannel1 ≠ avinChannel2 := by decide

/-- Each channel is in one of the slots. -/
def ListsChannels (status : AvinReport × AvinReport) : Prop :=
  (status.1.channel = avinChannel1 ∧ status.2.channel = avinChannel2) ∨
    (status.1.channel = avinChannel2 ∧ status.2.channel = avinChannel1)

instance (status : AvinReport × AvinReport) : Decidable (ListsChannels status) :=
  inferInstanceAs (Decidable (_ ∨ _))

/-- A report that lists both channels, in either order. -/
abbrev ChannelReports : Type := { status : AvinReport × AvinReport // ListsChannels status }

/-- The channels with their sources. -/
def avinSources : List (UInt32 × SourceInput) :=
  [(avinChannel1, sourceAv1), (avinChannel2, sourceAv2)]

/-- The plug of a status: everything but `AVIN_STATUS_IN` is plugged out. -/
def avinPlug (status : UInt32) : Int32 :=
  if status = avinStatusIn then sourcePlugIn else sourcePlugOut

/-- The status of a channel in a report. -/
def channelStatus (status : AvinReport × AvinReport) (channel : UInt32) : UInt32 :=
  if status.1.channel = channel then status.1.status else status.2.status

/-- The plug of a channel in a report. -/
def channelPlug (status : AvinReport × AvinReport) (channel : UInt32) : Int32 :=
  avinPlug (channelStatus status channel)

theorem avinPlug_eq_iff (a b : UInt32) :
    avinPlug a = avinPlug b ↔ (a = avinStatusIn ↔ b = avinStatusIn) := by
  have hplug : sourcePlugIn ≠ sourcePlugOut := by decide
  rw [avinPlug, avinPlug]
  split_ifs with ha hb hb
  · exact iff_of_true rfl (iff_of_true ha hb)
  · exact iff_of_false hplug fun h => hb (h.mp ha)
  · exact iff_of_false hplug.symm fun h => ha (h.mpr hb)
  · exact iff_of_true rfl (iff_of_false ha hb)

/-! ## Calls -/

/-- The thread at a report of the AV device. -/
def avinStep (detect : CTvDevicesPollDetect) (status : ChannelReports) :
    List Command × CTvDevicesPollDetect := onAvinDetect detect status.val

/-- The calls for a report are those for the channels whose plug is another than before, each with
the new plug. -/
def FollowsChannels (detect : CTvDevicesPollDetect) (status : ChannelReports) : Prop :=
  ∀ p ∈ avinSources, Sensor.ReportsAt avinStep (plugOf p.2)
    (fun detect => channelPlug detect.mAvinStatus p.1) detect status

/-- The source of a channel. -/
def avinSource (channel : UInt32) : SourceInput :=
  if channel = avinChannel1 then sourceAv1
  else if channel = avinChannel2 then sourceAv2
  else -1

theorem avinSource_eq_iff {p : UInt32 × SourceInput} (hp : p ∈ avinSources) (channel : UInt32) :
    avinSource channel = p.2 ↔ channel = p.1 := by
  have hchannels := avinChannel1_ne_avinChannel2
  simp only [avinSources, List.mem_cons, List.not_mem_nil, or_false] at hp
  rw [avinSource]
  rcases hp with rfl | rfl
  · split_ifs with h₁ h₂
    · exact iff_of_true rfl h₁
    · exact iff_of_false (by decide) h₁
    · exact iff_of_false (by decide) h₁
  · split_ifs with h₁ h₂
    · exact iff_of_false (by decide) fun h => hchannels (h₁.symm.trans h)
    · exact iff_of_true rfl h₂
    · exact iff_of_false (by decide) h₂

theorem detectAvin_eq {detect : CTvDevicesPollDetect} (hobserver : detect.mpObserver = true)
    (last status : AvinReport) :
    detectAvin detect last status = if status.status ≠ last.status then
      [.sourceConnect (avinSource status.channel) (avinPlug status.status)] else [] := by
  rw [detectAvin]
  dsimp only [notifyConnect]
  rw [if_pos hobserver]
  rfl

/-- A slot calls for the channel that is in it now, if its status is another than before. -/
theorem plugOf_detectAvin_eq {detect : CTvDevicesPollDetect} (hobserver : detect.mpObserver = true)
    (last status : AvinReport) {p : UInt32 × SourceInput} (hp : p ∈ avinSources) :
    (detectAvin detect last status).filterMap (plugOf p.2) =
      if status.channel = p.1 ∧ status.status ≠ last.status then [avinPlug status.status]
      else [] := by
  rw [detectAvin_eq hobserver]
  by_cases hchanged : status.status ≠ last.status
  · by_cases hchannel : status.channel = p.1
    · rw [if_pos hchanged, if_pos ⟨hchannel, hchanged⟩]
      simp [plugOf, (avinSource_eq_iff hp _).mpr hchannel]
    · rw [if_pos hchanged, if_neg fun h => hchannel h.1]
      simp [plugOf, mt (avinSource_eq_iff hp _).mp hchannel]
  · rw [if_neg hchanged, if_neg fun h => hchanged h.2]
    rfl

/-- A slot calls as its channel needs it: its status is another than that in the slot before,
exactly if the channel has another plug than before. -/
def SlotFollows (status last before : UInt32) : Prop :=
  status ≠ last ↔ ¬ (status = avinStatusIn ↔ before = avinStatusIn)

theorem slotFollows_iff (status last before : UInt32) :
    (if status ≠ last then [avinPlug status] else []) =
      (if avinPlug status = avinPlug before then [] else [avinPlug status]) ↔
      SlotFollows status last before := by
  rw [SlotFollows, ← avinPlug_eq_iff]
  split_ifs with hchanged hplug hplug <;> simp [hchanged, hplug]

/-- The slots have different channels. -/
theorem channel_snd_iff (status : ChannelReports) {p : UInt32 × SourceInput}
    (hp : p ∈ avinSources) :
    status.val.2.channel = p.1 ↔ ¬ status.val.1.channel = p.1 := by
  have hchannels := avinChannel1_ne_avinChannel2
  simp only [avinSources, List.mem_cons, List.not_mem_nil, or_false] at hp
  rcases status.property with ⟨h₁, h₂⟩ | ⟨h₁, h₂⟩ <;> rcases hp with rfl | rfl <;>
    simp [h₁, h₂, hchannels, hchannels.symm]

/-- The calls for a channel are those of the slot that it is in. -/
theorem reportsAt_iff {detect : CTvDevicesPollDetect} (hobserver : detect.mpObserver = true)
    (status : ChannelReports) {p : UInt32 × SourceInput} (hp : p ∈ avinSources) :
    Sensor.ReportsAt avinStep (plugOf p.2) (fun detect => channelPlug detect.mAvinStatus p.1)
        detect status ↔
      if status.val.1.channel = p.1 then
        SlotFollows status.val.1.status detect.mAvinStatus.1.status
          (channelStatus detect.mAvinStatus p.1)
      else
        SlotFollows status.val.2.status detect.mAvinStatus.2.status
          (channelStatus detect.mAvinStatus p.1) := by
  rw [Sensor.ReportsAt, avinStep, onAvinDetect, List.filterMap_append,
    plugOf_detectAvin_eq hobserver detect.mAvinStatus.1 status.val.1 hp,
    plugOf_detectAvin_eq hobserver detect.mAvinStatus.2 status.val.2 hp]
  dsimp only [channelPlug]
  have hslots := channel_snd_iff status hp
  by_cases hfirst : status.val.1.channel = p.1
  · have hsecond : ¬ status.val.2.channel = p.1 := fun h => hslots.mp h hfirst
    have hstatus : channelStatus status.val p.1 = status.val.1.status := if_pos hfirst
    rw [if_pos hfirst, ← slotFollows_iff]
    simp [hfirst, hsecond, hstatus]
  · have hsecond : status.val.2.channel = p.1 := hslots.mpr hfirst
    have hstatus : channelStatus status.val p.1 = status.val.2.status := if_neg hfirst
    rw [if_neg hfirst, ← slotFollows_iff]
    simp [hfirst, hsecond, hstatus]

/-! ## What may change -/

/-- A status stays, or is changed from or to that of a plug. -/
def PlugChange (status last : UInt32) : Prop :=
  status = last ∨ status = avinStatusIn ∨ last = avinStatusIn

/-- A report changes statuses only from or to that of a plug, and it changes the slots of the
channels only where both are plugged in or both are not. -/
def KeepsPlugs (detect : CTvDevicesPollDetect) (status : ChannelReports) : Prop :=
  PlugChange status.val.1.status detect.mAvinStatus.1.status ∧
    PlugChange status.val.2.status detect.mAvinStatus.2.status ∧
    (status.val.1.channel = detect.mAvinStatus.1.channel ∨
      (detect.mAvinStatus.1.status = avinStatusIn ↔ detect.mAvinStatus.2.status = avinStatusIn))

/-- Where a channel was in the slot before, the slot needs no more than a change of its plug. -/
theorem slotFollows_self_iff (status last : UInt32) :
    SlotFollows status last last ↔ PlugChange status last := by
  rw [SlotFollows, PlugChange]
  by_cases hsame : status = last
  · simp [hsame]
  · -- not both are plugged in, or they were the same
    have hnot : ¬ (status = avinStatusIn ∧ last = avinStatusIn) :=
      fun h => hsame (h.1.trans h.2.symm)
    tauto

/-- Where the channels change their slots, they have to be plugged in both or not at all. -/
theorem slotFollows_swapped_iff (status₁ status₂ last₁ last₂ : UInt32) :
    SlotFollows status₁ last₁ last₂ ∧ SlotFollows status₂ last₂ last₁ ↔
      PlugChange status₁ last₁ ∧ PlugChange status₂ last₂ ∧
        (last₁ = avinStatusIn ↔ last₂ = avinStatusIn) := by
  by_cases hlast : last₁ = avinStatusIn ↔ last₂ = avinStatusIn
  · have hswap₁ : SlotFollows status₁ last₁ last₂ ↔ SlotFollows status₁ last₁ last₁ := by
      rw [SlotFollows, SlotFollows, hlast]
    have hswap₂ : SlotFollows status₂ last₂ last₁ ↔ SlotFollows status₂ last₂ last₂ := by
      rw [SlotFollows, SlotFollows, hlast]
    rw [hswap₁, hswap₂, slotFollows_self_iff, slotFollows_self_iff, and_iff_left hlast]
  · refine iff_of_false (fun h => ?_) fun h => hlast h.2.2
    -- one channel was plugged in, and its slot is asked for a call exactly where it makes none
    obtain ⟨h₁, h₂⟩ := h
    rw [SlotFollows] at h₁ h₂
    by_cases hin : last₁ = avinStatusIn
    · have hout : last₂ ≠ avinStatusIn := fun h => hlast (iff_of_true hin h)
      rw [hin] at h₁
      tauto
    · have hin₂ : last₂ = avinStatusIn := by
        by_contra hout
        exact hlast (iff_of_false hin hout)
      rw [hin₂] at h₂
      tauto

/-- **Calls that follow the channels** are those for the reports that keep the plugs. -/
theorem followsChannels_iff {detect : CTvDevicesPollDetect} (hobserver : detect.mpObserver = true)
    (hlast : ListsChannels detect.mAvinStatus) (status : ChannelReports) :
    FollowsChannels detect status ↔ KeepsPlugs detect status := by
  have hchannels := avinChannel1_ne_avinChannel2
  rw [FollowsChannels, avinSources, List.forall_mem_cons, List.forall_mem_singleton,
    reportsAt_iff hobserver status List.mem_cons_self,
    reportsAt_iff hobserver status (List.mem_cons_of_mem _ List.mem_cons_self), KeepsPlugs]
  obtain ⟨status, hstatus⟩ := status
  dsimp only [channelStatus]
  -- the channels are in the slots of the last report, or have changed them
  rcases hlast with ⟨hl₁, hl₂⟩ | ⟨hl₁, hl₂⟩ <;> rcases hstatus with ⟨hs₁, hs₂⟩ | ⟨hs₁, hs₂⟩
  · simp only [hl₁, hs₁, hchannels, if_true, if_false, slotFollows_self_iff, true_or, and_true]
  · simp only [hl₁, hs₁, hchannels, hchannels.symm, if_true, if_false, false_or]
    rw [and_comm, slotFollows_swapped_iff]
  · simp only [hl₁, hs₁, hchannels, hchannels.symm, if_true, if_false, false_or]
    rw [slotFollows_swapped_iff]
  · simp only [hl₁, hs₁, hchannels.symm, if_true, if_false, slotFollows_self_iff, true_or,
      and_true]
    exact and_comm

/-! ## Sequences of reports -/

/-- A report is what the thread is handed for the AV device. -/
theorem outputs_avinStep (tv : CTv) (detect : CTvDevicesPollDetect)
    (reports : List ChannelReports) :
    Sensor.outputs avinStep detect reports =
      tv.threadLoop detect (reports.map fun status => .avin status.val) := by
  induction reports generalizing detect with
  | nil => rfl
  | cons status reports ih =>
    rw [Sensor.outputs, ih]
    rfl

/-- The calls follow the channels along a sequence of reports, and consecutive calls for a source
alternate. -/
def FollowsPlugs (tv : CTv) (detect : CTvDevicesPollDetect) (reports : List ChannelReports) :
    Prop :=
  Machine.Along (fun detect status => (avinStep detect status).2) FollowsChannels detect reports ∧
    ∀ p ∈ avinSources,
      ((tv.threadLoop detect (reports.map fun status => .avin status.val)).filterMap
        (plugOf p.2)).IsChain (· ≠ ·)

/-- **Sequences of reports** whose calls follow the channels, and alternate, are those all of whose
reports keep the plugs. -/
theorem followsPlugs_iff (tv : CTv) (initial : ChannelReports) (hdmiStatus : Int32)
    (reports : List ChannelReports) :
    let detect := CTvDevicesPollDetect.new.setObserver.initStatus initial.val hdmiStatus
    FollowsPlugs tv detect reports ↔
      Machine.Along (fun detect status => (avinStep detect status).2) KeepsPlugs
        detect reports := by
  intro detect
  have halong : Machine.Along (fun detect status => (avinStep detect status).2) FollowsChannels
      detect reports ↔ Machine.Along (fun detect status => (avinStep detect status).2) KeepsPlugs
        detect reports := by
    -- the thread keeps its observer, and records the report
    apply Machine.along_congr fun detect =>
      detect.mpObserver = true ∧ ListsChannels detect.mAvinStatus
    · exact fun detect status h _ => ⟨h.1, status.property⟩
    · exact fun detect status h => followsChannels_iff h.1 h.2 status
    · exact ⟨rfl, initial.property⟩
  rw [FollowsPlugs, ← halong]
  refine and_iff_left_of_imp fun hfollows p hp => ?_
  rw [← outputs_avinStep]
  exact (Sensor.alternates_of_along (Machine.along_of_imp
    (fun detect status h => h p hp) hfollows)).tail

/-- A channel that is plugged out is reported to be plugged out when its status is not known any
more. -/
theorem not_forall_followsPlugs :
    ¬ ∀ (tv : CTv) (initial : ChannelReports) (hdmiStatus : Int32) (reports : List ChannelReports),
      (∀ status ∈ initial :: reports, status.val.1.status ≤ avinStatusUnknow ∧
        status.val.2.status ≤ avinStatusUnknow) →
        FollowsPlugs tv (CTvDevicesPollDetect.new.setObserver.initStatus initial.val hdmiStatus)
          reports := by
  intro hall
  let tv := allocate ⟨fun _ => none, none, true, true, sourceTv⟩
  let initial : ChannelReports := ⟨(⟨avinChannel1, avinStatusOut⟩, ⟨avinChannel2, avinStatusOut⟩),
    .inl ⟨rfl, rfl⟩⟩
  let status : ChannelReports := ⟨(⟨avinChannel1, avinStatusUnknow⟩, ⟨avinChannel2, avinStatusOut⟩),
    .inl ⟨rfl, rfl⟩⟩
  have hfollows := hall tv initial 0 [status] (by decide)
  have hkeeps := ((followsPlugs_iff tv initial 0 [status]).mp hfollows).1
  have hchange : PlugChange avinStatusUnknow avinStatusOut := hkeeps.1
  rw [PlugChange] at hchange
  exact absurd hchange (by decide)

end CTv
