import TvServer.System.Interleavings
import TvServer.System.Notification
import TvServer.Tv.PollDetect

/-!
# Plugs at the clients

The whole way of a plug: the thread that waits for the devices reads a status, tells the television
object, the service broadcasts the event, and the wrapper of a client calls the application.
Meanwhile clients register, and send requests. Every client knows of each HDMI source what a look
at the device says, from its first call for the source on; and all clients are called for the same
events in the same order, those that registered later for the last ones.

## Main definitions

* `EpollEvent`: an event that a wait returned
* `PolledSystem`, `PolledSystem.step`: the thread, with the television object, the service and the
  clients
* `EventCallback.plug`: the plug of a source that a call tells the application

## Main results

* `called_suffix`: clients are called for the same events, from their registrations on
* `plugs_followed`: the calls for an HDMI source, and what is answered to one who asks
-/

/-- The plug of a source that a call tells the application. -/
def EventCallback.plug (source : SourceInput) : EventCallback → Option Int32
  | .signalDetect _ => none
  | .sourceConnect data => if data.sourceInput = source then some data.connectionState else none

namespace TvSystem

/-! ## The order of the calls -/

/-- Clients are called for the same events: the calls of a client are the last ones of each client
that registered before. -/
def Ordered (s : TvSystem) : Prop :=
  s.clients.Pairwise fun earlier later => later.called <:+ earlier.called

theorem ordered_step {s : TvSystem} (hfilled : s.Filled) (h : s.Ordered) (input : Input) :
    (s.step input).Ordered := by
  cases input with
  | register =>
    refine List.pairwise_append.mpr ⟨h, List.pairwise_singleton _ _, ?_⟩
    intro client _ new hnew
    rw [List.mem_singleton.mp hnew]
    exact List.nil_suffix
  | command x =>
    show (s.command x).Ordered
    rw [command_eq hfilled]
    refine List.pairwise_map.mpr (h.imp ?_)
    rintro earlier later ⟨before, hbefore⟩
    -- both are called for the events of the step
    exact ⟨before, by rw [TvClient.call, TvClient.call, ← hbefore, List.append_assoc]⟩

theorem filled_ordered_run (ans : Answers) (b : CTv.Boot) (inputs : List Input) :
    (Machine.run step (boot ans b) inputs).Filled ∧
      (Machine.run step (boot ans b) inputs).Ordered := by
  refine Machine.run_invariant (fun s : TvSystem => s.Filled ∧ s.Ordered) ?_ ?_ inputs
  · rintro s input ⟨hfilled, hordered⟩
    exact ⟨filled_step hfilled input, ordered_step hfilled hordered input⟩
  · exact ⟨filled_boot ans b, List.Pairwise.nil⟩

/-- **One order for all clients**: in every run of registrations and steps, what a client is called
for is the end of what each client is called for that registered before. -/
theorem called_suffix (ans : Answers) (b : CTv.Boot) (inputs : List Input) (i j : ℕ) :
    let s := Machine.run step (boot ans b) inputs
    ∀ earlier later, i ≤ j → s.clients[i]? = some earlier → s.clients[j]? = some later →
      later.called <:+ earlier.called := by
  intro s earlier later hij hearlier hlater
  have hordered : s.Ordered := (filled_ordered_run ans b inputs).2
  obtain ⟨hi, rfl⟩ := List.getElem?_eq_some_iff.mp hearlier
  obtain ⟨hj, rfl⟩ := List.getElem?_eq_some_iff.mp hlater
  rcases Nat.eq_or_lt_of_le hij with rfl | hlt
  · exact List.suffix_rfl
  · exact List.pairwise_iff_getElem.mp hordered i j hi hj hlt

/-- Two clients register before a plug. -/
theorem called_suffix_two :
    let ans := Answers.granting 0 CTv.noSignalInfo
    let b : CTv.Boot := ⟨fun _ => none, none, true, true, sourceInvalid⟩
    let plug := Input.command (.sourceConnect sourceHdmi1 1, ans)
    let s := Machine.run step (boot ans b) [.register, .register, plug]
    ∃ earlier later, s.clients[0]? = some earlier ∧ s.clients[1]? = some later ∧
      later.called <:+ earlier.called := by
  intro ans b plug s
  have hfilled : (boot ans b).register.register.Filled :=
    filled_register (filled_register (filled_boot ans b))
  have hearlier : s.clients[0]? = some _ := clients_run hfilled [plug] rfl
  have hlater : s.clients[1]? = some _ := clients_run hfilled [plug] rfl
  have hsuffix := called_suffix ans b [.register, .register, plug] 0 1
  exact ⟨_, _, hearlier, hlater, hsuffix _ _ (Nat.zero_le 1) hearlier hlater⟩

/-! ## The plugs of a run -/

/-- The plug of a source that an input is about. -/
def Input.plug (source : SourceInput) : Input → Option Int32
  | .register => none
  | .command x => CTv.plugOf source x.1

/-- The applications are called for the plugs that the television object is told, and for no
others. -/
theorem plug_callbacks (source : SourceInput) (tv : CTv) (inputs : List Input) :
    (callbacks tv inputs).filterMap (EventCallback.plug source) =
      inputs.filterMap (Input.plug source) := by
  induction inputs generalizing tv with
  | nil => rfl
  | cons input inputs ih =>
    cases input with
    | register => exact ih tv
    | command x =>
      have hsent : ((tv.sentEvents x).map TvClientWrapper.onTvClientEvent).filterMap
          (EventCallback.plug source) = [Input.command x].filterMap (Input.plug source) := by
        obtain ⟨command, ans⟩ := x
        cases command with
        | sourceConnect s plug => rfl
        | vdinSignalChange =>
          -- what is sent for a report is an event of the other kind
          cases hreport : tv.report ans with
          | none =>
            simp only [CTv.sentEvents, hreport]
            rfl
          | some info =>
            simp only [CTv.sentEvents, hreport, ReportView.reportEvents]
            split
            · rfl
            · rfl
        | _ => rfl
      rw [callbacks, List.filterMap_append, hsent, ih, ← List.filterMap_append,
        List.singleton_append]

end TvSystem

namespace CTv

variable {tv tv' : CTv}

/-- What the HDMI ports say depends on the ports of the sources alone. -/
theorem OwnsHdmiPorts.congr (hp : tv.OwnsHdmiPorts)
    (h : tv'.tvinGetSourcePortBySourceInput = tv.tvinGetSourcePortBySourceInput) :
    tv'.OwnsHdmiPorts := by
  refine ⟨⟨?_, ?_⟩, ?_⟩
  · rw [h]
    exact hp.mem
  · rw [h]
    exact hp.nodup
  · rw [h]
    exact hp.others

theorem plugStatus_congr
    (h : tv'.tvinGetSourcePortBySourceInput = tv.tvinGetSourcePortBySourceInput) :
    tv'.plugStatus = tv.plugStatus := by
  funext source hdmiStatus
  rw [plugStatus, plugStatus, sourceInputMaptoChipHdmiPort, sourceInputMaptoChipHdmiPort, h]

end CTv

/-- A run keeps the clients connected and the sources on their ports. -/
theorem TvSystem.filled_ports_run {s : TvSystem} (h : s.Filled) (inputs : List Input) :
    (Machine.run step s inputs).Filled ∧
      (Machine.run step s inputs).mpTv.tvinGetSourcePortBySourceInput =
        s.mpTv.tvinGetSourcePortBySourceInput := by
  refine Machine.run_invariant (fun s' : TvSystem => s'.Filled ∧
    s'.mpTv.tvinGetSourcePortBySourceInput = s.mpTv.tvinGetSourcePortBySourceInput) ?_ ⟨h, rfl⟩
    inputs
  rintro s' input ⟨hfilled, hports⟩
  refine ⟨filled_step hfilled input, ?_⟩
  cases input with
  | register => exact hports
  | command x =>
    have htv : (s'.command x).mpTv = s'.mpTv.step x := by rw [command_eq hfilled]
    rw [← hports]
    show (s'.command x).mpTv.tvinGetSourcePortBySourceInput = _
    rw [htv]
    funext source
    exact CTv.tvinGetSourcePortBySourceInput_of_touches (CTv.touches_step _ x) source

/-! ## The thread -/

/-- The descriptors of the devices that the thread waits for. -/
structure DetectFds where
  mAvinDetectFile : Int32
  mHdmiDetectFile : Int32
  mVdinDetectFd : Int32

/-- The event flag of a device that can be read. -/
def epollin : UInt32 := 0x001

/-- An event that a wait returned, with what the buffers hold behind a read of the device, and the
answers to the requests of the handlers. -/
structure EpollEvent where
  fd : Int32
  events : UInt32
  status : AvinReport × AvinReport
  hdmiStatus : Int32
  ans : Answers

/-- The device that an event is handled for; other events are passed over. -/
def EpollEvent.pollEvent (event : EpollEvent) (fds : DetectFds) : Option PollEvent :=
  if event.events &&& epollin ≠ 0 then
    if event.fd = fds.mAvinDetectFile then some (.avin event.status)
    else if event.fd = fds.mHdmiDetectFile then some (.hdmi event.hdmiStatus)
    else if event.fd = fds.mVdinDetectFd then some .vdin
    else none
  else none

/-- The thread that waits for the devices, with the system that it tells. -/
structure PolledSystem extends TvSystem where
  fds : DetectFds
  mTvDevicesPollDetect : CTvDevicesPollDetect
  /-- Whether the thread has read the status of the devices, and waits. -/
  waits : Bool

namespace PolledSystem

/-- The system once the service was started. -/
def boot (ans : Answers) (b : CTv.Boot) (fds : DetectFds) : PolledSystem where
  toTvSystem := TvSystem.boot ans b
  fds := fds
  mTvDevicesPollDetect := CTvDevicesPollDetect.new.setObserver
  waits := false

/-- A client registers or sends a request, or the thread starts or handles an event of a wait. -/
inductive Input where
  | register
  | request (request : TvService.Request) (ans : Answers)
  | threadLoop (avinStatus : AvinReport × AvinReport) (hdmiStatus : Int32)
  | event (event : EpollEvent)

/-- The record of the thread behind an input, and what the system is told. -/
def handle (s : PolledSystem) : Input → List TvSystem.Input × CTvDevicesPollDetect × Bool
  | .register => ([.register], s.mTvDevicesPollDetect, s.waits)
  | .request request ans =>
    ((request.steps ans).map .command, s.mTvDevicesPollDetect, s.waits)
  | .threadLoop avinStatus hdmiStatus =>
    -- the thread is started once
    if s.waits then ([], s.mTvDevicesPollDetect, s.waits)
    else ([], s.mTvDevicesPollDetect.initStatus avinStatus hdmiStatus, true)
  | .event event =>
    match event.pollEvent s.fds, s.waits with
    | some pollEvent, true =>
      let told := s.mpTv.threadLoopStep s.mTvDevicesPollDetect pollEvent
      (told.1.map fun command => .command (command, event.ans), told.2, true)
    | _, waits => ([], s.mTvDevicesPollDetect, waits)

/-- One input: what the system is told, and the state behind it. -/
def tell (s : PolledSystem) (input : Input) : List TvSystem.Input × PolledSystem :=
  let handled := s.handle input
  (handled.1,
    { toTvSystem := Machine.run TvSystem.step s.toTvSystem handled.1
      fds := s.fds
      mTvDevicesPollDetect := handled.2.1
      waits := handled.2.2 })

def step (s : PolledSystem) (input : Input) : PolledSystem := (s.tell input).2

/-- What is answered to one who asks for a source while its device shows the status that the thread
read last. -/
def asked (s : PolledSystem) (ans : Answers) (source : SourceInput) : Option Int32 :=
  s.mpTv.getSourceConnectStatus { ans with hdmiStatus := s.mTvDevicesPollDetect.mHdmiStatus } source

/-- What the record of the thread says about a source. -/
def recorded (s : PolledSystem) (source : SourceInput) : Int32 :=
  s.mpTv.plugStatus source s.mTvDevicesPollDetect.mHdmiStatus

/-! ## What stays -/

/-- What the thread relies on: it has an observer, whose events reach every client, and the HDMI
sources have ports of their own. -/
structure Watching (s : PolledSystem) : Prop where
  filled : s.Filled
  observed : s.mTvDevicesPollDetect.mpObserver = true
  ports : s.mpTv.OwnsHdmiPorts

theorem tell_waits {s : PolledSystem} (h : s.waits = true) (input : Input) :
    (s.tell input).2.waits = true := by
  cases input with
  | threadLoop avinStatus hdmiStatus =>
    rw [tell, handle, if_pos h]
    exact h
  | event event =>
    rw [tell, handle, h]
    split <;> rfl
  | _ => exact h

theorem tell_observed {s : PolledSystem} (h : s.mTvDevicesPollDetect.mpObserver = true)
    (input : Input) : (s.tell input).2.mTvDevicesPollDetect.mpObserver = true := by
  cases input with
  | threadLoop avinStatus hdmiStatus =>
    rw [tell, handle]
    split
    · exact h
    · exact h
  | event event =>
    rw [tell, handle]
    split
    · rename_i pollEvent _ _
      cases pollEvent <;> exact h
    · exact h
  | _ => exact h

theorem Watching.tell {s : PolledSystem} (h : s.Watching) (input : Input) :
    (s.tell input).2.Watching ∧ (s.tell input).2.mpTv.plugStatus = s.mpTv.plugStatus := by
  obtain ⟨hfilled, hports⟩ := TvSystem.filled_ports_run h.filled (s.handle input).1
  exact ⟨⟨hfilled, tell_observed h.observed input, h.ports.congr hports⟩,
    CTv.plugStatus_congr hports⟩

/-! ## Reports -/

/-- A request is about no plug. -/
theorem plug_request (source : SourceInput) (request : TvService.Request) (ans : Answers) :
    ((request.steps ans).map TvSystem.Input.command).filterMap (TvSystem.Input.plug source) =
      [] := by
  cases request <;> rfl

/-- **The thread tells** every change of what its record says about an HDMI source, once it has read
the devices. -/
theorem tell_reports {source : SourceInput} (hs : source ∈ CTv.hdmiSources) :
    Sensor.Reports tell (fun s => s.Watching ∧ s.waits = true) (TvSystem.Input.plug source)
      (recorded · source) where
  inv s input h := ⟨(h.1.tell input).1, tell_waits h.2 input⟩
  report s input h := by
    obtain ⟨hwatching, hwaits⟩ := h
    simp only [recorded, (hwatching.tell input).2]
    cases input with
    | register => exact (if_pos rfl).symm
    | request request ans => exact (plug_request source request ans).trans (if_pos rfl).symm
    | threadLoop avinStatus hdmiStatus =>
      rw [PolledSystem.tell, handle, if_pos hwaits]
      exact (if_pos rfl).symm
    | event event =>
      rw [PolledSystem.tell, handle]
      cases hpoll : event.pollEvent s.fds with
      | none => exact (if_pos rfl).symm
      | some pollEvent =>
        rw [hwaits, List.filterMap_map]
        exact (CTv.threadLoopStep_reports hwatching.ports hs).report s.mTvDevicesPollDetect
          pollEvent hwatching.observed

/-- Before the thread has read the devices, the system is told nothing. -/
theorem plug_of_not_waits {s : PolledSystem} (h : s.waits = false) (source : SourceInput)
    (input : Input) : (s.tell input).1.filterMap (TvSystem.Input.plug source) = [] := by
  cases input with
  | register => rfl
  | request request ans => exact plug_request source request ans
  | threadLoop avinStatus hdmiStatus =>
    rw [PolledSystem.tell, handle, h]
    rfl
  | event event =>
    rw [PolledSystem.tell, handle, h]
    cases event.pollEvent s.fds <;> rfl

/-- What the system is told in a run about an HDMI source: plugs by turns, the last of which is the
record of the thread, as is the one at the beginning if there is none. -/
theorem plugs_run {source : SourceInput} (hs : source ∈ CTv.hdmiSources) {s : PolledSystem}
    (h : s.Watching) (inputs : List Input) :
    let plugs := (Sensor.outputs tell s inputs).filterMap (TvSystem.Input.plug source)
    let s' := Sensor.state tell s inputs
    plugs.IsChain (· ≠ ·) ∧ (∀ plug ∈ plugs.getLast?, s'.recorded source = plug) ∧
      (s.waits = true → plugs.getLast?.getD (s.recorded source) = s'.recorded source) := by
  induction inputs generalizing s with
  | nil =>
    refine ⟨.nil, fun plug hplug => ?_, fun _ => rfl⟩
    cases hplug
  | cons input inputs ih =>
    intro plugs s'
    cases hwaits : s.waits with
    | true =>
      have hreports := tell_reports hs
      have hlast := hreports.getLast ⟨h, hwaits⟩ (input :: inputs)
      refine ⟨(hreports.alternates ⟨h, hwaits⟩ (input :: inputs)).tail, fun plug hplug => ?_,
        fun _ => hlast⟩
      have hplugs : plugs.getLast? = some plug := hplug
      refine hlast.symm.trans ?_
      rw [show (List.filterMap _ _).getLast? = some plug from hplugs]
      rfl
    | false =>
      -- nothing is told until the thread starts, so that the rest of the run tells everything
      have hplugs : plugs = (Sensor.outputs tell (s.tell input).2 inputs).filterMap
          (TvSystem.Input.plug source) := by
        simp only [plugs]
        rw [Sensor.outputs, List.filterMap_append, plug_of_not_waits hwaits, List.nil_append]
      obtain ⟨hchain, hlast, -⟩ := ih (h.tell input).1
      rw [hplugs]
      exact ⟨hchain, hlast, fun hstarted => absurd hstarted (by simp)⟩

/-! ## The clients -/

theorem watching_boot {ans : Answers} {b : CTv.Boot} (hp : (CTv.construct ans b).OwnsHdmiPorts)
    (fds : DetectFds) : (boot ans b fds).Watching :=
  ⟨TvSystem.filled_boot ans b, rfl, hp.congr rfl⟩

/-- The system takes the steps that it is told to. -/
theorem toTvSystem_run (s : PolledSystem) (inputs : List Input) :
    (Machine.run step s inputs).toTvSystem =
      Machine.run TvSystem.step s.toTvSystem (Sensor.outputs tell s inputs) := by
  induction inputs generalizing s with
  | nil => rfl
  | cons input inputs ih =>
    rw [Machine.run_cons, ih, Sensor.outputs, Machine.run_append]
    rfl

/-- **Plugs at the clients.** Suppose that the HDMI sources, and no others, are on different HDMI
ports. In every run of registrations and requests of clients and of events of the devices, and for
each HDMI source, the application of every client is called for plugs by turns; the last of these is
what is answered to one who asks for the source while the device shows the status that was read
last; and if the client is not called for the source, the answer is that of its registration, where
the thread had started by then. -/
theorem plugs_followed {ans : Answers} {b : CTv.Boot} (hp : (CTv.construct ans b).OwnsHdmiPorts)
    {source : SourceInput} (hs : source ∈ CTv.hdmiSources) (fds : DetectFds) (asking : Answers)
    (pre post : List Input) :
    let s := Machine.run step (boot ans b fds) pre
    let s' := Machine.run step (boot ans b fds) (pre ++ .register :: post)
    ∃ client, s'.clients[s.clients.length]? = some client ∧
      let plugs := client.called.filterMap (EventCallback.plug source)
      plugs.IsChain (· ≠ ·) ∧
        (∀ plug ∈ plugs.getLast?, s'.asked asking source = some plug) ∧
        (s.waits = true →
          s'.asked asking source = plugs.getLast?.or (s.asked asking source)) := by
  intro s s'
  have hs' : s' = Machine.run step (s.tell .register).2 post := Machine.run_append step _ _ _
  have hwatching : s.Watching :=
    Machine.run_invariant Watching (fun _ input h => (h.tell input).1) (watching_boot hp fds) pre
  obtain ⟨hregistered, hports⟩ := hwatching.tell .register
  obtain ⟨hchain, hlast, hstarted⟩ := plugs_run hs hregistered post
  -- the client is told what the system is told since its registration
  let told := Sensor.outputs tell (s.tell .register).2 post
  let client := TvClient.construct.call (TvSystem.callbacks (s.tell .register).2.mpTv told)
  have hclient : s'.clients[s.clients.length]? = some client := by
    have hnew : (s.tell .register).2.clients[s.clients.length]? = some TvClient.construct :=
      List.getElem?_concat_length
    rw [hs', toTvSystem_run]
    exact TvSystem.clients_run hregistered.filled told hnew
  have hplugs : client.called.filterMap (EventCallback.plug source) =
      told.filterMap (TvSystem.Input.plug source) := TvSystem.plug_callbacks source _ told
  refine ⟨client, hclient, ?_⟩
  dsimp only
  rw [hplugs, hs']
  have hasked (s : PolledSystem) : s.asked asking source = some (s.recorded source) :=
    CTv.getSourceConnectStatus_eq hs
  refine ⟨hchain, fun plug hplug => (hasked _).trans (congrArg some (hlast plug hplug)),
    fun hwaits => ?_⟩
  have hregister : (s.tell .register).2.recorded source = s.recorded source :=
    congrFun (congrFun hports source) _
  have hrecord := hstarted hwaits
  rw [hregister] at hrecord
  rw [hasked, hasked]
  refine (congrArg some hrecord.symm).trans ?_
  cases (told.filterMap (TvSystem.Input.plug source)).getLast? <;> rfl

/-- On the default ports `HDMI2` is plugged in before a client registers, and out behind. -/
theorem plugs_followed_default_ports :
    let ans := Answers.granting 0 CTv.noSignalInfo
    let fds : DetectFds := ⟨3, 4, 5⟩
    let cable hdmiStatus := Input.event ⟨4, epollin, ans.avinReports, hdmiStatus, ans⟩
    let s' := Machine.run step (boot ans ⟨fun _ => none, none, true, true, sourceInvalid⟩ fds)
      [.threadLoop ans.avinReports 0, cable 4, .register, cable 0]
    ∃ client, s'.clients[0]? = some client ∧
      let plugs := client.called.filterMap (EventCallback.plug sourceHdmi2)
      plugs.IsChain (· ≠ ·) ∧
        s'.asked ans sourceHdmi2 = plugs.getLast?.or (some CTv.sourcePlugIn) := by
  intro ans fds cable s'
  let b : CTv.Boot := ⟨fun _ => none, none, true, true, sourceInvalid⟩
  have hports : (CTv.construct ans b).OwnsHdmiPorts := by
    refine CTv.ownsHdmiPorts_of_map ⟨?_, by decide +kernel⟩ (by decide +kernel)
    simp only [CTv.hdmiSources, List.forall_mem_cons, List.not_mem_nil, false_imp_iff,
      implies_true]
    decide +kernel
  have hs : sourceHdmi2 ∈ CTv.hdmiSources := List.mem_cons_of_mem _ List.mem_cons_self
  let s := Machine.run step (boot ans b fds) [.threadLoop ans.avinReports 0, cable 4]
  have hbefore : s.clients.length = 0 ∧ s.waits = true ∧
      s.asked ans sourceHdmi2 = some CTv.sourcePlugIn := by decide +kernel
  obtain ⟨hlength, hwaits, hplug⟩ := hbefore
  obtain ⟨client, hclient, hchain, -, hasked⟩ := plugs_followed hports hs fds ans
    [.threadLoop ans.avinReports 0, cable 4] [cable 0]
  refine ⟨client, ?_, hchain, (hasked hwaits).trans ?_⟩
  · rw [← hlength]
    exact hclient
  · rw [← hplug]

end PolledSystem
