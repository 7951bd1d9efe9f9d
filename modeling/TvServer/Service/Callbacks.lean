import TvServer.Event
import TvServer.Foundations.Machine
import TvServer.Foundations.SlotMap

/-!
# The callback registry of the service

The service keeps the callbacks of its clients in a map from ids to callbacks. A client registers
and unregisters by transactions, and an event is broadcast by a walk over the indices below the
number of keys. Removals leave holes among the keys, and both the search of a registration and
the walk of a broadcast insert null entries at the holes they read, so that the number of keys
depends on the whole history.

## Main definitions

* `setTvServiceCallBack`, `removeTvServiceCallBack`: registration and removal
* `onTvEvent`: the broadcast of an event, with the transactions it performs
* `History.step`: the registry under operations in any order, with the registrations that were
  not removed
* `clientStep`: the operations of clients that each remove the id they were given

## Main results

* `target_onTvEvent`: a broadcast transacts once to each visited callback
* `broadcast_snd`: the `n`-th receiver is sent `n` copies of the payload
* `isRoster_history`: after every history the registrations name the live entries of the map
* `transacts_once_iff`: the broadcast reaches exactly the registered callbacks where their ids
  are below the number of keys
* `setTvServiceCallBack_separates`: registration takes the least free id, and the ids of
  connected clients stay apart
-/

namespace TvService

variable {β : Type*}

def firstCallTransaction : UInt32 := 1

def evtSrcCtCb : UInt32 := firstCallTransaction + 4

def evtSigDtCb : UInt32 := firstCallTransaction + 5

/-- A transaction to a callback: its code, and the words of the parcel sent. -/
structure Transact (β : Type*) where
  target : β
  code : UInt32
  data : Parcel
deriving DecidableEq

/-- Register a callback: its id and the map afterwards. A null callback is refused. -/
def setTvServiceCallBack (mTvServiceCallBack : SlotMap β) : Option β → ℤ × SlotMap β
  | some callBack => mTvServiceCallBack.register callBack
  | none => (-1, mTvServiceCallBack)

/-- Remove the callback with an id. -/
def removeTvServiceCallBack (mTvServiceCallBack : SlotMap β) (callBackId : ℤ) : SlotMap β :=
  if callBackId < 0 then mTvServiceCallBack else mTvServiceCallBack.erase callBackId

/-- One round of a broadcast: the payload is appended to the one parcel, which is then sent. -/
def transactTo (code : UInt32) (payload : List Int32) (p : Parcel × List (Transact β))
    (callBack : β) : Parcel × List (Transact β) :=
  let send := payload.foldl Parcel.writeInt32 p.1
  (send, p.2 ++ [⟨callBack, code, send⟩])

/-- The walk of a broadcast: the map it leaves, and the transactions in order. -/
def broadcast (code : UInt32) (payload : List Int32) (mTvServiceCallBack : SlotMap β) :
    SlotMap β × List (Transact β) :=
  let walked := mTvServiceCallBack.walk (transactTo code payload) ([], [])
  (walked.1, walked.2.2)

def sendSignalForSourceConnectEvent (mTvServiceCallBack : SlotMap β)
    (event : TvEvent.SourceConnectEvent) : SlotMap β × List (Transact β) :=
  broadcast evtSrcCtCb [event.mSourceInput, event.connectionState] mTvServiceCallBack

def sendSignalForSignalDetectEvent (mTvServiceCallBack : SlotMap β)
    (event : TvEvent.SignalDetectEvent) : SlotMap β × List (Transact β) :=
  broadcast evtSigDtCb
    [event.mSourceInput, event.mFmt, event.mTransFmt, event.mStatus, event.mDviFlag]
    mTvServiceCallBack

/-- The observer of the television object: each event is broadcast under the code of its type. -/
def onTvEvent (mTvServiceCallBack : SlotMap β) : CTvEvent → SlotMap β × List (Transact β)
  | .signalDetect event => sendSignalForSignalDetectEvent mTvServiceCallBack event
  | .sourceConnect event => sendSignalForSourceConnectEvent mTvServiceCallBack event

/-- The transaction code of an event. -/
def eventCode : CTvEvent → UInt32
  | .signalDetect _ => evtSigDtCb
  | .sourceConnect _ => evtSrcCtCb

/-- The words of an event in a parcel. -/
def eventPayload : CTvEvent → List Int32
  | .signalDetect event =>
    [event.mSourceInput, event.mFmt, event.mTransFmt, event.mStatus, event.mDviFlag]
  | .sourceConnect event => [event.mSourceInput, event.connectionState]

theorem onTvEvent_eq (m : SlotMap β) (event : CTvEvent) :
    onTvEvent m event = broadcast (eventCode event) (eventPayload event) m := by
  cases event <;> rfl

/-! ## What a broadcast sends -/

/-- `n` copies of a payload, one after the other. -/
def copies (payload : List Int32) (n : ℕ) : Parcel := (List.replicate n payload).flatten

theorem copies_succ (payload : List Int32) (n : ℕ) :
    copies payload (n + 1) = copies payload n ++ payload := by
  simp [copies, List.replicate_succ']

theorem prefix_copies_succ (payload : List Int32) (n : ℕ) :
    payload <+: copies payload (n + 1) := by
  simp [copies, List.replicate_succ]

theorem foldl_writeInt32 (p : Parcel) (payload : List Int32) :
    payload.foldl Parcel.writeInt32 p = p ++ payload := by
  induction payload generalizing p with
  | nil => simp
  | cons w ws ih => simp [ih, Parcel.writeInt32]

theorem foldl_transactTo (code : UInt32) (payload : List Int32) (bs : List β) (n : ℕ)
    (out : List (Transact β)) :
    (bs.foldl (transactTo code payload) (copies payload n, out)).2 =
      out ++ (bs.zipIdx n).map fun b => ⟨b.1, code, copies payload (b.2 + 1)⟩ := by
  induction bs generalizing n out with
  | nil => simp
  | cons b bs ih =>
    -- `n` copies were sent to the receivers before, and this one gets one more
    rw [List.foldl_cons, transactTo, foldl_writeInt32, ← copies_succ, ih]
    simp

/-- The receivers of a broadcast are those the walk visits; the `n`-th one is sent `n` copies of
the payload. -/
theorem broadcast_snd (code : UInt32) (payload : List Int32) (m : SlotMap β) :
    (broadcast code payload m).2 =
      m.visited.zipIdx.map fun b => ⟨b.1, code, copies payload (b.2 + 1)⟩ := by
  rw [broadcast, SlotMap.walk_snd]
  simpa [copies] using foldl_transactTo code payload m.visited 0 []

theorem target_broadcast (code : UInt32) (payload : List Int32) (m : SlotMap β) :
    (broadcast code payload m).2.map Transact.target = m.visited := by
  rw [broadcast_snd, List.map_map]
  exact List.zipIdx_map_fst 0 m.visited

theorem get_broadcast (code : UInt32) (payload : List Int32) (m : SlotMap β) :
    (broadcast code payload m).1.get = m.get := SlotMap.get_walk _ _ _

/-- A broadcast transacts once to each callback the walk visits. -/
theorem target_onTvEvent (m : SlotMap β) (event : CTvEvent) :
    (onTvEvent m event).2.map Transact.target = m.visited := by
  rw [onTvEvent_eq, target_broadcast]

/-- A broadcast keeps every entry of the map. -/
theorem get_onTvEvent (m : SlotMap β) (event : CTvEvent) :
    (onTvEvent m event).1.get = m.get := by
  rw [onTvEvent_eq, get_broadcast]

/-- A broadcast to a registry without holes keeps it, and transacts to its callbacks in order. -/
theorem onTvEvent_of_isFilled {m : SlotMap β} {bs : List β} (h : m.IsFilled bs)
    (event : CTvEvent) : onTvEvent m event =
      (m, bs.zipIdx.map fun b =>
        ⟨b.1, eventCode event, copies (eventPayload event) (b.2 + 1)⟩) := by
  rw [onTvEvent_eq]
  apply Prod.ext
  · rw [broadcast, h.walk_eq]
  · rw [broadcast_snd, h.visited_eq]

/-! ## Histories -/

/-- An operation on the registry. -/
inductive RegistryOp (β : Type*) where
  | register (callBack : Option β)
  | remove (callBackId : ℤ)
  | event (event : CTvEvent)

/-- The registry, with the registrations that were not removed: the ids returned, and the
callbacks they were returned for. -/
structure History (β : Type*) where
  registry : SlotMap β
  registered : List (ℤ × β)

namespace History

def empty : History β := ⟨∅, []⟩

/-- One operation on the registry; the registrations are recorded from the ids it returns. -/
def step (h : History β) : RegistryOp β → History β
  | .register (some callBack) =>
    let (id, registry) := setTvServiceCallBack h.registry (some callBack)
    ⟨registry, h.registered ++ [(id, callBack)]⟩
  | .register none => ⟨(setTvServiceCallBack h.registry none).2, h.registered⟩
  | .remove callBackId =>
    ⟨removeTvServiceCallBack h.registry callBackId, h.registered.filter fun r => r.1 ≠ callBackId⟩
  | .event event => ⟨(onTvEvent h.registry event).1, h.registered⟩

/-- The registrations name the live entries of the registry, each once. -/
def IsRoster (h : History β) : Prop := h.registry.IsRoster h.registered

end History

theorem isRoster_empty : (History.empty : History β).IsRoster := SlotMap.IsRoster.empty

theorem isRoster_step {h : History β} (hr : h.IsRoster) (op : RegistryOp β) :
    (h.step op).IsRoster := by
  cases op with
  | register callBack =>
    cases callBack with
    | none => exact hr
    | some b => exact SlotMap.IsRoster.register hr b
  | remove callBackId =>
    -- a negative id is refused, and no registration has one
    by_cases hneg : callBackId < 0
    · have hkeep : (h.registered.filter fun r => r.1 ≠ callBackId) = h.registered := by
        refine List.filter_eq_self.mpr fun r hmem => ?_
        have := hr.nonneg r hmem
        exact decide_eq_true (by omega)
      simp only [History.IsRoster, History.step, removeTvServiceCallBack, if_pos hneg, hkeep]
      exact hr
    · simp only [History.IsRoster, History.step, removeTvServiceCallBack, if_neg hneg]
      exact SlotMap.IsRoster.erase hr callBackId
  | event event => exact SlotMap.IsRoster.congr hr (get_onTvEvent _ _)

/-- **The registrations name the live entries** of the map, after every history. -/
theorem isRoster_history (ops : List (RegistryOp β)) :
    (Machine.run History.step .empty ops).IsRoster :=
  Machine.run_invariant History.IsRoster (fun _ op hr => isRoster_step hr op) isRoster_empty ops

section Delivery

variable [DecidableEq β]

/-- Whether an event is delivered exactly once to each registered callback, and to no other. -/
def DeliveredOnce (h : History β) (event : CTvEvent) : Prop :=
  ∀ b, ((onTvEvent h.registry event).2.map Transact.target).count b =
    if b ∈ h.registered.map Prod.snd then 1 else 0

/-- **Deliveries.** After every history an event is delivered once to each registered callback
exactly when one of the ids of each is below the number of keys; and once for each registration
exactly when all ids are. -/
theorem transacts_once_iff (ops : List (RegistryOp β)) (event : CTvEvent) :
    let h := Machine.run History.step .empty ops
    (DeliveredOnce h event ↔
      ∀ b ∈ h.registered.map Prod.snd, ∃! id, (id, b) ∈ h.registered ∧ id < h.registry.size) ∧
    (((onTvEvent h.registry event).2.map Transact.target).Perm (h.registered.map Prod.snd) ↔
      ∀ r ∈ h.registered, r.1 < h.registry.size) := by
  intro h
  have hr : h.registry.IsRoster h.registered := isRoster_history ops
  refine ⟨?_, by rw [target_onTvEvent]; exact hr.visited_perm_iff⟩
  constructor
  · intro hd b hb
    rw [← hr.count_visited_eq_one_iff, ← target_onTvEvent _ event, hd b, if_pos hb]
  · intro hone b
    split
    · rename_i hb
      rw [target_onTvEvent]
      exact (hr.count_visited_eq_one_iff b).mpr (hone b hb)
    · rename_i hb
      rw [target_onTvEvent]
      exact List.count_eq_zero.mpr fun hmem => hb (hr.mem_of_mem_visited hmem)

/-- Three clients register and the first one is removed: the two keys left are `1` and `2`, and
the event is lost for the third client. -/
theorem not_forall_deliveredOnce :
    ¬ ∀ (ops : List (RegistryOp ℕ)) (event : CTvEvent),
      DeliveredOnce (Machine.run History.step .empty ops) event := by
  intro hall
  have h := hall
    [.register (some 10), .register (some 11), .register (some 12), .remove 0]
    (.sourceConnect ⟨5, 1⟩) 12
  exact absurd h (by decide)

end Delivery

/-! ## Clients -/

/-- An operation of the clients: a client registers its callback when it is constructed, and
removes the id it was given when it is destroyed. -/
inductive ClientOp (β : Type*) where
  | connect (callBack : Option β)
  | disconnect (n : ℕ)
  | event (event : CTvEvent)

/-- One operation of the clients, where the registrations not removed are the connected clients:
the `n`-th one of these disconnects by removing its own id. -/
def clientStep (h : History β) : ClientOp β → History β
  | .connect callBack => h.step (.register callBack)
  | .disconnect n =>
    match h.registered[n]? with
    | some client => h.step (.remove client.1)
    | none => h
  | .event event => h.step (.event event)

theorem isRoster_clientStep {h : History β} (hr : h.IsRoster) (op : ClientOp β) :
    (clientStep h op).IsRoster := by
  cases op with
  | connect callBack => exact isRoster_step hr _
  | disconnect n =>
    rw [clientStep]
    split
    · exact isRoster_step hr _
    · exact hr
  | event event => exact isRoster_step hr _

theorem filter_ne_eq_eraseIdx {rs : List (ℤ × β)} (hnd : (rs.map Prod.fst).Nodup) {n : ℕ}
    {r : ℤ × β} (hn : rs[n]? = some r) : (rs.filter fun q => q.1 ≠ r.1) = rs.eraseIdx n := by
  induction rs generalizing n with
  | nil => cases hn
  | cons q rs ih =>
    rw [List.map_cons, List.nodup_cons] at hnd
    cases n with
    | zero =>
      obtain rfl : q = r := by simpa using hn
      rw [List.filter_cons_of_neg (by simp), List.eraseIdx_cons_zero]
      refine List.filter_eq_self.mpr fun p hp => ?_
      exact decide_eq_true fun he => hnd.1 (he ▸ List.mem_map_of_mem hp)
    | succ n =>
      have hr : r ∈ rs := List.mem_of_getElem? (by simpa using hn)
      -- the ids differ, so that only the `n`-th registration goes
      have hne : q.1 ≠ r.1 := fun he => hnd.1 (he ▸ List.mem_map_of_mem hr)
      rw [List.filter_cons_of_pos (by simpa using hne), List.eraseIdx_cons_succ,
        ih hnd.2 (by simpa using hn)]

/-- A client that disconnects leaves the other clients connected. -/
theorem registered_disconnect {h : History β} (hr : h.IsRoster) (n : ℕ) :
    (clientStep h (.disconnect n)).registered = h.registered.eraseIdx n := by
  rw [clientStep]
  split
  · rename_i client hn
    exact filter_ne_eq_eraseIdx hr.nodup hn
  · rename_i hn
    exact (List.eraseIdx_of_length_le (List.getElem?_eq_none_iff.mp hn)).symm

/-- **Registration separates the clients.** In every map, registration returns the least id that
holds no callback, stores the callback there and changes no other entry; and after every run of
clients, connected clients have different ids, each id holds the callback of its client, and so
it still does after another client disconnects. -/
theorem setTvServiceCallBack_separates :
    (∀ (m : SlotMap β) (callBack : β),
      let r := setTvServiceCallBack m (some callBack)
      IsLeast {id : ℤ | 0 ≤ id ∧ m.get id = none} r.1 ∧
        r.2.get = Function.update m.get r.1 (some callBack)) ∧
    ∀ ops : List (ClientOp β),
      let h := Machine.run clientStep .empty ops
      (h.registered.map Prod.fst).Nodup ∧
      (∀ client ∈ h.registered, h.registry.get client.1 = some client.2) ∧
      ∀ n, (clientStep h (.disconnect n)).registered = h.registered.eraseIdx n ∧
        ∀ client ∈ h.registered.eraseIdx n,
          (clientStep h (.disconnect n)).registry.get client.1 = some client.2 := by
  refine ⟨fun m callBack => ⟨m.register_isLeast callBack, m.get_register callBack⟩, ?_⟩
  intro ops h
  have hr : h.IsRoster :=
    Machine.run_invariant History.IsRoster (fun _ op hr => isRoster_clientStep hr op) isRoster_empty
      ops
  refine ⟨hr.nodup, fun client hc => (hr.mem_iff _ _).mp hc, fun n => ?_⟩
  refine ⟨registered_disconnect hr n, fun client hc => ?_⟩
  rw [← registered_disconnect hr n] at hc
  exact ((isRoster_clientStep hr _).mem_iff _ _).mp hc

end TvService
