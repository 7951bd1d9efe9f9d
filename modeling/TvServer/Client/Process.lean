import TvServer.Client.Events
import TvServer.Service.Callbacks

/-!
# The process of a client

The wrappers of a process share one client, which a static pointer keeps. The client registers its
callback at the service when it is constructed, and removes it when it is destroyed; a wrapper is
an observer of the client, and passes the events on to a callback of the application. Objects are
given by their addresses, so that a pointer may dangle or be null.

## Main definitions

* `TvClientCell`, `TvClientWrapper`: the objects of the process
* `ClientProcess`: the objects, and the pointers to them
* `getInstance`, `releaseInstance`: the functions that obtain and release a wrapper
* `onTransact`: the dispatch of an event, which fails at a bad pointer
* `isRegistered`: whether a client is alive, with its callback registered

## Main results

* `onTransact_of_isFilled`: an event is handed to the observers of the client
* `isRegistered_constructClient`, `isRegistered_destroyClient`: a client is registered from its
  construction to its destruction
* `getInstance_of_none`, `getInstance_of_some`: what is obtained, without a client or with one
-/

/-- The memory of a client, which may have been destroyed. -/
structure TvClientCell where
  alive : Bool
  tvServicebinderId : ℤ
  /-- The observers, by their addresses. -/
  mTvClientObserver : SlotMap ℕ

/-- A wrapper: the address of its client, and whether its callback function was stored, which is
not initialized before. -/
structure TvClientWrapper where
  mpTvClient : ℕ
  mEventCallbackFunc : Bool
deriving DecidableEq

/-- The process of a client, with the service that it is connected to. -/
structure ClientProcess where
  clients : List TvClientCell
  mInstance : Option ℕ
  /-- The wrappers that were obtained; the pointer to one is null once it was released. -/
  wrappers : List (Option TvClientWrapper)
  /-- Whether the application set its callback. -/
  mEventCallback : Bool
  service : TvService.History ℕ
  /-- The calls of the callback of the application. -/
  called : List EventCallback

/-- A pointer that an event may not be dispatched through. -/
inductive BadPointer where
  | mInstance
  | observer
  | mEventCallbackFunc
  | mEventCallback
deriving DecidableEq

namespace ClientProcess

variable (p : ClientProcess)

/-- The process before its first client, at a service that others may have used. -/
def start (ops : List (TvService.RegistryOp ℕ)) : ClientProcess where
  clients := []
  mInstance := none
  wrappers := []
  mEventCallback := false
  service := Machine.run TvService.History.step .empty ops
  called := []

/-! ## Clients -/

/-- The constructor of the client, which registers its callback at the service. -/
def constructClient : ClientProcess :=
  let callBack := p.clients.length
  let tvServicebinderId :=
    (TvService.setTvServiceCallBack p.service.registry (some callBack)).1
  { p with
    clients := p.clients ++ [⟨true, tvServicebinderId, ∅⟩]
    service := p.service.step (.register (some callBack)) }

/-- Keep the client that was constructed last. -/
def assignInstance : ClientProcess := { p with mInstance := some (p.clients.length - 1) }

/-- The destructor of the client, which removes its callback. In C++ it is not defined what comes
of a client that is destroyed twice; here nothing does. -/
def destroyClient (client : ℕ) : ClientProcess :=
  match p.clients[client]? with
  | some cell =>
    if cell.alive then
      { p with
        clients := p.clients.set client { cell with alive := false }
        service := p.service.step (.remove cell.tvServicebinderId) }
    else p
  | none => p

/-- Register an observer at a client. -/
def setTvClientObserver (client observer : ℕ) : ClientProcess :=
  { p with
    clients := p.clients.modify client fun cell =>
      { cell with mTvClientObserver := (cell.mTvClientObserver.register observer).2 } }

/-- Whether a client is alive, and its callback is registered at the service. -/
def isRegistered (client : ℕ) : Bool :=
  match p.clients[client]? with
  | some cell => cell.alive && p.service.registry.get cell.tvServicebinderId = some client
  | none => false

/-! ## Wrappers -/

/-- The constructor of a wrapper, which is registered as an observer of its client. -/
def constructWrapper (client : ℕ) : ClientProcess :=
  let wrapper := p.wrappers.length
  let p := p.setTvClientObserver client wrapper
  { p with wrappers := p.wrappers ++ [some ⟨client, false⟩] }

/-- Store the callback function of a wrapper. -/
def registerCallback (wrapper : ℕ) : ClientProcess :=
  { p with
    wrappers := p.wrappers.modify wrapper fun pointer =>
      pointer.map fun w => { w with mEventCallbackFunc := true } }

/-- Obtain a wrapper: the first one constructs the client. -/
def getInstance : ClientProcess :=
  let wrapper := p.wrappers.length
  let p :=
    match p.mInstance with
    | some client => p.constructWrapper client
    | none => p.constructClient.assignInstance.constructWrapper p.clients.length
  p.registerCallback wrapper

/-- Release a wrapper, which destroys the client; a pointer that is null is left alone. -/
def releaseInstance (wrapper : ℕ) : ClientProcess :=
  match p.wrappers[wrapper]? with
  | some (some w) =>
    { p.destroyClient w.mpTvClient with wrappers := p.wrappers.set wrapper none }
  | _ => p

/-- Set the callback of the application; a null callback is refused. -/
def setTvEventCallback (callback : Option Unit) : ClientProcess :=
  match callback with
  | some () => { p with mEventCallback := true }
  | none => p

/-! ## Events -/

def handleTvClientEvent (callback : EventCallback) : Except BadPointer ClientProcess :=
  if p.mEventCallback then .ok { p with called := p.called ++ [callback] }
  else .error .mEventCallback

/-- Hand an event to a wrapper. -/
def onTvClientEvent (event : CTvEvent) (wrapper : ℕ) : Except BadPointer ClientProcess :=
  match p.wrappers[wrapper]? with
  | some (some w) =>
    if w.mEventCallbackFunc then p.handleTvClientEvent (TvClientWrapper.onTvClientEvent event)
    else .error .mEventCallbackFunc
  | _ => .error .observer

/-- Hand an event to the next observer, where none failed before. -/
def notify (event : CTvEvent) (r : Except BadPointer ClientProcess) (wrapper : ℕ) :
    Except BadPointer ClientProcess := r.bind fun p => p.onTvClientEvent event wrapper

/-- Hand an event to the observers of a client, in the order of a walk. -/
def sendTvClientEvent (event : CTvEvent) (client : ℕ) : Except BadPointer ClientProcess :=
  match p.clients[client]? with
  | some cell =>
    if cell.alive then do
      let walked := cell.mTvClientObserver.walk (notify event) (.ok p)
      let p ← walked.2
      return { p with clients := p.clients.set client { cell with mTvClientObserver := walked.1 } }
    else .error .mInstance
  | none => .error .mInstance

/-- The dispatch of an event that was taken out of its parcel. -/
def onTransact (event : CTvEvent) : Except BadPointer ClientProcess :=
  match p.mInstance with
  | some client => p.sendTvClientEvent event client
  | none => .error .mInstance

variable {p}

/-- The observers of a client without holes are handed an event one after the other. -/
theorem onTransact_of_isFilled (cell : TvClientCell) {client : ℕ} {wrappers : List ℕ}
    (hinstance : p.mInstance = some client) (hcell : p.clients[client]? = some cell)
    (halive : cell.alive = true) (hfilled : cell.mTvClientObserver.IsFilled wrappers)
    (event : CTvEvent) :
    p.onTransact event = (wrappers.foldl (notify event) (.ok p)).bind fun p =>
      .ok { p with clients := p.clients.set client cell } := by
  rw [onTransact, hinstance]
  dsimp only
  rw [sendTvClientEvent, hcell]
  dsimp only
  rw [if_pos halive, hfilled.walk_eq]
  rfl

/-- A client is registered once it is constructed. -/
theorem isRegistered_constructClient : p.constructClient.isRegistered p.clients.length = true := by
  have hget : p.constructClient.service.registry.get
      (TvService.setTvServiceCallBack p.service.registry (some p.clients.length)).1 =
        some p.clients.length := by
    -- the slot that the registry gave out holds what was registered
    show (p.service.registry.register p.clients.length).2.get _ = _
    rw [SlotMap.get_register]
    exact Function.update_self _ _ _
  have hcell : p.constructClient.clients[p.clients.length]? = some ⟨true,
      (TvService.setTvServiceCallBack p.service.registry (some p.clients.length)).1, ∅⟩ :=
    List.getElem?_concat_length
  rw [isRegistered, hcell]
  simpa using hget

/-- The observers of a client do not matter to its registration. -/
theorem isRegistered_setTvClientObserver (client observer c : ℕ) :
    (p.setTvClientObserver client observer).isRegistered c = p.isRegistered c := by
  have hcell : (p.setTvClientObserver client observer).clients[c]? = p.clients[c]?.map fun cell =>
      if client = c then
        { cell with mTvClientObserver := (cell.mTvClientObserver.register observer).2 }
      else cell := List.getElem?_modify _ _ _ _
  rw [isRegistered, isRegistered, hcell]
  cases p.clients[c]? with
  | none => rfl
  | some cell =>
    dsimp only [Option.map_some]
    split <;> rfl

theorem mInstance_destroyClient (client : ℕ) :
    (p.destroyClient client).mInstance = p.mInstance := by
  rw [destroyClient]
  split
  · split <;> rfl
  · rfl

/-- A client that was destroyed is not registered any more. -/
theorem isRegistered_destroyClient {client : ℕ} (h : client < p.clients.length) :
    (p.destroyClient client).isRegistered client = false := by
  rw [destroyClient, List.getElem?_eq_getElem h]
  dsimp only
  split
  · rw [isRegistered, List.getElem?_set_self h]
    rfl
  · -- it was destroyed before
    rename_i halive
    rw [isRegistered, List.getElem?_eq_getElem h]
    simp [halive]

theorem wrappers_registerCallback (p : ClientProcess) (client : ℕ) :
    ((p.constructWrapper client).registerCallback p.wrappers.length).wrappers =
      p.wrappers ++ [some ⟨client, true⟩] := by
  have hmodify : ((p.constructWrapper client).registerCallback p.wrappers.length).wrappers =
      (p.wrappers ++ [some (⟨client, false⟩ : TvClientWrapper)]).modify p.wrappers.length _ := rfl
  -- the wrapper that is changed is the last one
  rw [hmodify, List.modify_eq_take_drop, List.take_left, List.drop_left]
  rfl

/-- A wrapper that is obtained where there is a client shares it. -/
theorem getInstance_of_some {client : ℕ} (h : p.mInstance = some client) :
    p.getInstance.wrappers = p.wrappers ++ [some ⟨client, true⟩] ∧
      p.getInstance.mInstance = p.mInstance ∧
      p.getInstance.clients.length = p.clients.length ∧
      ∀ c, p.getInstance.isRegistered c = p.isRegistered c := by
  have heq : p.getInstance = (p.constructWrapper client).registerCallback p.wrappers.length := by
    rw [getInstance, h]
  rw [heq]
  exact ⟨wrappers_registerCallback p client, rfl, List.length_modify _ _ _,
    isRegistered_setTvClientObserver _ _⟩

/-- The first wrapper that is obtained constructs the client. -/
theorem getInstance_of_none (h : p.mInstance = none) :
    p.getInstance.wrappers = p.wrappers ++ [some ⟨p.clients.length, true⟩] ∧
      p.getInstance.mInstance = some p.clients.length ∧
      p.getInstance.clients.length = p.clients.length + 1 ∧
      p.getInstance.isRegistered p.clients.length = true := by
  have heq : p.getInstance = (p.constructClient.assignInstance.constructWrapper
      p.clients.length).registerCallback p.wrappers.length := by
    rw [getInstance, h]
  have hlength : p.constructClient.clients.length = p.clients.length + 1 :=
    List.length_append
  have hlast : p.constructClient.clients.length - 1 = p.clients.length := by
    rw [hlength, Nat.add_sub_cancel]
  rw [heq]
  refine ⟨wrappers_registerCallback p.constructClient.assignInstance _, congrArg some hlast, ?_, ?_⟩
  · exact (List.length_modify _ _ _).trans hlength
  · exact (isRegistered_setTvClientObserver _ _ _).trans isRegistered_constructClient

end ClientProcess
