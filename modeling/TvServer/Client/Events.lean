import TvServer.Event
import TvServer.Foundations.SlotMap
import TvServer.TvCommon

/-!
# The events at a client

A client takes an event out of the parcel it receives and hands it to its observers. The observer
is the wrapper around the client, which passes the event on to the callback of the application.

## Main definitions

* `EventCallback`: a call of the callback of the application
* `TvClient`: a client, with the calls of its wrapper
* `TvClient.onTransact`: the transactions to a client

## Main results

* `TvClient.sendTvClientEvent_eq`: the wrapper of a connected client passes every event on
-/

/-- The data of a signal event, `SignalDetectCallback_t`. -/
structure SignalDetectCallback where
  sourceInput : SourceInput
  signalFmt : UInt32
  transFmt : UInt32
  signalStatus : UInt32
  isDviSignal : Int32
deriving DecidableEq

/-- The data of a connection event, `SourceConnectCallback_t`. -/
structure SourceConnectCallback where
  sourceInput : SourceInput
  connectionState : Int32
deriving DecidableEq

/-- A call of the callback of the application, with the data of its event type. -/
inductive EventCallback where
  | signalDetect (data : SignalDetectCallback)
  | sourceConnect (data : SourceConnectCallback)
deriving DecidableEq

/-- The data of a call for a signal event. -/
def EventCallback.signal : EventCallback → Option SignalDetectCallback
  | .signalDetect data => some data
  | .sourceConnect _ => none

namespace TvClientWrapper

/-- The call that the wrapper makes for an event. -/
def onTvClientEvent : CTvEvent → EventCallback
  | .signalDetect event =>
    .signalDetect
      { sourceInput := event.mSourceInput
        signalFmt := event.mFmt.toUInt32
        transFmt := event.mTransFmt.toUInt32
        signalStatus := event.mStatus.toUInt32
        isDviSignal := event.mDviFlag }
  | .sourceConnect event =>
    .sourceConnect
      { sourceInput := event.mSourceInput
        connectionState := event.connectionState }

end TvClientWrapper

/-- A client: the observers, of which its wrapper is one, and the calls its wrapper made. -/
structure TvClient where
  mTvClientObserver : SlotMap Unit
  called : List EventCallback

namespace TvClient

def firstCallTransaction : UInt32 := 1

def evtSrcCtCb : UInt32 := firstCallTransaction + 4

def evtSigDtCb : UInt32 := firstCallTransaction + 5

/-- Register an observer; a null observer is refused. -/
def setTvClientObserver (client : TvClient) : Option Unit → TvClient
  | some observer =>
    { client with mTvClientObserver := (client.mTvClientObserver.register observer).2 }
  | none => client

/-- A client, once its wrapper was constructed and registered as an observer. -/
def construct : TvClient := setTvClientObserver ⟨∅, []⟩ (some ())

/-- Hand an event to the observers, in the order of a walk. -/
def sendTvClientEvent (client : TvClient) (event : CTvEvent) : TvClient :=
  -- the one observer is the wrapper, whose calls are recorded
  let walked := client.mTvClientObserver.walk
    (fun called (_ : Unit) => called ++ [TvClientWrapper.onTvClientEvent event]) client.called
  { mTvClientObserver := walked.1, called := walked.2 }

def handSourceConnectEvent (client : TvClient) (parcel : Parcel) : TvClient :=
  let (mSourceInput, parcel) := parcel.readInt32
  let (connectionState, _) := parcel.readInt32
  client.sendTvClientEvent (.sourceConnect { mSourceInput, connectionState })

def handSignalDetectEvent (client : TvClient) (parcel : Parcel) : TvClient :=
  let (mSourceInput, parcel) := parcel.readInt32
  let (mFmt, parcel) := parcel.readInt32
  let (mTransFmt, parcel) := parcel.readInt32
  let (mStatus, parcel) := parcel.readInt32
  let (mDviFlag, _) := parcel.readInt32
  client.sendTvClientEvent (.signalDetect { mSourceInput, mFmt, mTransFmt, mStatus, mDviFlag })

/-- A transaction to a client; it reads the parcel from its start. -/
def onTransact (client : TvClient) (code : UInt32) (data : Parcel) : TvClient :=
  if code = evtSrcCtCb then client.handSourceConnectEvent data
  else if code = evtSigDtCb then client.handSignalDetectEvent data
  else client

/-! ## Connected clients -/

/-- The wrapper is the one observer of the client. -/
def Connected (client : TvClient) : Prop := client.mTvClientObserver.IsFilled [()]

theorem connected_construct : construct.Connected := SlotMap.IsFilled.empty.register ()

/-- A client whose wrapper made further calls. -/
def call (client : TvClient) (callbacks : List EventCallback) : TvClient :=
  { client with called := client.called ++ callbacks }

theorem call_nil (client : TvClient) : client.call [] = client := by
  rw [call, List.append_nil]

theorem call_call (client : TvClient) (callbacks callbacks' : List EventCallback) :
    (client.call callbacks).call callbacks' = client.call (callbacks ++ callbacks') := by
  simp [call]

/-- The wrapper of a connected client passes an event on. -/
theorem sendTvClientEvent_eq {client : TvClient} (hc : client.Connected) (event : CTvEvent) :
    client.sendTvClientEvent event = client.call [TvClientWrapper.onTvClientEvent event] := by
  rw [sendTvClientEvent, SlotMap.IsFilled.walk_eq hc]
  rfl

end TvClient
