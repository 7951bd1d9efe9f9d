/-!
# Events and parcels

The events the television object sends to its observer, and the parcels that carry them between
the service and its clients. A parcel is the list of the 32-bit words written to it: writing
appends, and reading takes the words from the front.

## Main definitions

* `TvEvent.SignalDetectEvent`, `TvEvent.SourceConnectEvent`: the payloads of the two events
* `CTvEvent`: an event
* `Parcel`, `Parcel.writeInt32`, `Parcel.readInt32`: parcels of 32-bit words
-/

namespace TvEvent

/-- A report of the signal at a source. -/
structure SignalDetectEvent where
  mSourceInput : Int32
  mFmt : Int32
  mTransFmt : Int32
  mStatus : Int32
  mDviFlag : Int32
deriving DecidableEq

/-- A report that a source was plugged in or out. -/
structure SourceConnectEvent where
  mSourceInput : Int32
  connectionState : Int32
deriving DecidableEq

end TvEvent

/-- The events sent to the observer of the television object. -/
inductive CTvEvent where
  | signalDetect (event : TvEvent.SignalDetectEvent)
  | sourceConnect (event : TvEvent.SourceConnectEvent)
deriving DecidableEq

/-- The words of a parcel, in the order of writing. -/
abbrev Parcel := List Int32

namespace Parcel

def writeInt32 (p : Parcel) (w : Int32) : Parcel := p ++ [w]

/-- The next word and the rest of the parcel: `0` once the parcel is read to its end. -/
def readInt32 : Parcel → Int32 × Parcel
  | [] => (0, [])
  | w :: p => (w, p)

@[simp] theorem readInt32_cons (w : Int32) (p : Parcel) : readInt32 (w :: p) = (w, p) := rfl

end Parcel
