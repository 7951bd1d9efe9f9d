import TvServer.Client.Events
import TvServer.Foundations.Machine

/-!
# The observers of a client

Any number of observers can be set at a client, each any number of times. They are kept in a map
that is indexed by the order in which they were set, and that has no holes: an event is handed to
each of them, once for each time it was set, in this order. The client of the process is the one
whose observer is its wrapper, which passes the events on.

## Main definitions

* `TvClientObservers`: a client with observers of any type, and what they were handed
* `TvClientObservers.due`: what they have to be handed in a run
* `TvClientObservers.Serves`: a run keeps the observers and hands them what is due
* `TvClientObservers.wrapped`: the client of the process

## Main results

* `serves_run`: every run keeps the observers and hands them what is due
* `wrapped_run`: the client of the process follows the one with observers of any type
-/

/-- A client: its observers, and the events that they were handed. -/
structure TvClientObservers (O : Type*) where
  mTvClientObserver : SlotMap O
  handed : List (CTvEvent × O)

namespace TvClientObservers

variable {O : Type*}

/-- A client without observers. -/
def construct : TvClientObservers O := ⟨∅, []⟩

/-- Set an observer; a null observer is refused. -/
def setTvClientObserver (client : TvClientObservers O) : Option O → TvClientObservers O
  | some observer =>
    { client with mTvClientObserver := (client.mTvClientObserver.register observer).2 }
  | none => client

/-- Hand an event to the observers, in the order of a walk. -/
def sendTvClientEvent (client : TvClientObservers O) (event : CTvEvent) : TvClientObservers O :=
  let walked := client.mTvClientObserver.walk
    (fun handed observer => handed ++ [(event, observer)]) client.handed
  { mTvClientObserver := walked.1, handed := walked.2 }

/-- An observer that is set, or an event that comes in. -/
inductive Input (O : Type*) where
  | setTvClientObserver (observer : Option O)
  | event (event : CTvEvent)

def step (client : TvClientObservers O) : Input O → TvClientObservers O
  | .setTvClientObserver observer => client.setTvClientObserver observer
  | .event event => client.sendTvClientEvent event

/-- The client after a run. -/
abbrev run (xs : List (Input O)) : TvClientObservers O := Machine.run step construct xs

/-! ## What is due -/

/-- The observer that is set, if it is not null. -/
def Input.observer : Input O → Option O
  | .setTvClientObserver observer => observer
  | .event _ => none

/-- The observers that are set, in this order. -/
abbrev observers (xs : List (Input O)) : List O := xs.filterMap Input.observer

/-- What the observers have to be handed: each event, by each that was set before. -/
def due (before : List O) : List (Input O) → List (CTvEvent × O)
  | [] => []
  | .setTvClientObserver observer :: xs => due (before ++ observer.toList) xs
  | .event event :: xs => before.map (Prod.mk event) ++ due before xs

/-- After a run the keys of the map are the indices of the observers that were set, each with its
observer, which it has kept since it was set; and the observers were handed what is due. -/
structure Serves (xs : List (Input O)) : Prop where
  keys : (run xs).mTvClientObserver.keys =
    (Finset.range (observers xs).length).image fun i : ℕ => (i : ℤ)
  observer : ∀ (i : ℕ) observer, (observers xs)[i]? = some observer →
    (run xs).mTvClientObserver.lookup (i : ℤ) = some (some observer)
  kept : ∀ pre, pre <+: xs → ∀ k observer,
    (run pre).mTvClientObserver.lookup k = some (some observer) →
      (run xs).mTvClientObserver.lookup k = some (some observer)
  handed : (run xs).handed = due [] xs

/-! ## Steps -/

variable {client : TvClientObservers O} {before : List O}

/-- Setting an observer fills the map further. -/
theorem isFilled_step (h : client.mTvClientObserver.IsFilled before) (x : Input O) :
    (client.step x).mTvClientObserver.IsFilled (before ++ x.observer.toList) := by
  rcases x with (_ | observer) | event
  · rwa [Input.observer, Option.toList_none, List.append_nil]
  · exact h.register observer
  · rw [step, sendTvClientEvent, h.walk_eq, Input.observer, Option.toList_none, List.append_nil]
    exact h

/-- A step hands over an event to the observers that were set before. -/
theorem handed_step (h : client.mTvClientObserver.IsFilled before) (x : Input O) :
    (client.step x).handed = client.handed ++ due before [x] := by
  have hfold (event : CTvEvent) (handed : List (CTvEvent × O)) (observers : List O) :
      observers.foldl (fun handed observer => handed ++ [(event, observer)]) handed =
        handed ++ observers.map (Prod.mk event) := by
    induction observers generalizing handed with
    | nil => exact (List.append_nil handed).symm
    | cons observer observers ih =>
      rw [List.foldl_cons, ih, List.map_cons, List.append_assoc, List.singleton_append]
  rcases x with (_ | observer) | event
  · exact (List.append_nil _).symm
  · exact (List.append_nil _).symm
  · rw [step, sendTvClientEvent, h.walk_eq, hfold, due, due, List.append_nil]

theorem due_cons (before : List O) (x : Input O) (xs : List (Input O)) :
    due before (x :: xs) = due before [x] ++ due (before ++ x.observer.toList) xs := by
  cases x with
  | setTvClientObserver observer => rfl
  | event event =>
    rw [due, due, due, Input.observer, Option.toList_none, List.append_nil, List.append_nil]

/-! ## Runs -/

theorem isFilled_run (h : client.mTvClientObserver.IsFilled before) (xs : List (Input O)) :
    (Machine.run step client xs).mTvClientObserver.IsFilled (before ++ observers xs) := by
  induction xs generalizing client before with
  | nil => rwa [observers, List.filterMap_nil, List.append_nil]
  | cons x xs ih =>
    have htail := ih (isFilled_step h x)
    have hobservers : x.observer.toList ++ observers xs = observers (x :: xs) := by
      rw [observers, observers, List.filterMap_cons]
      cases x.observer <;> rfl
    rwa [List.append_assoc, hobservers] at htail

theorem handed_run (h : client.mTvClientObserver.IsFilled before) (xs : List (Input O)) :
    (Machine.run step client xs).handed = client.handed ++ due before xs := by
  induction xs generalizing client before with
  | nil => exact (List.append_nil _).symm
  | cons x xs ih =>
    rw [Machine.run_cons, ih (isFilled_step h x), handed_step h, List.append_assoc, ← due_cons]

theorem isFilled (xs : List (Input O)) : (run xs).mTvClientObserver.IsFilled (observers xs) := by
  have hrun := @isFilled_run O construct [] SlotMap.IsFilled.empty xs
  rwa [List.nil_append] at hrun

/-- **Every run serves the observers**: the map has no holes, keeps every observer at its place,
and each event is handed to those that were set before it, once for each time, in their order. -/
theorem serves_run (xs : List (Input O)) : Serves xs where
  keys := (isFilled xs).keys_eq
  observer := fun i observer hobserver => (isFilled xs).lookup_eq hobserver
  kept := by
    rintro pre ⟨post, rfl⟩ k observer hlookup
    have hmem : k ∈ (run pre).mTvClientObserver.keys :=
      Finmap.mem_keys.mpr (Finmap.mem_of_lookup_eq_some hlookup)
    -- the key is the index of an observer that was set in the first part
    rw [(isFilled pre).keys_eq, Finset.mem_image] at hmem
    obtain ⟨i, hi, rfl⟩ := hmem
    have hlt : i < (observers pre).length := Finset.mem_range.mp hi
    have hpre := (isFilled pre).lookup_eq (List.getElem?_eq_getElem hlt)
    have hindex : (observers (pre ++ post))[i]? = some observer := by
      rw [observers, List.filterMap_append, List.getElem?_append_left hlt,
        List.getElem?_eq_getElem hlt]
      rw [hlookup] at hpre
      exact (Option.some.inj hpre).symm
    exact (isFilled (pre ++ post)).lookup_eq hindex
  handed := handed_run SlotMap.IsFilled.empty xs

/-! ## The client of the process -/

/-- The client whose observer is its wrapper, with the calls that the wrapper made. -/
def wrapped (client : TvClientObservers Unit) : TvClient where
  mTvClientObserver := client.mTvClientObserver
  called := client.handed.map fun p => TvClientWrapper.onTvClientEvent p.1

theorem wrapped_setTvClientObserver (client : TvClientObservers Unit) (observer : Option Unit) :
    (client.setTvClientObserver observer).wrapped =
      client.wrapped.setTvClientObserver observer := by
  cases observer <;> rfl

theorem wrapped_sendTvClientEvent (client : TvClientObservers Unit) (event : CTvEvent) :
    (client.sendTvClientEvent event).wrapped = client.wrapped.sendTvClientEvent event := by
  let calls : List (CTvEvent × Unit) → List EventCallback :=
    fun handed => handed.map fun p => TvClientWrapper.onTvClientEvent p.1
  let hand : List (CTvEvent × Unit) → Unit → List (CTvEvent × Unit) :=
    fun handed observer => handed ++ [(event, observer)]
  let call : List EventCallback → Unit → List EventCallback :=
    fun called _ => called ++ [TvClientWrapper.onTvClientEvent event]
  -- the wrapper makes its call for what it is handed
  have hact (handed : List (CTvEvent × Unit)) (observer : Unit) :
      calls (hand handed observer) = call (calls handed) observer := List.map_append
  have hwalk := SlotMap.walk_map hact client.mTvClientObserver client.handed
  have hsend : client.wrapped.sendTvClientEvent event =
      ⟨(client.mTvClientObserver.walk call (calls client.handed)).1,
        (client.mTvClientObserver.walk call (calls client.handed)).2⟩ := rfl
  rw [hsend, hwalk]
  rfl

/-- What comes to the client of the process. -/
def observe (client : TvClient) : Input Unit → TvClient
  | .setTvClientObserver observer => client.setTvClientObserver observer
  | .event event => client.sendTvClientEvent event

/-- **The client of the process follows** the one with observers of any type. -/
theorem wrapped_run (client : TvClientObservers Unit) (xs : List (Input Unit)) :
    (Machine.run step client xs).wrapped = Machine.run observe client.wrapped xs := by
  induction xs generalizing client with
  | nil => rfl
  | cons x xs ih =>
    have hstep : (client.step x).wrapped = observe client.wrapped x := by
      cases x with
      | setTvClientObserver observer => exact wrapped_setTvClientObserver client observer
      | event event => exact wrapped_sendTvClientEvent client event
    rw [Machine.run_cons, Machine.run_cons, ih, hstep]

end TvClientObservers
