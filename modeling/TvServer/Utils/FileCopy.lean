import TvServer.Foundations.Stream

/-!
# Copying a file

A file is copied by two nested loops: one reads a chunk to a buffer, and one writes it, in as many
writes as it takes. A call that is interrupted is made again, and one that fails ends both loops.
The file that is copied may be open already, with an offset of its own; the other one is opened for
writing, and what it held is not cut off.

## Main definitions

* `ReadResult`, `WriteOutcome`: what comes of a read and of a write
* `Call`: a call that was made, with what came of it
* `writeLoop`, `copyLoop`, `copyTo`: the copy
* `copyFile`, `destinationAfter`: the copy of a file with its content, and what it leaves
* `Scheduled`, `EndsAtLast`: what the calls have of the schedules, and how far they go
* `Faithful`: the states in which a copy that succeeds is right

## Main results

* `copyTo_stream`: what is written is a prefix of what is read, and all of it when the copy succeeds
* `copyFile_faithful_iff`: when the copy is right
-/

open Stream

/-- A file: its path, and the offset of its descriptor, if it is open. -/
structure CFile where
  mPath : List Char
  mFd : Option ℕ

namespace CFile

def bufferSize : ℕ := 1024

/-- The bytes that a read puts into the buffer. -/
structure Chunk where
  bytes : List UInt8
  ne_nil : bytes ≠ []
  length_le : bytes.length ≤ bufferSize

/-- What a read returns: a chunk, an interruption, another error, or the end of the file. -/
inductive ReadResult where
  | chunk (c : Chunk)
  | eintr
  | error
  | eof

/-- What a write does: it takes a number of the bytes requested, all of them if there are no more,
or it returns an interruption or another error. -/
inductive WriteOutcome where
  | takes (n : ℕ)
  | eintr
  | error
deriving DecidableEq

/-- A call that was made. -/
inductive Call where
  | read (r : ReadResult)
  | write (request : List UInt8) (w : WriteOutcome)

/-- The bytes that a call read. -/
def Call.received : Call → List UInt8
  | .read (.chunk c) => c.bytes
  | _ => []

/-- The bytes that a call wrote. -/
def Call.accepted : Call → List UInt8
  | .write request (.takes n) => request.take n
  | _ => []

/-- The bytes that a call was to write. -/
def Call.requested : Call → List UInt8
  | .write request _ => request
  | .read _ => []

/-- After the call there is no other one: the end of the file, and an error. -/
def Call.Ends : Call → Prop
  | .read .eof | .read .error | .write _ .error => True
  | _ => False

/-! ## The loops -/

/-- The last write of the inner loop: it finished the chunk, took nothing, or failed. -/
inductive LastWrite where
  | finished
  | zero
  | failed
deriving DecidableEq

/-- What the inner loop comes to: its calls, the last write, and the outcomes that are left. -/
structure WriteRun where
  calls : List Call
  last : LastWrite
  left : List WriteOutcome

/-- The inner loop, from a pointer into the buffer on. Behind the outcomes given a write takes
everything. -/
def writeLoop : List UInt8 → List WriteOutcome → WriteRun
  | ptr, [] => ⟨[.write ptr (.takes ptr.length)], .finished, []⟩
  | ptr, w :: ws =>
    let call := Call.write ptr w
    match w with
    | .eintr =>
      let rest := writeLoop ptr ws
      { rest with calls := call :: rest.calls }
    | .error => ⟨[call], .failed, ws⟩
    | .takes n =>
      let bytesWrite := min n ptr.length
      -- the condition of the loop
      if bytesWrite = 0 then ⟨[call], .zero, ws⟩
      else if bytesWrite = ptr.length then ⟨[call], .finished, ws⟩
      else
        let rest := writeLoop (ptr.drop bytesWrite) ws
        { rest with calls := call :: rest.calls }

/-- What the copy comes to: its calls, and what is returned. -/
structure CopyRun where
  calls : List Call
  ret : Int32

/-- A run behind some calls. -/
def CopyRun.after (run : CopyRun) (calls : List Call) : CopyRun :=
  { run with calls := calls ++ run.calls }

/-- The outer loop, with the value that it returns at the end of the file. Behind the results given
a read is at the end. -/
def copyLoop : Int32 → List ReadResult → List WriteOutcome → CopyRun
  | ret, [], _ => ⟨[.read .eof], ret⟩
  | ret, .eof :: _, _ => ⟨[.read .eof], ret⟩
  | ret, .eintr :: rs, ws => (copyLoop ret rs ws).after [.read .eintr]
  | _, .error :: _, _ => ⟨[.read .error], -1⟩
  | ret, .chunk c :: rs, ws =>
    let inner := writeLoop c.bytes ws
    let calls := Call.read (.chunk c) :: inner.calls
    match inner.last with
    | .failed => ⟨calls, -1⟩
    | .finished => (copyLoop 0 rs inner.left).after calls
    | .zero => (copyLoop ret rs inner.left).after calls

/-- Copy a file. A destination that does not open is only logged: the first write on it fails, and
there is no other one. -/
def copyTo (file : CFile) (sourceOpens destinationOpens : Bool) (reads : List ReadResult)
    (writes : List WriteOutcome) : CopyRun :=
  if file.mPath = [] then ⟨[], -1⟩
  else if file.mFd = none ∧ sourceOpens = false then ⟨[], -1⟩
  else copyLoop 0 reads (if destinationOpens then writes else [.error])

/-! ## The schedules -/

/-- The reads among the calls have the results given, and the writes the outcomes, each in their
order. Behind the results given a read is at the end, and behind the outcomes a write takes
everything. -/
def Scheduled : List ReadResult → List WriteOutcome → List Call → Prop
  | _, _, [] => True
  | rs, ws, .read r :: calls => r = rs.headD .eof ∧ Scheduled rs.tail ws calls
  | rs, ws, .write request w :: calls =>
    w = ws.headD (.takes request.length) ∧ Scheduled rs ws.tail calls

/-- The last call ends the copy, and no other one does. -/
def EndsAtLast (calls : List Call) : Prop :=
  ∃ before call, calls = before ++ [call] ∧ call.Ends ∧ ∀ c ∈ before, ¬ c.Ends

theorem endsAtLast_singleton {call : Call} (h : call.Ends) : EndsAtLast [call] :=
  ⟨[], call, rfl, h, List.forall_mem_nil _⟩

theorem EndsAtLast.append {calls rest : List Call} (h : EndsAtLast rest)
    (hcalls : ∀ c ∈ calls, ¬ c.Ends) : EndsAtLast (calls ++ rest) := by
  obtain ⟨before, call, rfl, hend, hbefore⟩ := h
  refine ⟨calls ++ before, call, (List.append_assoc _ _ _).symm, hend, ?_⟩
  exact List.forall_mem_append.mpr ⟨hcalls, hbefore⟩

/-! ## The inner loop -/

theorem writeLoop_calls (ptr : List UInt8) (ws : List WriteOutcome) :
    (writeLoop ptr ws).calls ≠ [] ∧
      ∀ c ∈ (writeLoop ptr ws).calls, ∃ request w, c = .write request w := by
  induction ws generalizing ptr with
  | nil => simp [writeLoop]
  | cons w ws ih =>
    cases w with
    | error => simp [writeLoop]
    | eintr => exact ⟨List.cons_ne_nil _ _, List.forall_mem_cons.mpr ⟨⟨_, _, rfl⟩, (ih ptr).2⟩⟩
    | takes n =>
      simp only [writeLoop]
      split_ifs
      · simp
      · simp
      · exact ⟨List.cons_ne_nil _ _, List.forall_mem_cons.mpr ⟨⟨_, _, rfl⟩, (ih _).2⟩⟩

theorem received_writeLoop (ptr : List UInt8) (ws : List WriteOutcome) :
    ∀ c ∈ (writeLoop ptr ws).calls, c.received = [] := by
  intro c hc
  obtain ⟨request, w, rfl⟩ := (writeLoop_calls ptr ws).2 c hc
  rfl

/-- **The calls of the inner loop** have the outcomes given, and leave the others. -/
theorem scheduled_writeLoop (rs : List ReadResult) (ptr : List UInt8) (ws : List WriteOutcome)
    (calls : List Call) : Scheduled rs ws ((writeLoop ptr ws).calls ++ calls) ↔
      Scheduled rs (writeLoop ptr ws).left calls := by
  induction ws generalizing ptr with
  | nil => exact and_iff_right rfl
  | cons w ws ih =>
    cases w with
    | error => exact and_iff_right rfl
    | eintr => exact (and_iff_right rfl).trans (ih ptr)
    | takes n =>
      -- the loop goes on only where a part is left
      simp only [writeLoop]
      split_ifs
      · exact and_iff_right rfl
      · exact and_iff_right rfl
      · exact (and_iff_right rfl).trans (ih _)

/-- **A write that fails** ends the copy, and there is none before it. -/
theorem ends_writeLoop (ptr : List UInt8) (ws : List WriteOutcome) :
    ((writeLoop ptr ws).last = .failed → EndsAtLast (writeLoop ptr ws).calls) ∧
      ((writeLoop ptr ws).last ≠ .failed → ∀ c ∈ (writeLoop ptr ws).calls, ¬ c.Ends) := by
  induction ws generalizing ptr with
  | nil => simp [writeLoop, Call.Ends]
  | cons w ws ih =>
    cases w with
    | error => exact ⟨fun _ => endsAtLast_singleton trivial, fun h => absurd rfl h⟩
    | eintr =>
      -- an interrupted write is made again
      obtain ⟨hfailed, hrest⟩ := ih ptr
      exact ⟨fun h => (hfailed h).append (List.forall_mem_singleton.mpr id),
        fun h => List.forall_mem_cons.mpr ⟨id, hrest h⟩⟩
    | takes n =>
      have htakes : ¬ (Call.write ptr (.takes n)).Ends := id
      simp only [writeLoop]
      split_ifs
      · exact ⟨fun h => absurd h (by decide), fun _ => List.forall_mem_singleton.mpr htakes⟩
      · exact ⟨fun h => absurd h (by decide), fun _ => List.forall_mem_singleton.mpr htakes⟩
      · obtain ⟨hfailed, hrest⟩ := ih (ptr.drop (min n ptr.length))
        exact ⟨fun h => (hfailed h).append (List.forall_mem_singleton.mpr htakes),
          fun h => List.forall_mem_cons.mpr ⟨htakes, hrest h⟩⟩

/-- **A write asks** for what is left of the chunk. -/
theorem asks_writeLoop (ptr : List UInt8) (ws : List WriteOutcome) :
    AsksFrom Call.received Call.accepted Call.requested ptr (writeLoop ptr ws).calls := by
  induction ws generalizing ptr with
  | nil => exact asksFrom_cons rfl (by simp [Call.received, Call.accepted]) (asksFrom_nil [])
  | cons w ws ih =>
    cases w with
    | error => exact asksFrom_cons rfl (List.append_nil ptr) (asksFrom_nil ptr)
    | eintr => exact asksFrom_cons rfl (List.append_nil ptr) (ih ptr)
    | takes n =>
      -- a chunk is what is taken of it, and what is left
      have htake : ptr ++ Call.received (.write ptr (.takes n)) =
          Call.accepted (.write ptr (.takes n)) ++ ptr.drop n :=
        (List.append_nil ptr).trans (List.take_append_drop n ptr).symm
      simp only [writeLoop]
      split_ifs with hzero hall
      · exact asksFrom_cons rfl htake (asksFrom_nil _)
      · exact asksFrom_cons rfl htake (asksFrom_nil _)
      · have hmin : min n ptr.length = n := by omega
        rw [hmin]
        exact asksFrom_cons rfl htake (ih (ptr.drop n))

/-- No write of the inner loop is without bytes. -/
theorem requested_writeLoop {ptr : List UInt8} (hptr : ptr ≠ []) (ws : List WriteOutcome) :
    ∀ c ∈ (writeLoop ptr ws).calls, c.requested ≠ [] := by
  induction ws generalizing ptr with
  | nil => exact List.forall_mem_singleton.mpr hptr
  | cons w ws ih =>
    cases w with
    | error => exact List.forall_mem_singleton.mpr hptr
    | eintr => exact List.forall_mem_cons.mpr ⟨hptr, ih hptr⟩
    | takes n =>
      simp only [writeLoop]
      split_ifs
      · exact List.forall_mem_singleton.mpr hptr
      · exact List.forall_mem_singleton.mpr hptr
      · -- the loop goes on with bytes that are left
        refine List.forall_mem_cons.mpr ⟨hptr, ih fun hnil => ?_⟩
        have hlen := List.drop_eq_nil_iff.mp hnil
        omega

/-- What the inner loop writes is a part of the chunk from its start, and the whole chunk if it was
finished. -/
theorem accepted_writeLoop (ptr : List UInt8) (ws : List WriteOutcome) :
    (writeLoop ptr ws).calls.flatMap Call.accepted <+: ptr ∧
      ((writeLoop ptr ws).last = .finished →
        (writeLoop ptr ws).calls.flatMap Call.accepted = ptr) := by
  induction ws generalizing ptr with
  | nil => simp [writeLoop, Call.accepted]
  | cons w ws ih =>
    cases w with
    | error => simp [writeLoop, Call.accepted]
    | eintr => exact ih ptr
    | takes n =>
      simp only [writeLoop]
      split_ifs with hzero hall
      · simp [Call.accepted, List.take_prefix]
      · have hle : ptr.length ≤ n := by omega
        simp [Call.accepted, List.take_of_length_le hle]
      · -- what was taken, and what the loop writes of the rest
        have hmin : min n ptr.length = n := by omega
        obtain ⟨hpfx, hfin⟩ := ih (ptr.drop n)
        simp only [hmin, List.flatMap_cons, Call.accepted]
        refine ⟨?_, fun hlast => ?_⟩
        · conv_rhs => rw [← List.take_append_drop n ptr]
          exact (List.prefix_append_right_inj _).mpr hpfx
        · rw [hfin hlast, List.take_append_drop]

/-- The outcomes that are left were given, and a write that takes nothing was one of them. -/
theorem writeLoop_left {ptr : List UInt8} (hptr : ptr ≠ []) (ws : List WriteOutcome) :
    (writeLoop ptr ws).left ⊆ ws ∧ ((writeLoop ptr ws).last = .zero → .takes 0 ∈ ws) := by
  induction ws generalizing ptr with
  | nil => simp [writeLoop]
  | cons w ws ih =>
    have hlater : ∀ ptr : List UInt8, ptr ≠ [] → (writeLoop ptr ws).left ⊆ w :: ws ∧
        ((writeLoop ptr ws).last = .zero → .takes 0 ∈ w :: ws) := fun ptr hptr =>
      ⟨List.Subset.trans (ih hptr).1 (List.subset_cons_self w ws),
        fun hlast => List.mem_cons_of_mem w ((ih hptr).2 hlast)⟩
    cases w with
    | error => exact ⟨List.subset_cons_self _ ws, by simp [writeLoop]⟩
    | eintr => exact hlater ptr hptr
    | takes n =>
      have hpos : 0 < ptr.length := List.length_pos_iff.mpr hptr
      simp only [writeLoop]
      split_ifs with hzero hall
      · obtain rfl : n = 0 := by omega
        exact ⟨List.subset_cons_self _ ws, fun _ => List.mem_cons_self⟩
      · exact ⟨List.subset_cons_self _ ws, by simp⟩
      · apply hlater
        intro hnil
        have hlen := List.drop_eq_nil_iff.mp hnil
        omega

/-! ## The outer loop -/

/-- The value that is returned for an error is not that of a success. -/
theorem error_ne_zero : ¬ (-1 : Int32) = 0 := by decide

theorem copyLoop_calls_ne_nil (ret : Int32) (rs : List ReadResult) (ws : List WriteOutcome) :
    (copyLoop ret rs ws).calls ≠ [] := by
  rcases rs with _ | ⟨r, rs⟩
  · simp [copyLoop]
  · cases r with
    | chunk c =>
      simp only [copyLoop]
      split <;> simp [CopyRun.after]
    | _ => simp [copyLoop, CopyRun.after]

/-- No write of the schedule takes nothing. -/
def NoZero (ws : List WriteOutcome) : Prop := ∀ w ∈ ws, w ≠ .takes 0

theorem noZero_nil : NoZero [] := List.forall_mem_nil _

theorem NoZero.inner {ws : List WriteOutcome} (h : NoZero ws) (c : Chunk) :
    (writeLoop c.bytes ws).last ≠ .zero ∧ NoZero (writeLoop c.bytes ws).left := by
  obtain ⟨hleft, hlast⟩ := writeLoop_left c.ne_nil ws
  exact ⟨fun he => h _ (hlast he) rfl, fun w hw => h w (hleft hw)⟩

/-- The calls for a chunk that was written whole. -/
theorem finished_chunk {c : Chunk} {ws : List WriteOutcome}
    (hlast : (writeLoop c.bytes ws).last = .finished) :
    let calls := Call.read (.chunk c) :: (writeLoop c.bytes ws).calls
    calls.flatMap Call.accepted = c.bytes ∧ calls.flatMap Call.received = c.bytes := by
  have hnone : (writeLoop c.bytes ws).calls.flatMap Call.received = [] :=
    List.flatMap_eq_nil_iff.mpr (received_writeLoop c.bytes ws)
  refine ⟨(accepted_writeLoop c.bytes ws).2 hlast, ?_⟩
  rw [List.flatMap_cons, hnone, List.append_nil]
  rfl

/-- **Every call has its result**: the reads those given, and the writes theirs. -/
theorem scheduled_copyLoop (ret : Int32) (rs : List ReadResult) (ws : List WriteOutcome) :
    Scheduled rs ws (copyLoop ret rs ws).calls := by
  induction rs generalizing ret ws with
  | nil => exact ⟨rfl, trivial⟩
  | cons r rs ih =>
    cases r with
    | eof => exact ⟨rfl, trivial⟩
    | error => exact ⟨rfl, trivial⟩
    | eintr => exact ⟨rfl, ih ret ws⟩
    | chunk c =>
      -- the writes of the chunk, and what comes behind them with the outcomes that they leave
      have hinner := scheduled_writeLoop rs c.bytes ws
      simp only [copyLoop]
      split
      · refine ⟨rfl, ?_⟩
        rw [← List.append_nil (writeLoop c.bytes ws).calls]
        exact (hinner []).mpr trivial
      · exact ⟨rfl, (hinner _).mpr (ih 0 _)⟩
      · exact ⟨rfl, (hinner _).mpr (ih ret _)⟩

/-- **The copy goes on** to the end of the file, or to an error. -/
theorem ends_copyLoop (ret : Int32) (rs : List ReadResult) (ws : List WriteOutcome) :
    EndsAtLast (copyLoop ret rs ws).calls := by
  induction rs generalizing ret ws with
  | nil => exact endsAtLast_singleton trivial
  | cons r rs ih =>
    cases r with
    | eof => exact endsAtLast_singleton trivial
    | error => exact endsAtLast_singleton trivial
    | eintr => exact (ih ret ws).append (List.forall_mem_singleton.mpr id)
    | chunk c =>
      have hread : ¬ (Call.read (.chunk c)).Ends := id
      obtain ⟨hfailed, hgoes⟩ := ends_writeLoop c.bytes ws
      simp only [copyLoop]
      cases hend : (writeLoop c.bytes ws).last with
      | failed => exact (hfailed hend).append (List.forall_mem_singleton.mpr hread)
      | finished | zero =>
        -- the outer loop reads on, after a write that took nothing too
        rw [hend] at hgoes
        exact (ih _ _).append (List.forall_mem_cons.mpr ⟨hread, hgoes (by decide)⟩)

/-- **The calls ask** for what was read and is not written yet: a write for all of it, and a read
only if there is nothing. -/
theorem asks_copyLoop (ret : Int32) (rs : List ReadResult) {ws : List WriteOutcome}
    (hws : NoZero ws) :
    AsksFrom Call.received Call.accepted Call.requested [] (copyLoop ret rs ws).calls := by
  have hread : ∀ {r calls}, (Call.read r).received = [] →
      AsksFrom Call.received Call.accepted Call.requested [] calls →
      AsksFrom Call.received Call.accepted Call.requested [] (.read r :: calls) :=
    fun hr hcalls => asksFrom_cons rfl hr hcalls
  induction rs generalizing ret ws with
  | nil => exact hread rfl (asksFrom_nil [])
  | cons r rs ih =>
    cases r with
    | eof => exact hread rfl (asksFrom_nil [])
    | error => exact hread rfl (asksFrom_nil [])
    | eintr => exact hread rfl (ih ret hws)
    | chunk c =>
      obtain ⟨hlast, hleft⟩ := hws.inner c
      have hinner : AsksFrom Call.received Call.accepted Call.requested []
          (.read (.chunk c) :: (writeLoop c.bytes ws).calls) :=
        asksFrom_cons rfl rfl (asks_writeLoop c.bytes ws)
      simp only [copyLoop]
      cases hend : (writeLoop c.bytes ws).last with
      | zero => exact absurd hend hlast
      | failed => exact hinner
      | finished =>
        -- nothing is pending behind a chunk that was written
        obtain ⟨haccepted, hreceived⟩ := finished_chunk hend
        exact asksFrom_append hinner (haccepted.trans hreceived.symm) (ih 0 hleft)

/-- A call that is no read is for some bytes. -/
theorem requested_copyLoop (ret : Int32) (rs : List ReadResult) (ws : List WriteOutcome) :
    ∀ request w, .write request w ∈ (copyLoop ret rs ws).calls → request ≠ [] := by
  intro request w hmem
  induction rs generalizing ret ws with
  | nil => simp [copyLoop] at hmem
  | cons r rs ih =>
    cases r with
    | eof => simp [copyLoop] at hmem
    | error => simp [copyLoop] at hmem
    | eintr => exact ih ret ws (by simpa [copyLoop, CopyRun.after] using hmem)
    | chunk c =>
      have hinner : .write request w ∈ (writeLoop c.bytes ws).calls → request ≠ [] :=
        requested_writeLoop c.ne_nil ws _
      simp only [copyLoop] at hmem
      split at hmem
      · exact hinner (by simpa using hmem)
      all_goals
        rcases List.mem_append.mp hmem with hchunk | hrest
        · exact hinner (by simpa using hchunk)
        · exact ih _ _ hrest

theorem accepted_prefix_requested (call : Call) : call.accepted <+: call.requested := by
  rcases call with r | ⟨request, n | - | -⟩
  · exact List.nil_prefix
  · exact List.take_prefix n request
  · exact List.nil_prefix
  · exact List.nil_prefix

/-- A run behind calls of which every byte read was written. -/
theorem after_iff {run : CopyRun} {calls : List Call} (hne : run.calls ≠ [])
    (hall : calls.flatMap Call.accepted = calls.flatMap Call.received) :
    (run.calls.getLast? = some (.read .eof) ∧
      run.calls.flatMap Call.accepted = run.calls.flatMap Call.received) ↔
    ((run.after calls).calls.getLast? = some (.read .eof) ∧
      (run.after calls).calls.flatMap Call.accepted =
        (run.after calls).calls.flatMap Call.received) := by
  have hlast : (run.after calls).calls.getLast? = run.calls.getLast? := by
    rw [CopyRun.after, List.getLast?_append_of_ne_nil _ hne]
  rw [hlast, CopyRun.after, List.flatMap_append, List.flatMap_append, hall,
    List.append_cancel_left_eq]

/-- **What is returned** is zero exactly if the last call is a read at the end of the file, and
every byte read was written. -/
theorem ret_copyLoop_iff (rs : List ReadResult) {ws : List WriteOutcome} (hws : NoZero ws) :
    (copyLoop 0 rs ws).ret = 0 ↔ (copyLoop 0 rs ws).calls.getLast? = some (.read .eof) ∧
      (copyLoop 0 rs ws).calls.flatMap Call.accepted =
        (copyLoop 0 rs ws).calls.flatMap Call.received := by
  induction rs generalizing ws with
  | nil => simp [copyLoop, Call.accepted, Call.received]
  | cons r rs ih =>
    cases r with
    | eof => simp [copyLoop, Call.accepted, Call.received]
    | error => simp [copyLoop]
    | eintr => exact (ih hws).trans (after_iff (copyLoop_calls_ne_nil 0 rs ws) rfl)
    | chunk c =>
      obtain ⟨hzero, hleft⟩ := hws.inner c
      simp only [copyLoop]
      cases hend : (writeLoop c.bytes ws).last with
      | zero => exact absurd hend hzero
      | failed =>
        -- the last call is a write
        refine iff_of_false error_ne_zero fun h => ?_
        obtain ⟨hne, hwrites⟩ := writeLoop_calls c.bytes ws
        rw [List.getLast?_cons_of_ne_nil hne] at h
        obtain ⟨request, w, he⟩ := hwrites _ (List.mem_of_getLast? h.1)
        cases he
      | finished =>
        obtain ⟨haccepted, hreceived⟩ := finished_chunk hend
        exact (ih hleft).trans
          (after_iff (copyLoop_calls_ne_nil 0 rs _) (haccepted.trans hreceived.symm))

/-- **The copy is a stream.** With a destination that opened, and no write that takes nothing,
whatever else comes of the calls: without a source there is no call, and otherwise the calls have
the results of the schedules, in their order, up to the first that is an end. A write asks for all
that was read and is not written yet, and there is a read only if there is nothing of that. So at
every moment the bytes written are a prefix of those read, and the copy returns zero exactly if the
source came to its end and every byte read was written. -/
theorem copyTo_stream (file : CFile) (sourceOpens : Bool) (reads : List ReadResult)
    {writes : List WriteOutcome} (hwrites : NoZero writes) :
    let run := file.copyTo sourceOpens true reads writes
    (if file.mPath = [] ∨ (file.mFd = none ∧ sourceOpens = false) then run = ⟨[], -1⟩
      else Scheduled reads writes run.calls ∧ EndsAtLast run.calls) ∧
      AsksFrom Call.received Call.accepted Call.requested [] run.calls ∧
      (∀ request w, .write request w ∈ run.calls → request ≠ []) ∧
      Relays Call.received Call.accepted run.calls ∧
      (run.ret = 0 ↔ run.calls.getLast? = some (.read .eof) ∧
        run.calls.flatMap Call.accepted = run.calls.flatMap Call.received) := by
  intro run
  by_cases hstops : file.mPath = [] ∨ (file.mFd = none ∧ sourceOpens = false)
  · -- nothing is called
    have hrun : run = ⟨[], -1⟩ := by
      simp only [run, copyTo]
      rcases hstops with hpath | hclosed
      · rw [if_pos hpath]
      · rw [if_pos hclosed, ite_self]
    rw [if_pos hstops, hrun]
    have hasks : AsksFrom Call.received Call.accepted Call.requested [] [] := asksFrom_nil []
    exact ⟨rfl, hasks, by simp, hasks.relays (by simp), by simp⟩
  · obtain ⟨hpath, hopen⟩ := not_or.mp hstops
    have hrun : run = copyLoop 0 reads writes := by
      simp only [run, copyTo, if_neg hpath, if_neg hopen, if_true]
    have hasks := asks_copyLoop 0 reads hwrites
    rw [if_neg hstops, hrun]
    exact ⟨⟨scheduled_copyLoop 0 reads writes, ends_copyLoop 0 reads writes⟩, hasks,
      requested_copyLoop 0 reads writes, hasks.relays fun call _ => accepted_prefix_requested call,
      ret_copyLoop_iff reads hwrites⟩

/-- A chunk that is written in two parts, with an interruption in between. -/
theorem copyTo_stream_parts :
    let reads := [.chunk ⟨[1, 2, 3], by decide, by decide⟩, .eintr, .eof]
    let writes := [.takes 2, .eintr]
    let run := copyTo ⟨['s'], none⟩ true true reads writes
    NoZero writes ∧ run.ret = 0 ∧ run.calls.map Call.requested = [[], [1, 2, 3], [3], [3], [], []] ∧
      (Scheduled reads writes run.calls ∧ EndsAtLast run.calls) ∧
      Relays Call.received Call.accepted run.calls ∧
      (run.ret = 0 ↔ run.calls.getLast? = some (.read .eof) ∧
        run.calls.flatMap Call.accepted = run.calls.flatMap Call.received) := by
  have hwrites : NoZero [.takes 2, .eintr] := by simp [NoZero]
  obtain ⟨hcalls, -, -, hrelays, hret⟩ := copyTo_stream ⟨['s'], none⟩ true
    [.chunk ⟨[1, 2, 3], by decide, by decide⟩, .eintr, .eof] hwrites
  rw [if_neg (by simp)] at hcalls
  exact ⟨hwrites, rfl, rfl, hcalls, hrelays, hret⟩

/-! ## The files -/

/-- Open the file for reading and writing, if it is not open; a path is stored before. Returned is
whether it is open then. -/
def openFile (file : CFile) (path : Option (List Char)) (opens : Bool) : CFile × Bool :=
  if file.mFd.isSome then (file, true)
  else
    let mPath := path.getD file.mPath
    if mPath = [] then (⟨mPath, none⟩, false)
    else if opens then (⟨mPath, some 0⟩, true)
    else (⟨mPath, none⟩, false)

/-- The file that is copied and the one that it is copied to: what they hold, if there is the second
one before, and whether they can be opened. -/
structure Files where
  source : List UInt8
  destination : Option (List UInt8)
  sourceOpens : Bool
  destinationOpens : Bool

/-- What a read does that is not at the end of the file: it takes a byte and at most a number of
further ones, or it returns an interruption or another error. -/
inductive ReadOutcome where
  | upTo (n : ℕ)
  | eintr
  | error

/-- The bytes that a read takes. -/
def Chunk.ofCons (b : UInt8) (bs : List UInt8) (n : ℕ) : Chunk where
  bytes := b :: bs.take (min n (bufferSize - 1))
  ne_nil := List.cons_ne_nil _ _
  length_le := by
    rw [List.length_cons, List.length_take, bufferSize]
    omega

/-- The results of the reads, from a place in the file on. Behind the outcomes given a read
fails. -/
def fileReads : List ReadOutcome → List UInt8 → List ReadResult
  | [], [] => [.eof]
  | [], _ :: _ => [.error]
  | .eintr :: os, bytes => .eintr :: fileReads os bytes
  | .error :: _, _ => [.error]
  | .upTo _ :: _, [] => [.eof]
  | .upTo n :: os, b :: bs =>
    .chunk (.ofCons b bs n) :: fileReads os (bs.drop (min n (bufferSize - 1)))

/-- What there is to read: a file that is opened is read from its start. -/
def rest (file : CFile) (files : Files) : List UInt8 := files.source.drop (file.mFd.getD 0)

def copyFile (file : CFile) (files : Files) (outcomes : List ReadOutcome)
    (writes : List WriteOutcome) : CopyRun :=
  file.copyTo files.sourceOpens files.destinationOpens (fileReads outcomes (file.rest files)) writes

/-- The copy comes to its loops: there is a path, and the source is open. -/
def Starts (file : CFile) (files : Files) : Prop :=
  file.mPath ≠ [] ∧ (file.mFd.isSome ∨ files.sourceOpens)

instance (file : CFile) (files : Files) : Decidable (Starts file files) :=
  inferInstanceAs (Decidable (_ ∧ _))

/-- What the destination holds then. It is created if it is not there, and not truncated. -/
def destinationAfter (file : CFile) (files : Files) (outcomes : List ReadOutcome)
    (writes : List WriteOutcome) : Option (List UInt8) :=
  if Starts file files ∧ files.destinationOpens then
    let pieces := (file.copyFile files outcomes writes).calls.map Call.accepted
    some (writeAll (files.destination.getD []) 0 pieces)
  else files.destination

/-- A copy that succeeds is right. -/
def Copies (file : CFile) (files : Files) (outcomes : List ReadOutcome)
    (writes : List WriteOutcome) : Prop :=
  (file.copyFile files outcomes writes).ret = 0 →
    file.destinationAfter files outcomes writes = some files.source

/-! ## The bytes that come to the destination -/

/-- **What is written is a part** of what there is to read, whatever comes of the calls. -/
theorem accepted_sublist (ret : Int32) (os : List ReadOutcome) (bytes : List UInt8)
    (ws : List WriteOutcome) :
    ((copyLoop ret (fileReads os bytes) ws).calls.flatMap Call.accepted).Sublist bytes := by
  induction os generalizing ret bytes ws with
  | nil => cases bytes <;> exact List.nil_sublist _
  | cons o os ih =>
    cases o with
    | error => exact List.nil_sublist _
    | eintr => exact ih ret bytes ws
    | upTo n =>
      rcases bytes with _ | ⟨b, bs⟩
      · exact List.nil_sublist _
      · have hsplit :
            b :: bs = (Chunk.ofCons b bs n).bytes ++ bs.drop (min n (bufferSize - 1)) := by
          rw [Chunk.ofCons, List.cons_append, List.take_append_drop]
        have hchunk := (accepted_writeLoop (Chunk.ofCons b bs n).bytes ws).1.sublist
        simp only [fileReads, copyLoop]
        rw [hsplit]
        split
        · exact hchunk.trans (List.sublist_append_left _ _)
        all_goals
          rw [CopyRun.after, List.flatMap_append, List.flatMap_cons]
          exact hchunk.append (ih _ _ _)

/-- **A copy that succeeds** wrote everything, if no write took nothing. -/
theorem accepted_of_ret {os : List ReadOutcome} {bytes : List UInt8} {ws : List WriteOutcome}
    (hws : NoZero ws) (hret : (copyLoop 0 (fileReads os bytes) ws).ret = 0) :
    (copyLoop 0 (fileReads os bytes) ws).calls.flatMap Call.accepted = bytes := by
  induction os generalizing bytes ws with
  | nil =>
    cases bytes with
    | nil => rfl
    | cons b bs => exact absurd hret error_ne_zero
  | cons o os ih =>
    cases o with
    | error => exact absurd hret error_ne_zero
    | eintr => exact ih hws hret
    | upTo n =>
      rcases bytes with _ | ⟨b, bs⟩
      · rfl
      · obtain ⟨hzero, hleft⟩ := hws.inner (.ofCons b bs n)
        simp only [fileReads, copyLoop] at hret ⊢
        cases hend : (writeLoop (Chunk.ofCons b bs n).bytes ws).last with
        | zero => exact absurd hend hzero
        | failed =>
          rw [hend] at hret
          exact absurd hret error_ne_zero
        | finished =>
          rw [hend] at hret
          rw [CopyRun.after, List.flatMap_append, (finished_chunk hend).1, ih hleft hret,
            Chunk.ofCons, List.cons_append, List.take_append_drop]

/-- **A destination that did not open** is no failure if there is nothing to write. -/
theorem eq_nil_of_ret {os : List ReadOutcome} {bytes : List UInt8}
    (hret : (copyLoop 0 (fileReads os bytes) [.error]).ret = 0) : bytes = [] := by
  induction os generalizing bytes with
  | nil =>
    cases bytes with
    | nil => rfl
    | cons b bs => exact absurd hret error_ne_zero
  | cons o os ih =>
    cases o with
    | error => exact absurd hret error_ne_zero
    | eintr => exact ih hret
    | upTo n =>
      cases bytes with
      | nil => rfl
      | cons b bs => exact absurd hret error_ne_zero

/-- **Any part can be what is written** by a copy that succeeds: the bytes are read one by one, and
the writes of the others take nothing. -/
theorem exists_copy {sub bytes : List UInt8} (hsub : sub.Sublist bytes) :
    ∃ os ws, (sub.length = bytes.length → NoZero ws) ∧
      (copyLoop 0 (fileReads os bytes) ws).ret = 0 ∧
      (copyLoop 0 (fileReads os bytes) ws).calls.flatMap Call.accepted = sub := by
  induction hsub with
  | slnil => exact ⟨[], [], fun _ => noZero_nil, rfl, rfl⟩
  | @cons sub bs b hsub ih =>
    obtain ⟨os, ws, -, hret, haccepted⟩ := ih
    refine ⟨.upTo 0 :: os, .takes 0 :: ws, fun hlen => ?_, hret, haccepted⟩
    have hle := hsub.length_le
    rw [List.length_cons] at hlen
    omega
  | @cons_cons sub bs b hsub ih =>
    obtain ⟨os, ws, hzero, hret, haccepted⟩ := ih
    refine ⟨.upTo 0 :: os, .takes 1 :: ws, fun hlen => ?_, hret, congrArg (b :: ·) haccepted⟩
    exact List.forall_mem_cons.mpr ⟨by simp, hzero (Nat.succ.inj hlen)⟩

/-! ## When the copy is right -/

/-- The copy comes to its loops with a destination that is open, and the bytes from the offset of
the source on are its start, behind which the destination has the rest already. Without a
destination there is nothing to read, and it has the content already. -/
def Faithful (file : CFile) (files : Files) : Prop :=
  Starts file files →
    if files.destinationOpens then
      file.rest files <+: files.source ∧
        (files.destination.getD []).drop (file.rest files).length =
          files.source.drop (file.rest files).length
    else file.rest files = [] → files.destination = some files.source

/-- The destination has the content already, and what there is to read is one byte that repeats, as
it does at the start of the source. -/
def FaithfulLossy (file : CFile) (files : Files) : Prop :=
  Starts file files →
    if files.destinationOpens then
      files.destination.getD [] = files.source ∧
        (∀ x ∈ file.rest files, ∀ y ∈ file.rest files, x = y) ∧ file.rest files <+: files.source
    else file.rest files = [] → files.destination = some files.source

theorem copyFile_of_not_starts {file : CFile} {files : Files} (h : ¬ Starts file files)
    (os : List ReadOutcome) (ws : List WriteOutcome) : Copies file files os ws := by
  intro hret
  refine absurd hret ?_
  simp only [Starts, not_and_or, not_or, ne_eq, not_not, Option.isSome_iff_ne_none,
    Bool.not_eq_true] at h
  rw [copyFile, copyTo]
  rcases h with hpath | hclosed
  · rw [if_pos hpath]
    exact error_ne_zero
  · rw [if_pos hclosed, ite_self]
    exact error_ne_zero

variable {file : CFile} {files : Files} {os : List ReadOutcome} {ws : List WriteOutcome}

theorem copyFile_of_starts (h : Starts file files) : file.copyFile files os ws =
    copyLoop 0 (fileReads os (file.rest files))
      (if files.destinationOpens then ws else [.error]) := by
  have hopen : ¬ (file.mFd = none ∧ files.sourceOpens = false) := by
    rintro ⟨hnone, hclosed⟩
    rcases h.2 with hfd | hsource
    · rw [hnone] at hfd
      cases hfd
    · rw [hclosed] at hsource
      cases hsource
  rw [copyFile, copyTo, if_neg h.1, if_neg hopen]

/-- A copy to a destination that opened leaves what was written, over what was there. -/
theorem copies_open_iff (h : Starts file files) (hopens : files.destinationOpens = true) :
    Copies file files os ws ↔ ((copyLoop 0 (fileReads os (file.rest files)) ws).ret = 0 →
      overwrite (files.destination.getD [])
        ((copyLoop 0 (fileReads os (file.rest files)) ws).calls.flatMap Call.accepted) =
          files.source) := by
  have hafter : destinationAfter file files os ws = some (overwrite (files.destination.getD [])
      ((file.copyFile files os ws).calls.flatMap Call.accepted)) := by
    rw [destinationAfter, if_pos ⟨h, hopens⟩, List.flatMap_def, ← writeAll_eq]
  rw [Copies, hafter, copyFile_of_starts h, if_pos hopens, Option.some_inj]

/-- A copy to one that did not open leaves it as it was. -/
theorem copies_closed_iff (h : Starts file files) (hcloses : files.destinationOpens = false) :
    (∀ os ws, NoZero ws → Copies file files os ws) ↔
      (file.rest files = [] → files.destination = some files.source) := by
  have hcopies : ∀ os ws, Copies file files os ws ↔
      ((copyLoop 0 (fileReads os (file.rest files)) [.error]).ret = 0 →
        files.destination = some files.source) := by
    intro os ws
    rw [Copies, destinationAfter, copyFile_of_starts h]
    simp [hcloses]
  constructor
  · intro hall hnil
    apply (hcopies [] []).mp (hall [] [] noZero_nil)
    rw [hnil]
    rfl
  · intro hnil os ws _
    exact (hcopies os ws).mpr fun hret => hnil (eq_nil_of_ret hret)

/-- The copy is right with every schedule in which no write takes nothing. -/
theorem forall_copies_iff :
    (∀ os ws, NoZero ws → Copies file files os ws) ↔ Faithful file files := by
  by_cases h : Starts file files
  swap
  · exact iff_of_true (fun os ws _ => copyFile_of_not_starts h os ws) fun hs => absurd hs h
  rw [Faithful, imp_iff_right h]
  cases hopens : files.destinationOpens with
  | false => exact copies_closed_iff h hopens
  | true =>
    rw [if_pos rfl, ← overwrite_eq_iff]
    constructor
    · intro hall
      obtain ⟨os, ws, hzero, hret, haccepted⟩ := exists_copy (List.Sublist.refl (file.rest files))
      have hcopies := (copies_open_iff h hopens).mp (hall os ws (hzero rfl)) hret
      rwa [haccepted] at hcopies
    · intro hfaithful os ws hws
      refine (copies_open_iff h hopens).mpr fun hret => ?_
      rwa [accepted_of_ret hws hret]

/-- The copy is right with every schedule. -/
theorem forall_copies_lossy_iff :
    (∀ os ws, Copies file files os ws) ↔ FaithfulLossy file files := by
  by_cases h : Starts file files
  swap
  · exact iff_of_true (copyFile_of_not_starts h) fun hs => absurd hs h
  rw [FaithfulLossy, imp_iff_right h]
  cases hopens : files.destinationOpens with
  | false =>
    rw [if_neg Bool.false_ne_true, ← copies_closed_iff h hopens]
    refine ⟨fun hall os ws _ => hall os ws, fun hall os ws => ?_⟩
    -- the schedule of the writes does not matter
    have hcopies := hall os [] noZero_nil
    rw [Copies, destinationAfter, copyFile_of_starts h] at hcopies ⊢
    simpa [hopens] using hcopies
  | true =>
    rw [if_pos rfl, ← sublists_prefix_iff]
    constructor
    · intro hall
      -- every part of what there is to read can be all that is written
      have hsub : ∀ sub, sub.Sublist (file.rest files) →
          overwrite (files.destination.getD []) sub = files.source := by
        intro sub hsub
        obtain ⟨os, ws, -, hret, haccepted⟩ := exists_copy hsub
        have hcopies := (copies_open_iff h hopens).mp (hall os ws) hret
        rwa [haccepted] at hcopies
      exact ⟨hsub [] (List.nil_sublist _),
        fun sub hpart => ((overwrite_eq_iff _ _ _).mp (hsub sub hpart)).1⟩
    · rintro ⟨hold, hparts⟩ os ws
      refine (copies_open_iff h hopens).mpr fun _ => ?_
      rw [hold]
      exact (overwrite_eq_iff _ _ _).mpr ⟨hparts _ (accepted_sublist 0 os _ ws), rfl⟩

/-- **When the copy is right**: a copy that succeeds is right with every schedule of the calls
exactly in the faithful states, if no write takes nothing; and exactly in those in which every part
of what there is to read can be lost, if some may. -/
theorem copyFile_faithful_iff (file : CFile) (files : Files) :
    ((∀ os ws, NoZero ws → Copies file files os ws) ↔ Faithful file files) ∧
      ((∀ os ws, Copies file files os ws) ↔ FaithfulLossy file files) :=
  ⟨forall_copies_iff, forall_copies_lossy_iff⟩

/-- A longer file that was there keeps its end. -/
theorem not_forall_copies : ¬ ∀ file files os ws, Copies file files os ws := by
  intro h
  have hcopies := h ⟨['s'], none⟩ ⟨[1], some [2, 3], true, true⟩ [.upTo 0] [] rfl
  exact absurd hcopies (by decide)

/-- A file that was not open is at its start when it was opened. -/
theorem openFile_offset (hclosed : file.mFd = none) (path : Option (List Char)) (opens : Bool) :
    (file.openFile path opens).1.mFd.getD 0 = 0 := by
  rw [openFile, hclosed]
  simp only [Option.isSome_none, Bool.false_eq_true, if_false]
  split_ifs <;> rfl

/-- **A file that is not open, or at its start**, is copied right exactly to a destination that does
not hold more. -/
theorem faithful_iff_of_start (hstarts : Starts file files) (hopens : files.destinationOpens = true)
    (hstart : file.mFd.getD 0 = 0) :
    Faithful file files ↔ (files.destination.getD []).length ≤ files.source.length := by
  have hrest : file.rest files = files.source := by rw [rest, hstart, List.drop_zero]
  rw [Faithful, imp_iff_right hstarts, if_pos hopens, hrest, List.drop_length, List.drop_eq_nil_iff]
  exact and_iff_right List.prefix_rfl

end CFile
