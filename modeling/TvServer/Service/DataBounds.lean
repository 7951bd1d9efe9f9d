import TvServer.Service.DataCommands

/-!
# The bounds of the data buffer

A data transaction announces how many words follow its command, and each of them is stored in a
buffer of 1024 bytes. Nothing compares the two: the loop runs to the announced size. What the
parser copies back to the buffer stays at its start.

## Main definitions

* `storeIndices`: the indices that the loop writes
* `parserIndices`: the indices that the parser writes
* `StaysInBounds`: a transaction writes within the buffer, and one that is too long writes nothing
  to the node

## Main results

* `isSome_readDataFrom_iff`: the loop runs as long as its indices are in the buffer
* `get_parserTvDataCommand`: the parser keeps the buffer elsewhere
* `staysInBounds_iff`: the transactions that stay in bounds
-/

namespace TvService

open CTv (realEdidDataSize)

variable {ans : EdidPortAnswers} {mpTv : CTv}

/-! ## The loop -/

/-- The indices that the loop writes, from an index on. -/
def storeIndices : ℕ → ℕ → List ℕ
  | 0, _ => []
  | size + 1, count => count :: storeIndices size (count + 1)

theorem mem_storeIndices {size count i : ℕ} :
    i ∈ storeIndices size count ↔ count ≤ i ∧ i < count + size := by
  induction size generalizing count with
  | zero =>
    refine iff_of_false List.not_mem_nil fun h => ?_
    omega
  | succ size ih =>
    rw [storeIndices, List.mem_cons, ih]
    omega

/-- **The loop runs** to its end exactly if all its indices are in the buffer. -/
theorem isSome_readDataFrom_iff {size count : ℕ} (dataBuf : Vector UInt8 dataBufSize)
    (data : Parcel) : (readDataFrom size count dataBuf data).isSome ↔
      ∀ i ∈ storeIndices size count, i < dataBufSize := by
  induction size generalizing count dataBuf data with
  | zero => exact iff_of_true rfl fun i hi => absurd hi List.not_mem_nil
  | succ size ih =>
    rw [readDataFrom, storeIndices, List.forall_mem_cons]
    split
    · rename_i hcount
      rw [and_iff_right hcount]
      exact ih _ _
    · rename_i hcount
      exact iff_of_false Bool.false_ne_true fun h => hcount h.1

/-- The indices of the loop from the start of the buffer. -/
theorem storeIndices_lt_iff (size : ℕ) :
    (∀ i ∈ storeIndices size 0, i < dataBufSize) ↔ size ≤ dataBufSize := by
  constructor
  · intro h
    by_contra hsize
    -- the loop comes to the index right behind the buffer
    have hmem : dataBufSize ∈ storeIndices size 0 := by
      rw [mem_storeIndices]
      omega
    exact absurd (h dataBufSize hmem) (Nat.lt_irrefl _)
  · intro hsize i hi
    rw [mem_storeIndices] at hi
    omega

/-! ## The parser -/

/-- The indices that the parser writes: those of the data that is asked for. -/
def parserIndices (commandBuf : List Char) : List ℕ :=
  let cmdbuff := commandBuf.take dataBufSize
  if '\x00' ∈ cmdbuff then
    match strtokInt (Lines.cstr cmdbuff) with
    | some (cmdID, rest) =>
      if cmdID = hdmiEdidDataGet ∧ (strtokInt rest).isSome then List.range realEdidDataSize else []
    | none => []
  else []

theorem parserIndices_lt {commandBuf : List Char} {i : ℕ} (hi : i ∈ parserIndices commandBuf) :
    i < dataBufSize := by
  have hrange : ∀ i ∈ List.range realEdidDataSize, i < dataBufSize := by
    intro i hi
    have hlt : i < realEdidDataSize := List.mem_range.mp hi
    have hsize : realEdidDataSize ≤ dataBufSize := by decide
    exact Nat.lt_of_lt_of_le hlt hsize
  rw [parserIndices] at hi
  split at hi
  · split at hi
    · split at hi
      · exact hrange i hi
      · exact absurd hi List.not_mem_nil
    · exact absurd hi List.not_mem_nil
  · exact absurd hi List.not_mem_nil

/-- **The parser keeps the buffer** at the indices that it does not write. -/
theorem get_parserTvDataCommand {commandBuf : List Char}
    {dataBuf dataBuf' : Vector UInt8 dataBufSize} {ret : Int32} {actions : List EdidPortAction}
    (h : parserTvDataCommand ans mpTv commandBuf dataBuf = some (ret, dataBuf', actions))
    (i : Fin dataBufSize) (hi : i.val ∉ parserIndices commandBuf) :
    dataBuf'.get i = dataBuf.get i := by
  rw [parserIndices] at hi
  rw [parserTvDataCommand] at h
  dsimp only at h hi
  split at h
  · rename_i hnull
    rw [if_pos hnull] at hi
    obtain ⟨⟨cmdID, rest⟩, hcmd, h⟩ := Option.bind_eq_some_iff.mp h
    rw [hcmd] at hi
    dsimp only at h hi
    split_ifs at h with hset hget
    · obtain ⟨token, -, h⟩ := Option.bind_eq_some_iff.mp h
      cases h
      rfl
    · obtain ⟨token, htoken, h⟩ := Option.bind_eq_some_iff.mp h
      have hsome : (strtokInt rest).isSome := Option.isSome_of_eq_some htoken
      rw [if_pos ⟨hget, hsome⟩, List.mem_range] at hi
      have hbuf : _ = dataBuf' := congrArg (fun result => result.2.1) (Option.some.inj h)
      -- the index is behind the data that is copied
      rw [← hbuf]
      show (Vector.ofFn _)[i.val] = dataBuf.get i
      rw [Vector.getElem_ofFn, dif_neg hi]
    · cases h
      rfl
  · cases h

/-! ## The transaction -/

/-- A transaction writes within the data buffer: its loop runs to its end, and the parser changes
the buffer at its own indices only, all of them in the buffer. One whose announced size is greater
than the buffer has a result and writes nothing to the node. -/
def StaysInBounds (ans : EdidPortAnswers) (mpTv : CTv) (command : List Char) (data reply : Parcel) :
    Prop :=
  let setDataSize := data.readInt32.1
  (∃ dataBuf behind, readDataFrom setDataSize.toInt.toNat 0 (Vector.replicate dataBufSize 0)
      data.readInt32.2 = some (dataBuf, behind) ∧
    (∀ i ∈ storeIndices setDataSize.toInt.toNat 0 ++ parserIndices command, i < dataBufSize) ∧
    ∀ ret dataBuf' actions,
      parserTvDataCommand ans mpTv command dataBuf = some (ret, dataBuf', actions) →
        ∀ i : Fin dataBufSize, i.val ∉ parserIndices command →
          dataBuf'.get i = dataBuf.get i) ∧
    (dataBufSize < setDataSize.toInt → ∃ reply' actions,
      onTransactDataSet ans mpTv command data reply = some (reply', actions) ∧
        ∀ data ret, EdidPortAction.write data ret ∉ actions)

/-- **Transactions that stay in bounds** are those that announce no more than the buffer takes,
whatever their command is and whatever follows. -/
theorem staysInBounds_iff (ans : EdidPortAnswers) (mpTv : CTv) (command : List Char)
    (data reply : Parcel) :
    StaysInBounds ans mpTv command data reply ↔ data.readInt32.1.toInt ≤ dataBufSize := by
  have hindices : (∀ i ∈ storeIndices data.readInt32.1.toInt.toNat 0, i < dataBufSize) ↔
      data.readInt32.1.toInt ≤ dataBufSize := by
    rw [storeIndices_lt_iff, Int.toNat_le]
  have hreads : (readDataFrom data.readInt32.1.toInt.toNat 0 (Vector.replicate dataBufSize 0)
      data.readInt32.2).isSome ↔ data.readInt32.1.toInt ≤ dataBufSize :=
    (isSome_readDataFrom_iff _ _).trans hindices
  constructor
  · rintro ⟨⟨dataBuf, behind, hread, -⟩, -⟩
    exact hreads.mp (Option.isSome_of_mem hread)
  · intro hsize
    obtain ⟨⟨dataBuf, behind⟩, hread⟩ := Option.isSome_iff_exists.mp (hreads.mpr hsize)
    refine ⟨⟨dataBuf, behind, hread, ?_, fun ret dataBuf' actions h i hi => ?_⟩, fun hlong => ?_⟩
    · exact List.forall_mem_append.mpr ⟨hindices.mpr hsize, fun i hi => parserIndices_lt hi⟩
    · exact get_parserTvDataCommand h i hi
    · exact absurd hsize (Int.not_le.mpr hlong)

/-- A transaction that announces one word too many writes behind the buffer. -/
theorem not_forall_staysInBounds :
    ¬ ∀ (ans : EdidPortAnswers) (mpTv : CTv) (command : List Char) (data reply : Parcel),
      StaysInBounds ans mpTv command data reply := by
  intro hall
  let mpTv := CTv.allocate ⟨fun _ => none, none, true, true, sourceTv⟩
  have hbounds := hall ⟨true, 257, 0⟩ mpTv "103.5.".toList [1025] []
  rw [staysInBounds_iff] at hbounds
  exact absurd hbounds (by decide)

end TvService
