import Mathlib.Algebra.Ring.Int.Defs
import Mathlib.Algebra.Ring.Nat
import Mathlib.Data.List.Basic
import TvServer.Foundations.Buffer

/-!
# Reading from a serial port

A port is read until nothing comes for a while, or the buffer is full. What a read delivers goes to
a scratch buffer first, where a null is written behind it, and is copied from there behind what
other reads delivered. The count of the bytes is unsigned, and what a read returns is added to it
before it is tested.

## Main definitions

* `PortEvent`: what comes of a select, and of the read that follows it
* `Reading`: the buffers and counts of the loop, with the places that were accessed
* `comReadData`: the function
* `portReads`: the reads that a schedule makes until it stops
* `ReadRun.Accounts`: the bytes that came are counted and stored

## Main results

* `Reading.Ok.round`: a read that keeps the account
* `Reading.Spoiled.round`: an account that is wrong stays so
* `comReadData_accounts_iff`: the schedules that are accounted for
-/

namespace CSerialPort

/-- What a read comes to: an error, or at most a number of bytes, which is zero at the end of the
file. -/
inductive PortRead where
  | fails
  | bytes (n : ℕ)

/-- One select: it is interrupted, it fails, it times out, it returns without the bit of the port,
or with it, and then the port is read. -/
inductive PortEvent where
  | interrupted
  | selectFails
  | timeout
  | unset
  | read (r : PortRead)

/-- The number of bytes that a read delivers to a room: the kernel reads no more at once. -/
def readCount (n room : ℕ) : ℕ := min n (min room 0x7ffff000)

/-- What `read` returns. -/
def PortRead.ret (room : ℕ) : PortRead → Int32
  | .fails => -1
  | .bytes n => Int32.ofNat (readCount n room)

/-- A place in one of the scratch buffers. -/
structure Span where
  start : ℕ
  length : ℕ

def Span.Inside (size : ℕ) (s : Span) : Prop := s.start + s.length ≤ size

/-- The variables of the loop, with the places of the scratch buffers that were accessed and the
number of bytes that were received. -/
structure Reading (uLen : UInt32) where
  c : UInt32
  p : ℕ
  inbuff : Vector UInt8 uLen.toNat
  buff : Vector UInt8 uLen.toNat
  accesses : List Span
  received : ℕ

variable {uLen : UInt32}

/-- In front of the loop the three scratch buffers are cleared. -/
def Reading.start (uLen : UInt32) : Reading uLen where
  c := 0
  p := 0
  inbuff := Vector.replicate _ 0
  buff := Vector.replicate _ 0
  accesses := List.replicate 3 ⟨0, uLen.toNat⟩
  received := 0

/-- Bytes from the port, behind those that were received. -/
def incoming (wire : ℕ → UInt8) (received count : ℕ) : List UInt8 :=
  (List.range count).map fun i => wire (received + i)

/-- What is done with the return value of a read, in front of the test of the count. -/
def Reading.round (wire : ℕ → UInt8) (st : Reading uLen) (z : Int32) : Reading uLen :=
  let c := st.c + z.toUInt32
  if 0 < z then
    let count := z.toInt.toNat
    let buff := Buffer.memcpy st.buff 0 (incoming wire st.received count)
    if z < uLen.toInt32 then
      let buff := Buffer.memcpy buff (count + 1) [0]
      { c
        p := st.p + count
        inbuff := Buffer.memcpy st.inbuff st.p (buff.toList.take count)
        buff := Buffer.memset buff 0
        accesses := st.accesses ++
          [⟨0, count⟩, ⟨count + 1, 1⟩, ⟨0, count⟩, ⟨st.p, count⟩, ⟨0, uLen.toNat⟩]
        received := st.received + count }
    else
      { c
        p := st.p
        inbuff := Buffer.memcpy st.inbuff 0 (buff.toList.take count)
        buff := Buffer.memset buff 0
        accesses := st.accesses ++ [⟨0, count⟩, ⟨0, count⟩, ⟨0, count⟩, ⟨0, uLen.toNat⟩]
        received := st.received + count }
  else { st with c }

/-- The loop. Behind the events given the port is silent, and the select times out. -/
def readLoop (wire : ℕ → UInt8) (st : Reading uLen) : List PortEvent → Reading uLen
  | [] | .timeout :: _ | .selectFails :: _ => st
  | .interrupted :: es | .unset :: es => readLoop wire st es
  | .read r :: es =>
    let z := r.ret (uLen - st.c).toNat
    let st := st.round wire z
    if z ≤ 0 ∨ uLen ≤ st.c then st else readLoop wire st es

/-- What a call comes to: what it returns and stores, the places of the scratch buffers that it
accessed, and the number of bytes that it received. -/
structure ReadRun where
  ret : Int32
  stored : List UInt8
  accesses : List Span
  received : ℕ

/-- Copy to the buffer of the caller. -/
def Reading.finish (st : Reading uLen) : ReadRun where
  ret := st.c.toInt32
  stored := st.inbuff.toList.take st.c.toNat
  accesses := st.accesses ++ [⟨0, st.c.toNat⟩]
  received := st.received

/-- Read from a port, whose bytes and events are given. -/
def comReadData (hComm : Int32) (uLen : UInt32) (wire : ℕ → UInt8) (events : List PortEvent) :
    ReadRun :=
  if hComm < 0 then ⟨-1, [], (Reading.start uLen).accesses, 0⟩
  else (readLoop wire (Reading.start uLen) events).finish

/-- The bytes that were received are counted and stored, and the scratch buffers are accessed
inside. -/
structure ReadRun.Accounts (wire : ℕ → UInt8) (uLen : UInt32) (run : ReadRun) : Prop where
  ret : run.ret.toInt = run.received
  le : run.received ≤ uLen.toNat
  stored : run.stored = (List.range run.received).map wire
  inside : ∀ a ∈ run.accesses, a.Inside uLen.toNat

/-- The reads of a schedule until it stops, from a count of bytes on: a failed one, or the number of
bytes delivered. -/
def portReads (uLen : ℕ) : ℕ → List PortEvent → List (Option ℕ)
  | _, [] | _, .timeout :: _ | _, .selectFails :: _ => []
  | c, .interrupted :: es | c, .unset :: es => portReads uLen c es
  | _, .read .fails :: _ => [none]
  | c, .read (.bytes n) :: es =>
    let z := readCount n (uLen - c)
    if z = 0 then []
    else some z :: if c + z < uLen then portReads uLen (c + z) es else []

/-- The schedules that are accounted for: no read fails, none delivers one byte less than the size,
and only one delivers something if the size is negative as an integer. -/
def Sound (uLen : ℕ) (events : List PortEvent) : Prop :=
  none ∉ portReads uLen 0 events ∧ some (uLen - 1) ∉ portReads uLen 0 events ∧
    (2 ^ 31 ≤ uLen → (portReads uLen 0 events).length ≤ 1)

/-! ## The integers of a read -/

theorem toInt_toInt32 (x : UInt32) :
    x.toInt32.toInt = if x.toNat < 2 ^ 31 then (x.toNat : ℤ) else x.toNat - 2 ^ 32 := by
  have h : x.toInt32.toInt = x.toBitVec.toInt := rfl
  rw [h, BitVec.toInt_eq_toNat_cond, UInt32.toNat_toBitVec]
  split_ifs <;> omega

/-- An integer that is not negative, as an unsigned one. -/
theorem toNat_toUInt32 {z : Int32} {count : ℕ} (hz : z.toInt = count) :
    z.toUInt32.toNat = count := by
  have h := toInt_toInt32 z.toUInt32
  rw [Int32.toInt32_toUInt32, hz] at h
  have hlt := z.toUInt32.toNat_lt
  split_ifs at h <;> omega

/-- An integer that is not negative is below a size exactly if the size is no negative integer. -/
theorem lt_toInt32_iff {z : Int32} {count : ℕ} (hz : z.toInt = count) (uLen : UInt32) :
    z < uLen.toInt32 ↔ uLen.toNat < 2 ^ 31 ∧ count < uLen.toNat := by
  have hlt := uLen.toNat_lt
  rw [Int32.lt_iff_toInt_lt, hz, toInt_toInt32]
  split_ifs <;> omega

theorem pos_iff {z : Int32} {count : ℕ} (hz : z.toInt = count) : 0 < z ↔ 0 < count := by
  rw [Int32.lt_iff_toInt_lt, hz]
  exact Int.natCast_pos

theorem toInt_ret_bytes (n room : ℕ) :
    ((PortRead.bytes n).ret room).toInt = readCount n room := by
  apply Int32.toInt_ofNat_of_lt
  rw [readCount]
  omega

theorem readCount_le (n room : ℕ) : readCount n room ≤ room := by
  rw [readCount]
  omega

theorem readCount_lt (n room : ℕ) : readCount n room + 1 < 2 ^ 31 := by
  rw [readCount]
  omega

/-! ## A read that keeps the account -/

theorem length_incoming (wire : ℕ → UInt8) (received count : ℕ) :
    (incoming wire received count).length = count := by
  rw [incoming, List.length_map, List.length_range]

/-- The bytes that were received, in front of those of the next read. -/
theorem map_range_add (wire : ℕ → UInt8) (received count : ℕ) :
    (List.range (received + count)).map wire =
      (List.range received).map wire ++ incoming wire received count := by
  rw [List.range_add, List.map_append, List.map_map]
  rfl

/-- The bytes that were received are counted and stored, and the accesses are inside. -/
structure Reading.Ok (wire : ℕ → UInt8) (st : Reading uLen) : Prop where
  count : st.c.toNat = st.received
  le : st.received ≤ uLen.toNat
  int : st.received < 2 ^ 31
  offset : uLen.toNat < 2 ^ 31 → st.received < uLen.toNat → st.p = st.received
  stored : st.inbuff.toList.take st.received = (List.range st.received).map wire
  inside : ∀ a ∈ st.accesses, a.Inside uLen.toNat

theorem Reading.ok_start (wire : ℕ → UInt8) (uLen : UInt32) : (Reading.start uLen).Ok wire where
  count := rfl
  le := Nat.zero_le _
  int := Nat.two_pow_pos 31
  offset := fun _ _ => rfl
  stored := rfl
  inside := by simp [Reading.start, Span.Inside]

/-- A copy behind the bytes that were received. -/
theorem stored_memcpy {wire : ℕ → UInt8} {inbuff : Vector UInt8 uLen.toNat} {received count : ℕ}
    (hstored : inbuff.toList.take received = (List.range received).map wire)
    (hroom : received + count ≤ uLen.toNat) :
    (Buffer.memcpy inbuff received (incoming wire received count)).toList.take (received + count) =
      (List.range (received + count)).map wire := by
  have hlength : ((List.range (received + count)).map wire).length = received + count := by
    rw [List.length_map, List.length_range]
  rw [Buffer.toList_memcpy (by rwa [length_incoming]), hstored, ← List.append_assoc,
    ← map_range_add, List.take_left' hlength]

/-- The bytes that are copied out of the scratch buffer are those that were read to it, with or
without the null behind them. -/
theorem take_buff (wire : ℕ → UInt8) (buff : Vector UInt8 uLen.toNat) {received count : ℕ}
    (hroom : count ≤ uLen.toNat) :
    (Buffer.memcpy buff 0 (incoming wire received count)).toList.take count =
      incoming wire received count := by
  rw [Buffer.toList_memcpy_zero (by rwa [length_incoming]),
    List.take_left' (length_incoming wire received count)]

variable (wire : ℕ → UInt8) (st : Reading uLen) {z : Int32} {count : ℕ}

/-- A read behind which there is a place for the null. -/
theorem round_of_lt (hz : z.toInt = count) (hpos : 0 < count) (hint : uLen.toNat < 2 ^ 31)
    (hlt : count < uLen.toNat) :
    (st.round wire z).p = st.p + count ∧
      (st.round wire z).inbuff =
        Buffer.memcpy st.inbuff st.p (incoming wire st.received count) ∧
      (st.round wire z).accesses = st.accesses ++
        [⟨0, count⟩, ⟨count + 1, 1⟩, ⟨0, count⟩, ⟨st.p, count⟩, ⟨0, uLen.toNat⟩] := by
  have hcount : z.toInt.toNat = count := by rw [hz, Int.toNat_natCast]
  simp only [Reading.round, if_pos ((pos_iff hz).mpr hpos),
    if_pos ((lt_toInt32_iff hz uLen).mpr ⟨hint, hlt⟩), hcount, and_true, true_and]
  rw [Buffer.take_memcpy _ _ (Nat.le_succ count), take_buff wire st.buff hlt.le]

/-- A read of the whole size, or one with a size that is negative as an integer. -/
theorem round_of_not_lt (hz : z.toInt = count) (hpos : 0 < count) (hroom : count ≤ uLen.toNat)
    (hlt : ¬ (uLen.toNat < 2 ^ 31 ∧ count < uLen.toNat)) :
    (st.round wire z).p = st.p ∧
      (st.round wire z).inbuff = Buffer.memcpy st.inbuff 0 (incoming wire st.received count) ∧
      (st.round wire z).accesses = st.accesses ++
        [⟨0, count⟩, ⟨0, count⟩, ⟨0, count⟩, ⟨0, uLen.toNat⟩] := by
  have hcount : z.toInt.toNat = count := by rw [hz, Int.toNat_natCast]
  simp only [Reading.round, if_pos ((pos_iff hz).mpr hpos),
    if_neg (mt (lt_toInt32_iff hz uLen).mp hlt), hcount, and_true, true_and]
  rw [take_buff wire st.buff hroom]

/-- The counts behind a read that delivered something. -/
theorem round_counts (hz : z.toInt = count) (hpos : 0 < count) :
    (st.round wire z).c = st.c + z.toUInt32 ∧
      (st.round wire z).received = st.received + count := by
  have hcount : z.toInt.toNat = count := by rw [hz, Int.toNat_natCast]
  simp only [Reading.round, if_pos ((pos_iff hz).mpr hpos)]
  split_ifs <;> exact ⟨rfl, congrArg (st.received + ·) hcount⟩

variable {wire st}

/-- **A read that keeps the account**: behind its bytes there is a place for the null or no place at
all, and it is the first one if the size is negative as an integer. -/
theorem Reading.Ok.round (h : st.Ok wire) (hz : z.toInt = count) (hpos : 0 < count)
    (hroom : st.received + count ≤ uLen.toNat) (hplace : count + 1 ≠ uLen.toNat)
    (hsize : uLen.toNat < 2 ^ 31 ∨ st.received = 0) : (st.round wire z).Ok wire := by
  obtain ⟨hc, hreceived⟩ := round_counts wire st hz hpos
  have hcount : (st.round wire z).c.toNat = st.received + count := by
    have hlt := uLen.toNat_lt
    rw [hc, UInt32.toNat_add, h.count, toNat_toUInt32 hz]
    omega
  have hint : st.received + count < 2 ^ 31 := by
    have hlt := z.toInt_lt
    omega
  by_cases hlt : uLen.toNat < 2 ^ 31 ∧ count < uLen.toNat
  · obtain ⟨hp, hinbuff, haccesses⟩ := round_of_lt wire st hz hpos hlt.1 hlt.2
    have hoffset : st.p = st.received := h.offset hlt.1 (by omega)
    refine ⟨hcount.trans hreceived.symm, hreceived.trans_le hroom, hreceived.trans_lt hint,
      fun _ _ => ?_, ?_, ?_⟩
    · rw [hp, hreceived, hoffset]
    · rw [hinbuff, hreceived, hoffset]
      exact stored_memcpy h.stored hroom
    · rw [haccesses, List.forall_mem_append]
      refine ⟨h.inside, ?_⟩
      simp only [List.forall_mem_cons, Span.Inside]
      refine ⟨?_, ?_, ?_, ?_, ?_, List.forall_mem_nil _⟩ <;> omega
  · -- nothing was received before
    have hfirst : st.received = 0 := by omega
    obtain ⟨-, hinbuff, haccesses⟩ :=
      round_of_not_lt wire st hz hpos (by omega) hlt
    refine ⟨hcount.trans hreceived.symm, hreceived.trans_le hroom, hreceived.trans_lt hint,
      fun hsmall hmore => ?_, ?_, ?_⟩
    · -- the buffer is full
      rw [hreceived] at hmore
      omega
    · have hstored := stored_memcpy h.stored hroom
      rw [hinbuff, hreceived]
      rwa [hfirst] at hstored ⊢
    · rw [haccesses, List.forall_mem_append]
      refine ⟨h.inside, ?_⟩
      simp only [List.forall_mem_cons, Span.Inside]
      refine ⟨?_, ?_, ?_, ?_, List.forall_mem_nil _⟩ <;> omega

/-- A reading that keeps the account, when the loop is left. -/
theorem Reading.Ok.finish (h : st.Ok wire) : st.finish.Accounts wire uLen where
  ret := by
    have hc := h.count
    have hint := h.int
    rw [Reading.finish, toInt_toInt32, hc, if_pos hint]
  le := h.le
  stored := by
    rw [Reading.finish, h.count]
    exact h.stored
  inside := by
    have hc := h.count
    have hle := h.le
    rw [Reading.finish, List.forall_mem_append, List.forall_mem_singleton]
    exact ⟨h.inside, show 0 + st.c.toNat ≤ uLen.toNat by omega⟩

/-! ## An account that is wrong -/

/-- Bytes of which the first one is marked. -/
def marked (i : ℕ) : UInt8 := if i = 0 then 1 else 0

/-- An access was outside, or the first byte was copied over. -/
def Reading.Spoiled (st : Reading uLen) : Prop :=
  (∃ a ∈ st.accesses, ¬ a.Inside uLen.toNat) ∨
    (2 ^ 31 ≤ uLen.toNat ∧ 0 < st.received ∧ st.inbuff.toList.head? = some 0)

theorem head_memcpy_incoming (inbuff : Vector UInt8 uLen.toNat) {received count : ℕ}
    (hreceived : 0 < received) (hpos : 0 < count) (hroom : count ≤ uLen.toNat) :
    (Buffer.memcpy inbuff 0 (incoming marked received count)).toList.head? = some 0 := by
  rw [Buffer.toList_memcpy_zero (by rwa [length_incoming])]
  obtain ⟨k, rfl⟩ := Nat.exists_eq_succ_of_ne_zero hpos.ne'
  rw [incoming, List.range_succ_eq_map, List.map_cons, List.cons_append, List.head?_cons, marked,
    if_neg (by omega)]

/-- With a size that is negative as an integer, a read behind another one copies over its bytes. -/
theorem Reading.spoiled_of_behind {z : Int32} {count : ℕ} (hz : z.toInt = count) (hpos : 0 < count)
    (hsize : 2 ^ 31 ≤ uLen.toNat) (hreceived : 0 < st.received) : (st.round marked z).Spoiled := by
  have hroom : count ≤ uLen.toNat := by
    have hlt := z.toInt_lt
    omega
  right
  rw [(round_counts marked st hz hpos).2,
    (round_of_not_lt marked st hz hpos hroom (by omega)).2.1]
  exact ⟨hsize, by omega, head_memcpy_incoming st.inbuff hreceived hpos hroom⟩

/-- A read of one byte less than the size has its null written outside. -/
theorem Reading.spoiled_of_null {z : Int32} {count : ℕ} (hz : z.toInt = count) (hpos : 0 < count)
    (hplace : count + 1 = uLen.toNat) (hint : uLen.toNat < 2 ^ 31) :
    (st.round marked z).Spoiled := by
  left
  rw [(round_of_lt marked st hz hpos hint (by omega)).2.2]
  exact ⟨⟨count + 1, 1⟩, by simp, show ¬ count + 1 + 1 ≤ uLen.toNat by omega⟩

theorem subset_round (wire : ℕ → UInt8) (st : Reading uLen) (z : Int32) :
    st.accesses ⊆ (st.round wire z).accesses := by
  simp only [Reading.round]
  split_ifs
  · exact List.subset_append_left _ _
  · exact List.subset_append_left _ _
  · exact List.Subset.refl _

/-- **An account that is wrong** stays so. -/
theorem Reading.Spoiled.round (h : st.Spoiled) (z : Int32) : (st.round marked z).Spoiled := by
  rcases h with ⟨a, ha, hout⟩ | ⟨hsize, hreceived, hhead⟩
  · exact .inl ⟨a, subset_round marked st z ha, hout⟩
  · by_cases hpos : 0 < z
    · have hz : z.toInt = z.toInt.toNat := by
        rw [Int32.lt_iff_toInt_lt] at hpos
        exact (Int.toNat_of_nonneg (Int.le_of_lt hpos)).symm
      exact Reading.spoiled_of_behind hz ((pos_iff hz).mp hpos) hsize hreceived
    · rw [Reading.round, if_neg hpos]
      exact .inr ⟨hsize, hreceived, hhead⟩

theorem Reading.Spoiled.readLoop (h : st.Spoiled) (es : List PortEvent) :
    (readLoop marked st es).Spoiled := by
  induction es generalizing st with
  | nil => exact h
  | cons e es ih =>
    cases e with
    | timeout => exact h
    | selectFails => exact h
    | interrupted => exact ih h
    | unset => exact ih h
    | read r =>
      simp only [CSerialPort.readLoop]
      split_ifs
      · exact h.round _
      · exact ih (h.round _)

theorem Reading.Spoiled.not_accounts (h : st.Spoiled) : ¬ st.finish.Accounts marked uLen := by
  intro haccounts
  rcases h with ⟨a, ha, hout⟩ | ⟨-, hreceived, hhead⟩
  · exact hout (haccounts.inside a (List.mem_append_left _ ha))
  · -- the first byte is not the one that was received first
    have hstored := congrArg List.head? haccounts.stored
    obtain ⟨k, hk⟩ := Nat.exists_eq_succ_of_ne_zero hreceived.ne'
    simp only [Reading.finish, hk, List.range_succ_eq_map, List.map_cons, List.head?_cons,
      List.head?_take, hhead] at hstored
    split_ifs at hstored
    cases hstored

/-- A read that does not make the account wrong is one that keeps it. -/
theorem Reading.keeps_of_not_spoiled {z : Int32} {count : ℕ} (hz : z.toInt = count)
    (hpos : 0 < count) (hint : count + 1 < 2 ^ 31) (h : ¬ (st.round marked z).Spoiled) :
    count + 1 ≠ uLen.toNat ∧ (uLen.toNat < 2 ^ 31 ∨ st.received = 0) := by
  constructor
  · intro he
    exact h (Reading.spoiled_of_null hz hpos he (he ▸ hint))
  · by_contra hbehind
    rw [not_or, Nat.not_lt] at hbehind
    exact h (Reading.spoiled_of_behind hz hpos hbehind.1 (Nat.pos_of_ne_zero hbehind.2))

/-! ## The loop -/

/-- The room for a read in a reading that keeps the account. -/
theorem Reading.Ok.room (h : st.Ok wire) : (uLen - st.c).toNat = uLen.toNat - st.received := by
  have hle : st.c ≤ uLen := UInt32.le_iff_toNat_le.mpr (h.count.trans_le h.le)
  rw [UInt32.toNat_sub_of_le _ _ hle, h.count]

/-- The test of the count is one of the bytes that were received. -/
theorem Reading.Ok.le_c_iff (h : st.Ok wire) : uLen ≤ st.c ↔ uLen.toNat ≤ st.received := by
  rw [UInt32.le_iff_toNat_le, h.count]

/-- A read at the end of the file leaves the loop. -/
theorem readLoop_eof (h : st.Ok wire) {n : ℕ} (hn : readCount n (uLen.toNat - st.received) = 0)
    (es : List PortEvent) : readLoop wire st (.read (.bytes n) :: es) = st := by
  have hz : (PortRead.bytes n).ret (uLen.toNat - st.received) = 0 := by
    rw [PortRead.ret, hn]
    rfl
  simp only [readLoop, h.room, hz]
  rw [if_pos (Or.inl (show (0 : Int32) ≤ 0 by decide))]
  obtain ⟨c, p, inbuff, buff, accesses, received⟩ := st
  exact congrArg (Reading.mk · p inbuff buff accesses received) (UInt32.add_zero c)

/-- A read that delivers something is followed by another round, unless the buffer is full. -/
theorem readLoop_bytes (h : st.Ok wire) {n : ℕ}
    (hn : 0 < readCount n (uLen.toNat - st.received)) (es : List PortEvent) :
    readLoop wire st (.read (.bytes n) :: es) =
      let st' := st.round wire ((PortRead.bytes n).ret (uLen.toNat - st.received))
      if uLen ≤ st'.c then st' else readLoop wire st' es := by
  have hz := toInt_ret_bytes n (uLen.toNat - st.received)
  have hpos : ¬ (PortRead.bytes n).ret (uLen.toNat - st.received) ≤ 0 := by
    rw [Int32.le_iff_toInt_le, hz]
    exact Int.not_le.mpr (Int.natCast_pos.mpr hn)
  simp only [readLoop, h.room, hpos, false_or]

/-- An account goes wrong with a read that fails: the count is decreased. -/
theorem not_accounts_fails (h : st.Ok wire) (wire' : ℕ → UInt8) (es : List PortEvent) :
    ¬ (readLoop wire st (.read .fails :: es)).finish.Accounts wire' uLen := by
  intro haccounts
  have hret := haccounts.ret
  have hlt := st.c.toNat_lt
  have hc := h.count
  have hint := h.int
  have hminus : (-1 : Int32).toUInt32.toNat = 2 ^ 32 - 1 := rfl
  simp only [readLoop, PortRead.ret, Reading.round, Reading.finish,
    show ¬ (0 : Int32) < -1 by decide, show (-1 : Int32) ≤ 0 by decide, if_false, true_or, if_true,
    toInt_toInt32, UInt32.toNat_add, hminus, hc] at hret
  split_ifs at hret <;> omega

/-- The schedules that are accounted for from a count of bytes on. -/
def SoundFrom (uLen c : ℕ) (es : List PortEvent) : Prop :=
  none ∉ portReads uLen c es ∧ some (uLen - 1) ∉ portReads uLen c es ∧
    (2 ^ 31 ≤ uLen → (portReads uLen c es).length ≤ if c = 0 then 1 else 0)

theorem soundFrom_of_nil {uLen c : ℕ} {es : List PortEvent} (h : portReads uLen c es = []) :
    SoundFrom uLen c es := by
  rw [SoundFrom, h]
  exact ⟨List.not_mem_nil, List.not_mem_nil, fun _ => Nat.zero_le _⟩

/-- A read that delivers something, and what is left of the schedule. -/
theorem soundFrom_bytes {uLen c n : ℕ} (hn : 0 < readCount n (uLen - c)) (es : List PortEvent) :
    SoundFrom uLen c (.read (.bytes n) :: es) ↔
      readCount n (uLen - c) + 1 ≠ uLen ∧ (uLen < 2 ^ 31 ∨ c = 0) ∧
        (c + readCount n (uLen - c) < uLen →
          SoundFrom uLen (c + readCount n (uLen - c)) es) := by
  have hle := readCount_le n (uLen - c)
  generalize hz : readCount n (uLen - c) = z at hn hle ⊢
  generalize hrest : (if c + z < uLen then portReads uLen (c + z) es else []) = rest
  have hreads : portReads uLen c (.read (.bytes n) :: es) = some z :: rest := by
    rw [portReads, hz, ← hrest]
    exact if_neg hn.ne'
  have hplace : ¬ some (uLen - 1) = some z ↔ z + 1 ≠ uLen := by
    rw [Option.some_inj]
    omega
  -- the rest is empty if only one read may deliver something
  have hlength : (2 ^ 31 ≤ uLen → rest.length + 1 ≤ if c = 0 then 1 else 0) ↔
      (uLen < 2 ^ 31 ∨ c = 0) ∧ (2 ^ 31 ≤ uLen → rest.length ≤ 0) := by
    split_ifs <;> omega
  have hsound : (c + z < uLen → SoundFrom uLen (c + z) es) ↔
      none ∉ rest ∧ some (uLen - 1) ∉ rest ∧ (2 ^ 31 ≤ uLen → rest.length ≤ 0) := by
    have hsum : c + z ≠ 0 := by omega
    rw [← hrest]
    split_ifs with hmore
    · rw [imp_iff_right hmore, SoundFrom, if_neg hsum]
    · exact iff_of_true (fun h => absurd h hmore)
        ⟨List.not_mem_nil, List.not_mem_nil, fun _ => Nat.zero_le _⟩
  rw [SoundFrom, hreads, List.mem_cons, List.mem_cons, not_or, not_or, hplace, List.length_cons,
    hlength, hsound]
  constructor
  · rintro ⟨⟨-, hnone⟩, ⟨hz, hsome⟩, hsize, hlen⟩
    exact ⟨hz, hsize, hnone, hsome, hlen⟩
  · rintro ⟨hz, hsize, hnone, hsome, hlen⟩
    exact ⟨⟨(Option.some_ne_none z).symm, hnone⟩, ⟨hz, hsome⟩, hsize, hlen⟩

/-- **A schedule that is accounted for** keeps the account, whatever the bytes are. -/
theorem Reading.Ok.readLoop (h : st.Ok wire) {es : List PortEvent}
    (hes : SoundFrom uLen.toNat st.received es) : (readLoop wire st es).Ok wire := by
  induction es generalizing st with
  | nil => exact h
  | cons e es ih =>
    cases e with
    | timeout => exact h
    | selectFails => exact h
    | interrupted => exact ih h hes
    | unset => exact ih h hes
    | read r =>
      cases r with
      | fails => exact absurd List.mem_cons_self hes.1
      | bytes n =>
        rcases Nat.eq_zero_or_pos (readCount n (uLen.toNat - st.received)) with hn | hn
        · rwa [readLoop_eof h hn]
        · obtain ⟨hplace, hsize, hmore⟩ := (soundFrom_bytes hn es).mp hes
          have hz := toInt_ret_bytes n (uLen.toNat - st.received)
          have hroom : st.received + readCount n (uLen.toNat - st.received) ≤ uLen.toNat := by
            have hle := readCount_le n (uLen.toNat - st.received)
            omega
          have hround := h.round hz hn hroom hplace hsize
          rw [readLoop_bytes h hn]
          dsimp only
          split_ifs with hfull
          · exact hround
          · have hreceived := (round_counts wire st hz hn).2
            apply ih hround
            rw [hreceived]
            exact hmore (hreceived ▸ Nat.lt_of_not_le (mt hround.le_c_iff.mpr hfull))

/-- **An account** is right only of such a schedule, if the first byte is marked. -/
theorem soundFrom_of_accounts (h : st.Ok marked) {es : List PortEvent}
    (haccounts : (readLoop marked st es).finish.Accounts marked uLen) :
    SoundFrom uLen.toNat st.received es := by
  induction es generalizing st with
  | nil => exact soundFrom_of_nil rfl
  | cons e es ih =>
    cases e with
    | timeout => exact soundFrom_of_nil rfl
    | selectFails => exact soundFrom_of_nil rfl
    | interrupted => exact ih h haccounts
    | unset => exact ih h haccounts
    | read r =>
      cases r with
      | fails => exact absurd haccounts (not_accounts_fails h marked es)
      | bytes n =>
        rcases Nat.eq_zero_or_pos (readCount n (uLen.toNat - st.received)) with hn | hn
        · apply soundFrom_of_nil
          rw [portReads, hn]
          exact if_pos rfl
        · have hz := toInt_ret_bytes n (uLen.toNat - st.received)
          have hroom := readCount_le n (uLen.toNat - st.received)
          rw [readLoop_bytes h hn] at haccounts
          dsimp only at haccounts
          -- what goes wrong in this round stays so
          have hgood : ¬ (st.round marked
              ((PortRead.bytes n).ret (uLen.toNat - st.received))).Spoiled := by
            intro hbad
            split_ifs at haccounts
            · exact hbad.not_accounts haccounts
            · exact (hbad.readLoop es).not_accounts haccounts
          obtain ⟨hplace, hsize⟩ := Reading.keeps_of_not_spoiled hz hn (readCount_lt n _) hgood
          have hround := h.round hz hn (by omega) hplace hsize
          have hreceived := (round_counts marked st hz hn).2
          refine (soundFrom_bytes hn es).mpr ⟨hplace, hsize, fun hmore => ?_⟩
          rw [← hreceived] at hmore ⊢
          apply ih hround
          rwa [if_neg (mt hround.le_c_iff.mp (Nat.not_le_of_lt hmore))] at haccounts

theorem soundFrom_zero (uLen : ℕ) (es : List PortEvent) : SoundFrom uLen 0 es ↔ Sound uLen es :=
  Iff.rfl

/-- **The schedules that are accounted for**, with a port that is open, are the sound ones. -/
theorem comReadData_accounts_iff (hComm : Int32) (uLen : UInt32) (events : List PortEvent) :
    (∀ wire, (comReadData hComm uLen wire events).Accounts wire uLen) ↔
      0 ≤ hComm ∧ Sound uLen.toNat events := by
  by_cases hopen : hComm < 0
  · -- what is returned is no number of bytes
    refine iff_of_false (fun hall => ?_) fun h => absurd hopen (Int32.not_lt.mpr h.1)
    have hret := (hall marked).ret
    rw [comReadData, if_pos hopen] at hret
    exact absurd hret (show ¬ (-1 : Int32).toInt = (0 : ℕ) by decide)
  · simp only [comReadData, if_neg hopen, Int32.not_lt.mp hopen, true_and, ← soundFrom_zero]
    constructor
    · exact fun hall => soundFrom_of_accounts (Reading.ok_start marked uLen) (hall marked)
    · exact fun hes wire => ((Reading.ok_start wire uLen).readLoop hes).finish

/-- A read that fails behind one that delivered two bytes takes one of them off the count. -/
theorem not_forall_comReadData_accounts :
    ¬ ∀ hComm uLen wire events, 0 ≤ hComm → 1 ≤ uLen →
      (comReadData hComm uLen wire events).Accounts wire uLen := by
  intro h
  have hret := (h 3 8 (fun _ => 0) [.read (.bytes 2), .read .fails] (by decide) (by decide)).ret
  exact absurd hret (by decide)

end CSerialPort
