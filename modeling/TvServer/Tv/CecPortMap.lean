import TvServer.Tv.PortMap

/-!
# The port map for CEC

The control of devices over HDMI is told which source is on which port by a word with a digit for
each HDMI port: the number of the first source there, counted from `YPBPR2`, or the last digit for
no source. A source before that has a negative number, whose sign runs over the digits of all ports
behind it.

## Main definitions

* `calHdmiPortCecPhysicAddr`, `setHdmiPortCecPhysicAddr`: the word, and what is written of it
* `cecSource`: the source that a digit stands for

## Main results

* `digit_cecWord`: the digits of the word
* `cecSource_iff`: the ports whose digit stands for their source, and the length of the texts
-/

open HexDigits

namespace CTv

/-! ## The word -/

/-- The number of a source, with the last digit for none. -/
def cecPhysicAddr (source : SourceInput) : Int32 := if source = sourceMax then 0xf else source - 4

/-- The word for the sources on the four ports. -/
def cecWord (sources : Fin 4 → SourceInput) : Int32 :=
  cecPhysicAddr (sources 0) ||| cecPhysicAddr (sources 1) <<< 4 |||
    cecPhysicAddr (sources 2) <<< 8 ||| cecPhysicAddr (sources 3) <<< 12

def hdmiPort (k : Fin 4) : TvinPort :=
  #v[tvinPortHdmi0, tvinPortHdmi1, tvinPortHdmi2, tvinPortHdmi3][k]

/-- The first source on each HDMI port. -/
def portSources (tv : CTv) (k : Fin 4) : SourceInput := tv.tvinPortToSourceInput (hdmiPort k)

def calHdmiPortCecPhysicAddr (tv : CTv) : Int32 := cecWord tv.portSources

def hdmiCecPortSequence : List Char := "/sys/class/cec/port_seq".toList

def hdmiCecPortMap : List Char := "/sys/module/tvin_hdmirx/parameters/port_map".toList

/-- The nodes that are written, with the texts that are printed to the buffer of ten bytes. -/
def setHdmiPortCecPhysicAddr (tv : CTv) : List (List Char × List Char) :=
  let val := tv.calHdmiPortCecPhysicAddr
  [(hdmiCecPortSequence, CText.hexText val.toUInt32), (hdmiCecPortMap, CText.decText val)]

/-- The source that the digit of a port stands for. -/
def cecSource (w : UInt32) (k : Fin 4) : SourceInput :=
  if digit w (UInt32.ofNat k) = 0xf then sourceMax else (digit w (UInt32.ofNat k)).toInt32 + 4

/-! ## Digits -/

/-- What the sign of a negative number leaves of a digit. -/
def spill (p : Prop) [Decidable p] : UInt32 := if p then 15 else 0

theorem spill_or (p q : Prop) [Decidable p] [Decidable q] :
    spill p ||| spill q = spill (p ∨ q) := by
  by_cases hp : p <;> by_cases hq : q <;> simp [spill, hp, hq]

/-- The digit of a source at its own port. -/
def ownDigit (t : Fin 17) : UInt32 :=
  if t = 16 then 15 else if t < 4 then UInt32.ofNat (12 + t) else UInt32.ofNat (t - 4)

theorem digit_self : ∀ (t : Fin 17) (k : Fin 4),
    digit (cecPhysicAddr (Int32.ofNat t) <<< Int32.ofNat (4 * k)).toUInt32 (UInt32.ofNat k) =
      ownDigit t := by
  decide +kernel

/-- The sign of a source that is counted negative runs over the digits behind. -/
theorem digit_behind : ∀ (t : Fin 17) (k l : Fin 4), k < l →
    digit (cecPhysicAddr (Int32.ofNat t) <<< Int32.ofNat (4 * k)).toUInt32 (UInt32.ofNat l) =
      spill (t < 4) := by
  decide +kernel

theorem digit_before : ∀ (t : Fin 17) (k l : Fin 4), l < k →
    digit (cecPhysicAddr (Int32.ofNat t) <<< Int32.ofNat (4 * k)).toUInt32 (UInt32.ofNat l) =
      0 := by
  decide +kernel

/-- **The digits of the word**: the number of the source, and what the signs of the sources in front
leave of it. -/
theorem digit_cecWord (t : Fin 4 → Fin 17) (k : Fin 4) :
    digit (cecWord fun i => Int32.ofNat (t i)).toUInt32 (UInt32.ofNat k) =
      ownDigit (t k) ||| spill (∃ i < k, t i < 4) := by
  have hzero : cecPhysicAddr (Int32.ofNat (t 0)) <<< Int32.ofNat (4 * (0 : Fin 4)) =
      cecPhysicAddr (Int32.ofNat (t 0)) := Int32.shiftLeft_zero
  have hword : (cecWord fun i => Int32.ofNat (t i)).toUInt32 =
      (cecPhysicAddr (Int32.ofNat (t 0)) <<< Int32.ofNat (4 * (0 : Fin 4))).toUInt32 |||
      (cecPhysicAddr (Int32.ofNat (t 1)) <<< Int32.ofNat (4 * (1 : Fin 4))).toUInt32 |||
      (cecPhysicAddr (Int32.ofNat (t 2)) <<< Int32.ofNat (4 * (2 : Fin 4))).toUInt32 |||
      (cecPhysicAddr (Int32.ofNat (t 3)) <<< Int32.ofNat (4 * (3 : Fin 4))).toUInt32 := by
    rw [hzero, cecWord, Int32.toUInt32_or, Int32.toUInt32_or, Int32.toUInt32_or]
    rfl
  rw [hword, digit_or, digit_or, digit_or]
  match k with
  | 0 =>
    rw [digit_self, digit_before _ _ _ (by decide), digit_before _ _ _ (by decide),
      digit_before _ _ _ (by decide)]
    simp [spill]
  | 1 =>
    rw [digit_self, digit_behind _ _ _ (by decide), digit_before _ _ _ (by decide),
      digit_before _ _ _ (by decide), UInt32.or_comm (spill _)]
    -- the first port is the only one in front
    have hfront : (∃ i < (1 : Fin 4), t i < 4) ↔ t 0 < 4 := by
      constructor
      · rintro ⟨i, hi, hneg⟩
        have hfirst : i = 0 := Fin.ext (Nat.lt_one_iff.mp hi)
        rwa [← hfirst]
      · intro hneg
        exact ⟨0, by decide, hneg⟩
    simp only [hfront, UInt32.or_zero]
  | 2 =>
    rw [digit_self, digit_behind _ _ _ (by decide), digit_behind _ _ _ (by decide),
      digit_before _ _ _ (by decide), spill_or, UInt32.or_comm (spill _)]
    simp [Fin.exists_fin_succ]
  | 3 =>
    rw [digit_self, digit_behind _ _ _ (by decide), digit_behind _ _ _ (by decide),
      digit_behind _ _ _ (by decide), spill_or, spill_or, UInt32.or_comm (spill _)]
    simp [Fin.exists_fin_succ, or_assoc]

/-! ## Texts -/

/-- Above its sixteen lowest bits a number in the word has its sign only. -/
theorem shiftRight_shifted : ∀ (t : Fin 17) (k : Fin 4),
    (cecPhysicAddr (Int32.ofNat t) <<< Int32.ofNat (4 * k)) >>> 16 = 0 ∨
      (cecPhysicAddr (Int32.ofNat t) <<< Int32.ofNat (4 * k)) >>> 16 = -1 := by
  decide +kernel

theorem sign_or {x y : Int32} (hx : x = 0 ∨ x = -1) (hy : y = 0 ∨ y = -1) :
    x ||| y = 0 ∨ x ||| y = -1 := by
  rcases hx with rfl | rfl <;> rcases hy with rfl | rfl <;> decide

theorem toInt_shiftRight (x : Int32) : (x >>> 16).toInt = x.toInt / 65536 := by
  have hshift : (x >>> 16).toInt = (x.toBitVec.sshiftRight 16).toInt := rfl
  rw [hshift, BitVec.toInt_sshiftRight, Int.shiftRight_eq_div_pow]
  rfl

/-- The word is small, positive or negative. -/
theorem toInt_cecWord (t : Fin 4 → Fin 17) :
    -65536 ≤ (cecWord fun i => Int32.ofNat (t i)).toInt ∧
      (cecWord fun i => Int32.ofNat (t i)).toInt < 65536 := by
  have hzero := shiftRight_shifted (t 0) 0
  have hone := shiftRight_shifted (t 1) 1
  have htwo := shiftRight_shifted (t 2) 2
  have hthree := shiftRight_shifted (t 3) 3
  have hsign : (cecWord fun i => Int32.ofNat (t i)) >>> 16 = 0 ∨
      (cecWord fun i => Int32.ofNat (t i)) >>> 16 = -1 := by
    rw [cecWord, Int32.shiftRight_or, Int32.shiftRight_or, Int32.shiftRight_or]
    rw [show Int32.ofNat (4 * (0 : Fin 4)) = 0 from rfl, Int32.shiftLeft_zero] at hzero
    exact sign_or (sign_or (sign_or hzero hone) htwo) hthree
  have hdiv := toInt_shiftRight (cecWord fun i => Int32.ofNat (t i))
  rcases hsign with hsign | hsign
  · have hint : (0 : Int32).toInt = 0 := rfl
    rw [hsign, hint] at hdiv
    omega
  · have hint : (-1 : Int32).toInt = -1 := rfl
    rw [hsign, hint] at hdiv
    omega

/-- The text of a number that is small has at most six characters. -/
theorem length_decText_le_six {i : Int32} (hlow : -65536 ≤ i.toInt) (hhigh : i.toInt < 65536) :
    (CText.decText i).length ≤ 6 := by
  have hdigits : (Nat.toDigits 10 i.toInt.natAbs).length ≤ 5 :=
    (Nat.length_toDigits_le_iff (by decide) (by decide)).mpr (by omega)
  rw [CText.decText]
  split
  · exact Nat.succ_le_succ hdigits
  · omega

theorem length_hexText_le (w : UInt32) : (CText.hexText w).length ≤ 8 :=
  (Nat.length_toDigits_le_iff (by decide) (by decide)).mpr w.toNat_lt

/-! ## The map -/

/-- A port has a source of the map, or none. -/
theorem exists_portSources (tv : CTv) :
    ∃ t : Fin 4 → Fin 17, tv.portSources = fun k => Int32.ofNat (t k) := by
  have hsource (k : Fin 4) : ∃ t : Fin 17, tv.portSources k = Int32.ofNat t := by
    rcases tv.tvinPortToSourceInput_cases (hdmiPort k) with ⟨i, hi, hfound, -⟩ | ⟨hnone, -⟩
    · exact ⟨⟨i, by omega⟩, hfound⟩
    · exact ⟨16, hnone⟩
  choose t ht using hsource
  exact ⟨t, funext ht⟩

theorem lt_sourceYpbpr2_iff : ∀ t : Fin 17, Int32.ofNat t < sourceYpbpr2 ↔ t < 4 := by
  decide +kernel

/-- What the digit of a source stands for, where a sign may run over it. -/
theorem ownDigit_iff : ∀ (t : Fin 17) (spilled : Bool),
    ((if ownDigit t ||| spill (spilled = true) = 0xf then sourceMax
      else (ownDigit t ||| spill (spilled = true)).toInt32 + 4) = Int32.ofNat t ↔
        Int32.ofNat t = sourceMax ∨ ¬ t < 4 ∧ spilled = false) := by
  decide +kernel

/-- The digit of a port stands for the source there, or for none, exactly if there is none, or if
neither this source nor one on a port in front is counted negative. -/
theorem cecSource_eq_iff (tv : CTv) (k : Fin 4) :
    cecSource tv.calHdmiPortCecPhysicAddr.toUInt32 k = tv.portSources k ↔
      tv.portSources k = sourceMax ∨ ∀ i ≤ k, ¬ tv.portSources i < sourceYpbpr2 := by
  obtain ⟨t, ht⟩ := tv.exists_portSources
  have hspill : spill (∃ i < k, t i < 4) = spill (decide (∃ i < k, t i < 4) = true) := by
    simp only [spill, decide_eq_true_eq]
  rw [calHdmiPortCecPhysicAddr, ht, cecSource, digit_cecWord, hspill, ownDigit_iff]
  simp only [lt_sourceYpbpr2_iff, decide_eq_false_iff_not, not_exists, not_and]
  refine or_congr_right ⟨?_, ?_⟩
  · rintro ⟨hown, hfront⟩ i hi
    rcases Nat.eq_or_lt_of_le hi with heq | hlt
    · exact Fin.ext heq ▸ hown
    · exact hfront i hlt
  · intro hall
    exact ⟨hall k (Nat.le_refl k), fun i hi => hall i (Nat.le_of_lt hi)⟩

/-- With the HDMI sources alone on the HDMI ports no source is counted negative. -/
theorem not_lt_of_ownsHdmiPorts {tv : CTv} (hp : tv.OwnsHdmiPorts) (k : Fin 4) :
    ¬ tv.portSources k < sourceYpbpr2 := by
  have hmem : hdmiPort k ∈ hdmiPorts := List.getElem_mem k.isLt
  rcases tv.tvinPortToSourceInput_cases (hdmiPort k) with ⟨i, hi, hfound, hon⟩ | ⟨hnone, -⟩
  · -- what is found on an HDMI port is an HDMI source
    have hsource : tv.portSources k ∈ hdmiSources := by
      by_contra hother
      apply hp.others _ hother
      rw [portSources, hfound, hon]
      exact hmem
    simp only [hdmiSources, List.mem_cons, List.not_mem_nil, or_false] at hsource
    rcases hsource with h | h | h | h <;> rw [h] <;> decide
  · rw [portSources, hnone]
    decide

/-- **The map for CEC.** The digit of a port stands for the source there, or for none, exactly if
there is none, or if no source on this port or one in front comes before `YPBPR2`. With the HDMI
sources alone on the HDMI ports each of them is found at the digit of its port. The texts fit their
buffer, whatever the ports. -/
theorem cecSource_iff (tv : CTv) :
    let w := tv.calHdmiPortCecPhysicAddr.toUInt32
    (∀ k, cecSource w k = tv.portSources k ↔
      tv.portSources k = sourceMax ∨ ∀ i ≤ k, ¬ tv.portSources i < sourceYpbpr2) ∧
    (tv.OwnsHdmiPorts → ∀ source ∈ hdmiSources, ∀ k,
      tv.tvinGetSourcePortBySourceInput source = hdmiPort k → cecSource w k = source) ∧
    ∀ write ∈ tv.setHdmiPortCecPhysicAddr, write.2.length < 10 := by
  refine ⟨tv.cecSource_eq_iff, fun hp source hs k hport => ?_, ?_⟩
  · have hmem : hdmiPort k ∈ hdmiPorts := List.getElem_mem k.isLt
    have hfound : tv.portSources k = source := (tvinPortToSourceInput_eq_iff hp hs hmem).mpr hport
    rw [← hfound]
    exact (tv.cecSource_eq_iff k).mpr (.inr fun i _ => not_lt_of_ownsHdmiPorts hp i)
  · obtain ⟨t, ht⟩ := tv.exists_portSources
    obtain ⟨hlow, hhigh⟩ := toInt_cecWord t
    rw [setHdmiPortCecPhysicAddr, calHdmiPortCecPhysicAddr, ht]
    simp only [List.forall_mem_cons, List.not_mem_nil, false_imp_iff, implies_true, and_true]
    have hhex := length_hexText_le (cecWord fun k => Int32.ofNat (t k)).toUInt32
    have hdec := length_decText_le_six hlow hhigh
    omega

end CTv
