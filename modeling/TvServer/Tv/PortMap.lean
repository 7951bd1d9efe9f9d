import TvServer.Tv.PollDetect

/-!
# The map of the ports

The map holds a signed integer for each source, and a port is an unsigned one. The search for a
port goes through the sources in their order and compares signed integers; the source of the
first entry found is the answer. An entry may occur more than once, or be none of a port.

## Main definitions

* `portEntries`: the entries of the map as the signed integers they are
* `portLoop`: the loop of the search
* `InMap`: the sources of the map

## Main results

* `tvinPortToSourceInput_eq_portLoop`: the search is the loop over signed integers
* `portLoop_eq`: the loop finds the first entry
* `tvinPortToSourceInput_least`: the search finds the least source on a port
-/

namespace CTv

/-- The entries of the map as signed integers. -/
def portEntries (tv : CTv) : Vector Int32 16 := tv.mSourceInputToPortMap.map UInt32.toInt32

/-- The loop over the entries from an index on. -/
def portLoop (port : TvinPort) : ℕ → List Int32 → SourceInput
  | _, [] => sourceMax
  | i, entry :: entries =>
    if entry = port.toInt32 then Int32.ofNat i else portLoop port (i + 1) entries

/-- The sources that the map has an entry for. -/
def InMap (source : SourceInput) : Prop := sourceTv ≤ source ∧ source < sourceMax

variable (tv : CTv)

/-- The comparison of signed integers is one of ports. -/
theorem toInt32_eq_iff (p q : TvinPort) : p.toInt32 = q.toInt32 ↔ p = q := by
  constructor
  · intro h
    rw [← UInt32.toUInt32_toInt32 p, h, UInt32.toUInt32_toInt32]
  · exact congrArg _

/-- The loop finds the first entry with the port. -/
theorem portLoop_eq (port : TvinPort) (entries : List Int32) (i : ℕ) :
    portLoop port i entries =
      match entries.findIdx? (· = port.toInt32) with
      | some j => Int32.ofNat (j + i)
      | none => sourceMax := by
  induction entries generalizing i with
  | nil => rfl
  | cons entry entries ih =>
    rw [portLoop, List.findIdx?_cons, ih]
    by_cases hentry : entry = port.toInt32
    · simp [hentry]
    · cases hfind : entries.findIdx? (· = port.toInt32) with
      | none => simp [hentry]
      | some j => simp [hentry, Nat.add_assoc, Nat.add_comm 1 i]

/-- **The search is the loop over signed integers.** -/
theorem tvinPortToSourceInput_eq_portLoop (port : TvinPort) :
    tv.tvinPortToSourceInput port = portLoop port 0 tv.portEntries.toList := by
  have hsame : (fun entry : Int32 => decide (entry = port.toInt32)) ∘ UInt32.toInt32 =
      fun p => decide (p = port) := by
    ext p
    exact decide_eq_decide.mpr (toInt32_eq_iff p port)
  rw [portLoop_eq, portEntries, Vector.toList_map, List.findIdx?_map, hsame]
  rfl

/-- The sources of the map are the indices of its entries. -/
theorem inMap_iff (source : SourceInput) : InMap source ↔ ∃ i, i < 16 ∧ source = Int32.ofNat i := by
  constructor
  · rintro ⟨hlow, hhigh⟩
    have hlow' : 0 ≤ source.toInt := Int32.le_iff_toInt_le.mp hlow
    have hhigh' : source.toInt < 16 := Int32.lt_iff_toInt_lt.mp hhigh
    refine ⟨source.toInt.toNat, by omega, Int32.toInt_inj.mp ?_⟩
    rw [Int32.toInt_ofNat_of_lt (by omega), Int.toNat_of_nonneg hlow']
  · rintro ⟨i, hi, rfl⟩
    have htoInt : (Int32.ofNat i).toInt = i := Int32.toInt_ofNat_of_lt (by omega)
    refine ⟨Int32.le_iff_toInt_le.mpr ?_, Int32.lt_iff_toInt_lt.mpr ?_⟩
    · rw [htoInt]
      exact Int.natCast_nonneg i
    · rw [htoInt]
      exact Int.ofNat_lt.mpr hi

theorem toInt_ofNat {i : ℕ} (hi : i < 16) : (Int32.ofNat i).toInt = i :=
  Int32.toInt_ofNat_of_lt (by omega)

/-- The entry of a source is the port that the map gives for it. -/
theorem portEntries_eq_iff {i : ℕ} (hi : i < 16) (port : TvinPort) :
    tv.portEntries[i] = port.toInt32 ↔
      tv.tvinGetSourcePortBySourceInput (Int32.ofNat i) = port := by
  rw [portEntries, Vector.getElem_map, toInt32_eq_iff, tvinGetSourcePortBySourceInput_ofNat hi]

/-- What the search finds, by the index of the entry. -/
theorem tvinPortToSourceInput_eq_ofNat_iff {i : ℕ} (hi : i < 16) (port : TvinPort) :
    tv.tvinPortToSourceInput port = Int32.ofNat i ↔
      tv.portEntries[i] = port.toInt32 ∧ ∀ j (hj : j < i), tv.portEntries[j] ≠ port.toInt32 := by
  have hlen : tv.portEntries.toList.length = 16 := Vector.length_toList
  rw [tvinPortToSourceInput_eq_portLoop, portLoop_eq]
  have hfirst : tv.portEntries.toList.findIdx? (· = port.toInt32) = some i ↔
      tv.portEntries[i] = port.toInt32 ∧
        ∀ j (hj : j < i), tv.portEntries[j] ≠ port.toInt32 := by
    rw [List.findIdx?_eq_some_iff_getElem]
    simp [hi]
  rw [← hfirst]
  cases hfind : tv.portEntries.toList.findIdx? (· = port.toInt32) with
  | none =>
    refine iff_of_false (fun he => ?_) (by simp)
    have hmax : (16 : ℤ) = i := (congrArg Int32.toInt he).trans (toInt_ofNat hi)
    omega
  | some j =>
    have hj : j < 16 := hlen ▸ (List.findIdx?_eq_some_iff_getElem.mp hfind).1
    constructor
    · intro he
      have hij := (toInt_ofNat hj).symm.trans ((congrArg Int32.toInt he).trans (toInt_ofNat hi))
      exact congrArg some (Int.ofNat.inj hij)
    · intro he
      rw [Option.some.inj he]
      rfl

theorem tvinPortToSourceInput_eq_sourceMax_iff (port : TvinPort) :
    tv.tvinPortToSourceInput port = sourceMax ↔
      ∀ i (hi : i < 16), tv.portEntries[i] ≠ port.toInt32 := by
  constructor
  · intro hmax i hi hentry
    rcases tv.tvinPortToSourceInput_cases port with ⟨j, hj, hfound, -⟩ | ⟨-, hnone⟩
    · have hij : (16 : ℤ) = j :=
        (congrArg Int32.toInt (hmax.symm.trans hfound)).trans (toInt_ofNat hj)
      omega
    · exact hnone i hi ((tv.portEntries_eq_iff hi port).mp hentry)
  · intro hnone
    rcases tv.tvinPortToSourceInput_cases port with ⟨j, hj, -, hon⟩ | ⟨hmax, -⟩
    · exact absurd ((tv.portEntries_eq_iff hj port).mpr hon) (hnone j hj)
    · exact hmax

/-- **The least source on a port.** Whatever the entries of the map, the search for a port finds the
least source whose entry is the port, and `SOURCE_MAX` exactly if there is none. A source that is
found is on the port, and the search for the port of a source in the map finds this source exactly
if no smaller one has the same port. -/
theorem tvinPortToSourceInput_least (port : TvinPort) :
    (∀ i (hi : i < 16), tv.tvinPortToSourceInput port = Int32.ofNat i ↔
      tv.portEntries[i] = port.toInt32 ∧ ∀ j (hj : j < i), tv.portEntries[j] ≠ port.toInt32) ∧
    (tv.tvinPortToSourceInput port = sourceMax ↔
      ∀ i (hi : i < 16), tv.portEntries[i] ≠ port.toInt32) ∧
    (tv.tvinPortToSourceInput port ≠ sourceMax →
      tv.tvinGetSourcePortBySourceInput (tv.tvinPortToSourceInput port) = port) ∧
    ∀ source, InMap source →
      (tv.tvinPortToSourceInput (tv.tvinGetSourcePortBySourceInput source) = source ↔
        ∀ s, InMap s → s < source →
          tv.tvinGetSourcePortBySourceInput s ≠ tv.tvinGetSourcePortBySourceInput source) := by
  refine ⟨fun i hi => tv.tvinPortToSourceInput_eq_ofNat_iff hi port,
    tv.tvinPortToSourceInput_eq_sourceMax_iff port, fun hfound => ?_, fun source hsource => ?_⟩
  · rcases tv.tvinPortToSourceInput_cases port with ⟨i, -, hi, hon⟩ | ⟨hmax, -⟩
    · rw [hi, hon]
    · exact absurd hmax hfound
  · obtain ⟨i, hi, rfl⟩ := (inMap_iff source).mp hsource
    rw [tv.tvinPortToSourceInput_eq_ofNat_iff hi, tv.portEntries_eq_iff hi, eq_self, true_and]
    constructor
    · intro hfirst s hs hlt
      obtain ⟨j, hj, rfl⟩ := (inMap_iff s).mp hs
      rw [Int32.lt_iff_toInt_lt, toInt_ofNat hi, toInt_ofNat hj] at hlt
      exact fun he => hfirst j (Int.ofNat_lt.mp hlt) ((tv.portEntries_eq_iff hj _).mpr he)
    · intro hsmaller j hj hentry
      have hj' : j < 16 := hj.trans hi
      have hlt : Int32.ofNat j < Int32.ofNat i := by
        rw [Int32.lt_iff_toInt_lt, toInt_ofNat hi, toInt_ofNat hj']
        exact Int.ofNat_lt.mpr hj
      have hmap := (inMap_iff (Int32.ofNat j)).mpr ⟨j, hj', rfl⟩
      exact hsmaller _ hmap hlt ((tv.portEntries_eq_iff hj' _).mp hentry)

end CTv
