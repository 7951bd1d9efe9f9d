import TvServer.Foundations.Machine
import TvServer.Foundations.Owners
import TvServer.Utils.FileCopy

/-!
# Descriptors of files

A file object opens a descriptor where it has none, closes the one that it has, and closes it when
it is destroyed; a serial port is such an object with a device of its own. Other operations open a
descriptor and close it before they return. A descriptor that was closed is given out again, to any
object, so a close that comes twice or too late would hit the file of another one.

## Main definitions

* `File`: a file object, or a serial port, with its descriptor
* `Operation`, `Objects.step`: the operations on the objects of a program
* `Objects.owners`: the objects as the owners of their descriptors

## Main results

* `openFile_describes`, `copyTo_describes`: the files that are copied are files with descriptors
* `reaches_step`: an operation opens and closes by legal moves
* `descriptors_run`: which descriptors are open after any operations
-/

open Ledger

/-- A file object, with its descriptor if it is open; and the device of a serial port. -/
structure File where
  mPath : List Char
  mFd : Option ℕ
  mDevId : Int32

namespace File

/-- The file objects are constructed closed. -/
def construct (path : List Char) : File := ⟨path, none, -1⟩

/-- What an operation returns, what becomes of its object, and what it opened and closed. -/
structure Result where
  ret : ℤ
  file : File
  entries : List (Entry ℕ)

/-- What `open` returns. -/
def fdValue : Option ℕ → ℤ
  | some fd => fd
  | none => -1

/-- A descriptor that is opened, if it can be. -/
def opened (answer : Option ℕ) : List (Entry ℕ) := answer.toList.map .acquired

/-- A descriptor that is opened, if it can be, and closed before the operation returns. -/
def borrowed (answer : Option ℕ) : List (Entry ℕ) :=
  answer.toList.flatMap fun fd => [.acquired fd, .released fd true]

def openFile (file : File) (path : Option (List Char)) (answer : Option ℕ) : Result :=
  match file.mFd with
  | some fd => ⟨fd, file, []⟩
  | none =>
    let mPath := path.getD file.mPath
    if mPath = [] then ⟨-1, { file with mPath }, []⟩
    else ⟨fdValue answer, { file with mPath, mFd := answer }, opened answer⟩

/-- Descriptor 0 is not closed. -/
def closeFile (file : File) : Result :=
  match file.mFd with
  | some fd => if 0 < fd then ⟨0, { file with mFd := none }, [.released fd true]⟩ else ⟨0, file, []⟩
  | none => ⟨0, file, []⟩

/-- The descriptors of a copy: the file itself stays open. Returned is whether the loops are
reached. -/
def copyTo (file : File) (answer destination : Option ℕ) : Bool × File × List (Entry ℕ) :=
  if file.mPath = [] then (false, file, [])
  else match file.mFd, answer with
    | some _, _ => (true, file, borrowed destination)
    | none, none => (false, file, [])
    | none, some fd =>
      (true, { file with mFd := some fd }, opened (some fd) ++ borrowed destination)

/-! ## Serial ports -/

def devPathS0 : List Char := "/dev/ttyS0".toList
def devPathS1 : List Char := "/dev/ttyS1".toList
def devPathS2 : List Char := "/dev/ttyS2".toList

/-- The device file of a serial port. -/
def devFileName (serialDevId : Int32) : Option (List Char) :=
  if serialDevId = 0 then some devPathS0
  else if serialDevId = 1 then some devPathS1
  else if serialDevId = 2 then some devPathS2
  else none

def openDevice (file : File) (serialDevId : Int32) (answer : Option ℕ) : Result :=
  if file.mFd.isSome then ⟨0, file, []⟩
  else match devFileName serialDevId with
    | some devFileName => { file with mDevId := serialDevId }.openFile (some devFileName) answer
    | none => ⟨0, file, []⟩

def closeDevice (file : File) : Result := { file with mDevId := -1 }.closeFile

/-! ## Copied files -/

/-- A file with a descriptor, as a file with an offset. -/
structure Describes (file : File) (c : CFile) : Prop where
  path : file.mPath = c.mPath
  isOpen : file.mFd.isSome = c.mFd.isSome

theorem openFile_describes {file : File} {c : CFile} (h : Describes file c)
    (path : Option (List Char)) (answer : Option ℕ) :
    Describes (file.openFile path answer).file (c.openFile path answer.isSome).1 := by
  obtain ⟨hpath, hopen⟩ := h
  unfold openFile CFile.openFile
  rw [← hpath, ← hopen]
  cases hfd : file.mFd with
  | some fd => exact ⟨hpath, hopen⟩
  | none =>
    rw [Option.isSome_none, if_neg Bool.false_ne_true]
    dsimp only
    split
    · exact ⟨rfl, rfl⟩
    · cases answer <;> exact ⟨rfl, rfl⟩

/-- A copy comes to its loops where the descriptors say so. -/
theorem copyTo_describes {file : File} {c : CFile} (h : Describes file c)
    (answer destination : Option ℕ) {files : CFile.Files}
    (hfiles : files.sourceOpens = answer.isSome) :
    (file.copyTo answer destination).1 = true ↔ c.Starts files := by
  obtain ⟨hpath, hopen⟩ := h
  rw [CFile.Starts, ← hpath, ← hopen, hfiles]
  unfold copyTo
  split
  · rename_i hempty
    exact iff_of_false Bool.false_ne_true fun h => h.1 hempty
  · rename_i hpath
    cases hfd : file.mFd <;> cases answer <;> simp [hpath]

end File

/-! ## Operations -/

/-- An operation of a file object, with the descriptors that the kernel opens, if it can; or an
attribute of some file is read or written. -/
inductive Operation where
  | openFile (path : Option (List Char)) (answer : Option ℕ)
  | closeFile
  | copyTo (answer destination : Option ℕ)
  | openDevice (serialDevId : Int32) (answer : Option ℕ)
  | closeDevice
  | destroy
  | fileAttr (answer : Option ℕ)

/-- What becomes of the object of an operation, and what the operation opens and closes. -/
def Operation.perform (file : File) : Operation → File × List (Entry ℕ)
  | openFile path answer => let r := file.openFile path answer; (r.file, r.entries)
  | closeFile | destroy => let r := file.closeFile; (r.file, r.entries)
  | copyTo answer destination => (file.copyTo answer destination).2
  | openDevice serialDevId answer =>
    let r := file.openDevice serialDevId answer; (r.file, r.entries)
  | closeDevice => let r := file.closeDevice; (r.file, r.entries)
  | fileAttr answer => (file, File.borrowed answer)

/-- The file objects of a program, those of them that were destroyed, and what was opened and
closed. -/
structure Objects (I : Type*) where
  file : I → File
  destroyed : I → Bool
  journal : List (Entry ℕ)

namespace Objects

variable {I : Type*} [DecidableEq I]

def construct (path : I → List Char) : Objects I :=
  ⟨fun i => .construct (path i), fun _ => false, []⟩

/-- An operation on one of the objects. -/
def step (s : Objects I) : I × Operation → Objects I
  | (i, op) =>
    let (file, entries) := op.perform (s.file i)
    { file := Function.update s.file i file
      destroyed := if op matches .destroy then Function.update s.destroyed i true else s.destroyed
      journal := s.journal ++ entries }

/-- The objects as the owners of their descriptors. -/
def owners (s : Objects I) : Owners I ℕ := ⟨fun i => (s.file i).mFd, s.journal⟩

/-- Only objects are operated on that are not destroyed. -/
def Alive (s : Objects I) (x : I × Operation) : Prop := s.destroyed x.1 = false

/-! ## Moves of the operations -/

end Objects

theorem File.borrowed_handles {before after : Option ℕ} {entries : List (Entry ℕ)}
    (h : Handles before after entries) (answer : Option ℕ) :
    Handles before after (entries ++ File.borrowed answer) := by
  cases answer with
  | none => rwa [File.borrowed, Option.toList_none, List.flatMap_nil, List.append_nil]
  | some fd => exact h.borrow fd

namespace Operation

theorem handles_openFile (file : File) (path : Option (List Char)) (answer : Option ℕ) :
    Handles file.mFd (file.openFile path answer).file.mFd (file.openFile path answer).entries := by
  unfold File.openFile
  split
  · exact .keep _
  · rename_i hfd
    dsimp only
    split
    · exact .keep _
    · rw [hfd]
      cases answer with
      | none => exact .keep none
      | some fd => exact .acquire fd

theorem handles_closeFile (file : File) :
    Handles file.mFd file.closeFile.file.mFd file.closeFile.entries := by
  unfold File.closeFile
  split
  · rename_i hfd
    split
    · rw [hfd]
      exact .release _
    · exact .keep _
  · exact .keep _

theorem handles_copyTo (file : File) (answer destination : Option ℕ) :
    Handles file.mFd (file.copyTo answer destination).2.1.mFd
      (file.copyTo answer destination).2.2 := by
  unfold File.copyTo
  split
  · exact .keep _
  · split
    · exact File.borrowed_handles (.keep _) destination
    · exact .keep _
    · rename_i hfd
      rw [hfd]
      exact File.borrowed_handles (.acquire _) destination

/-- What an operation opens and closes. -/
theorem handles_perform (file : File) (op : Operation) :
    Handles file.mFd (op.perform file).1.mFd (op.perform file).2 := by
  cases op with
  | openFile path answer => exact handles_openFile file path answer
  | closeFile | destroy => exact handles_closeFile file
  | copyTo answer destination => exact handles_copyTo file answer destination
  | openDevice serialDevId answer =>
    show Handles file.mFd (file.openDevice serialDevId answer).file.mFd
      (file.openDevice serialDevId answer).entries
    unfold File.openDevice
    split
    · exact .keep _
    · split
      · exact handles_openFile { file with mDevId := serialDevId } _ answer
      · exact .keep _
  | closeDevice => exact handles_closeFile { file with mDevId := -1 }
  | fileAttr answer => exact File.borrowed_handles (.keep _) answer

end Operation

namespace Objects

variable {I : Type*} [DecidableEq I] {s : Objects I}

/-- The operations on objects open and close by legal moves. -/
theorem reaches_step (s : Objects I) (x : I × Operation) : Reaches s.owners (s.step x).owners := by
  obtain ⟨i, op⟩ := x
  have howners : (s.step (i, op)).owners =
      ⟨Function.update s.owners.owner i (op.perform (s.file i)).1.mFd,
        s.journal ++ (op.perform (s.file i)).2⟩ := by
    rw [owners]
    congr 1
    exact Function.comp_update File.mFd s.file i _
  rw [howners]
  exact (op.handles_perform (s.file i)).reaches rfl

theorem reaches_run (s : Objects I) (xs : List (I × Operation)) :
    Reaches s.owners (Machine.run step s xs).owners :=
  Machine.run_invariant (fun s' : Objects I => Reaches s.owners s'.owners)
    (fun s' x h => h.trans (reaches_step s' x)) .refl xs

/-! ## Destroyed objects -/

/-- A destroyed object has no descriptor but 0. -/
def Closed (s : Objects I) : Prop :=
  ∀ i, s.destroyed i = true → ∀ fd, (s.file i).mFd = some fd → fd = 0

omit [DecidableEq I] in
theorem closed_construct (path : I → List Char) : Closed (construct path) := by
  intro i hi
  cases hi

theorem mFd_closeFile (file : File) {fd : ℕ} (h : file.closeFile.file.mFd = some fd) : fd = 0 := by
  unfold File.closeFile at h
  split at h
  · rename_i fd' hfd
    split at h
    · cases h
    · rename_i hzero
      rw [← Option.some.inj (hfd.symm.trans h)]
      omega
  · rename_i hfd
    cases hfd.symm.trans h

theorem closed_step (h : s.Closed) {x : I × Operation} (halive : s.Alive x) :
    (s.step x).Closed := by
  obtain ⟨i, op⟩ := x
  intro j hj fd hfd
  change (Function.update s.file i (op.perform (s.file i)).1 j).mFd = some fd at hfd
  rcases eq_or_ne j i with rfl | hne
  · rw [Function.update_self] at hfd
    cases op with
    | destroy => exact mFd_closeFile (s.file j) hfd
    -- the object is alive, and the operation does not destroy it
    | _ => cases halive.symm.trans hj
  · rw [Function.update_of_ne hne] at hfd
    refine h j ?_ fd hfd
    cases op with
    | destroy =>
      change Function.update s.destroyed i true j = true at hj
      rwa [Function.update_of_ne hne] at hj
    | _ => exact hj

theorem closed_run (h : s.Closed) {xs : List (I × Operation)}
    (halive : Machine.Along step Alive s xs) : (Machine.run step s xs).Closed := by
  induction xs generalizing s with
  | nil => exact h
  | cons x xs ih => exact ih (closed_step h halive.1) halive.2

/-! ## Open descriptors -/

/-- **The descriptors that are open.** The kernel gives out no descriptor that is open, and no
operation comes to an object that is destroyed. Then behind any operations the open descriptors are
those that the objects have, no two of them the same; no descriptor was closed that was not open;
and a destroyed object has left open nothing but descriptor 0. -/
theorem descriptors_run (path : I → List Char) {xs : List (I × Operation)}
    (hgranted : Granted (Machine.run step (construct path) xs).journal)
    (halive : Machine.Along step Alive (construct path) xs) :
    let s := Machine.run step (construct path) xs
    (∀ fd, fd ∈ held s.journal ↔ ∃ i, (s.file i).mFd = some fd) ∧
      (∀ i j fd, (s.file i).mFd = some fd → (s.file j).mFd = some fd → i = j) ∧
      ReleasesHeld s.journal ∧
      ∀ i, s.destroyed i = true → ∀ fd, (s.file i).mFd = some fd → fd = 0 := by
  intro s
  have hsound : Sound s.owners := (reaches_run _ xs).sound sound_start hgranted
  have hclosed := closed_run (closed_construct path) halive
  exact ⟨hsound.held_iff, hsound.distinct, hsound.releases, hclosed⟩

/-- A serial port is given the descriptor that a file has closed. -/
theorem descriptors_run_reuse :
    let xs := [(false, .openFile (some ['f']) (some 3)), (false, .closeFile),
      (true, .openDevice 0 (some 3)), (false, .destroy)]
    let s := Machine.run step (construct fun _ : Bool => []) xs
    ∀ fd, fd ∈ held s.journal ↔ ∃ i, (s.file i).mFd = some fd := by
  intro xs s
  have hgranted : Granted s.journal :=
    ((granted_nil.acquire List.not_mem_nil).release 3 true).acquire List.not_mem_nil
  exact (descriptors_run _ hgranted ⟨rfl, rfl, rfl, rfl, trivial⟩).1

end Objects
