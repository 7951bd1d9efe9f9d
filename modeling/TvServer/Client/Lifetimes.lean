import TvServer.Client.Process
import TvServer.Foundations.Journal
import TvServer.Foundations.Machine

/-!
# The lifetimes of wrappers

The wrappers of a process share its client, and each of them destroys it when it is released. The
static pointer to the client keeps its value, so that a wrapper that is obtained later is given
the client that was destroyed.

## Main definitions

* `WrapperOp`, `ClientProcess.step`: the wrappers are obtained and released
* `Working`: the client of every wrapper is alive and registered
* `Unshared`: no wrapper is released, or only one is obtained
* `Lasting`, `Spent`: the states in which every wrapper works

## Main results

* `lives_step`: which steps keep the wrappers working
* `working_iff_unshared`: the runs that keep them working
-/

/-- A wrapper is obtained, or released: the one with a number, unless it was released before. -/
inductive WrapperOp where
  | getInstance
  | releaseInstance (wrapper : ℕ)
deriving DecidableEq

namespace ClientProcess

variable {p : ClientProcess} {count : ℕ}

def step (p : ClientProcess) : WrapperOp → ClientProcess
  | .getInstance => p.getInstance
  | .releaseInstance wrapper => p.releaseInstance wrapper

/-- The client of every wrapper that was not released is alive, and its callback registered. -/
def Working (p : ClientProcess) : Prop :=
  ∀ w, some w ∈ p.wrappers → p.isRegistered w.mpTvClient = true

/-- No wrapper is released, of those that were obtained before. -/
def Keeps (before : List WrapperOp) (op : WrapperOp) : Prop :=
  ∀ wrapper, op = .releaseInstance wrapper → before.count .getInstance ≤ wrapper

/-- No wrapper is released, or only one is obtained. -/
def Unshared (ops : List WrapperOp) : Prop :=
  Journal.Disciplined Keeps ops ∨ ops.count .getInstance ≤ 1

/-! ## States with working wrappers -/

/-- No wrapper was released: they all share the one client. -/
structure Lasting (p : ClientProcess) (count : ℕ) : Prop where
  wrappers : p.wrappers = List.replicate count (some ⟨0, true⟩)
  clients : p.clients.length = min count 1
  mInstance : p.mInstance = if count = 0 then none else some 0
  registered : count ≠ 0 → p.isRegistered 0 = true

/-- The one wrapper that was obtained was released, and the client destroyed. -/
structure Spent (p : ClientProcess) : Prop where
  wrappers : p.wrappers = [none]
  mInstance : p.mInstance = some 0
  destroyed : p.isRegistered 0 = false

theorem lasting_start (ops : List (TvService.RegistryOp ℕ)) : (start ops).Lasting 0 :=
  ⟨rfl, rfl, rfl, fun h => absurd rfl h⟩

theorem Lasting.working (h : p.Lasting count) : p.Working := by
  intro w hw
  rw [h.wrappers] at hw
  obtain ⟨hcount, heq⟩ := List.mem_replicate.mp hw
  rw [Option.some.inj heq]
  exact h.registered hcount

theorem Spent.working (h : p.Spent) : p.Working := by
  intro w hw
  rw [h.wrappers] at hw
  exact absurd (List.mem_singleton.mp hw) nofun

/-! ## Steps -/

/-- One more wrapper shares the client. -/
theorem Lasting.getInstance (h : p.Lasting count) : p.getInstance.Lasting (count + 1) := by
  by_cases hcount : count = 0
  · subst hcount
    obtain ⟨hwrappers, hinstance, hclients, hregistered⟩ := getInstance_of_none h.mInstance
    have hnone : p.clients.length = 0 := h.clients
    rw [h.wrappers, hnone] at hwrappers
    rw [hnone] at hinstance hclients hregistered
    exact ⟨hwrappers, hclients, hinstance, fun _ => hregistered⟩
  · have hsome : p.mInstance = some 0 := h.mInstance.trans (if_neg hcount)
    obtain ⟨hwrappers, hinstance, hclients, hregistered⟩ := getInstance_of_some hsome
    constructor
    · rw [hwrappers, h.wrappers, List.replicate_succ']
    · rw [hclients, h.clients]
      omega
    · exact hinstance.trans hsome
    · exact fun _ => (hregistered 0).trans (h.registered hcount)

/-- A wrapper that is obtained later is given the client that was destroyed. -/
theorem Spent.not_working_getInstance (h : p.Spent) : ¬ p.getInstance.Working := by
  intro hworking
  obtain ⟨hwrappers, -, -, hregistered⟩ := getInstance_of_some h.mInstance
  have hclient := hworking ⟨0, true⟩ (by simp [hwrappers])
  rw [hregistered, h.destroyed] at hclient
  cases hclient

/-- A pointer that is null is left alone. -/
theorem releaseInstance_of_null {wrapper : ℕ} (h : ∀ w, p.wrappers[wrapper]? ≠ some (some w)) :
    p.releaseInstance wrapper = p := by
  rw [releaseInstance]
  split
  · rename_i w hw
    exact absurd hw (h w)
  · rfl

theorem Lasting.releaseInstance_of_le (h : p.Lasting count) {wrapper : ℕ}
    (hle : count ≤ wrapper) : p.releaseInstance wrapper = p := by
  apply releaseInstance_of_null
  intro w
  rw [h.wrappers, List.getElem?_eq_none (by simpa using hle)]
  nofun

theorem Spent.releaseInstance (h : p.Spent) (wrapper : ℕ) : p.releaseInstance wrapper = p := by
  apply releaseInstance_of_null
  intro w
  rw [h.wrappers]
  cases wrapper <;> nofun

/-- The release of a wrapper destroys the client. -/
theorem Lasting.releaseInstance (h : p.Lasting count) {wrapper : ℕ} (hlt : wrapper < count) :
    (p.releaseInstance wrapper).wrappers =
        (List.replicate count (some ⟨0, true⟩)).set wrapper none ∧
      (p.releaseInstance wrapper).mInstance = some 0 ∧
      (p.releaseInstance wrapper).isRegistered 0 = false := by
  have hwrapper : p.wrappers[wrapper]? = some (some ⟨0, true⟩) := by
    rw [h.wrappers, List.getElem?_replicate_of_lt hlt]
  have hclient : 0 < p.clients.length := by
    rw [h.clients]
    omega
  have heq : p.releaseInstance wrapper =
      { p.destroyClient 0 with wrappers := p.wrappers.set wrapper none } := by
    rw [ClientProcess.releaseInstance, hwrapper]
  rw [heq, ← h.wrappers]
  refine ⟨rfl, ?_, isRegistered_destroyClient hclient⟩
  exact (mInstance_destroyClient 0).trans (h.mInstance.trans (if_neg (Nat.ne_of_gt (by omega))))

/-- The one wrapper that was obtained is released. -/
theorem Lasting.spent (h : p.Lasting 1) : (p.releaseInstance 0).Spent := by
  obtain ⟨hwrappers, hinstance, hdestroyed⟩ := h.releaseInstance Nat.zero_lt_one
  exact ⟨hwrappers, hinstance, hdestroyed⟩

/-- Where there are others, they are left with the client that was destroyed. -/
theorem Lasting.not_working_releaseInstance (h : p.Lasting count) {wrapper : ℕ}
    (hlt : wrapper < count) (hcount : 1 < count) : ¬ (p.releaseInstance wrapper).Working := by
  intro hworking
  obtain ⟨hwrappers, -, hdestroyed⟩ := h.releaseInstance hlt
  -- another wrapper, behind the one that is released or before it
  obtain ⟨other, hother, hne⟩ : ∃ other < count, wrapper ≠ other := by
    by_cases hzero : wrapper = 0
    · exact ⟨1, hcount, by omega⟩
    · exact ⟨0, by omega, hzero⟩
  have hmem : some ⟨0, true⟩ ∈ (p.releaseInstance wrapper).wrappers := by
    rw [hwrappers]
    apply List.mem_of_getElem?
    rw [List.getElem?_set_ne hne]
    exact List.getElem?_replicate_of_lt hother
  have hclient := hworking ⟨0, true⟩ hmem
  rw [hdestroyed] at hclient
  cases hclient

/-! ## Runs -/

/-- What a run with working wrappers reaches. -/
def Lives (before : List WrapperOp) (p : ClientProcess) : Prop :=
  (Journal.Disciplined Keeps before ∧ p.Lasting (before.count .getInstance)) ∨
    (¬ Journal.Disciplined Keeps before ∧ before.count .getInstance = 1 ∧ p.Spent)

theorem Lives.working {before : List WrapperOp} (h : Lives before p) : p.Working := by
  rcases h with ⟨-, hlasting⟩ | ⟨-, -, hspent⟩
  · exact hlasting.working
  · exact hspent.working

theorem Lives.unshared {before : List WrapperOp} (h : Lives before p) : Unshared before := by
  rcases h with ⟨hkeeps, -⟩ | ⟨-, hcount, -⟩
  · exact .inl hkeeps
  · exact .inr hcount.le

/-- Wrappers are shared where one is released and more than one obtained. -/
theorem not_unshared {ops : List WrapperOp} (hreleased : ¬ Journal.Disciplined Keeps ops)
    (hcount : 1 < ops.count .getInstance) : ¬ Unshared ops := by
  rintro (hkeeps | hle)
  · exact hreleased hkeeps
  · omega

/-- A wrapper is obtained: this goes wrong where one was released. -/
theorem lives_getInstance {before : List WrapperOp} (h : Lives before p) :
    Lives (before ++ [.getInstance]) p.getInstance ∨
      (¬ Unshared (before ++ [.getInstance]) ∧ ¬ p.getInstance.Working) := by
  have hcount : (before ++ [WrapperOp.getInstance]).count .getInstance =
      before.count .getInstance + 1 := by simp
  rcases h with ⟨hkeeps, hlasting⟩ | ⟨hreleased, hone, hspent⟩
  · refine .inl (.inl ⟨Journal.disciplined_snoc.mpr ⟨hkeeps, nofun⟩, ?_⟩)
    rw [hcount]
    exact hlasting.getInstance
  · -- this is the second one, and the first was released
    refine .inr ⟨not_unshared ?_ (by omega), hspent.not_working_getInstance⟩
    exact fun hkeeps => hreleased (Journal.disciplined_snoc.mp hkeeps).1

/-- A wrapper is released: this goes wrong where there are others. -/
theorem lives_releaseInstance {before : List WrapperOp} (h : Lives before p) (wrapper : ℕ) :
    Lives (before ++ [.releaseInstance wrapper]) (p.releaseInstance wrapper) ∨
      (¬ Unshared (before ++ [.releaseInstance wrapper]) ∧
        ¬ (p.releaseInstance wrapper).Working) := by
  have hcount : (before ++ [WrapperOp.releaseInstance wrapper]).count .getInstance =
      before.count .getInstance := by simp
  rcases h with ⟨hkeeps, hlasting⟩ | ⟨hreleased, hone, hspent⟩
  · rcases Nat.lt_or_ge wrapper (before.count .getInstance) with hlt | hle
    · have hreleased : ¬ Journal.Disciplined Keeps (before ++ [.releaseInstance wrapper]) := by
        intro hdisciplined
        exact Nat.not_le.mpr hlt ((Journal.disciplined_snoc.mp hdisciplined).2 wrapper rfl)
      rcases Nat.lt_or_ge 1 (before.count .getInstance) with hmany | hfew
      · -- the others lose their client
        refine .inr ⟨not_unshared hreleased (by omega), ?_⟩
        exact hlasting.not_working_releaseInstance hlt hmany
      · -- it is the only one
        have hone : before.count .getInstance = 1 := by omega
        obtain rfl : wrapper = 0 := by omega
        rw [hone] at hlasting
        exact .inl (.inr ⟨hreleased, hcount.trans hone, hlasting.spent⟩)
    · -- there is no such wrapper
      rw [hlasting.releaseInstance_of_le hle]
      refine .inl (.inl ⟨Journal.disciplined_snoc.mpr ⟨hkeeps, ?_⟩, ?_⟩)
      · rintro _ ⟨⟩
        exact hle
      · rw [hcount]
        exact hlasting
  · -- the only wrapper was released before
    rw [hspent.releaseInstance]
    refine .inl (.inr ⟨?_, hcount.trans hone, hspent⟩)
    exact fun hkeeps => hreleased (Journal.disciplined_snoc.mp hkeeps).1

/-- **Steps with working wrappers**: a step of a run that shares no wrapper reaches such a state
again, and any other one leaves a wrapper with the client that was destroyed. -/
theorem lives_step {before : List WrapperOp} (h : Lives before p) (op : WrapperOp) :
    Lives (before ++ [op]) (p.step op) ∨
      (¬ Unshared (before ++ [op]) ∧ ¬ (p.step op).Working) := by
  cases op with
  | getInstance => exact lives_getInstance h
  | releaseInstance wrapper => exact lives_releaseInstance h wrapper

/-- A shorter run shares no wrapper where the longer one does not. -/
theorem unshared_of_snoc {before : List WrapperOp} {op : WrapperOp}
    (h : Unshared (before ++ [op])) : Unshared before := by
  rcases h with hkeeps | hcount
  · exact .inl (Journal.disciplined_snoc.mp hkeeps).1
  · rw [List.count_append] at hcount
    exact .inr (by omega)

/-- The state that a run reaches which shares no wrapper. -/
theorem lives_run (service : List (TvService.RegistryOp ℕ)) {ops : List WrapperOp}
    (h : Unshared ops) : Lives ops (Machine.run step (start service) ops) := by
  induction ops using List.reverseRecOn with
  | nil => exact .inl ⟨Journal.disciplined_nil, lasting_start service⟩
  | append_singleton ops op ih =>
    rw [Machine.run_snoc]
    rcases lives_step (ih (unshared_of_snoc h)) op with hlives | ⟨hshared, -⟩
    · exact hlives
    · exact absurd h hshared

/-- **Runs with working wrappers**: the client of every wrapper is alive and registered in every
state of a run exactly if no wrapper is released, or only one is obtained. -/
theorem working_iff_unshared (service : List (TvService.RegistryOp ℕ)) (ops : List WrapperOp) :
    Machine.Throughout step Working (start service) ops ↔ Unshared ops := by
  induction ops using List.reverseRecOn with
  | nil =>
    exact iff_of_true (Machine.throughout_nil.mpr (lasting_start service).working)
      (.inl Journal.disciplined_nil)
  | append_singleton ops op ih =>
    rw [Machine.throughout_snoc, ih]
    -- the wrappers work before the last operation, so that it is a step from a known state
    constructor
    · rintro ⟨hunshared, hworking⟩
      rw [Machine.run_snoc] at hworking
      rcases lives_step (lives_run service hunshared) op with hlives | ⟨-, hfails⟩
      · exact hlives.unshared
      · exact absurd hworking hfails
    · intro h
      exact ⟨unshared_of_snoc h, (lives_run service h).working⟩

/-- Of two wrappers one is released, and the other is left with the client that was destroyed. -/
theorem not_forall_working :
    ¬ ∀ (service : List (TvService.RegistryOp ℕ)) (ops : List WrapperOp),
      (Machine.run step (start service) ops).Working := by
  intro hall
  have hlasting : (Machine.run step (start []) [.getInstance, .getInstance]).Lasting 2 :=
    (lasting_start []).getInstance.getInstance
  have hworking := hall [] ([.getInstance, .getInstance] ++ [.releaseInstance 0])
  rw [Machine.run_snoc] at hworking
  exact hlasting.not_working_releaseInstance (by decide) (by decide) hworking

end ClientProcess
