import AccountApi.Lib.Owned
import AccountApi.Lib.Run

/-!
# Programs that dispatch messages

A program returns or throws, works on the shared state, or awaits a message it puts on the bus.
The bus runs the synchronous part of the call, which throws or hands over a promise: the program
that handles the message. Any number of threads run such programs, one atomic step at a time; a
thread keeps a frame for each message it is inside, and the state keeps a log of what became of
every message.

`dispatched_run`: a dispatched message has settled, or a thread is inside it.

`embed` is a program on a part of a larger state, `andThen` one that goes on when another has
settled.
-/

namespace Dispatch

/-- A program over the state `σ` with messages `μ`, values `ρ` and errors `ε`. -/
inductive Program (σ μ ρ ε : Type) where
  | settled (r : Except ε ρ)
  | access (f : σ → σ) (k : σ → Program σ μ ρ ε)
  | execute (m : μ) (k : Except ε ρ → Program σ μ ρ ε)

/-- What calling `execute` gives. -/
inductive Call (σ μ ρ ε : Type) where
  | thrown (e : ε)
  | promise (p : Program σ μ ρ ε)

abbrev Bus (σ μ ρ ε : Type) := μ → σ → σ × Call σ μ ρ ε

/-- The message a thread is inside, and what it does when that settles. -/
structure Frame (σ μ ρ ε : Type) where
  message : μ
  resume : Except ε ρ → Program σ μ ρ ε

structure Thread (σ μ ρ ε : Type) where
  program : Program σ μ ρ ε
  frames : List (Frame σ μ ρ ε)

inductive Entry (μ ρ ε : Type) where
  | dispatched (m : μ)
  | settled (m : μ) (r : Except ε ρ)
  /-- The call threw before there was a promise. -/
  | thrown (m : μ) (e : ε)

structure State (ι σ μ ρ ε : Type) where
  shared : σ
  threads : ι → Thread σ μ ρ ε
  log : List (Entry μ ρ ε)

inductive Action (ι η : Type) where
  | run (i : ι)
  /-- Something outside the threads changes the state. -/
  | outside (x : η)

structure Service (σ μ ρ ε η : Type) where
  bus : Bus σ μ ρ ε
  outside : η → σ → σ

variable {ι σ τ μ ρ ε η : Type}

namespace Program

/-- `p`, and `k` with what it settles to. -/
def andThen (k : Except ε ρ → Program σ μ ρ ε) : Program σ μ ρ ε → Program σ μ ρ ε
  | settled r => k r
  | access f next => access f fun s => (next s).andThen k
  | execute m next => execute m fun r => (next r).andThen k

/-- The program on the part `get` of a larger state. -/
def embed (get : τ → σ) (put : σ → τ → τ) : Program σ μ ρ ε → Program τ μ ρ ε
  | settled r => settled r
  | access f next => access (fun t => put (f (get t)) t) fun t => (next (get t)).embed get put
  | execute m next => execute m fun r => (next r).embed get put

end Program

/-- A step of a thread: the state after it, the thread, and what it logs. -/
def Thread.step (bus : Bus σ μ ρ ε) (s : σ) : Thread σ μ ρ ε → Option (σ × Thread σ μ ρ ε × List (Entry μ ρ ε))
  | ⟨.settled _, []⟩ => none
  | ⟨.settled r, frame :: frames⟩ => some (s, ⟨frame.resume r, frames⟩, [.settled frame.message r])
  | ⟨.access f k, frames⟩ => some (f s, ⟨k s, frames⟩, [])
  | ⟨.execute m k, frames⟩ =>
    match bus m s with
    | (s, .thrown e) => some (s, ⟨k (.error e), frames⟩, [.thrown m e])
    | (s, .promise p) => some (s, ⟨p, ⟨m, k⟩ :: frames⟩, [.dispatched m])

namespace Service

variable (S : Service σ μ ρ ε η)

def start (s : σ) (programs : ι → Program σ μ ρ ε) : State ι σ μ ρ ε := ⟨s, fun i => ⟨programs i, []⟩, []⟩

def step [DecidableEq ι] (s : State ι σ μ ρ ε) : Action ι η → Option (State ι σ μ ρ ε)
  | .run i => ((s.threads i).step S.bus s.shared).map fun q =>
    ⟨q.1, Function.update s.threads i q.2.1, s.log ++ q.2.2⟩
  | .outside x => some { s with shared := S.outside x s.shared }

end Service

/-- The thread has settled, and is inside no message. -/
def Thread.Finished (th : Thread σ μ ρ ε) (r : Except ε ρ) : Prop := th = ⟨.settled r, []⟩

/-- No thread is inside a message. -/
def State.Idle (s : State ι σ μ ρ ε) : Prop := ∀ i, (s.threads i).frames = []

variable {S : Service σ μ ρ ε η} {s t : State ι σ μ ρ ε}

theorem run_step [DecidableEq ι] {i : ι} : S.step s (.run i) = some t ↔
    ∃ q, (s.threads i).step S.bus s.shared = some q ∧
      t = ⟨q.1, Function.update s.threads i q.2.1, s.log ++ q.2.2⟩ := by
  simp only [Service.step, Option.map_eq_some_iff]
  constructor
  · rintro ⟨q, hq, rfl⟩; exact ⟨q, hq, rfl⟩
  · rintro ⟨q, hq, rfl⟩; exact ⟨q, hq, rfl⟩

def Entry.dispatchedMessage : Entry μ ρ ε → Option μ
  | dispatched m => some m
  | _ => none

def Entry.settledMessage : Entry μ ρ ε → Option μ
  | settled m _ => some m
  | _ => none

/-- The messages the thread is inside. -/
def Thread.inside (th : Thread σ μ ρ ε) : Multiset μ := (th.frames.map (·.message) : List μ)

/-- What a step of a thread dispatches is settled then, or the thread is inside it. -/
theorem Thread.step_balance {bus : Bus σ μ ρ ε} {s : σ} {th : Thread σ μ ρ ε}
    {q : σ × Thread σ μ ρ ε × List (Entry μ ρ ε)} (h : th.step bus s = some q) :
    th.inside + (q.2.2.filterMap Entry.dispatchedMessage : List μ) =
      q.2.1.inside + (q.2.2.filterMap Entry.settledMessage : List μ) := by
  have hperm : ∀ (m : μ) (ms : List μ), ((m :: ms : List μ) : Multiset μ) = (ms : Multiset μ) + ([m] : List μ) :=
    fun m ms => Multiset.coe_eq_coe.2 (List.perm_append_singleton m ms).symm
  unfold Thread.step at h
  split at h
  · cases h
  · cases h
    exact (add_zero _).trans (hperm _ _)
  · cases h
    rfl
  · split at h <;> cases h
    · rfl
    · exact (hperm _ _).symm.trans (add_zero _).symm

/-- **Dispatched messages have settled, or a thread is inside them.** -/
theorem dispatched_run [Fintype ι] [DecidableEq ι] {s₀ : σ} {programs : ι → Program σ μ ρ ε}
    {as : List (Action ι η)} (hrun : Transition.exec S.step (Service.start s₀ programs) as = some t) :
    ((t.log.filterMap Entry.dispatchedMessage : List μ) : Multiset μ) =
      (t.log.filterMap Entry.settledMessage : List μ) + ∑ i, (t.threads i).inside := by
  refine Transition.invariant (I := fun t : State ι σ μ ρ ε =>
    ((t.log.filterMap Entry.dispatchedMessage : List μ) : Multiset μ) =
      (t.log.filterMap Entry.settledMessage : List μ) + ∑ i, (t.threads i).inside) ?_ ?_ hrun
  · intro s a t hs hstep
    cases a with
    | outside x => cases hstep; exact hs
    | run i =>
      obtain ⟨q, hq, rfl⟩ := run_step.1 hstep
      have hbalance := Thread.step_balance hq
      have hsum := sum_update_add s.threads Thread.inside i q.2.1
      simp only [List.filterMap_append, ← Multiset.coe_add, hs]
      refine add_right_cancel (b := (s.threads i).inside) ?_
      rw [add_assoc _ _ (s.threads i).inside, add_comm _ (s.threads i).inside, hbalance,
        add_assoc _ _ (s.threads i).inside, hsum]
      ac_rfl
  · simp [Service.start, Thread.inside]

end Dispatch
