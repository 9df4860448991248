import AccountApi.Lib.Owned
import AccountApi.Lib.Simulation
import AccountApi.Spec.Observability
import Mathlib.Tactic.Common

/-!
# The instrumented buses

A thread of the instrumented service runs the program of the plain one inside the wrappers of the
messages it is handling (`inside`). It stays with the plain thread step by step, except that it
records the outcome of a message and ends its span before the message settles (`Stage`).

* `instrument_transparent`: the instrumented service does what the plain one does, and only that:
  the same states of the application, the same log of dispatched messages, the same results.
* `telemetry_exact`: when no request is inside a message, there is exactly one span for every
  message, named after it, with the status of its outcome, and one measurement for every message
  that settled. The spans of the calls that threw before there was a promise are never ended.
* `dispatched_settled`: by then every dispatched message has settled.
-/

namespace AccountApi

open Dispatch Transition

variable {ι σ μ ρ ε η : Type} {N : CqrsNames μ ε}

/-- The program inside the wrapper of the innermost message, or of none. -/
def CqrsNames.inside (N : CqrsNames μ ε) : List (OpenSpan μ) → Program σ μ ρ ε → Program (Observed σ) μ ρ ε
  | [], p => observe p
  | i :: _, p => (observe p).andThen (N.settle i)

/-- Where the wrapper of the innermost message stands. -/
inductive Stage (ρ ε : Type) where
  | running
  | recorded (r : Except ε ρ)
  | ended (r : Except ε ρ)

/-- The frames of both threads, with the open spans of their messages. -/
inductive WatchedFrames (N : CqrsNames μ ε) :
    List (OpenSpan μ) → List (Frame σ μ ρ ε) → List (Frame (Observed σ) μ ρ ε) → Prop where
  | nil : WatchedFrames N [] [] []
  | cons {is fs gs} (i : OpenSpan μ) (k : Except ε ρ → Program σ μ ρ ε) (h : WatchedFrames N is fs gs) :
      WatchedFrames N (i :: is) (⟨i.message, k⟩ :: fs) (⟨i.message, fun r => N.inside is (k r)⟩ :: gs)

/-- A thread and its instrumented self. -/
inductive Watched (N : CqrsNames μ ε) :
    List (OpenSpan μ) → Stage ρ ε → Thread σ μ ρ ε → Thread (Observed σ) μ ρ ε → Prop where
  | running {is fs gs} (p : Program σ μ ρ ε) (h : WatchedFrames N is fs gs) :
      Watched N is .running ⟨p, fs⟩ ⟨N.inside is p, gs⟩
  | recorded {i is fs gs} (r : Except ε ρ) (h : WatchedFrames N (i :: is) fs gs) :
      Watched N (i :: is) (.recorded r) ⟨.settled r, fs⟩
        ⟨.access (CqrsNames.endSpan i) fun _ => .settled r, gs⟩
  | ended {i is fs gs} (r : Except ε ρ) (h : WatchedFrames N (i :: is) fs gs) :
      Watched N (i :: is) (.ended r) ⟨.settled r, fs⟩ ⟨.settled r, gs⟩

/-- What a step of a thread does to the telemetry. -/
inductive TelemetryMove (N : CqrsNames μ ε) (o : Observed σ) :
    List (OpenSpan μ) → Stage ρ ε → Telemetry → List (OpenSpan μ) → Stage ρ ε → List (Entry μ ρ ε) → Prop where
  | kept (is) : TelemetryMove N o is .running o.telemetry is .running []
  | opened (is) (m : μ) : TelemetryMove N o is .running
      { o.telemetry with spans := o.telemetry.spans ++ [N.startedSpan m] }
      (⟨m, o.telemetry.spans.length, o.now⟩ :: is) .running [.dispatched m]
  | threw (is) (m : μ) (e : ε) : TelemetryMove N o is .running
      { o.telemetry with spans := o.telemetry.spans ++ [N.startedSpan m] } is .running [.thrown m e]
  | recorded (i is) (r : Except ε ρ) : TelemetryMove N o (i :: is) .running
      (N.record i r o).telemetry (i :: is) (.recorded r) []
  | ended (i is) (r : Except ε ρ) : TelemetryMove N o (i :: is) (.recorded r)
      (CqrsNames.endSpan i o).telemetry (i :: is) (.ended r) []
  | returned (i : OpenSpan μ) (is) (r : Except ε ρ) : TelemetryMove N o (i :: is) (.ended r)
      o.telemetry is .running [.settled i.message r]

theorem inside_access (is : List (OpenSpan μ)) (f : σ → σ) (k : σ → Program σ μ ρ ε) :
    N.inside is (.access f k) =
      .access (fun o => { o with app := f o.app }) fun o => N.inside is (k o.app) := by
  cases is <;> rfl

theorem inside_execute (is : List (OpenSpan μ)) (m : μ) (k : Except ε ρ → Program σ μ ρ ε) :
    N.inside is (.execute m k) = .execute m fun r => N.inside is (k r) := by
  cases is <;> rfl

/-- **A step of an instrumented thread** is a step of the thread, or one of its wrapper alone. -/
theorem watched_step {bus : Bus σ μ ρ ε} {is : List (OpenSpan μ)} {stage : Stage ρ ε} {th : Thread σ μ ρ ε}
    {th' uh' : Thread (Observed σ) μ ρ ε} {o o' : Observed σ} {es : List (Entry μ ρ ε)}
    (h : Watched N is stage th th') (hstep : th'.step (instrument N bus) o = some (o', uh', es)) :
    ∃ is' stage' uh, Watched N is' stage' uh uh' ∧
      TelemetryMove N o is stage o'.telemetry is' stage' es ∧
      (uh = th ∧ es = [] ∧ o'.app = o.app ∨ th.step bus o.app = some (o'.app, uh, es)) := by
  cases h with
  | running p hframes =>
    cases p with
    | access f k =>
      rw [inside_access] at hstep
      simp only [Thread.step, Option.some.injEq, Prod.mk.injEq] at hstep
      obtain ⟨rfl, rfl, rfl⟩ := hstep
      exact ⟨_, _, _, .running _ hframes, .kept _, .inr rfl⟩
    | execute m k =>
      rw [inside_execute] at hstep
      simp only [Thread.step, instrument] at hstep
      rcases hbus : bus m o.app with ⟨app, e | p⟩
      · simp only [hbus, Option.some.injEq, Prod.mk.injEq] at hstep
        obtain ⟨rfl, rfl, rfl⟩ := hstep
        refine ⟨_, _, _, .running _ hframes, .threw _ m e, .inr ?_⟩
        simp only [Thread.step, hbus]
      · simp only [hbus, Option.some.injEq, Prod.mk.injEq] at hstep
        obtain ⟨rfl, rfl, rfl⟩ := hstep
        refine ⟨_, _, _, .running _ (.cons ⟨m, o.telemetry.spans.length, o.now⟩ k hframes), .opened _ m, .inr ?_⟩
        simp only [Thread.step, hbus]
    | settled r =>
      cases hframes with
      | nil => simp [Thread.step, CqrsNames.inside, observe, Program.embed] at hstep
      | cons i k hrest =>
        simp only [CqrsNames.inside, observe, Program.embed, Program.andThen, CqrsNames.settle, Thread.step,
          Option.some.injEq, Prod.mk.injEq] at hstep
        obtain ⟨rfl, rfl, rfl⟩ := hstep
        exact ⟨_, _, _, .recorded r (.cons i k hrest), .recorded i _ r, .inl ⟨rfl, rfl, rfl⟩⟩
  | recorded r hframes =>
    simp only [Thread.step, Option.some.injEq, Prod.mk.injEq] at hstep
    obtain ⟨rfl, rfl, rfl⟩ := hstep
    exact ⟨_, _, _, .ended r hframes, .ended _ _ r, .inl ⟨rfl, rfl, rfl⟩⟩
  | ended r hframes =>
    cases hframes with
    | cons i k hrest =>
      simp only [Thread.step, Option.some.injEq, Prod.mk.injEq] at hstep
      obtain ⟨rfl, rfl, rfl⟩ := hstep
      exact ⟨_, _, _, .running _ hrest, .returned _ _ r, .inr rfl⟩

/-- The action of the plain service. -/
def plainAction : Action ι (ObservedEvent η) → Option (Action ι η)
  | .run i => some (.run i)
  | .outside (.app x) => some (.outside x)
  | .outside (.clock _) => none

/-- The threads of the plain service, watched with these open spans at these stages. -/
structure Observes (N : CqrsNames μ ε) (opens : ι → List (OpenSpan μ)) (stages : ι → Stage ρ ε)
    (s : State ι σ μ ρ ε) (t : State ι (Observed σ) μ ρ ε) : Prop where
  app : t.shared.app = s.shared
  log : t.log = s.log
  watched : ∀ i, Watched N (opens i) (stages i) (s.threads i) (t.threads i)

/-- What a step of the instrumented service does to the telemetry and the open spans. -/
inductive SpansMove [DecidableEq ι] (N : CqrsNames μ ε) (opens : ι → List (OpenSpan μ)) (stages : ι → Stage ρ ε)
    (t t' : State ι (Observed σ) μ ρ ε) : (ι → List (OpenSpan μ)) → (ι → Stage ρ ε) → Prop where
  | outside (htel : t'.shared.telemetry = t.shared.telemetry) (hlog : t'.log = t.log) :
      SpansMove N opens stages t t' opens stages
  | run (i : ι) {is stage es}
      (hmove : TelemetryMove N t.shared (opens i) (stages i) t'.shared.telemetry is stage es)
      (hlog : t'.log = t.log ++ es) :
      SpansMove N opens stages t t' (Function.update opens i is) (Function.update stages i stage)

variable {S : Service σ μ ρ ε η} {s : State ι σ μ ρ ε} {t t' : State ι (Observed σ) μ ρ ε}
  {opens : ι → List (OpenSpan μ)} {stages : ι → Stage ρ ε}

section

variable [DecidableEq ι]

/-- Both services after a step of thread `i`, or one of its wrapper. -/
theorem Observes.moved (h : Observes N opens stages s t) {i : ι} {is : List (OpenSpan μ)} {stage : Stage ρ ε}
    {uh : Thread σ μ ρ ε} {uh' : Thread (Observed σ) μ ρ ε} (hw : Watched N is stage uh uh') (o : Observed σ)
    (es : List (Entry μ ρ ε)) :
    Observes N (Function.update opens i is) (Function.update stages i stage)
      ⟨o.app, Function.update s.threads i uh, s.log ++ es⟩ ⟨o, Function.update t.threads i uh', t.log ++ es⟩ := by
  refine ⟨rfl, by rw [h.log], fun j => ?_⟩
  by_cases hji : j = i
  · subst hji
    simp only [Function.update_self]
    exact hw
  · simp only [Function.update_of_ne hji]
    exact h.watched j

/-- The same, when the plain service has not moved. -/
theorem Observes.stutters (h : Observes N opens stages s t) {i : ι} {is : List (OpenSpan μ)} {stage : Stage ρ ε}
    {uh' : Thread (Observed σ) μ ρ ε} (hw : Watched N is stage (s.threads i) uh') {o : Observed σ}
    (happ : o.app = t.shared.app) :
    Observes N (Function.update opens i is) (Function.update stages i stage)
      s ⟨o, Function.update t.threads i uh', t.log ++ []⟩ := by
  have hmoved := h.moved (i := i) hw o []
  rw [Function.update_eq_self, List.append_nil, happ, h.app] at hmoved
  exact hmoved

/-- **A step of the instrumented service** is a step of the plain one or none. -/
theorem observes_step (h : Observes N opens stages s t) {b : Action ι (ObservedEvent η)}
    (hstep : (instrumented N S).step t b = some t') :
    ∃ opens' stages' s', Observes N opens' stages' s' t' ∧ SpansMove N opens stages t t' opens' stages' ∧
      (s' = s ∨ ∃ a, plainAction b = some a ∧ S.step s a = some s') := by
  cases b with
  | outside x =>
    simp only [Service.step, Option.some.injEq] at hstep
    subst hstep
    cases x with
    | app x =>
      refine ⟨opens, stages, { s with shared := S.outside x s.shared }, ⟨?_, h.log, h.watched⟩, .outside rfl rfl,
        .inr ⟨_, rfl, rfl⟩⟩
      simp only [instrumented, h.app]
    | clock now => exact ⟨opens, stages, s, ⟨h.app, h.log, h.watched⟩, .outside rfl rfl, .inl rfl⟩
  | run i =>
    obtain ⟨⟨o, uh', es⟩, hth, rfl⟩ := run_step.1 hstep
    obtain ⟨is, stage, uh, hw, hmove, hplain⟩ := watched_step (h.watched i) hth
    rcases hplain with ⟨rfl, rfl, happ⟩ | hplain
    · exact ⟨_, _, s, h.stutters hw happ, .run i hmove rfl, .inl rfl⟩
    · rw [h.app] at hplain
      exact ⟨_, _, _, h.moved hw o es, .run i hmove rfl, .inr ⟨.run i, rfl, run_step.2 ⟨_, hplain, rfl⟩⟩⟩

theorem instrumented_refines : Refines S.step (instrumented N S).step
    (fun (s : State ι σ μ ρ ε) t => ∃ opens stages, Observes N opens stages s t) plainAction := by
  rintro s t b t' ⟨opens, stages, h⟩ hstep
  obtain ⟨opens', stages', s', h', -, rfl | hplain⟩ := observes_step h hstep
  · exact .inl ⟨_, _, h'⟩
  · obtain ⟨a, hact, hstep⟩ := hplain
    exact .inr ⟨a, s', hact, hstep, _, _, h'⟩

/-- A step of a wrapper alone. -/
theorem Observes.wrapper_step (h : Observes N opens stages s t) {i : ι} {is : List (OpenSpan μ)}
    {stage : Stage ρ ε} {uh' : Thread (Observed σ) μ ρ ε} (o : Observed σ)
    (hstep : (t.threads i).step (instrument N S.bus) t.shared = some (o, uh', []))
    (hw : Watched N is stage (s.threads i) uh') (happ : o.app = t.shared.app) :
    ∃ u, (instrumented N S).step t (.run i) = some u ∧
      Observes N (Function.update opens i is) (Function.update stages i stage) s u :=
  ⟨_, run_step.2 ⟨_, hstep, rfl⟩, h.stutters hw happ⟩

/-- What is left of the wrapper. -/
def Stage.left : Stage ρ ε → ℕ
  | running => 2
  | recorded _ => 1
  | ended _ => 0

/-- The wrapper of a message that has settled runs to its end. -/
theorem wrapper_ends (h : Observes N opens stages s t) {i : ι} {r : Except ε ρ} {frame : Frame σ μ ρ ε}
    {frames : List (Frame σ μ ρ ε)} (hth : s.threads i = ⟨.settled r, frame :: frames⟩) :
    ∃ bs u opens' stages', exec (instrumented N S).step t bs = some u ∧
      Observes N opens' stages' s u ∧ stages' i = .ended r := by
  induction hleft : (stages i).left using Nat.strong_induction_on generalizing t opens stages with
  | _ n ih =>
    have hstages : ∀ stage, (Function.update stages i stage i).left = stage.left := fun stage => by
      rw [Function.update_self]
    -- one step, and the rest by induction
    have hnext : ∀ {is stage u}, (instrumented N S).step t (.run i) = some u →
        Observes N (Function.update opens i is) (Function.update stages i stage) s u → stage.left < n →
        ∃ bs u opens' stages', exec (instrumented N S).step t bs = some u ∧
          Observes N opens' stages' s u ∧ stages' i = .ended r := by
      intro is stage u hu hobs hlt
      obtain ⟨bs, v, opens', stages', hv, hobs', hended⟩ := ih _ hlt hobs (hstages stage)
      exact ⟨_ :: bs, v, opens', stages', exec_cons.2 ⟨u, hu, hv⟩, hobs', hended⟩
    have hw := h.watched i
    rw [hth] at hw
    generalize hopens : opens i = is at hw
    generalize hstage : stages i = stage at hw hleft
    generalize ht : t.threads i = th' at hw
    cases hw with
    | running _ hframes =>
      cases hframes with
      | cons o k hrest =>
        have hw : Watched N _ _ (s.threads i) _ := hth ▸ Watched.recorded r (.cons o k hrest)
        obtain ⟨u, hu, hobs⟩ := h.wrapper_step (S := S) (N.record o r t.shared) (by rw [ht]; rfl) hw rfl
        exact hnext hu hobs (by rw [← hleft]; simp [Stage.left])
    | @recorded o _ _ _ _ hframes =>
      have hw : Watched N _ _ (s.threads i) _ := hth ▸ Watched.ended r hframes
      obtain ⟨u, hu, hobs⟩ := h.wrapper_step (S := S) (CqrsNames.endSpan o t.shared) (by rw [ht]; rfl) hw rfl
      exact hnext hu hobs (by rw [← hleft]; simp [Stage.left])
    | ended _ hframes => exact ⟨[], t, opens, stages, exec_nil.2 rfl, h, hstage⟩

/-- Once the wrapper of a settled message is through, the instrumented thread takes the steps of the
plain one. -/
theorem watched_follows {bus : Bus σ μ ρ ε} {is : List (OpenSpan μ)} {stage : Stage ρ ε} {th uh : Thread σ μ ρ ε}
    {th' : Thread (Observed σ) μ ρ ε} {o : Observed σ} {app : σ} {es : List (Entry μ ρ ε)}
    (h : Watched N is stage th th') (hready : ∀ r, th.program = .settled r → stage = .ended r)
    (hstep : th.step bus o.app = some (app, uh, es)) :
    ∃ o' uh' is', th'.step (instrument N bus) o = some (o', uh', es) ∧ o'.app = app ∧
      Watched N is' .running uh uh' := by
  cases h with
  | running p hframes =>
    cases p with
    | settled r => cases hready r rfl
    | access f k =>
      simp only [Thread.step, Option.some.injEq, Prod.mk.injEq] at hstep
      obtain ⟨rfl, rfl, rfl⟩ := hstep
      rw [inside_access]
      exact ⟨_, _, _, rfl, rfl, .running _ hframes⟩
    | execute m k =>
      rw [inside_execute]
      simp only [Thread.step] at hstep
      rcases hbus : bus m o.app with ⟨app', e | p⟩
      · simp only [hbus, Option.some.injEq, Prod.mk.injEq] at hstep
        obtain ⟨rfl, rfl, rfl⟩ := hstep
        exact ⟨_, _, _, by simp only [Thread.step, instrument, hbus]; rfl, rfl, .running _ hframes⟩
      · simp only [hbus, Option.some.injEq, Prod.mk.injEq] at hstep
        obtain ⟨rfl, rfl, rfl⟩ := hstep
        exact ⟨_, _, _, by simp only [Thread.step, instrument, hbus]; rfl, rfl,
          .running _ (.cons ⟨m, o.telemetry.spans.length, o.now⟩ k hframes)⟩
  | recorded r hframes => cases hready r rfl
  | ended r hframes =>
    cases hframes with
    | cons i k hrest =>
      simp only [Thread.step, Option.some.injEq, Prod.mk.injEq] at hstep
      obtain ⟨rfl, rfl, rfl⟩ := hstep
      exact ⟨_, _, _, rfl, rfl, .running _ hrest⟩

theorem instrumented_covers : Covers S.step (instrumented N S).step
    (fun (s : State ι σ μ ρ ε) t => ∃ opens stages, Observes N opens stages s t) plainAction := by
  rintro s t a s' ⟨opens, stages, h⟩ hstep
  cases a with
  | outside x =>
    simp only [Service.step, Option.some.injEq] at hstep
    subst hstep
    refine ⟨[.outside (.app x)], _, by simp [plainAction], exec_cons.2 ⟨_, rfl, exec_nil.2 rfl⟩, opens, stages, ?_⟩
    exact ⟨congrArg (S.outside x) h.app, h.log, h.watched⟩
  | run i =>
    obtain ⟨⟨app, uh, es⟩, hth, rfl⟩ := run_step.1 hstep
    -- the wrapper first, when the message has settled
    have hready : ∃ bs u opens' stages', exec (instrumented N S).step t bs = some u ∧
        Observes N opens' stages' s u ∧ ∀ r, (s.threads i).program = .settled r → stages' i = .ended r := by
      rcases hthread : s.threads i with ⟨p, frames⟩
      cases p with
      | settled r =>
        cases frames with
        | nil => rw [hthread] at hth; simp [Thread.step] at hth
        | cons frame frames =>
          obtain ⟨bs, u, opens', stages', hu, hobs, hended⟩ := wrapper_ends (S := S) h hthread
          refine ⟨bs, u, opens', stages', hu, hobs, fun r' hr' => ?_⟩
          cases hr'
          exact hended
      | access f k => exact ⟨[], t, opens, stages, exec_nil.2 rfl, h, by simp⟩
      | execute m k => exact ⟨[], t, opens, stages, exec_nil.2 rfl, h, by simp⟩
    obtain ⟨bs, u, opens', stages', hu, hobs, hended⟩ := hready
    rw [← hobs.app] at hth
    obtain ⟨o, uh', is, hth', rfl, hw⟩ := watched_follows (hobs.watched i) hended hth
    have hlast : (instrumented N S).step u (.run i) = some _ := run_step.2 ⟨_, hth', rfl⟩
    exact ⟨bs ++ [.run i], _, by simp [plainAction],
      exec_append.2 ⟨u, hu, exec_cons.2 ⟨_, hlast, exec_nil.2 rfl⟩⟩, _, _, hobs.moved hw o es⟩

end

/-- The same state of the application, the same log, and the same requests settled in the same way. -/
structure SameService (s : State ι σ μ ρ ε) (t : State ι (Observed σ) μ ρ ε) : Prop where
  app : t.shared.app = s.shared
  log : t.log = s.log
  finished : ∀ i r, (t.threads i).Finished r ↔ (s.threads i).Finished r

theorem Watched.finished {is : List (OpenSpan μ)} {stage : Stage ρ ε} {th : Thread σ μ ρ ε}
    {th' : Thread (Observed σ) μ ρ ε} (h : Watched N is stage th th') (r : Except ε ρ) :
    th'.Finished r ↔ th.Finished r := by
  have hnil : ∀ {is} {fs : List (Frame σ μ ρ ε)} {gs}, WatchedFrames N is fs gs → (gs = [] ↔ fs = []) := by
    intro is fs gs hframes
    cases hframes <;> simp
  have hcons : ∀ {i is} {fs : List (Frame σ μ ρ ε)} {gs}, WatchedFrames N (i :: is) fs gs → fs ≠ [] ∧ gs ≠ [] := by
    intro i is fs gs hframes
    cases hframes
    simp
  unfold Thread.Finished
  cases h with
  | running p hframes =>
    simp only [Thread.mk.injEq, hnil hframes]
    cases hframes with
    | nil => cases p <;> simp [CqrsNames.inside, observe, Program.embed]
    | cons => simp
  | recorded r hframes => simp [(hcons hframes).1]
  | ended r hframes => simp [(hcons hframes).1, (hcons hframes).2]

theorem Observes.same (h : Observes N opens stages s t) : SameService s t :=
  ⟨h.app, h.log, fun i r => (h.watched i).finished r⟩

theorem observes_start (s : σ) (now : ℤ) (telemetry : Telemetry) (programs : ι → Program σ μ ρ ε) :
    Observes N (fun _ => []) (fun _ => .running) (Service.start s programs)
      (Service.start ⟨s, now, telemetry⟩ fun i => observe (programs i)) :=
  ⟨rfl, rfl, fun i => .running (programs i) .nil⟩

/-- **The instrumentation is transparent**: the service with instrumented buses reaches exactly what
the plain one reaches, by the same steps with those of the wrappers put in. -/
theorem instrument_transparent [DecidableEq ι] (N : CqrsNames μ ε) (S : Service σ μ ρ ε η) (s₀ : σ) (now : ℤ)
    (telemetry : Telemetry) (programs : ι → Program σ μ ρ ε) :
    (∀ bs t, exec (instrumented N S).step (Service.start ⟨s₀, now, telemetry⟩ fun i => observe (programs i)) bs =
        some t →
      ∃ as s, as.Sublist (bs.filterMap plainAction) ∧ exec S.step (Service.start s₀ programs) as = some s ∧
        SameService s t) ∧
    ∀ as s, exec S.step (Service.start s₀ programs) as = some s →
      ∃ bs t, as.Sublist (bs.filterMap plainAction) ∧
        exec (instrumented N S).step (Service.start ⟨s₀, now, telemetry⟩ fun i => observe (programs i)) bs =
          some t ∧ SameService s t := by
  have hstart := observes_start (N := N) s₀ now telemetry programs
  constructor
  · intro bs t hrun
    obtain ⟨as, s, hsub, hs, _, _, h⟩ := (instrumented_refines (N := N) (S := S)).run ⟨_, _, hstart⟩ hrun
    exact ⟨as, s, hsub, hs, h.same⟩
  · intro as s hrun
    obtain ⟨bs, t, hsub, ht, _, _, h⟩ := (instrumented_covers (N := N) (S := S)).run ⟨_, _, hstart⟩ hrun
    exact ⟨bs, t, hsub, ht, h.same⟩

/-- The span of the innermost message, at this stage of its wrapper. -/
def Stage.span (N : CqrsNames μ ε) (stage : Stage ρ ε) (s : Span) : Span :=
  match stage with
  | running => s
  | recorded r => N.outcome r s
  | ended r => { N.outcome r s with ended := true }

/-- The spans that a thread has open, by their indices. -/
def CqrsNames.held (N : CqrsNames μ ε) (stage : Stage ρ ε) : List (OpenSpan μ) → List (ℕ × Span)
  | [] => []
  | i :: is => (i.span, stage.span N (N.startedSpan i.message)) ::
      is.map fun i => (i.span, N.startedSpan i.message)

/-- What is counted for the innermost message, before it settles. -/
def CqrsNames.counted (N : CqrsNames μ ε) (stage : Stage ρ ε) (is : List (OpenSpan μ)) : Multiset CqrsAttributes :=
  match stage, is with
  | .recorded r, i :: _ | .ended r, i :: _ => {N.attributes i.message r}
  | _, _ => 0

/-- The spans and the measurements are those of the messages that have settled and of those that are
open. -/
structure Exact [Fintype ι] (N : CqrsNames μ ε) (opens : ι → List (OpenSpan μ)) (stages : ι → Stage ρ ε)
    (t : State ι (Observed σ) μ ρ ε) : Prop where
  spans : Owned t.shared.telemetry.spans ((t.log.filterMap N.spanOf : List Span) : Multiset Span)
    fun i => N.held (stages i) (opens i)
  duration : t.shared.telemetry.duration.map Prod.snd = t.shared.telemetry.total
  total : (t.shared.telemetry.total : Multiset CqrsAttributes) =
    ((t.log.filterMap N.attributesOf : List CqrsAttributes) : Multiset CqrsAttributes) +
      ∑ i, N.counted (stages i) (opens i)

theorem exact_start [Fintype ι] (s : σ) (now : ℤ) (programs : ι → Program σ μ ρ ε) :
    Exact N (fun _ => []) (fun _ => .running)
      (Service.start ⟨s, now, ⟨[], [], []⟩⟩ fun i => observe (programs i)) where
  spans := Owned.none_held []
  duration := rfl
  total := by simp [Service.start, CqrsNames.counted]

theorem update_pair {κ A B C : Type} [DecidableEq κ] (f : A → B → C) (a : κ → A) (b : κ → B) (i : κ) (x : A)
    (y : B) : (fun j => f (Function.update a i x j) (Function.update b i y j)) =
      Function.update (fun j => f (a j) (b j)) i (f x y) := by
  funext j
  by_cases hji : j = i
  · subst hji; simp
  · simp [Function.update_of_ne hji]

theorem coe_concat {α : Type} (xs : List α) (x : α) :
    ((xs ++ [x] : List α) : Multiset α) = (xs : Multiset α) + {x} := by
  rw [← Multiset.coe_add, Multiset.coe_singleton]

section

variable [Fintype ι] [DecidableEq ι]

/-- The measurements after a step, when those of the log and of the thread change together. -/
theorem counted_update (h : Exact N opens stages t) (i : ι) (stage : Stage ρ ε) (is : List (OpenSpan μ))
    {total logged : Multiset CqrsAttributes}
    (hmove : total + N.counted (stages i) (opens i) =
      (t.shared.telemetry.total : Multiset CqrsAttributes) + logged + N.counted stage is) :
    total = ((t.log.filterMap N.attributesOf : List CqrsAttributes) : Multiset CqrsAttributes) + logged +
      ∑ j, N.counted (Function.update stages i stage j) (Function.update opens i is j) := by
  have hsum := sum_update_add (fun j => N.counted (stages j) (opens j)) id i (N.counted stage is)
  simp only [id] at hsum
  have hpair := update_pair N.counted stages opens i stage is
  simp only [congrFun hpair]
  rw [h.total] at hmove
  refine add_right_cancel (b := N.counted (stages i) (opens i)) ?_
  rw [hmove, add_assoc (_ + logged), hsum]
  simp only [add_assoc, add_left_comm logged]

theorem exact_step {opens' : ι → List (OpenSpan μ)} {stages' : ι → Stage ρ ε} (h : Exact N opens stages t)
    (hmove : SpansMove N opens stages t t' opens' stages') : Exact N opens' stages' t' := by
  cases hmove with
  | outside htel hlog =>
    constructor
    · rw [htel, hlog]; exact h.spans
    · rw [htel]; exact h.duration
    · rw [htel, hlog]; exact h.total
  | run i hmove hlog =>
    rename_i is stage es
    have hheld := update_pair N.held stages opens i stage is
    have hspans := h.spans
    generalize hopens : opens i = is₀ at hmove
    generalize hstage : stages i = stage₀ at hmove
    generalize htel : t'.shared.telemetry = tel at hmove
    have hi : N.held (stages i) (opens i) = N.held stage₀ is₀ := by rw [hopens, hstage]
    have hcounted : N.counted (stages i) (opens i) = N.counted stage₀ is₀ := by rw [hopens, hstage]
    constructor
    · rw [htel, hlog, List.filterMap_append, hheld]
      cases hmove with
      | kept => rw [← hi, Function.update_eq_self, List.filterMap_nil, List.append_nil]; exact hspans
      | opened _ m =>
        have hnone : [(.dispatched m : Entry μ ρ ε)].filterMap N.spanOf = [] := by rfl
        rw [hnone, List.append_nil]
        have hpush := hspans.push i (N.startedSpan m)
        rw [hi] at hpush
        cases is₀ <;> exact hpush
      | threw _ m e =>
        have hone : [(.thrown m e : Entry μ ρ ε)].filterMap N.spanOf = [N.startedSpan m] := by rfl
        rw [← hi, Function.update_eq_self, hone, coe_concat]
        exact hspans.abandon (N.startedSpan m)
      | recorded o is r =>
        rw [List.filterMap_nil, List.append_nil]
        exact hspans.modify hi (N.outcome r)
      | ended o is r =>
        rw [List.filterMap_nil, List.append_nil]
        exact hspans.modify hi fun s => { s with ended := true }
      | returned o is r =>
        have hone : [Entry.settled o.message r].filterMap N.spanOf =
            [{ N.outcome r (N.startedSpan o.message) with ended := true }] := by rfl
        rw [hone, coe_concat]
        have hrelease := hspans.release hi
        cases is <;> exact hrelease
    · have hduration := h.duration
      rw [htel]
      cases hmove with
      | recorded o is r => simp [CqrsNames.record, hduration]
      | _ => exact hduration
    · rw [htel, hlog, List.filterMap_append, ← Multiset.coe_add]
      apply counted_update h
      rw [hcounted]
      cases hmove with
      | kept => simp
      | opened _ m => simp [CqrsNames.counted, CqrsNames.attributesOf, List.filterMap_cons]
      | threw _ m e => simp [CqrsNames.counted, CqrsNames.attributesOf, List.filterMap_cons]
      | recorded o is r => simp [CqrsNames.counted, CqrsNames.record, coe_concat]
      | ended o is r => simp [CqrsNames.counted, CqrsNames.endSpan]
      | returned o is r => simp [CqrsNames.counted, CqrsNames.attributesOf]

/-- A thread that is inside no message has no span open. -/
theorem Watched.opens_nil {is : List (OpenSpan μ)} {stage : Stage ρ ε} {th : Thread σ μ ρ ε}
    {th' : Thread (Observed σ) μ ρ ε} (h : Watched N is stage th th') (hidle : th'.frames = []) : is = [] := by
  have hframes : ∀ {is} {fs : List (Frame σ μ ρ ε)} {gs}, WatchedFrames N is fs gs → gs = [] → is = [] := by
    rintro is fs gs (_ | _) hgs
    · rfl
    · simp at hgs
  cases h with
  | running p h => exact hframes h hidle
  | recorded r h => exact hframes h hidle
  | ended r h => exact hframes h hidle

/-- **The telemetry is exact**: when no request is inside a message, the spans are one for every
message of which the log says what became of it, with its name and its outcome, and both instruments
have one measurement for every message that has settled. -/
theorem telemetry_exact (N : CqrsNames μ ε) (S : Service σ μ ρ ε η) (s₀ : σ) (now : ℤ)
    (programs : ι → Program σ μ ρ ε) {bs : List (Action ι (ObservedEvent η))} {t : State ι (Observed σ) μ ρ ε}
    (hrun : exec (instrumented N S).step (Service.start ⟨s₀, now, ⟨[], [], []⟩⟩ fun i => observe (programs i)) bs =
      some t) (hidle : t.Idle) :
    t.shared.telemetry.spans.Perm (t.log.filterMap N.spanOf) ∧
      t.shared.telemetry.total.Perm (t.log.filterMap N.attributesOf) ∧
      t.shared.telemetry.duration.map Prod.snd = t.shared.telemetry.total := by
  let R (s : State ι σ μ ρ ε) (t : State ι (Observed σ) μ ρ ε) :=
    ∃ opens stages, Observes N opens stages s t ∧ Exact N opens stages t
  have hrefines : Refines S.step (instrumented N S).step R plainAction := by
    rintro s t b t' ⟨opens, stages, h, hexact⟩ hstep
    obtain ⟨opens', stages', s', h', hmove, rfl | hplain⟩ := observes_step h hstep
    · exact .inl ⟨_, _, h', exact_step hexact hmove⟩
    · obtain ⟨a, hact, hstep⟩ := hplain
      exact .inr ⟨a, s', hact, hstep, _, _, h', exact_step hexact hmove⟩
  have hstart := observes_start (N := N) s₀ now ⟨[], [], []⟩ programs
  obtain ⟨_, s, -, -, opens, stages, h, hexact⟩ := hrefines.run ⟨_, _, hstart, exact_start s₀ now programs⟩ hrun
  have hopens : ∀ i, opens i = [] := fun i => (h.watched i).opens_nil (hidle i)
  refine ⟨Multiset.coe_eq_coe.1 ?_, Multiset.coe_eq_coe.1 ?_, hexact.duration⟩
  · exact hexact.spans.rows_of_none fun i => by rw [hopens]; rfl
  · have hzero : ∀ i, N.counted (stages i) (opens i) = 0 := fun i => by
      rw [hopens]; unfold CqrsNames.counted; split <;> simp_all
    rw [hexact.total, Finset.sum_eq_zero fun i _ => hzero i, add_zero]

/-- When no request is inside a message, every dispatched one has settled. -/
theorem dispatched_settled {S : Service σ μ ρ ε η} {o : Observed σ} {programs : ι → Program (Observed σ) μ ρ ε}
    {bs : List (Action ι (ObservedEvent η))} {t : State ι (Observed σ) μ ρ ε}
    (hrun : exec (instrumented N S).step (Service.start o programs) bs = some t) (hidle : t.Idle) :
    (t.log.filterMap Entry.dispatchedMessage).Perm (t.log.filterMap Entry.settledMessage) := by
  have hinside : ∀ i, (t.threads i).inside = 0 := fun i => by
    unfold Thread.inside
    rw [hidle i]
    rfl
  have hrows := dispatched_run hrun
  rw [Finset.sum_eq_zero fun i _ => hinside i, add_zero] at hrows
  exact Multiset.coe_eq_coe.1 hrows

end

/-- A login puts a query on its bus, which fails; what no handler is registered for throws at once. -/
def loginService : Service ℕ String ℕ String Unit where
  bus
    | "LoginUserCommand", s =>
      (s, .promise (.execute "UserFindByEmailQuery" fun r => .access Nat.succ fun _ => .settled r))
    | "UserFindByEmailQuery", s => (s, .promise (.settled (.error "Invalid email or password")))
    | m, s => (s, .thrown m)
  outside _ s := s

def loginNames : CqrsNames String String where
  kind m := if m = "LoginUserCommand" then .command else .query
  constructorName := some
  message := id

def loginPrograms : Unit → Program ℕ String ℕ String := fun _ =>
  .execute "LoginUserCommand" fun _ => .execute "UnknownQuery" .settled

theorem instrument_transparent_login : ∃ t as s,
    exec (instrumented loginNames loginService).step
      (Service.start ⟨0, 0, ⟨[], [], []⟩⟩ fun i => observe (loginPrograms i)) (List.replicate 10 (.run ())) = some t ∧
    exec loginService.step (Service.start 0 loginPrograms) as = some s ∧ SameService s t := by
  obtain ⟨t, ht⟩ : ∃ t, exec (instrumented loginNames loginService).step
      (Service.start ⟨0, 0, ⟨[], [], []⟩⟩ fun i => observe (loginPrograms i)) (List.replicate 10 (.run ())) =
        some t := ⟨_, rfl⟩
  obtain ⟨as, s, -, hs, hsame⟩ :=
    (instrument_transparent loginNames loginService 0 0 ⟨[], [], []⟩ loginPrograms).1 _ t ht
  exact ⟨t, as, s, ht, hs, hsame⟩

theorem telemetry_exact_login : ∃ t, exec (instrumented loginNames loginService).step
      (Service.start ⟨0, 0, ⟨[], [], []⟩⟩ fun i => observe (loginPrograms i)) (List.replicate 10 (.run ())) = some t ∧
    t.shared.telemetry.spans.Perm (t.log.filterMap loginNames.spanOf) ∧
    t.shared.telemetry.total.Perm (t.log.filterMap loginNames.attributesOf) ∧
    t.shared.telemetry.duration.map Prod.snd = t.shared.telemetry.total := by
  obtain ⟨t, ht, hidle⟩ : ∃ t, exec (instrumented loginNames loginService).step
      (Service.start ⟨0, 0, ⟨[], [], []⟩⟩ fun i => observe (loginPrograms i)) (List.replicate 10 (.run ())) =
        some t ∧ t.Idle := ⟨_, rfl, fun _ => rfl⟩
  exact ⟨t, ht, telemetry_exact loginNames loginService 0 0 loginPrograms ht hidle⟩

end AccountApi
