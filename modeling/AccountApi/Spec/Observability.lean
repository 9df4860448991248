import AccountApi.Lib.Dispatch
import Mathlib.Data.Int.Notation
import Mathlib.Data.Nat.Notation

/-!
# The instrumented command and query bus

`CqrsObservabilityService` replaces `execute` of both buses by a wrapper that opens a span, calls the
original and attaches to its promise what records its outcome. A command or query handler is any
program over the state of the application (`Dispatch.Program`) that may put further messages on the
buses; requests run interleaved.

The telemetry the wrapper writes is kept beside that state; the calls that write it do not throw. A
span is referred to by its index.
-/

namespace AccountApi

open Dispatch

inductive CqrsKind where
  | command
  | query
  deriving DecidableEq, Repr

inductive CqrsStatus where
  | success
  | error
  deriving DecidableEq, Repr

/-- The attributes of a measurement. -/
structure CqrsAttributes where
  type : String
  kind : CqrsKind
  status : CqrsStatus
  deriving DecidableEq, Repr

inductive SpanStatus where
  | ok
  | error (message : String)
  deriving DecidableEq, Repr

structure Span where
  name : String
  exceptions : List String
  status : Option SpanStatus
  ended : Bool
  deriving DecidableEq, Repr

/-- What the tracer and the two instruments were given. -/
structure Telemetry where
  spans : List Span
  /-- `cqrs.handler.duration`, in milliseconds. -/
  duration : List (ℤ × CqrsAttributes)
  /-- `cqrs.handler.count`: what one was added for. -/
  total : List CqrsAttributes
  deriving DecidableEq, Repr

/-- The state of the application, `Date.now()` and the telemetry. -/
structure Observed (σ : Type) where
  app : σ
  now : ℤ
  telemetry : Telemetry

/-- What is read off a message and an error. -/
structure CqrsNames (μ ε : Type) where
  /-- The bus the message is put on. -/
  kind : μ → CqrsKind
  /-- `message?.constructor?.name`. -/
  constructorName : μ → Option String
  /-- The message of the error, or of `new Error(String(error))`. -/
  message : ε → String

def CqrsKind.toString : CqrsKind → String
  | command => "command"
  | query => "query"

/-- The span of a dispatched message, and what the wrapper has read when it opened it. -/
structure OpenSpan (μ : Type) where
  message : μ
  span : ℕ
  startedAt : ℤ

namespace CqrsNames

variable {σ μ ρ ε : Type} (N : CqrsNames μ ε)

def name (m : μ) : String := (N.constructorName m).getD "unknown"

/-- The span `startActiveSpan` starts. -/
def startedSpan (m : μ) : Span := ⟨(N.kind m).toString ++ "." ++ N.name m, [], none, false⟩

def status : Except ε ρ → CqrsStatus
  | .ok _ => .success
  | .error _ => .error

def attributes (m : μ) (r : Except ε ρ) : CqrsAttributes := ⟨N.name m, N.kind m, status r⟩

/-- `recordException` and `setStatus`. -/
def outcome (r : Except ε ρ) (s : Span) : Span :=
  match r with
  | .ok _ => { s with status := some .ok }
  | .error e => { s with exceptions := s.exceptions ++ [N.message e], status := some (.error (N.message e)) }

/-- The callback of `then`, or of `catch`. -/
def record (i : OpenSpan μ) (r : Except ε ρ) (o : Observed σ) : Observed σ :=
  { o with
    telemetry.spans := o.telemetry.spans.modify i.span (N.outcome r)
    -- `recordMetrics`
    telemetry.duration := o.telemetry.duration ++ [(o.now - i.startedAt, N.attributes i.message r)]
    telemetry.total := o.telemetry.total ++ [N.attributes i.message r] }

/-- The callback of `finally`. -/
def endSpan (i : OpenSpan μ) (o : Observed σ) : Observed σ :=
  { o with telemetry.spans := o.telemetry.spans.modify i.span fun s => { s with ended := true } }

/-- What is attached to the promise of the original. -/
def settle (i : OpenSpan μ) (r : Except ε ρ) : Program (Observed σ) μ ρ ε :=
  .access (N.record i r) fun _ => .access (endSpan i) fun _ => .settled r

end CqrsNames

variable {σ μ ρ ε η : Type}

/-- A handler, on the state of the application. -/
def observe (p : Program σ μ ρ ε) : Program (Observed σ) μ ρ ε :=
  p.embed Observed.app fun app o => { o with app }

/-- `instrument(bus, kind)`, for both buses. -/
def instrument (N : CqrsNames μ ε) (original : Bus σ μ ρ ε) : Bus (Observed σ) μ ρ ε := fun message o =>
  let i : OpenSpan μ := ⟨message, o.telemetry.spans.length, o.now⟩
  let (app, call) := original message o.app
  let o := { o with app, telemetry.spans := o.telemetry.spans ++ [N.startedSpan message] }
  match call with
  -- nothing is attached yet that would end the span
  | .thrown e => (o, .thrown e)
  | .promise p => (o, .promise ((observe p).andThen (N.settle i)))

inductive ObservedEvent (η : Type) where
  | app (x : η)
  | clock (now : ℤ)

/-- The service once `onModuleInit` has run. -/
def instrumented (N : CqrsNames μ ε) (S : Service σ μ ρ ε η) : Service (Observed σ) μ ρ ε (ObservedEvent η) where
  bus := instrument N S.bus
  outside
    | .app x, o => { o with app := S.outside x o.app }
    | .clock now, o => { o with now }

/-! ## What the telemetry should say -/

namespace CqrsNames

variable (N : CqrsNames μ ε)

/-- The span of a message of which the log says what became of it. -/
def spanOf : Entry μ ρ ε → Option Span
  | .dispatched _ => none
  | .settled m r => some { N.outcome r (N.startedSpan m) with ended := true }
  | .thrown m _ => some (N.startedSpan m)

/-- What a message that has settled is counted for. -/
def attributesOf : Entry μ ρ ε → Option CqrsAttributes
  | .settled m r => some (N.attributes m r)
  | _ => none

end CqrsNames

end AccountApi
