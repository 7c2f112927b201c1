import LiveMarkup.Document.Stage
import LiveMarkup.Value.AttributeText

/-! # Resolving deferred values

What a deferred computation does is up to an `Environment`: it may yield something else each time,
and it may depend on and change a state of its own.  So there is no telling whether a chain of
deferred values ever ends, and resolution gives up after a number of invocations, and below a number
of nested lists. -/

namespace LiveMarkup

/-- What comes of invoking a deferred computation: a value or a fault, and entries for the
journal. -/
structure Reply where
  outcome : Except Fault Value
  events : List Event

/-- What invoking deferred computations does, given a state `σ` that lasts from one invocation to
the next. -/
structure Environment (σ : Type) where
  invoke : Deferred → σ → Reply × σ

/-- Work on a stage within an environment. -/
abbrev SceneM (σ : Type) :=
  StateT σ StageM

/-- Work that may fail to resolve a value. -/
abbrev ResolveM (σ : Type) :=
  ExceptT ResolutionError (SceneM σ)

namespace Environment

variable {σ : Type}

/-- Invokes a deferred computation once. -/
def call (environment : Environment σ) (computation : Deferred) : ResolveM σ Value := do
  let (reply, world) := environment.invoke computation (← getThe σ)
  set world
  Stage.noteAll reply.events
  match reply.outcome with
  | .ok value => pure value
  | .error fault => throw (.fault fault)

/-- Invokes a deferred value, and what comes of it, as long as it is deferred and invocations are
left.  The error names the number of invocations there were at the start. -/
def trampoline (environment : Environment σ) (limit : Nat) : Nat → Value → ResolveM σ Value
  | 0, .deferred _ => throw (.unresolved limit)
  | left + 1, .deferred computation => do
    environment.trampoline limit left (← environment.call computation)
  | _, value => pure value

/-- Resolves a value with at most `limit` invocations.  Items are left as they are. -/
def resolve (environment : Environment σ) (limit : Nat) (value : Value) : ResolveM σ Value :=
  environment.trampoline limit limit value

/-- Resolves a value and all items in it, which may nest as many levels deep as are left.  The error
names the number of levels there were at the start. -/
def resolveLevels (environment : Environment σ) (limit levels : Nat) :
    Nat → Value → ResolveM σ Value
  | 0, value => do
    match ← environment.resolve limit value with
    | .items _ => throw (.tooDeep levels)
    | value => pure value
  | left + 1, value => do
    match ← environment.resolve limit value with
    | .items values => return .items (← values.mapM (environment.resolveLevels limit levels left))
    | value => pure value

/-- Resolves a value and all items in it, which may nest at most `levels` deep. -/
def resolveDeep (environment : Environment σ) (limit levels : Nat) (value : Value) :
    ResolveM σ Value :=
  environment.resolveLevels limit levels levels value

end Environment

end LiveMarkup
