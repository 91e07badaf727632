import Installation.Value.Access
import Installation.Value.Assignment
import Installation.Value.Conversion

/-!
# Routes to parts of values

A `Route` asks for a part of a value step by step: a dictionary takes a step as a key, and
everything else takes it as the name of an attribute.  `Value.locate` finds the path to the
part at the end of a route, which is none where the route leads into something that is no
part of the value, and tells what is wrong with a route on which nothing can be assigned.
`Value.assign` puts something else in the place of that part.
-/

namespace Installation

/-- The way to a part of a value, as it is asked for. -/
abbrev Route := List Value

namespace ValueType

/-- Whether something can be assigned at the end of a route that starts from something of a
type. -/
def assignable (t : ValueType) (new : Value) (route : Route) : Except Fault Unit :=
  match route with
  | [] => .error .emptyPath
  | [.text name] => t.admits new name
  | .text name :: route =>
    match t.reach name with
    | .error fault => .error fault
    | .ok feature => assignable (feature.typeIn t) new route
  | name :: _ => .error (.nameNotText name.typeName)

end ValueType

namespace Value

/-- What a value has where a step leads to. -/
def enter (v step : Value) : Except Fault Found :=
  match v with
  | .dict entries =>
    match step.toKey with
    | .error fault => .error fault
    | .ok k =>
      match entries.lookup k with
      | some x => .ok (.part k x)
      | none => .error (.missingKey k)
  | v => v.find step

/-- The path to the part that a last step names, where something is assigned. -/
def target (v new step : Value) : Except Fault (Option Path) :=
  match v with
  | .dict _ => step.toKey.map fun k => some [k]
  | v =>
    match step with
    | .text name =>
      (v.type.admits new name).map fun _ => if v.type.takesAny then some [.text name] else none
    | step => .error (.nameNotText step.typeName)

/-- The path to the part at the end of a route, where something is assigned. -/
def locate (v new : Value) (route : Route) : Except Fault (Option Path) :=
  match route with
  | [] => .error .emptyPath
  | [step] => v.target new step
  | step :: next :: route =>
    match v.enter step with
    | .error fault => .error fault
    | .ok (.part k x) => (locate x new (next :: route)).map fun path? => path?.map (k :: ·)
    | .ok (.attributes attrs) => locate (ofAttributes attrs) new (next :: route)
    | .ok (.constant x) => (locate x new (next :: route)).map fun _ => none
    | .ok (.thing t) => (t.assignable new (next :: route)).map fun _ => none
    | .ok (.operation binding) =>
      match next, route with
      | .text "__self__", last :: route => locate v new (last :: route)
      | _, _ =>
        ((ValueType.operation binding v.type).assignable new (next :: route)).map fun _ => none

/-- A value with the part at the end of a route replaced. -/
def assign (v new : Value) (route : Route) : Except Fault Value :=
  (v.locate new route).map fun path? =>
    match path? with
    | some path => v.replace new path
    | none => v

end Value

end Installation
