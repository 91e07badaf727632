import Installation.Fault

/-!
# Failures

A failure is what a part of the operator stops with: a kind, and values that say more
about it.  `Failure.report` is what the failure becomes for the controller that runs the
operator.  An invalid configuration stays invalid until it is edited, so that it is
reported as permanent and not tried again; all other failures are passed on.
-/

namespace Installation

/-- The kinds of failures that are told apart. -/
inductive FailureKind where
  | configuration
  | permanent
  | missingKey
  | other (name : String)
deriving DecidableEq

/-- What a part of the operator stops with. -/
structure Failure where
  kind : FailureKind
  details : List Value

namespace Failure

/-- What a failure tells the user: nothing, the only detail, or all of them.  A missing
key is shown the way it would be written down. -/
def text (failure : Failure) : String :=
  match failure.details with
  | [] => ""
  | [detail] =>
    match failure.kind with
    | .missingKey => String.ofList detail.literal
    | _ => detail.toText
  | details => (Value.tuple details).toText

/-- A failure as it is reported to the controller. -/
def report (failure : Failure) : Failure :=
  match failure.kind with
  | .configuration => ⟨.permanent, [.text (Fault.invalidConfiguration failure.text)]⟩
  | _ => failure

end Failure

end Installation
