import Installation.Log
import Installation.Settings

/-!
# Starting and stopping

What an operator says when it starts and when it stops, and the limits that it sets for
itself: few workers at a time, and events posted to the cluster from warnings on.
-/

namespace Installation

/-- The name of the operator. -/
def operatorName : String := "mattermost-operator"

/-- The version of the operator. -/
def operatorVersion : String := "0.1.0"

/-- The limits that an operator sets for itself. -/
structure Limits where
  workers : Nat
  posting : Bool
  postingLevel : Level

/-- An operator that was started: the settings that it has, whether resources are updated
under them too, and its limits. -/
structure Operator where
  settings : Settings
  settingsShared : Bool
  limits : Limits

namespace Operator

/-- The operator that starts under the given settings. -/
def start (settings : Settings) : Operator where
  settings := settings
  settingsShared := true
  limits := ⟨2, true, .warning⟩

/-- What an operator says when it starts. -/
def startLines (operator : Operator) : List LogLine :=
  let d := operator.settings.defaults
  let image := d.image.toText ++ ":" ++ d.version.toText
  let pullPolicy := d.pullPolicy.toText
  let database := d.databaseType.toText
  let defaults := s!"image={image}, pullPolicy={pullPolicy}, database={database}"
  let started : LogLine :=
    ⟨.info, s!"Starting {operatorName} {operatorVersion} with defaults: {defaults}"⟩
  if operator.settings.writeBack.truthy then [started]
  else
    [started,
     ⟨.warning, "Writing resolved defaults back to Mattermost resources is disabled."⟩]

/-- What an operator says when it stops. -/
def stopLines : List LogLine := [⟨.info, "Operator shutdown complete"⟩]

end Operator

end Installation
