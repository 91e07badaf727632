import Installation.Value.Conversion

/-!
# Ingress

How an installation is reached.  A spec says so in its `ingress` part; an older form has
three fields of the spec itself, which count only where there is no such part.
`resolveIngress` gives one `IngressView` for both.  The two differ in what they leave
open: an `ingress` part that does not say that it is enabled is not, while the older form
always is.
-/

namespace Installation

/-- How an installation is reached. -/
structure IngressView where
  enabled : Bool
  host : Value
  annotations : List (Key × Value)
  tlsSecret : Value

/-- The end of the name of a secret that is named after a host. -/
def tlsSecretSuffix : String := "-tls-cert"

/-- The name of the secret for a host that is a text. -/
def tlsSecretName (host : String) : String :=
  String.ofList (host.toList.map fun c => if c = '.' then '-' else c) ++ tlsSecretSuffix

/-- The name of the secret for a host. -/
def defaultTlsSecret : Value → Except Fault String
  | .text host => .ok (tlsSecretName host)
  | v => .error (v.lacks "replace")

/-- The dictionary of a value that may be left out. -/
def optionalEntries (v : Value) : Except Fault (List (Key × Value)) :=
  if v.truthy then v.toEntries else .ok []

/-- How an installation is reached, by an `ingress` part. -/
def viewOfIngress (ingress : Value) : Except Fault IngressView := do
  let enabled ← ingress.attr "enabled"
  let host ← ingress.attr "host"
  let annotations ← ingress.attr "annotations"
  let annotations ← optionalEntries annotations
  let tlsSecret ← ingress.attr "tls_secret"
  .ok ⟨enabled.truthy, host.orElse (.text ""), annotations, tlsSecret.orElse (.text "")⟩

/-- How an installation is reached, by the older fields of a spec. -/
def viewOfSpec (spec : Value) : Except Fault IngressView := do
  let host ← spec.attr "ingress_name"
  let host := host.orElse (.text "")
  let annotations ← spec.attr "ingress_annotations"
  let annotations ← optionalEntries annotations
  let tls ← spec.attr "use_ingress_tls"
  if tls.truthy then
    let tlsSecret ← defaultTlsSecret host
    .ok ⟨true, host, annotations, .text tlsSecret⟩
  else .ok ⟨true, host, annotations, .text ""⟩

/-- How an installation is reached. -/
def resolveIngress (spec : Value) : Except Fault IngressView :=
  match spec.attr "ingress" with
  | .error fault => .error fault
  | .ok .null => viewOfSpec spec
  | .ok ingress => viewOfIngress ingress

end Installation
