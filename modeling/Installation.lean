import Installation.Container
import Installation.Failure
import Installation.Labels.Shared
import Installation.Proofs.History.Status
import Installation.Proofs.Reconcile.Atomic
import Installation.Proofs.Reconcile.Reordered
import Installation.Proofs.Reconcile.SpecPatch
import Installation.Proofs.Reconcile.Unmodelled
import Installation.Proofs.Reconcile.WriteBack
import Installation.Proofs.Resource.Fingerprint
import Installation.Proofs.Schema.Grammar
import Installation.Proofs.Schema.RoundTrip
import Installation.Proofs.Session.Patch
import Installation.Startup
import Installation.Condition.Memory
import Installation.Proofs.Condition.Run
import Installation.Labels.Memory
import Installation.Proofs.Labels.Inclusion
import Installation.Proofs.Schema.Absence
import Installation.Proofs.Reconcile.Ingress
import Installation.Proofs.Value.Shed
import Installation.Proofs.Gaps.Akin
import Installation.Proofs.Reconcile.Nulls
import Installation.Proofs.Labels.Isolation
import Installation.Proofs.Value.NormalForm
