import KubeParrot.Api
import KubeParrot.Store
import KubeParrot.Handlers
import KubeParrot.Tracking
import KubeParrot.Routes
import KubeParrot.Reconcile
import KubeParrot.Machine
import KubeParrot.Controller
import KubeParrot.Liveness
import KubeParrot.Safety
