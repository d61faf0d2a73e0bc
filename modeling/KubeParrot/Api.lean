import Mathlib.Data.List.Basic

/-!
# The Kubernetes objects the controller reads

Only the fields `externalservices.go` reads are kept: name and namespace, a pod's host
address and conditions, a service's external IPs and the address lists of an endpoints
object's subsets. Every cache of the controller keys an object by
`cache.DeletionHandlingMetaNamespaceKeyFunc`, which is `namespace/name` on the objects the
handlers store.
-/
namespace KubeParrot

/-- `metav1.ObjectMeta`, reduced to the identity the key function reads. -/
structure ObjectMeta where
  name : String
  «namespace» : String
  deriving DecidableEq, Repr

/-- `cache.MetaNamespaceKeyFunc`: `namespace/name`, or the bare name outside a namespace.
The deletion-handling wrapper only adds the tombstone case, which never reaches a store. -/
def metaNamespaceKeyFunc (meta : ObjectMeta) : String :=
  if meta.namespace = "" then meta.name else meta.namespace ++ "/" ++ meta.name

/-- `strings.HasPrefix(s, prefix)`. -/
def hasPrefix (s pre : String) : Bool :=
  pre.toList.isPrefixOf s.toList

structure PodCondition where
  type : String
  status : String
  deriving DecidableEq, Repr

/-- `v1.PodStatus`: the node address the pod runs on, and the conditions `IsPodReady` reads. -/
structure PodStatus where
  hostIP : String
  conditions : List PodCondition
  deriving DecidableEq, Repr

structure Pod where
  metadata : ObjectMeta
  status : PodStatus
  deriving DecidableEq, Repr

structure ServiceSpec where
  externalIPs : List String
  deriving DecidableEq, Repr

structure Service where
  metadata : ObjectMeta
  spec : ServiceSpec
  deriving DecidableEq, Repr

structure EndpointAddress where
  ip : String
  deriving DecidableEq, Repr

structure EndpointSubset where
  addresses : List EndpointAddress
  deriving DecidableEq, Repr

structure Endpoints where
  metadata : ObjectMeta
  subsets : List EndpointSubset
  deriving DecidableEq, Repr

def Pod.key (pod : Pod) : String := metaNamespaceKeyFunc pod.metadata

def Service.key (service : Service) : String := metaNamespaceKeyFunc service.metadata

/-- An endpoints object carries its service's name and namespace, so both get one key. -/
def Endpoints.key (endpoints : Endpoints) : String := metaNamespaceKeyFunc endpoints.metadata

/-! Objects of one node's cluster, for the results at fixed inputs. -/

def proxyPod : Pod := ⟨⟨"kube-proxy-a1", "kube-system"⟩, ⟨"192.0.2.1", [⟨"Ready", "True"⟩]⟩⟩

def webService : Service := ⟨⟨"web", "default"⟩, ⟨["192.0.2.10"]⟩⟩

def webServiceWithoutIPs : Service := ⟨⟨"web", "default"⟩, ⟨[]⟩⟩

def webEndpoints : Endpoints := ⟨⟨"web", "default"⟩, [⟨[⟨"10.1.0.5"⟩]⟩]⟩

end KubeParrot
