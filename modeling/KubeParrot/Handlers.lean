import KubeParrot.Api
import KubeParrot.Store

/-!
# The informer event handlers of `ExternalServicesController`

Each handler reads one notification, updates its own cache and reports whether it called
`c.reconciler.Dirty()`. `podAdd` and `endpointsAdd` share one body once their object has
passed its early returns (`syncReady`), and both delete handlers that look before they delete
are `deleteIfCached`.

Spec 4.3 describes one event adapter for all kinds: evaluate the readiness filter, cache a
ready object and drop one that is not. The handlers split each filter in two: a gate whose
failure returns at once, cached object or not, and a ready test. `gatedSync` is that adapter
with the split made explicit; the pod and endpoints tables are exactly `gatedSync` (the
endpoints gate is trivial), and the service table agrees with it on the cache but calls
`Dirty()` on every delete.
-/
namespace KubeParrot

/-- One call of an informer's handler: `AddFunc(obj)`, `UpdateFunc(old, cur)` or
`DeleteFunc(obj)`. -/
inductive Notification (α : Type) where
  | add (obj : α)
  | update (old cur : α)
  | delete (obj : α)
  deriving DecidableEq, Repr

namespace Notification

variable {α : Type}

/-- The object the handler reads: every update handler passes on `cur` alone. -/
def object : Notification α → α
  | add obj => obj
  | update _ cur => cur
  | delete obj => obj

/-- The object the notification leaves under its key, nothing after a delete. -/
def current : Notification α → Option α
  | add obj => some obj
  | update _ cur => some cur
  | delete _ => none

end Notification

/-- `cache.ResourceEventHandlerFuncs`, each function returning the new cache and whether it
called `Dirty()`. -/
structure ResourceEventHandlerFuncs (α σ : Type) where
  addFunc : α → σ → σ × Bool
  updateFunc : α → α → σ → σ × Bool
  deleteFunc : α → σ → σ × Bool

namespace ResourceEventHandlerFuncs

variable {α σ : Type}

def onNotification (h : ResourceEventHandlerFuncs α σ) : Notification α → σ → σ × Bool
  | .add obj => h.addFunc obj
  | .update old cur => h.updateFunc old cur
  | .delete obj => h.deleteFunc obj

/-- A handler that leaves its cache as it found it unless it calls `Dirty()`. -/
def DirtiesOnChange (h : ResourceEventHandlerFuncs α σ) : Prop :=
  ∀ n s, (h.onNotification n s).2 = false → (h.onNotification n s).1 = s

/-- Such a handler calls `Dirty()` or hands its cache back untouched. -/
theorem DirtiesOnChange.dirty_or_same {h : ResourceEventHandlerFuncs α σ} (hh : h.DirtiesOnChange)
    (n : Notification α) (s : σ) :
    (h.onNotification n s).2 = true ∨ h.onNotification n s = (s, false) := by
  cases hd : (h.onNotification n s).2
  · exact .inr (Prod.ext (hh n s hd) hd)
  · exact .inl rfl

end ResourceEventHandlerFuncs

section Family

variable {α κ : Type} [DecidableEq κ] {keyFunc : α → κ} (obj : α) (s : Store keyFunc)

/-- `if !exists { Add(obj); Dirty() }`. -/
def addIfMissing : Store keyFunc × Bool :=
  if s.contains (keyFunc obj) then (s, false) else (s.add obj, true)

/-- `if exists { Delete(obj); Dirty() }`. -/
def deleteIfCached : Store keyFunc × Bool :=
  if s.contains (keyFunc obj) then (s.delete obj, true) else (s, false)

/-- Cache a ready object, drop one that is not: the body `podAdd` and `endpointsAdd` share. -/
def syncReady (ready : Bool) : Store keyFunc × Bool :=
  if ready then addIfMissing obj s else deleteIfCached obj s

@[simp] theorem mem_keys_addIfMissing {k : κ} :
    k ∈ (addIfMissing obj s).1.keys ↔ k = keyFunc obj ∨ k ∈ s.keys := by
  unfold addIfMissing
  split
  · simp only [Store.contains_eq_true] at *
    exact ⟨.inr, fun h => h.elim (· ▸ ‹_›) id⟩
  · simp

@[simp] theorem mem_keys_deleteIfCached {k : κ} :
    k ∈ (deleteIfCached obj s).1.keys ↔ k ∈ s.keys ∧ k ≠ keyFunc obj := by
  unfold deleteIfCached
  split
  · simp
  · simp only [Bool.not_eq_true, Store.contains_eq_false] at *
    exact ⟨fun h => ⟨h, fun hk => ‹keyFunc obj ∉ s.keys› (hk ▸ h)⟩, And.left⟩

@[simp] theorem addIfMissing_dirty : (addIfMissing obj s).2 = true ↔ keyFunc obj ∉ s.keys := by
  unfold addIfMissing; split <;> simp_all

@[simp] theorem deleteIfCached_dirty : (deleteIfCached obj s).2 = true ↔ keyFunc obj ∈ s.keys := by
  unfold deleteIfCached; split <;> simp_all

theorem addIfMissing_quiet (h : (addIfMissing obj s).2 = false) : (addIfMissing obj s).1 = s := by
  unfold addIfMissing at *; split <;> simp_all

theorem deleteIfCached_quiet (h : (deleteIfCached obj s).2 = false) :
    (deleteIfCached obj s).1 = s := by
  unfold deleteIfCached at *; split <;> simp_all

theorem syncReady_quiet (ready : Bool) (h : (syncReady obj s ready).2 = false) :
    (syncReady obj s ready).1 = s := by
  unfold syncReady at *
  split
  · exact addIfMissing_quiet obj s (by simp_all)
  · exact deleteIfCached_quiet obj s (by simp_all)

/-- A call of either branch dirties exactly when it changes the cache's key set. -/
theorem syncReady_dirty_iff (ready : Bool) :
    (syncReady obj s ready).2 = true ↔ ¬ ∀ k, k ∈ (syncReady obj s ready).1.keys ↔ k ∈ s.keys := by
  unfold syncReady
  split
  · simp only [addIfMissing_dirty, mem_keys_addIfMissing, or_iff_right_iff_imp]
    exact ⟨fun h hall => h (hall _ rfl), fun h hk => h fun k hk' => hk' ▸ hk⟩
  · simp only [deleteIfCached_dirty, mem_keys_deleteIfCached, and_iff_left_iff_imp]
    exact ⟨fun h hall => hall _ h rfl, fun h => by_contra fun hk => h fun k hk' hke => hk (hke ▸ hk')⟩

theorem addIfMissing_of_mem (h : keyFunc obj ∈ s.keys) : addIfMissing obj s = (s, false) := by
  simp [addIfMissing, h]

theorem deleteIfCached_of_not_mem (h : keyFunc obj ∉ s.keys) : deleteIfCached obj s = (s, false) := by
  simp [deleteIfCached, h]

@[simp] theorem get_deleteIfCached (k : κ) :
    (deleteIfCached obj s).1.get k = if keyFunc obj = k then none else s.get k := by
  by_cases hk : keyFunc obj = k
  · subst hk
    cases hc : s.contains (keyFunc obj) <;> simp_all [deleteIfCached, Store.get_eq_none]
  · unfold deleteIfCached
    split <;> simp [hk]

/-- Under its own key an object is added only if nothing was there. -/
@[simp] theorem get_addIfMissing (k : κ) :
    (addIfMissing obj s).1.get k = if keyFunc obj = k then some ((s.get k).getD obj) else s.get k := by
  by_cases hk : keyFunc obj = k
  · subst hk
    cases h : s.get (keyFunc obj) with
    | none => simp [addIfMissing, Store.get_eq_none.1 h]
    | some o => simp [addIfMissing, Store.mem_keys.2 ⟨o, Store.get_eq_some.1 h⟩, h]
  · unfold addIfMissing
    split <;> simp [hk]

/-- A repeated call finds its work done. -/
theorem syncReady_repeat (ready : Bool) :
    syncReady obj (syncReady obj s ready).1 ready = ((syncReady obj s ready).1, false) := by
  cases ready
  · simp only [syncReady, Bool.false_eq_true, if_false]
    exact deleteIfCached_of_not_mem obj _ (by simp)
  · simp only [syncReady, if_true]
    exact addIfMissing_of_mem obj _ (by simp)

theorem mem_items_syncReady (ready : Bool) {o : α} (h : o ∈ (syncReady obj s ready).1.items) :
    (o ∈ s.items ∧ (ready = false → keyFunc o ≠ keyFunc obj)) ∨ (o = obj ∧ ready = true) := by
  unfold syncReady addIfMissing deleteIfCached at h
  cases ready
  · simp only [Bool.false_eq_true, if_false] at h
    split at h
    · exact .inl (by simpa using h)
    · next hc =>
      simp only [Bool.not_eq_true, Store.contains_eq_false] at hc
      exact .inl ⟨h, fun _ he => hc (he ▸ Store.mem_keys.2 ⟨o, h, rfl⟩)⟩
  · simp only [if_true] at h
    split at h
    · exact .inl ⟨h, nofun⟩
    · rcases Store.mem_items_add.1 h with rfl | h
      · exact .inr ⟨rfl, rfl⟩
      · exact .inl ⟨h.1, nofun⟩

end Family

section Gated

variable {α κ : Type} [DecidableEq κ] {keyFunc : α → κ} (gate ready : α → Bool)

/-- Spec 4.3's event adapter with its filter split in two: an add or update of an object that
fails `gate` changes nothing, one that passes is cached when `ready` and dropped when not, and a
delete drops the key if it is cached. -/
def gatedSync (n : Notification α) (s : Store keyFunc) : Store keyFunc × Bool :=
  match n.current with
  | none => deleteIfCached n.object s
  | some o => if gate o then syncReady o s (ready o) else (s, false)

theorem Notification.object_eq_of_current {n : Notification α} {o : α} (h : n.current = some o) :
    n.object = o := by
  cases n <;> simp_all [Notification.current, Notification.object]

variable {gate ready} {n : Notification α} {s : Store keyFunc}

theorem gatedSync_quiet (h : (gatedSync gate ready n s).2 = false) : (gatedSync gate ready n s).1 = s := by
  unfold gatedSync at *
  split
  · exact deleteIfCached_quiet _ _ (by simpa [*] using h)
  · split
    · exact syncReady_quiet _ _ _ (by simpa [*] using h)
    · rfl

variable (gate ready) in
/-- What a notification leaves under its own key, given what was there: nothing after a delete,
an object that fails the gate leaves it as it was, and one that passes is kept there only when
ready, and then only if nothing was there already. -/
def gatedGet (n : Notification α) (prev : Option α) : Option α :=
  match n.current with
  | none => none
  | some o => if gate o then (if ready o then some (prev.getD o) else none) else prev

/-- A notification changes what the cache holds under its own key only, and that from what was
there alone. -/
theorem get_gatedSync (k : κ) :
    (gatedSync gate ready n s).1.get k =
      if keyFunc n.object = k then gatedGet gate ready n (s.get k) else s.get k := by
  unfold gatedSync gatedGet
  cases hn : n.current with
  | none => exact get_deleteIfCached _ _ k
  | some o =>
    rw [Notification.object_eq_of_current hn]
    simp only
    split
    · cases ready o <;> simp [syncReady]
    · split <;> rfl

/-- Delivering a notification again changes nothing and does not call `Dirty()`. -/
theorem gatedSync_repeat :
    gatedSync gate ready n (gatedSync gate ready n s).1 = ((gatedSync gate ready n s).1, false) := by
  cases hn : n.current with
  | none =>
    simp only [gatedSync, hn]
    exact deleteIfCached_of_not_mem _ _ (by simp)
  | some o =>
    cases hg : gate o
    · simp [gatedSync, hn, hg]
    · simp only [gatedSync, hn, hg, if_true]
      exact syncReady_repeat o s (ready o)

/-- A notification about another key leaves `k` as it was. -/
theorem mem_keys_gatedSync_of_ne {k : κ} (hk : keyFunc n.object ≠ k) :
    k ∈ (gatedSync gate ready n s).1.keys ↔ k ∈ s.keys := by
  unfold gatedSync
  split
  · simp [Ne.symm hk]
  · rename_i o ho
    rw [Notification.object_eq_of_current ho] at hk
    split
    · cases ready o <;> simp [syncReady, Ne.symm hk]
    · rfl

theorem not_mem_keys_gatedSync_of_delete (hn : n.current = none) :
    keyFunc n.object ∉ (gatedSync gate ready n s).1.keys := by
  simp [gatedSync, hn]

/-- An object that passes the gate is cached exactly when it is ready. -/
theorem mem_keys_gatedSync_of_gate {o : α} (hn : n.current = some o) (hg : gate o = true) :
    keyFunc o ∈ (gatedSync gate ready n s).1.keys ↔ ready o = true := by
  cases h : ready o <;> simp [gatedSync, hn, hg, syncReady, h]

/-- A stored object was stored before, under a key the notification does not delete, or is
the notification's object, passing the gate and ready. -/
theorem mem_items_gatedSync {o : α} (h : o ∈ (gatedSync gate ready n s).1.items) :
    (o ∈ s.items ∧ (n.current = none → keyFunc o ≠ keyFunc n.object)) ∨
      (n.current = some o ∧ gate o = true ∧ ready o = true) := by
  unfold gatedSync at h
  split at h
  · rename_i hn
    simpa [hn] using (mem_items_syncReady n.object s false h)
  · rename_i o' hn
    split at h
    · rcases mem_items_syncReady o' s _ h with ⟨h, -⟩ | ⟨rfl, hr⟩
      · exact .inl ⟨h, by simp [hn]⟩
      · exact .inr ⟨hn, ‹_›, hr⟩
    · exact .inl ⟨h, by simp [hn]⟩

end Gated

/-- What the pod filter compares against: `types.KubeProxyPrefix`, `types.KubeProxyNamespace`,
this node's address as `c.hostIP.To4().String()` renders it, and `util.IsPodReady`. None of
them is under src/, so each is a parameter of the model. -/
structure Env where
  kubeProxyPrefix : String
  kubeProxyNamespace : String
  hostIP : String
  isPodReady : Pod → Bool

/-- The early returns of `podAdd`: the kube-proxy prefix and namespace, and this node's
address. -/
def Env.isNodeProxy (env : Env) (pod : Pod) : Bool :=
  hasPrefix pod.metadata.name env.kubeProxyPrefix && pod.metadata.namespace == env.kubeProxyNamespace &&
    pod.status.hostIP == env.hostIP

/-- A node at 192.0.2.1 where a pod is ready when it has the condition `Ready` at `True`. -/
def nodeEnv : Env :=
  ⟨"kube-proxy", "kube-system", "192.0.2.1", fun pod => pod.status.conditions.contains ⟨"Ready", "True"⟩⟩

section Handlers

variable (env : Env)

def podDelete (pod : Pod) (proxies : Store Pod.key) : Store Pod.key × Bool :=
  deleteIfCached pod proxies

/-- The two early returns skip the cache entirely; only a pod that passes both reaches the
ready test. -/
def podAdd (pod : Pod) (proxies : Store Pod.key) : Store Pod.key × Bool :=
  if !hasPrefix pod.metadata.name env.kubeProxyPrefix ||
      pod.metadata.namespace != env.kubeProxyNamespace then (proxies, false)
  else if pod.status.hostIP != env.hostIP then (proxies, false)
  else syncReady pod proxies (env.isPodReady pod)

def podUpdate (_old cur : Pod) (proxies : Store Pod.key) : Store Pod.key × Bool :=
  podAdd env cur proxies

def serviceDelete (service : Service) (services : Store Service.key) :
    Store Service.key × Bool :=
  (services.delete service, true)

/-- The early return of `serviceAdd`. -/
def Service.hasExternalIPs (service : Service) : Bool := service.spec.externalIPs.length != 0

/-- A service without external IPs is skipped, cached or not. -/
def serviceAdd (service : Service) (services : Store Service.key) : Store Service.key × Bool :=
  if service.spec.externalIPs.length == 0 then (services, false)
  else addIfMissing service services

def serviceUpdate (_old cur : Service) (services : Store Service.key) :
    Store Service.key × Bool :=
  serviceAdd cur services

/-- The `ready` loop of `endpointsAdd`, which breaks at the first subset with an address. -/
def subsetsReady : List EndpointSubset → Bool
  | [] => false
  | v :: vs => if v.addresses.length > 0 then true else subsetsReady vs

def endpointsDelete (endpoints : Endpoints) (cache : Store Endpoints.key) :
    Store Endpoints.key × Bool :=
  deleteIfCached endpoints cache

def endpointsAdd (endpoints : Endpoints) (cache : Store Endpoints.key) :
    Store Endpoints.key × Bool :=
  syncReady endpoints cache (subsetsReady endpoints.subsets)

def endpointsUpdate (_old cur : Endpoints) (cache : Store Endpoints.key) :
    Store Endpoints.key × Bool :=
  endpointsAdd cur cache

/-- The registrations of `NewExternalServicesController`. -/
def podHandlers : ResourceEventHandlerFuncs Pod (Store Pod.key) :=
  ⟨podAdd env, podUpdate env, podDelete⟩

def serviceHandlers : ResourceEventHandlerFuncs Service (Store Service.key) :=
  ⟨serviceAdd, serviceUpdate, serviceDelete⟩

def endpointsHandlers : ResourceEventHandlerFuncs Endpoints (Store Endpoints.key) :=
  ⟨endpointsAdd, endpointsUpdate, endpointsDelete⟩

/-- The pod handlers are the adapter gated by the early returns of `podAdd`. -/
theorem podHandlers_onNotification (n : Notification Pod) (s : Store Pod.key) :
    (podHandlers env).onNotification n s = gatedSync env.isNodeProxy env.isPodReady n s := by
  have hadd (pod : Pod) : podAdd env pod s = gatedSync env.isNodeProxy env.isPodReady (.add pod) s := by
    simp only [podAdd, gatedSync, Notification.current, Env.isNodeProxy]
    by_cases h₁ : hasPrefix pod.metadata.name env.kubeProxyPrefix <;>
      by_cases h₂ : pod.metadata.namespace = env.kubeProxyNamespace <;>
      by_cases h₃ : pod.status.hostIP = env.hostIP <;> simp [h₁, h₂, h₃]
  cases n with
  | add pod => exact hadd pod
  | update old cur => exact hadd cur
  | delete pod => rfl

/-- The endpoints handlers are the adapter with no gate. -/
theorem endpointsHandlers_onNotification (n : Notification Endpoints) (s : Store Endpoints.key) :
    endpointsHandlers.onNotification n s =
      gatedSync (fun _ => true) (fun e => subsetsReady e.subsets) n s := by
  cases n <;> rfl

/-- The service handlers are the adapter gated by external IPs with every service ready, except
that a delete calls `Dirty()` whether or not the service was cached. -/
theorem serviceHandlers_onNotification (n : Notification Service) (s : Store Service.key) :
    serviceHandlers.onNotification n s =
      ((gatedSync Service.hasExternalIPs (fun _ => true) n s).1,
        (gatedSync Service.hasExternalIPs (fun _ => true) n s).2 || n.current.isNone) := by
  have hadd (svc : Service) : serviceAdd svc s =
      gatedSync Service.hasExternalIPs (fun _ => true) (.add svc) s := by
    by_cases h : svc.spec.externalIPs.length = 0 <;> simp [serviceAdd, gatedSync, h, syncReady,
      Notification.current, Service.hasExternalIPs]
  cases n with
  | add svc => simpa [Notification.current] using hadd svc
  | update old cur => simpa [Notification.current] using hadd cur
  | delete svc =>
    by_cases h : svc.key ∈ s.keys
    · simp [ResourceEventHandlerFuncs.onNotification, serviceHandlers, serviceDelete, gatedSync,
        Notification.current, Notification.object, deleteIfCached, h]
    · simp [ResourceEventHandlerFuncs.onNotification, serviceHandlers, serviceDelete, gatedSync,
        Notification.current, Notification.object, deleteIfCached, h, Store.delete_of_not_mem h]

theorem serviceHandlers_onNotification_fst (n : Notification Service) (s : Store Service.key) :
    (serviceHandlers.onNotification n s).1 = (gatedSync Service.hasExternalIPs (fun _ => true) n s).1 := by
  rw [serviceHandlers_onNotification]

/-- Idempotence (spec 8): a notification delivered twice in a row leaves the cache as the first
delivery did, and the second calls `Dirty()` only for a service delete, which `serviceDelete`
signals whether or not the service was cached. -/
theorem handlers_repeat_noop :
    (∀ n s, (podHandlers env).onNotification n ((podHandlers env).onNotification n s).1 =
      (((podHandlers env).onNotification n s).1, false)) ∧
    (∀ n s, endpointsHandlers.onNotification n (endpointsHandlers.onNotification n s).1 =
      ((endpointsHandlers.onNotification n s).1, false)) ∧
    ∀ n s, serviceHandlers.onNotification n (serviceHandlers.onNotification n s).1 =
      ((serviceHandlers.onNotification n s).1, n.current.isNone) := by
  refine ⟨fun n s => ?_, fun n s => ?_, fun n s => ?_⟩
  · simp only [podHandlers_onNotification, gatedSync_repeat]
  · simp only [endpointsHandlers_onNotification, gatedSync_repeat]
  · simp only [serviceHandlers_onNotification, gatedSync_repeat, Bool.false_or]

/-- Every pod handler path that changes the proxies cache calls `Dirty()`. -/
theorem podHandlers_dirtiesOnChange : (podHandlers env).DirtiesOnChange := by
  intro n s h
  rw [podHandlers_onNotification] at *
  exact gatedSync_quiet h

theorem serviceHandlers_dirtiesOnChange : serviceHandlers.DirtiesOnChange := by
  intro n s h
  rw [serviceHandlers_onNotification] at *
  exact gatedSync_quiet (by simpa using (Bool.or_eq_false_iff.1 h).1)

theorem endpointsHandlers_dirtiesOnChange : endpointsHandlers.DirtiesOnChange := by
  intro n s h
  rw [endpointsHandlers_onNotification] at *
  exact gatedSync_quiet h

end Handlers

@[simp] theorem subsetsReady_eq_true {vs : List EndpointSubset} :
    subsetsReady vs = true ↔ ∃ v ∈ vs, v.addresses ≠ [] := by
  induction vs with
  | nil => simp [subsetsReady]
  | cons v vs ih => by_cases hv : v.addresses = [] <;> simp [subsetsReady, hv, ih, List.length_pos]

end KubeParrot
