import KubeParrot.Api
import KubeParrot.Store

/-!
# The route store

`reconcile` drives a `*bgp.ExternalIPRoutesStore`, whose code is not under src/. It is
modelled from the spec (sections 4.5 and 6): a set of routes keyed by the keys of their
service and proxy, with `List`, and `Add` and `Delete` that are idempotent and may fail. A
failure oracle `fails` decides the outcome of the `n`-th call, so a result quantified over
`fails` holds for every pattern of failures; a failed call changes no route. The store also
logs its calls, which is how the results below see what `reconcile` asks of it.
-/
namespace KubeParrot

/-- `bgp.ExternalIPRoute`: announce `service`'s external IPs from the node of `proxy`. -/
structure Route where
  service : Service
  proxy : Pod
  deriving DecidableEq, Repr

def Route.key (route : Route) : String × String := (route.service.key, route.proxy.key)

/-- A call of `reconcile` on the route store. -/
inductive Call where
  | add (service : Service) (proxy : Pod)
  | delete (route : Route)
  deriving DecidableEq, Repr

/-- Go's `error`, by its message. -/
abbrev Error := String

/-- Modelled from the spec: `bgp.ExternalIPRoutesStore` (pkg/bgp, not under src/), routes
keyed by service and proxy, with the log of the calls made on it. -/
structure ExternalIPRoutesStore where
  routes : Store Route.key
  calls : List Call

namespace ExternalIPRoutesStore

variable (fails : Nat → Option Error)

/-- `routes.List()`. -/
def list (st : ExternalIPRoutesStore) : List Route := st.routes.items

/-- `routes.Add(service, proxy)`: an upsert of the route unless the call fails. -/
def add (service : Service) (proxy : Pod) (st : ExternalIPRoutesStore) :
    ExternalIPRoutesStore × Option Error :=
  let logged := { st with calls := st.calls ++ [.add service proxy] }
  match fails st.calls.length with
  | some err => (logged, some err)
  | none => ({ logged with routes := st.routes.add ⟨service, proxy⟩ }, none)

/-- `routes.Delete(route)`: drops the route's key unless the call fails. -/
def delete (route : Route) (st : ExternalIPRoutesStore) : ExternalIPRoutesStore × Option Error :=
  let logged := { st with calls := st.calls ++ [.delete route] }
  match fails st.calls.length with
  | some err => (logged, some err)
  | none => ({ logged with routes := st.routes.delete route }, none)

variable {fails}

@[simp] theorem calls_add (service : Service) (proxy : Pod) (st : ExternalIPRoutesStore) :
    (st.add fails service proxy).1.calls = st.calls ++ [.add service proxy] := by
  unfold add; split <;> rfl

@[simp] theorem calls_delete (route : Route) (st : ExternalIPRoutesStore) :
    (st.delete fails route).1.calls = st.calls ++ [.delete route] := by
  unfold delete; split <;> rfl

/-- A call returns what the oracle decides for it. -/
@[simp] theorem add_snd (service : Service) (proxy : Pod) (st : ExternalIPRoutesStore) :
    (st.add fails service proxy).2 = fails st.calls.length := by
  unfold add; split <;> simp_all

@[simp] theorem delete_snd (route : Route) (st : ExternalIPRoutesStore) :
    (st.delete fails route).2 = fails st.calls.length := by
  unfold delete; split <;> simp_all

theorem mem_keys_add {service : Service} {proxy : Pod} {st : ExternalIPRoutesStore}
    {k : String × String} :
    k ∈ (st.add fails service proxy).1.routes.keys ↔
      k ∈ st.routes.keys ∨ ((st.add fails service proxy).2 = none ∧ k = (service.key, proxy.key)) := by
  unfold add; split <;> simp [Route.key, or_comm]

theorem mem_keys_delete {route : Route} {st : ExternalIPRoutesStore} {k : String × String} :
    k ∈ (st.delete fails route).1.routes.keys ↔
      k ∈ st.routes.keys ∧ ((st.delete fails route).2 = none → k ≠ route.key) := by
  unfold delete; split <;> simp

theorem mem_keys_of_add_ok {service : Service} {proxy : Pod} {st st' : ExternalIPRoutesStore}
    (h : st.add fails service proxy = (st', none)) {k : String × String} :
    k ∈ st'.routes.keys ↔ k ∈ st.routes.keys ∨ k = (service.key, proxy.key) := by
  simpa [h] using @mem_keys_add fails service proxy st k

theorem mem_keys_of_delete_ok {route : Route} {st st' : ExternalIPRoutesStore}
    (h : st.delete fails route = (st', none)) {k : String × String} :
    k ∈ st'.routes.keys ↔ k ∈ st.routes.keys ∧ k ≠ route.key := by
  simpa [h] using @mem_keys_delete fails route st k

theorem mem_items_add {service : Service} {proxy : Pod} {st : ExternalIPRoutesStore}
    {route : Route} (h : route ∈ (st.add fails service proxy).1.routes.items) :
    route ∈ st.routes.items ∨ route = ⟨service, proxy⟩ := by
  unfold add at h
  split at h
  · exact .inl h
  · rcases Store.mem_items_add.1 h with rfl | h
    · exact .inr rfl
    · exact .inl h.1

theorem mem_items_delete {route r : Route} {st : ExternalIPRoutesStore}
    (h : route ∈ (st.delete fails r).1.routes.items) : route ∈ st.routes.items := by
  unfold delete at h
  split at h
  · exact h
  · exact (Store.mem_items_delete.1 h).1

variable (fails) in
/-- No call the store takes from `st` on fails. -/
def Reliable (st : ExternalIPRoutesStore) : Prop := ∀ i, st.calls.length ≤ i → fails i = none

theorem Reliable.add {st : ExternalIPRoutesStore} (h : st.Reliable fails) (service : Service)
    (proxy : Pod) :
    (st.add fails service proxy).1.Reliable fails ∧ (st.add fails service proxy).2 = none := by
  refine ⟨fun i hi => h i (by simp at hi; omega), ?_⟩
  simp [ExternalIPRoutesStore.add, h _ le_rfl]

theorem Reliable.delete {st : ExternalIPRoutesStore} (h : st.Reliable fails) (route : Route) :
    (st.delete fails route).1.Reliable fails ∧ (st.delete fails route).2 = none := by
  refine ⟨fun i hi => h i (by simp at hi; omega), ?_⟩
  simp [ExternalIPRoutesStore.delete, h _ le_rfl]

end ExternalIPRoutesStore

end KubeParrot
