import KubeParrot.Machine
import KubeParrot.Tracking

/-!
# The controller: handlers and the dirty reconciler, interleaved

The handlers run on the informers' goroutines, a whole call at a time, and the reconciler's
goroutine runs `reconcile` one access at a time (`Pc.step`). The reconciler is
`reconciler.NewNamedDirtyReconciler`, whose code is not under src/; it follows spec 4.4: `Dirty()`
sets a pending flag, an idle reconciler with the flag set clears it and starts a run, and a run
that returns an error sets the flag again. Every interleaving is a list of `Event`s.

The invariant (`Consistent`) says: while no `Dirty()` has come since the current run started,
the rest of the run does what a whole run over the current caches from some store would do;
and once a run has returned nil with no `Dirty()` since it started, the store's routes are
the desired ones. It holds because every handler call that changes a cache calls `Dirty()`.
Each cache only ever sees its own informer's notifications (`run_caches`), so the quiescent
routes follow the notification history wherever no early return of `podAdd` or `serviceAdd`
left a stale object cached (`quiescent_routes_follow_history`).
-/
namespace KubeParrot

/-- `ExternalServicesController` with the state of its reconciler: the pending flag, the run in
progress, and how the last run ended. -/
structure Controller where
  caches : Caches
  routes : ExternalIPRoutesStore
  dirty : Bool
  running : Option Pc
  lastResult : Option (Option Error)

/-- One step of one goroutine: a handler call for a notification, or the reconciler's next move. -/
inductive Event where
  | pod (n : Notification Pod)
  | service (n : Notification Service)
  | endpoints (n : Notification Endpoints)
  | reconciler
  deriving DecidableEq, Repr

namespace Event

/-- The notifications each informer delivered, in order. -/
def podNotifications (events : List Event) : List (Notification Pod) :=
  events.filterMap fun | .pod n => some n | _ => none

def serviceNotifications (events : List Event) : List (Notification Service) :=
  events.filterMap fun | .service n => some n | _ => none

def endpointsNotifications (events : List Event) : List (Notification Endpoints) :=
  events.filterMap fun | .endpoints n => some n | _ => none

end Event

namespace Controller

/-- `NewExternalServicesController`: empty caches over the given store, nothing pending. -/
def init (routes : ExternalIPRoutesStore) : Controller :=
  ⟨⟨.empty, .empty, .empty⟩, routes, false, none, none⟩

variable (env : Env) (fails : Nat → Option Error)

/-- One step of the interleaving. A handler event runs that informer's handler on its cache, and
a `c.reconciler.Dirty()` it calls raises the pending flag. Modelled from the spec: the
reconciler's moves follow spec 4.4, since `reconciler.NewNamedDirtyReconciler` is not under
src/. An idle reconciler with the flag raised clears it and starts a run, a run in progress makes
its next access (`Pc.step`), and a finished run records its result and raises the flag again if
that result is an error. -/
def step (st : Controller) : Event → Controller
  | .pod n =>
    let r := (podHandlers env).onNotification n st.caches.proxies
    { st with caches := { st.caches with proxies := r.1 }, dirty := st.dirty || r.2 }
  | .service n =>
    let r := serviceHandlers.onNotification n st.caches.services
    { st with caches := { st.caches with services := r.1 }, dirty := st.dirty || r.2 }
  | .endpoints n =>
    let r := endpointsHandlers.onNotification n st.caches.endpoints
    { st with caches := { st.caches with endpoints := r.1 }, dirty := st.dirty || r.2 }
  | .reconciler =>
    match st.running with
    | none => if st.dirty then { st with dirty := false, running := some .listRoutes } else st
    | some (.done result) =>
      { st with dirty := st.dirty || result.isSome, running := none, lastResult := some result }
    | some pc =>
      let r := pc.step fails st.caches st.routes
      { st with running := some r.1, routes := r.2 }

def run (st : Controller) (events : List Event) : Controller :=
  events.foldl (step env fails) st

/-- No `Dirty()` since the last run started, and that run returned nil. -/
def Quiescent (st : Controller) : Prop :=
  st.dirty = false ∧ st.running = none ∧ st.lastResult = some none

instance : DecidablePred Quiescent := fun st => by unfold Quiescent; infer_instance

@[simp] theorem run_nil (st : Controller) : st.run env fails [] = st := rfl

@[simp] theorem run_cons (st : Controller) (e : Event) (events : List Event) :
    st.run env fails (e :: events) = (st.step env fails e).run env fails events := rfl

theorem run_append (st : Controller) (events events' : List Event) :
    st.run env fails (events ++ events') = (st.run env fails events).run env fails events' :=
  List.foldl_append _ _ _ _

@[simp] theorem run_concat (st : Controller) (events : List Event) (e : Event) :
    st.run env fails (events ++ [e]) = (st.run env fails events).step env fails e :=
  run_append env fails st events [e]

@[simp] theorem step_reconciler_caches (st : Controller) :
    (st.step env fails .reconciler).caches = st.caches := by
  simp only [step]; split <;> (try split) <;> rfl

/-- Each cache is its own informer's history delivered to its handlers: the other handlers and
the reconciler never touch it. -/
theorem run_caches (routes : ExternalIPRoutesStore) (events : List Event) :
    ((init routes).run env fails events).caches =
      ⟨serviceHandlers.deliver (Event.serviceNotifications events) .empty,
        endpointsHandlers.deliver (Event.endpointsNotifications events) .empty,
        (podHandlers env).deliver (Event.podNotifications events) .empty⟩ := by
  induction events using List.reverseRecOn with
  | nil => rfl
  | append_singleton events e ih =>
    cases e
    case reconciler => simpa [Event.podNotifications, Event.serviceNotifications,
      Event.endpointsNotifications, List.filterMap_append] using ih
    all_goals simp [step, ih, Event.podNotifications, Event.serviceNotifications,
      Event.endpointsNotifications, List.filterMap_append]

/-- See the module docstring. -/
structure Consistent (st : Controller) : Prop where
  running : ∀ pc, st.running = some pc → st.dirty = false →
    ∃ st₀, pc.runFrom fails st.caches st.routes = reconcile fails st.caches st₀
  finished : st.running = none → st.dirty = false → st.lastResult = some none →
    ∀ k, k ∈ st.routes.routes.keys ↔ k ∈ desired st.caches

theorem consistent_init (routes : ExternalIPRoutesStore) : Consistent fails (init routes) :=
  ⟨fun _ h => by simp [init] at h, fun _ _ h => by simp [init] at h⟩

theorem step_reconciler_of_idle {st : Controller} (hr : st.running = none) :
    st.step env fails .reconciler =
      if st.dirty then { st with dirty := false, running := some .listRoutes } else st := by
  simp [step, hr]

theorem step_reconciler_of_done {st : Controller} {result : Option Error}
    (hr : st.running = some (.done result)) :
    st.step env fails .reconciler =
      { st with dirty := st.dirty || result.isSome, running := none, lastResult := some result } := by
  simp [step, hr]

/-- The reconciler's move while a run is between two accesses. -/
theorem step_reconciler_of_running {st : Controller} {pc : Pc} (hr : st.running = some pc)
    (hpc : ∀ result, pc ≠ .done result) :
    st.step env fails .reconciler =
      { st with running := some (pc.step fails st.caches st.routes).1,
                routes := (pc.step fails st.caches st.routes).2 } := by
  cases pc <;> simp_all [step]

/-- A handler call either changes nothing or raises the pending flag. -/
theorem consistent_of_handler {st st' : Controller} (h : Consistent fails st)
    (hst : st'.dirty = true ∨ st' = st) : Consistent fails st' := by
  rcases hst with hd | rfl
  · exact ⟨fun _ _ h => by simp_all, fun _ h => by simp_all⟩
  · exact h

/-- A handler call raises the pending flag or leaves the controller as it was. -/
theorem step_handler (st : Controller) {e : Event} (he : e ≠ .reconciler) :
    (st.step env fails e).dirty = true ∨ st.step env fails e = st := by
  cases e with
  | pod n =>
    rcases (podHandlers_dirtiesOnChange env).dirty_or_same n st.caches.proxies with hd | hd <;>
      simp [step, hd]
  | service n =>
    rcases serviceHandlers_dirtiesOnChange.dirty_or_same n st.caches.services with hd | hd <;>
      simp [step, hd]
  | endpoints n =>
    rcases endpointsHandlers_dirtiesOnChange.dirty_or_same n st.caches.endpoints with hd | hd <;>
      simp [step, hd]
  | reconciler => exact absurd rfl he

theorem consistent_step {st : Controller} (h : Consistent fails st) (e : Event) :
    Consistent fails (st.step env fails e) := by
  cases e
  case pod | service | endpoints =>
    exact consistent_of_handler fails h (step_handler env fails st nofun)
  case reconciler =>
    obtain ⟨hrun, hfin⟩ := h
    rcases hr : st.running with _ | pc
    · rw [step_reconciler_of_idle env fails hr]
      split
      · exact ⟨fun pc hpc _ => ⟨st.routes, by cases hpc; rfl⟩, fun h => by simp at h⟩
      · exact ⟨hrun, hfin⟩
    · by_cases hdone : ∃ result, pc = .done result
      · obtain ⟨result, rfl⟩ := hdone
        rw [step_reconciler_of_done env fails hr]
        refine ⟨fun _ h => by simp at h, fun _ hd hlast k => ?_⟩
        simp only [Bool.or_eq_false_iff, Option.some.injEq] at hd hlast
        obtain ⟨st₀, h₀⟩ := hrun _ hr hd.1
        exact reconcile_keys (hlast ▸ h₀.symm) k
      · rw [step_reconciler_of_running env fails hr (fun result h => hdone ⟨result, h⟩)]
        refine ⟨fun pc' hpc hd => ?_, fun h => by simp at h⟩
        obtain ⟨st₀, h₀⟩ := hrun pc hr hd
        exact ⟨st₀, by cases hpc; rw [Pc.runFrom_step, h₀]⟩

theorem Consistent.run {st : Controller} (h : Consistent fails st) (events : List Event) :
    Consistent fails (st.run env fails events) := by
  induction events generalizing st with
  | nil => exact h
  | cons e events ih => exact ih (consistent_step env fails h e)

theorem consistent_run (routes : ExternalIPRoutesStore) (events : List Event) :
    Consistent fails ((init routes).run env fails events) :=
  (consistent_init fails routes).run env fails events

end Controller

/-- In every state an interleaving of handler calls and reconcile steps reaches, if no `Dirty()`
has come since the last run started and that run returned nil, the store holds exactly the
desired routes of the current caches, whatever calls failed before; and every handler call that
changes a cache calls `Dirty()`. -/
theorem quiescent_routes_match_caches (env : Env) (fails : Nat → Option Error)
    (routes : ExternalIPRoutesStore) (events : List Event)
    (hq : ((Controller.init routes).run env fails events).Quiescent) :
    (∀ k, k ∈ ((Controller.init routes).run env fails events).routes.routes.keys ↔
      k ∈ desired ((Controller.init routes).run env fails events).caches) ∧
    (podHandlers env).DirtiesOnChange ∧ serviceHandlers.DirtiesOnChange ∧
      endpointsHandlers.DirtiesOnChange :=
  ⟨(Controller.consistent_run env fails routes events).finished hq.2.1 hq.1 hq.2.2,
    podHandlers_dirtiesOnChange env, serviceHandlers_dirtiesOnChange,
    endpointsHandlers_dirtiesOnChange⟩

/-- The node's proxy, `web` and its endpoints arrive, then the reconciler starts a run, makes
its five accesses and finishes. -/
def oneRun : List Event :=
  [.pod (.add proxyPod), .service (.add webService), .endpoints (.add webEndpoints),
    .reconciler, .reconciler, .reconciler, .reconciler, .reconciler, .reconciler, .reconciler]

theorem quiescent_after_one_run :
    ((Controller.init ⟨.empty, []⟩).run nodeEnv (fun _ => none) oneRun).Quiescent ∧
      ((∀ k, k ∈ ((Controller.init ⟨.empty, []⟩).run nodeEnv (fun _ => none) oneRun).routes.routes.keys ↔
        k ∈ desired ((Controller.init ⟨.empty, []⟩).run nodeEnv (fun _ => none) oneRun).caches) ∧
      (podHandlers nodeEnv).DirtiesOnChange ∧ serviceHandlers.DirtiesOnChange ∧
        endpointsHandlers.DirtiesOnChange) :=
  ⟨by decide, quiescent_routes_match_caches nodeEnv (fun _ => none) ⟨.empty, []⟩ oneRun (by decide)⟩

/-! ## The routes the notification history asks for -/


/-- The spec's proxy filter (4.2): the kube-proxy prefix and namespace, this node's address,
and ready. -/
def Env.isKubeProxy (env : Env) (pod : Pod) : Bool := env.isNodeProxy pod && env.isPodReady pod

/-- Whether the history asks for the route `(s, p)`: the latest notification about pod key `p`
added or updated a ready kube-proxy of this node, the latest about service key `s` a service
with external IPs, and the latest about the endpoints of `s` one with an address. -/
def historyRoute (env : Env) (events : List Event) (k : String × String) : Bool :=
  (latestObject Pod.key (Event.podNotifications events) k.2).any env.isKubeProxy &&
    (latestObject Service.key (Event.serviceNotifications events) k.1).any
      (fun s => !s.spec.externalIPs.isEmpty) &&
    (latestObject Endpoints.key (Event.endpointsNotifications events) k.1).any
      (fun e => e.subsets.any fun v => !v.addresses.isEmpty)

/-- Whether the latest pod about `p` and the latest service about `s`, if any, pass the early
returns of `podAdd` and `serviceAdd`. -/
def passesEarlyReturns (env : Env) (events : List Event) (k : String × String) : Bool :=
  (latestObject Pod.key (Event.podNotifications events) k.2).all env.isNodeProxy &&
    (latestObject Service.key (Event.serviceNotifications events) k.1).all Service.hasExternalIPs

/-- In a quiescent state the store holds a route exactly when the notification history asks for
it, for every route whose latest pod and service pass the early returns of `podAdd` and
`serviceAdd`. -/
theorem quiescent_routes_follow_history (env : Env) (fails : Nat → Option Error)
    (routes : ExternalIPRoutesStore) (events : List Event)
    (hq : ((Controller.init routes).run env fails events).Quiescent) (k : String × String)
    (hk : passesEarlyReturns env events k = true) :
    k ∈ ((Controller.init routes).run env fails events).routes.routes.keys ↔
      historyRoute env events k = true := by
  obtain ⟨ks, kp⟩ := k
  simp only [passesEarlyReturns, Bool.and_eq_true] at hk
  have pod_iff := (follows_deliver (podHandlers env)
    (fun n s => congrArg Prod.fst (podHandlers_onNotification env n s))
    (Event.podNotifications events)).mem_keys_iff env.isKubeProxy
      (fun pod hg => by simp [Env.isKubeProxy, hg]) kp hk.1
  have svc_iff := (follows_deliver serviceHandlers serviceHandlers_onNotification_fst
    (Event.serviceNotifications events)).mem_keys_iff (fun s => !s.spec.externalIPs.isEmpty)
      (fun svc hg => by simpa [Service.hasExternalIPs, List.isEmpty_iff] using hg) ks hk.2
  have ep_iff := (follows_deliver endpointsHandlers
    (fun n s => congrArg Prod.fst (endpointsHandlers_onNotification n s))
    (Event.endpointsNotifications events)).mem_keys_iff
      (fun e => e.subsets.any fun v => !v.addresses.isEmpty)
      (fun e _ => Bool.eq_iff_iff.2 (by simp [List.isEmpty_iff])) ks
      (by cases latestObject Endpoints.key (Event.endpointsNotifications events) ks <;> rfl)
  rw [(Controller.consistent_run env fails routes events).finished hq.2.1 hq.1 hq.2.2, mem_desired,
    Controller.run_caches]
  simp only [historyRoute, Bool.and_eq_true, pod_iff, svc_iff, ep_iff, and_assoc]

theorem routes_follow_history_after_one_run :
    ((Controller.init ⟨.empty, []⟩).run nodeEnv (fun _ => none) oneRun).Quiescent ∧
      passesEarlyReturns nodeEnv oneRun (webService.key, proxyPod.key) = true ∧
      ((webService.key, proxyPod.key) ∈
          ((Controller.init ⟨.empty, []⟩).run nodeEnv (fun _ => none) oneRun).routes.routes.keys ↔
        historyRoute nodeEnv oneRun (webService.key, proxyPod.key) = true) :=
  ⟨by decide, by decide, quiescent_routes_follow_history nodeEnv (fun _ => none) ⟨.empty, []⟩ oneRun
    (by decide) _ (by decide)⟩

/-- After `oneRun`, `web` loses its external IPs. -/
def ipsRemovedAfterOneRun : List Event :=
  oneRun ++ [.service (.update webService webServiceWithoutIPs)]

/-- The update leaves `web` cached and raises no `Dirty()`, so the controller settles with the
route announced although the history, which asked for it before, no longer does. -/
theorem stale_route_after_ips_removed :
    historyRoute nodeEnv oneRun (webService.key, proxyPod.key) = true ∧
    ((Controller.init ⟨.empty, []⟩).run nodeEnv (fun _ => none) ipsRemovedAfterOneRun).Quiescent ∧
      (webService.key, proxyPod.key) ∈
        ((Controller.init ⟨.empty, []⟩).run nodeEnv (fun _ => none) ipsRemovedAfterOneRun).routes.routes.keys ∧
      historyRoute nodeEnv ipsRemovedAfterOneRun (webService.key, proxyPod.key) = false := by
  decide

end KubeParrot
