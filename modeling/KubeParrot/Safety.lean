import KubeParrot.Controller

/-!
# What every interleaving guarantees

The handlers and the reconciler's moves interleave freely, and a run reads the caches at many
separate points while the handlers keep changing them. Whatever the interleaving and whatever
the store's calls return:

* the store is only ever asked to add a route for a service with external IPs and a ready
  kube-proxy of this node, and every route it holds beyond those it started with names such a
  pair (`adds_only_eligible`), because a run only adds what it read from the caches and the
  caches only hold such objects;
* while no `Dirty()` is pending, every move of the reconciler keeps every desired route, adds
  none that is not desired, and makes only calls that delete an undesired route or add a desired
  one, for the caches as they are at that moment (`moves_toward_desired_unless_dirty`): a move
  that works against the current caches always has a rerun scheduled;
* the routes of a quiescent state depend only on each informer's notification history, not on
  how handler calls and reconciler moves were interleaved, which calls failed, or what the store
  held at the start (`quiescent_routes_schedule_independent`);
* over a store that rejects every call, the controller comes to rest only when nothing is wanted
  and the store holds nothing (`quiescent_under_failing_store`), since every run calls `Add` for
  every wanted route, held or not.

`Controller.Guarded` is the invariant behind the first two: what a run in progress holds is
eligible, and while no `Dirty()` is pending it is what the caches hold. `Controller.Returned`, behind
the last, says that a resting store is what a whole run over the current caches returned.
-/
namespace KubeParrot

namespace Pc

/-- Every proxy and service that a run in progress has read from the caches and still holds
satisfies `pp` and `ps`. -/
def Holds (pp : Pod → Prop) (ps : Service → Prop) : Pc → Prop
  | listServices proxy proxies => pp proxy ∧ ∀ p ∈ proxies, pp p
  | convergeGet service services proxy proxies | convergeAdd service services proxy proxies =>
    ps service ∧ (∀ s ∈ services, ps s) ∧ pp proxy ∧ ∀ p ∈ proxies, pp p
  | _ => True

/-- What the check before the next call found: the route about to be deleted failed a check,
and the service about to be added has endpoints. -/
def Checked (c : Caches) : Pc → Prop
  | pruneDelete _ route _ => route.key ∉ desired c
  | convergeAdd service _ _ _ => service.key ∈ c.endpoints.keys
  | _ => True

/-- The store call the next step makes. -/
def call : Pc → List Call
  | pruneDelete _ route _ => [.delete route]
  | convergeAdd service _ proxy _ => [.add service proxy]
  | _ => []

section Holds

variable {pp : Pod → Prop} {ps : Service → Prop}

theorem holds_nextRoute (routes : List Route) : (nextRoute routes).Holds pp ps := by
  cases routes <;> trivial

theorem holds_nextCheck (checks : List Check) (route : Route) (routes : List Route) :
    (nextCheck checks route routes).Holds pp ps := by
  cases checks
  · exact holds_nextRoute routes
  · trivial

theorem holds_nextProxy {proxies : List Pod} (h : ∀ p ∈ proxies, pp p) :
    (nextProxy proxies).Holds pp ps := by
  cases proxies with
  | nil => trivial
  | cons proxy proxies =>
    exact ⟨h proxy (List.mem_cons_self _ _), fun p hp => h p (List.mem_cons_of_mem _ hp)⟩

theorem holds_nextService {services : List Service} {proxy : Pod} {proxies : List Pod}
    (hs : ∀ s ∈ services, ps s) (hp : pp proxy) (hps : ∀ p ∈ proxies, pp p) :
    (nextService services proxy proxies).Holds pp ps := by
  cases services with
  | nil => exact holds_nextProxy hps
  | cons service services =>
    exact ⟨hs service (List.mem_cons_self _ _), fun s h => hs s (List.mem_cons_of_mem _ h), hp, hps⟩

/-- A call to add names a service and a proxy the run holds. -/
theorem Holds.of_add_mem_call {pc : Pc} (h : pc.Holds pp ps) {service : Service} {proxy : Pod}
    (hc : .add service proxy ∈ pc.call) : ps service ∧ pp proxy := by
  cases pc <;> simp [call] at hc
  obtain ⟨rfl, rfl⟩ := hc
  exact ⟨h.1, h.2.2.1⟩

end Holds

variable (fails : Nat → Option Error) (c : Caches)

theorem step_pruneDelete_snd (checks : List Check) (route : Route) (routes : List Route)
    (st : ExternalIPRoutesStore) :
    (step fails c (pruneDelete checks route routes) st).2 = (st.delete fails route).1 := by
  rcases hd : st.delete fails route with ⟨st', _ | err⟩ <;> simp only [step, hd]

theorem step_convergeAdd_snd (service : Service) (services : List Service) (proxy : Pod)
    (proxies : List Pod) (st : ExternalIPRoutesStore) :
    (step fails c (convergeAdd service services proxy proxies) st).2 =
      (st.add fails service proxy).1 := by
  rcases ha : st.add fails service proxy with ⟨st', _ | err⟩ <;> simp only [step, ha]

/-- A step that makes no call leaves the store as it was. -/
theorem step_snd_of_call_nil {pc : Pc} (h : pc.call = []) (st : ExternalIPRoutesStore) :
    (step fails c pc st).2 = st := by
  cases pc <;> simp [call] at h <;> simp only [step]

/-- The calls a step makes are `pc.call`. -/
theorem step_calls (pc : Pc) (st : ExternalIPRoutesStore) :
    (step fails c pc st).2.calls = st.calls ++ pc.call := by
  by_cases h : pc.call = []
  · rw [step_snd_of_call_nil fails c h, h, List.append_nil]
  · cases pc <;> simp [call] at h ⊢
    · simp [step_pruneDelete_snd]
    · simp [step_convergeAdd_snd]

/-- A step adds a route to the store only by its call to add it. -/
theorem mem_step_items {pc : Pc} {st : ExternalIPRoutesStore} {route : Route}
    (hr : route ∈ (step fails c pc st).2.routes.items) :
    route ∈ st.routes.items ∨ .add route.service route.proxy ∈ pc.call := by
  by_cases h : pc.call = []
  · rw [step_snd_of_call_nil fails c h] at hr
    exact .inl hr
  · cases pc <;> simp [call] at h
    next checks r routes =>
      rw [step_pruneDelete_snd] at hr
      exact .inl (ExternalIPRoutesStore.mem_items_delete hr)
    next service services proxy proxies =>
      rw [step_convergeAdd_snd] at hr
      rcases ExternalIPRoutesStore.mem_items_add hr with hr | rfl
      · exact .inl hr
      · exact .inr (List.mem_singleton_self _)

/-- A step keeps what the run holds within `pp` and `ps` when every cached proxy and service
satisfies them. -/
theorem holds_step {pp : Pod → Prop} {ps : Service → Prop} (hcp : ∀ p ∈ c.proxies.items, pp p)
    (hcs : ∀ s ∈ c.services.items, ps s) {pc : Pc} (h : pc.Holds pp ps)
    (st : ExternalIPRoutesStore) : (step fails c pc st).1.Holds pp ps := by
  cases pc with
  | listRoutes => exact holds_nextRoute _
  | pruneGet check checks route routes =>
    simp only [step]
    split
    · exact holds_nextCheck checks route routes
    · trivial
  | pruneDelete checks route routes =>
    rcases hd : st.delete fails route with ⟨st', _ | err⟩ <;> simp only [step, hd]
    · exact holds_nextCheck checks route routes
    · trivial
  | listProxies => exact holds_nextProxy hcp
  | listServices proxy proxies => exact holds_nextService hcs h.1 h.2
  | convergeGet service services proxy proxies =>
    simp only [step]
    split
    · exact h
    · exact holds_nextService h.2.1 h.2.2.1 h.2.2.2
  | convergeAdd service services proxy proxies =>
    rcases ha : st.add fails service proxy with ⟨st', _ | err⟩ <;> simp only [step, ha]
    · exact holds_nextService h.2.1 h.2.2.1 h.2.2.2
    · trivial
  | done result => trivial

theorem checked_nextRoute (routes : List Route) : (nextRoute routes).Checked c := by
  cases routes <;> trivial

theorem checked_nextCheck (checks : List Check) (route : Route) (routes : List Route) :
    (nextCheck checks route routes).Checked c := by
  cases checks
  · exact checked_nextRoute c routes
  · trivial

theorem checked_nextProxy (proxies : List Pod) : (nextProxy proxies).Checked c := by
  cases proxies <;> trivial

theorem checked_nextService (services : List Service) (proxy : Pod) (proxies : List Pod) :
    (nextService services proxy proxies).Checked c := by
  cases services
  · exact checked_nextProxy c proxies
  · trivial

/-- Every step lands where the next call, if any, has been checked against `c`. -/
theorem step_checked (pc : Pc) (st : ExternalIPRoutesStore) : (step fails c pc st).1.Checked c := by
  cases pc with
  | pruneGet check checks route routes =>
    simp only [step]
    split
    · exact checked_nextCheck c checks route routes
    · next hok => exact not_desired_of_not_ok (Bool.eq_false_iff.2 hok)
  | pruneDelete checks route routes =>
    rcases hd : st.delete fails route with ⟨st', _ | err⟩ <;> simp only [step, hd]
    · exact checked_nextCheck c checks route routes
    · trivial
  | convergeGet service services proxy proxies =>
    simp only [step]
    split
    · next he => exact Store.contains_eq_true.1 he
    · exact checked_nextService c services proxy proxies
  | convergeAdd service services proxy proxies =>
    rcases ha : st.add fails service proxy with ⟨st', _ | err⟩ <;> simp only [step, ha]
    · exact checked_nextService c services proxy proxies
    · trivial
  | listRoutes => exact checked_nextRoute c _
  | listProxies => exact checked_nextProxy c _
  | listServices proxy proxies => exact checked_nextService c _ proxy proxies
  | done result => trivial

/-- A step of a run that holds only what the caches `c` hold, and has checked its next call
against them, moves the store toward the routes `c` wants. -/
theorem towards_step {pc : Pc} (h : pc.Holds (· ∈ c.proxies.items) (· ∈ c.services.items))
    (hc : pc.Checked c) (st : ExternalIPRoutesStore) : Towards c st (step fails c pc st).2 := by
  by_cases hcall : pc.call = []
  · rw [step_snd_of_call_nil fails c hcall]
    exact .refl st
  · cases pc <;> simp [call] at hcall
    next checks route routes =>
      rw [step_pruneDelete_snd]
      exact .delete hc
    next service services proxy proxies =>
      rw [step_convergeAdd_snd]
      exact .add (mem_desired_iff_exists.2 ⟨proxy, h.2.2.1, service, h.1, hc, rfl⟩)

end Pc

namespace Controller

variable (env : Env) (fails : Nat → Option Error)

/-- What one move of the reconciler does: start a run if it is idle and a `Dirty()` is pending,
finish a run that has returned, or make the next access of the run in progress. -/
theorem step_reconciler_cases (st : Controller) :
    (st.running = none ∧ st.step env fails .reconciler =
      if st.dirty then { st with dirty := false, running := some .listRoutes } else st) ∨
    (∃ result, st.running = some (.done result) ∧ st.step env fails .reconciler =
      { st with dirty := st.dirty || result.isSome, running := none, lastResult := some result }) ∨
    ∃ pc, st.running = some pc ∧ st.step env fails .reconciler =
      { st with running := some (pc.step fails st.caches st.routes).1,
                routes := (pc.step fails st.caches st.routes).2 } := by
  rcases hr : st.running with _ | pc
  · exact .inl ⟨rfl, step_reconciler_of_idle env fails hr⟩
  · by_cases hdone : ∃ result, pc = .done result
    · obtain ⟨result, rfl⟩ := hdone
      exact .inr (.inl ⟨result, rfl, step_reconciler_of_done env fails hr⟩)
    · exact .inr (.inr ⟨pc, rfl,
        step_reconciler_of_running env fails hr fun result h => hdone ⟨result, h⟩⟩)

/-- A handler call touches neither the run in progress nor the store. -/
theorem step_handler_running_routes (st : Controller) {e : Event} (he : e ≠ .reconciler) :
    (st.step env fails e).running = st.running ∧ (st.step env fails e).routes = st.routes := by
  cases e
  case reconciler => exact absurd rfl he
  all_goals exact ⟨rfl, rfl⟩

/-- In every reachable state the proxies cache holds only ready kube-proxies of this node and the
services cache only services with external IPs. -/
theorem run_cached_eligible (routes : ExternalIPRoutesStore) (events : List Event) :
    (∀ p ∈ ((init routes).run env fails events).caches.proxies.items, env.isKubeProxy p = true) ∧
      ∀ s ∈ ((init routes).run env fails events).caches.services.items,
        s.hasExternalIPs = true := by
  rw [run_caches]
  refine ⟨fun p hp => ?_, fun s hs => ?_⟩
  · obtain ⟨hg, hr, -⟩ := (follows_deliver (podHandlers env)
      (fun n s => congrArg Prod.fst (podHandlers_onNotification env n s)) _).stored p hp
    simp [Env.isKubeProxy, hg, hr]
  · exact ((follows_deliver serviceHandlers serviceHandlers_onNotification_fst _).stored s hs).1

/-- The invariant of the interleaved controller started over the store `routes₀`: a run in
progress holds only eligible proxies and services, and while no `Dirty()` is pending it holds only
what the caches hold and has checked its next call against them; every add asked of the store
since the start, and every route it holds that it did not hold then, names an eligible pair. -/
structure Guarded (routes₀ : ExternalIPRoutesStore) (st : Controller) : Prop where
  eligible : ∀ pc, st.running = some pc →
    pc.Holds (fun p => env.isKubeProxy p = true) (fun s => s.hasExternalIPs = true)
  current : ∀ pc, st.running = some pc → st.dirty = false →
    pc.Holds (· ∈ st.caches.proxies.items) (· ∈ st.caches.services.items) ∧ pc.Checked st.caches
  calls : ∃ calls, st.routes.calls = routes₀.calls ++ calls ∧
    ∀ s p, .add s p ∈ calls → s.hasExternalIPs = true ∧ env.isKubeProxy p = true
  stored : ∀ route ∈ st.routes.routes.items, route ∈ routes₀.routes.items ∨
    route.service.hasExternalIPs = true ∧ env.isKubeProxy route.proxy = true

theorem guarded_init (routes₀ : ExternalIPRoutesStore) : Guarded env routes₀ (init routes₀) :=
  ⟨fun _ h => by simp [init] at h, fun _ h => by simp [init] at h, ⟨[], by simp [init], by simp⟩,
    fun _ h => .inl h⟩

/-- A move of the reconciler keeps `Guarded` while the caches hold only eligible objects. -/
theorem guarded_step_reconciler {routes₀ : ExternalIPRoutesStore} {st : Controller}
    (h : Guarded env routes₀ st)
    (hcp : ∀ p ∈ st.caches.proxies.items, env.isKubeProxy p = true)
    (hcs : ∀ s ∈ st.caches.services.items, s.hasExternalIPs = true) :
    Guarded env routes₀ (st.step env fails .reconciler) := by
  rcases step_reconciler_cases env fails st with ⟨-, hs⟩ | ⟨result, -, hs⟩ | ⟨pc, hr, hs⟩ <;>
    rw [hs]
  · split
    · refine ⟨fun pc hpc => ?_, fun pc hpc _ => ?_, h.calls, h.stored⟩ <;> cases hpc
      · trivial
      · exact ⟨trivial, trivial⟩
    · exact h
  · exact ⟨fun _ h => by simp at h, fun _ h => by simp at h, h.calls, h.stored⟩
  · have hel := h.eligible pc hr
    obtain ⟨calls, hcalls, hadds⟩ := h.calls
    refine ⟨fun pc' hpc => ?_, fun pc' hpc hd => ?_,
      ⟨calls ++ pc.call, by simp [Pc.step_calls, hcalls], fun s p hsp => ?_⟩, fun route hin => ?_⟩
    · cases hpc
      exact Pc.holds_step fails _ hcp hcs hel _
    · cases hpc
      exact ⟨Pc.holds_step fails _ (fun _ => id) (fun _ => id) (h.current pc hr hd).1 _,
        Pc.step_checked fails _ _ _⟩
    · rcases List.mem_append.1 hsp with hsp | hsp
      · exact hadds s p hsp
      · exact hel.of_add_mem_call hsp
    · rcases Pc.mem_step_items fails _ hin with hin | hin
      · exact h.stored route hin
      · exact .inr (hel.of_add_mem_call hin)

theorem guarded_step {routes₀ : ExternalIPRoutesStore} {st : Controller}
    (h : Guarded env routes₀ st)
    (hcp : ∀ p ∈ st.caches.proxies.items, env.isKubeProxy p = true)
    (hcs : ∀ s ∈ st.caches.services.items, s.hasExternalIPs = true) (e : Event) :
    Guarded env routes₀ (st.step env fails e) := by
  by_cases he : e = .reconciler
  · subst he
    exact guarded_step_reconciler env fails h hcp hcs
  · obtain ⟨hrun, hroutes⟩ := step_handler_running_routes env fails st he
    rcases step_handler env fails st he with hd | hs
    · exact ⟨fun pc hpc => h.eligible pc (hrun ▸ hpc), fun _ _ hd' => by simp [hd] at hd',
        hroutes ▸ h.calls, hroutes ▸ h.stored⟩
    · rw [hs]
      exact h

/-- While the reconciler rests after a run that returned nil, with no `Dirty()` since that run
started, the store is what a whole run over the current caches returned. -/
def Returned (st : Controller) : Prop :=
  st.running = none → st.dirty = false → st.lastResult = some none →
    ∃ st₀, reconcile fails st.caches st₀ = (st.routes, none)

theorem returned_step {st : Controller} (hc : Consistent fails st) (h : Returned fails st)
    (e : Event) : Returned fails (st.step env fails e) := by
  by_cases he : e = .reconciler
  · subst he
    rcases step_reconciler_cases env fails st with ⟨-, hs⟩ | ⟨result, hr, hs⟩ | ⟨pc, hr, hs⟩ <;>
      rw [hs]
    · split
      · exact fun h => by simp at h
      · exact h
    · intro _ hd hlast
      simp only [Bool.or_eq_false_iff, Option.some.injEq] at hd hlast
      obtain ⟨st₀, h₀⟩ := hc.running _ hr hd.1
      exact ⟨st₀, h₀.symm.trans (by subst hlast; rfl)⟩
    · exact fun h => by simp at h
  · rcases step_handler env fails st he with hd | hs
    · exact fun _ hd' => by simp [hd] at hd'
    · rw [hs]
      exact h

theorem returned_run (routes : ExternalIPRoutesStore) (events : List Event) :
    Returned fails ((init routes).run env fails events) := by
  induction events using List.reverseRecOn with
  | nil => exact fun _ _ h => by simp [init] at h
  | append_singleton events e ih =>
    simpa using returned_step env fails (consistent_run env fails routes events) ih e

theorem guarded_run (routes₀ : ExternalIPRoutesStore) (events : List Event) :
    Guarded env routes₀ ((init routes₀).run env fails events) := by
  induction events using List.reverseRecOn with
  | nil => exact guarded_init env routes₀
  | append_singleton events e ih =>
    obtain ⟨hcp, hcs⟩ := run_cached_eligible env fails routes₀ events
    simpa using guarded_step env fails ih hcp hcs e

end Controller

/-- In every interleaving and whatever the store's calls return, the controller asks the store to
add a route only for a service with external IPs and a ready kube-proxy of this node, and every
route the store holds that it did not hold at the start names such a service and proxy. -/
theorem adds_only_eligible (env : Env) (fails : Nat → Option Error)
    (routes : ExternalIPRoutesStore) (events : List Event) :
    (∀ s p, .add s p ∈
        ((Controller.init routes).run env fails events).routes.calls.drop routes.calls.length →
      s.spec.externalIPs ≠ [] ∧ env.isKubeProxy p = true) ∧
    ∀ route ∈ ((Controller.init routes).run env fails events).routes.routes.items,
      route ∈ routes.routes.items ∨
        route.service.spec.externalIPs ≠ [] ∧ env.isKubeProxy route.proxy = true := by
  have h := Controller.guarded_run env fails routes events
  have hips (s : Service) : s.hasExternalIPs = true ↔ s.spec.externalIPs ≠ [] := by
    simp [Service.hasExternalIPs]
  obtain ⟨calls, hcalls, hadds⟩ := h.calls
  refine ⟨fun s p hsp => ?_, fun route hin => ?_⟩
  · rw [hcalls, List.drop_left] at hsp
    obtain ⟨hs, hp⟩ := hadds s p hsp
    exact ⟨(hips s).1 hs, hp⟩
  · rcases h.stored route hin with hin | ⟨hs, hp⟩
    · exact .inl hin
    · exact .inr ⟨(hips _).1 hs, hp⟩

/-- In every interleaving, while no `Dirty()` is pending, every move keeps every route the caches
want at that moment, adds none they do not want, and makes only calls that delete a route they do
not want or add one they want, whatever the store's calls return. -/
theorem moves_toward_desired_unless_dirty (env : Env) (fails : Nat → Option Error)
    (routes : ExternalIPRoutesStore) (events : List Event) (e : Event)
    (hd : ((Controller.init routes).run env fails events).dirty = false) :
    Towards ((Controller.init routes).run env fails events).caches
      ((Controller.init routes).run env fails events).routes
      (((Controller.init routes).run env fails events).step env fails e).routes := by
  have h := Controller.guarded_run env fails routes events
  by_cases he : e = .reconciler
  · subst he
    rcases Controller.step_reconciler_cases env fails _ with ⟨-, hs⟩ | ⟨result, -, hs⟩ |
      ⟨pc, hr, hs⟩ <;> rw [hs]
    · split <;> exact .refl _
    · exact .refl _
    · exact Pc.towards_step fails _ (h.current pc hr hd).1 (h.current pc hr hd).2 _
  · rw [(Controller.step_handler_running_routes env fails _ he).2]
    exact .refl _

/-- The proxy, `web` and its endpoints have arrived and a run waits before its call to add the
route. -/
theorem moves_toward_desired_at_add :
    ((Controller.init ⟨.empty, []⟩).run nodeEnv (fun _ => none) (oneRun.take 8)).dirty = false ∧
      Towards ((Controller.init ⟨.empty, []⟩).run nodeEnv (fun _ => none) (oneRun.take 8)).caches
        ((Controller.init ⟨.empty, []⟩).run nodeEnv (fun _ => none) (oneRun.take 8)).routes
        (((Controller.init ⟨.empty, []⟩).run nodeEnv (fun _ => none) (oneRun.take 8)).step
          nodeEnv (fun _ => none) .reconciler).routes :=
  ⟨by decide, moves_toward_desired_unless_dirty nodeEnv (fun _ => none) ⟨.empty, []⟩
    (oneRun.take 8) .reconciler (by decide)⟩

/-- Spec 9, level-triggered: two quiescent states reached by interleavings that deliver the same
notifications to each informer's handlers hold the same routes, whatever the store held at the
start, whichever calls failed on the way, and however the handler calls and the reconciler's
moves were interleaved. -/
theorem quiescent_routes_schedule_independent (env : Env) (fails fails' : Nat → Option Error)
    (routes routes' : ExternalIPRoutesStore) (events events' : List Event)
    (hpod : Event.podNotifications events = Event.podNotifications events')
    (hsvc : Event.serviceNotifications events = Event.serviceNotifications events')
    (hep : Event.endpointsNotifications events = Event.endpointsNotifications events')
    (hq : ((Controller.init routes).run env fails events).Quiescent)
    (hq' : ((Controller.init routes').run env fails' events').Quiescent) (k : String × String) :
    k ∈ ((Controller.init routes).run env fails events).routes.routes.keys ↔
      k ∈ ((Controller.init routes').run env fails' events').routes.routes.keys := by
  rw [(Controller.consistent_run env fails routes events).finished hq.2.1 hq.1 hq.2.2,
    (Controller.consistent_run env fails' routes' events').finished hq'.2.1 hq'.1 hq'.2.2,
    Controller.run_caches, Controller.run_caches, hpod, hsvc, hep]

/-- The first call the store takes fails; every later one succeeds. -/
def failsFirstCall : Nat → Option Error := fun i => if i = 0 then some "unavailable" else none

/-- The arrivals of `oneRun` in another order, with reconciler moves among them: a run starts
once the endpoints arrive, the proxy and `web` arrive during it, and its first call fails. -/
def arrivalsInterleaved : List Event :=
  [.endpoints (.add webEndpoints), .reconciler, .pod (.add proxyPod), .reconciler, .reconciler,
    .service (.add webService)] ++ List.replicate 17 .reconciler

theorem same_routes_after_interleaved_arrivals :
    Event.podNotifications oneRun = Event.podNotifications arrivalsInterleaved ∧
      Event.serviceNotifications oneRun = Event.serviceNotifications arrivalsInterleaved ∧
      Event.endpointsNotifications oneRun = Event.endpointsNotifications arrivalsInterleaved ∧
      ((Controller.init ⟨.empty, []⟩).run nodeEnv (fun _ => none) oneRun).Quiescent ∧
      ((Controller.init announcedWeb).run nodeEnv failsFirstCall arrivalsInterleaved).Quiescent ∧
      ∀ k, k ∈ ((Controller.init ⟨.empty, []⟩).run nodeEnv (fun _ => none)
          oneRun).routes.routes.keys ↔
        k ∈ ((Controller.init announcedWeb).run nodeEnv failsFirstCall
          arrivalsInterleaved).routes.routes.keys :=
  ⟨by decide, by decide, by decide, by decide, by decide,
    quiescent_routes_schedule_independent nodeEnv _ _ _ _ _ _ (by decide) (by decide) (by decide)
      (by decide) (by decide)⟩

/-- Spec 7: over a store that rejects every call, the controller comes to rest only when no route
is wanted and the store holds none. Every run calls `Add` for every wanted route, even one the
store already holds, so a single wanted route keeps the reconciler retrying for ever. -/
theorem quiescent_under_failing_store (env : Env) (fails : Nat → Option Error)
    (routes : ExternalIPRoutesStore) (events : List Event) (hfail : ∀ i, fails i ≠ none)
    (hq : ((Controller.init routes).run env fails events).Quiescent) :
    desired ((Controller.init routes).run env fails events).caches = [] ∧
      ((Controller.init routes).run env fails events).routes.routes.keys = [] := by
  obtain ⟨st₀, h₀⟩ := Controller.returned_run env fails routes events hq.2.1 hq.1 hq.2.2
  have hnone := (reconcile_ok_of_failing hfail _ (congrArg Prod.snd h₀)).1
  refine ⟨hnone, List.eq_nil_iff_forall_not_mem.2 fun k hk => ?_⟩
  simpa [hnone] using (reconcile_keys h₀ k).1 hk

/-- `web` arrives without endpoints, and a run over a store that fails every call has nothing to
do. -/
def serviceOnlyRun : List Event :=
  [.service (.add webService), .reconciler, .reconciler, .reconciler, .reconciler]

theorem failing_store_rests_when_nothing_wanted :
    (∀ i, (fun _ => some "unavailable" : Nat → Option Error) i ≠ none) ∧
      ((Controller.init ⟨.empty, []⟩).run nodeEnv (fun _ => some "unavailable")
        serviceOnlyRun).Quiescent ∧
      desired ((Controller.init ⟨.empty, []⟩).run nodeEnv (fun _ => some "unavailable")
        serviceOnlyRun).caches = [] ∧
      ((Controller.init ⟨.empty, []⟩).run nodeEnv (fun _ => some "unavailable")
        serviceOnlyRun).routes.routes.keys = [] :=
  ⟨fun _ => Option.some_ne_none _, by decide,
    quiescent_under_failing_store nodeEnv _ ⟨.empty, []⟩ serviceOnlyRun
      (fun _ => Option.some_ne_none _) (by decide)⟩

end KubeParrot
