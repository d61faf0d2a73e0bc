import KubeParrot.Routes

/-!
# `ExternalServicesController.reconcile`

The prune pass walks the routes `routes.List()` returned and makes three independent checks
on each (proxy cached, service cached, endpoints cached), deleting the route after every check
that fails. The converge pass adds a route for every cached proxy and cached service whose
endpoints are cached. Any store error ends the run with that error. Here the caches are a
fixed snapshot; `Machine` interleaves the same steps with cache changes.

The code calls `c.services.List()` once per proxy, over a map whose order may change from one
call to the next; `reconcileListed` takes what each call returned, and `reconcile` is the run
whose every listing is the store's own order (`reconcile_eq_reconcileListed`). What a run leaves
(`reconcile_keys`, `Towards`) does not depend on that order. When no call fails, a run deletes
exactly the listed routes that are not desired and adds each desired route exactly once, in
whatever order the listings come (`reconcile_calls_each_once`); after a proxy leaves the cache
it deletes that proxy's routes once each, in the order of the single `routes.List()`
(`prune_after_proxy_removed`). A run over a store that fails every call returns nil only when
there is nothing to do (`reconcile_ok_of_failing`).
-/
namespace KubeParrot

/-- The three caches of `ExternalServicesController`. -/
structure Caches where
  services : Store Service.key
  endpoints : Store Endpoints.key
  proxies : Store Pod.key

/-- The routes the caches ask for: `(key s, key p)` for every cached proxy `p` and cached service
`s` whose endpoints are cached. -/
def desired (c : Caches) : List (String × String) :=
  c.proxies.items.flatMap fun p => c.services.items.filterMap fun s =>
    if c.endpoints.contains s.key then some (s.key, p.key) else none

theorem mem_desired {c : Caches} {k : String × String} :
    k ∈ desired c ↔ k.2 ∈ c.proxies.keys ∧ k.1 ∈ c.services.keys ∧ k.1 ∈ c.endpoints.keys := by
  obtain ⟨ks, kp⟩ := k
  simp only [desired, List.mem_flatMap, List.mem_filterMap, Option.ite_none_right_eq_some,
    Option.some.injEq, Prod.mk.injEq, Store.contains_eq_true, Store.mem_keys]
  constructor
  · rintro ⟨p, hp, s, hs, he, rfl, rfl⟩
    exact ⟨⟨p, hp, rfl⟩, ⟨s, hs, rfl⟩, he⟩
  · rintro ⟨⟨p, hp, rfl⟩, ⟨s, hs, rfl⟩, he⟩
    exact ⟨p, hp, s, hs, he, rfl, rfl⟩

/-- The outcome of a run so far: the store and the error it stopped at, if any. -/
abbrev Outcome := ExternalIPRoutesStore × Option Error

/-- `if err != nil { return err }` after a store call, then the rest of the run. -/
def andThen (r : Outcome) (k : ExternalIPRoutesStore → Outcome) : Outcome :=
  match r with
  | (st, none) => k st
  | (st, some err) => (st, some err)

@[simp] theorem andThen_ok (st : ExternalIPRoutesStore) (k : ExternalIPRoutesStore → Outcome) :
    andThen (st, none) k = k st := rfl

@[simp] theorem andThen_err (st : ExternalIPRoutesStore) (err : Error)
    (k : ExternalIPRoutesStore → Outcome) : andThen (st, some err) k = (st, some err) := rfl

theorem andThen_assoc (r : Outcome) (k k' : ExternalIPRoutesStore → Outcome) :
    andThen (andThen r k) k' = andThen r fun st => andThen (k st) k' := by
  obtain ⟨st, _ | err⟩ := r <;> rfl

theorem andThen_of_ok {r : Outcome} (h : r.2 = none) (k : ExternalIPRoutesStore → Outcome) :
    andThen r k = k r.1 := by
  obtain ⟨st, _ | err⟩ := r
  · rfl
  · cases h

/-- A sequence that returns nil had its first part return nil. -/
theorem andThen_ok_left {r : Outcome} {k : ExternalIPRoutesStore → Outcome}
    (h : (andThen r k).2 = none) : r.2 = none := by
  obtain ⟨st, _ | err⟩ := r
  · rfl
  · simp at h

theorem andThen_eq_ok {r : Outcome} {k : ExternalIPRoutesStore → Outcome}
    {st' : ExternalIPRoutesStore} :
    andThen r k = (st', none) ↔ ∃ st, r = (st, none) ∧ k st = (st', none) := by
  obtain ⟨st, _ | err⟩ := r <;> simp

/-- The checks of the prune loop's body. -/
inductive Check where
  | proxy
  | service
  | endpoints
  deriving DecidableEq, Repr

/-- The `ok` of `c.proxies.Get(route.Proxy)`, `c.services.Get(route.Service)` and
`c.endpoints.Get(route.Service)`. -/
def Check.ok (c : Caches) (route : Route) : Check → Bool
  | .proxy => c.proxies.contains route.proxy.key
  | .service => c.services.contains route.service.key
  | .endpoints => c.endpoints.contains route.service.key

/-- The prune loop's checks, in the code's order. -/
def pruneChecks : List Check := [.proxy, .service, .endpoints]

/-- A route passes every check exactly when its key is desired. -/
theorem all_ok_iff_desired (c : Caches) (route : Route) :
    (∀ check ∈ pruneChecks, check.ok c route = true) ↔ route.key ∈ desired c := by
  simp [pruneChecks, Check.ok, mem_desired, Route.key, and_assoc]

section Reconcile

variable (fails : Nat → Option Error) (c : Caches)

/-- The prune loop's body for `route`, from the check `checks` starts at: every failed check
deletes the route, and the checks do not skip one another. -/
def pruneRoute (route : Route) : List Check → ExternalIPRoutesStore → Outcome
  | [], st => (st, none)
  | check :: checks, st =>
    andThen (if check.ok c route then (st, none) else st.delete fails route)
      (pruneRoute route checks)

def prune : List Route → ExternalIPRoutesStore → Outcome
  | [], st => (st, none)
  | route :: routes, st => andThen (pruneRoute fails c route pruneChecks st) (prune routes)

/-- The converge pass's inner loop over `c.services.List()` for one proxy. -/
def convergeProxy (proxy : Pod) : List Service → ExternalIPRoutesStore → Outcome
  | [], st => (st, none)
  | service :: services, st =>
    andThen (if c.endpoints.contains service.key then st.add fails service proxy else (st, none))
      (convergeProxy proxy services)

/-- The converge pass's outer loop over `c.proxies.List()`, listing the services anew for each
proxy. -/
def converge : List Pod → ExternalIPRoutesStore → Outcome
  | [], st => (st, none)
  | proxy :: proxies, st =>
    andThen (convergeProxy fails c proxy c.services.items st) (converge proxies)

def reconcile (st : ExternalIPRoutesStore) : Outcome :=
  andThen (prune fails c st.list st) (converge fails c c.proxies.items)

/-- The converge pass with what each proxy's `c.services.List()` returned: `listing proxy`, in
whatever order the store's map gave it on that call. `converge` lists the services in the
store's one order for every proxy. -/
def convergeListed (listing : Pod → List Service) : List Pod → ExternalIPRoutesStore → Outcome
  | [], st => (st, none)
  | proxy :: proxies, st =>
    andThen (convergeProxy fails c proxy (listing proxy) st) (convergeListed listing proxies)

/-- `reconcile` with each proxy's services listed by `listing`. -/
def reconcileListed (listing : Pod → List Service) (st : ExternalIPRoutesStore) : Outcome :=
  andThen (prune fails c st.list st) (convergeListed fails c listing c.proxies.items)

theorem converge_eq_convergeListed (proxies : List Pod) :
    converge fails c proxies = convergeListed fails c (fun _ => c.services.items) proxies := by
  induction proxies with
  | nil => rfl
  | cons proxy proxies ih => funext st; simp only [converge, convergeListed, ih]

/-- `reconcile` is the run whose every listing of the services is the store's own order. -/
theorem reconcile_eq_reconcileListed (st : ExternalIPRoutesStore) :
    reconcile fails c st = reconcileListed fails c (fun _ => c.services.items) st := by
  simp only [reconcile, reconcileListed, converge_eq_convergeListed]

end Reconcile

theorem mem_desired_iff_exists {c : Caches} {k : String × String} :
    k ∈ desired c ↔ ∃ p ∈ c.proxies.items, ∃ s ∈ c.services.items,
      s.key ∈ c.endpoints.keys ∧ k = (s.key, p.key) := by
  simp only [desired, List.mem_flatMap, List.mem_filterMap, Option.ite_none_right_eq_some,
    Option.some.injEq, Store.contains_eq_true]
  exact exists_congr fun p => and_congr_right fun _ => exists_congr fun s =>
    and_congr_right fun _ => and_congr_right fun _ => eq_comm

theorem not_desired_of_not_ok {c : Caches} {route : Route} {check : Check}
    (h : check.ok c route = false) : route.key ∉ desired c := by
  rw [← all_ok_iff_desired]
  exact fun hall => by cases check <;> simp_all [pruneChecks]

/-! ## A run with no failed call -/

section Success

variable {fails : Nat → Option Error} {c : Caches}

theorem pruneRoute_keys {route : Route} {checks : List Check} {st st' : ExternalIPRoutesStore}
    (h : pruneRoute fails c route checks st = (st', none)) (k : String × String) :
    k ∈ st'.routes.keys ↔
      k ∈ st.routes.keys ∧ (k ≠ route.key ∨ ∀ check ∈ checks, check.ok c route = true) := by
  induction checks generalizing st with
  | nil => cases h; simp
  | cons check checks ih =>
    obtain ⟨st₁, h₁, h₂⟩ := andThen_eq_ok.1 h
    rw [ih h₂]
    split at h₁
    · cases h₁; simp [*]
    · rw [ExternalIPRoutesStore.mem_keys_of_delete_ok h₁]
      simp_all

theorem prune_keys {routes : List Route} {st st' : ExternalIPRoutesStore}
    (h : prune fails c routes st = (st', none)) (k : String × String) :
    k ∈ st'.routes.keys ↔
      k ∈ st.routes.keys ∧ (k ∈ desired c ∨ ∀ route ∈ routes, route.key ≠ k) := by
  induction routes generalizing st with
  | nil => cases h; simp
  | cons route routes ih =>
    obtain ⟨st₁, h₁, h₂⟩ := andThen_eq_ok.1 h
    rw [ih h₂, pruneRoute_keys h₁, all_ok_iff_desired]
    by_cases hk : route.key = k
    · subst hk
      simpa using fun _ => Or.inl
    · simp [hk, Ne.symm hk]

theorem convergeProxy_keys {proxy : Pod} {services : List Service} {st st' : ExternalIPRoutesStore}
    (h : convergeProxy fails c proxy services st = (st', none)) (k : String × String) :
    k ∈ st'.routes.keys ↔ k ∈ st.routes.keys ∨
      ∃ s ∈ services, s.key ∈ c.endpoints.keys ∧ k = (s.key, proxy.key) := by
  induction services generalizing st with
  | nil => cases h; simp
  | cons service services ih =>
    obtain ⟨st₁, h₁, h₂⟩ := andThen_eq_ok.1 h
    rw [ih h₂]
    split at h₁
    next hc =>
      rw [ExternalIPRoutesStore.mem_keys_of_add_ok h₁]
      simp only [List.mem_cons, exists_eq_or_imp, Store.contains_eq_true.1 hc, true_and, or_assoc]
    next hc =>
      cases h₁
      simp_all

theorem converge_keys {proxies : List Pod} {st st' : ExternalIPRoutesStore}
    (h : converge fails c proxies st = (st', none)) (k : String × String) :
    k ∈ st'.routes.keys ↔ k ∈ st.routes.keys ∨
      ∃ p ∈ proxies, ∃ s ∈ c.services.items, s.key ∈ c.endpoints.keys ∧ k = (s.key, p.key) := by
  induction proxies generalizing st with
  | nil => cases h; simp
  | cons proxy proxies ih =>
    obtain ⟨st₁, h₁, h₂⟩ := andThen_eq_ok.1 h
    rw [ih h₂, convergeProxy_keys h₁]
    simp only [List.mem_cons, exists_eq_or_imp, or_assoc]

/-- A run that returns nil leaves exactly the desired routes, whatever the store held. -/
theorem reconcile_keys {st st' : ExternalIPRoutesStore} (h : reconcile fails c st = (st', none))
    (k : String × String) : k ∈ st'.routes.keys ↔ k ∈ desired c := by
  obtain ⟨st₁, h₁, h₂⟩ := andThen_eq_ok.1 h
  rw [converge_keys h₂, prune_keys h₁, ← mem_desired_iff_exists]
  have listed : k ∈ st.routes.keys → ∃ route ∈ st.list, route.key = k := Store.mem_keys.1
  constructor
  · rintro (⟨hk, hd | hnot⟩ | hd)
    · exact hd
    · obtain ⟨route, hr, rfl⟩ := listed hk
      exact absurd rfl (hnot route hr)
    · exact hd
  · exact .inr

end Success

/-! ## A run over a store that no longer fails -/

section Reliable

variable {fails : Nat → Option Error} (c : Caches)

theorem andThen_reliable {r : Outcome} {k : ExternalIPRoutesStore → Outcome}
    (hr : r.1.Reliable fails ∧ r.2 = none)
    (hk : ∀ st, st.Reliable fails → (k st).1.Reliable fails ∧ (k st).2 = none) :
    (andThen r k).1.Reliable fails ∧ (andThen r k).2 = none := by
  obtain ⟨st, _ | err⟩ := r
  · exact hk st hr.1
  · cases hr.2

theorem pruneRoute_reliable (route : Route) (checks : List Check) (st : ExternalIPRoutesStore)
    (h : st.Reliable fails) :
    (pruneRoute fails c route checks st).1.Reliable fails ∧
      (pruneRoute fails c route checks st).2 = none := by
  induction checks generalizing st with
  | nil => exact ⟨h, rfl⟩
  | cons check checks ih =>
    refine andThen_reliable ?_ ih
    split
    · exact ⟨h, rfl⟩
    · exact h.delete route

theorem prune_reliable (routes : List Route) (st : ExternalIPRoutesStore) (h : st.Reliable fails) :
    (prune fails c routes st).1.Reliable fails ∧ (prune fails c routes st).2 = none := by
  induction routes generalizing st with
  | nil => exact ⟨h, rfl⟩
  | cons route routes ih => exact andThen_reliable (pruneRoute_reliable c route _ st h) ih

theorem convergeProxy_reliable (proxy : Pod) (services : List Service) (st : ExternalIPRoutesStore)
    (h : st.Reliable fails) :
    (convergeProxy fails c proxy services st).1.Reliable fails ∧
      (convergeProxy fails c proxy services st).2 = none := by
  induction services generalizing st with
  | nil => exact ⟨h, rfl⟩
  | cons service services ih =>
    refine andThen_reliable ?_ ih
    split
    · exact h.add service proxy
    · exact ⟨h, rfl⟩

theorem converge_reliable (proxies : List Pod) (st : ExternalIPRoutesStore)
    (h : st.Reliable fails) :
    (converge fails c proxies st).1.Reliable fails ∧ (converge fails c proxies st).2 = none := by
  induction proxies generalizing st with
  | nil => exact ⟨h, rfl⟩
  | cons proxy proxies ih => exact andThen_reliable (convergeProxy_reliable c proxy _ st h) ih

/-- Once no call fails, a run returns nil. -/
theorem reconcile_reliable (st : ExternalIPRoutesStore) (h : st.Reliable fails) :
    (reconcile fails c st).1.Reliable fails ∧ (reconcile fails c st).2 = none :=
  andThen_reliable (prune_reliable c _ st h) (converge_reliable c _)

end Reliable

/-- With a store whose calls all succeed, `reconcile` returns nil and leaves exactly the
desired routes, from any store content. -/
theorem reconcile_converges (c : Caches) (st : ExternalIPRoutesStore) :
    (reconcile (fun _ => none) c st).2 = none ∧
      ∀ k, k ∈ (reconcile (fun _ => none) c st).1.routes.keys ↔ k ∈ desired c := by
  have hok := (reconcile_reliable c st fun _ _ => rfl).2
  exact ⟨hok, reconcile_keys (Prod.ext rfl hok)⟩

/-! ## Every call moves toward the desired routes -/

/-- What the calls of a run over the snapshot `c` do to the store, failed or not: no desired
route is dropped, no undesired one is added, and every logged call deletes an undesired route
or adds a desired one. -/
structure Towards (c : Caches) (st st' : ExternalIPRoutesStore) : Prop where
  keeps : ∀ k ∈ st.routes.keys, k ∈ desired c → k ∈ st'.routes.keys
  adds : ∀ k ∈ st'.routes.keys, k ∈ st.routes.keys ∨ k ∈ desired c
  calls : ∃ calls, st'.calls = st.calls ++ calls ∧
    (∀ route, .delete route ∈ calls → route.key ∉ desired c) ∧
    (∀ service proxy, .add service proxy ∈ calls → (service.key, proxy.key) ∈ desired c)

namespace Towards

variable {fails : Nat → Option Error} {c : Caches} {st st₁ st₂ : ExternalIPRoutesStore}

theorem refl (st : ExternalIPRoutesStore) : Towards c st st :=
  ⟨fun _ hk _ => hk, fun _ hk => .inl hk, [], by simp, by simp, by simp⟩

theorem trans (h₁ : Towards c st st₁) (h₂ : Towards c st₁ st₂) : Towards c st st₂ := by
  obtain ⟨keeps₁, adds₁, calls₁, hc₁, del₁, add₁⟩ := h₁
  obtain ⟨keeps₂, adds₂, calls₂, hc₂, del₂, add₂⟩ := h₂
  refine ⟨fun k hk hd => keeps₂ k (keeps₁ k hk hd) hd, fun k hk => ?_, calls₁ ++ calls₂,
    by simp [hc₂, hc₁], fun r hr => ?_, fun s p hsp => ?_⟩
  · exact (adds₂ k hk).elim (adds₁ k) .inr
  · exact (List.mem_append.1 hr).elim (del₁ r) (del₂ r)
  · exact (List.mem_append.1 hsp).elim (add₁ s p) (add₂ s p)

theorem delete {route : Route} (h : route.key ∉ desired c) :
    Towards c st (st.delete fails route).1 := by
  refine ⟨fun k hk hd => ?_, fun k hk => ?_, [.delete route], by simp, by simp [h], by simp⟩
  · exact ExternalIPRoutesStore.mem_keys_delete.2 ⟨hk, fun _ he => h (he ▸ hd)⟩
  · exact .inl (ExternalIPRoutesStore.mem_keys_delete.1 hk).1

theorem add {service : Service} {proxy : Pod} (h : (service.key, proxy.key) ∈ desired c) :
    Towards c st (st.add fails service proxy).1 := by
  refine ⟨fun k hk _ => ?_, fun k hk => ?_, [.add service proxy], by simp, by simp, by simp [h]⟩
  · exact ExternalIPRoutesStore.mem_keys_add.2 (.inl hk)
  · rcases ExternalIPRoutesStore.mem_keys_add.1 hk with hk | ⟨-, rfl⟩
    · exact .inl hk
    · exact .inr h

theorem andThen {r : Outcome} {k : ExternalIPRoutesStore → Outcome} (hr : Towards c st r.1)
    (hk : ∀ st', r = (st', none) → Towards c st' (k st').1) : Towards c st (andThen r k).1 := by
  obtain ⟨st', _ | err⟩ := r
  · exact hr.trans (hk st' rfl)
  · exact hr

end Towards

section Towards

variable (fails : Nat → Option Error) (c : Caches)

theorem pruneRoute_towards (route : Route) (checks : List Check) (st : ExternalIPRoutesStore) :
    Towards c st (pruneRoute fails c route checks st).1 := by
  induction checks generalizing st with
  | nil => exact .refl st
  | cons check checks ih =>
    refine Towards.andThen ?_ fun st' _ => ih st'
    split
    · exact .refl st
    · next hfail => exact .delete (not_desired_of_not_ok (Bool.eq_false_iff.2 hfail))

theorem prune_towards (routes : List Route) (st : ExternalIPRoutesStore) :
    Towards c st (prune fails c routes st).1 := by
  induction routes generalizing st with
  | nil => exact .refl st
  | cons route routes ih =>
    exact Towards.andThen (pruneRoute_towards fails c route _ st) fun st' _ => ih st'

theorem convergeProxy_towards {proxy : Pod} (hp : proxy ∈ c.proxies.items)
    (services : List Service) (hs : services ⊆ c.services.items) (st : ExternalIPRoutesStore) :
    Towards c st (convergeProxy fails c proxy services st).1 := by
  induction services generalizing st with
  | nil => exact .refl st
  | cons service services ih =>
    refine Towards.andThen ?_ fun st' _ => ih (List.subset_of_cons_subset hs) st'
    split
    · next he => exact .add (mem_desired_iff_exists.2
        ⟨proxy, hp, service, hs (List.mem_cons_self _ _), by simpa using he, rfl⟩)
    · exact .refl st

theorem converge_towards (proxies : List Pod) (hp : proxies ⊆ c.proxies.items)
    (st : ExternalIPRoutesStore) : Towards c st (converge fails c proxies st).1 := by
  induction proxies generalizing st with
  | nil => exact .refl st
  | cons proxy proxies ih =>
    exact Towards.andThen (convergeProxy_towards fails c (hp (List.mem_cons_self _ _)) _
      (List.Subset.refl _) st) fun st' _ => ih (List.subset_of_cons_subset hp) st'

end Towards

/-- Whichever calls fail, a run over a fixed snapshot only deletes undesired routes and only
adds desired ones, so the routes it leaves contain the desired routes the store held and lie
within those routes plus the desired ones. -/
theorem reconcile_partial_failure (fails : Nat → Option Error) (c : Caches)
    (st : ExternalIPRoutesStore) :
    (∃ calls, (reconcile fails c st).1.calls = st.calls ++ calls ∧
      (∀ route, .delete route ∈ calls → route.key ∉ desired c) ∧
      (∀ service proxy, .add service proxy ∈ calls → (service.key, proxy.key) ∈ desired c)) ∧
    (∀ k ∈ st.routes.keys, k ∈ desired c → k ∈ (reconcile fails c st).1.routes.keys) ∧
    ∀ k ∈ (reconcile fails c st).1.routes.keys, k ∈ st.routes.keys ∨ k ∈ desired c := by
  have h : Towards c st (reconcile fails c st).1 :=
    Towards.andThen (prune_towards fails c _ st) fun st' _ =>
      converge_towards fails c _ (List.Subset.refl _) st'
  exact ⟨h.calls, h.keeps, h.adds⟩

/-! ## A store that fails every call -/

section Failing

variable {fails : Nat → Option Error} (hfail : ∀ i, fails i ≠ none) (c : Caches)
include hfail

theorem pruneRoute_ok_of_failing {route : Route} {checks : List Check} {st : ExternalIPRoutesStore}
    (h : (pruneRoute fails c route checks st).2 = none) : ∀ check ∈ checks, check.ok c route = true := by
  induction checks generalizing st with
  | nil => simp
  | cons check checks ih =>
    have hfirst := andThen_ok_left h
    by_cases hok : check.ok c route
    · rw [pruneRoute, andThen_of_ok hfirst] at h
      simp only [hok, if_true] at h
      exact List.forall_mem_cons.2 ⟨hok, ih h⟩
    · simp only [hok, Bool.false_eq_true, if_false, ExternalIPRoutesStore.delete_snd] at hfirst
      exact absurd hfirst (hfail _)

theorem prune_ok_of_failing {routes : List Route} {st : ExternalIPRoutesStore}
    (h : (prune fails c routes st).2 = none) : ∀ route ∈ routes, route.key ∈ desired c := by
  induction routes generalizing st with
  | nil => simp
  | cons route routes ih =>
    have hfirst := andThen_ok_left h
    rw [prune, andThen_of_ok hfirst] at h
    exact List.forall_mem_cons.2
      ⟨(all_ok_iff_desired c route).1 (pruneRoute_ok_of_failing hfail c hfirst), ih h⟩

theorem convergeProxy_ok_of_failing {proxy : Pod} {services : List Service}
    {st : ExternalIPRoutesStore} (h : (convergeProxy fails c proxy services st).2 = none) :
    ∀ s ∈ services, s.key ∉ c.endpoints.keys := by
  induction services generalizing st with
  | nil => simp
  | cons service services ih =>
    have hfirst := andThen_ok_left h
    by_cases he : c.endpoints.contains service.key
    · simp only [he, if_true, ExternalIPRoutesStore.add_snd] at hfirst
      exact absurd hfirst (hfail _)
    · rw [convergeProxy, andThen_of_ok hfirst] at h
      exact List.forall_mem_cons.2 ⟨by simpa using he, ih h⟩

theorem converge_ok_of_failing {proxies : List Pod} {st : ExternalIPRoutesStore}
    (h : (converge fails c proxies st).2 = none) :
    ∀ p ∈ proxies, ∀ s ∈ c.services.items, s.key ∉ c.endpoints.keys := by
  induction proxies generalizing st with
  | nil => simp
  | cons proxy proxies ih =>
    have hfirst := andThen_ok_left h
    rw [converge, andThen_of_ok hfirst] at h
    exact List.forall_mem_cons.2 ⟨convergeProxy_ok_of_failing hfail c hfirst, ih h⟩

/-- Over a store that fails every call, a run returns nil only if no route is desired and the
store lists none: the converge pass calls `Add` for every desired route, held or not. -/
theorem reconcile_ok_of_failing {st : ExternalIPRoutesStore} (h : (reconcile fails c st).2 = none) :
    desired c = [] ∧ st.list = [] := by
  have hfirst := andThen_ok_left h
  rw [reconcile, andThen_of_ok hfirst] at h
  have hnone : desired c = [] := List.eq_nil_iff_forall_not_mem.2 fun k hk => by
    obtain ⟨p, hp, s, hs, he, -⟩ := mem_desired_iff_exists.1 hk
    exact converge_ok_of_failing hfail c h p hp s hs he
  refine ⟨hnone, List.eq_nil_iff_forall_not_mem.2 fun route hr => ?_⟩
  simpa [hnone] using prune_ok_of_failing hfail c hfirst route hr

end Failing

/-! ## The calls of a run with no failed call -/

section Calls

variable (c : Caches)

theorem pruneRoute_calls (route : Route) (checks : List Check) (st : ExternalIPRoutesStore) :
    (pruneRoute (fun _ => none) c route checks st).1.calls =
      st.calls ++ (checks.filter fun check => !check.ok c route).map fun _ => .delete route := by
  induction checks generalizing st with
  | nil => simp [pruneRoute]
  | cons check checks ih =>
    by_cases h : check.ok c route
    · simp [pruneRoute, h, ih]
    · simp [pruneRoute, h, ih, ExternalIPRoutesStore.delete]

theorem prune_calls (routes : List Route) (st : ExternalIPRoutesStore) :
    (prune (fun _ => none) c routes st).1.calls = st.calls ++ routes.flatMap fun route =>
      (pruneChecks.filter fun check => !check.ok c route).map fun _ => .delete route := by
  induction routes generalizing st with
  | nil => simp [prune]
  | cons route routes ih =>
    rw [prune, andThen_of_ok (pruneRoute_reliable c route _ st fun _ _ => rfl).2, ih,
      pruneRoute_calls]
    simp

theorem convergeProxy_calls (proxy : Pod) (services : List Service) (st : ExternalIPRoutesStore) :
    (convergeProxy (fun _ => none) c proxy services st).1.calls = st.calls ++
      (services.filter fun service => c.endpoints.contains service.key).map
        fun service => .add service proxy := by
  induction services generalizing st with
  | nil => simp [convergeProxy]
  | cons service services ih =>
    by_cases h : c.endpoints.contains service.key
    · simp [convergeProxy, h, ih, ExternalIPRoutesStore.add]
    · simp [convergeProxy, h, ih]

theorem convergeListed_calls (listing : Pod → List Service) (proxies : List Pod)
    (st : ExternalIPRoutesStore) :
    (convergeListed (fun _ => none) c listing proxies st).1.calls = st.calls ++
      proxies.flatMap fun proxy =>
        ((listing proxy).filter fun service => c.endpoints.contains service.key).map
          fun service => .add service proxy := by
  induction proxies generalizing st with
  | nil => simp [convergeListed]
  | cons proxy proxies ih =>
    rw [convergeListed, andThen_of_ok (convergeProxy_reliable c proxy _ st fun _ _ => rfl).2, ih,
      convergeProxy_calls]
    simp

theorem converge_calls (proxies : List Pod) (st : ExternalIPRoutesStore) :
    (converge (fun _ => none) c proxies st).1.calls = st.calls ++ proxies.flatMap fun proxy =>
      (c.services.items.filter fun service => c.endpoints.contains service.key).map
        fun service => .add service proxy := by
  rw [converge_eq_convergeListed, convergeListed_calls]

/-- The deletes of the prune pass are of the listed routes that are not desired. -/
theorem mem_prune_deletes {routes : List Route} {call : Call} :
    call ∈ (routes.flatMap fun route =>
        (pruneChecks.filter fun check => !check.ok c route).map fun _ => Call.delete route) ↔
      ∃ route ∈ routes, route.key ∉ desired c ∧ call = .delete route := by
  simp only [List.mem_flatMap, List.mem_map, List.mem_filter, ← all_ok_iff_desired, not_forall,
    exists_prop]
  refine exists_congr fun route => and_congr_right fun _ => ⟨?_, ?_⟩
  · rintro ⟨check, ⟨hc, hok⟩, rfl⟩
    exact ⟨⟨check, hc, by simpa using hok⟩, rfl⟩
  · rintro ⟨⟨check, hc, hok⟩, rfl⟩
    exact ⟨check, ⟨hc, by simpa using hok⟩, rfl⟩

/-- The adds of a converge pass with no failed call, over listings that are permutations of
the cached services, are one for each cached service with endpoints and each proxy, and none
twice. -/
theorem convergeListed_adds_nodup (listing : Pod → List Service) {proxies : List Pod}
    (hp : proxies.Nodup) (hlisting : ∀ proxy ∈ proxies, (listing proxy).Perm c.services.items) :
    (proxies.flatMap fun proxy =>
      ((listing proxy).filter fun service => c.endpoints.contains service.key).map
        fun service => Call.add service proxy).Nodup := by
  refine List.nodup_flatMap.2 ⟨fun proxy hproxy => ?_, hp.imp fun hne => ?_⟩
  · refine ((((hlisting proxy hproxy).nodup_iff.2 c.services.items_nodup).filter _).map ?_)
    exact fun s s' h => by cases h; rfl
  · intro call hx hy
    obtain ⟨s, -, rfl⟩ := List.mem_map.1 hx
    obtain ⟨s', -, h⟩ := List.mem_map.1 hy
    exact hne (Call.add.inj h).2.symm

end Calls

/-- No cache holds anything. -/
def emptyCaches : Caches := ⟨.empty, .empty, .empty⟩

/-- A store announcing `webService` from `proxyPod`'s node. -/
def announcedWeb : ExternalIPRoutesStore := ⟨Store.empty.add ⟨webService, proxyPod⟩, []⟩

/-- A route whose proxy, service and endpoints are all gone is deleted once per failed check. -/
theorem prune_deletes_route_per_failed_check :
    (reconcile (fun _ => none) emptyCaches announcedWeb).1.calls =
      [.delete ⟨webService, proxyPod⟩, .delete ⟨webService, proxyPod⟩,
        .delete ⟨webService, proxyPod⟩] := by
  decide

/-- The deletes of a run after the proxies cache drops `proxy`, from a store whose routes were
all desired before: only the proxy check can fail, and only for the routes of `proxy`. -/
theorem prune_deletes_after_proxy_removed (c : Caches) (proxy : Pod) (routes : List Route)
    (h : ∀ route ∈ routes, route.key ∈ desired c) :
    (routes.flatMap fun route =>
      (pruneChecks.filter fun check => !check.ok { c with proxies := c.proxies.delete proxy }
        route).map fun _ => Call.delete route) =
      (routes.filter fun route => route.proxy.key = proxy.key).map .delete := by
  induction routes with
  | nil => rfl
  | cons route routes ih =>
    obtain ⟨hp, hs, he⟩ := mem_desired.1 (h route (List.mem_cons_self _ _))
    rw [List.flatMap_cons, ih fun r hr => h r (List.mem_cons_of_mem _ hr)]
    by_cases hk : route.proxy.key = proxy.key <;>
      simp_all [pruneChecks, Check.ok, Route.key, Store.mem_keys_delete]

/-- Spec 8, prune correctness: from a store whose routes are all desired, a run with no failed
call after the proxies cache drops `proxy` deletes every route of `proxy` exactly once, deletes
no other route, and then only adds. -/
theorem prune_after_proxy_removed (c : Caches) (proxy : Pod) (st : ExternalIPRoutesStore)
    (hst : ∀ route ∈ st.list, route.key ∈ desired c) :
    ∃ adds, (reconcile (fun _ => none) { c with proxies := c.proxies.delete proxy } st).1.calls =
        st.calls ++ (st.list.filter fun route => route.proxy.key = proxy.key).map .delete ++ adds ∧
      ∀ call ∈ adds, ∃ service proxy, call = .add service proxy := by
  refine ⟨(c.proxies.delete proxy).items.flatMap fun p =>
      (c.services.items.filter fun s => c.endpoints.contains s.key).map fun s => .add s p,
    ?_, fun call hcall => ?_⟩
  · rw [reconcile, andThen_of_ok (prune_reliable _ _ st fun _ _ => rfl).2, converge_calls,
      prune_calls, prune_deletes_after_proxy_removed c proxy _ hst]
  · simp only [List.mem_flatMap, List.mem_map] at hcall
    obtain ⟨p, -, s, -, rfl⟩ := hcall
    exact ⟨s, p, rfl⟩

/-- The caches that want exactly the route of `announcedWeb`. -/
def webCaches : Caches := ⟨Store.empty.add webService, Store.empty.add webEndpoints,
  Store.empty.add proxyPod⟩

theorem prune_after_web_proxy_removed :
    (∀ route ∈ announcedWeb.list, route.key ∈ desired webCaches) ∧
      ∃ adds, (reconcile (fun _ => none)
          { webCaches with proxies := webCaches.proxies.delete proxyPod } announcedWeb).1.calls =
        announcedWeb.calls ++ (announcedWeb.list.filter fun route =>
          route.proxy.key = proxyPod.key).map .delete ++ adds ∧
        ∀ call ∈ adds, ∃ service proxy, call = .add service proxy :=
  ⟨by decide, prune_after_proxy_removed webCaches proxyPod announcedWeb (by decide)⟩

/-- With no failed call, whatever order each proxy's `c.services.List()` returns, a run first
deletes the listed routes that are not desired and no other, then calls `Add` exactly once for
each cached proxy and each cached service whose endpoints are cached, whether or not the store
already has that route. -/
theorem reconcile_calls_each_once (c : Caches) (listing : Pod → List Service)
    (hlisting : ∀ proxy ∈ c.proxies.items, (listing proxy).Perm c.services.items)
    (st : ExternalIPRoutesStore) :
    ∃ deletes adds, (reconcileListed (fun _ => none) c listing st).1.calls =
        st.calls ++ deletes ++ adds ∧
      (∀ call, call ∈ deletes ↔ ∃ route ∈ st.list, route.key ∉ desired c ∧ call = .delete route) ∧
      adds.Nodup ∧
      ∀ call, call ∈ adds ↔ ∃ service ∈ c.services.items, ∃ proxy ∈ c.proxies.items,
        service.key ∈ c.endpoints.keys ∧ call = .add service proxy := by
  rw [reconcileListed, andThen_of_ok (prune_reliable c _ st fun _ _ => rfl).2,
    convergeListed_calls, prune_calls]
  refine ⟨_, _, rfl, fun call => mem_prune_deletes c,
    convergeListed_adds_nodup c listing c.proxies.items_nodup hlisting, fun call => ?_⟩
  simp only [List.mem_flatMap, List.mem_map, List.mem_filter, Store.contains_eq_true]
  constructor
  · rintro ⟨proxy, hp, service, ⟨hs, he⟩, rfl⟩
    exact ⟨service, (hlisting proxy hp).subset hs, proxy, hp, he, rfl⟩
  · rintro ⟨service, hs, proxy, hp, he, rfl⟩
    exact ⟨proxy, hp, service, ⟨(hlisting proxy hp).symm.subset hs, he⟩, rfl⟩

theorem web_run_calls_each_once :
    (∀ _proxy ∈ webCaches.proxies.items, webCaches.services.items.Perm webCaches.services.items) ∧
    ∃ deletes adds, (reconcileListed (fun _ => none) webCaches
        (fun _ => webCaches.services.items) announcedWeb).1.calls =
        announcedWeb.calls ++ deletes ++ adds ∧
      (∀ call, call ∈ deletes ↔
        ∃ route ∈ announcedWeb.list, route.key ∉ desired webCaches ∧ call = .delete route) ∧
      adds.Nodup ∧
      ∀ call, call ∈ adds ↔ ∃ service ∈ webCaches.services.items,
        ∃ proxy ∈ webCaches.proxies.items, service.key ∈ webCaches.endpoints.keys ∧
          call = .add service proxy :=
  ⟨fun _ _ => .refl _, reconcile_calls_each_once webCaches (fun _ => webCaches.services.items)
    (fun _ _ => .refl _) announcedWeb⟩

end KubeParrot
