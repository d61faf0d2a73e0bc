import KubeParrot.Reconcile

/-!
# `reconcile` one access at a time

A run of `reconcile` reads the caches at many separate points while the handlers keep
changing them on other goroutines. `Pc` is where a run stands between two of its accesses,
and `Pc.step` makes the next access (one `List`, `Get`, `Add` or `Delete`) against the caches
as they are at that moment. `runFrom` is what the rest of the run does if the caches stay
put; every step preserves it (`runFrom_step`), and from the start it is `reconcile`. Every step
also lowers a bound on the steps left (`stepsBound_step_lt`), so a run during which the caches
do not change ends, within that bound, as `reconcile` on them (`steps_listRoutes`).
-/
namespace KubeParrot

/-- Where a run of `reconcile` stands: just before its next access to a cache or the store. -/
inductive Pc where
  /-- before `c.routes.List()` -/
  | listRoutes
  /-- before the `Get` of `check` on `route`, with `checks` left for it and `routes` after it -/
  | pruneGet (check : Check) (checks : List Check) (route : Route) (routes : List Route)
  /-- before the `c.routes.Delete(route)` of a failed check -/
  | pruneDelete (checks : List Check) (route : Route) (routes : List Route)
  /-- before `c.proxies.List()` -/
  | listProxies
  /-- before `c.services.List()` for `proxy`, with `proxies` after it -/
  | listServices (proxy : Pod) (proxies : List Pod)
  /-- before `c.endpoints.Get(service)` -/
  | convergeGet (service : Service) (services : List Service) (proxy : Pod) (proxies : List Pod)
  /-- before `c.routes.Add(service, proxy)` -/
  | convergeAdd (service : Service) (services : List Service) (proxy : Pod) (proxies : List Pod)
  /-- returned `result` -/
  | done (result : Option Error)
  deriving DecidableEq, Repr

namespace Pc

/-- The next route of the prune loop, or the converge pass after the last one. -/
def nextRoute : List Route → Pc
  | [] => listProxies
  | route :: routes => pruneGet .proxy [.service, .endpoints] route routes

/-- The next check on `route`, or the next route after its last check. -/
def nextCheck : List Check → Route → List Route → Pc
  | [], _, routes => nextRoute routes
  | check :: checks, route, routes => pruneGet check checks route routes

/-- The next proxy of the converge pass, or the end of the run after the last one. -/
def nextProxy : List Pod → Pc
  | [] => done none
  | proxy :: proxies => listServices proxy proxies

/-- The next service for `proxy`, or the next proxy after the last one. -/
def nextService : List Service → Pod → List Pod → Pc
  | [], _, proxies => nextProxy proxies
  | service :: services, proxy, proxies => convergeGet service services proxy proxies

variable (fails : Nat → Option Error) (c : Caches)

/-- One access of a run, against the caches `c` as they are now. -/
def step : Pc → ExternalIPRoutesStore → Pc × ExternalIPRoutesStore
  | listRoutes, st => (nextRoute st.list, st)
  | pruneGet check checks route routes, st =>
    (if check.ok c route then nextCheck checks route routes else pruneDelete checks route routes, st)
  | pruneDelete checks route routes, st =>
    match st.delete fails route with
    | (st, some err) => (done (some err), st)
    | (st, none) => (nextCheck checks route routes, st)
  | listProxies, st => (nextProxy c.proxies.items, st)
  | listServices proxy proxies, st => (nextService c.services.items proxy proxies, st)
  | convergeGet service services proxy proxies, st =>
    (if c.endpoints.contains service.key then convergeAdd service services proxy proxies
      else nextService services proxy proxies, st)
  | convergeAdd service services proxy proxies, st =>
    match st.add fails service proxy with
    | (st, some err) => (done (some err), st)
    | (st, none) => (nextService services proxy proxies, st)
  | done result, st => (done result, st)

/-- The prune loop from `routes` on, then the converge pass. -/
def afterPrune (routes : List Route) (st : ExternalIPRoutesStore) : Outcome :=
  andThen (prune fails c routes st) (converge fails c c.proxies.items)

/-- What the rest of a run from `pc` does while the caches stay `c`. -/
def runFrom : Pc → ExternalIPRoutesStore → Outcome
  | listRoutes, st => reconcile fails c st
  | pruneGet check checks route routes, st =>
    andThen (pruneRoute fails c route (check :: checks) st) (afterPrune fails c routes)
  | pruneDelete checks route routes, st =>
    andThen (st.delete fails route) fun st =>
      andThen (pruneRoute fails c route checks st) (afterPrune fails c routes)
  | listProxies, st => converge fails c c.proxies.items st
  | listServices proxy proxies, st =>
    andThen (convergeProxy fails c proxy c.services.items st) (converge fails c proxies)
  | convergeGet service services proxy proxies, st =>
    andThen (convergeProxy fails c proxy (service :: services) st) (converge fails c proxies)
  | convergeAdd service services proxy proxies, st =>
    andThen (st.add fails service proxy) fun st =>
      andThen (convergeProxy fails c proxy services st) (converge fails c proxies)
  | done result, st => (st, result)

theorem runFrom_nextRoute (routes : List Route) (st : ExternalIPRoutesStore) :
    runFrom fails c (nextRoute routes) st = afterPrune fails c routes st := by
  cases routes with
  | nil => rfl
  | cons route routes => simp only [nextRoute, runFrom, afterPrune, prune, andThen_assoc]; rfl

theorem runFrom_nextCheck (checks : List Check) (route : Route) (routes : List Route)
    (st : ExternalIPRoutesStore) :
    runFrom fails c (nextCheck checks route routes) st =
      andThen (pruneRoute fails c route checks st) (afterPrune fails c routes) := by
  cases checks with
  | nil => exact runFrom_nextRoute fails c routes st
  | cons check checks => rfl

theorem runFrom_nextProxy (proxies : List Pod) (st : ExternalIPRoutesStore) :
    runFrom fails c (nextProxy proxies) st = converge fails c proxies st := by
  cases proxies <;> rfl

theorem runFrom_nextService (services : List Service) (proxy : Pod) (proxies : List Pod)
    (st : ExternalIPRoutesStore) :
    runFrom fails c (nextService services proxy proxies) st =
      andThen (convergeProxy fails c proxy services st) (converge fails c proxies) := by
  cases services with
  | nil => exact runFrom_nextProxy fails c proxies st
  | cons service services => rfl

/-- A step does what the rest of the run would have done first. -/
theorem runFrom_step (pc : Pc) (st : ExternalIPRoutesStore) :
    runFrom fails c (step fails c pc st).1 (step fails c pc st).2 = runFrom fails c pc st := by
  cases pc with
  | listRoutes => exact runFrom_nextRoute fails c _ st
  | pruneGet check checks route routes =>
    by_cases h : check.ok c route
    · simp only [step, h, if_true]
      rw [runFrom_nextCheck]
      simp only [runFrom, pruneRoute, h, if_true, andThen_ok]
    · simp only [step, h, Bool.false_eq_true, if_false, runFrom, pruneRoute, andThen_assoc]
  | pruneDelete checks route routes =>
    rcases hd : st.delete fails route with ⟨st', _ | err⟩
    · simp only [step, hd]
      rw [runFrom_nextCheck]
      simp only [runFrom, hd, andThen_ok]
    · simp only [step, runFrom, hd, andThen_err]
  | listProxies => exact runFrom_nextProxy fails c _ st
  | listServices proxy proxies => exact runFrom_nextService fails c _ proxy proxies st
  | convergeGet service services proxy proxies =>
    by_cases h : c.endpoints.contains service.key
    · simp only [step, h, if_true, runFrom, convergeProxy, andThen_assoc]
    · simp only [step, h, Bool.false_eq_true, if_false]
      rw [runFrom_nextService]
      simp only [runFrom, convergeProxy, h, Bool.false_eq_true, if_false, andThen_ok]
  | convergeAdd service services proxy proxies =>
    rcases ha : st.add fails service proxy with ⟨st', _ | err⟩
    · simp only [step, ha]
      rw [runFrom_nextService]
      simp only [runFrom, ha, andThen_ok]
    · simp only [step, runFrom, ha, andThen_err]
  | done result => rfl

/-! ## A run over unchanging caches ends, as `reconcile` -/

/-- The steps left from `nextProxy proxies`, at most. -/
def convergeCost (proxies : List Pod) : Nat := proxies.length * (2 * c.services.items.length + 1)

/-- The steps left from `nextRoute routes`, at most. -/
def routesCost (routes : List Route) : Nat := 7 * routes.length + 1 + convergeCost c c.proxies.items

/-- An upper bound on the steps left in a run from `pc` while the caches stay `c`. -/
def stepsBound : Pc → ExternalIPRoutesStore → Nat
  | listRoutes, st => routesCost c st.list + 1
  | pruneGet _ checks _ routes, _ => 2 * checks.length + 2 + routesCost c routes
  | pruneDelete checks _ routes, _ => 2 * checks.length + 1 + routesCost c routes
  | listProxies, _ => convergeCost c c.proxies.items + 1
  | listServices _ proxies, _ => 2 * c.services.items.length + 1 + convergeCost c proxies
  | convergeGet _ services _ proxies, _ => 2 * services.length + 2 + convergeCost c proxies
  | convergeAdd _ services _ proxies, _ => 2 * services.length + 1 + convergeCost c proxies
  | done _, _ => 0

theorem stepsBound_nextRoute (routes : List Route) (st : ExternalIPRoutesStore) :
    stepsBound c (nextRoute routes) st ≤ routesCost c routes := by
  cases routes <;> simp [nextRoute, stepsBound, routesCost] <;> omega

theorem stepsBound_nextCheck (checks : List Check) (route : Route) (routes : List Route)
    (st : ExternalIPRoutesStore) :
    stepsBound c (nextCheck checks route routes) st ≤ 2 * checks.length + routesCost c routes := by
  cases checks with
  | nil => simpa [nextCheck] using stepsBound_nextRoute c routes st
  | cons check checks => simp [nextCheck, stepsBound]; omega

theorem stepsBound_nextProxy (proxies : List Pod) (st : ExternalIPRoutesStore) :
    stepsBound c (nextProxy proxies) st ≤ convergeCost c proxies := by
  cases proxies <;> simp [nextProxy, stepsBound, convergeCost, Nat.succ_mul]; omega

theorem stepsBound_nextService (services : List Service) (proxy : Pod) (proxies : List Pod)
    (st : ExternalIPRoutesStore) :
    stepsBound c (nextService services proxy proxies) st ≤
      2 * services.length + convergeCost c proxies := by
  cases services with
  | nil => simpa [nextService] using stepsBound_nextProxy c proxies st
  | cons service services => simp [nextService, stepsBound]; omega

/-- Every step before the end of a run takes one off the bound. -/
theorem stepsBound_step_lt {pc : Pc} (hpc : ∀ result, pc ≠ done result)
    (st : ExternalIPRoutesStore) :
    stepsBound c (step fails c pc st).1 (step fails c pc st).2 < stepsBound c pc st := by
  cases pc with
  | listRoutes => exact Nat.lt_succ_of_le (stepsBound_nextRoute c _ st)
  | pruneGet check checks route routes =>
    by_cases h : check.ok c route
    · simp only [step, h, if_true]
      exact Nat.lt_of_le_of_lt (stepsBound_nextCheck c checks route routes st)
        (by simp only [stepsBound]; omega)
    · simp only [step, h, Bool.false_eq_true, if_false, stepsBound]; omega
  | pruneDelete checks route routes =>
    rcases hd : st.delete fails route with ⟨st', _ | err⟩
    · simp only [step, hd]
      exact Nat.lt_of_le_of_lt (stepsBound_nextCheck c checks route routes st')
        (by simp only [stepsBound]; omega)
    · simp only [step, hd, stepsBound]; omega
  | listProxies => exact Nat.lt_succ_of_le (stepsBound_nextProxy c _ st)
  | listServices proxy proxies =>
    exact Nat.lt_of_le_of_lt (stepsBound_nextService c c.services.items proxy proxies st)
      (by simp only [stepsBound]; omega)
  | convergeGet service services proxy proxies =>
    by_cases h : c.endpoints.contains service.key
    · simp only [step, h, if_true, stepsBound]; omega
    · simp only [step, h, Bool.false_eq_true, if_false]
      exact Nat.lt_of_le_of_lt (stepsBound_nextService c services proxy proxies st)
        (by simp only [stepsBound]; omega)
  | convergeAdd service services proxy proxies =>
    rcases ha : st.add fails service proxy with ⟨st', _ | err⟩
    · simp only [step, ha]
      exact Nat.lt_of_le_of_lt (stepsBound_nextService c services proxy proxies st')
        (by simp only [stepsBound]; omega)
    · simp only [step, ha, stepsBound]; omega
  | done result => exact absurd rfl (hpc result)

/-- `n` steps of a run while the caches stay `c`. -/
def steps : Nat → Pc → ExternalIPRoutesStore → Pc × ExternalIPRoutesStore
  | 0, pc, st => (pc, st)
  | n + 1, pc, st => steps n (step fails c pc st).1 (step fails c pc st).2

theorem steps_finish (n : Nat) (pc : Pc) (st : ExternalIPRoutesStore) (hn : stepsBound c pc st ≤ n) :
    steps fails c n pc st = (done (runFrom fails c pc st).2, (runFrom fails c pc st).1) := by
  induction n generalizing pc st with
  | zero =>
    cases pc <;> simp [stepsBound] at hn
    rfl
  | succ n ih =>
    by_cases hdone : ∃ result, pc = done result
    · obtain ⟨result, rfl⟩ := hdone
      simpa [steps, step, runFrom] using ih (done result) st (by simp [stepsBound])
    · have hlt := stepsBound_step_lt fails c (fun result h => hdone ⟨result, h⟩) st
      rw [steps, ih _ _ (by omega), runFrom_step]

/-- A run started over caches that stay `c` ends within `stepsBound` steps, with the store and
the result `reconcile` gives. -/
theorem steps_listRoutes (st : ExternalIPRoutesStore) :
    steps fails c (stepsBound c listRoutes st) listRoutes st =
      (done (reconcile fails c st).2, (reconcile fails c st).1) :=
  steps_finish fails c _ _ st le_rfl

end Pc

end KubeParrot
