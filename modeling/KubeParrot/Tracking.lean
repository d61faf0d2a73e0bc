import KubeParrot.Handlers

/-!
# What the caches hold after a notification history

The informer delivers a kind's notifications to its handlers one at a time, in order
(`deliver`). The spec's intent is that each cache follows the latest notification about each
key: present exactly when that notification added or updated an eligible object. A cache run
by `gatedSync` does so for every key whose latest object passes the gate (`follows_deliver`).
The endpoints gate always passes, so that cache follows its history exactly; the pod and
service handlers return at a failed gate without removing a cached object, and keep the first
object cached under a key rather than the latest. Under each key a cache is a function of that
key's notifications alone (`get_deliver`), so notifications about other objects, in whatever
order, do not matter to it (`caches_per_key`).
-/
namespace KubeParrot

section Latest

variable {α κ : Type} [DecidableEq κ] (keyFunc : α → κ)

/-- The latest notification of `ns` about key `k`. -/
def latest (ns : List (Notification α)) (k : κ) : Option (Notification α) :=
  (ns.filter fun n => keyFunc n.object = k).getLast?

/-- What `ns` says key `k` holds now: the object of the latest add or update about it, and
nothing after a delete or before any notification. -/
def latestObject (ns : List (Notification α)) (k : κ) : Option α :=
  (latest keyFunc ns k).bind Notification.current

@[simp] theorem latestObject_nil (k : κ) : latestObject keyFunc [] k = none := rfl

theorem latestObject_concat (ns : List (Notification α)) (n : Notification α) (k : κ) :
    latestObject keyFunc (ns ++ [n]) k =
      if keyFunc n.object = k then n.current else latestObject keyFunc ns k := by
  by_cases h : keyFunc n.object = k <;> simp [latestObject, latest, List.getLast?_append, h]

end Latest

namespace ResourceEventHandlerFuncs

variable {α σ : Type}

/-- The informer delivering `ns`, in order, to the handlers `h`. -/
def deliver (h : ResourceEventHandlerFuncs α σ) (ns : List (Notification α)) (s : σ) : σ :=
  ns.foldl (fun s n => (h.onNotification n s).1) s

@[simp] theorem deliver_nil (h : ResourceEventHandlerFuncs α σ) (s : σ) : h.deliver [] s = s := rfl

@[simp] theorem deliver_concat (h : ResourceEventHandlerFuncs α σ) (ns : List (Notification α))
    (n : Notification α) (s : σ) :
    h.deliver (ns ++ [n]) s = (h.onNotification n (h.deliver ns s)).1 := by
  simp [deliver]

end ResourceEventHandlerFuncs

section Gated

variable {α κ : Type} [DecidableEq κ] {keyFunc : α → κ} {gate ready : α → Bool}

/-- What a cache that `gatedSync` runs holds after the history `ns`: a key whose latest object
passes the gate is cached exactly when that object is ready, a key deleted last or never seen
is not cached, and every stored object passed the gate, was ready, and came with an add or
update of its key after the key's last delete. -/
structure Follows (gate ready : α → Bool) (ns : List (Notification α)) (s : Store keyFunc) :
    Prop where
  gated : ∀ k o, latestObject keyFunc ns k = some o → gate o = true → (k ∈ s.keys ↔ ready o = true)
  gone : ∀ k, latestObject keyFunc ns k = none → k ∉ s.keys
  stored : ∀ o ∈ s.items, gate o = true ∧ ready o = true ∧ ∃ pre n post, ns = pre ++ n :: post ∧
    n.current = some o ∧ ∀ m ∈ post, keyFunc m.object = keyFunc o → m.current ≠ none

theorem Follows.concat {ns : List (Notification α)} {s : Store keyFunc} (n : Notification α)
    (h : Follows gate ready ns s) : Follows gate ready (ns ++ [n]) (gatedSync gate ready n s).1 := by
  refine ⟨fun k o hl hg => ?_, fun k hl => ?_, fun o ho => ?_⟩
  · rw [latestObject_concat] at hl
    split at hl
    · rename_i hk
      rw [← hk, Notification.object_eq_of_current hl]
      exact mem_keys_gatedSync_of_gate hl hg
    · rw [mem_keys_gatedSync_of_ne ‹_›]
      exact h.gated k o hl hg
  · rw [latestObject_concat] at hl
    split at hl
    · exact ‹keyFunc n.object = k› ▸ not_mem_keys_gatedSync_of_delete hl
    · rw [mem_keys_gatedSync_of_ne ‹_›]
      exact h.gone k hl
  · rcases mem_items_gatedSync ho with ⟨hold, hdel⟩ | ⟨hcur, hg, hr⟩
    · obtain ⟨hg, hr, pre, n', post, rfl, hcur, hpost⟩ := h.stored o hold
      refine ⟨hg, hr, pre, n', post ++ [n], by simp, hcur, fun m hm hk => ?_⟩
      rcases List.mem_append.1 hm with hm | hm
      · exact hpost m hm hk
      · rw [List.mem_singleton.1 hm] at hk ⊢
        exact fun hnone => hdel hnone hk.symm
    · exact ⟨hg, hr, ns, n, [], rfl, hcur, by simp⟩

/-- A handler table that acts on its cache as `gatedSync` keeps `Follows` along any history. -/
theorem follows_deliver (h : ResourceEventHandlerFuncs α (Store keyFunc))
    (hh : ∀ n s, (h.onNotification n s).1 = (gatedSync gate ready n s).1)
    (ns : List (Notification α)) : Follows gate ready ns (h.deliver ns .empty) := by
  induction ns using List.reverseRecOn with
  | nil => exact ⟨fun _ _ h => by simp at h, fun _ _ => by simp, fun _ h => by simp at h⟩
  | append_singleton ns n ih => simpa [hh] using ih.concat n

/-- Where the latest notification about `k` passes the gate, or there is none, the cache holds `k`
exactly when that notification left an object that `want` accepts, for any `want` that agrees with
`ready` past the gate. -/
theorem Follows.mem_keys_iff {ns : List (Notification α)} {s : Store keyFunc}
    (hf : Follows gate ready ns s) (want : α → Bool) (hwant : ∀ o, gate o = true → ready o = want o)
    (k : κ) (hk : (latestObject keyFunc ns k).all gate = true) :
    k ∈ s.keys ↔ (latestObject keyFunc ns k).any want = true := by
  cases h : latestObject keyFunc ns k with
  | none => simpa using hf.gone k h
  | some o =>
    have hg : gate o = true := by simpa [h] using hk
    rw [hf.gated k o h hg, hwant o hg]
    exact Iff.rfl

/-- What a cache that `gatedSync` runs holds under `k` is the notifications about `k`, in order,
folded by `gatedGet` from what it held there at the start: the others play no part. -/
theorem get_deliver (h : ResourceEventHandlerFuncs α (Store keyFunc))
    (hh : ∀ n s, (h.onNotification n s).1 = (gatedSync gate ready n s).1)
    (ns : List (Notification α)) (s : Store keyFunc) (k : κ) :
    (h.deliver ns s).get k =
      (ns.filter fun n => keyFunc n.object = k).foldl (fun prev n => gatedGet gate ready n prev)
        (s.get k) := by
  induction ns using List.reverseRecOn with
  | nil => rfl
  | append_singleton ns n ih =>
    rw [ResourceEventHandlerFuncs.deliver_concat, hh, get_gatedSync, List.filter_append, ih]
    by_cases hk : keyFunc n.object = k <;> simp [hk]

theorem get_deliver_filter (h : ResourceEventHandlerFuncs α (Store keyFunc))
    (hh : ∀ n s, (h.onNotification n s).1 = (gatedSync gate ready n s).1)
    (ns : List (Notification α)) (s : Store keyFunc) (k : κ) :
    (h.deliver ns s).get k = (h.deliver (ns.filter fun n => keyFunc n.object = k) s).get k := by
  rw [get_deliver h hh, get_deliver h hh, List.filter_filter]
  simp

/-- A call dirties exactly when it changes the key set, whatever the gate. -/
theorem gatedSync_dirty_iff (n : Notification α) (s : Store keyFunc) :
    (gatedSync gate ready n s).2 = true ↔
      ¬ ∀ k, k ∈ (gatedSync gate ready n s).1.keys ↔ k ∈ s.keys := by
  unfold gatedSync
  split
  · exact syncReady_dirty_iff _ _ false
  · split
    · exact syncReady_dirty_iff _ _ _
    · simp

end Gated

/-- The endpoints cache holds exactly the keys whose latest notification added or updated an
object with an address in some subset, and a call dirties exactly when it changes that set. -/
theorem endpoints_cache_tracks_latest (ns : List (Notification Endpoints)) :
    (∀ k, k ∈ (endpointsHandlers.deliver ns .empty).keys ↔
      ∃ e, latestObject Endpoints.key ns k = some e ∧ ∃ v ∈ e.subsets, v.addresses ≠ []) ∧
    ∀ n s, (endpointsHandlers.onNotification n s).2 = true ↔
      ¬ ∀ k, k ∈ (endpointsHandlers.onNotification n s).1.keys ↔ k ∈ s.keys := by
  have hf := follows_deliver endpointsHandlers
    (fun n s => congrArg Prod.fst (endpointsHandlers_onNotification n s)) ns
  refine ⟨fun k => ?_, fun n s => ?_⟩
  · cases hl : latestObject Endpoints.key ns k with
    | none => simpa using hf.gone k hl
    | some e => simpa using hf.gated k e hl rfl
  · rw [endpointsHandlers_onNotification]
    exact gatedSync_dirty_iff n s

section Services

/-- After any service history the cache holds every key whose latest notification added or
updated a service with external IPs and no key that was deleted last or never seen. It maps a
cached key to a service with external IPs from an add or update of that key after its last
delete, which need not be the latest: an add of a cached key changes nothing. -/
theorem services_cache_after (ns : List (Notification Service)) :
    (∀ k svc, latestObject Service.key ns k = some svc → svc.spec.externalIPs ≠ [] →
      k ∈ (serviceHandlers.deliver ns .empty).keys) ∧
    (∀ k, latestObject Service.key ns k = none → k ∉ (serviceHandlers.deliver ns .empty).keys) ∧
    ∀ k svc, (serviceHandlers.deliver ns .empty).get k = some svc →
      svc.key = k ∧ svc.spec.externalIPs ≠ [] ∧ ∃ pre n post, ns = pre ++ n :: post ∧
        n.current = some svc ∧ ∀ m ∈ post, m.object.key = k → m.current ≠ none := by
  have hf := follows_deliver serviceHandlers serviceHandlers_onNotification_fst ns
  refine ⟨fun k svc hl hips => ?_, hf.gone, fun k svc hget => ?_⟩
  · exact (hf.gated k svc hl (by simpa [Service.hasExternalIPs] using hips)).2 rfl
  · obtain ⟨hmem, rfl⟩ := Store.get_eq_some.1 hget
    obtain ⟨hg, -, hfrom⟩ := hf.stored svc hmem
    exact ⟨rfl, by simpa [Service.hasExternalIPs] using hg, hfrom⟩

/-- An update that empties a cached service's external IPs leaves it cached: `serviceAdd` returns
at its external-IPs check before anything could remove it, and calls no `Dirty()`. -/
theorem service_update_without_ips_stays_cached :
    latestObject Service.key [.add webService, .update webService webServiceWithoutIPs]
        webService.key = some webServiceWithoutIPs ∧
      webServiceWithoutIPs.spec.externalIPs = [] ∧
      webService.key ∈ (serviceHandlers.deliver
        [.add webService, .update webService webServiceWithoutIPs] .empty).keys := by
  decide

def webServiceRenumbered : Service := ⟨⟨"web", "default"⟩, ⟨["192.0.2.20"]⟩⟩

/- An update that changes a cached service's external IPs leaves the first object cached, as the
add-if-missing of every handler does. -/
example :
    latestObject Service.key [.add webService, .update webService webServiceRenumbered]
        webService.key = some webServiceRenumbered ∧
      (serviceHandlers.deliver [.add webService, .update webService webServiceRenumbered]
        .empty).get webService.key = some webService := by
  decide

end Services

section Proxies

/-- What the proxies cache holds after any pod history: a key whose latest pod is a kube-proxy
of this node is cached exactly when that pod is ready, a key deleted last or never seen is not
cached, and only ready kube-proxies of this node are ever cached (spec 3). A key whose latest
pod fails an early return keeps what it had. -/
theorem proxies_cache_after (env : Env) (ns : List (Notification Pod)) :
    (∀ k pod, latestObject Pod.key ns k = some pod → env.isNodeProxy pod = true →
      (k ∈ ((podHandlers env).deliver ns .empty).keys ↔ env.isPodReady pod = true)) ∧
    (∀ k, latestObject Pod.key ns k = none → k ∉ ((podHandlers env).deliver ns .empty).keys) ∧
    ∀ pod ∈ ((podHandlers env).deliver ns .empty).items,
      env.isNodeProxy pod = true ∧ env.isPodReady pod = true := by
  have hf := follows_deliver (podHandlers env)
    (fun n s => congrArg Prod.fst (podHandlers_onNotification env n s)) ns
  exact ⟨hf.gated, hf.gone, fun pod hp => ⟨(hf.stored pod hp).1, (hf.stored pod hp).2.1⟩⟩

def proxyPodElsewhere : Pod := ⟨⟨"kube-proxy-a1", "kube-system"⟩, ⟨"192.0.2.2", [⟨"Ready", "True"⟩]⟩⟩

/-- A cached proxy whose update reports another host address stays cached: `podAdd` returns at
the address check before it reaches the branch that removes. -/
theorem proxy_update_off_node_stays_cached :
    latestObject Pod.key [.add proxyPod, .update proxyPod proxyPodElsewhere] proxyPod.key =
        some proxyPodElsewhere ∧
      proxyPodElsewhere.status.hostIP ≠ nodeEnv.hostIP ∧
      proxyPod.key ∈ ((podHandlers nodeEnv).deliver
        [.add proxyPod, .update proxyPod proxyPodElsewhere] .empty).keys := by
  decide

end Proxies

/-- Spec 5: the notifications about different objects may come in any order. What each cache
holds under a key depends only on the notifications about that key, in their order. -/
theorem caches_per_key (env : Env) (pods : List (Notification Pod))
    (services : List (Notification Service)) (endpoints : List (Notification Endpoints))
    (k : String) :
    ((podHandlers env).deliver pods .empty).get k =
        ((podHandlers env).deliver (pods.filter fun n => n.object.key = k) .empty).get k ∧
      (serviceHandlers.deliver services .empty).get k =
        (serviceHandlers.deliver (services.filter fun n => n.object.key = k) .empty).get k ∧
      (endpointsHandlers.deliver endpoints .empty).get k =
        (endpointsHandlers.deliver (endpoints.filter fun n => n.object.key = k) .empty).get k :=
  ⟨get_deliver_filter _ (fun n s => congrArg Prod.fst (podHandlers_onNotification env n s)) _ _ k,
    get_deliver_filter _ serviceHandlers_onNotification_fst _ _ k,
    get_deliver_filter _ (fun n s => congrArg Prod.fst (endpointsHandlers_onNotification n s)) _ _ k⟩

end KubeParrot
