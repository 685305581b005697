import DspEmbedded.Audit.Restart

/-!
# What a running server serves

Stopping leaves the route table, every later start adds to it. In builds without the
termination endpoint this shows in the results of the registrations only: a server
that runs serves the routes of the build, each once and in their order, whatever the
starts before it have come to.
-/
namespace DspEmbedded.Audit.ServedRoutes

open Lib.CString Lib.SlotTable Model.Esp Model.PathId Model.Http Model.Protocol
open Audit.Registration (served served_snoc applyRoute_refused foldl_used)
open Audit.Routes Audit.Restart

variable {uriMatch : CStr → CStr → Bool} {cfg : Config} {h : HttpModule Handler}
  {rs : List (Route Handler)} {r : Route Handler}

/-! ## The first registrations -/

/-- The routes `rs` have been registered, and nothing else. -/
structure Holds (h : HttpModule Handler) (rs : List (Route Handler)) : Prop where
  packed : Packed RouteEntry.used h.routes
  table : live RouteEntry.used h.routes = rs.map Route.entry
  server : h.running = true → h.server = some rs
  closed : h.running = false → h.server = none

theorem holds_boot : Holds .boot [] where
  packed := boot_table.1
  table := boot_table.2
  server := fun hrun => nomatch hrun
  closed := fun _ => rfl

theorem holds_register (hh : Holds h rs) (hlen : r.uri.length < 64)
    (hroom : rs.length < dspHttpMaxRoutes) (hfresh : ∀ s ∈ rs, ¬ Shadows uriMatch s r) :
    (dspHttpRegisterHandler uriMatch h (some r.uri) r.method (some r.handler)).1 = .ok ∧
      Holds (dspHttpRegisterHandler uriMatch h (some r.uri) r.method (some r.handler)).2
        (rs ++ [r]) := by
  have hreg := register_registers uriMatch hh.packed
    (by rw [hh.table, List.length_map]; exact hroom) r
  generalize dspHttpRegisterHandler uriMatch h (some r.uri) r.method (some r.handler) = res
    at hreg ⊢
  have hok : res.1 = .ok ∧ (res.2.running = true → res.2.server = some (rs ++ [r])) ∧
      (res.2.running = false → res.2.server = none) := by
    rw [hreg.running]
    cases hrun : h.running with
    | false =>
      obtain ⟨hok, hsame⟩ := hreg.stopped hrun
      exact ⟨hok, (fun h => Bool.noConfusion h), fun _ => hsame.trans (hh.closed hrun)⟩
    | true =>
      have hfound : ¬ (httpdFindUriHandler uriMatch rs r.uri r.method).isSome = true := by
        rw [findUriHandler_isSome]
        rintro ⟨s, hmem, hs⟩
        exact hfresh s hmem hs
      have hadded : httpdRegisterUriHandler uriMatch rs r = (.ok, rs ++ [r]) := by
        rw [httpdRegisterUriHandler, if_neg hfound, if_neg (by omega)]
      have hserved := hreg.served rs hrun (hh.server hrun)
      rw [applyRoute_entry hlen, hadded] at hserved
      exact ⟨hserved.1, fun _ => hserved.2, fun h => Bool.noConfusion h⟩
  refine ⟨hok.1, hreg.packed, ?_, hok.2.1, hok.2.2⟩
  rw [hreg.live, if_pos hok.1, hh.table, List.map_append, List.map_singleton]

theorem holds_inOrder (hu : Unshadowed uriMatch (routesOf cfg)) (rest : List (Route Handler))
    (hh : Holds h rs) (hsub : rs ++ rest <+: routesOf cfg) :
    Holds (registerInOrder uriMatch h rest).2 (rs ++ rest) := by
  induction rest generalizing h rs with
  | nil => rwa [List.append_nil]
  | cons r rest ih =>
    have hmem : r ∈ routesOf cfg := hsub.subset (by simp)
    have hcount := hsub.length_le.trans (length_routes cfg)
    rw [List.length_append, List.length_cons] at hcount
    have hprefix : Unshadowed uriMatch (rs ++ r :: rest) := hu.sublist hsub.sublist
    have hfresh := hprefix.fresh
    obtain ⟨hok, hnext⟩ := holds_register hh (plain_routes r hmem).2 (by omega) hfresh
    rw [registerInOrder_cons, if_pos hok]
    have hlist : rs ++ r :: rest = rs ++ [r] ++ rest := by simp
    rw [hlist] at hsub ⊢
    exact ih hnext hsub

theorem holds_groups (hu : Unshadowed uriMatch (routesOf cfg))
    (gs : List (List (Route Handler))) (hh : Holds h rs)
    (hsub : rs ++ gs.flatten <+: routesOf cfg) :
    Holds (registerGroups uriMatch gs h) (rs ++ gs.flatten) := by
  induction gs generalizing h rs with
  | nil =>
    rw [List.flatten_nil, List.append_nil]
    exact hh
  | cons g gs ih =>
    rw [List.flatten_cons, ← List.append_assoc] at hsub ⊢
    exact ih (holds_inOrder hu g hh ((List.prefix_append _ _).trans hsub)) hsub

/-! ## Further registrations -/

/-- All routes of the build have been registered, some perhaps again. -/
structure Complete (cfg : Config) (h : HttpModule Handler) : Prop where
  packed : Packed RouteEntry.used h.routes
  table : ∃ again, live RouteEntry.used h.routes = (routesOf cfg).map Route.entry ++ again ∧
    ∀ e ∈ again, ∃ r ∈ routesOf cfg, e = r.entry
  server : h.running = true → h.server = some (routesOf cfg)
  closed : h.running = false → h.server = none

theorem Holds.complete (hh : Holds h (routesOf cfg)) : Complete cfg h where
  packed := hh.packed
  table := ⟨[], by rw [hh.table, List.append_nil], by simp⟩
  server := hh.server
  closed := hh.closed

/-- A template matches itself. -/
theorem apply_again (hm : WildcardMatch uriMatch) (hr : r ∈ routesOf cfg) :
    applyRoute uriMatch (routesOf cfg) r.entry = (.httpdHandlerExists, routesOf cfg) := by
  have hself : ∀ r ∈ routesOf cfg, wildcardMatch r.uri r.uri = true := by
    rcases cfg with ⟨c, t⟩
    cases c <;> cases t <;> decide +kernel
  have hshadows : Shadows uriMatch r r :=
    ⟨rfl, (hm.eq (plain_routes r hr).1 _).trans (hself r hr)⟩
  rw [applyRoute_entry (plain_routes r hr).2, httpdRegisterUriHandler,
    if_pos (findUriHandler_isSome.mpr ⟨r, hr, hshadows⟩)]

theorem complete_register (hm : WildcardMatch uriMatch) (hc : Complete cfg h)
    (hr : r ∈ routesOf cfg) :
    Complete cfg (dspHttpRegisterHandler uriMatch h (some r.uri) r.method (some r.handler)).2 := by
  obtain ⟨again, htable, hagain⟩ := hc.table
  by_cases hroom : (live RouteEntry.used h.routes).length < dspHttpMaxRoutes
  · have hreg := register_registers uriMatch hc.packed hroom r
    generalize dspHttpRegisterHandler uriMatch h (some r.uri) r.method (some r.handler) = res
      at hreg ⊢
    refine ⟨hreg.packed, ⟨again ++ if res.1 = .ok then [r.entry] else [], ?_, ?_⟩, ?_, ?_⟩
    · rw [hreg.live, htable, List.append_assoc]
    · intro e he
      rcases List.mem_append.mp he with he | he
      · exact hagain e he
      · split_ifs at he with hok
        · exact ⟨r, hr, List.mem_singleton.mp he⟩
        · cases he
    · intro hrun
      rw [hreg.running] at hrun
      rw [(hreg.served _ hrun (hc.server hrun)).2, apply_again hm hr]
    · intro hrun
      rw [hreg.running] at hrun
      exact (hreg.stopped hrun).2.trans (hc.closed hrun)
  · rw [register_full uriMatch hc.packed (not_lt.mp hroom)]
    exact ⟨hc.packed, hc.table, hc.server, hc.closed⟩

theorem complete_inOrder (hm : WildcardMatch uriMatch) (rest : List (Route Handler))
    (hc : Complete cfg h) (hsub : rest ⊆ routesOf cfg) :
    Complete cfg (registerInOrder uriMatch h rest).2 := by
  induction rest generalizing h with
  | nil => exact hc
  | cons r rest ih =>
    obtain ⟨hr, hrest⟩ := List.cons_subset.mp hsub
    have hone := complete_register hm hc hr
    rw [registerInOrder_cons]
    split_ifs
    · exact ih hone hrest
    · exact hone

theorem complete_groups (hm : WildcardMatch uriMatch) (gs : List (List (Route Handler)))
    (hc : Complete cfg h) (hsub : gs.flatten ⊆ routesOf cfg) :
    Complete cfg (registerGroups uriMatch gs h) := by
  induction gs generalizing h with
  | nil => exact hc
  | cons g gs ih =>
    rw [List.flatten_cons, List.append_subset] at hsub
    exact ih (complete_inOrder hm g hc hsub.1) hsub.2

/-! ## Starts and stops -/

/-- Routes that do not shadow each other are all served. -/
theorem served_fresh {rs : List (Route Handler)} (hlen : ∀ r ∈ rs, r.uri.length < 64)
    (hroom : rs.length ≤ dspHttpMaxRoutes) (hu : Unshadowed uriMatch rs) :
    served uriMatch (rs.map Route.entry) = rs := by
  induction rs using List.reverseRecOn with
  | nil => rfl
  | append_singleton rs r ih =>
    rw [List.length_append, List.length_singleton] at hroom
    have hbefore : served uriMatch (rs.map Route.entry) = rs :=
      ih (fun r hr => hlen r (List.mem_append_left _ hr)) (by omega)
        (hu.sublist (List.sublist_append_left _ _))
    have hfound : ¬ (httpdFindUriHandler uriMatch rs r.uri r.method).isSome = true := by
      rw [findUriHandler_isSome]
      rintro ⟨s, hmem, hs⟩
      exact hu.fresh s hmem hs
    rw [List.map_append, List.map_singleton, served_snoc, hbefore,
      applyRoute_entry (hlen r (by simp)), httpdRegisterUriHandler, if_neg hfound,
      if_neg (by omega)]

theorem served_again (hm : WildcardMatch uriMatch) (hu : Unshadowed uriMatch (routesOf cfg))
    {again : List (RouteEntry Handler)} (h : ∀ e ∈ again, ∃ r ∈ routesOf cfg, e = r.entry) :
    served uriMatch ((routesOf cfg).map Route.entry ++ again) = routesOf cfg := by
  induction again using List.reverseRecOn with
  | nil =>
    rw [List.append_nil]
    exact served_fresh (fun r hr => (plain_routes r hr).2) (length_routes cfg) hu
  | append_singleton again e ih =>
    obtain ⟨r, hr, rfl⟩ := h e (by simp)
    rw [← List.append_assoc, served_snoc, ih fun e he => h e (List.mem_append_left _ he),
      apply_again hm hr]

theorem complete_start (hm : WildcardMatch uriMatch) (hu : Unshadowed uriMatch (routesOf cfg))
    (hc : Complete cfg h) (started : EspErr) :
    Complete cfg (dspHttpStart uriMatch started h).2 := by
  obtain ⟨again, htable, hagain⟩ := hc.table
  unfold dspHttpStart
  split_ifs
  · exact hc
  · exact hc
  · refine ⟨hc.packed, hc.table, ?_, fun hrun => nomatch hrun⟩
    intro _
    show some _ = _
    rw [foldl_used hc.packed, htable, served_again hm hu hagain]

variable (uriMatch) in
theorem holds_start (hh : Holds h []) (started : EspErr) :
    Holds (dspHttpStart uriMatch started h).2 [] := by
  unfold dspHttpStart
  split_ifs
  · exact hh
  · exact hh
  · refine ⟨hh.packed, hh.table, ?_, fun hrun => nomatch hrun⟩
    intro _
    show some _ = _
    rw [foldl_used hh.packed, hh.table]
    rfl

variable (uriMatch) in
theorem start_running (started : EspErr) (h : HttpModule Handler) :
    (dspHttpStart uriMatch started h).2.running = (h.running || decide (started = .ok)) := by
  unfold dspHttpStart
  cases hrun : h.running with
  | true => simp [hrun]
  | false =>
    by_cases hok : started = .ok
    · simp [hok]
    · simp [hok, hrun]

theorem complete_stop (hc : Complete cfg h) : Complete cfg (dspHttpStop h) := by
  unfold dspHttpStop
  split_ifs
  · exact hc
  · exact ⟨hc.packed, hc.table, (fun hrun => nomatch hrun), fun _ => rfl⟩

theorem holds_stop (hh : Holds h []) : Holds (dspHttpStop h) [] := by
  unfold dspHttpStop
  split_ifs
  · exact hh
  · exact ⟨hh.packed, hh.table, (fun hrun => nomatch hrun), fun _ => rfl⟩

theorem stop_running (hserver : h.running = true → h.server ≠ none) :
    (dspHttpStop h).running = false := by
  unfold dspHttpStop
  cases hrun : h.running with
  | false => exact hrun
  | true =>
    cases hs : h.server with
    | none => exact absurd hs (hserver hrun)
    | some server => rfl

theorem groups_running (hp : Packed RouteEntry.used h.routes) :
    (registerGroups uriMatch (groups cfg) h).running = h.running :=
  (grows_groups uriMatch hp (groups cfg)).running

end DspEmbedded.Audit.ServedRoutes
