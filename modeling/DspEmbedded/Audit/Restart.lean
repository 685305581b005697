import DspEmbedded.Audit.Registration
import DspEmbedded.Audit.Routes

/-!
# Restarting the protocol stack

Cycles of `dsp_protocol_start` and `dsp_protocol_stop` with any pattern of server
starts that succeed or fail. Stopping resets every module but the route table of
`dsp_http.c`: after a first cycle the table begins with a route that the next
start registers once more, as a duplicate or against the kept one.
-/
namespace DspEmbedded.Audit.Restart

open Lib.CString Lib.SlotTable Model.Esp Model.Http Model.RtcState Model.Protocol Audit.Routes
open Audit.Registration (served served_first foldl_used)

variable {negMax xferMax : Nat} {uriMatch : CStr → CStr → Bool} {cfg : Config}
  {h : HttpModule Handler}

/-! ## Cycles -/

/-- A start on a board where everything but the server is known to work. -/
def start (uriMatch : CStr → CStr → Bool) (cfg : Config) (n : Node negMax xferMax)
    (started : EspErr) : Node negMax xferMax :=
  (protocolInit uriMatch cfg ⟨.ok, true, started⟩ n).2

def cycle (uriMatch : CStr → CStr → Bool) (cfg : Config) (n : Node negMax xferMax)
    (started : EspErr) : Node negMax xferMax :=
  dspProtocolStop (start uriMatch cfg n started)

/-- The node after one cycle for each element of the pattern. -/
def afterCycles (uriMatch : CStr → CStr → Bool) (cfg : Config) (store : RtcStore negMax xferMax)
    (pattern : List EspErr) : Node negMax xferMax :=
  pattern.foldl (cycle uriMatch cfg) (Node.boot store)

/-- The route that an entry of the table stands for. -/
def entryRoute (e : RouteEntry Handler) : Option (Route Handler) :=
  e.handler.map fun handler => ⟨e.uri.str, e.method, handler⟩

/-- The routes in `s_routes`. -/
def tableRoutes (h : HttpModule Handler) : List (Route Handler) :=
  (h.routes.slots.filter RouteEntry.used).filterMap entryRoute

/-- Between the two states every registration was made and has succeeded, and the
table holds each route of the build once. -/
structure Restarts (cfg : Config) (before after : HttpModule Handler) : Prop where
  registered : after.results = before.results ++ List.replicate (routesOf cfg).length .ok
  once : ∀ r ∈ routesOf cfg, (tableRoutes after).count r = 1

/-! ## The registrations of one start -/

/-- The routes that are registered together, so that a failure skips the rest of them. -/
def groups (cfg : Config) : List (List (Route Handler)) :=
  [[catalogRoute]] ++ (if cfg.enableCatalogRequest then [[catalogRequestRoute]] else []) ++
    [negRoutes cfg, xferRoutes]

def registerGroups (uriMatch : CStr → CStr → Bool) (gs : List (List (Route Handler)))
    (h : HttpModule Handler) : HttpModule Handler :=
  gs.foldl (fun h rs => (registerInOrder uriMatch h rs).2) h

theorem flatten_groups (cfg : Config) : (groups cfg).flatten = routesOf cfg := by
  rcases cfg with ⟨c, t⟩
  cases c <;> cases t <;> rfl

theorem http_start (n : Node negMax xferMax) (started : EspErr) :
    (start uriMatch cfg n started).http =
      registerGroups uriMatch (groups cfg) (dspHttpStart uriMatch started n.http).2 := by
  rw [start, protocolInit_registers uriMatch cfg rfl rfl]
  cases hc : cfg.enableCatalogRequest <;>
    simp [registerGroups, groups, registerCatalog, hc]

/-- A registration appends to the results, and to the table or not. -/
structure Grows (h h' : HttpModule Handler) : Prop where
  packed : Packed RouteEntry.used h'.routes
  live : live RouteEntry.used h.routes <+: live RouteEntry.used h'.routes
  results : h.results <+: h'.results
  running : h'.running = h.running
  server : h.running = true → h.server.isSome = true → h'.server.isSome = true

theorem Grows.refl (hp : Packed RouteEntry.used h.routes) : Grows h h :=
  ⟨hp, List.prefix_refl _, List.prefix_refl _, rfl, fun _ => id⟩

theorem Grows.trans {h h' h'' : HttpModule Handler} (a : Grows h h') (b : Grows h' h'') :
    Grows h h'' where
  packed := b.packed
  live := a.live.trans b.live
  results := a.results.trans b.results
  running := b.running.trans a.running
  server := fun hrun hsome => b.server (a.running.trans hrun) (a.server hrun hsome)

variable (uriMatch) in
theorem grows_register (hp : Packed RouteEntry.used h.routes) (r : Route Handler) :
    Grows h (dspHttpRegisterHandler uriMatch h (some r.uri) r.method (some r.handler)).2 := by
  have hresults := results_register uriMatch h (some r.uri) r.method (some r.handler)
  by_cases hroom : (live RouteEntry.used h.routes).length < dspHttpMaxRoutes
  · have hreg := register_registers uriMatch hp hroom r
    refine ⟨hreg.packed, hreg.live ▸ List.prefix_append _ _,
      hresults ▸ List.prefix_append _ _, hreg.running, ?_⟩
    intro hrun hsome
    obtain ⟨server, hserver⟩ := Option.isSome_iff_exists.mp hsome
    rw [(hreg.served server hrun hserver).2]
    rfl
  · rw [register_full uriMatch hp (Nat.le_of_not_lt hroom)] at hresults ⊢
    exact ⟨hp, List.prefix_refl _, hresults ▸ List.prefix_append _ _, rfl, fun _ => id⟩

variable (uriMatch) in
theorem grows_inOrder (hp : Packed RouteEntry.used h.routes) (rs : List (Route Handler)) :
    Grows h (registerInOrder uriMatch h rs).2 := by
  induction rs generalizing h with
  | nil => exact .refl hp
  | cons r rest ih =>
    have hone := grows_register uriMatch hp r
    rw [registerInOrder_cons]
    split_ifs
    · exact hone.trans (ih hone.packed)
    · exact hone

variable (uriMatch) in
theorem grows_groups (hp : Packed RouteEntry.used h.routes) (gs : List (List (Route Handler))) :
    Grows h (registerGroups uriMatch gs h) := by
  induction gs generalizing h with
  | nil => exact .refl hp
  | cons rs gs ih =>
    have hone := grows_inOrder uriMatch hp rs
    exact hone.trans (ih hone.packed)

/-! ## A start whose registrations all succeed -/

theorem inOrder_allOk (hp : Packed RouteEntry.used h.routes) (rs : List (Route Handler))
    (hok : AllOk (registerInOrder uriMatch h rs).2) :
    live RouteEntry.used (registerInOrder uriMatch h rs).2.routes =
        live RouteEntry.used h.routes ++ rs.map Route.entry ∧
      (registerInOrder uriMatch h rs).2.results =
        h.results ++ List.replicate rs.length .ok := by
  induction rs generalizing h with
  | nil => exact ⟨(List.append_nil _).symm, (List.append_nil _).symm⟩
  | cons r rest ih =>
    have hresults := results_register uriMatch h (some r.uri) r.method (some r.handler)
    have hpacked := (grows_register uriMatch hp r).packed
    have hfirst : (dspHttpRegisterHandler uriMatch h (some r.uri) r.method
        (some r.handler)).1 = .ok := by
      have hgrows : (dspHttpRegisterHandler uriMatch h (some r.uri) r.method
          (some r.handler)).2.results <+: (registerInOrder uriMatch h (r :: rest)).2.results := by
        rw [registerInOrder_cons]
        split_ifs
        · exact (grows_inOrder uriMatch hpacked rest).results
        · exact List.prefix_refl _
      apply hok _ (hgrows.subset _)
      rw [hresults]
      simp
    have hroom : (live RouteEntry.used h.routes).length < dspHttpMaxRoutes := by
      by_contra hfull
      rw [register_full uriMatch hp (Nat.le_of_not_lt hfull)] at hfirst
      cases hfirst
    have hlive := (register_registers uriMatch hp hroom r).live
    rw [registerInOrder_cons, if_pos hfirst] at hok ⊢
    obtain ⟨htable, hres⟩ := ih hpacked hok
    rw [htable, hres, hlive, hresults, hfirst]
    constructor
    · simp
    · rw [List.append_assoc, List.length_cons, List.replicate_succ]
      rfl

theorem groups_allOk (hp : Packed RouteEntry.used h.routes) (gs : List (List (Route Handler)))
    (hok : AllOk (registerGroups uriMatch gs h)) :
    live RouteEntry.used (registerGroups uriMatch gs h).routes =
        live RouteEntry.used h.routes ++ gs.flatten.map Route.entry ∧
      (registerGroups uriMatch gs h).results =
        h.results ++ List.replicate gs.flatten.length .ok := by
  induction gs generalizing h with
  | nil => exact ⟨(List.append_nil _).symm, (List.append_nil _).symm⟩
  | cons rs gs ih =>
    have hone := grows_inOrder uriMatch hp rs
    have hrest := grows_groups uriMatch hone.packed gs
    have hfirst : AllOk (registerInOrder uriMatch h rs).2 :=
      fun err herr => hok err (hrest.results.subset herr)
    obtain ⟨htable, hres⟩ := inOrder_allOk hp rs hfirst
    obtain ⟨htable', hres'⟩ := ih hone.packed hok
    constructor
    · rw [List.flatten_cons, List.map_append, ← List.append_assoc, ← htable]
      exact htable'
    · rw [List.flatten_cons, List.length_append, List.replicate_add, ← List.append_assoc, ← hres]
      exact hres'

/-! ## Without a server -/

variable (uriMatch) in
theorem inOrder_stopped (hp : Packed RouteEntry.used h.routes) (hstop : h.running = false)
    (hok : AllOk h) (rs : List (Route Handler))
    (hroom : (live RouteEntry.used h.routes).length + rs.length ≤ dspHttpMaxRoutes) :
    AllOk (registerInOrder uriMatch h rs).2 ∧
      (registerInOrder uriMatch h rs).2.running = false := by
  induction rs generalizing h with
  | nil => exact ⟨hok, hstop⟩
  | cons r rest ih =>
    rw [List.length_cons] at hroom
    have hreg := register_registers uriMatch hp (by omega) r
    have hresults := results_register uriMatch h (some r.uri) r.method (some r.handler)
    have hfirst := (hreg.stopped hstop).1
    have hlive := congrArg List.length hreg.live
    rw [hfirst] at hresults
    rw [if_pos hfirst, List.length_append, List.length_singleton] at hlive
    rw [registerInOrder_cons, if_pos hfirst]
    apply ih hreg.packed (hreg.running.trans hstop) _ (by omega)
    intro err herr
    rw [hresults] at herr
    rcases List.mem_append.mp herr with hold | hnew
    · exact hok err hold
    · exact List.mem_singleton.mp hnew

theorem groups_stopped (hp : Packed RouteEntry.used h.routes) (hstop : h.running = false)
    (hok : AllOk h) (gs : List (List (Route Handler)))
    (hroom : (live RouteEntry.used h.routes).length + gs.flatten.length ≤ dspHttpMaxRoutes) :
    AllOk (registerGroups uriMatch gs h) := by
  induction gs generalizing h with
  | nil => exact hok
  | cons rs gs ih =>
    rw [List.flatten_cons, List.length_append] at hroom
    have hone := inOrder_stopped uriMatch hp hstop hok rs (by omega)
    have hlive := congrArg List.length (inOrder_allOk hp rs hone.1).1
    rw [List.length_append, List.length_map] at hlive
    have hrest : (live RouteEntry.used (registerInOrder uriMatch h rs).2.routes).length +
        gs.flatten.length ≤ dspHttpMaxRoutes := by omega
    exact ih (grows_inOrder uriMatch hp rs).packed hone.2 hone.1 hrest

/-! ## The table after a start that succeeds -/

theorem entryRoute_entry {r : Route Handler} (hlen : r.uri.length < 64) :
    entryRoute r.entry = some r := by
  have huri : r.entry.uri.str = r.uri := by
    rw [Route.entry, CStr.take_of_length_le (Nat.le_of_lt_succ hlen), CharBuf.str_ofStr hlen]
  rw [entryRoute, huri]
  rfl

theorem tableRoutes_eq (hp : Packed RouteEntry.used h.routes) :
    tableRoutes h = (live RouteEntry.used h.routes).filterMap entryRoute := by
  rw [tableRoutes, filter_active hp]

theorem nodup_routes (cfg : Config) : (routesOf cfg).Nodup := by
  rcases cfg with ⟨c, t⟩
  cases c <;> cases t <;> decide +kernel

theorem length_routes (cfg : Config) : (routesOf cfg).length ≤ dspHttpMaxRoutes := by
  rcases cfg with ⟨c, t⟩
  cases c <;> cases t <;> decide

/-- From an empty table, registrations that all succeed put every route in its place. -/
theorem restarts_of_allOk (hp : Packed RouteEntry.used h.routes)
    (hempty : live RouteEntry.used h.routes = [])
    (hok : AllOk (registerGroups uriMatch (groups cfg) h)) :
    (registerGroups uriMatch (groups cfg) h).results =
        h.results ++ List.replicate (routesOf cfg).length .ok ∧
      ∀ r ∈ routesOf cfg, (tableRoutes (registerGroups uriMatch (groups cfg) h)).count r = 1 := by
  obtain ⟨hlive, hresults⟩ := groups_allOk hp (groups cfg) hok
  rw [flatten_groups] at hlive hresults
  rw [hempty, List.nil_append] at hlive
  have htable : tableRoutes (registerGroups uriMatch (groups cfg) h) = routesOf cfg := by
    rw [tableRoutes_eq (grows_groups uriMatch hp _).packed, hlive, List.filterMap_map]
    have hentry : ∀ r ∈ routesOf cfg, (entryRoute ∘ Route.entry) r = some r :=
      fun r hr => entryRoute_entry (plain_routes r hr).2
    rw [List.filterMap_congr hentry, List.filterMap_some]
  refine ⟨hresults, ?_⟩
  intro r hr
  rw [htable]
  rw [(nodup_routes cfg).count, if_pos hr]

/-! ## What a cycle leaves behind -/

/-- The server is down and the table begins with the catalog route. -/
structure Kept (h : HttpModule Handler) : Prop where
  packed : Packed RouteEntry.used h.routes
  stopped : h.running = false
  first : ∃ rest, live RouteEntry.used h.routes = catalogRoute.entry :: rest

variable (uriMatch) in
theorem start_keeps (started : EspErr) (h : HttpModule Handler) :
    (dspHttpStart uriMatch started h).2.routes = h.routes ∧
      (dspHttpStart uriMatch started h).2.results = h.results := by
  unfold dspHttpStart
  split_ifs <;> exact ⟨rfl, rfl⟩

variable (uriMatch) in
/-- A start that fails changes nothing; one that succeeds serves the table. -/
theorem start_cases (hp : Packed RouteEntry.used h.routes) (hstop : h.running = false)
    (started : EspErr) :
    started ≠ .ok ∧ (dspHttpStart uriMatch started h).2.running = false ∨
    started = .ok ∧ (dspHttpStart uriMatch started h).2.running = true ∧
      (dspHttpStart uriMatch started h).2.server =
        some (served uriMatch (live RouteEntry.used h.routes)) := by
  unfold dspHttpStart
  rw [hstop, if_neg Bool.false_ne_true]
  split_ifs with herr
  · exact .inl ⟨herr, hstop⟩
  · refine .inr ⟨not_not.mp herr, rfl, ?_⟩
    show some _ = some _
    rw [foldl_used hp]

theorem catalog_length : catalogRoute.uri.length < 64 := by decide +kernel

variable (uriMatch) in
/-- The other registrations follow that of the catalog route. -/
theorem groups_first (cfg : Config) (hp : Packed RouteEntry.used h.routes) :
    Grows (dspHttpRegisterHandler uriMatch h (some catalogRoute.uri) catalogRoute.method
      (some catalogRoute.handler)).2 (registerGroups uriMatch (groups cfg) h) := by
  have hone := grows_register uriMatch hp catalogRoute
  have hfirst : (registerInOrder uriMatch h [catalogRoute]).2 =
      (dspHttpRegisterHandler uriMatch h (some catalogRoute.uri) catalogRoute.method
        (some catalogRoute.handler)).2 := by
    rw [registerInOrder_cons]
    split_ifs <;> rfl
  have hrest := grows_groups uriMatch (hfirst ▸ hone.packed)
    ((groups cfg).tail)
  rw [hfirst] at hrest
  have hgroups : registerGroups uriMatch (groups cfg) h =
      registerGroups uriMatch (groups cfg).tail (registerInOrder uriMatch h [catalogRoute]).2 :=
    rfl
  rw [hgroups, hfirst]
  exact hrest

variable (uriMatch) in
/-- On an empty table the catalog route is registered whether or not the server runs. -/
theorem catalog_registered (hp : Packed RouteEntry.used h.routes)
    (hempty : live RouteEntry.used h.routes = [])
    (hserver : h.running = false ∨ h.running = true ∧ h.server = some []) :
    live RouteEntry.used (dspHttpRegisterHandler uriMatch h (some catalogRoute.uri)
      catalogRoute.method (some catalogRoute.handler)).2.routes = [catalogRoute.entry] := by
  have hroom : (live RouteEntry.used h.routes).length < dspHttpMaxRoutes := by
    rw [hempty]
    decide
  have hreg := register_registers uriMatch hp hroom catalogRoute
  have hok : (dspHttpRegisterHandler uriMatch h (some catalogRoute.uri) catalogRoute.method
      (some catalogRoute.handler)).1 = .ok := by
    rcases hserver with hstop | ⟨hrun, hnone⟩
    · exact (hreg.stopped hstop).1
    · rw [(hreg.served [] hrun hnone).1, applyRoute_entry catalog_length]
      rfl
  rw [hreg.live, hempty, if_pos hok, List.nil_append]

/-- Stopping ends a running server and leaves the table. -/
theorem stop_keeps (hserver : h.running = true → h.server.isSome = true) :
    (dspHttpStop h).running = false ∧ (dspHttpStop h).routes = h.routes := by
  unfold dspHttpStop
  cases hrun : h.running with
  | false => exact ⟨hrun, rfl⟩
  | true =>
    obtain ⟨server, hsome⟩ := Option.isSome_iff_exists.mp (hserver hrun)
    rw [hsome]
    exact ⟨rfl, rfl⟩

/-- A first cycle leaves the catalog route behind, and every later one keeps it. -/
theorem kept_cycle (cfg : Config) (hp : Packed RouteEntry.used h.routes)
    (hstop : h.running = false)
    (hfirst : live RouteEntry.used h.routes = [] ∨
      ∃ rest, live RouteEntry.used h.routes = catalogRoute.entry :: rest) (started : EspErr) :
    Kept (dspHttpStop
      (registerGroups uriMatch (groups cfg) (dspHttpStart uriMatch started h).2)) := by
  obtain ⟨hroutes, -⟩ := start_keeps uriMatch started h
  have hstarted := start_cases uriMatch hp hstop started
  generalize (dspHttpStart uriMatch started h).2 = h₁ at hroutes hstarted
  rw [← hroutes] at hp hfirst hstarted
  have hgrows := groups_first uriMatch cfg hp
  have hone := grows_register uriMatch hp catalogRoute
  have hall := hone.trans hgrows
  have hserver : h₁.running = true → h₁.server.isSome = true := by
    intro hrun
    rcases hstarted with ⟨-, hfalse⟩ | ⟨-, -, hsome⟩
    · rw [hrun] at hfalse
      cases hfalse
    · rw [hsome]
      rfl
  obtain ⟨hstopped, htable⟩ := stop_keeps (h := registerGroups uriMatch (groups cfg) h₁)
    fun hrun => hall.server (hall.running ▸ hrun) (hserver (hall.running ▸ hrun))
  refine ⟨htable ▸ hall.packed, hstopped, ?_⟩
  rw [htable]
  rcases hfirst with hempty | ⟨rest, hrest⟩
  · have hcatalog := catalog_registered uriMatch hp hempty <| by
      rcases hstarted with ⟨-, hfalse⟩ | ⟨-, hrun, hsome⟩
      · exact .inl hfalse
      · rw [hempty] at hsome
        exact .inr ⟨hrun, hsome⟩
    obtain ⟨more, hmore⟩ := hgrows.live
    rw [hcatalog] at hmore
    exact ⟨more, hmore.symm⟩
  · obtain ⟨more, hmore⟩ := hall.live
    rw [hrest] at hmore
    exact ⟨rest ++ more, hmore.symm⟩

theorem http_cycle (n : Node negMax xferMax) (started : EspErr) :
    (cycle uriMatch cfg n started).http =
      dspHttpStop (registerGroups uriMatch (groups cfg)
        (dspHttpStart uriMatch started n.http).2) := by
  rw [← http_start]
  rfl

theorem kept_run (cfg : Config) {n : Node negMax xferMax} (hk : Kept n.http)
    (pattern : List EspErr) : Kept (pattern.foldl (cycle uriMatch cfg) n).http := by
  induction pattern generalizing n with
  | nil => exact hk
  | cons started pattern ih =>
    apply ih
    rw [http_cycle]
    exact kept_cycle cfg hk.packed hk.stopped (.inr hk.first) started

theorem boot_table : Packed RouteEntry.used (HttpModule.boot : HttpModule Handler).routes ∧
    live RouteEntry.used (HttpModule.boot : HttpModule Handler).routes = [] :=
  ⟨packed_fill rfl, live_fill rfl⟩

theorem kept_afterCycles (cfg : Config) (store : RtcStore negMax xferMax) (started : EspErr)
    (pattern : List EspErr) :
    Kept (afterCycles uriMatch cfg store (started :: pattern)).http := by
  have hfirst : Kept (cycle uriMatch cfg (Node.boot store) started).http := by
    rw [http_cycle]
    exact kept_cycle cfg boot_table.1 rfl (.inl boot_table.2) started
  exact kept_run cfg hfirst pattern

/-! ## The next start -/

/-- With a route kept from before, a start has a failed registration or a route twice. -/
theorem not_restarts (hm : WildcardMatch uriMatch) {before : HttpModule Handler}
    (hk : Kept before) (next : EspErr) :
    ¬ Restarts cfg before
      (registerGroups uriMatch (groups cfg) (dspHttpStart uriMatch next before).2) := by
  intro hr
  obtain ⟨rest, hrest⟩ := hk.first
  obtain ⟨hroutes, hresults⟩ := start_keeps uriMatch next before
  have hstarted := start_cases uriMatch hk.packed hk.stopped next
  have hp := hk.packed
  generalize (dspHttpStart uriMatch next before).2 = h₁ at hroutes hresults hstarted hr
  rw [← hroutes] at hp hrest hstarted
  have hgrows := groups_first uriMatch cfg hp
  have hlog := results_register uriMatch h₁ (some catalogRoute.uri) catalogRoute.method
    (some catalogRoute.handler)
  -- the first registration of this start has to be among the successful ones
  have hok : (dspHttpRegisterHandler uriMatch h₁ (some catalogRoute.uri) catalogRoute.method
      (some catalogRoute.handler)).1 = .ok := by
    obtain ⟨more, hmore⟩ := hgrows.results
    rw [hlog, hresults, hr.registered, List.append_assoc, List.append_cancel_left_eq] at hmore
    apply List.eq_of_mem_replicate (n := (routesOf cfg).length)
    rw [← hmore]
    simp
  have hroom : (live RouteEntry.used h₁.routes).length < dspHttpMaxRoutes := by
    by_contra hfull
    rw [register_full uriMatch hp (Nat.le_of_not_lt hfull)] at hok
    cases hok
  have hreg := register_registers uriMatch hp hroom catalogRoute
  rcases hstarted with ⟨-, hstop⟩ | ⟨-, hrun, hserver⟩
  · -- without a server it is a duplicate
    obtain ⟨more, hmore⟩ := hgrows.live
    rw [hreg.live, if_pos hok, hrest] at hmore
    have honce := hr.once catalogRoute (by
      rw [routesOf, catalogRoutes]
      simp)
    rw [tableRoutes_eq hgrows.packed, ← hmore, List.filterMap_append, List.filterMap_append,
      List.filterMap_cons_some (entryRoute_entry catalog_length),
      List.filterMap_cons_some (entryRoute_entry catalog_length)] at honce
    simp only [List.count_append, List.count_cons_self] at honce
    omega
  · -- with a server it is refused, since the kept one is applied first
    have hshadow : ∃ s ∈ served uriMatch (live RouteEntry.used h₁.routes),
        Shadows uriMatch s catalogRoute := by
      refine ⟨catalogRoute, hrest ▸ served_first catalog_length rest, rfl, ?_⟩
      rw [hm.exact (by decide +kernel) (by decide +kernel)]
    rw [(hreg.served _ hrun hserver).1, applyRoute_entry catalog_length, httpdRegisterUriHandler,
      if_pos (findUriHandler_isSome.mpr hshadow)] at hok
    cases hok

theorem allOk_first (hm : WildcardMatch uriMatch) {next : EspErr}
    (hcase : cfg.enableNegotiateTerminate = false ∨ next ≠ .ok)
    (store : RtcStore negMax xferMax) :
    AllOk (start uriMatch cfg (Node.boot store) next).http := by
  by_cases hnext : next = .ok
  · subst hnext
    have ht := hcase.resolve_right (not_not.mpr rfl)
    have hworks : Platform.Works ⟨.ok, true, .ok⟩ := ⟨rfl, rfl, rfl⟩
    exact (registered_all hm ht hworks store).2
  · rw [http_start]
    have hboot : (Node.boot store).http = .boot := rfl
    obtain ⟨hroutes, hresults⟩ := start_keeps uriMatch next .boot
    have hstop := start_cases uriMatch boot_table.1 rfl next
    rw [hboot]
    generalize (dspHttpStart uriMatch next .boot).2 = h₁ at hroutes hresults hstop
    have hempty : live RouteEntry.used h₁.routes = [] := by
      rw [hroutes]
      exact boot_table.2
    have hnone : AllOk h₁ := by
      intro err herr
      rw [hresults] at herr
      cases herr
    apply groups_stopped (hroutes ▸ boot_table.1) _ hnone
    · rw [hempty, flatten_groups, List.length_nil, Nat.zero_add]
      exact length_routes cfg
    · rcases hstop with ⟨-, hfalse⟩ | ⟨hok, -⟩
      · exact hfalse
      · exact absurd hok hnext

/-- **Restarts.** A start registers everything, each route once, exactly when it is
the first one and the termination endpoint is not compiled in or there is no
server to refuse it. -/
theorem restarts_iff (hm : WildcardMatch uriMatch) (cfg : Config)
    (store : RtcStore negMax xferMax) (pattern : List EspErr) (next : EspErr) :
    Restarts cfg (afterCycles uriMatch cfg store pattern).http
        (start uriMatch cfg (afterCycles uriMatch cfg store pattern) next).http ↔
      pattern = [] ∧ (cfg.enableNegotiateTerminate = false ∨ next ≠ .ok) := by
  cases pattern with
  | cons started pattern =>
    refine ⟨?_, fun h => by cases h.1⟩
    rw [http_start]
    exact fun h => absurd h (not_restarts hm (kept_afterCycles cfg store started pattern) next)
  | nil =>
    show Restarts cfg .boot (start uriMatch cfg (Node.boot store) next).http ↔ _
    constructor
    · intro hr
      refine ⟨rfl, ?_⟩
      by_contra hboth
      rw [not_or, Bool.not_eq_false, not_not] at hboth
      obtain ⟨ht, rfl⟩ := hboth
      have hworks : Platform.Works ⟨.ok, true, .ok⟩ := ⟨rfl, rfl, rfl⟩
      have hfail := registered_fails hm ht hworks store
      have hresults := hr.registered
      rw [start] at hresults
      rw [hresults] at hfail
      exact absurd (List.eq_of_mem_replicate hfail) (by decide)
    · intro h
      have hok := allOk_first hm h.2 store
      obtain ⟨hroutes, hresults⟩ :=
        start_keeps uriMatch next (Node.boot store).http
      rw [http_start] at hok ⊢
      have hrestart := restarts_of_allOk (hroutes ▸ boot_table.1)
        (by rw [hroutes]; exact boot_table.2) hok
      exact ⟨hrestart.1.trans (by rw [hresults]; rfl), hrestart.2⟩

/-- The first start of the default build. -/
theorem restarts_first :
    Restarts ⟨false, false⟩ (afterCycles wildcardMatch ⟨false, false⟩ (.zero 4 2) []).http
      (start wildcardMatch ⟨false, false⟩
        (afterCycles wildcardMatch ⟨false, false⟩ (.zero 4 2) []) .ok).http :=
  (restarts_iff wildcardMatch_wildcard _ _ _ _).mpr ⟨rfl, .inl rfl⟩

/-- The second start of the default build is refused every route, and without a
server it has GET `/catalog` twice in its table. -/
theorem second_start_counterexample :
    ¬ Restarts ⟨false, false⟩ (afterCycles wildcardMatch ⟨false, false⟩ (.zero 4 2) [.ok]).http
        (start wildcardMatch ⟨false, false⟩
          (afterCycles wildcardMatch ⟨false, false⟩ (.zero 4 2) [.ok]) .ok).http ∧
      (tableRoutes (start wildcardMatch ⟨false, false⟩
        (afterCycles wildcardMatch ⟨false, false⟩ (.zero 4 2) [.fail]) .fail).http).count
          catalogRoute = 2 := by
  constructor
  · intro hr
    have hlast : (start wildcardMatch ⟨false, false⟩
        (afterCycles wildcardMatch ⟨false, false⟩ (.zero 4 2) [.ok]) .ok).http.results.getLast? =
        some .httpdHandlerExists := by
      decide +kernel
    rw [hr.registered] at hlast
    have hsome : (List.replicate (routesOf ⟨false, false⟩).length EspErr.ok).getLast? =
        some .ok := by
      decide
    rw [List.getLast?_append, hsome] at hlast
    cases hlast
  · decide +kernel

end DspEmbedded.Audit.Restart
