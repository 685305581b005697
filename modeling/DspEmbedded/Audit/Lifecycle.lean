import DspEmbedded.Audit.WholeNode
import DspEmbedded.Model.ProtocolTask

/-!
# Requests during a start or a stop

A start and a stop take many calls, and requests come in between them. Where the init
stands still during a stop, and no stop begins among the registrations, the node answers
as the service does for which a start is one step, the call that starts the server, and
a stop is one step as well.
-/
namespace DspEmbedded.Audit.Lifecycle

open Lib.CString Lib.Runs Lib.Calls Lib.SlotTable Model.Esp Model.Http Model.Neg Model.RtcState
  Model.Protocol Model.Server Model.ProtocolTask Audit.Exchange Audit.ServedRoutes
open Model.Board (Device offerRequest)
open Audit.WholeNode hiding step Event
open Model.Xfer (XferModule XferEntry dspXferInit dspXferDeinit)
open Audit.Routes (WildcardMatch wildcardMatch plain_routes)
open Audit.Restart (length_routes)

variable {negMax xferMax : Nat} {uriMatch : CStr → CStr → Bool} {cfg : Config}
  {n : Node negMax xferMax} {s : Service}

/-! ## Where a node can be -/

/-- Server and route table are what the service says. -/
structure Core (cfg : Config) (http : HttpModule Handler) (s : Service) : Prop where
  running : http.running = s.up
  routed : s.routed = true → Complete cfg http
  fresh : s.routed = false → Holds http []

/-- Nothing is in the tables. -/
structure Blank (d : Device negMax xferMax) : Prop where
  neg : d.neg.table = Table.fill negMax .zero
  xfer : d.xfer.table = Table.fill xferMax .zero

/-- The tables say what the books say, or are blank where no request can reach them. -/
def Stage (P : Device negMax xferMax → Prop) (cfg : Config) (n : Node negMax xferMax)
    (s : Service) : Prop :=
  Core cfg n.http s ∧ (Represents n.device s.books ∨
    (Blank n.device ∧ P n.device ∧ s.books = .empty ∧ s.up = false))

/-- Before an init reaches the server, and after it. -/
def Settled (cfg : Config) (n : Node negMax xferMax) (s : Service) : Prop :=
  Stage (fun _ => True) cfg n s

theorem Stage.settled {P : Device negMax xferMax → Prop} (h : Stage P cfg n s) :
    Settled cfg n s :=
  ⟨h.1, h.2.imp_right fun hblank => ⟨hblank.1, trivial, hblank.2.2⟩⟩

/-- Among the registrations. -/
structure Opening (cfg : Config) (n : Node negMax xferMax) (s : Service) : Prop where
  running : n.http.running = s.up
  routed : s.routed = true
  routes : Complete cfg n.http ∨ ∃ rs, rs <+: routesOf cfg ∧ Holds n.http rs
  tables : Represents n.device s.books

/-- After the server of a stop. -/
structure Closed (cfg : Config) (n : Node negMax xferMax) (s : Service) : Prop where
  core : Core cfg n.http s
  up : s.up = false
  books : s.books = .empty

/-- Where a node is when the init comes to a call. -/
def taskAt (cfg : Config) (c : Call) (n : Node negMax xferMax) (s : Service) : Prop :=
  match c with
  | .loadInitialized _ | .dspHttpRegisterHandler _ => Opening cfg n s
  | _ => Settled cfg n s

/-- Where it is when a stop does. -/
def mainAt (cfg : Config) (c : Call) (n : Node negMax xferMax) (s : Service) : Prop :=
  match c with
  | .storeRunning _ | .dspHttpStop => Settled cfg n s
  | _ => Closed cfg n s

/-! ## Requests in between -/

/-- What requests leave behind. -/
structure Serves (x y : Node negMax xferMax × Service) : Prop where
  http : y.1.http = x.1.http
  catalog : y.1.catalogInitialized = x.1.catalogInitialized
  up : y.2.up = x.2.up
  routed : y.2.routed = x.2.routed
  tables : Represents x.1.device x.2.books → Represents y.1.device y.2.books
  closed : x.2.up = false → y = x

theorem serves_refl (x : Node negMax xferMax × Service) : Serves x x :=
  ⟨rfl, rfl, rfl, rfl, fun h => h, fun _ => rfl⟩

theorem serves_trans (x y z : Node negMax xferMax × Service) (hxy : Serves x y)
    (hyz : Serves y z) : Serves x z where
  http := hyz.http.trans hxy.http
  catalog := hyz.catalog.trans hxy.catalog
  up := hyz.up.trans hxy.up
  routed := hyz.routed.trans hxy.routed
  tables h := hyz.tables (hxy.tables h)
  closed h := by
    have hy := hxy.closed h
    rw [hyz.closed (by rw [hy]; exact h), hy]

theorem core_serves {x y : Node negMax xferMax × Service} (h : Core cfg x.1.http x.2)
    (hxy : Serves x y) : Core cfg y.1.http y.2 where
  running := by rw [hxy.http, hxy.up, h.running]
  routed := by rw [hxy.http, hxy.routed]; exact h.routed
  fresh := by rw [hxy.http, hxy.routed]; exact h.fresh

theorem stable_stage (P : Device negMax xferMax → Prop) :
    Stable Serves fun x : Node negMax xferMax × Service => Stage P cfg x.1 x.2 := by
  rintro x y hxy ⟨hcore, htables⟩
  refine ⟨core_serves hcore hxy, ?_⟩
  rcases htables with hrep | ⟨hblank, hP, hbooks, hup⟩
  · exact .inl (hxy.tables hrep)
  · rw [hxy.closed hup]
    exact .inr ⟨hblank, hP, hbooks, hup⟩

theorem stable_catalog :
    Stable Serves fun x : Node negMax xferMax × Service => x.1.catalogInitialized = true :=
  fun _ _ hxy h => hxy.catalog.trans h

theorem stable_closed (P : Node negMax xferMax → Prop) :
    Stable Serves fun x : Node negMax xferMax × Service => Closed cfg x.1 x.2 ∧ P x.1 := by
  rintro x y hxy ⟨hclosed, hP⟩
  rw [hxy.closed hclosed.up]
  exact ⟨hclosed, hP⟩

/-- The tables are set up, as they are once the modules are. -/
structure SetUp (cfg : Config) (n : Node negMax xferMax) (s : Service) : Prop where
  core : Core cfg n.http s
  tables : Represents n.device s.books
  catalog : n.catalogInitialized = true

theorem stable_setUp :
    Stable Serves fun x : Node negMax xferMax × Service => SetUp cfg x.1 x.2 :=
  fun _ _ hxy h => ⟨core_serves h.core hxy, hxy.tables h.tables, hxy.catalog.trans h.catalog⟩

/-- `rest` is what will have to be registered yet. -/
structure Ahead (cfg : Config) (rest : List (Route Handler)) (n : Node negMax xferMax)
    (s : Service) : Prop where
  running : n.http.running = s.up
  routed : s.routed = true
  routes : Complete cfg n.http ∨ ∃ rs, rs ++ rest = routesOf cfg ∧ Holds n.http rs
  tables : Represents n.device s.books
  catalog : n.catalogInitialized = true

theorem stable_ahead (rest : List (Route Handler)) :
    Stable Serves fun x : Node negMax xferMax × Service => Ahead cfg rest x.1 x.2 := by
  intro x y hxy h
  refine ⟨by rw [hxy.http, hxy.up, h.running], hxy.routed.trans h.routed, ?_, hxy.tables h.tables,
    hxy.catalog.trans h.catalog⟩
  rw [hxy.http]
  exact h.routes

theorem Ahead.opening {rest : List (Route Handler)} (h : Ahead cfg rest n s) :
    Opening cfg n s := by
  refine ⟨h.running, h.routed, h.routes.imp_right ?_, h.tables⟩
  rintro ⟨rs, hrs, hholds⟩
  exact ⟨rs, ⟨rest, hrs⟩, hholds⟩

theorem SetUp.settled (h : SetUp cfg n s) : Settled cfg n s := ⟨h.core, .inl h.tables⟩

/-! ## Replies -/

section Replies

variable (hm : WildcardMatch uriMatch) (ht : cfg.enableNegotiateTerminate = false)

/-- A handler that is found is the right one, and answers as the books do. -/
theorem receive_found (hup : s.up = true) (hrouted : s.routed = true)
    (hrep : Represents n.device s.books) {r : HttpRequest} {handler : Handler}
    {rs : List (Route Handler)} (hserver : n.http.server = some rs)
    (hfound : dispatch uriMatch n.http r.method r.path = some handler)
    (hroute : routeOf cfg r.method r.path = some handler) :
    (receive uriMatch n r).1 = (s.receive negMax xferMax cfg r).1 ∧
      Serves (n, s) ((receive uriMatch n r).2, (s.receive negMax xferMax cfg r).2) := by
  cases hendpoint : handlerEndpoint handler with
  | none =>
    simp only [receive, hserver, hfound, handle, hendpoint, Service.receive, hup, hrouted, hroute,
      Bool.not_true, Bool.false_eq_true, if_false]
    exact ⟨trivial, serves_refl _⟩
  | some endpoint =>
    obtain ⟨hanswer, hnext⟩ := serve_agree hrep endpoint r.req
    simp only [receive, hserver, hfound, handle, hendpoint, Service.receive, hup, hrouted, hroute,
      Bool.not_true, Bool.false_eq_true, if_false]
    refine ⟨congrArg Reply.answered hanswer, rfl, rfl, hup.symm, hrouted.symm, fun _ => hnext, ?_⟩
    intro hdown
    cases hup.symm.trans hdown

include hm ht in
/-- With all routes there. -/
theorem receive_complete (hup : s.up = true) (hrouted : s.routed = true)
    (hserver : n.http.server = some (routesOf cfg)) (hrep : Represents n.device s.books)
    (r : HttpRequest) :
    (receive uriMatch n r).1 = (s.receive negMax xferMax cfg r).1 ∧
      Serves (n, s) ((receive uriMatch n r).2, (s.receive negMax xferMax cfg r).2) := by
  have hdispatch : dispatch uriMatch n.http r.method r.path = routeOf cfg r.method r.path := by
    simp only [dispatch, hserver, routed hm ht]
  cases hroute : routeOf cfg r.method r.path with
  | none =>
    simp only [receive, hserver, hdispatch, hroute, Service.receive, hup, hrouted, Bool.not_true,
      Bool.false_eq_true, if_false]
    exact ⟨trivial, serves_refl _⟩
  | some handler =>
    exact receive_found hup hrouted hrep hserver (hdispatch.trans hroute) hroute

include hm ht in
/-- With the first of them there, the server may find no handler. -/
theorem receive_early (hup : s.up = true) (hrouted : s.routed = true)
    {rs : List (Route Handler)} (hrs : rs <+: routesOf cfg) (hserver : n.http.server = some rs)
    (hrep : Represents n.device s.books) (r : HttpRequest) :
    receive uriMatch n r = (.unhandled, n) ∨
      ((receive uriMatch n r).1 = (s.receive negMax xferMax cfg r).1 ∧
        Serves (n, s) ((receive uriMatch n r).2, (s.receive negMax xferMax cfg r).2)) := by
  cases hfound : dispatch uriMatch n.http r.method r.path with
  | none =>
    left
    simp only [receive, hserver, hfound]
  | some handler =>
    right
    refine receive_found hup hrouted hrep hserver hfound ?_
    obtain ⟨rest, hrest⟩ := hrs
    have hfirst : (httpdFindUriHandler uriMatch rs r.path r.method).map (·.handler) =
        some handler := by
      simpa only [dispatch, hserver] using hfound
    obtain ⟨route, hroute, rfl⟩ := Option.map_eq_some_iff.mp hfirst
    rw [← routed hm ht, httpdFindUriHandler, ← hrest, List.find?_append]
    rw [httpdFindUriHandler] at hroute
    rw [hroute]
    rfl

theorem Core.closed (h : Core cfg n.http s) (hup : s.up = false) : n.http.server = none := by
  have hstopped := h.running.trans hup
  cases hr : s.routed with
  | true => exact (h.routed hr).closed hstopped
  | false => exact (h.fresh hr).closed hstopped

theorem receive_down (hserver : n.http.server = none) (hup : s.up = false) (r : HttpRequest) :
    (receive uriMatch n r).1 = (s.receive negMax xferMax cfg r).1 ∧
      Serves (n, s) ((receive uriMatch n r).2, (s.receive negMax xferMax cfg r).2) := by
  simp only [receive, hserver, Service.receive, hup, Bool.not_false, if_true]
  exact ⟨trivial, serves_refl _⟩

include hm ht in
theorem receive_settled (h : Settled cfg n s) (r : HttpRequest) :
    (receive uriMatch n r).1 = (s.receive negMax xferMax cfg r).1 ∧
      Serves (n, s) ((receive uriMatch n r).2, (s.receive negMax xferMax cfg r).2) := by
  obtain ⟨hcore, htables⟩ := h
  cases hup : s.up with
  | false => exact receive_down (hcore.closed hup) hup r
  | true =>
    have hrunning := hcore.running.trans hup
    rcases htables with hrep | ⟨-, -, -, hfalse⟩
    · cases hrouted : s.routed with
      | true =>
        exact receive_complete hm ht hup hrouted ((hcore.routed hrouted).server hrunning) hrep r
      | false =>
        have hserver := (hcore.fresh hrouted).server hrunning
        simp only [receive, hserver, dispatch, httpdFindUriHandler, List.find?_nil,
          Option.map_none, Service.receive, hup, hrouted, Bool.not_true, Bool.not_false,
          Bool.false_eq_true, if_false, if_true]
        exact ⟨trivial, serves_refl _⟩
    · cases hup.symm.trans hfalse

include hm ht in
theorem receive_opening (h : Opening cfg n s) (r : HttpRequest) :
    receive uriMatch n r = (.unhandled, n) ∨
      ((receive uriMatch n r).1 = (s.receive negMax xferMax cfg r).1 ∧
        Serves (n, s) ((receive uriMatch n r).2, (s.receive negMax xferMax cfg r).2)) := by
  cases hup : s.up with
  | false =>
    have hstopped := h.running.trans hup
    refine .inr (receive_down ?_ hup r)
    rcases h.routes with hc | ⟨rs, -, hholds⟩
    · exact hc.closed hstopped
    · exact hholds.closed hstopped
  | true =>
    have hrunning := h.running.trans hup
    rcases h.routes with hc | ⟨rs, hrs, hholds⟩
    · exact .inr (receive_complete hm ht hup h.routed (hc.server hrunning) h.tables r)
    · exact receive_early hm ht hup h.routed hrs (hholds.server hrunning) h.tables r

end Replies

/-! ## The programs -/

/-- What a call is for the service. -/
def ghost (c : Call) (o : Outcome) (s : Service) : Service :=
  match c with
  | .dspHttpStart => s.start ⟨.ok, true, o.err⟩
  | .dspHttpStop => s.stop
  | _ => s

/-- Node and service side by side. -/
def watched (uriMatch : CStr → CStr → Bool) (A : Call → Node negMax xferMax → Service → Prop) :
    Env Call Answer (Node negMax xferMax × Service) Outcome where
  answer x c o := ((answer uriMatch x.1 c o).1, ((answer uriMatch x.1 c o).2, ghost c o x.2))
  Allowed x c := A c x.1 x.2

section Programs

variable {x : Node negMax xferMax × Service} {c : Call} {α : Type} {next : Answer → Protocol α}
  {Q : α → Node negMax xferMax × Service → Prop}
  {A : Call → Node negMax xferMax → Service → Prop}

/-- A call from a settled node. -/
theorem steady_settled (h : Settled cfg x.1 x.2)
    (hc : ∀ y : Node negMax xferMax × Service, Settled cfg y.1 y.2 → A c y.1 y.2)
    (hnext : ∀ y : Node negMax xferMax × Service, Settled cfg y.1 y.2 → ∀ o,
      (watched uriMatch A).Steady Serves Q (next ((watched uriMatch A).answer y c o).1)
        ((watched uriMatch A).answer y c o).2) :
    (watched uriMatch A).Steady Serves Q (.call c next) x :=
  steady_call (stable_stage _) h hc hnext

/-- A call with the tables set up. -/
theorem steady_setUp (h : SetUp cfg x.1 x.2)
    (hc : ∀ y : Node negMax xferMax × Service, Settled cfg y.1 y.2 → A c y.1 y.2)
    (hnext : ∀ y : Node negMax xferMax × Service, SetUp cfg y.1 y.2 → ∀ o,
      (watched uriMatch A).Steady Serves Q (next ((watched uriMatch A).answer y c o).1)
        ((watched uriMatch A).answer y c o).2) :
    (watched uriMatch A).Steady Serves Q (.call c next) x :=
  steady_call stable_setUp h (fun y hy => hc y hy.settled) hnext

theorem steady_end {a : α} (h : Settled cfg x.1 x.2) :
    (watched uriMatch A).Steady Serves (fun _ x => Settled cfg x.1 x.2) (.done a) x :=
  steady_done (stable_stage _) h fun _ hx => hx

variable (hm : WildcardMatch uriMatch) (ht : cfg.enableNegotiateTerminate = false)

include hm ht in
theorem steady_register (rs : List (Route Handler)) {rest : List (Route Handler)}
    (hsub : rs ⊆ routesOf cfg) {x : Node negMax xferMax × Service}
    (h : Ahead cfg (rs ++ rest) x.1 x.2) :
    (watched uriMatch (taskAt cfg)).Steady Serves (fun _ x => Ahead cfg rest x.1 x.2)
      (registerCalls rs) x := by
  induction rs generalizing x with
  | nil => exact steady_done (stable_ahead rest) h fun _ hx => hx
  | cons r rs ih =>
    obtain ⟨hr, hsub⟩ := List.cons_subset.mp hsub
    refine steady_call (stable_ahead _) h (fun _ hx => hx.opening) ?_
    intro y hy o
    have hpacked : Packed RouteEntry.used y.1.http.routes := by
      rcases hy.routes with hc | ⟨_, _, hholds⟩
      · exact hc.packed
      · exact hholds.packed
    have hrunning : (dspHttpRegisterHandler uriMatch y.1.http (some r.uri) r.method
        (some r.handler)).2.running = y.1.http.running :=
      (Audit.Restart.grows_register uriMatch hpacked r).running
    rcases hy.routes with hc | ⟨done, hdone, hholds⟩
    · have hnext := complete_register hm hc hr
      have hahead (rest : List (Route Handler)) : Ahead cfg rest
          (answer uriMatch y.1 (.dspHttpRegisterHandler r) o).2 y.2 :=
        ⟨hrunning.trans hy.running, hy.routed, .inl hnext, hy.tables, hy.catalog⟩
      split_ifs
      · exact steady_done (stable_ahead rest) (hahead rest) fun _ hx => hx
      · exact ih hsub (hahead _)
    · have hu := (Audit.Routes.unshadowed_iff hm).mpr ht
      rw [← hdone] at hu
      have hlength := length_routes cfg
      rw [← hdone, List.length_append, List.length_append, List.length_cons] at hlength
      obtain ⟨hok, hnext⟩ := holds_register hholds (plain_routes r hr).2 (by omega) hu.fresh
      have herr : ¬ ((watched uriMatch (taskAt cfg)).answer y (.dspHttpRegisterHandler r) o).1.err ≠ .ok :=
        not_not.mpr hok
      have hahead : Ahead cfg (rs ++ rest)
          (answer uriMatch y.1 (.dspHttpRegisterHandler r) o).2 y.2 := by
        refine ⟨hrunning.trans hy.running, hy.routed, .inr ⟨done ++ [r], ?_, hnext⟩, hy.tables,
          hy.catalog⟩
        rw [← hdone]
        simp
      rw [if_neg herr]
      exact ih hsub hahead

theorem Ahead.initialized {rest : List (Route Handler)} (h : Ahead cfg rest n s)
    (module : Module) : initialized n module = true := by
  cases module with
  | catalog => exact h.catalog
  | neg => exact h.tables.wellFormed.negInit
  | xfer => exact h.tables.wellFormed.xferInit

include hm ht in
theorem steady_registerAll (gs : List (Module × List (Route Handler)))
    (hsub : gs.flatMap Prod.snd ⊆ routesOf cfg) {x : Node negMax xferMax × Service}
    (h : Ahead cfg (gs.flatMap Prod.snd) x.1 x.2) :
    (watched uriMatch (taskAt cfg)).Steady Serves (fun _ x => Ahead cfg [] x.1 x.2) (registerAll gs) x := by
  induction gs generalizing x with
  | nil => exact steady_done (stable_ahead []) h fun _ hx => hx
  | cons g gs ih =>
    obtain ⟨module, rs⟩ := g
    rw [List.flatMap_cons] at h hsub
    obtain ⟨hrs, hgs⟩ := List.append_subset.mp hsub
    refine steady_then serves_refl (Q := fun _ x => Ahead cfg (gs.flatMap Prod.snd) x.1 x.2) ?_
      fun _ y hy => ih hgs hy
    refine steady_call (stable_ahead _) h (fun _ hx => hx.opening) ?_
    intro y hy o
    have hfound : ¬ (!((watched uriMatch (taskAt cfg)).answer y (.loadInitialized module) o).1.found) =
        true := by
      simpa [watched, answer] using hy.initialized module
    rw [if_neg hfound]
    exact steady_register hm ht rs hrs hy

/-- What is registered, function by function, are the routes of the build. -/
theorem registrations_routes (cfg : Config) :
    (registrations cfg).flatMap Prod.snd = routesOf cfg := by
  rcases cfg with ⟨c, t⟩
  cases c <;> cases t <;> rfl

theorem Ahead.setUp (h : Ahead cfg [] n s) : SetUp cfg n s := by
  refine ⟨⟨h.running, fun _ => ?_, fun hfresh => ?_⟩, h.tables, h.catalog⟩
  · rcases h.routes with hc | ⟨rs, hrs, hholds⟩
    · exact hc
    · rw [List.append_nil] at hrs
      exact (hrs ▸ hholds).complete
  · cases h.routed.symm.trans hfresh

include hm ht in
/-- A start of the server is the service's start. -/
theorem ahead_start (h : SetUp cfg n s) (o : Outcome) :
    Ahead cfg (routesOf cfg) (answer uriMatch n .dspHttpStart o).2 (ghost .dspHttpStart o s) := by
  have hu := (Audit.Routes.unshadowed_iff hm).mpr ht
  have hstart : ghost .dspHttpStart o s =
      { s with up := s.up || decide (o.err = .ok), routed := true } := rfl
  rw [hstart]
  refine ⟨?_, rfl, ?_, h.tables, h.catalog⟩
  · rw [← h.core.running]
    exact start_running uriMatch o.err n.http
  · cases hrouted : s.routed with
    | true => exact .inl (complete_start hm hu (h.core.routed hrouted) o.err)
    | false => exact .inr ⟨[], rfl, holds_start uriMatch (h.core.fresh hrouted) o.err⟩

include hm ht in
theorem steady_openServer (h : SetUp cfg x.1 x.2) :
    (watched uriMatch (taskAt cfg)).Steady Serves (fun _ x => Settled cfg x.1 x.2) (openServer cfg) x := by
  refine steady_setUp h (fun _ hy => hy) fun y hy o => ?_
  refine steady_then serves_refl (Q := fun _ x => Ahead cfg [] x.1 x.2) ?_ fun _ y hy => ?_
  · apply steady_registerAll hm ht
    · rw [registrations_routes]
      exact List.Subset.refl _
    · rw [registrations_routes]
      exact ahead_start hm ht hy o
  · refine steady_setUp hy.setUp (fun _ hy => hy) fun y hy _ => ?_
    have hready : SetUp cfg { y.1 with core0Ready := true } y.2 := ⟨hy.core, hy.tables, hy.catalog⟩
    refine steady_setUp hready (fun _ hy => hy) fun y hy _ => ?_
    have hrunning : SetUp cfg { y.1 with running := true } y.2 := ⟨hy.core, hy.tables, hy.catalog⟩
    exact steady_end hrunning.settled

/-- Both modules set up find the books in the tables. -/
theorem setUp_of_stage (h : Stage (fun d => d.neg.initialized = true) cfg n s)
    (hcatalog : n.catalogInitialized = true) {xfer : XferModule xferMax}
    (hxfer : dspXferInit n.device.xfer = (.ok, xfer)) :
    SetUp cfg { n with device := { n.device with xfer } } s := by
  refine ⟨h.1, ?_, hcatalog⟩
  rcases h.2 with hrep | ⟨hblank, hneg, hbooks, -⟩
  · rw [dspXferInit, if_pos hrep.wellFormed.xferInit] at hxfer
    obtain rfl := (Prod.mk.inj hxfer).2
    exact hrep
  · rw [hbooks]
    have hfields : xfer.table = Table.fill xferMax .zero ∧ xfer.initialized = true := by
      unfold dspXferInit at hxfer
      split_ifs at hxfer with hinit
      · obtain rfl := (Prod.mk.inj hxfer).2
        exact ⟨hblank.xfer, hinit⟩
      · obtain rfl := (Prod.mk.inj hxfer).2
        exact ⟨rfl, rfl⟩
    refine fresh_represents ?_ hfields.1 hfields.2
    rw [← hblank.neg, ← hneg]

theorem stage_neg (h : Settled cfg n s) {neg : NegModule negMax}
    (hneg : dspNegInit n.device.neg = (.ok, neg)) :
    Stage (fun d => d.neg.initialized = true) cfg { n with device := { n.device with neg } } s := by
  refine ⟨h.1, ?_⟩
  rcases h.2 with hrep | ⟨hblank, -, hbooks, hup⟩
  · left
    rw [dspNegInit, if_pos hrep.wellFormed.negInit] at hneg
    obtain rfl := (Prod.mk.inj hneg).2
    exact hrep
  · right
    unfold dspNegInit at hneg
    split_ifs at hneg with hinit
    · obtain rfl := (Prod.mk.inj hneg).2
      exact ⟨hblank, hinit, hbooks, hup⟩
    · obtain rfl := (Prod.mk.inj hneg).2
      exact ⟨⟨rfl, hblank.xfer⟩, rfl, hbooks, hup⟩

include hm ht in
theorem steady_initModules (h : Settled cfg x.1 x.2) :
    (watched uriMatch (taskAt cfg)).Steady Serves (fun _ x => Settled cfg x.1 x.2) (initModules cfg) x := by
  refine steady_settled h (fun _ hy => hy) fun y hy o => ?_
  have hcatalog : Settled cfg { y.1 with catalogInitialized := true } y.2 := hy
  have hanswer : (watched uriMatch (taskAt cfg)).answer y .dspCatalogInit o =
      (⟨.ok, false⟩, { y.1 with catalogInitialized := true }, y.2) := rfl
  rw [hanswer, if_neg (not_not.mpr rfl)]
  refine steady_call (stable_and (stable_stage _) stable_catalog) ⟨hcatalog, rfl⟩
    (fun _ hz => hz.1) fun z hz o => ?_
  obtain ⟨neg, hneg, -⟩ := negInit_ok z.1.device.neg
  have hnext := stage_neg hz.1 hneg
  have hanswer : (watched uriMatch (taskAt cfg)).answer z .dspNegInit o =
      (⟨.ok, false⟩, { z.1 with device := { z.1.device with neg } }, z.2) := by
    simp [watched, answer, hneg, ghost]
  rw [hanswer, if_neg (not_not.mpr rfl)]
  refine steady_call (stable_and (stable_stage _) stable_catalog) ⟨hnext, hz.2⟩
    (fun _ hy => hy.1.settled) fun y hy o => ?_
  obtain ⟨xfer, hxfer, -⟩ := xferInit_ok y.1.device.xfer
  have hset := setUp_of_stage hy.1 hy.2 hxfer
  have hanswer : (watched uriMatch (taskAt cfg)).answer y .dspXferInit o =
      (⟨.ok, false⟩, { y.1 with device := { y.1.device with xfer } }, y.2) := by
    simp [watched, answer, hxfer, ghost]
  rw [hanswer, if_neg (not_not.mpr rfl)]
  exact steady_openServer hm ht hset

include hm ht in
/-- An init that is let alone by a stop. -/
theorem steady_init (h : Settled cfg x.1 x.2) :
    (watched uriMatch (taskAt cfg)).Steady Serves (fun _ x => Settled cfg x.1 x.2)
      (protocolInitCalls cfg) x := by
  refine steady_settled h (fun _ hy => hy) fun y hy o => ?_
  split_ifs
  · exact steady_end hy
  · refine steady_settled hy (fun _ hy => hy) fun y hy o => ?_
    split_ifs
    · exact steady_end hy
    · exact steady_settled hy (fun _ hy => hy) fun y hy o => steady_initModules hm ht hy

theorem core_stop {http : HttpModule Handler} (h : Core cfg http s) :
    Core cfg (dspHttpStop http) s.stop where
  running := by
    apply stop_running
    intro hrun hnone
    cases hr : s.routed with
    | true => cases ((h.routed hr).server hrun).symm.trans hnone
    | false => cases ((h.fresh hr).server hrun).symm.trans hnone
  routed := fun hr => complete_stop (h.routed hr)
  fresh := fun hr => holds_stop (h.fresh hr)

/-- A call behind the server's end. -/
theorem steady_closed {P : Node negMax xferMax → Prop} (h : Closed cfg x.1 x.2 ∧ P x.1)
    (hc : ∀ y : Node negMax xferMax × Service, Closed cfg y.1 y.2 → A c y.1 y.2)
    (hnext : ∀ y : Node negMax xferMax × Service, Closed cfg y.1 y.2 ∧ P y.1 → ∀ o,
      (watched uriMatch A).Steady Serves Q (next ((watched uriMatch A).answer y c o).1)
        ((watched uriMatch A).answer y c o).2) :
    (watched uriMatch A).Steady Serves Q (.call c next) x :=
  steady_call (stable_closed P) h (fun y hy => hc y hy.1) hnext

/-- A stop leaves a node without a server and with blank tables. -/
theorem steady_stop (h : Settled cfg x.1 x.2) :
    (watched uriMatch (mainAt cfg)).Steady Serves (fun _ x => Settled cfg x.1 x.2)
      dspProtocolStopCalls x := by
  refine steady_settled h (fun _ hy => hy) fun y hy _ => ?_
  have hrunning : Settled cfg { y.1 with running := false } y.2 := hy
  refine steady_settled hrunning (fun _ hy => hy) fun y hy _ => ?_
  have hclosed : Closed cfg { y.1 with http := dspHttpStop y.1.http } y.2.stop :=
    ⟨core_stop hy.1, rfl, rfl⟩
  refine steady_closed (P := fun _ => True) ⟨hclosed, trivial⟩ (fun _ hy => hy) fun y hy _ => ?_
  have hxfer : Closed cfg { y.1 with
      device := { y.1.device with xfer := dspXferDeinit y.1.device.xfer } } y.2 :=
    ⟨hy.1.core, hy.1.up, hy.1.books⟩
  refine steady_closed (P := fun n => n.device.xfer.table = Table.fill xferMax .zero)
    ⟨hxfer, rfl⟩ (fun _ hy => hy) fun y hy _ => ?_
  have hneg : Closed cfg { y.1 with
      device := { y.1.device with neg := dspNegDeinit y.1.device.neg } } y.2 :=
    ⟨hy.1.core, hy.1.up, hy.1.books⟩
  refine steady_closed (P := fun n => Blank n.device) ⟨hneg, rfl, hy.2⟩ (fun _ hy => hy)
    fun y hy _ => ?_
  have hcatalog : Closed cfg { y.1 with catalogInitialized := false } y.2 :=
    ⟨hy.1.core, hy.1.up, hy.1.books⟩
  refine steady_closed (P := fun n => Blank n.device) ⟨hcatalog, hy.2⟩ (fun _ hy => hy)
    fun y hy _ => ?_
  refine steady_closed (P := fun n => Blank n.device) hy (fun _ hy => hy) fun y hy _ => ?_
  refine steady_closed (P := fun n => Blank n.device) hy (fun _ hy => hy) fun y hy _ => ?_
  have hready : Closed cfg { y.1 with core0Ready := false } y.2 :=
    ⟨hy.1.core, hy.1.up, hy.1.books⟩
  refine steady_closed (P := fun n => Blank n.device) ⟨hready, hy.2⟩ (fun _ hy => hy)
    fun y hy _ => ?_
  exact steady_end ⟨hy.1.core, .inr ⟨hy.2, trivial, hy.1.books, hy.1.up⟩⟩

theorem stop_deletes : dspProtocolStopCalls.EndsIn .vTaskDelete := by
  simp [dspProtocolStopCalls, Prog.EndsIn, Prog.next?]

end Programs

/-! ## Runs -/

/-- The init makes no call while a stop is under way, and no stop begins among its
registrations. -/
def Undisturbed (S : System negMax xferMax) : Event → Prop
  | .task _ => S.Idle
  | .stop => S.registering = false
  | _ => True

instance (S : System negMax xferMax) (e : Event) : Decidable (Undisturbed S e) :=
  match e with
  | .task _ => inferInstanceAs (Decidable S.Idle)
  | .stop => inferInstanceAs (Decidable (S.registering = false))
  | .request _ | .start _ | .main _ => inferInstanceAs (Decidable True)

/-- The step of the service that a call is. -/
def commitCall (c : Call) (o : Outcome) : Option (Audit.WholeNode.Event × Option Reply) :=
  match c with
  | .dspHttpStart => some (.start ⟨.ok, true, o.err⟩, none)
  | .dspHttpStop => some (.stop, none)
  | _ => none

/-- The step of the service that an event is. A request that comes before its route is
none. -/
def commit : Event × Output → Option (Audit.WholeNode.Event × Option Reply)
  | (.request r, .reply reply registering) =>
    if registering = true ∧ reply = .unhandled then none else some (.request r, some reply)
  | (.task o, .call c) | (.main o, .call c) => commitCall c o
  | _ => none

structure Tracks (uriMatch : CStr → CStr → Bool) (cfg : Config) (S : System negMax xferMax)
    (s : Service) : Prop where
  rest : S.Idle → S.task = none → Settled cfg S.node s
  task : S.Idle → ∀ p, S.task = some p → (watched uriMatch (taskAt cfg)).Steady Serves
    (fun _ x => Settled cfg x.1 x.2) p (S.node, s)
  main : ¬ S.Idle → S.main.EndsIn .vTaskDelete ∧ (watched uriMatch (mainAt cfg)).Steady Serves
    (fun _ x => Settled cfg x.1 x.2) S.main (S.node, s)

section Tracks

variable {S : System negMax xferMax}

theorem tracks_boot (store : RtcStore negMax xferMax) :
    Tracks uriMatch cfg (System.boot store) .off where
  rest := fun _ _ => ⟨⟨rfl, (fun hfalse => Bool.noConfusion hfalse), fun _ => holds_boot⟩,
    .inr ⟨⟨rfl, rfl⟩, trivial, rfl, rfl⟩⟩
  task := fun _ _ hp => by cases hp
  main := fun hbusy => absurd rfl hbusy

/-- An init that has ended, or has not begun. -/
theorem Tracks.settled (h : Tracks uriMatch cfg S s) (hidle : S.Idle) (hdue : S.due = none) :
    Settled cfg S.node s := by
  cases htask : S.task with
  | none => exact h.rest hidle htask
  | some p =>
    have hp : p.next? = none := by simpa [System.due, htask] using hdue
    obtain ⟨_, -, hsettled⟩ := steady_ended serves_refl (h.task hidle p htask) hp
    exact hsettled

/-- Between two calls. -/
theorem Tracks.faces (h : Tracks uriMatch cfg S s) :
    Settled cfg S.node s ∨ (Opening cfg S.node s ∧ S.registering = true) ∨
      Closed cfg S.node s := by
  by_cases hidle : S.Idle
  · cases hdue : S.due with
    | none => exact .inl (h.settled hidle hdue)
    | some c =>
      obtain ⟨p, htask, hp⟩ := Option.bind_eq_some_iff.mp hdue
      have hat : taskAt cfg c S.node s := steady_next serves_refl (h.task hidle p htask) hp
      have hregisters : S.registering = c.registers := by rw [System.registering, hdue]; rfl
      cases c <;> first
        | exact .inl hat
        | exact .inr (.inl ⟨hat, hregisters⟩)
  · obtain ⟨c, hc⟩ := Option.ne_none_iff_exists'.mp hidle
    have hat : mainAt cfg c S.node s := steady_next serves_refl (h.main hidle).2 hc
    cases c <;> first
      | exact .inl hat
      | exact .inr (.inr hat)

/-- Requests do not get in the way. -/
theorem Tracks.served (h : Tracks uriMatch cfg S s) {n' : Node negMax xferMax} {s' : Service}
    (hserves : Serves (S.node, s) (n', s')) : Tracks uriMatch cfg { S with node := n' } s' where
  rest := fun hidle htask => stable_stage _ _ _ hserves (h.rest hidle htask)
  task := fun hidle p htask => steady_meanwhile serves_trans (h.task hidle p htask) hserves
  main := fun hbusy => ⟨(h.main hbusy).1, steady_meanwhile serves_trans (h.main hbusy).2 hserves⟩

theorem receive_unhandled {r : HttpRequest} (h : (receive uriMatch n r).1 = .unhandled) :
    (receive uriMatch n r).2 = n := by
  unfold receive at h ⊢
  cases hserver : n.http.server with
  | none => rfl
  | some rs =>
    cases hfound : dispatch uriMatch n.http r.method r.path with
    | none => rfl
    | some handler =>
      simp only [hserver, hfound] at h
      cases h

/-- What an event is for the service, if anything. -/
def Advances (negMax xferMax : Nat) (cfg : Config) (s : Service)
    (done : Option (Audit.WholeNode.Event × Option Reply)) (K : Service → Prop) : Prop :=
  match done with
  | none => K s
  | some (a, reply) =>
    (s.step negMax xferMax cfg a).1 = reply ∧ K (s.step negMax xferMax cfg a).2

/-- A call is for the service what the ghost says. -/
theorem advances_call {c : Call} {o : Outcome} {K : Service → Prop} (h : K (ghost c o s)) :
    Advances negMax xferMax cfg s (commitCall c o) K := by
  cases c <;> first
    | exact h
    | exact ⟨rfl, h⟩

theorem request_tracks (hm : WildcardMatch uriMatch) (ht : cfg.enableNegotiateTerminate = false)
    (h : Tracks uriMatch cfg S s) (r : HttpRequest) :
    Advances negMax xferMax cfg s
      (commit (.request r, .reply (receive uriMatch S.node r).1 S.registering))
      (Tracks uriMatch cfg { S with node := (receive uriMatch S.node r).2 }) := by
  by_cases hearly : S.registering = true ∧ (receive uriMatch S.node r).1 = .unhandled
  · rw [commit, if_pos hearly]
    have hsame := receive_unhandled hearly.2
    rw [Advances, hsame]
    exact h
  · rw [commit, if_neg hearly]
    have hreply : (receive uriMatch S.node r).1 = (s.receive negMax xferMax cfg r).1 ∧
        Serves (S.node, s) ((receive uriMatch S.node r).2, (s.receive negMax xferMax cfg r).2) := by
      rcases h.faces with hsettled | ⟨hopen, hregistering⟩ | hclosed
      · exact receive_settled hm ht hsettled r
      · refine (receive_opening hm ht hopen r).resolve_left fun hunhandled => ?_
        exact hearly ⟨hregistering, by rw [hunhandled]⟩
      · exact receive_down (hclosed.core.closed hclosed.up) hclosed.up r
    exact ⟨congrArg some hreply.1.symm, h.served hreply.2⟩

/-- The next call of the init. -/
theorem task_tracks (h : Tracks uriMatch cfg S s) (hidle : S.Idle) (o : Outcome) :
    Advances negMax xferMax cfg s (commit (.task o, (step uriMatch cfg S (.task o)).1))
      (Tracks uriMatch cfg (step uriMatch cfg S (.task o)).2) := by
  cases htask : S.task with
  | none =>
    simp only [step, htask]
    exact h
  | some p =>
    cases p with
    | done err =>
      simp only [step, htask, Prog.next?]
      exact h
    | call c next =>
      simp only [step, htask, Prog.next?]
      apply advances_call
      have hnext := steady_advance serves_refl (h.task hidle _ htask) o
      refine ⟨fun _ hnone => (Option.some_ne_none _ hnone).elim, ?_, fun hbusy => absurd hidle hbusy⟩
      intro _ p hp
      obtain rfl := Option.some.inj hp
      exact hnext

/-- The next call of a stop. The last one leaves no task. -/
theorem main_tracks (h : Tracks uriMatch cfg S s) (o : Outcome) :
    Advances negMax xferMax cfg s (commit (.main o, (step uriMatch cfg S (.main o)).1))
      (Tracks uriMatch cfg (step uriMatch cfg S (.main o)).2) := by
  obtain ⟨node, task, main⟩ := S
  cases main with
  | done a => exact h
  | call c next =>
    obtain ⟨hends, hsteady⟩ := h.main (fun hidle => (Option.some_ne_none _ hidle).elim)
    have hnext := steady_advance serves_refl hsteady o
    have hlast := hends (answer uriMatch node c o).1
    simp only [step, Prog.next?]
    apply advances_call
    by_cases hidle : (next (answer uriMatch node c o).1).next? = none
    · have hc : c = .vTaskDelete := by
        rcases hlast with ⟨hc, -⟩ | hmore
        · exact hc
        · cases hp : next (answer uriMatch node c o).1 with
          | done a =>
            rw [hp] at hmore
            exact hmore.elim
          | call c' next' =>
            rw [hp] at hidle
            cases hidle
      obtain ⟨_, -, hsettled⟩ := steady_ended serves_refl hnext hidle
      refine ⟨fun _ _ => hsettled, fun _ p hp => ?_, fun hbusy => absurd hidle hbusy⟩
      rw [if_pos hc] at hp
      cases hp
    · refine ⟨fun h' => absurd h' hidle, fun h' => absurd h' hidle, fun _ => ⟨?_, hnext⟩⟩
      exact hlast.resolve_left fun hlast => hidle hlast.2

theorem step_tracks (hm : WildcardMatch uriMatch) (ht : cfg.enableNegotiateTerminate = false)
    (h : Tracks uriMatch cfg S s) (e : Event) (hu : Undisturbed S e) :
    Advances negMax xferMax cfg s (commit (e, (step uriMatch cfg S e).1))
      (Tracks uriMatch cfg (step uriMatch cfg S e).2) := by
  cases e with
  | request r => exact request_tracks hm ht h r
  | start created =>
    by_cases hstart : S.due = none ∧ S.Idle ∧ created
    · simp only [step, if_pos hstart]
      obtain ⟨hdue, hidle, -⟩ := hstart
      have hsettled := h.settled hidle hdue
      refine ⟨fun _ hnone => (Option.some_ne_none _ hnone).elim, ?_, fun hbusy => absurd hidle hbusy⟩
      intro _ p hp
      obtain rfl := Option.some.inj hp
      exact steady_init hm ht (x := (S.node, s)) hsettled
    · simp only [step, if_neg hstart]
      exact h
  | stop =>
    by_cases hidle : S.Idle
    · simp only [step, if_pos hidle]
      have hsettled : Settled cfg S.node s := by
        cases hdue : S.due with
        | none => exact h.settled hidle hdue
        | some c =>
          obtain ⟨p, htask, hp⟩ := Option.bind_eq_some_iff.mp hdue
          have hat : taskAt cfg c S.node s := steady_next serves_refl (h.task hidle p htask) hp
          have hregisters : c.registers = false := by
            have hnot : S.registering = false := hu
            rwa [System.registering, hdue] at hnot
          cases c <;> first
            | exact hat
            | cases hregisters
      refine ⟨fun hnone => (Option.some_ne_none _ hnone).elim,
        fun hnone => (Option.some_ne_none _ hnone).elim, fun _ => ⟨stop_deletes, ?_⟩⟩
      exact steady_stop (x := (S.node, s)) hsettled
    · simp only [step, if_neg hidle]
      exact h
  | main o => exact main_tracks h o
  | task o => exact task_tracks h hu o

/-- The history so far is one of the service, which the node is at. -/
def Linear (uriMatch : CStr → CStr → Bool) (cfg : Config) (h : List (Event × Output))
    (S : System negMax xferMax) : Prop :=
  trace (Service.step negMax xferMax cfg) .off ((h.filterMap commit).map Prod.fst) =
      h.filterMap commit ∧
    Tracks uriMatch cfg S
      (final (Service.step negMax xferMax cfg) .off ((h.filterMap commit).map Prod.fst))

theorem linear_step (hm : WildcardMatch uriMatch) (ht : cfg.enableNegotiateTerminate = false)
    {h : List (Event × Output)} (hl : Linear uriMatch cfg h S) (e : Event)
    (hu : Undisturbed S e) :
    Linear uriMatch cfg (h ++ [(e, (step uriMatch cfg S e).1)]) (step uriMatch cfg S e).2 := by
  obtain ⟨htrace, htracks⟩ := hl
  have hstep := step_tracks hm ht htracks e hu
  rw [Linear, List.filterMap_append, List.filterMap_cons, List.filterMap_nil]
  cases hcommit : commit (e, (step uriMatch cfg S e).1) with
  | none =>
    rw [hcommit] at hstep
    rw [List.append_nil]
    exact ⟨htrace, hstep⟩
  | some done =>
    obtain ⟨a, reply⟩ := done
    rw [hcommit] at hstep
    obtain ⟨hreply, hnext⟩ := hstep
    rw [List.map_append, List.map_singleton, trace_append, final_append, htrace]
    refine ⟨?_, hnext⟩
    rw [trace_cons, trace_nil, hreply]

theorem linear_run (hm : WildcardMatch uriMatch) (ht : cfg.enableNegotiateTerminate = false)
    (store : RtcStore negMax xferMax) (events : List Event)
    (hu : Along (step uriMatch cfg) Undisturbed (System.boot store) events) :
    Linear uriMatch cfg (trace (step uriMatch cfg) (System.boot store) events)
      (final (step uriMatch cfg) (System.boot store) events) := by
  refine trace_invariant_along (P := Linear uriMatch cfg) ?_ events hu ⟨rfl, tracks_boot store⟩
  exact fun _ _ e hu hl => linear_step hm ht hl e hu

end Tracks

theorem blank_page {d : Device negMax xferMax} (h : Blank d) (p : CStr) : pageOf d p = .empty := by
  obtain ⟨⟨negTable, negInit⟩, ⟨xferTable, xferInit, notify, calls⟩, store⟩ := d
  obtain ⟨hneg, hxfer⟩ := h
  simp only at hneg hxfer
  subst hneg hxfer
  exact (boot_represents store false).page p

/-- In builds without the termination endpoint, and as long as an init makes no call during
a stop and no stop begins among its registrations: whatever the order of requests and of
the calls of starts and stops, all replies but the server's own to requests that come
before their route are those of the service that starts with the call of `dsp_http_start`
and stops with the call of `dsp_http_stop`, in this order. Once no start and no stop is
under way, server and tables are what it says. -/
theorem calls_refine_service (hm : WildcardMatch uriMatch)
    (ht : cfg.enableNegotiateTerminate = false) (store : RtcStore negMax xferMax)
    (events : List Event)
    (hu : Along (step uriMatch cfg) Undisturbed (System.boot store) events) :
    let h := (trace (step uriMatch cfg) (System.boot store) events).filterMap commit
    let S := final (step uriMatch cfg) (System.boot store) events
    let s := final (Service.step negMax xferMax cfg) .off (h.map Prod.fst)
    trace (Service.step negMax xferMax cfg) .off (h.map Prod.fst) = h ∧
      (S.Idle → S.due = none → S.node.http.running = s.up ∧
        ∀ p, pageOf S.node.device p = s.books.page p) := by
  obtain ⟨htrace, htracks⟩ := linear_run hm ht store events hu
  refine ⟨htrace, fun hidle hdue => ?_⟩
  obtain ⟨hcore, htables⟩ := htracks.settled hidle hdue
  refine ⟨hcore.running, fun p => ?_⟩
  rcases htables with hrep | ⟨hblank, -, hbooks, -⟩
  · exact hrep.page p
  · rw [hbooks]
    exact blank_page hblank p

/-! ## Three runs -/

/-- `k` calls of an init, all of which succeed. -/
def inits (k : Nat) : List Event := List.replicate k (.task ⟨.ok, true⟩)

/-- A whole stop. -/
def stopWhole : List Event := .stop :: List.replicate 9 (.main ⟨.ok, true⟩)

def getOffer : Event :=
  .request ⟨.get, CStr.lit "/negotiations/p", CStr.empty, []⟩

/-- The offer comes when its route is there, and is asked for before and after the last
of the registrations. -/
def offerDuringStart : List Event :=
  .start true :: inits 12 ++
    [.request ⟨.post, CStr.lit "/negotiations/offers", CStr.empty, offerRequest.delivery⟩,
      getOffer] ++ inits 7 ++ [getOffer] ++ stopWhole ++ [getOffer]

theorem offerDuringStart_replies :
    ((trace (step wildcardMatch ⟨false, false⟩) (System.boot (RtcStore.zero 4 2))
      offerDuringStart).filterMap commit).map Prod.snd =
        [none, some (.answered (httpdRespSendstr .created
          (eventText (CStr.lit "p") Model.Jsonld.negStateOffered))),
          some (.answered (httpdRespSendstr .ok
            (eventText (CStr.lit "p") Model.Jsonld.negStateOffered))), none, some .closed] := by
  have hu : Along (step wildcardMatch ⟨false, false⟩) Undisturbed
      (System.boot (RtcStore.zero 4 2)) offerDuringStart := by decide +kernel
  rw [← (calls_refine_service Audit.Routes.wildcardMatch_wildcard rfl _ offerDuringStart hu).1]
  decide +kernel

/-- A stop among the registrations loses those that are left: the next start gives up the
routes of the module at the first, which is there already. -/
example :
    let S := final (step wildcardMatch ⟨false, false⟩) (System.boot (RtcStore.zero 4 2))
      (.start true :: inits 11 ++ stopWhole ++ .start true :: inits 17)
    S.Idle ∧ S.due = none ∧ (step wildcardMatch ⟨false, false⟩ S getOffer).1 =
      .reply .unhandled false := by
  decide +kernel

/-- An init that goes on during a stop leaves a server in front of modules that are not
set up. -/
example :
    let S := final (step wildcardMatch ⟨false, false⟩) (System.boot (RtcStore.zero 4 2))
      (.start true :: inits 6 ++ .stop :: List.replicate 2 (.main ⟨.ok, true⟩) ++ inits 13 ++
        List.replicate 7 (.main ⟨.ok, true⟩))
    S.Idle ∧ S.due = none ∧ S.node.http.running = true ∧ S.node.device.neg.initialized = false := by
  decide +kernel

end DspEmbedded.Audit.Lifecycle
