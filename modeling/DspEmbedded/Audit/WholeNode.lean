import DspEmbedded.Audit.Exchange
import DspEmbedded.Audit.RestoreResult
import DspEmbedded.Audit.ServedRoutes
import DspEmbedded.Model.Server

/-!
# The node as a service

From the request line down to the tables: a node that is started, stopped, put to
sleep and woken in any order, on a board whose parts may fail, answers as the books
behind a table of paths. Of all that goes on inside only three things show: whether
the server runs, whether the routes have been registered, and what the books say.
-/
namespace DspEmbedded.Audit.WholeNode

open Lib.CString Lib.Runs Lib.SlotTable Model.Esp Model.PathId Model.Http Model.Neg Model.RtcState
  Model.Board Model.Protocol Model.Power Model.Server Audit.Exchange
open Audit.Routes (WildcardMatch wildcardMatch star)
open Audit.Restart (registerGroups groups)
open Audit.ServedRoutes
open Model.Xfer (XferModule XferEntry dspXferInit dspXferDeinit xferStateOf)
open Audit.RestoreResult (restoreNeg_uninitialized restoreXfer_uninitialized)

variable {negMax xferMax : Nat} {uriMatch : CStr → CStr → Bool} {cfg : Config}

/-! ## The service -/

/-- The documented paths of a build without the termination endpoint. -/
def routeOf (cfg : Config) (method : HttpMethod) (path : CStr) : Option Handler :=
  match method with
  | .get =>
    if path = CStr.lit "/catalog" then some .catalogGet
    else if negPrefix.bytes.isPrefixOf path.bytes then some .negGet
    else if xferPrefix.bytes.isPrefixOf path.bytes then some .xferGet
    else none
  | .post =>
    if cfg.enableCatalogRequest ∧ path = CStr.lit "/catalog/request" then some .catalogRequestPost
    else if path = CStr.lit "/negotiations/offers" then some .offersPost
    else if negPrefix.bytes.isPrefixOf path.bytes then some .agreePost
    else if path = CStr.lit "/transfers/start" then some .xferStartPost
    else if xferPrefix.bytes.isPrefixOf path.bytes then some .xferCompletePost
    else none
  | _ => none

structure Service where
  up : Bool
  routed : Bool
  books : Books

/-- Before the first start. -/
def Service.off : Service := ⟨false, false, .empty⟩

def Service.receive (negMax xferMax : Nat) (cfg : Config) (s : Service) (r : HttpRequest) :
    Reply × Service :=
  if !s.up then (.closed, s)
  else if !s.routed then (.unhandled, s)
  else
    match routeOf cfg r.method r.path with
    | none => (.unhandled, s)
    | some handler =>
      match handlerEndpoint handler with
      | none => (.answered (catalogAnswer handler r.req), s)
      | some endpoint =>
        let (resp, books) := s.books.serve negMax xferMax endpoint r.req
        (.answered resp, { s with books })

/-- `protocol_init` gets past the identity. -/
def ready (platform : Platform) : Bool :=
  decide (platform.identity = .ok) && platform.credentials

def Service.start (platform : Platform) (s : Service) : Service :=
  if ready platform then
    { s with up := s.up || decide (platform.httpd = .ok), routed := true }
  else s

def Service.stop (s : Service) : Service := { s with up := false, books := .empty }

/-- A service on its way up, and whether the modules are set up. -/
structure Booting where
  service : Service
  isSet : Bool

/-- `image` is what was saved. Only a timer wake-up that finds the modules set up brings it
back; the server has a chance to start in any timer wake-up. -/
def Booting.call (image : Books) (b : Booting) : BootCall → Booting
  | .setUp => { b with isSet := true }
  | .start platform => ⟨b.service.start platform, b.isSet || ready platform⟩
  | .wakeUp cause httpd =>
    if cause = .timer then
      { b with service := { b.service with
          up := b.service.up || decide (httpd = .ok)
          books := if b.isSet then image else b.service.books } }
    else b

def Service.powerCycle (calls : List BootCall) (s : Service) : Service :=
  (calls.foldl (Booting.call s.books) ⟨.off, false⟩).service

/-- The modules are set up by the call. -/
def setsUp : BootCall → Bool
  | .setUp => true
  | .start platform => ready platform
  | .wakeUp _ _ => false

/-- A timer wake-up comes after the modules have been set up. -/
def Wakes (calls : List BootCall) : Prop :=
  ∃ before httpd after, calls = before ++ .wakeUp .timer httpd :: after ∧
    before.any setsUp = true

inductive Event where
  | request (r : HttpRequest)
  | start (platform : Platform)
  | stop
  | powerCycle (calls : List BootCall)

def Service.step (negMax xferMax : Nat) (cfg : Config) (s : Service) :
    Event → Option Reply × Service
  | .request r =>
    (some (s.receive negMax xferMax cfg r).1, (s.receive negMax xferMax cfg r).2)
  | .start platform => (none, s.start platform)
  | .stop => (none, s.stop)
  | .powerCycle calls => (none, s.powerCycle calls)

def step (uriMatch : CStr → CStr → Bool) (cfg : Config) (n : Node negMax xferMax) :
    Event → Option Reply × Node negMax xferMax
  | .request r => (some (receive uriMatch n r).1, (receive uriMatch n r).2)
  | .start platform => (none, (protocolInit uriMatch cfg platform n).2)
  | .stop => (none, dspProtocolStop n)
  | .powerCycle calls => (none, powerCycle uriMatch cfg calls n)

/-! ## What a power cycle keeps -/

section Wakes

variable {calls : List BootCall} {call : BootCall} {image : Books} {b : Booting}

theorem wakes_concat : Wakes (calls ++ [call]) ↔
    Wakes calls ∨ (∃ httpd, call = .wakeUp .timer httpd) ∧ calls.any setsUp = true := by
  constructor
  · rintro ⟨before, httpd, after, hcalls, hset⟩
    rcases List.eq_nil_or_concat after with rfl | ⟨after, last, rfl⟩
    · obtain ⟨rfl, hlast⟩ := List.append_inj' hcalls rfl
      exact .inr ⟨⟨httpd, List.singleton_inj.mp hlast⟩, hset⟩
    · rw [List.concat_eq_append, ← List.cons_append, ← List.append_assoc] at hcalls
      exact .inl ⟨before, httpd, after, (List.append_inj' hcalls rfl).1, hset⟩
  · rintro (⟨before, httpd, after, rfl, hset⟩ | ⟨⟨httpd, rfl⟩, hset⟩)
    · exact ⟨before, httpd, after ++ [call], by simp, hset⟩
    · exact ⟨calls, httpd, [], rfl, hset⟩

theorem isSet_call : (b.call image call).isSet = (b.isSet || setsUp call) := by
  cases call with
  | setUp => simp [Booting.call, setsUp]
  | start platform => rfl
  | wakeUp cause httpd => by_cases hcause : cause = .timer <;> simp [Booting.call, setsUp, hcause]

theorem isSet_boot :
    (calls.foldl (Booting.call image) b).isSet = (b.isSet || calls.any setsUp) := by
  induction calls generalizing b with
  | nil => simp
  | cons call calls ih => rw [List.foldl_cons, ih, isSet_call, List.any_cons, Bool.or_assoc]

theorem books_call (h : ¬ ((∃ httpd, call = .wakeUp .timer httpd) ∧ b.isSet = true)) :
    (b.call image call).service.books = b.service.books := by
  cases call with
  | setUp => rfl
  | start platform =>
    simp only [Booting.call, Service.start]
    split_ifs <;> rfl
  | wakeUp cause httpd =>
    by_cases hcause : cause = .timer
    · subst hcause
      have hunset : b.isSet = false := Bool.eq_false_iff.mpr fun hset => h ⟨⟨httpd, rfl⟩, hset⟩
      simp [Booting.call, hunset]
    · simp [Booting.call, hcause]

/-- The books are kept by a timer wake-up that finds the modules set up, and lost
otherwise. -/
theorem powerCycle_books (s : Service) (calls : List BootCall) :
    (Wakes calls ∧ (s.powerCycle calls).books = s.books) ∨
      (¬ Wakes calls ∧ (s.powerCycle calls).books = .empty) := by
  unfold Service.powerCycle
  induction calls using List.reverseRecOn with
  | nil =>
    right
    refine ⟨?_, rfl⟩
    rintro ⟨before, httpd, after, hcalls, -⟩
    simp at hcalls
  | append_singleton calls call ih =>
    rw [wakes_concat, List.foldl_append, List.foldl_cons, List.foldl_nil]
    have hisSet := @isSet_boot calls s.books ⟨.off, false⟩
    rw [Bool.false_or] at hisSet
    by_cases hwakes : (∃ httpd, call = .wakeUp .timer httpd) ∧ calls.any setsUp = true
    · left
      refine ⟨.inr hwakes, ?_⟩
      obtain ⟨⟨httpd, rfl⟩, hset⟩ := hwakes
      simp [Booting.call, hisSet.trans hset]
    · rw [or_iff_left hwakes, books_call (by rwa [hisSet])]
      exact ih

end Wakes

/-! ## Routing -/

theorem match_stem (stem path : CStr) :
    wildcardMatch (stem ++ CStr.lit "*") path = stem.bytes.isPrefixOf path.bytes := by
  have hbytes : (stem ++ CStr.lit "*").bytes = stem.bytes ++ [star] := rfl
  rw [wildcardMatch, hbytes, if_pos List.getLast?_concat, List.dropLast_concat]

theorem match_fixed (template : CStr) (h : template.bytes.getLast? ≠ some star) (path : CStr) :
    wildcardMatch template path = decide (path = template) := by
  rw [wildcardMatch, if_neg h, decide_eq_decide]
  exact eq_comm

theorem map_find_cons {α β : Type} (f : α → β) (p : α → Bool) (a : α) (l : List α) :
    ((a :: l).find? p).map f = if p a then some (f a) else (l.find? p).map f := by
  rw [List.find?_cons]
  cases p a <;> rfl

/-- The server finds what the table of paths says. -/
theorem routed (hm : WildcardMatch uriMatch) (ht : cfg.enableNegotiateTerminate = false)
    (method : HttpMethod) (path : CStr) :
    (httpdFindUriHandler uriMatch (routesOf cfg) path method).map (·.handler) =
      routeOf cfg method path := by
  have hneg : wildcardMatch (CStr.lit "/negotiations/*") path =
      negPrefix.bytes.isPrefixOf path.bytes := by
    rw [← match_stem]
    exact congrArg (wildcardMatch · path) (by decide +kernel)
  have hxfer : wildcardMatch (CStr.lit "/transfers/*") path =
      xferPrefix.bytes.isPrefixOf path.bytes := by
    rw [← match_stem]
    exact congrArg (wildcardMatch · path) (by decide +kernel)
  have hcatalog := match_fixed (CStr.lit "/catalog") (by decide +kernel) path
  have hrequest := match_fixed (CStr.lit "/catalog/request") (by decide +kernel) path
  have hoffers := match_fixed (CStr.lit "/negotiations/offers") (by decide +kernel) path
  have hstart := match_fixed (CStr.lit "/transfers/start") (by decide +kernel) path
  rw [Audit.Routes.find_fixed hm]
  rcases cfg with ⟨c, t⟩
  simp only at ht
  subst ht
  cases c <;> cases method <;>
    simp [httpdFindUriHandler, routesOf, catalogRoutes, negRoutes, xferRoutes, catalogRoute,
      catalogRequestRoute, offersRoute, agreeRoute, negGetRoute, xferStartRoute,
      xferCompleteRoute, xferGetRoute, hneg, hxfer, hcatalog, hrequest, hoffers, hstart, routeOf,
      map_find_cons]

/-! ## Starts -/

section Starts

variable {platform : Platform} {n : Node negMax xferMax}

variable (uriMatch) (cfg) in
/-- Past the identity both modules are set up, and the routes follow the server. -/
theorem init_ready (hr : ready platform = true) (n : Node negMax xferMax) :
    (protocolInit uriMatch cfg platform n).2.device = { n.device with
      neg := (dspNegInit n.device.neg).2
      xfer := (dspXferInit n.device.xfer).2 } ∧
    (protocolInit uriMatch cfg platform n).2.http =
      registerGroups uriMatch (groups cfg) (dspHttpStart uriMatch platform.httpd n.http).2 := by
  obtain ⟨hidentity, hcredentials⟩ := (Bool.and_eq_true _ _).mp hr
  rw [decide_eq_true_iff] at hidentity
  obtain ⟨neg, hneg, hnegInit⟩ := negInit_ok n.device.neg
  obtain ⟨xfer, hxfer, hxferInit⟩ := xferInit_ok n.device.xfer
  constructor
  · cases hcat : cfg.enableCatalogRequest <;>
      simp [protocolInit, hidentity, hcredentials, hcat, hneg, hxfer, hnegInit, hxferInit,
        dspCatalogRegisterHandler, dspCatalogRegisterRequestHandler, dspNegRegisterHandlers,
        dspXferRegisterHandlers, registerModule_init]
  · rw [protocolInit_registers uriMatch cfg hidentity hcredentials]
    cases hc : cfg.enableCatalogRequest <;>
      simp [registerGroups, groups, registerCatalog, hc]

theorem init_unready (hr : ready platform = false) (n : Node negMax xferMax) :
    (protocolInit uriMatch cfg platform n).2 = n := by
  unfold protocolInit
  by_cases hidentity : platform.identity = .ok
  · simp only [ready, hidentity, decide_true, Bool.true_and] at hr
    simp [hidentity, hr]
  · simp [hidentity]

end Starts

/-! ## Simulation -/

/-- Both modules are as at power-on, but for the callback. -/
structure Unset (d : Device negMax xferMax) : Prop where
  neg : d.neg = .boot negMax
  table : d.xfer.table = Table.fill xferMax .zero
  initialized : d.xfer.initialized = false

/-- What the tables of a node stand for. They are not set up only where no request
can reach them. -/
inductive Tables (d : Device negMax xferMax) (s : Service) : Prop
  | set (h : Represents d s.books)
  | unset (h : Unset d) (hbooks : s.books = .empty) (hidle : s.up = false ∨ s.routed = false)

structure Refines (cfg : Config) (n : Node negMax xferMax) (s : Service) : Prop where
  running : n.http.running = s.up
  routed : s.routed = true → Complete cfg n.http
  fresh : s.routed = false → Holds n.http []
  tables : Tables n.device s

section Simulation

variable {n : Node negMax xferMax} {s : Service} {d : Device negMax xferMax} {x : Books}
  {platform : Platform}

/-- Only the tables are seen, and that the modules are set up. -/
theorem represents_congr (h : Represents d x) {d' : Device negMax xferMax} (hneg : d'.neg = d.neg)
    (htable : d'.xfer.table = d.xfer.table) (hinit : d'.xfer.initialized = true) :
    Represents d' x := by
  obtain ⟨neg, ⟨table, initialized, notify, calls⟩, store⟩ := d'
  simp only at hneg htable hinit
  subst hneg htable
  exact ⟨⟨h.wellFormed.neg, ⟨h.wellFormed.xfer.packed, h.wellFormed.xfer.canonical⟩,
    h.wellFormed.negInit, hinit⟩, h.page, h.negUsed, h.xferUsed⟩

theorem unset_page (h : Unset d) (p : CStr) : pageOf d p = .empty := by
  obtain ⟨neg, ⟨table, initialized, notify, calls⟩, store⟩ := d
  obtain ⟨hneg, htable, -⟩ := h
  simp only at hneg htable
  subst hneg htable
  exact (boot_represents store false).page p

theorem fresh_represents (hneg : d.neg = ⟨Table.fill negMax .zero, true⟩)
    (htable : d.xfer.table = Table.fill xferMax .zero) (hinit : d.xfer.initialized = true) :
    Represents d .empty :=
  represents_congr (boot_represents d.store false) hneg htable hinit

/-- No slot of the tables is anything but free or filled in by a request. -/
theorem tables_canonical (h : Tables d s) :
    (∀ e ∈ d.neg.table.slots, e.Canonical) ∧ ∀ e ∈ d.xfer.table.slots, e.Canonical := by
  cases h with
  | set h => exact ⟨h.wellFormed.neg.canonical, h.wellFormed.xfer.canonical⟩
  | unset h =>
    rw [h.neg, h.table]
    exact ⟨(Model.Neg.wellFormed_fill false).canonical,
      (Model.Xfer.wellFormed_fill false false []).canonical⟩

/-- Modules that are set up and hold the saved tables hold the saved books. -/
theorem saved_represents (h : Tables d s) {d' : Device negMax xferMax}
    (hneg : d'.neg = ⟨d.neg.table, true⟩) (htable : d'.xfer.table = d.xfer.table)
    (hinit : d'.xfer.initialized = true) : Represents d' s.books := by
  cases h with
  | set h =>
    refine represents_congr h (hneg.trans ?_) htable hinit
    rw [← h.wellFormed.negInit]
  | unset h hbooks =>
    rw [hbooks]
    exact fresh_represents (hneg.trans (by rw [h.neg]; rfl)) (htable.trans h.table) hinit

theorem receive_refines (hm : WildcardMatch uriMatch) (ht : cfg.enableNegotiateTerminate = false)
    (h : Refines cfg n s) (r : HttpRequest) :
    (receive uriMatch n r).1 = (s.receive negMax xferMax cfg r).1 ∧
      Refines cfg (receive uriMatch n r).2 (s.receive negMax xferMax cfg r).2 := by
  cases hup : s.up with
  | false =>
    have hclosed : n.http.server = none := by
      have hstopped := h.running.trans hup
      cases hr : s.routed with
      | true => exact (h.routed hr).closed hstopped
      | false => exact (h.fresh hr).closed hstopped
    simp only [receive, hclosed, Service.receive, hup, Bool.not_false, if_true]
    exact ⟨trivial, h⟩
  | true =>
    have hrunning := h.running.trans hup
    cases hr : s.routed with
    | false =>
      have hserver := (h.fresh hr).server hrunning
      simp only [receive, hserver, dispatch, httpdFindUriHandler, List.find?_nil, Option.map_none,
        Service.receive, hup, hr, Bool.not_true, Bool.not_false, Bool.false_eq_true, if_false,
        if_true]
      exact ⟨trivial, h⟩
    | true =>
      have hserver := (h.routed hr).server hrunning
      have hroute := routed hm ht r.method r.path
      have hdispatch : dispatch uriMatch n.http r.method r.path = routeOf cfg r.method r.path := by
        simp only [dispatch, hserver, hroute]
      cases hhandler : routeOf cfg r.method r.path with
      | none =>
        simp only [receive, hserver, hdispatch, hhandler, Service.receive, hup, hr, Bool.not_true,
          Bool.false_eq_true, if_false]
        exact ⟨trivial, h⟩
      | some handler =>
        cases hendpoint : handlerEndpoint handler with
        | none =>
          simp only [receive, hserver, hdispatch, hhandler, handle, hendpoint, Service.receive, hup,
            hr, Bool.not_true, Bool.false_eq_true, if_false]
          exact ⟨trivial, h⟩
        | some endpoint =>
          simp only [receive, hserver, hdispatch, hhandler, handle, hendpoint, Service.receive, hup,
            hr, Bool.not_true, Bool.false_eq_true, if_false]
          cases h.tables with
          | unset _ _ hidle => simp [hup, hr] at hidle
          | set hrep =>
            obtain ⟨hanswer, hnext⟩ := serve_agree hrep endpoint r.req
            exact ⟨congrArg Reply.answered hanswer, h.running.trans hup, fun _ => h.routed hr,
              (fun hfalse => Bool.noConfusion hfalse), .set hnext⟩

/-- After the registrations of a start the routes are all there, served or not. -/
theorem registered (hm : WildcardMatch uriMatch) (ht : cfg.enableNegotiateTerminate = false)
    {http : HttpModule Handler} (h : Complete cfg http ∨ Holds http []) (started : EspErr) :
    let after := registerGroups uriMatch (groups cfg) (dspHttpStart uriMatch started http).2
    Complete cfg after ∧ after.running = (http.running || decide (started = .ok)) := by
  have hu := (Audit.Routes.unshadowed_iff hm).mpr ht
  have hall : (groups cfg).flatten = routesOf cfg := Audit.Restart.flatten_groups cfg
  rw [← start_running uriMatch]
  rcases h with hc | hh
  · have hstarted := complete_start hm hu hc started
    exact ⟨complete_groups hm _ hstarted (by rw [hall]; exact List.Subset.refl _),
      groups_running hstarted.packed⟩
  · have hstarted := holds_start uriMatch hh started
    have hholds := holds_groups hu (groups cfg) hstarted
      ⟨[], by rw [List.append_nil, List.nil_append, hall]⟩
    rw [List.nil_append, hall] at hholds
    exact ⟨hholds.complete, groups_running hstarted.packed⟩

theorem Refines.http (h : Refines cfg n s) : Complete cfg n.http ∨ Holds n.http [] := by
  cases hr : s.routed with
  | true => exact .inl (h.routed hr)
  | false => exact .inr (h.fresh hr)

theorem init_set (hneg : d.neg.initialized = true) (hxfer : d.xfer.initialized = true) :
    { d with neg := (dspNegInit d.neg).2, xfer := (dspXferInit d.xfer).2 } = d := by
  rw [dspNegInit, if_pos hneg, dspXferInit, if_pos hxfer]

theorem init_unset (h : Unset d) :
    (dspNegInit d.neg).2 = ⟨Table.fill negMax .zero, true⟩ ∧
      (dspXferInit d.xfer).2 =
        { d.xfer with table := Table.fill xferMax .zero, initialized := true } := by
  constructor
  · rw [h.neg]
    rfl
  · rw [dspXferInit, if_neg (by simp [h.initialized])]

/-- Once the modules are set up the tables hold the books. -/
theorem init_represents (h : Tables d s) :
    Represents { d with neg := (dspNegInit d.neg).2, xfer := (dspXferInit d.xfer).2 } s.books := by
  cases h with
  | set hrep =>
    rw [init_set hrep.wellFormed.negInit hrep.wellFormed.xferInit]
    exact hrep
  | unset hunset hbooks =>
    obtain ⟨hneg, hxfer⟩ := init_unset hunset
    rw [hbooks]
    exact fresh_represents hneg (by rw [hxfer]) (by rw [hxfer])

theorem start_refines (hm : WildcardMatch uriMatch) (ht : cfg.enableNegotiateTerminate = false)
    (h : Refines cfg n s) (platform : Platform) :
    Refines cfg (protocolInit uriMatch cfg platform n).2 (s.start platform) := by
  cases hr : ready platform with
  | false =>
    rw [init_unready hr, Service.start, hr]
    exact h
  | true =>
    obtain ⟨hdevice, hhttp⟩ := init_ready uriMatch cfg hr n
    obtain ⟨hcomplete, hrunning⟩ := registered hm ht h.http platform.httpd
    rw [← hhttp] at hcomplete hrunning
    rw [Service.start, if_pos hr]
    refine ⟨by rw [hrunning, h.running], fun _ => hcomplete,
      (fun hfalse => Bool.noConfusion hfalse), .set ?_⟩
    have hrep := init_represents h.tables
    rw [hdevice]
    exact hrep

theorem stop_refines (h : Refines cfg n s) : Refines cfg (dspProtocolStop n) s.stop where
  running := by
    apply stop_running
    intro hrun hnone
    rcases h.http with hc | hh
    · cases (hc.server hrun).symm.trans hnone
    · cases (hh.server hrun).symm.trans hnone
  routed := fun hr => complete_stop (h.routed hr)
  fresh := fun hr => holds_stop (h.fresh hr)
  tables := .unset ⟨rfl, rfl, rfl⟩ rfl (.inl rfl)

/-- A node at power-on is a service that is off. -/
theorem boot_refines (cfg : Config) (store : RtcStore negMax xferMax) :
    Refines cfg (Node.boot store) .off where
  running := rfl
  routed := fun hfalse => Bool.noConfusion hfalse
  fresh := fun _ => holds_boot
  tables := .unset ⟨rfl, rfl, rfl⟩ rfl (.inl rfl)

/-! ## Power cycles -/

/-- How far the tables of a booting node have come, of what `d` saved. -/
inductive Loaded (d d' : Device negMax xferMax) (b : Booting) : Prop
  | unset (h : Unset d') (hset : b.isSet = false) (hrouted : b.service.routed = false)
      (hbooks : b.service.books = .empty)
  | set (hset : b.isSet = true) (hneg : d'.neg.initialized = true)
      (hxfer : d'.xfer.initialized = true)
      (hnegTable : d'.neg.table = Table.fill negMax .zero ∨ d'.neg.table = d.neg.table)
      (hxferTable : d'.xfer.table = Table.fill xferMax .zero ∨ d'.xfer.table = d.xfer.table)

/-- What holds between the calls of a boot. -/
structure Booted (cfg : Config) (d : Device negMax xferMax) (n : Node negMax xferMax)
    (b : Booting) : Prop where
  refines : Refines cfg n b.service
  store : n.device.store = (dspRtcStateSave d.neg d.xfer d.store).2
  loaded : Loaded d n.device b

section Booting

variable {b b' : Booting} {d' : Device negMax xferMax} {cause : WakeupCause}

theorem loaded_init (h : Loaded d d' b) (hset : b'.isSet = true) :
    Loaded d { d' with neg := (dspNegInit d'.neg).2, xfer := (dspXferInit d'.xfer).2 } b' := by
  cases h with
  | unset hunset =>
    obtain ⟨hneg, hxfer⟩ := init_unset hunset
    exact .set hset (by simp only [hneg]) (by simp only [hxfer]) (.inl (by simp only [hneg]))
      (.inl (by simp only [hxfer]))
  | set _ hneg hxfer hnegTable hxferTable =>
    rw [init_set hneg hxfer]
    exact .set hset hneg hxfer hnegTable hxferTable

theorem setUp_booted (h : Booted cfg d n b) :
    Booted cfg d (bootCall uriMatch cfg n .setUp) { b with isSet := true } where
  refines :=
    ⟨h.refines.running, h.refines.routed, h.refines.fresh, .set (init_represents h.refines.tables)⟩
  store := h.store
  loaded := loaded_init h.loaded rfl

theorem start_booted (hm : WildcardMatch uriMatch) (ht : cfg.enableNegotiateTerminate = false)
    (h : Booted cfg d n b) (platform : Platform) :
    Booted cfg d (protocolInit uriMatch cfg platform n).2
      ⟨b.service.start platform, b.isSet || ready platform⟩ := by
  refine ⟨start_refines hm ht h.refines platform, ?_, ?_⟩
  · cases hr : ready platform with
    | false => rw [init_unready hr, h.store]
    | true => rw [(init_ready uriMatch cfg hr n).1, h.store]
  · cases hr : ready platform with
    | false =>
      rw [init_unready hr, Service.start, hr, Bool.or_false]
      exact h.loaded
    | true =>
      rw [(init_ready uriMatch cfg hr n).1]
      exact loaded_init h.loaded (Bool.or_true _)

theorem wakeup_other (hcause : cause ≠ .timer) (httpd : EspErr) :
    (dspPowerHandleWakeup uriMatch cause httpd n).2 = n := by
  rw [dspPowerHandleWakeup, if_pos hcause]

theorem wakeup_timer {neg : NegModule negMax} {xfer : XferModule xferMax}
    (hrestore : dspRtcStateRestore n.device.store n.device.neg n.device.xfer = (.ok, neg, xfer))
    (httpd : EspErr) :
    (dspPowerHandleWakeup uriMatch .timer httpd n).2 = { n with
      device := { n.device with neg, xfer }
      http := (dspHttpStart uriMatch httpd n.http).2 } := by
  simp [dspPowerHandleWakeup, hrestore]

/-- Modules that are not set up take nothing of a good image. -/
theorem restore_unset (hunset : Unset d')
    (hstore : d'.store = (dspRtcStateSave d.neg d.xfer d.store).2) :
    dspRtcStateRestore d'.store d'.neg d'.xfer = (.ok, d'.neg, d'.xfer) := by
  have hmagic : ¬ (dspRtcStateSave d.neg d.xfer d.store).2.magic ≠ dspRtcMagic := not_not.mpr rfl
  have hcrc : ¬ computeCrc32 (dspRtcStateSave d.neg d.xfer d.store).2 ≠
      (dspRtcStateSave d.neg d.xfer d.store).2.crc32 := not_not.mpr rfl
  have hneg : d'.neg.initialized = false := by
    rw [hunset.neg]
    rfl
  rw [hstore, dspRtcStateRestore, if_neg hmagic, if_neg hcrc, restoreNeg_uninitialized _ hneg,
    restoreXfer_uninitialized _ hunset.initialized]

/-- The saved tables come back, a second time too. -/
theorem wakeup_booted (hm : WildcardMatch uriMatch) (ht : cfg.enableNegotiateTerminate = false)
    (hsaved : Tables d s) (h : Booted cfg d n b) (httpd : EspErr) :
    Booted cfg d (dspPowerHandleWakeup uriMatch .timer httpd n).2 { b with
      service := { b.service with
        up := b.service.up || decide (httpd = .ok)
        books := if b.isSet then s.books else b.service.books } } := by
  have hu := (Audit.Routes.unshadowed_iff hm).mpr ht
  have hrunning : (dspHttpStart uriMatch httpd n.http).2.running =
      (b.service.up || decide (httpd = .ok)) := by
    rw [start_running, h.refines.running]
  have hcomplete := fun hr => complete_start hm hu (h.refines.routed hr) httpd
  have hfresh := fun hr => holds_start uriMatch (h.refines.fresh hr) httpd
  cases h.loaded with
  | unset hunset hset hrouted hbooks =>
    rw [wakeup_timer (restore_unset hunset h.store), hset]
    have hkept : Unset { n.device with neg := n.device.neg, xfer := n.device.xfer } :=
      ⟨hunset.neg, hunset.table, hunset.initialized⟩
    exact ⟨⟨hrunning, hcomplete, hfresh, .unset hkept hbooks (.inr hrouted)⟩, h.store,
      .unset hkept rfl hrouted hbooks⟩
  | set hset hneg hxfer hnegTable hxferTable =>
    obtain ⟨hcanonicalNeg, hcanonicalXfer⟩ := tables_canonical hsaved
    have hrestore := restore_saved d.store hcanonicalNeg hcanonicalXfer hneg hxfer hnegTable
      hxferTable
    rw [← h.store] at hrestore
    have hnegSet : ({ n.device.neg with table := d.neg.table } : NegModule negMax) =
        ⟨d.neg.table, true⟩ := by rw [← hneg]
    rw [wakeup_timer hrestore, hset]
    exact ⟨⟨hrunning, hcomplete, hfresh, .set (saved_represents hsaved hnegSet rfl hxfer)⟩, h.store,
      .set rfl hneg hxfer (.inr rfl) (.inr rfl)⟩

theorem bootCall_booted (hm : WildcardMatch uriMatch) (ht : cfg.enableNegotiateTerminate = false)
    (hsaved : Tables d s) (h : Booted cfg d n b) (call : BootCall) :
    Booted cfg d (bootCall uriMatch cfg n call) (b.call s.books call) := by
  cases call with
  | setUp => exact setUp_booted h
  | start platform => exact start_booted hm ht h platform
  | wakeUp cause httpd =>
    by_cases hcause : cause = .timer
    · subst hcause
      exact wakeup_booted hm ht hsaved h httpd
    · rw [bootCall, wakeup_other hcause, Booting.call, if_neg hcause]
      exact h

theorem powerCycle_refines (hm : WildcardMatch uriMatch) (ht : cfg.enableNegotiateTerminate = false)
    (h : Refines cfg n s) (calls : List BootCall) :
    Refines cfg (powerCycle uriMatch cfg calls n) (s.powerCycle calls) := by
  have hboot : Booted cfg n.device (Node.boot (dspPowerEnterDeepSleep n).device.store)
      ⟨.off, false⟩ :=
    ⟨boot_refines cfg _, rfl, .unset ⟨rfl, rfl, rfl⟩ rfl rfl rfl⟩
  have hcalls := List.foldl_rel (r := Booted cfg n.device) (l := calls) hboot
    (fun call _ _ _ hb => bootCall_booted hm ht h.tables hb call)
  exact hcalls.refines

end Booting

theorem step_refines (hm : WildcardMatch uriMatch) (ht : cfg.enableNegotiateTerminate = false)
    (h : Refines cfg n s) (event : Event) :
    (step uriMatch cfg n event).1 = (s.step negMax xferMax cfg event).1 ∧
      Refines cfg (step uriMatch cfg n event).2 (s.step negMax xferMax cfg event).2 := by
  cases event with
  | request r =>
    obtain ⟨hreply, hnext⟩ := receive_refines hm ht h r
    exact ⟨congrArg some hreply, hnext⟩
  | start platform => exact ⟨rfl, start_refines hm ht h platform⟩
  | stop => exact ⟨rfl, stop_refines h⟩
  | powerCycle calls => exact ⟨rfl, powerCycle_refines hm ht h calls⟩

end Simulation

/-- In builds without the termination endpoint every life of a node, with starts,
stops, power cycles and failures in any order, and with any calls in any order at each
boot, is answered request by request as the service answers it, and its tables say at the
end what the books say. A power cycle keeps the books if a timer wake-up finds the modules
set up, and loses them otherwise. -/
theorem node_refines_service (hm : WildcardMatch uriMatch)
    (ht : cfg.enableNegotiateTerminate = false) (store : RtcStore negMax xferMax)
    (events : List Event) :
    trace (step uriMatch cfg) (Node.boot store) events =
        trace (Service.step negMax xferMax cfg) .off events ∧
      (∀ p, pageOf (final (step uriMatch cfg) (Node.boot store) events).device p =
        (final (Service.step negMax xferMax cfg) .off events).books.page p) ∧
      ∀ (s : Service) (calls : List BootCall),
        (Wakes calls ∧ (s.powerCycle calls).books = s.books) ∨
          (¬ Wakes calls ∧ (s.powerCycle calls).books = .empty) := by
  obtain ⟨htrace, hfinal⟩ := trace_simulates (R := Refines cfg)
    (fun _ _ event h => step_refines hm ht h event) events (boot_refines cfg store)
  refine ⟨htrace, ?_, powerCycle_books⟩
  intro p
  cases hfinal.tables with
  | set h => exact h.page p
  | unset h hbooks =>
    rw [hbooks]
    exact unset_page h p

/-- Through a start, an offer, a power cycle and a stop. -/
def offerKept : List Event :=
  [.start ⟨.ok, true, .ok⟩,
    .request ⟨.post, CStr.lit "/negotiations/offers", CStr.empty, offerRequest.delivery⟩,
    .powerCycle [.setUp, .wakeUp .timer .ok, .start ⟨.ok, true, .fail⟩],
    .request ⟨.get, CStr.lit "/negotiations/p", CStr.empty, []⟩, .stop,
    .request ⟨.get, CStr.lit "/negotiations/p", CStr.empty, []⟩]

theorem offerKept_replies :
    (trace (step wildcardMatch ⟨false, false⟩) (Node.boot (RtcStore.zero 4 2)) offerKept).map
      (fun e => e.2) = [none, some (.answered (httpdRespSendstr .created
        (eventText (CStr.lit "p") Model.Jsonld.negStateOffered))), none,
        some (.answered (httpdRespSendstr .ok
          (eventText (CStr.lit "p") Model.Jsonld.negStateOffered))), none, some .closed] := by
  rw [(node_refines_service Audit.Routes.wildcardMatch_wildcard rfl _ offerKept).1]
  decide +kernel

end DspEmbedded.Audit.WholeNode
