import DspEmbedded.Lib.SlotTable
import DspEmbedded.Model.Esp

/-!
# `dsp_http.c` on esp_http_server

The route table, and below it the server's own list of registered handlers. How
the server compares a template with a path is foreign code and a parameter of
everything that depends on it. Handlers are values of an arbitrary type.
-/
namespace DspEmbedded.Model.Http

open Lib.CString Lib.SlotTable Model.Esp

variable {η : Type}

/-- `dsp_http_method_t`. -/
inductive HttpMethod where
  | get
  | post
  | put
  | delete
  deriving DecidableEq, Repr

/-! ## esp_http_server -/

/-- `httpd_uri_t`, with the handler that the bridge function calls. -/
structure Route (η : Type) where
  uri : CStr
  method : HttpMethod
  handler : η
  deriving DecidableEq

/-- The first registered template of the method that matches. -/
def httpdFindUriHandler (uriMatch : CStr → CStr → Bool) (server : List (Route η))
    (uri : CStr) (method : HttpMethod) : Option (Route η) :=
  server.find? fun r => decide (r.method = method) && uriMatch r.uri uri

/-- `DSP_HTTP_MAX_ROUTES`, also given to the server as `max_uri_handlers`. -/
def dspHttpMaxRoutes : Nat := 16

/-- `httpd_register_uri_handler`: refused where a registered template of the same
method already matches the new one. -/
def httpdRegisterUriHandler (uriMatch : CStr → CStr → Bool) (server : List (Route η))
    (r : Route η) : EspErr × List (Route η) :=
  if (httpdFindUriHandler uriMatch server r.uri r.method).isSome then (.httpdHandlerExists, server)
  else if dspHttpMaxRoutes ≤ server.length then (.httpdHandlersFull, server)
  else (.ok, server ++ [r])

/-! ## Route table -/

/-- `route_entry_t`; a NULL handler is `none`. -/
structure RouteEntry (η : Type) where
  uri : CharBuf 64
  method : HttpMethod
  handler : Option η
  used : Bool

def RouteEntry.zero : RouteEntry η := ⟨.zero 64, .get, none, false⟩

/-- `s_routes`, `s_server` and `s_running`, and the results of the registration
calls so far. -/
structure HttpModule (η : Type) where
  routes : Table (RouteEntry η) dspHttpMaxRoutes
  server : Option (List (Route η))
  running : Bool
  results : List EspErr

def HttpModule.boot : HttpModule η := ⟨Table.fill _ .zero, none, false, []⟩

/-- `apply_route`. -/
def applyRoute (uriMatch : CStr → CStr → Bool) (server : List (Route η)) (e : RouteEntry η) :
    EspErr × List (Route η) :=
  match e.handler with
  | none => (.invalidArg, server)
  | some handler => httpdRegisterUriHandler uriMatch server ⟨e.uri.str, e.method, handler⟩

/-- `dsp_http_start`; `started` is what `httpd_start` returns. A route that
cannot be registered is only logged. -/
def dspHttpStart (uriMatch : CStr → CStr → Bool) (started : EspErr) (h : HttpModule η) :
    EspErr × HttpModule η :=
  if h.running then (.invalidState, h)
  else if started ≠ .ok then (started, h)
  else
    let server := h.routes.slots.foldl
      (fun server e => if e.used then (applyRoute uriMatch server e).2 else server) []
    (.ok, { h with server := some server, running := true })

def dspHttpStop (h : HttpModule η) : HttpModule η :=
  if !h.running || h.server.isNone then h else { h with server := none, running := false }

/-- The body of `dsp_http_register_handler`. -/
def registerHandler (uriMatch : CStr → CStr → Bool) (h : HttpModule η) (uri : Option CStr)
    (method : HttpMethod) (handler : Option η) : EspErr × HttpModule η :=
  match uri, handler with
  | some uri, some handler =>
    let i := firstIdx (fun e => !e.used) h.routes.slots
    match h.routes.get? i with
    | none => (.noMem, h)
    | some old =>
      let e : RouteEntry η :=
        { uri := (strncpy old.uri uri 63).set 63 0, method, handler := some handler, used := true }
      match h.running, h.server with
      | true, some server =>
        let (err, server) := applyRoute uriMatch server e
        if err ≠ .ok then
          (err, { h with routes := h.routes.set i { e with used := false }, server := some server })
        else (.ok, { h with routes := h.routes.set i e, server := some server })
      | _, _ => (.ok, { h with routes := h.routes.set i e })
  | _, _ => (.invalidArg, h)

def dspHttpRegisterHandler (uriMatch : CStr → CStr → Bool) (h : HttpModule η)
    (uri : Option CStr) (method : HttpMethod) (handler : Option η) : EspErr × HttpModule η :=
  let (err, h) := registerHandler uriMatch h uri method handler
  (err, { h with results := h.results ++ [err] })

def dspHttpIsRunning (h : HttpModule η) : Bool := h.running

/-- The handler that a request to the running server goes to. -/
def dispatch (uriMatch : CStr → CStr → Bool) (h : HttpModule η) (method : HttpMethod)
    (path : CStr) : Option η :=
  match h.server with
  | none => none
  | some server => (httpdFindUriHandler uriMatch server path method).map (·.handler)

/-- Registrations one after another up to the first that fails, as the
`register_handlers` functions make them. -/
def registerInOrder (uriMatch : CStr → CStr → Bool) (h : HttpModule η) :
    List (Route η) → EspErr × HttpModule η
  | [] => (.ok, h)
  | r :: rest =>
    match dspHttpRegisterHandler uriMatch h (some r.uri) r.method (some r.handler) with
    | (.ok, h) => registerInOrder uriMatch h rest
    | (err, h) => (err, h)

/-! ## Registration with a running server -/

variable {uriMatch : CStr → CStr → Bool} {h : HttpModule η} {server : List (Route η)}

/-- A registered route that takes the requests of another one. -/
def Shadows (uriMatch : CStr → CStr → Bool) (s r : Route η) : Prop :=
  s.method = r.method ∧ uriMatch s.uri r.uri = true

instance (s r : Route η) : Decidable (Shadows uriMatch s r) :=
  inferInstanceAs (Decidable (s.method = r.method ∧ uriMatch s.uri r.uri = true))

/-- The server runs with exactly these routes, and the route table has as many
entries in use. -/
structure Serving (h : HttpModule η) (server : List (Route η)) : Prop where
  running : h.running = true
  started : h.server = some server
  packed : Packed RouteEntry.used h.routes
  length : (live RouteEntry.used h.routes).length = server.length

theorem findUriHandler_isSome {r : Route η} :
    (httpdFindUriHandler uriMatch server r.uri r.method).isSome = true ↔
      ∃ s ∈ server, Shadows uriMatch s r := by
  simp [httpdFindUriHandler, Shadows]

/-- What is written into the table for a route. -/
def Route.entry (r : Route η) : RouteEntry η :=
  ⟨.ofStr 64 (r.uri.take 63), r.method, some r.handler, true⟩

theorem applyRoute_entry {r : Route η} (hlen : r.uri.length < 64) :
    applyRoute uriMatch server r.entry = httpdRegisterUriHandler uriMatch server r := by
  have huri : r.entry.uri.str = r.uri := by
    rw [Route.entry, CStr.take_of_length_le (Nat.le_of_lt_succ hlen), CharBuf.str_ofStr hlen]
  have hhandler : r.entry.handler = some r.handler := rfl
  rw [applyRoute, hhandler]
  simp only [huri]
  rfl

theorem results_register (uriMatch : CStr → CStr → Bool) (h : HttpModule η) (uri : Option CStr)
    (method : HttpMethod) (handler : Option η) :
    (dspHttpRegisterHandler uriMatch h uri method handler).2.results =
      h.results ++ [(dspHttpRegisterHandler uriMatch h uri method handler).1] := by
  have hkeeps : (registerHandler uriMatch h uri method handler).2.results = h.results := by
    unfold registerHandler
    split
    · simp only
      split
      · rfl
      · split
        · split_ifs <;> rfl
        · rfl
    · rfl
  simp only [dspHttpRegisterHandler, hkeeps]

/-- A failure ends the sequence. -/
theorem registerInOrder_cons (uriMatch : CStr → CStr → Bool) (h : HttpModule η) (r : Route η)
    (rest : List (Route η)) :
    registerInOrder uriMatch h (r :: rest) =
      if (dspHttpRegisterHandler uriMatch h (some r.uri) r.method (some r.handler)).1 = .ok then
        registerInOrder uriMatch
          (dspHttpRegisterHandler uriMatch h (some r.uri) r.method (some r.handler)).2 rest
      else dspHttpRegisterHandler uriMatch h (some r.uri) r.method (some r.handler) := by
  rw [registerInOrder]
  split
  · next h' heq =>
    rw [heq]
    rfl
  · next err h' hne heq =>
    rw [heq, if_neg hne]

/-- What a registration does while the table has room. -/
structure Registers (uriMatch : CStr → CStr → Bool) (h : HttpModule η) (r : Route η)
    (err : EspErr) (h' : HttpModule η) : Prop where
  packed : Packed RouteEntry.used h'.routes
  live : live RouteEntry.used h'.routes =
    live RouteEntry.used h.routes ++ if err = .ok then [r.entry] else []
  running : h'.running = h.running
  stopped : h.running = false → err = .ok ∧ h'.server = h.server
  served : ∀ server, h.running = true → h.server = some server →
    err = (applyRoute uriMatch server r.entry).1 ∧
      h'.server = some (applyRoute uriMatch server r.entry).2

theorem register_registers (uriMatch : CStr → CStr → Bool) (hp : Packed RouteEntry.used h.routes)
    (hroom : (live RouteEntry.used h.routes).length < dspHttpMaxRoutes) (r : Route η) :
    Registers uriMatch h r
      (dspHttpRegisterHandler uriMatch h (some r.uri) r.method (some r.handler)).1
      (dspHttpRegisterHandler uriMatch h (some r.uri) r.method (some r.handler)).2 := by
  rcases free_slot_cases hp with ⟨hfull, -⟩ | ⟨old, -, hidx, hget, -⟩
  · omega
  have hentry : (⟨(strncpy old.uri r.uri 63).set 63 0, r.method, some r.handler, true⟩ :
      RouteEntry η) = r.entry := by
    rw [Route.entry, ← strncpy_terminated (by decide) old.uri r.uri]
  have hfill := live_set_free (e := r.entry) hp rfl hroom
  have hfree := live_set_unused hp
    (e := ⟨(strncpy old.uri r.uri 63).set 63 0, r.method, some r.handler, false⟩) rfl
  cases hrun : h.running with
  | false =>
    have hne : h.running ≠ true := by
      rw [hrun]
      exact Bool.false_ne_true
    simp only [dspHttpRegisterHandler, registerHandler, hidx, hget, hentry, hrun]
    exact ⟨hfill.2, hfill.1, hrun.symm, fun _ => ⟨rfl, rfl⟩, fun _ h' => absurd h' hne⟩
  | true =>
    have hne : h.running ≠ false := by
      rw [hrun]
      exact Bool.false_ne_true.symm
    cases hserver : h.server with
    | none =>
      simp only [dspHttpRegisterHandler, registerHandler, hidx, hget, hentry, hrun, hserver]
      refine ⟨hfill.2, hfill.1, hrun.symm, fun h' => absurd h' hne, ?_⟩
      intro server _ h'
      rw [hserver] at h'
      cases h'
    | some server =>
      have hsame : ∀ server', h.server = some server' → server' = server := by
        intro server' h'
        rw [hserver] at h'
        exact (Option.some.inj h').symm
      by_cases hok : (applyRoute uriMatch server r.entry).1 = .ok
      · simp only [dspHttpRegisterHandler, registerHandler, hidx, hget, hentry, hrun, hserver, hok]
        refine ⟨hfill.2, hfill.1, hrun.symm, fun h' => absurd h' hne, ?_⟩
        intro server' _ h'
        rw [hsame server' h', hok]
        exact ⟨rfl, rfl⟩
      · simp only [dspHttpRegisterHandler, registerHandler, hidx, hget, hentry, hrun, hserver,
          hok, ne_eq, not_false_eq_true, if_true]
        refine ⟨hfree.2, ?_, hrun.symm, fun h' => absurd h' hne, ?_⟩
        · rw [if_neg hok, List.append_nil]
          exact hfree.1
        · intro server' _ h'
          rw [hsame server' h']
          exact ⟨rfl, rfl⟩

/-- A full table is left alone. -/
theorem register_full (uriMatch : CStr → CStr → Bool) (hp : Packed RouteEntry.used h.routes)
    (hfull : dspHttpMaxRoutes ≤ (live RouteEntry.used h.routes).length) (r : Route η) :
    dspHttpRegisterHandler uriMatch h (some r.uri) r.method (some r.handler) =
      (.noMem, { h with results := h.results ++ [.noMem] }) := by
  rcases free_slot_cases hp with ⟨-, hget⟩ | ⟨old, hroom, -, -, -⟩
  · simp only [dspHttpRegisterHandler, registerHandler, hget]
  · omega

/-- A route that no registered one shadows is added behind them. -/
theorem register_fresh (hs : Serving h server) {r : Route η} (hlen : r.uri.length < 64)
    (hroom : server.length < dspHttpMaxRoutes) (hfresh : ∀ s ∈ server, ¬ Shadows uriMatch s r) :
    ∃ h', dspHttpRegisterHandler uriMatch h (some r.uri) r.method (some r.handler) = (.ok, h') ∧
      Serving h' (server ++ [r]) ∧ h'.results = h.results ++ [.ok] := by
  have hfound : ¬ (httpdFindUriHandler uriMatch server r.uri r.method).isSome = true := by
    rw [findUriHandler_isSome]
    intro hex
    obtain ⟨s, hmem, hs⟩ := hex
    exact hfresh s hmem hs
  have hadded : httpdRegisterUriHandler uriMatch server r = (.ok, server ++ [r]) := by
    rw [httpdRegisterUriHandler, if_neg hfound, if_neg (by omega)]
  have hreg := register_registers uriMatch hs.packed (by rw [hs.length]; exact hroom) r
  obtain ⟨herr, hserver⟩ := hreg.served server hs.running hs.started
  rw [applyRoute_entry hlen, hadded] at herr hserver
  have hres := results_register uriMatch h (some r.uri) r.method (some r.handler)
  rw [herr] at hres
  refine ⟨_, Prod.ext herr rfl, ⟨hreg.running.trans hs.running, hserver, hreg.packed, ?_⟩, hres⟩
  rw [hreg.live, if_pos herr, List.length_append, hs.length]
  simp

/-- A shadowed one is refused. -/
theorem register_shadowed (hs : Serving h server) {r : Route η} (hlen : r.uri.length < 64)
    (hroom : server.length < dspHttpMaxRoutes) (hshadow : ∃ s ∈ server, Shadows uriMatch s r) :
    (dspHttpRegisterHandler uriMatch h (some r.uri) r.method (some r.handler)).1 =
      .httpdHandlerExists := by
  have hrefused : httpdRegisterUriHandler uriMatch server r = (.httpdHandlerExists, server) :=
    if_pos (findUriHandler_isSome.mpr hshadow)
  have hreg := register_registers uriMatch hs.packed (by rw [hs.length]; exact hroom) r
  obtain ⟨herr, -⟩ := hreg.served server hs.running hs.started
  rwa [applyRoute_entry hlen, hrefused] at herr

/-- No route takes the requests of a later one. -/
def Unshadowed (uriMatch : CStr → CStr → Bool) (rs : List (Route η)) : Prop :=
  rs.Pairwise fun s r => ¬ Shadows uriMatch s r

instance (rs : List (Route η)) : Decidable (Unshadowed uriMatch rs) :=
  inferInstanceAs (Decidable (rs.Pairwise fun s r => ¬ Shadows uriMatch s r))

theorem Unshadowed.fresh {r : Route η} {rest : List (Route η)}
    (hu : Unshadowed uriMatch (server ++ r :: rest)) : ∀ s ∈ server, ¬ Shadows uriMatch s r :=
  fun s hs => (List.pairwise_append.mp hu).2.2 s hs r List.mem_cons_self

/-- Registrations in order all succeed where none is shadowed by an earlier one. -/
theorem registerInOrder_fresh {rs : List (Route η)} (hs : Serving h server)
    (hlen : ∀ r ∈ rs, r.uri.length < 64) (hroom : server.length + rs.length ≤ dspHttpMaxRoutes)
    (hu : Unshadowed uriMatch (server ++ rs)) :
    ∃ h', registerInOrder uriMatch h rs = (.ok, h') ∧ Serving h' (server ++ rs) ∧
      h'.results = h.results ++ List.replicate rs.length .ok := by
  induction rs generalizing h server with
  | nil => exact ⟨h, rfl, by rwa [List.append_nil], by simp⟩
  | cons r rest ih =>
    rw [List.length_cons] at hroom
    obtain ⟨h₁, heq, hs₁, hres₁⟩ := register_fresh hs (hlen r List.mem_cons_self) (by omega)
      hu.fresh
    have hlist : server ++ r :: rest = server ++ [r] ++ rest := by simp
    rw [hlist] at hu ⊢
    obtain ⟨h₂, heq₂, hs₂, hres₂⟩ := ih hs₁ (fun r' hr' => hlen r' (List.mem_cons_of_mem _ hr'))
      (by rw [List.length_append, List.length_singleton]; omega) hu
    refine ⟨h₂, ?_, hs₂, ?_⟩
    · simp only [registerInOrder, heq, heq₂]
    · rw [hres₂, hres₁, List.append_assoc, List.singleton_append, List.length_cons,
        List.replicate_succ]

/-- The results of earlier calls stay. -/
theorem results_registerInOrder (rs : List (Route η)) :
    h.results <+: (registerInOrder uriMatch h rs).2.results := by
  induction rs generalizing h with
  | nil => exact List.prefix_refl _
  | cons r rest ih =>
    have hone := results_register uriMatch h (some r.uri) r.method (some r.handler)
    have hgrows : h.results <+:
        (dspHttpRegisterHandler uriMatch h (some r.uri) r.method (some r.handler)).2.results := by
      rw [hone]
      exact List.prefix_append _ _
    rw [registerInOrder_cons]
    split_ifs with hok
    · exact hgrows.trans ih
    · exact hgrows

/-- A shadowed registration leaves its error among the results. -/
theorem registerInOrder_shadowed (pre post : List (Route η)) {r : Route η}
    (hs : Serving h server) (hlen : ∀ r' ∈ pre ++ [r], r'.uri.length < 64)
    (hroom : server.length + pre.length < dspHttpMaxRoutes)
    (hu : Unshadowed uriMatch (server ++ pre))
    (hshadow : ∃ s ∈ server ++ pre, Shadows uriMatch s r) :
    .httpdHandlerExists ∈ (registerInOrder uriMatch h (pre ++ r :: post)).2.results := by
  induction pre generalizing h server with
  | nil =>
    rw [List.append_nil] at hshadow
    rw [List.length_nil] at hroom
    have hrefused := register_shadowed hs (hlen r (by simp)) (by omega) hshadow
    have hres := results_register uriMatch h (some r.uri) r.method (some r.handler)
    rw [hrefused] at hres
    rw [List.nil_append, registerInOrder_cons, if_neg (by rw [hrefused]; decide), hres]
    simp
  | cons r₀ pre ih =>
    rw [List.length_cons] at hroom
    obtain ⟨h₁, heq, hs₁, -⟩ := register_fresh hs (hlen r₀ (by simp)) (by omega) hu.fresh
    have hlist : server ++ r₀ :: pre = server ++ [r₀] ++ pre := by simp
    rw [hlist] at hu hshadow
    have hnext := ih hs₁ (fun r' hr' => hlen r' (List.mem_cons_of_mem _ hr'))
      (by rw [List.length_append, List.length_singleton]; omega) hu hshadow
    rw [List.cons_append, registerInOrder_cons, heq]
    exact hnext

/-- The server starts empty on a route table without entries. -/
theorem serving_start :
    Serving (dspHttpStart uriMatch .ok (.boot : HttpModule η)).2 [] where
  running := rfl
  started := rfl
  packed := packed_fill rfl
  length := by
    have hlive : live RouteEntry.used (HttpModule.boot : HttpModule η).routes = [] := live_fill rfl
    exact congrArg List.length hlive

end DspEmbedded.Model.Http
