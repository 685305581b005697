import DspEmbedded.Lib.Runs
import DspEmbedded.Model.Http

/-!
# Registration before and after the start

The two ways of `dsp_http_register_handler`: with a stopped server a route waits
in the table for the next start, with a running one it is registered at once, and
its slot is freed again if the server refuses it. A refused route would also be
refused at every later start, since the routes in front of it stay, so the table
and the whole list of registrations always lead to the same server.
-/
namespace DspEmbedded.Audit.Registration

open Lib.CString Lib.Runs Lib.SlotTable Model.Esp Model.Http

variable {η : Type} {uriMatch : CStr → CStr → Bool} {h : HttpModule η}

/-! ## Runs -/

inductive Call (η : Type) where
  | register (uri : Option CStr) (method : HttpMethod) (handler : Option η)
  | start
  | stop

/-- `httpd_start` succeeds whenever it is called. -/
def perform (uriMatch : CStr → CStr → Bool) (h : HttpModule η) : Call η → EspErr × HttpModule η
  | .register uri method handler => dspHttpRegisterHandler uriMatch h uri method handler
  | .start => dspHttpStart uriMatch .ok h
  | .stop => (.ok, dspHttpStop h)

def isRegister : Call η → Bool
  | .register .. => true
  | _ => false

/-- The entry that a call asks to serve. -/
def asked : Call η → List (RouteEntry η)
  | .register (some uri) method (some handler) => [Route.entry ⟨uri, method, handler⟩]
  | _ => []

/-- What a server ends up with when it is given these routes one by one. -/
def served (uriMatch : CStr → CStr → Bool) (es : List (RouteEntry η)) : List (Route η) :=
  es.foldl (fun server e => (applyRoute uriMatch server e).2) []

theorem served_snoc (es : List (RouteEntry η)) (e : RouteEntry η) :
    served uriMatch (es ++ [e]) = (applyRoute uriMatch (served uriMatch es) e).2 := by
  rw [served, List.foldl_append]
  rfl

/-- Routes that are registered stay. -/
theorem applyRoute_appends (server : List (Route η)) (e : RouteEntry η) :
    server <+: (applyRoute uriMatch server e).2 := by
  unfold applyRoute httpdRegisterUriHandler
  split
  · exact List.prefix_refl _
  · split_ifs
    · exact List.prefix_refl _
    · exact List.prefix_refl _
    · exact List.prefix_append _ _

/-- The first route is registered in any case. -/
theorem served_first {r : Route η} (hlen : r.uri.length < 64) (es : List (RouteEntry η)) :
    r ∈ served uriMatch (r.entry :: es) := by
  have hkept : ∀ (es : List (RouteEntry η)) (server : List (Route η)),
      server <+: es.foldl (fun server e => (applyRoute uriMatch server e).2) server := by
    intro es
    induction es with
    | nil => exact fun server => List.prefix_refl server
    | cons e es ih => exact fun server => (applyRoute_appends server e).trans (ih _)
  have hfirst : (applyRoute uriMatch [] r.entry).2 = [r] := by
    rw [applyRoute_entry hlen]
    rfl
  apply (hkept es (applyRoute uriMatch [] r.entry).2).subset
  rw [hfirst]
  exact List.mem_singleton.mpr rfl

/-- A refused route changes nothing in the server. -/
theorem applyRoute_refused {server : List (Route η)} {e : RouteEntry η}
    (hne : (applyRoute uriMatch server e).1 ≠ .ok) :
    (applyRoute uriMatch server e).2 = server := by
  unfold applyRoute httpdRegisterUriHandler at hne ⊢
  cases he : e.handler with
  | none => rfl
  | some handler =>
    simp only [he] at hne ⊢
    split_ifs at hne ⊢
    · rfl
    · rfl
    · exact absurd rfl hne

/-- The loop of `dsp_http_start` over a packed table. -/
theorem foldl_used (hp : Packed RouteEntry.used h.routes) :
    h.routes.slots.foldl
        (fun server e => if e.used then (applyRoute uriMatch server e).2 else server) [] =
      served uriMatch (live RouteEntry.used h.routes) := by
  have hused : ∀ (es : List (RouteEntry η)) (server : List (Route η)),
      (∀ e ∈ es, e.used = true) →
      es.foldl (fun server e => if e.used then (applyRoute uriMatch server e).2 else server)
          server =
        es.foldl (fun server e => (applyRoute uriMatch server e).2) server := by
    intro es
    induction es with
    | nil => intro server _; rfl
    | cons e es ih =>
      intro server hes
      rw [List.foldl_cons, List.foldl_cons, if_pos (hes e List.mem_cons_self)]
      exact ih _ fun e' he' => hes e' (List.mem_cons_of_mem _ he')
  have hunused : ∀ (es : List (RouteEntry η)) (server : List (Route η)),
      (∀ e ∈ es, e.used = false) →
      es.foldl (fun server e => if e.used then (applyRoute uriMatch server e).2 else server)
          server = server := by
    intro es
    induction es with
    | nil => intro server _; rfl
    | cons e es ih =>
      intro server hes
      rw [List.foldl_cons, hes e List.mem_cons_self]
      exact ih _ fun e' he' => hes e' (List.mem_cons_of_mem _ he')
  conv_lhs => rw [← List.takeWhile_append_dropWhile (p := RouteEntry.used) (l := h.routes.slots)]
  rw [List.foldl_append, hunused _ _ hp]
  exact hused _ _ fun e he => active_of_mem_live he

/-! ## The invariant -/

/-- After `calls` register calls that asked for `rs`: the table leads to the same
server as all of them, and a running server has just these routes. -/
structure Serves (uriMatch : CStr → CStr → Bool) (calls : Nat) (rs : List (RouteEntry η))
    (h : HttpModule η) : Prop where
  packed : Packed RouteEntry.used h.routes
  room : (live RouteEntry.used h.routes).length ≤ calls
  kept : served uriMatch (live RouteEntry.used h.routes) = served uriMatch rs
  running : h.running = true → h.server = some (served uriMatch rs)

theorem serves_boot : Serves uriMatch 0 [] (.boot : HttpModule η) := by
  have hlive : live RouteEntry.used (HttpModule.boot : HttpModule η).routes = [] := live_fill rfl
  refine ⟨packed_fill rfl, ?_, ?_, ?_⟩
  · rw [hlive]
    rfl
  · rw [hlive]
  · intro hrun
    cases hrun

variable {calls : Nat} {rs : List (RouteEntry η)}

theorem serves_register (hs : Serves uriMatch calls rs h) (hroom : calls < dspHttpMaxRoutes)
    (r : Route η) :
    Serves uriMatch (calls + 1) (rs ++ [r.entry])
      (dspHttpRegisterHandler uriMatch h (some r.uri) r.method (some r.handler)).2 := by
  have hreg := register_registers uriMatch hs.packed (Nat.lt_of_le_of_lt hs.room hroom) r
  generalize dspHttpRegisterHandler uriMatch h (some r.uri) r.method (some r.handler) = res at hreg
  have hserved : h.running = true → res.1 = (applyRoute uriMatch (served uriMatch rs) r.entry).1 ∧
      res.2.server = some (applyRoute uriMatch (served uriMatch rs) r.entry).2 :=
    fun hrun => hreg.served _ hrun (hs.running hrun)
  refine ⟨hreg.packed, ?_, ?_, ?_⟩
  · rw [hreg.live, List.length_append]
    have hone : (if res.1 = .ok then [r.entry] else []).length ≤ 1 := by
      split_ifs <;> simp
    have h' := hs.room
    omega
  · rw [hreg.live]
    by_cases hok : res.1 = .ok
    · rw [if_pos hok, served_snoc, served_snoc, hs.kept]
    · -- only a running server refuses, and then it has not changed
      have hrun : h.running = true := by
        by_contra hstop
        exact hok (hreg.stopped (Bool.eq_false_iff.mpr hstop)).1
      rw [if_neg hok, List.append_nil, hs.kept, served_snoc]
      exact (applyRoute_refused ((hserved hrun).1 ▸ hok)).symm
  · intro hrun
    rw [hreg.running] at hrun
    rw [(hserved hrun).2, served_snoc]

theorem serves_start (hs : Serves uriMatch calls rs h) :
    Serves uriMatch calls rs (dspHttpStart uriMatch .ok h).2 := by
  unfold dspHttpStart
  split_ifs with hrun herr
  · exact hs
  · exact absurd rfl herr
  · refine ⟨hs.packed, hs.room, hs.kept, ?_⟩
    intro _
    show some _ = some _
    rw [foldl_used hs.packed, hs.kept]

theorem serves_stop (hs : Serves uriMatch calls rs h) : Serves uriMatch calls rs (dspHttpStop h) := by
  unfold dspHttpStop
  split_ifs
  · exact hs
  · exact ⟨hs.packed, hs.room, hs.kept, fun hrun => by cases hrun⟩

theorem serves_step (hs : Serves uriMatch calls rs h) (c : Call η)
    (hroom : calls + (if isRegister c then 1 else 0) ≤ dspHttpMaxRoutes) :
    Serves uriMatch (calls + if isRegister c then 1 else 0) (rs ++ asked c)
      (perform uriMatch h c).2 := by
  cases c with
  | register uri method handler =>
    have hlt : calls < dspHttpMaxRoutes := hroom
    match uri, handler with
    | some uri, some handler => exact serves_register hs hlt ⟨uri, method, handler⟩
    | none, handler =>
      show Serves uriMatch (calls + 1) (rs ++ []) _
      rw [List.append_nil]
      exact ⟨hs.packed, Nat.le_succ_of_le hs.room, hs.kept, hs.running⟩
    | some uri, none =>
      show Serves uriMatch (calls + 1) (rs ++ []) _
      rw [List.append_nil]
      exact ⟨hs.packed, Nat.le_succ_of_le hs.room, hs.kept, hs.running⟩
  | start =>
    show Serves uriMatch calls (rs ++ []) _
    rw [List.append_nil]
    exact serves_start hs
  | stop =>
    show Serves uriMatch calls (rs ++ []) _
    rw [List.append_nil]
    exact serves_stop hs

theorem serves_run (hs : Serves uriMatch calls rs h) (cs : List (Call η))
    (hroom : calls + cs.countP isRegister ≤ dspHttpMaxRoutes) :
    Serves uriMatch (calls + cs.countP isRegister) (rs ++ cs.flatMap asked)
      (final (perform uriMatch) h cs) := by
  induction cs generalizing h calls rs with
  | nil =>
    rw [List.flatMap_nil, List.append_nil]
    exact hs
  | cons c cs ih =>
    rw [List.countP_cons] at hroom ⊢
    have hstep := serves_step hs c (by omega)
    have hnext := ih hstep (by omega)
    rw [List.flatMap_cons, ← List.append_assoc, Nat.add_comm (cs.countP _), ← Nat.add_assoc]
    exact hnext

/-- Starts and stops ask for nothing. -/
theorem asked_filter (cs : List (Call η)) :
    (cs.filter isRegister).flatMap asked = cs.flatMap asked := by
  induction cs with
  | nil => rfl
  | cons c cs ih =>
    cases c with
    | register uri method handler =>
      rw [List.filter_cons_of_pos rfl, List.flatMap_cons, List.flatMap_cons, ih]
    | start => exact ih
    | stop => exact ih

theorem running_start (h : HttpModule η) : (dspHttpStart uriMatch .ok h).2.running = true := by
  unfold dspHttpStart
  split_ifs with hrun herr
  · exact hrun
  · exact absurd rfl herr
  · rfl

/-- **Registration time does not matter.** A running server has the routes, in the
same order, that it would have if all registrations so far had been made before a
single start. -/
theorem registration_time (uriMatch : CStr → CStr → Bool) (cs : List (Call η))
    (hmax : cs.countP isRegister ≤ dspHttpMaxRoutes)
    (hrun : (final (perform uriMatch) .boot cs).running = true) :
    ∃ server, (final (perform uriMatch) .boot cs).server = some server ∧
      (final (perform uriMatch) .boot (cs.filter isRegister ++ [.start])).server =
        some server := by
  have hcount : (cs.filter isRegister ++ [Call.start]).countP isRegister = cs.countP isRegister := by
    rw [List.countP_append, List.countP_filter]
    simp only [Bool.and_self]
    rfl
  have hasked : (cs.filter isRegister ++ [Call.start]).flatMap asked = cs.flatMap asked := by
    rw [List.flatMap_append, asked_filter]
    exact List.append_nil _
  have hserved := (serves_run serves_boot cs (by omega)).running hrun
  have hdeferred := @serves_run _ uriMatch _ _ _ serves_boot
    (cs.filter isRegister ++ [.start]) (by omega)
  rw [hasked] at hdeferred
  refine ⟨_, hserved, hdeferred.running ?_⟩
  rw [final_append]
  exact running_start _

/-- A route registered twice, once before the first start and once while the
server runs, and another one in front of the second start. -/
def twoStarts : List (Call Nat) :=
  [.register (some (.ofBytes [47, 97])) .get (some 0), .start,
    .register (some (.ofBytes [47, 97])) .get (some 1), .stop,
    .register (some (.ofBytes [47, 98])) .get (some 2), .start]

theorem registration_time_twoStarts :
    (final (perform fun a b => decide (a = b)) .boot twoStarts).server =
      (final (perform fun a b => decide (a = b)) .boot
        (twoStarts.filter isRegister ++ [.start])).server := by
  obtain ⟨server, hserved, hdeferred⟩ :=
    registration_time (fun a b => decide (a = b)) twoStarts (by decide) (by decide +kernel)
  exact hserved.trans hdeferred.symm

end DspEmbedded.Audit.Registration
