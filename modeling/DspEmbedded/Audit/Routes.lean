import DspEmbedded.Model.Protocol
import Mathlib.Data.List.Find

/-!
# Which builds dispatch every documented request

The routes of all modules go into one list that the server searches in order of
registration. The only route that an earlier one shadows is the termination
endpoint, registered behind the wildcard of its own module; its refusal also ends
`dsp_neg_register_handlers` before GET is registered.
-/
namespace DspEmbedded.Audit.Routes

open Lib.CString Model Model.Esp Model.PathId Model.Http Model.RtcState Model.Protocol

variable {negMax xferMax : Nat} {uriMatch : CStr → CStr → Bool} {cfg : Config}

/-! ## The matcher of the server -/

def star : UInt8 := 42

def questionMark : UInt8 := 63

/-- `httpd_uri_match_wildcard` on templates without the optional character `?`: a
trailing `*` matches any suffix, any other template itself only. -/
structure WildcardMatch (uriMatch : CStr → CStr → Bool) : Prop where
  exact : ∀ {template uri : CStr}, template.bytes.getLast? ≠ some star →
    template.bytes.getLast? ≠ some questionMark → (uriMatch template uri = true ↔ template = uri)
  wildcard : ∀ {stem uri : CStr}, stem.bytes.getLast? ≠ some questionMark →
    (uriMatch (stem ++ CStr.lit "*") uri = true ↔ stem.bytes <+: uri.bytes)

/-- Such a matcher. -/
def wildcardMatch (template uri : CStr) : Bool :=
  if template.bytes.getLast? = some star then template.bytes.dropLast.isPrefixOf uri.bytes
  else decide (template = uri)

/-- Templates that do not use `?`. -/
def Plain (template : CStr) : Prop :=
  template.bytes.getLast? ≠ some questionMark ∧
    template.bytes.dropLast.getLast? ≠ some questionMark

instance (template : CStr) : Decidable (Plain template) := by
  unfold Plain
  infer_instance

theorem wildcardMatch_wildcard : WildcardMatch wildcardMatch where
  exact := by
    intro template uri hstar _
    rw [wildcardMatch, if_neg hstar, decide_eq_true_iff]
  wildcard := by
    intro stem uri _
    have hbytes : (stem ++ CStr.lit "*").bytes = stem.bytes ++ [star] := rfl
    rw [wildcardMatch, hbytes, if_pos List.getLast?_concat, List.dropLast_concat,
      List.isPrefixOf_iff_prefix]

/-- On plain templates there is no other matcher. -/
theorem WildcardMatch.eq (hm : WildcardMatch uriMatch) {template : CStr} (hp : Plain template)
    (uri : CStr) : uriMatch template uri = wildcardMatch template uri := by
  rw [Bool.eq_iff_iff]
  by_cases hstar : template.bytes.getLast? = some star
  · have hbytes : (template.take (template.length - 1)).bytes = template.bytes.dropLast := by
      rw [CStr.bytes_take, List.dropLast_eq_take]
      rfl
    have hstem : template = template.take (template.length - 1) ++ CStr.lit "*" := by
      apply CStr.ext_bytes
      obtain ⟨l, hl⟩ := List.getLast?_eq_some_iff.mp hstar
      have happend : (template.take (template.length - 1) ++ CStr.lit "*").bytes =
          (template.take (template.length - 1)).bytes ++ [star] := rfl
      rw [happend, hbytes, hl, List.dropLast_concat]
    have hquestion : (template.take (template.length - 1)).bytes.getLast? ≠ some questionMark := by
      rw [hbytes]
      exact hp.2
    rw [hstem, hm.wildcard hquestion, wildcardMatch_wildcard.wildcard hquestion]
  · rw [hm.exact hstar hp.1, wildcardMatch_wildcard.exact hstar hp.1]

/-! ## Documented requests -/

def handlerMethod : Handler → HttpMethod
  | .catalogGet | .negGet | .xferGet => .get
  | _ => .post

/-- The path of the request that a handler is documented for. -/
def handlerPath (id : CStr) : Handler → CStr
  | .catalogGet => CStr.lit "/catalog"
  | .catalogRequestPost => CStr.lit "/catalog/request"
  | .offersPost => CStr.lit "/negotiations/offers"
  | .agreePost => resourcePath negPrefix id (CStr.lit "/agree")
  | .terminatePost => CStr.lit "/negotiations/terminate"
  | .negGet => resourcePath negPrefix id CStr.empty
  | .xferStartPost => CStr.lit "/transfers/start"
  | .xferCompletePost => resourcePath xferPrefix id (CStr.lit "/complete")
  | .xferGet => resourcePath xferPrefix id CStr.empty

/-- The endpoints that a build has. -/
def documented (cfg : Config) : Handler → Bool
  | .catalogRequestPost => cfg.enableCatalogRequest
  | .terminatePost => cfg.enableNegotiateTerminate
  | _ => true

/-- A path segment that can be an id. -/
def IsSegment (id : CStr) : Prop := id.bytes ≠ [] ∧ slash ∉ id.bytes

/-- Every registration has succeeded and every documented request reaches the
handler it is documented for. -/
def AllDispatched (uriMatch : CStr → CStr → Bool) (cfg : Config) (h : HttpModule Handler) : Prop :=
  (∀ err ∈ h.results, err = .ok) ∧
    ∀ handler, documented cfg handler = true → ∀ id, IsSegment id →
      dispatch uriMatch h (handlerMethod handler) (handlerPath id handler) = some handler

/-! ## The routes of a build -/

theorem plain_routes : ∀ r ∈ routesOf cfg, Plain r.uri ∧ r.uri.length < 64 := by
  rcases cfg with ⟨c, t⟩
  cases c <;> cases t <;> decide +kernel

theorem unshadowed_congr (hm : WildcardMatch uriMatch) {rs : List (Route Handler)}
    (hp : ∀ r ∈ rs, Plain r.uri) : Unshadowed uriMatch rs ↔ Unshadowed wildcardMatch rs := by
  apply List.Pairwise.iff_of_mem
  intro s r hs hr
  rw [Shadows, Shadows, hm.eq (hp s hs)]

/-- A build has no shadowed route exactly when it has no termination endpoint. -/
theorem unshadowed_iff (hm : WildcardMatch uriMatch) :
    Unshadowed uriMatch (routesOf cfg) ↔ cfg.enableNegotiateTerminate = false := by
  rw [unshadowed_congr hm fun r hr => (plain_routes r hr).1]
  rcases cfg with ⟨c, t⟩
  cases c <;> cases t <;> decide +kernel

/-- The routes in front of the termination endpoint. -/
def earlyRoutes (cfg : Config) : List (Route Handler) :=
  catalogRoutes cfg ++ [offersRoute, agreeRoute]

theorem early_routes : earlyRoutes cfg <+: routesOf cfg := by
  rcases cfg with ⟨c, t⟩
  cases c <;> cases t <;> decide +kernel

theorem unshadowed_early (hm : WildcardMatch uriMatch) : Unshadowed uriMatch (earlyRoutes cfg) := by
  rw [unshadowed_congr hm fun r hr => (plain_routes r (early_routes.subset hr)).1]
  rcases cfg with ⟨c, t⟩
  cases c <;> cases t <;> decide +kernel

/-! ## Registration -/

def AllOk (h : HttpModule Handler) : Prop := ∀ err ∈ h.results, err = .ok

/-- One registration function after those that have run. -/
theorem register_stage (rs : List (Route Handler)) {h : HttpModule Handler}
    {server : List (Route Handler)} (hs : Serving h server) (hok : AllOk h)
    (hsub : server ++ rs <+: routesOf cfg) (hu : Unshadowed uriMatch (server ++ rs)) :
    Serving (registerInOrder uriMatch h rs).2 (server ++ rs) ∧
      AllOk (registerInOrder uriMatch h rs).2 := by
  have hlen : (routesOf cfg).length ≤ dspHttpMaxRoutes := by
    rcases cfg with ⟨c, t⟩
    cases c <;> cases t <;> decide
  have hplain : ∀ r ∈ rs, r.uri.length < 64 := fun r hr =>
    (plain_routes r (hsub.subset (List.mem_append_right _ hr))).2
  obtain ⟨h', heq, hs', hres⟩ := registerInOrder_fresh hs hplain
    (by rw [← List.length_append]; exact hsub.length_le.trans hlen) hu
  rw [heq]
  refine ⟨hs', ?_⟩
  intro err herr
  rw [hres] at herr
  rcases List.mem_append.mp herr with h | h
  · exact hok err h
  · exact List.eq_of_mem_replicate h

/-- The catalog routes are registered in every build. -/
theorem registerCatalog_stage (cfg : Config) (hm : WildcardMatch uriMatch) :
    Serving (registerCatalog uriMatch cfg (dspHttpStart uriMatch .ok .boot).2)
        (catalogRoutes cfg) ∧
      AllOk (registerCatalog uriMatch cfg (dspHttpStart uriMatch .ok .boot).2) := by
  have hsub : catalogRoutes cfg <+: earlyRoutes cfg := List.prefix_append _ _
  have hu : Unshadowed uriMatch (catalogRoutes cfg) := (unshadowed_early hm).sublist hsub.sublist
  have hpre := hsub.trans early_routes
  have hnone : AllOk (dspHttpStart uriMatch .ok .boot).2 := fun err herr => by cases herr
  cases hcat : cfg.enableCatalogRequest with
  | false =>
    simp only [registerCatalog, catalogRoutes, hcat, Bool.false_eq_true, if_false,
      List.append_nil] at hu hpre ⊢
    exact register_stage _ serving_start hnone hpre hu
  | true =>
    simp only [registerCatalog, catalogRoutes, hcat, if_true] at hu hpre ⊢
    have hone : [catalogRoute] <+: [catalogRoute] ++ [catalogRequestRoute] :=
      List.prefix_append _ _
    obtain ⟨hs₁, hok₁⟩ := register_stage [catalogRoute] serving_start hnone
      (hone.trans hpre) (hu.sublist hone.sublist)
    exact register_stage _ hs₁ hok₁ hpre hu

/-- Without the termination endpoint every registration succeeds. -/
theorem registered_all (hm : WildcardMatch uriMatch) (ht : cfg.enableNegotiateTerminate = false)
    {platform : Platform} (hp : platform.Works) (store : RtcStore negMax xferMax) :
    Serving (protocolInit uriMatch cfg platform (Node.boot store)).2.http (routesOf cfg) ∧
      AllOk (protocolInit uriMatch cfg platform (Node.boot store)).2.http := by
  have hu : Unshadowed uriMatch (routesOf cfg) := (unshadowed_iff hm).mpr ht
  have hneg : catalogRoutes cfg ++ negRoutes cfg <+: routesOf cfg := List.prefix_append _ _
  obtain ⟨hs₁, hok₁⟩ := registerCatalog_stage cfg hm
  obtain ⟨hs₂, hok₂⟩ := register_stage _ hs₁ hok₁ hneg (hu.sublist hneg.sublist)
  rw [protocolInit_http uriMatch cfg hp store]
  exact register_stage _ hs₂ hok₂ (List.prefix_refl _) hu

/-- With it, one registration fails. -/
theorem registered_fails (hm : WildcardMatch uriMatch) (ht : cfg.enableNegotiateTerminate = true)
    {platform : Platform} (hp : platform.Works) (store : RtcStore negMax xferMax) :
    .httpdHandlerExists ∈
      (protocolInit uriMatch cfg platform (Node.boot store)).2.http.results := by
  obtain ⟨hs₁, -⟩ := registerCatalog_stage cfg hm
  have hroutes : negRoutes cfg = [offersRoute, agreeRoute] ++ terminateRoute :: [negGetRoute] := by
    rw [negRoutes, if_pos ht]
    rfl
  have hroom : (catalogRoutes cfg).length + 2 < dspHttpMaxRoutes := by
    rcases cfg with ⟨c, t⟩
    cases c <;> cases t <;> decide
  have hshadow : ∃ s ∈ catalogRoutes cfg ++ [offersRoute, agreeRoute],
      Shadows uriMatch s terminateRoute := by
    refine ⟨agreeRoute, List.mem_append_right _ (by simp), rfl, ?_⟩
    rw [hm.eq (by decide +kernel)]
    decide +kernel
  have hfailed := registerInOrder_shadowed [offersRoute, agreeRoute] [negGetRoute] hs₁
    (by decide +kernel) hroom (unshadowed_early hm) hshadow
  rw [protocolInit_http uriMatch cfg hp store, hroutes]
  exact (results_registerInOrder xferRoutes).subset hfailed

/-! ## Dispatch -/

/-- Whether a template can match a path of this prefix and suffix for some id. -/
def mayMatch (template pathPrefix suffix : CStr) : Bool :=
  if template.bytes.getLast? = some star then
    template.bytes.dropLast.isPrefixOf pathPrefix.bytes ||
      pathPrefix.bytes.isPrefixOf template.bytes.dropLast
  else pathPrefix.bytes.isPrefixOf template.bytes && suffix.bytes.isSuffixOf template.bytes

theorem mayMatch_of_match {template pathPrefix id suffix : CStr}
    (h : wildcardMatch template (resourcePath pathPrefix id suffix) = true) :
    mayMatch template pathPrefix suffix = true := by
  have hpre : pathPrefix.bytes <+: (resourcePath pathPrefix id suffix).bytes :=
    List.prefix_append _ _
  have hsuf : suffix.bytes <:+ (resourcePath pathPrefix id suffix).bytes :=
    (List.suffix_append _ _).trans (List.suffix_append _ _)
  unfold wildcardMatch at h
  unfold mayMatch
  split_ifs at h ⊢ with hstar
  · rw [List.isPrefixOf_iff_prefix] at h
    rw [Bool.or_eq_true, List.isPrefixOf_iff_prefix, List.isPrefixOf_iff_prefix]
    exact List.prefix_or_prefix_of_prefix h hpre
  · rw [decide_eq_true_iff] at h
    rw [h, Bool.and_eq_true, List.isPrefixOf_iff_prefix, List.isSuffixOf_iff_suffix]
    exact ⟨hpre, hsuf⟩

/-- The first element that passes a weaker test is the first that passes the
stronger one, if it does. -/
theorem find?_of_imp {α : Type*} {p q : α → Bool} {l : List α} {a : α}
    (himp : ∀ b ∈ l, p b = true → q b = true) (hq : l.find? q = some a) (hp : p a = true) :
    l.find? p = some a := by
  obtain ⟨-, as, bs, rfl, hbefore⟩ := List.find?_eq_some_iff_append.mp hq
  refine List.find?_eq_some_iff_append.mpr ⟨hp, as, bs, rfl, ?_⟩
  intro b hb
  have hnot := hbefore b hb
  rw [Bool.not_eq_true'] at hnot ⊢
  by_contra hpb
  rw [himp b (List.mem_append_left _ hb) (by simpa using hpb)] at hnot
  cases hnot

/-- The route of a path with an id in it, found without looking at the id. -/
theorem find_resource (hm : WildcardMatch uriMatch) (cfg : Config) (method : HttpMethod)
    (pathPrefix suffix : CStr) (r : Route Handler) (id : CStr)
    (hfind : (routesOf cfg).find? (fun s => decide (s.method = method) &&
      mayMatch s.uri pathPrefix suffix) = some r)
    (hstem : r.uri = pathPrefix ++ CStr.lit "*")
    (hlast : pathPrefix.bytes.getLast? ≠ some questionMark) :
    httpdFindUriHandler uriMatch (routesOf cfg) (resourcePath pathPrefix id suffix) method =
      some r := by
  have hr := List.find?_some hfind
  rw [Bool.and_eq_true] at hr
  apply find?_of_imp ?_ hfind
  · rw [Bool.and_eq_true, hstem, hm.wildcard hlast]
    exact ⟨hr.1, List.prefix_append _ _⟩
  · intro s hs hmatch
    rw [hm.eq (plain_routes s hs).1, Bool.and_eq_true] at hmatch
    rw [Bool.and_eq_true]
    exact ⟨hmatch.1, mayMatch_of_match hmatch.2⟩

/-- The route of a path without an id. -/
theorem find_fixed (hm : WildcardMatch uriMatch) (method : HttpMethod) (path : CStr) :
    httpdFindUriHandler uriMatch (routesOf cfg) path method =
      httpdFindUriHandler wildcardMatch (routesOf cfg) path method := by
  apply List.find?_congr
  intro s hs
  rw [hm.eq (plain_routes s hs).1]

/-- Without the termination endpoint every request reaches its handler. -/
theorem dispatched (hm : WildcardMatch uriMatch) (ht : cfg.enableNegotiateTerminate = false)
    {handler : Handler} (hdoc : documented cfg handler = true) (id : CStr) :
    (httpdFindUriHandler uriMatch (routesOf cfg) (handlerPath id handler)
      (handlerMethod handler)).map (·.handler) = some handler := by
  rcases cfg with ⟨c, t⟩
  simp only at ht
  subst ht
  cases handler with
  | agreePost =>
    have hfind := find_resource hm ⟨c, false⟩ .post negPrefix (CStr.lit "/agree") agreeRoute id
      (by cases c <;> decide +kernel) (by decide +kernel) (by decide +kernel)
    exact congrArg (Option.map (·.handler)) hfind
  | negGet =>
    have hfind := find_resource hm ⟨c, false⟩ .get negPrefix CStr.empty negGetRoute id
      (by cases c <;> decide +kernel) (by decide +kernel) (by decide +kernel)
    exact congrArg (Option.map (·.handler)) hfind
  | xferCompletePost =>
    have hfind := find_resource hm ⟨c, false⟩ .post xferPrefix (CStr.lit "/complete")
      xferCompleteRoute id (by cases c <;> decide +kernel) (by decide +kernel) (by decide +kernel)
    exact congrArg (Option.map (·.handler)) hfind
  | xferGet =>
    have hfind := find_resource hm ⟨c, false⟩ .get xferPrefix CStr.empty xferGetRoute id
      (by cases c <;> decide +kernel) (by decide +kernel) (by decide +kernel)
    exact congrArg (Option.map (·.handler)) hfind
  | terminatePost => cases hdoc
  | catalogRequestPost =>
    obtain rfl : c = true := hdoc
    rw [find_fixed hm, handlerPath]
    decide +kernel
  | _ =>
    rw [find_fixed hm, handlerPath]
    cases c <;> decide +kernel

/-- **Builds without shadowed routes.** After `protocol_init` on a fresh device
every registration has succeeded and every documented request is dispatched to
its handler exactly when the termination endpoint is not compiled in. -/
theorem allDispatched_iff (hm : WildcardMatch uriMatch) {platform : Platform}
    (hp : platform.Works) (store : RtcStore negMax xferMax) :
    AllDispatched uriMatch cfg (protocolInit uriMatch cfg platform (Node.boot store)).2.http ↔
      cfg.enableNegotiateTerminate = false := by
  constructor
  · intro hboth
    obtain ⟨hok, -⟩ := hboth
    cases ht : cfg.enableNegotiateTerminate with
    | false => rfl
    | true => cases hok _ (registered_fails hm ht hp store)
  · intro ht
    obtain ⟨hs, hok⟩ := registered_all hm ht hp store
    refine ⟨hok, ?_⟩
    intro handler hdoc id _
    simp only [dispatch, hs.started]
    exact dispatched hm ht hdoc id

/-- A board on which everything below the protocol works. -/
def workingPlatform : Platform := ⟨.ok, true, .ok⟩

/-- The default build, with the matcher of the server. -/
theorem allDispatched_default : AllDispatched wildcardMatch ⟨false, false⟩
    (protocolInit wildcardMatch ⟨false, false⟩ workingPlatform
      (Node.boot (RtcStore.zero 4 2))).2.http :=
  (allDispatched_iff wildcardMatch_wildcard ⟨rfl, rfl, rfl⟩ _).mpr rfl

/-- With the termination endpoint compiled in, its registration fails and GET
`/negotiations/p` reaches no handler. -/
theorem terminate_shadowed_counterexample :
    dispatch wildcardMatch (protocolInit wildcardMatch ⟨false, true⟩ workingPlatform
        (Node.boot (RtcStore.zero 4 2))).2.http .get (CStr.lit "/negotiations/p") = none ∧
      ¬ AllDispatched wildcardMatch ⟨false, true⟩
        (protocolInit wildcardMatch ⟨false, true⟩ workingPlatform
          (Node.boot (RtcStore.zero 4 2))).2.http := by
  constructor
  · decide +kernel
  · intro hboth
    obtain ⟨hok, -⟩ := hboth
    exact absurd (hok .httpdHandlerExists (by decide +kernel)) (by decide)

end DspEmbedded.Audit.Routes
