import DspEmbedded.Audit.Exchange

/-!
# Processes do not interfere

A page alone is a small machine. While the tables have room, a device serves every
process as that machine does, whatever is asked about other processes in between. The
slots are all that processes share.
-/
namespace DspEmbedded.Audit.Isolation

open Lib.CString Lib.Runs Model Model.Esp Model.Neg Model.Board Audit.Exchange

variable {negMax xferMax : Nat}

/-- The endpoint, for a request about `p`. -/
def asks (p : CStr) : Action → Option Endpoint
  | .request endpoint req =>
    match demand endpoint req with
    | .ok q => if q = p then some endpoint else none
    | .error _ => none
  | .sleep => none

/-- The answer is no refusal for want of a slot. -/
def HasRoom (e : Action × Option Response) : Prop :=
  e.2.map Response.status ≠ some .internalServerError

instance (e : Action × Option Response) : Decidable (HasRoom e) :=
  inferInstanceAs (Decidable (_ ≠ _))

/-- The requests about `p` with the answers that they get. -/
def about (p : CStr) (h : List (Action × Option Response)) :
    List (Endpoint × Option Response) :=
  h.filterMap fun e => (asks p e.1).map fun endpoint => (endpoint, e.2)

section Page

variable {x : Books} {endpoint : Endpoint} {req : HttpdReq} {p q : CStr}

/-- A request about another process leaves the page alone. -/
theorem page_answer_ne (h : q ≠ p) :
    (x.answer negMax xferMax endpoint q).2.page p = x.page p := by
  unfold Books.answer
  cases x.full negMax xferMax endpoint q with
  | some text => rfl
  | none => exact Function.update_of_ne (Ne.symm h) _ _

/-- A request about the process is answered from its page, if there is room. -/
theorem answer_eq_step
    (hroom : (x.answer negMax xferMax endpoint p).1.status ≠ .internalServerError) :
    (x.answer negMax xferMax endpoint p).1 = ((x.page p).step p endpoint).1 ∧
      (x.answer negMax xferMax endpoint p).2.page p = ((x.page p).step p endpoint).2 := by
  unfold Books.answer at hroom ⊢
  cases hfull : x.full negMax xferMax endpoint p with
  | some text =>
    rw [hfull] at hroom
    exact absurd rfl hroom
  | none => exact ⟨rfl, Function.update_self _ _ _⟩

/-- What does not ask about the process does not touch its page. -/
theorem page_step_of_asks_none {a : Action} (h : asks p a = none) :
    (x.step negMax xferMax a).2.page p = x.page p := by
  cases a with
  | sleep => rfl
  | request endpoint req =>
    simp only [asks] at h
    simp only [Books.step, Books.serve]
    cases hd : demand endpoint req with
    | error text => rfl
    | ok q =>
      rw [hd] at h
      simp only at h
      split_ifs at h with hq
      exact page_answer_ne hq

theorem step_of_asks {a : Action} (h : asks p a = some endpoint)
    (hroom : HasRoom (a, (x.step negMax xferMax a).1)) :
    (x.step negMax xferMax a).1 = some ((x.page p).step p endpoint).1 ∧
      (x.step negMax xferMax a).2.page p = ((x.page p).step p endpoint).2 := by
  cases a with
  | sleep => cases h
  | request endpoint' req =>
    simp only [asks] at h
    simp only [Books.step, Books.serve, HasRoom] at hroom ⊢
    cases hd : demand endpoint' req with
    | error text => simp [hd] at h
    | ok q =>
      simp only [hd] at h hroom ⊢
      split_ifs at h with hq
      obtain rfl := hq
      obtain rfl := Option.some.inj h
      obtain ⟨hanswer, hpage⟩ := answer_eq_step fun hs => hroom (congrArg some hs)
      exact ⟨congrArg some hanswer, hpage⟩

end Page

/-- In every run of the books, a process that finds room is served from its own page. -/
theorem books_serve_alone (p : CStr) (as : List Action) {x : Books}
    (hroom : ∀ e ∈ trace (Books.step negMax xferMax) x as, HasRoom e) :
    about p (trace (Books.step negMax xferMax) x as) =
        (trace (Cell.step p) (x.page p) (as.filterMap (asks p))).map
          (fun e => (e.1, some e.2)) ∧
      (final (Books.step negMax xferMax) x as).page p =
        final (Cell.step p) (x.page p) (as.filterMap (asks p)) := by
  have hdrop : ∀ (x : Books) (c : Cell) (a : Action), asks p a = none →
      HasRoom (a, (x.step negMax xferMax a).1) → x.page p = c →
      (x.step negMax xferMax a).2.page p = c := by
    intro x c a ha _ hc
    rw [page_step_of_asks_none ha, hc]
  have hkeep : ∀ (x : Books) (c : Cell) (a : Action) (endpoint : Endpoint),
      asks p a = some endpoint → HasRoom (a, (x.step negMax xferMax a).1) → x.page p = c →
      (x.step negMax xferMax a).1 = some (c.step p endpoint).1 ∧
        (x.step negMax xferMax a).2.page p = (c.step p endpoint).2 := by
    rintro x c a endpoint ha hr rfl
    exact step_of_asks ha hr
  exact trace_filterMap (R := fun x c => x.page p = c) (asks p) some hdrop hkeep as hroom rfl

/-- While no request is refused for want of a slot, every process is served as if it
were alone on the device: what is asked about others, how it is interleaved and when
the device sleeps changes neither its answers nor what is known of it. -/
theorem process_served_alone (store : RtcState.RtcStore negMax xferMax) (notify : Bool)
    (p : CStr) (as : List Action)
    (hroom : ∀ e ∈ trace step (boot store notify) as, HasRoom e) :
    about p (trace step (boot store notify) as) =
        (trace (Cell.step p) .empty (as.filterMap (asks p))).map (fun e => (e.1, some e.2)) ∧
      pageOf (final step (boot store notify) as) p =
        final (Cell.step p) .empty (as.filterMap (asks p)) := by
  obtain ⟨htrace, hfinal⟩ := run_agree (boot_represents store notify) as
  rw [htrace] at hroom ⊢
  obtain ⟨habout, hpage⟩ := books_serve_alone p as hroom
  exact ⟨habout, (hfinal.page p).trans hpage⟩

/-- `p` is offered and agreed to, with a sleep cycle and a question about `q` in between. -/
def offerThenAgree : List Action :=
  [.request .offers offerRequest, .request .agree (request "/negotiations/q/agree" []), .sleep,
    .request .agree agreeRequest]

theorem offerThenAgree_served :
    (about (CStr.lit "p")
        (trace step (boot (RtcState.RtcStore.zero 4 2) false) offerThenAgree)).map
      (fun e => (e.1, e.2.map Response.status)) =
        [(.offers, some .created), (.agree, some .ok)] := by
  have hroom : ∀ e ∈ trace step (boot (RtcState.RtcStore.zero 4 2) false) offerThenAgree,
      HasRoom e := by
    rw [(run_agree (boot_represents (RtcState.RtcStore.zero 4 2) false) offerThenAgree).1]
    decide +kernel
  rw [(process_served_alone _ _ (CStr.lit "p") _ hroom).1]
  decide +kernel

end DspEmbedded.Audit.Isolation
