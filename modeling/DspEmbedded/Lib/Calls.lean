/-!
# Programs that make calls

A program makes calls into its environment and goes on by their answers. Whoever runs it
may stop between any two of them, and others may act there, so what a program does with
the things it has been given is a question about every call that it can come to.
-/
namespace DspEmbedded.Lib.Calls

variable {κ ρ α β σ ω : Type}

/-- A program over calls `κ` with answers `ρ`. -/
inductive Prog (κ ρ α : Type) where
  | done (a : α)
  | call (c : κ) (next : ρ → Prog κ ρ α)

namespace Prog

def bind : Prog κ ρ α → (α → Prog κ ρ β) → Prog κ ρ β
  | .done a, f => f a
  | .call c next, f => .call c fun r => (next r).bind f

/-- The call that comes next. -/
def next? : Prog κ ρ α → Option κ
  | .done _ => none
  | .call c _ => some c

/-- Every way through the program ends with the call `c`. -/
def EndsIn (c : κ) : Prog κ ρ α → Prop
  | .done _ => False
  | .call c' next => ∀ r, (c' = c ∧ (next r).next? = none) ∨ EndsIn c (next r)

/-- All calls, answered at once. -/
def run (answer : σ → κ → ρ × σ) : Prog κ ρ α → σ → α × σ
  | .done a, s => (a, s)
  | .call c next, s => (next (answer s c).1).run answer (answer s c).2

@[simp] theorem bind_done (a : α) (f : α → Prog κ ρ β) : (Prog.done a).bind f = f a := rfl

@[simp] theorem bind_call (c : κ) (next : ρ → Prog κ ρ α) (f : α → Prog κ ρ β) :
    (Prog.call c next).bind f = .call c fun r => (next r).bind f := rfl

theorem run_bind (answer : σ → κ → ρ × σ) (p : Prog κ ρ α) (f : α → Prog κ ρ β) (s : σ) :
    (p.bind f).run answer s = (f (p.run answer s).1).run answer (p.run answer s).2 := by
  induction p generalizing s with
  | done a => rfl
  | call c next ih => exact ih _ _

end Prog

/-- What answers the calls. `ω` is what it is free to decide, and a call that is not
allowed has no meaning. -/
structure Env (κ ρ σ ω : Type) where
  answer : σ → κ → ω → ρ × σ
  Allowed : σ → κ → Prop

variable (E : Env κ ρ σ ω)

/-- The next call is made. -/
def Env.advance (p : Prog κ ρ α) (s : σ) (w : ω) : Prog κ ρ α × σ :=
  match p with
  | .done a => (.done a, s)
  | .call c next => (next (E.answer s c w).1, (E.answer s c w).2)

/-- Whatever the answers are, every call is allowed, `I` holds where a call is due, and
`Q` at the end. -/
def Env.Careful (I : σ → Prop) (Q : α → σ → Prop) : Prog κ ρ α → σ → Prop
  | .done a, s => Q a s
  | .call c next, s =>
    I s ∧ E.Allowed s c ∧ ∀ w, Env.Careful I Q (next (E.answer s c w).1) (E.answer s c w).2

variable {E} {I J : σ → Prop} {Q R : α → σ → Prop} {p : Prog κ ρ α} {s : σ}

theorem careful_call {c : κ} {next : ρ → Prog κ ρ α} (hI : I s) (hc : E.Allowed s c)
    (hnext : ∀ w, E.Careful I Q (next (E.answer s c w).1) (E.answer s c w).2) :
    E.Careful I Q (.call c next) s := ⟨hI, hc, hnext⟩

theorem careful_mono (hI : ∀ s, I s → J s) (hQ : ∀ a s, Q a s → R a s)
    (h : E.Careful I Q p s) : E.Careful J R p s := by
  induction p generalizing s with
  | done a => exact hQ a s h
  | call c next ih => exact ⟨hI s h.1, h.2.1, fun w => ih _ (h.2.2 w)⟩

/-- The rest of a program is verified in what the first part can leave. -/
theorem careful_bind {f : α → Prog κ ρ β} {R : β → σ → Prop}
    (h : E.Careful I (fun a s => E.Careful I R (f a) s) p s) : E.Careful I R (p.bind f) s := by
  induction p generalizing s with
  | done a => exact h
  | call c next ih => exact ⟨h.1, h.2.1, fun w => ih _ (h.2.2 w)⟩

theorem careful_then {f : α → Prog κ ρ β} {R : β → σ → Prop} (h : E.Careful I Q p s)
    (hf : ∀ a s, Q a s → E.Careful I R (f a) s) : E.Careful I R (p.bind f) s :=
  careful_bind (careful_mono (fun _ hI => hI) hf h)

theorem careful_next (h : E.Careful I Q p s) {c : κ} (hc : p.next? = some c) :
    E.Allowed s c := by
  cases p with
  | done a => cases hc
  | call c' next =>
    obtain rfl := Option.some.inj hc
    exact h.2.1

theorem careful_advance (h : E.Careful I Q p s) (w : ω) :
    E.Careful I Q (E.advance p s w).1 (E.advance p s w).2 := by
  cases p with
  | done a => exact h
  | call c next => exact h.2.2 w

/-- Where a program can be cut off. -/
theorem careful_cut (h : E.Careful I Q p s) (hQ : ∀ a s, Q a s → I s) : I s := by
  cases p with
  | done a => exact hQ a s h
  | call c next => exact h.1

/-! ## Interference -/

section Steady

variable (E) in
/-- Whatever the answers are, and whatever the others do by `T` between the calls, every
call is allowed and `Q` holds at the end. -/
def Env.Steady (T : σ → σ → Prop) (Q : α → σ → Prop) : Prog κ ρ α → σ → Prop
  | .done a, s => ∀ s', T s s' → Q a s'
  | .call c next, s => ∀ s', T s s' → E.Allowed s' c ∧
      ∀ w, Env.Steady T Q (next (E.answer s' c w).1) (E.answer s' c w).2

/-- What the others cannot change. -/
def Stable (T : σ → σ → Prop) (K : σ → Prop) : Prop := ∀ s s', T s s' → K s → K s'

variable {T : σ → σ → Prop} {K K' : σ → Prop}

theorem stable_and (h : Stable T K) (h' : Stable T K') : Stable T fun s => K s ∧ K' s :=
  fun s s' hs hK => ⟨h s s' hs hK.1, h' s s' hs hK.2⟩

theorem steady_call (hT : Stable T K) {c : κ} {next : ρ → Prog κ ρ α} (hK : K s)
    (hc : ∀ s, K s → E.Allowed s c)
    (hnext : ∀ s, K s → ∀ w, E.Steady T Q (next (E.answer s c w).1) (E.answer s c w).2) :
    E.Steady T Q (.call c next) s := by
  intro s' hs
  have hK' := hT s s' hs hK
  exact ⟨hc s' hK', hnext s' hK'⟩

theorem steady_done (hT : Stable T K) {a : α} (hK : K s) (hQ : ∀ s, K s → Q a s) :
    E.Steady T Q (.done a) s := fun s' hs => hQ s' (hT s s' hs hK)

/-- The rest of a program is verified in what the first part can leave. -/
theorem steady_then (hrefl : ∀ s, T s s) {f : α → Prog κ ρ β} {R : β → σ → Prop}
    (h : E.Steady T Q p s) (hf : ∀ a s, Q a s → E.Steady T R (f a) s) :
    E.Steady T R (p.bind f) s := by
  induction p generalizing s with
  | done a => exact hf a s (h s (hrefl s))
  | call c next ih => exact fun s' hs => ⟨(h s' hs).1, fun w => ih _ ((h s' hs).2 w)⟩

theorem steady_meanwhile (htrans : ∀ s s' s'', T s s' → T s' s'' → T s s'')
    (h : E.Steady T Q p s) {s' : σ} (hs : T s s') : E.Steady T Q p s' := by
  cases p with
  | done a => exact fun s'' hs' => h s'' (htrans _ _ _ hs hs')
  | call c next => exact fun s'' hs' => h s'' (htrans _ _ _ hs hs')

theorem steady_advance (hrefl : ∀ s, T s s) (h : E.Steady T Q p s) (w : ω) :
    E.Steady T Q (E.advance p s w).1 (E.advance p s w).2 := by
  cases p with
  | done a => exact h
  | call c next => exact (h s (hrefl s)).2 w

theorem steady_next (hrefl : ∀ s, T s s) (h : E.Steady T Q p s) {c : κ}
    (hc : p.next? = some c) : E.Allowed s c := by
  cases p with
  | done a => cases hc
  | call c' next =>
    obtain rfl := Option.some.inj hc
    exact (h s (hrefl s)).1

theorem steady_ended (hrefl : ∀ s, T s s) (h : E.Steady T Q p s) (hp : p.next? = none) :
    ∃ a, p = .done a ∧ Q a s := by
  cases p with
  | done a => exact ⟨a, rfl, h s (hrefl s)⟩
  | call c next => cases hp

end Steady

end DspEmbedded.Lib.Calls
