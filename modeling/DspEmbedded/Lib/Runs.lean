import Mathlib.Data.List.DropRight

/-!
# Runs of a deterministic reactive system

A system answers every action with an output and a next state. `final` is the
state after a list of actions and `trace` the actions paired with their answers.
The rules below package the inductions: an invariant of one step is an invariant
of every run, also when it speaks about the answers given so far.
-/
namespace DspEmbedded.Lib.Runs

variable {σ α β : Type*}

def final (step : σ → α → β × σ) : σ → List α → σ
  | s, [] => s
  | s, a :: as => final step (step s a).2 as

def trace (step : σ → α → β × σ) : σ → List α → List (α × β)
  | _, [] => []
  | s, a :: as => (a, (step s a).1) :: trace step (step s a).2 as

variable {step : σ → α → β × σ}

@[simp] theorem final_nil (s : σ) : final step s [] = s := rfl

@[simp] theorem final_cons (s : σ) (a : α) (as : List α) :
    final step s (a :: as) = final step (step s a).2 as := rfl

@[simp] theorem trace_nil (s : σ) : trace step s [] = [] := rfl

@[simp] theorem trace_cons (s : σ) (a : α) (as : List α) :
    trace step s (a :: as) = (a, (step s a).1) :: trace step (step s a).2 as := rfl

theorem final_append (s : σ) (as bs : List α) :
    final step s (as ++ bs) = final step (final step s as) bs := by
  induction as generalizing s with
  | nil => rfl
  | cons a as ih => exact ih (step s a).2

theorem trace_append (s : σ) (as bs : List α) :
    trace step s (as ++ bs) = trace step s as ++ trace step (final step s as) bs := by
  induction as generalizing s with
  | nil => rfl
  | cons a as ih => rw [List.cons_append, trace_cons, trace_cons, final_cons, ih, List.cons_append]

/-- What one step preserves, every run preserves. -/
theorem final_invariant {P : σ → Prop} (hstep : ∀ s a, P s → P (step s a).2) :
    ∀ {s : σ} (as : List α), P s → P (final step s as) := by
  intro s as hs
  induction as generalizing s with
  | nil => exact hs
  | cons a as ih => exact ih (hstep s a hs)

/-- The same where only the actions of the run need to preserve it. -/
theorem final_invariant_of {P : σ → Prop} {Q : α → Prop}
    (hstep : ∀ s a, Q a → P s → P (step s a).2) :
    ∀ {s : σ} (as : List α), (∀ a ∈ as, Q a) → P s → P (final step s as) := by
  intro s as hQ hs
  induction as generalizing s with
  | nil => exact hs
  | cons a as ih =>
    rw [List.forall_mem_cons] at hQ
    exact ih hQ.2 (hstep s a hQ.1 hs)

/-- A reflexive and transitive relation that holds across every step from an
invariant state holds across every run. -/
theorem final_relates {I : σ → Prop} {R : σ → σ → Prop} (hI : ∀ s a, I s → I (step s a).2)
    (hrefl : ∀ s, R s s) (htrans : ∀ s t u, R s t → R t u → R s u)
    (hstep : ∀ s a, I s → R s (step s a).2) :
    ∀ {s : σ} (as : List α), I s → R s (final step s as) := by
  intro s as hi
  induction as generalizing s with
  | nil => exact hrefl s
  | cons a as ih => exact htrans _ _ _ (hstep s a hi) (ih (hI s a hi))

/-- The same for an invariant that relates the state to the answers so far. -/
theorem trace_invariant {P : List (α × β) → σ → Prop}
    (hstep : ∀ h s a, P h s → P (h ++ [(a, (step s a).1)]) (step s a).2) :
    ∀ {s : σ} (as : List α), P [] s → P (trace step s as) (final step s as) := by
  have key : ∀ (as : List α) (h : List (α × β)) (s : σ), P h s →
      P (h ++ trace step s as) (final step s as) := by
    intro as
    induction as with
    | nil => intro h s hP; simpa using hP
    | cons a as ih =>
      intro h s hP
      have hnext := ih _ _ (hstep h s a hP)
      rwa [List.append_assoc, List.singleton_append] at hnext
  intro s as hs
  simpa using key as [] s hs

/-- What holds of every action and its answer holds of all entries of a trace. -/
theorem trace_forall {Q : α × β → Prop} (hstep : ∀ s a, Q (a, (step s a).1)) :
    ∀ (as : List α) (s : σ), ∀ e ∈ trace step s as, Q e := by
  intro as
  induction as with
  | nil => simp
  | cons a as ih =>
    intro s e he
    rcases List.mem_cons.mp he with rfl | hrest
    · exact hstep s a
    · exact ih _ e hrest

/-- Two systems that answer every action alike from related states, and stay
related, answer every run alike. -/
theorem trace_simulates {τ : Type*} {step' : τ → α → β × τ} {R : σ → τ → Prop}
    (hstep : ∀ s t a, R s t → (step s a).1 = (step' t a).1 ∧ R (step s a).2 (step' t a).2) :
    ∀ {s : σ} {t : τ} (as : List α), R s t →
      trace step s as = trace step' t as ∧ R (final step s as) (final step' t as) := by
  intro s t as hR
  induction as generalizing s t with
  | nil => exact ⟨rfl, hR⟩
  | cons a as ih =>
    obtain ⟨hout, hnext⟩ := hstep s t a hR
    obtain ⟨htrace, hfinal⟩ := ih hnext
    exact ⟨by rw [trace_cons, trace_cons, hout, htrace], hfinal⟩

/-- `P` holds in every state that the run passes through, the first included. -/
def Always (step : σ → α → β × σ) (P : σ → Prop) : σ → List α → Prop
  | s, [] => P s
  | s, a :: as => P s ∧ Always step P (step s a).2 as

/-- `Q` holds of every state and the action taken in it. -/
def Along (step : σ → α → β × σ) (Q : σ → α → Prop) : σ → List α → Prop
  | _, [] => True
  | s, a :: as => Q s a ∧ Along step Q (step s a).2 as

instance Along.decidable {Q : σ → α → Prop} [∀ s a, Decidable (Q s a)] :
    ∀ (s : σ) (as : List α), Decidable (Along step Q s as)
  | _, [] => isTrue trivial
  | s, a :: as =>
    have : Decidable (Along step Q (step s a).2 as) := Along.decidable (step s a).2 as
    instDecidableAnd

theorem along_of_forall {Q : σ → α → Prop} (h : ∀ s a, Q s a) (s : σ) (as : List α) :
    Along step Q s as := by
  induction as generalizing s with
  | nil => trivial
  | cons a as ih => exact ⟨h s a, ih _⟩

theorem Along.append {Q : σ → α → Prop} {s : σ} {as bs : List α}
    (h : Along step Q s (as ++ bs)) : Along step Q (final step s as) bs := by
  induction as generalizing s with
  | nil => exact h
  | cons a as ih => exact ih h.2

theorem Always.head {P : σ → Prop} {s : σ} {as : List α} (h : Always step P s as) : P s := by
  cases as with
  | nil => exact h
  | cons a as => exact h.1

/-- Where one step keeps `P` exactly when `Q` holds of it, a whole run keeps `P`
exactly when `Q` holds of all its steps. -/
theorem always_iff_along {I P : σ → Prop} {Q : σ → α → Prop}
    (hI : ∀ s a, I s → I (step s a).2)
    (hstep : ∀ s a, I s → P s → (P (step s a).2 ↔ Q s a)) :
    ∀ {s : σ} (as : List α), I s → P s → (Always step P s as ↔ Along step Q s as) := by
  intro s as hi hp
  induction as generalizing s with
  | nil => exact ⟨fun _ => trivial, fun _ => hp⟩
  | cons a as ih =>
    constructor
    · intro h
      have hq := (hstep s a hi hp).mp h.2.head
      exact ⟨hq, (ih (hI s a hi) h.2.head).mp h.2⟩
    · intro h
      have hp' := (hstep s a hi hp).mpr h.1
      exact ⟨hp, (ih (hI s a hi) hp').mpr h.2⟩

theorem along_append {Q : σ → α → Prop} {s : σ} (as bs : List α) :
    Along step Q s (as ++ bs) ↔ Along step Q s as ∧ Along step Q (final step s as) bs := by
  induction as generalizing s with
  | nil => exact ⟨fun h => ⟨trivial, h⟩, fun h => h.2⟩
  | cons a as ih =>
    show Q s a ∧ Along step Q (step s a).2 (as ++ bs) ↔ _
    rw [ih, ← and_assoc]
    rfl

/-- An invariant of the steps that meet a condition, along runs that meet it. -/
theorem trace_invariant_along {Q : σ → α → Prop} {P : List (α × β) → σ → Prop}
    (hstep : ∀ h s a, Q s a → P h s → P (h ++ [(a, (step s a).1)]) (step s a).2) :
    ∀ {s : σ} (as : List α), Along step Q s as → P [] s →
      P (trace step s as) (final step s as) := by
  have key : ∀ (as : List α) (h : List (α × β)) (s : σ), Along step Q s as → P h s →
      P (h ++ trace step s as) (final step s as) := by
    intro as
    induction as with
    | nil => intro h s _ hP; simpa using hP
    | cons a as ih =>
      intro h s hQ hP
      have hnext := ih _ _ hQ.2 (hstep h s a hQ.1 hP)
      rwa [List.append_assoc, List.singleton_append] at hnext
  intro s as hQ hs
  simpa using key as [] s hQ hs

/-- Conditions that agree on every step from an invariant state hold along the
same runs. Both may rely on a third condition that the run meets. -/
theorem along_congr {I : σ → Prop} {H Q Q' : σ → α → Prop}
    (hI : ∀ s a, I s → H s a → I (step s a).2) (hQ : ∀ s a, I s → H s a → (Q s a ↔ Q' s a)) :
    ∀ {s : σ} (as : List α), I s → Along step H s as →
      (Along step Q s as ↔ Along step Q' s as) := by
  intro s as hi hH
  induction as generalizing s with
  | nil => exact Iff.rfl
  | cons a as ih => exact and_congr (hQ s a hi hH.1) (ih (hI s a hi hH.1) hH.2)

/-- Conditions that agree on every step hold along the same runs, where the steps
that meet one of them keep what the agreement rests on. -/
theorem along_iff {I : σ → Prop} {Q H : σ → α → Prop}
    (hI : ∀ s a, I s → H s a → I (step s a).2) (hQ : ∀ s a, I s → (Q s a ↔ H s a)) {s : σ}
    (as : List α) (hi : I s) : Along step Q s as ↔ Along step H s as := by
  constructor
  · intro h
    have hkeep : ∀ s a, I s → Q s a → I (step s a).2 := fun s a hs hq =>
      hI s a hs ((hQ s a hs).mp hq)
    exact (along_congr hkeep (fun s a hs _ => hQ s a hs) as hi h).mp h
  · intro h
    exact (along_congr hI (fun s a hs _ => hQ s a hs) as hi h).mpr h

/-! ## Histories -/

/-- The system that keeps its own trace. -/
def record (step : σ → α → β × σ) (s : σ × List (α × β)) (a : α) : β × σ × List (α × β) :=
  ((step s.1 a).1, (step s.1 a).2, s.2 ++ [(a, (step s.1 a).1)])

/-- The entries behind the last one that is marked. -/
def since {γ : Type*} (mark : γ → Bool) (h : List γ) : List γ := h.rtakeWhile fun e => !mark e

section Since

variable {γ : Type*} {mark mark' : γ → Bool}

@[simp] theorem since_nil : since mark ([] : List γ) = [] := rfl

theorem since_snoc (h : List γ) (e : γ) :
    since mark (h ++ [e]) = if mark e then [] else since mark h ++ [e] := by
  simp only [since, List.rtakeWhile_concat]
  cases mark e <;> rfl

theorem countP_since_snoc (p : γ → Bool) (h : List γ) (e : γ) :
    (since mark (h ++ [e])).countP p =
      if mark e then 0 else (since mark h).countP p + if p e then 1 else 0 := by
  rw [since_snoc]
  split_ifs <;> simp_all

theorem any_since_snoc (p : γ → Bool) (h : List γ) (e : γ) :
    (since mark (h ++ [e])).any p = if mark e then false else (since mark h).any p || p e := by
  rw [since_snoc]
  split_ifs <;> simp

theorem any_of_any_since {p : γ → Bool} {h : List γ} (ha : (since mark h).any p = true) :
    h.any p = true := by
  obtain ⟨e, he, hp⟩ := List.any_eq_true.mp ha
  exact List.any_eq_true.mpr ⟨e, (List.rtakeWhile_suffix _ h).subset he, hp⟩

/-- Without another mark in it, the past since one mark reaches back less far. -/
theorem countP_since_le (p : γ → Bool) {h : List γ} (hnone : (since mark h).any mark' = false) :
    (since mark h).countP p ≤ (since mark' h).countP p := by
  induction h using List.reverseRecOn with
  | nil => exact le_rfl
  | append_singleton h e ih =>
    rw [any_since_snoc] at hnone
    rw [countP_since_snoc, countP_since_snoc]
    cases hm : mark e with
    | true => exact Nat.zero_le _
    | false =>
      rw [hm, if_neg Bool.false_ne_true, Bool.or_eq_false_iff] at hnone
      rw [hnone.2, if_neg Bool.false_ne_true, if_neg Bool.false_ne_true]
      exact Nat.add_le_add_right (ih hnone.1) _

end Since

/-- Actions that leave the observable part of the state alone can be taken out of
a run, or put into it, without a change to the answers of the others. -/
theorem trace_filter_stutter {R : σ → σ → Prop} (stutter : α → Bool)
    (hstutter : ∀ s t a, stutter a = true → R s t → R (step s a).2 t)
    (hstep : ∀ s t a, stutter a = false → R s t →
      (step s a).1 = (step t a).1 ∧ R (step s a).2 (step t a).2) :
    ∀ (as : List α) {s t : σ}, R s t →
      (trace step s as).filter (fun e => !stutter e.1) =
          trace step t (as.filter fun a => !stutter a) ∧
        R (final step s as) (final step t (as.filter fun a => !stutter a)) := by
  intro as
  induction as with
  | nil => intro s t hR; exact ⟨rfl, hR⟩
  | cons a as ih =>
    intro s t hR
    cases ha : stutter a with
    | true =>
      have hnext := ih (hstutter s t a ha hR)
      simpa [ha] using hnext
    | false =>
      obtain ⟨hout, hR'⟩ := hstep s t a ha hR
      obtain ⟨htrace, hfinal⟩ := ih hR'
      constructor
      · simp [ha, hout, htrace]
      · simpa [ha] using hfinal

/-- A system followed through the actions that a translation keeps. While the
answers meet `Q`, these are answered as the other system answers their translations,
and the rest is not seen by it. -/
theorem trace_filterMap {τ α' β' : Type*} {step' : τ → α' → β' × τ} {R : σ → τ → Prop}
    {Q : α × β → Prop} (translate : α → Option α') (out : β' → β)
    (hdrop : ∀ s t a, translate a = none → Q (a, (step s a).1) → R s t → R (step s a).2 t)
    (hkeep : ∀ s t a a', translate a = some a' → Q (a, (step s a).1) → R s t →
      (step s a).1 = out (step' t a').1 ∧ R (step s a).2 (step' t a').2) :
    ∀ (as : List α) {s : σ} {t : τ}, (∀ e ∈ trace step s as, Q e) → R s t →
      (trace step s as).filterMap (fun e => (translate e.1).map fun a' => (a', e.2)) =
          (trace step' t (as.filterMap translate)).map (fun e => (e.1, out e.2)) ∧
        R (final step s as) (final step' t (as.filterMap translate)) := by
  intro as
  induction as with
  | nil => intro s t _ hR; exact ⟨rfl, hR⟩
  | cons a as ih =>
    intro s t hQ hR
    rw [trace_cons, List.forall_mem_cons] at hQ
    cases ha : translate a with
    | none =>
      have hnext := ih hQ.2 (hdrop s t a ha hQ.1 hR)
      simpa [ha] using hnext
    | some a' =>
      obtain ⟨hout, hR'⟩ := hkeep s t a a' ha hQ.1 hR
      obtain ⟨htrace, hfinal⟩ := ih hQ.2 hR'
      constructor
      · simp [ha, hout, htrace]
      · simpa [ha] using hfinal

/-! ## Where a value comes from -/

section Backed

variable {ε γ : Type*} {writes : ε → γ → Prop} {settles : ε → Prop} {h : List ε} {e : ε} {v : γ}

/-- An entry that wrote `v`, with none behind it that settles on another value. -/
def Backed (writes : ε → γ → Prop) (settles : ε → Prop) (h : List ε) (v : γ) : Prop :=
  ∃ pre e post, h = pre ++ e :: post ∧ writes e v ∧ ∀ x ∈ post, ¬ settles x

theorem backed_write (hw : writes e v) : Backed writes settles (h ++ [e]) v :=
  ⟨h, e, [], rfl, hw, by simp⟩

theorem backed_keep (hb : Backed writes settles h v) (hs : ¬ settles e) :
    Backed writes settles (h ++ [e]) v := by
  obtain ⟨pre, w, post, rfl, hw, hpost⟩ := hb
  refine ⟨pre, w, post ++ [e], by simp, hw, ?_⟩
  intro x hx
  rcases List.mem_append.mp hx with hin | hlast
  · exact hpost x hin
  · rwa [List.mem_singleton.mp hlast]

end Backed

/-- A value that is there was written by some action, and all after it kept it. -/
theorem trace_backed {γ : Type*} {writes : α × β → γ → Prop} {settles : α × β → Prop}
    {view : σ → Option γ}
    (hstep : ∀ s a v, view (step s a).2 = some v →
      writes (a, (step s a).1) v ∨ (view s = some v ∧ ¬ settles (a, (step s a).1)))
    {s : σ} (as : List α) (hs : view s = none) {v : γ} (hv : view (final step s as) = some v) :
    Backed writes settles (trace step s as) v := by
  refine trace_invariant
    (P := fun h s => ∀ v, view s = some v → Backed writes settles h v) ?_ as (by simp [hs]) v hv
  intro h s a hP v hv
  rcases hstep s a v hv with hw | ⟨hold, hkeep⟩
  · exact backed_write hw
  · exact backed_keep (hP v hold) hkeep

theorem final_keeps {keeps : α × β → Prop} {P : σ → Prop}
    (hkeep : ∀ s a, keeps (a, (step s a).1) → P s → P (step s a).2) {s : σ} (as : List α)
    (hs : P s) (hpost : ∀ x ∈ trace step s as, keeps x) : P (final step s as) := by
  induction as generalizing s with
  | nil => exact hs
  | cons a as ih =>
    rw [trace_cons] at hpost
    exact ih (hkeep s a (hpost _ List.mem_cons_self) hs)
      fun x hx => hpost x (List.mem_cons_of_mem _ hx)

/-- What one entry brings about lasts as long as the ones after it keep it. -/
theorem final_of_kept (marks keeps : α × β → Prop) {P : σ → Prop}
    (hmark : ∀ s a, marks (a, (step s a).1) → P (step s a).2)
    (hkeep : ∀ s a, keeps (a, (step s a).1) → P s → P (step s a).2)
    {s : σ} (as : List α) {pre : List (α × β)} {e : α × β} {post : List (α × β)}
    (htrace : trace step s as = pre ++ e :: post) (he : marks e) (hpost : ∀ x ∈ post, keeps x) :
    P (final step s as) := by
  induction as generalizing s pre with
  | nil => simp at htrace
  | cons a as ih =>
    rw [trace_cons] at htrace
    cases pre with
    | cons x pre =>
      rw [List.cons_append, List.cons.injEq] at htrace
      exact ih htrace.2
    | nil =>
      obtain ⟨rfl, rfl⟩ := List.cons.inj htrace
      exact final_keeps hkeep as (hmark s a he) hpost

/-! ## Potentials -/

section Changes

variable {γ : Type*} [DecidableEq γ]

/-- The number of steps of a run that change what `view` shows. -/
def changes (step : σ → α → β × σ) (view : σ → γ) : σ → List α → Nat
  | _, [] => 0
  | s, a :: as =>
    (if view (step s a).2 = view s then 0 else 1) + changes step view (step s a).2 as

/-- A potential pays for every change, where a step that shows a change lowers it
and no step raises it. -/
theorem changes_add_le (view : σ → γ) (potential : σ → Nat) {I : σ → Prop}
    (hI : ∀ s a, I s → I (step s a).2)
    (hstep : ∀ s a, I s →
      (view (step s a).2 = view s ∧ potential (step s a).2 = potential s) ∨
        potential (step s a).2 < potential s) :
    ∀ (as : List α) {s : σ}, I s →
      changes step view s as + potential (final step s as) ≤ potential s := by
  intro as
  induction as with
  | nil =>
    intro s _
    exact (Nat.zero_add _).le
  | cons a as ih =>
    intro s hi
    have hrest := ih (hI s a hi)
    rw [changes, final_cons]
    rcases hstep s a hi with ⟨hview, hp⟩ | hp
    · rw [if_pos hview]
      omega
    · split_ifs <;> omega

end Changes

end DspEmbedded.Lib.Runs
