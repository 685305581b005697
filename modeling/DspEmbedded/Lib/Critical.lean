import DspEmbedded.Lib.Runs
import Mathlib.Logic.Function.Basic

/-!
# Calls under one lock

Tasks make calls on shared memory. A call takes the lock, does its statements one by
one, gives the lock back and returns; a scheduler may run any task between any two
of these steps. `linearized` says what the lock is for: the calls act as if each were
done at once, in the order in which the lock was given back.
-/
namespace DspEmbedded.Lib.Critical

open Lib.Runs

universe u v

/-- The statements of a call: each writes, and goes on by what it has read. -/
inductive Prog (σ : Type u) (ρ : Type v) where
  | done (r : ρ)
  | act (write : σ → σ) (next : σ → Prog σ ρ)

/-- All statements at once. -/
def Prog.run {σ : Type u} {ρ : Type v} : Prog σ ρ → σ → ρ × σ
  | .done r, s => (r, s)
  | .act write next, s => (next s).run (write s)

section

variable {ι χ : Type*} {σ : Type u} {ρ : Type v} [DecidableEq ι]

/-- What a task is at. -/
inductive Phase (χ : Type*) (ρ : Type*) where
  | idle
  | called (c : χ)
  | leaving (c : χ) (r : ρ)

/-- The lock is free, or held by a task with the rest of its call to do. -/
structure System (ι χ : Type*) (σ : Type u) (ρ : Type v) where
  shared : σ
  holder : Option (ι × χ × Prog σ ρ)
  phase : ι → Phase χ ρ

def System.start (s : σ) : System ι χ σ ρ := ⟨s, none, fun _ => .idle⟩

/-- What can happen next: an idle task makes a call, or the scheduler runs a task. -/
inductive Event (ι χ : Type*) where
  | call (i : ι) (c : χ)
  | run (i : ι)

/-- What is seen of a call. It is committed where the lock is given back. -/
inductive Mark (χ : Type*) (ρ : Type*) where
  | called (c : χ)
  | committed (c : χ) (r : ρ)
  | returned (c : χ) (r : ρ)

variable (body : χ → Prog σ ρ)

/-- One step of a task. A task that finds the lock taken waits. -/
def runTask (S : System ι χ σ ρ) (i : ι) : Option (ι × Mark χ ρ) × System ι χ σ ρ :=
  match S.phase i with
  | .idle => (none, S)
  | .called c =>
    match S.holder with
    | none => (none, { S with holder := some (i, c, body c) })
    | some (j, c, p) =>
      if j = i then
        match p with
        | .act write next =>
          (none, { S with shared := write S.shared, holder := some (i, c, next S.shared) })
        | .done r =>
          (some (i, .committed c r),
            { S with holder := none, phase := Function.update S.phase i (.leaving c r) })
      else (none, S)
  | .leaving c r =>
    (some (i, .returned c r), { S with phase := Function.update S.phase i .idle })

def step (S : System ι χ σ ρ) : Event ι χ → Option (ι × Mark χ ρ) × System ι χ σ ρ
  | .call i c =>
    match S.phase i with
    | .idle => (some (i, .called c), { S with phase := Function.update S.phase i (.called c) })
    | _ => (none, S)
  | .run i => runTask body S i

/-- A call done at once. -/
def atOnce (s : σ) (c : χ) : ρ × σ := (body c).run s

/-! ## Histories -/

abbrev History (ι χ ρ : Type*) := List (Event ι χ × Option (ι × Mark χ ρ))

/-- The marks of one task, in their order. -/
def marksOf (i : ι) (h : History ι χ ρ) : List (Mark χ ρ) :=
  h.filterMap fun e => e.2.bind fun m => if m.1 = i then some m.2 else none

/-- The committed calls of all tasks with their results, in their order. -/
def commits (h : History ι χ ρ) : List (χ × ρ) :=
  h.filterMap fun e =>
    match e.2 with
    | some (_, .committed c r) => some (c, r)
    | _ => none

/-- Calls made, committed and returned one after the other. -/
inductive Complete : List (Mark χ ρ) → Prop
  | nil : Complete []
  | snoc {l : List (Mark χ ρ)} (c : χ) (r : ρ) (h : Complete l) :
      Complete (l ++ [.called c, .committed c r, .returned c r])

/-- The marks of the call that a task is at. -/
def Phase.pending : Phase χ ρ → List (Mark χ ρ)
  | .idle => []
  | .called c => [.called c]
  | .leaving c r => [.called c, .committed c r]

@[simp] theorem marksOf_append (i : ι) (h k : History ι χ ρ) :
    marksOf i (h ++ k) = marksOf i h ++ marksOf i k := List.filterMap_append

omit [DecidableEq ι] in
@[simp] theorem commits_append (h k : History ι χ ρ) :
    commits (h ++ k) = commits h ++ commits k := List.filterMap_append

@[simp] theorem marksOf_silent (i : ι) (e : Event ι χ) :
    marksOf i ([(e, none)] : History ι χ ρ) = [] := rfl

@[simp] theorem marksOf_self (i : ι) (e : Event ι χ) (m : Mark χ ρ) :
    marksOf i [(e, some (i, m))] = [m] := by
  simp [marksOf]

theorem marksOf_other {i j : ι} (h : j ≠ i) (e : Event ι χ) (m : Mark χ ρ) :
    marksOf i [(e, some (j, m))] = [] := by
  simp [marksOf, h]

omit [DecidableEq ι] in
@[simp] theorem commits_committed (i : ι) (e : Event ι χ) (c : χ) (r : ρ) :
    commits [(e, some (i, .committed c r))] = [(c, r)] := rfl

/-- The calls committed so far, done at once one after the other. -/
def replay (s₀ : σ) (h : History ι χ ρ) : σ :=
  final (atOnce body) s₀ ((commits h).map Prod.fst)

/-! ## The invariant -/

/-- The committed calls are a run without interruptions, the memory is what it leaves
while the lock is free, and what is left of the call under the lock will end as the
whole call does at once. -/
structure Inv (s₀ : σ) (h : History ι χ ρ) (S : System ι χ σ ρ) : Prop where
  sequential : trace (atOnce body) s₀ ((commits h).map Prod.fst) = commits h
  free : S.holder = none → S.shared = replay body s₀ h
  held : ∀ i c p, S.holder = some (i, c, p) →
    S.phase i = .called c ∧ p.run S.shared = atOnce body (replay body s₀ h) c
  marks : ∀ i, ∃ l, Complete l ∧ marksOf i h = l ++ (S.phase i).pending

section Step

variable {body} {s₀ : σ} {h : History ι χ ρ} {S : System ι χ σ ρ}

/-- A phase that moves on with its mark. -/
theorem marks_update (hm : ∀ j, ∃ l, Complete l ∧ marksOf j h = l ++ (S.phase j).pending) (i : ι)
    (e : Event ι χ) (m : Mark χ ρ) (phase : Phase χ ρ)
    (hi : ∀ l, Complete l → marksOf i h = l ++ (S.phase i).pending →
      ∃ l', Complete l' ∧ marksOf i h ++ [m] = l' ++ phase.pending) (j : ι) :
    ∃ l, Complete l ∧ marksOf j (h ++ [(e, some (i, m))]) =
      l ++ (Function.update S.phase i phase j).pending := by
  obtain ⟨l, hl, hmarks⟩ := hm j
  by_cases hj : j = i
  · subst hj
    rw [Function.update_self, marksOf_append, marksOf_self]
    exact hi l hl hmarks
  · rw [Function.update_of_ne hj, marksOf_append, marksOf_other (Ne.symm hj), List.append_nil]
    exact ⟨l, hl, hmarks⟩

theorem Inv.silent (hinv : Inv body s₀ h S) (e : Event ι χ) : Inv body s₀ (h ++ [(e, none)]) S := by
  have hcommits : commits (h ++ [(e, none)]) = commits h := by
    rw [commits_append]
    exact List.append_nil _
  refine ⟨?_, ?_, ?_, ?_⟩
  · rw [hcommits]
    exact hinv.sequential
  · rw [replay, hcommits]
    exact hinv.free
  · rw [replay, hcommits]
    exact hinv.held
  · simpa using hinv.marks

/-- A task that does not hold the lock makes a call or returns from one. -/
theorem Inv.move (hinv : Inv body s₀ h S) {i : ι} (hout : ∀ c, S.phase i = .called c →
      ∀ p, S.holder ≠ some (i, c, p)) (e : Event ι χ) {m : Mark χ ρ} (phase : Phase χ ρ)
    (hm : commits ([(e, some (i, m))] : History ι χ ρ) = [])
    (hmarks : ∀ l, Complete l → marksOf i h = l ++ (S.phase i).pending →
      ∃ l', Complete l' ∧ marksOf i h ++ [m] = l' ++ phase.pending) :
    Inv body s₀ (h ++ [(e, some (i, m))]) { S with phase := Function.update S.phase i phase } := by
  have hcommits : commits (h ++ [(e, some (i, m))]) = commits h := by
    rw [commits_append, hm, List.append_nil]
  refine ⟨?_, ?_, ?_, marks_update hinv.marks i e m phase hmarks⟩
  · rw [hcommits]
    exact hinv.sequential
  · rw [replay, hcommits]
    exact hinv.free
  · rw [replay, hcommits]
    intro j c' p hholder
    obtain ⟨hcalled, hrun⟩ := hinv.held j c' p hholder
    have hne : j ≠ i := by
      rintro rfl
      exact hout c' hcalled p hholder
    exact ⟨(Function.update_of_ne hne _ _).trans hcalled, hrun⟩

theorem Inv.call (hinv : Inv body s₀ h S) {i : ι} (hphase : S.phase i = .idle) (c : χ) :
    Inv body s₀ (h ++ [(.call i c, some (i, .called c))])
      { S with phase := Function.update S.phase i (.called c) } := by
  refine hinv.move ?_ (.call i c) (.called c) rfl ?_
  · intro c' hcalled
    rw [hphase] at hcalled
    cases hcalled
  · intro l hl hmarks
    rw [hphase] at hmarks
    exact ⟨l, hl, by rw [hmarks]; simp [Phase.pending]⟩

theorem Inv.leave (hinv : Inv body s₀ h S) {i : ι} {c : χ} {r : ρ}
    (hphase : S.phase i = .leaving c r) :
    Inv body s₀ (h ++ [(.run i, some (i, .returned c r))])
      { S with phase := Function.update S.phase i .idle } := by
  refine hinv.move ?_ (.run i) .idle rfl ?_
  · intro c' hcalled
    rw [hphase] at hcalled
    cases hcalled
  · intro l hl hmarks
    rw [hphase] at hmarks
    exact ⟨_, hl.snoc c r, by rw [hmarks]; simp [Phase.pending]⟩

theorem Inv.take (hinv : Inv body s₀ h S) {i : ι} {c : χ} (hphase : S.phase i = .called c)
    (hfree : S.holder = none) :
    Inv body s₀ (h ++ [(.run i, none)]) { S with holder := some (i, c, body c) } := by
  have hsilent := hinv.silent (.run i)
  refine ⟨hsilent.sequential, ?_, ?_, hsilent.marks⟩
  · intro hholder
    cases hholder
  · intro j c' p hholder
    simp only [Option.some.injEq, Prod.mk.injEq] at hholder
    obtain ⟨rfl, rfl, rfl⟩ := hholder
    exact ⟨hphase, by rw [← hsilent.free hfree]; rfl⟩

theorem Inv.act (hinv : Inv body s₀ h S) {i : ι} {c : χ} {write : σ → σ} {next : σ → Prog σ ρ}
    (hholder : S.holder = some (i, c, .act write next)) :
    Inv body s₀ (h ++ [(.run i, none)])
      { S with shared := write S.shared, holder := some (i, c, next S.shared) } := by
  have hsilent := hinv.silent (.run i)
  obtain ⟨hcalled, hrun⟩ := hsilent.held i c _ hholder
  refine ⟨hsilent.sequential, ?_, ?_, hsilent.marks⟩
  · intro hnone
    cases hnone
  · intro j c' p hsome
    simp only [Option.some.injEq, Prod.mk.injEq] at hsome
    obtain ⟨rfl, rfl, rfl⟩ := hsome
    exact ⟨hcalled, hrun⟩

theorem Inv.commit (hinv : Inv body s₀ h S) {i : ι} {c : χ} {r : ρ}
    (hholder : S.holder = some (i, c, .done r)) :
    Inv body s₀ (h ++ [(.run i, some (i, .committed c r))])
      { S with holder := none, phase := Function.update S.phase i (.leaving c r) } := by
  obtain ⟨hcalled, hrun⟩ := hinv.held i c _ hholder
  have hcommits : commits (h ++ [(.run i, some (i, .committed c r))]) = commits h ++ [(c, r)] := by
    rw [commits_append, commits_committed]
  have hanswer : (atOnce body (replay body s₀ h) c).1 = r := by
    rw [← hrun]
    rfl
  have hnext : (atOnce body (replay body s₀ h) c).2 = S.shared := by
    rw [← hrun]
    rfl
  refine ⟨?_, ?_, ?_, ?_⟩
  · rw [hcommits, List.map_append, trace_append, hinv.sequential]
    simp only [List.map_singleton, trace_cons, trace_nil]
    rw [← hanswer]
    rfl
  · intro _
    rw [replay, hcommits, List.map_append, final_append]
    exact hnext.symm
  · intro j c' p hsome
    cases hsome
  · apply marks_update hinv.marks
    intro l hl hmarks
    rw [hcalled] at hmarks
    exact ⟨l, hl, by rw [hmarks]; simp [Phase.pending]⟩

theorem step_inv (h : History ι χ ρ) (S : System ι χ σ ρ) (e : Event ι χ) (hinv : Inv body s₀ h S) :
    Inv body s₀ (h ++ [(e, (step body S e).1)]) (step body S e).2 := by
  cases e with
  | call i c =>
    simp only [step]
    cases hphase : S.phase i with
    | idle => exact hinv.call hphase c
    | called c' => exact hinv.silent _
    | leaving c' r => exact hinv.silent _
  | run i =>
    simp only [step, runTask]
    cases hphase : S.phase i with
    | idle => exact hinv.silent _
    | leaving c r => exact hinv.leave hphase
    | called c =>
      cases hholder : S.holder with
      | none => exact hinv.take hphase hholder
      | some t =>
        obtain ⟨j, c', p⟩ := t
        simp only
        by_cases hj : j = i
        · subst hj
          rw [if_pos rfl]
          cases p with
          | act write next => exact hinv.act hholder
          | done r => exact hinv.commit hholder
        · rw [if_neg hj]
          exact hinv.silent _

end Step

theorem start_inv (s₀ : σ) : Inv body s₀ [] (System.start s₀ : System ι χ σ ρ) where
  sequential := rfl
  free := fun _ => rfl
  held := by
    intro i c p h
    cases h
  marks := fun _ => ⟨[], .nil, rfl⟩

/-- Under every schedule the calls act as if each were done at once where its mark
stands: their results are those of the run of all committed calls in this order, and
every task has its calls committed between making them and returning from them. -/
theorem linearized (s₀ : σ) (events : List (Event ι χ)) :
    Inv body s₀ (trace (step body) (System.start s₀) events)
      (final (step body) (System.start s₀) events) :=
  trace_invariant (P := Inv body s₀) step_inv events (start_inv body s₀)

/-! ## A task that stops for good -/

/-- Nothing that the task `i` does. -/
def Without (i : ι) (events : List (Event ι χ)) : Prop :=
  ∀ e ∈ events, e ≠ .run i ∧ ∀ c, e ≠ .call i c

section Stopped

variable {S : System ι χ σ ρ} {i : ι} {c : χ} {p : Prog σ ρ}

/-- Under a lock held by a task that does nothing, the others get nowhere. -/
theorem step_held (hholder : S.holder = some (i, c, p)) {e : Event ι χ}
    (he : e ≠ .run i ∧ ∀ c, e ≠ .call i c) :
    (step body S e).2.holder = some (i, c, p) ∧ commits [(e, (step body S e).1)] = [] := by
  cases e with
  | call j c' =>
    simp only [step]
    cases S.phase j <;> exact ⟨hholder, rfl⟩
  | run j =>
    have hj : i ≠ j := by
      rintro rfl
      exact he.1 rfl
    simp only [step, runTask]
    cases S.phase j with
    | idle => exact ⟨hholder, rfl⟩
    | leaving c' r => exact ⟨hholder, rfl⟩
    | called c' =>
      simp only [hholder, if_neg hj]
      exact ⟨trivial, rfl⟩

theorem commits_held : ∀ (events : List (Event ι χ)) {S : System ι χ σ ρ},
    S.holder = some (i, c, p) → Without i events → commits (trace (step body) S events) = [] := by
  intro events
  induction events with
  | nil => intro S _ _; rfl
  | cons e events ih =>
    intro S hholder hwithout
    obtain ⟨hnext, hnone⟩ := step_held body hholder (hwithout e List.mem_cons_self)
    have hrest := ih hnext fun e' he' => hwithout e' (List.mem_cons_of_mem _ he')
    rw [trace_cons, ← List.singleton_append, commits_append, hnone, hrest]
    rfl

/-- The task under the lock, run on its own, comes to give it back. -/
theorem commits_alone : ∀ (p : Prog σ ρ) {S : System ι χ σ ρ}, S.holder = some (i, c, p) →
    S.phase i = .called c →
    ∃ n, commits (trace (step body) S (List.replicate n (.run i))) ≠ [] := by
  intro p
  induction p with
  | done r =>
    intro S hholder hphase
    refine ⟨1, ?_⟩
    simp [step, runTask, hphase, hholder, commits]
  | act write next ih =>
    intro S hholder hphase
    have hstep : step body S (.run i) = (none,
        { S with shared := write S.shared, holder := some (i, c, next S.shared) }) := by
      simp [step, runTask, hphase, hholder]
    obtain ⟨n, hn⟩ := ih S.shared (S := { S with
      shared := write S.shared, holder := some (i, c, next S.shared) }) rfl hphase
    refine ⟨n + 1, ?_⟩
    rw [List.replicate_succ, trace_cons, hstep, ← List.singleton_append, commits_append]
    exact hn

omit [DecidableEq ι] in
theorem without_replicate {j : ι} (h : j ≠ i) (n : Nat) :
    Without i (List.replicate n (.run j : Event ι χ)) := by
  intro e he
  rw [List.eq_of_mem_replicate he]
  refine ⟨?_, fun c => by simp⟩
  simpa using h

/-- What can be done after a step of another task can be done before it. -/
theorem commits_cons {e : Event ι χ} (he : e ≠ .run i ∧ ∀ c, e ≠ .call i c)
    (h : ∃ after, Without i after ∧ commits (trace (step body) (step body S e).2 after) ≠ []) :
    ∃ after, Without i after ∧ commits (trace (step body) S after) ≠ [] := by
  obtain ⟨after, hwithout, hcommits⟩ := h
  refine ⟨e :: after, List.forall_mem_cons.mpr ⟨he, hwithout⟩, ?_⟩
  rw [trace_cons, ← List.singleton_append, commits_append]
  intro hnil
  exact hcommits (List.append_eq_nil_iff.mp hnil).2

/-- Any other task gets a free lock, makes its call and gives the lock back. -/
theorem commits_free {j : ι} (hj : j ≠ i) (c : χ) (hfree : S.holder = none) :
    ∃ after, Without i after ∧ commits (trace (step body) S after) ≠ [] := by
  have hrun : (.run j : Event ι χ) ≠ .run i ∧ ∀ c, (.run j : Event ι χ) ≠ .call i c :=
    ⟨by simpa using hj, by simp⟩
  have hcall : (.call j c : Event ι χ) ≠ .run i ∧ ∀ c', (.call j c : Event ι χ) ≠ .call i c' := by
    refine ⟨by simp, ?_⟩
    intro c' h
    exact hj (Event.call.inj h).1
  have hcalled : ∀ {S : System ι χ σ ρ} (c : χ), S.holder = none → S.phase j = .called c →
      ∃ after, Without i after ∧ commits (trace (step body) S after) ≠ [] := by
    intro S c hfree hphase
    apply commits_cons body hrun
    have htake : (step body S (.run j)).2 = { S with holder := some (j, c, body c) } := by
      simp [step, runTask, hphase, hfree]
    rw [htake]
    obtain ⟨n, hn⟩ := commits_alone body (i := j) (body c)
      (S := { S with holder := some (j, c, body c) }) rfl hphase
    exact ⟨_, without_replicate hj n, hn⟩
  have hidle : ∀ {S : System ι χ σ ρ}, S.holder = none → S.phase j = .idle →
      ∃ after, Without i after ∧ commits (trace (step body) S after) ≠ [] := by
    intro S hfree hphase
    apply commits_cons body hcall
    have hmade : (step body S (.call j c)).2 =
        { S with phase := Function.update S.phase j (.called c) } := by
      simp [step, hphase]
    rw [hmade]
    exact hcalled c hfree (Function.update_self _ _ _)
  cases hphase : S.phase j with
  | called c' => exact hcalled c' hfree hphase
  | idle => exact hidle hfree hphase
  | leaving c' r =>
    apply commits_cons body hrun
    have hleft : (step body S (.run j)).2 =
        { S with phase := Function.update S.phase j .idle } := by
      simp [step, runTask, hphase]
    rw [hleft]
    exact hidle hfree (Function.update_self _ _ _)

end Stopped

/-- A task is stopped at some point and never runs again. The calls of the others
come to an end afterwards exactly where it did not hold the lock. -/
theorem stopped_iff (s₀ : σ) (before : List (Event ι χ)) (i : ι) {j : ι} (hj : j ≠ i) (c : χ) :
    let S : System ι χ σ ρ := final (step body) (System.start s₀) before
    (∃ after, Without i after ∧ commits (trace (step body) S after) ≠ []) ↔
      ∀ c p, S.holder ≠ some (i, c, p) := by
  intro S
  have hinv := linearized body s₀ before
  constructor
  · rintro ⟨after, hwithout, hcommits⟩ c' p hholder
    exact hcommits (commits_held body after hholder hwithout)
  · intro hfree
    cases hholder : S.holder with
    | some t =>
      -- another task is under the lock and can finish
      obtain ⟨k, c', p⟩ := t
      have hk : k ≠ i := by
        rintro rfl
        exact hfree c' p hholder
      obtain ⟨n, hn⟩ := commits_alone body p hholder (hinv.held k c' p hholder).1
      exact ⟨_, without_replicate hk n, hn⟩
    | none => exact commits_free body hj c hholder

end

end DspEmbedded.Lib.Critical
