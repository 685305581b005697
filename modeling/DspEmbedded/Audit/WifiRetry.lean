import DspEmbedded.Lib.Runs
import DspEmbedded.Model.Wifi

/-!
# What the retry counter counts

Runs of `dsp_wifi_sm_next` from IDLE. The counter is the number of disconnects since
the last reset, and it is full in FAILED only. It does not count attempts: the
disconnect that ends a connection counts as well, so a manager that had been
connected gives up one attempt early.
-/
namespace DspEmbedded.Audit.WifiRetry

open Lib.Runs Model.Wifi

/-! ## Runs with their history -/

/-- What the caller of the transition function keeps. -/
structure Machine where
  state : WifiState
  retry : Int
  deriving DecidableEq

def Machine.start : Machine := ⟨.idle, 0⟩

/-- The states around an input. -/
structure Move where
  before : WifiState
  after : WifiState
  deriving DecidableEq

def smStep (maxRetry : Int) (m : Machine) (input : WifiInput) : Move × Machine :=
  let (state, retry) := dspWifiSmNext m.state input m.retry maxRetry
  (⟨m.state, state⟩, ⟨state, retry⟩)

abbrev Entry := WifiInput × Move

/-- Entry to CONNECTED, a DISCONNECT, or CONNECT from IDLE. -/
def resets (e : Entry) : Bool :=
  e.1 == .disconnect || (e.1 == .connect && e.2.before == .idle) ||
    (e.2.before != .connected && e.2.after == .connected)

/-- DISCONNECTED, processed in CONNECTING, CONNECTED or RECONNECTING. -/
def isDisconnect (e : Entry) : Bool :=
  e.1 == .disconnected &&
    (e.2.before == .connecting || e.2.before == .connected || e.2.before == .reconnecting)

def disconnects (h : List Entry) : Nat := (since resets h).countP isDisconnect

theorem disconnects_snoc (h : List Entry) (e : Entry) :
    disconnects (h ++ [e]) =
      if resets e then 0 else disconnects h + if isDisconnect e then 1 else 0 :=
  countP_since_snoc isDisconnect h e

/-! ## The counter -/

/-- The machine `m` after the history `h`. -/
structure Counts (maxRetry : Int) (h : List Entry) (m : Machine) : Prop where
  count : m.retry = disconnects h
  le : m.retry ≤ maxRetry
  full : m.retry = maxRetry ↔ m.state = .failed
  zero : m.state = .idle ∨ m.state = .connected → m.retry = 0
  transient : m.state ≠ .disconnected

variable {maxRetry : Int}

theorem counts_start (hmax : 1 ≤ maxRetry) : Counts maxRetry [] .start where
  count := rfl
  le := by
    change (0 : Int) ≤ maxRetry
    omega
  full := by
    have hne : ¬ (0 : Int) = maxRetry := by omega
    exact iff_of_false hne (by decide)
  zero := fun _ => rfl
  transient := by decide

/-- A reset empties the counter. -/
theorem counts_reset (hmax : 1 ≤ maxRetry) {h : List Entry} {e : Entry} {state : WifiState}
    (hreset : resets e = true) (hfailed : state ≠ .failed) (htransient : state ≠ .disconnected) :
    Counts maxRetry (h ++ [e]) ⟨state, 0⟩ where
  count := by
    rw [disconnects_snoc, if_pos hreset]
    rfl
  le := by
    change (0 : Int) ≤ maxRetry
    omega
  full := by
    have hne : ¬ (0 : Int) = maxRetry := by omega
    exact iff_of_false hne hfailed
  zero := fun _ => rfl
  transient := htransient

theorem counts_step (hmax : 1 ≤ maxRetry) (h : List Entry) (m : Machine) (input : WifiInput)
    (hc : Counts maxRetry h m) :
    Counts maxRetry (h ++ [(input, (smStep maxRetry m input).1)]) (smStep maxRetry m input).2 := by
  obtain ⟨state, retry⟩ := m
  obtain ⟨hcount, hle, hfull, hzero, htransient⟩ := hc
  simp only at hcount hle hfull hzero htransient
  rcases smNext_cases state input retry maxRetry with
    ⟨rfl, heq⟩ | ⟨rfl, rfl, heq⟩ | ⟨rfl, hs, heq⟩ | ⟨rfl, hs, heq⟩ | ⟨rfl, hs, heq⟩ |
      ⟨hne, hconnect, hdisc, -, heq⟩
  · -- DISCONNECT
    simp only [smStep, heq]
    exact counts_reset hmax (by simp [resets]) (by decide) (by decide)
  · -- CONNECT from IDLE
    simp only [smStep, heq]
    exact counts_reset hmax (by simp [resets]) (by decide) (by decide)
  · -- an address was obtained
    simp only [smStep, heq]
    apply counts_reset hmax _ (by decide) (by decide)
    rcases hs with rfl | rfl <;> simp [resets]
  · -- a disconnect that counts
    have hopen : retry ≠ maxRetry := by
      intro hr
      rcases hs with rfl | rfl | rfl <;> simp [hr] at hfull
    simp only [smStep, heq]
    refine ⟨?_, ?_, ?_, ?_, ?_⟩
    · by_cases hfull' : maxRetry ≤ retry + 1
      · rcases hs with rfl | rfl | rfl <;>
          simp [disconnects_snoc, resets, isDisconnect, hfull', ← hcount]
      · rcases hs with rfl | rfl | rfl <;>
          simp [disconnects_snoc, resets, isDisconnect, hfull', ← hcount]
    · change retry + 1 ≤ maxRetry
      omega
    · split_ifs with hfull'
      · simp
        omega
      · simp
        omega
    · split_ifs <;> simp
    · split_ifs <;> simp
  · -- RETRY
    obtain rfl : state = .reconnecting := hs.resolve_right htransient
    simp only [smStep, heq]
    refine ⟨?_, hle, ?_, ?_, ?_⟩
    · simp [disconnects_snoc, resets, isDisconnect, hcount]
    · rw [hfull]
      simp
    · simp
    · simp
  · -- no effect
    simp only [smStep, heq]
    refine ⟨?_, hle, hfull, hzero, htransient⟩
    have hresets : resets (input, ⟨state, state⟩) = false := by
      simp [resets, hne] at hconnect ⊢
      exact hconnect
    have hnone : isDisconnect (input, ⟨state, state⟩) = false := by
      simp [isDisconnect] at hdisc ⊢
      tauto
    rw [disconnects_snoc, hresets, hnone]
    simpa using hcount

theorem counts_run (hmax : 1 ≤ maxRetry) (inputs : List WifiInput) :
    Counts maxRetry (trace (smStep maxRetry) .start inputs)
      (final (smStep maxRetry) .start inputs) :=
  trace_invariant (counts_step hmax) inputs (counts_start hmax)

/-- FAILED is left by DISCONNECT only. -/
theorem failed_absorbs {m : Machine} (hm : m.state = .failed) {input : WifiInput}
    (hinput : input ≠ .disconnect) : (smStep maxRetry m input).2 = m := by
  obtain ⟨state, retry⟩ := m
  obtain rfl : state = .failed := hm
  simp [smStep, dspWifiSmNext, hinput]

/-- **The counter over a run.** It counts the disconnects since the last reset, never
passes the maximum, and has reached it in FAILED only, which DISCONNECT alone leaves. -/
theorem retry_count_run (hmax : 1 ≤ maxRetry) (inputs : List WifiInput) :
    let h := trace (smStep maxRetry) .start inputs
    let m := final (smStep maxRetry) .start inputs
    m.retry = disconnects h ∧ (0 ≤ m.retry ∧ m.retry ≤ maxRetry) ∧
    (m.retry = maxRetry ↔ m.state = .failed) ∧
    (m.state = .idle ∨ m.state = .connected → m.retry = 0) ∧ m.state ≠ .disconnected ∧
    ∀ input, m.state = .failed → (smStep maxRetry m input).2.state ≠ .failed →
      input = .disconnect := by
  intro h m
  obtain ⟨hcount, hle, hfull, hzero, htransient⟩ : Counts maxRetry h m := counts_run hmax inputs
  refine ⟨hcount, ⟨?_, hle⟩, hfull, hzero, htransient, ?_⟩
  · rw [hcount]
    exact Int.natCast_nonneg _
  · intro input hfailed hleft
    by_contra hinput
    rw [failed_absorbs hfailed hinput] at hleft
    exact hleft hfailed

/-- Two failed attempts with a maximum of two. -/
theorem retry_count_two :
    (final (smStep 2) .start [.connect, .disconnected, .retry, .disconnected]).retry = 2 :=
  (retry_count_run (by decide) [.connect, .disconnected, .retry, .disconnected]).2.2.1.mpr
    (by decide)

/-! ## Attempts -/

/-- A transition into CONNECTING. -/
def isAttempt (e : Entry) : Bool :=
  (e.1 == .connect && e.2.before == .idle) || (e.1 == .retry && e.2.before == .reconnecting)

def connects (e : Entry) : Bool := e.2.after == .connected

def idles (e : Entry) : Bool := e.2.after == .idle

/-- Whether the machine was CONNECTED since it last left IDLE. -/
def connectedSinceIdle (h : List Entry) : Bool := (since idles h).any connects

/-- The attempts since the machine was last CONNECTED or, if it never was, since it
last left IDLE. -/
def attempts (h : List Entry) : Nat :=
  if h.any connects then (since connects h).countP isAttempt else (since idles h).countP isAttempt

/-- The machine with its history. -/
abbrev Recorded := Machine × List Entry

def Recorded.start : Recorded := (.start, [])

def recordedStep (maxRetry : Int) : Recorded → WifiInput → Move × Recorded :=
  record (smStep maxRetry)

def EntersFailed (maxRetry : Int) (m : Machine) (input : WifiInput) : Prop :=
  m.state ≠ .failed ∧ (smStep maxRetry m input).2.state = .failed

/-- No DISCONNECTED arrives in RECONNECTING. -/
def Quiet (maxRetry : Int) (inputs : List WifiInput) : Prop :=
  Along (recordedStep maxRetry)
    (fun s input => ¬ (input = .disconnected ∧ s.1.state = .reconnecting)) .start inputs

/-- The machine gives up after `maxRetry` attempts at least. -/
def AttemptsMade (maxRetry : Int) (inputs : List WifiInput) : Prop :=
  Along (recordedStep maxRetry)
    (fun s input => EntersFailed maxRetry s.1 input → maxRetry ≤ attempts s.2) .start inputs

/-- The disconnect that fills the counter meets a machine that was not CONNECTED since
it last left IDLE. -/
def FullUnconnected (maxRetry : Int) (inputs : List WifiInput) : Prop :=
  Along (recordedStep maxRetry)
    (fun s input => input = .disconnected → s.1.state = .connecting ∨ s.1.state = .connected →
      maxRetry ≤ s.1.retry + 1 → connectedSinceIdle s.2 = false) .start inputs

theorem connectedSinceIdle_snoc (h : List Entry) (e : Entry) :
    connectedSinceIdle (h ++ [e]) =
      if idles e then false else connectedSinceIdle h || connects e :=
  any_since_snoc connects h e

/-- What the counter says about the attempts: before the first connection it lags
behind by the attempt under way, after one it is ahead by the disconnect that ended it. -/
structure Lag (maxRetry : Int) (s : Recorded) : Prop where
  counts : Counts maxRetry s.2 s.1
  idle : s.1.state = .idle → connectedSinceIdle s.2 = false ∧ (since idles s.2).countP isAttempt = 0
  connected : s.1.state = .connected →
    connectedSinceIdle s.2 = true ∧ (since connects s.2).countP isAttempt = 0
  fresh : connectedSinceIdle s.2 = false →
    (s.1.state = .connecting → (since idles s.2).countP isAttempt = s.1.retry + 1) ∧
    (s.1.state = .reconnecting → (since idles s.2).countP isAttempt = s.1.retry)
  again : connectedSinceIdle s.2 = true →
    (s.1.state = .connecting → (since connects s.2).countP isAttempt = s.1.retry) ∧
    (s.1.state = .reconnecting → (since connects s.2).countP isAttempt = s.1.retry - 1)

theorem lag_start (hmax : 1 ≤ maxRetry) : Lag maxRetry .start where
  counts := counts_start hmax
  idle := fun _ => ⟨rfl, rfl⟩
  connected := nofun
  fresh := fun _ => ⟨nofun, nofun⟩
  again := nofun

theorem unmarked_of_after {e : Entry} (h : e.2.after = .connecting ∨ e.2.after = .reconnecting) :
    idles e = false ∧ connects e = false := by
  rcases h with h | h <;> simp [idles, connects, h]

/-- What one more entry asks for: the counts, and where the machine goes on trying, the
attempts up to then with the one that the entry may be. -/
theorem lag_snoc {h : List Entry} {e : Entry} {m : Machine}
    (hcounts : Counts maxRetry (h ++ [e]) m) (hafter : e.2.after = m.state)
    (hfresh : connectedSinceIdle h = false →
      (m.state = .connecting →
        ((since idles h).countP isAttempt + if isAttempt e then 1 else 0 : Nat) = m.retry + 1) ∧
      (m.state = .reconnecting →
        ((since idles h).countP isAttempt + if isAttempt e then 1 else 0 : Nat) = m.retry))
    (hagain : connectedSinceIdle h = true →
      (m.state = .connecting →
        ((since connects h).countP isAttempt + if isAttempt e then 1 else 0 : Nat) = m.retry) ∧
      (m.state = .reconnecting →
        ((since connects h).countP isAttempt + if isAttempt e then 1 else 0 : Nat) =
          m.retry - 1)) :
    Lag maxRetry (m, h ++ [e]) where
  counts := hcounts
  idle := by
    intro hm
    have hidles : idles e = true := by simpa [idles, hafter] using hm
    simp [connectedSinceIdle_snoc, countP_since_snoc, hidles]
  connected := by
    intro hm
    have hstate : m.state = .connected := hm
    have hidles : idles e = false := by simp [idles, hafter, hstate]
    have hconnects : connects e = true := by simp [connects, hafter, hstate]
    simp [connectedSinceIdle_snoc, countP_since_snoc, hidles, hconnects]
  fresh := by
    intro hc
    constructor
    · intro hm
      obtain ⟨hidles, hconnects⟩ := unmarked_of_after (.inl (hafter.trans hm))
      simp only [connectedSinceIdle_snoc, countP_since_snoc, hidles, hconnects, Bool.or_false] at hc ⊢
      exact (hfresh hc).1 hm
    · intro hm
      obtain ⟨hidles, hconnects⟩ := unmarked_of_after (.inr (hafter.trans hm))
      simp only [connectedSinceIdle_snoc, countP_since_snoc, hidles, hconnects, Bool.or_false] at hc ⊢
      exact (hfresh hc).2 hm
  again := by
    intro hc
    constructor
    · intro hm
      obtain ⟨hidles, hconnects⟩ := unmarked_of_after (.inl (hafter.trans hm))
      simp only [connectedSinceIdle_snoc, countP_since_snoc, hidles, hconnects, Bool.or_false] at hc ⊢
      exact (hagain hc).1 hm
    · intro hm
      obtain ⟨hidles, hconnects⟩ := unmarked_of_after (.inr (hafter.trans hm))
      simp only [connectedSinceIdle_snoc, countP_since_snoc, hidles, hconnects, Bool.or_false] at hc ⊢
      exact (hagain hc).2 hm

theorem lag_step (hmax : 1 ≤ maxRetry) (s : Recorded) (input : WifiInput) (hs : Lag maxRetry s)
    (hquiet : ¬ (input = .disconnected ∧ s.1.state = .reconnecting)) :
    Lag maxRetry (recordedStep maxRetry s input).2 := by
  obtain ⟨⟨state, retry⟩, h⟩ := s
  have hcounts := counts_step hmax h ⟨state, retry⟩ input hs.counts
  obtain ⟨⟨-, -, -, hzero, htransient⟩, hidle, hconnected, hfresh, hagain⟩ := hs
  simp only at hidle hconnected hfresh hagain hquiet hzero htransient
  rcases smNext_cases state input retry maxRetry with
    ⟨rfl, heq⟩ | ⟨rfl, rfl, heq⟩ | ⟨rfl, hst, heq⟩ | ⟨rfl, hst, heq⟩ | ⟨rfl, hst, heq⟩ |
      ⟨hne, hconnect, -, hretry, heq⟩ <;>
    simp only [smStep, heq] at hcounts <;> simp only [recordedStep, record, smStep, heq]
  · -- DISCONNECT
    exact lag_snoc hcounts rfl (fun _ => ⟨nofun, nofun⟩) (fun _ => ⟨nofun, nofun⟩)
  · -- CONNECT from IDLE
    obtain ⟨hc, ha⟩ := hidle rfl
    refine lag_snoc hcounts rfl (fun _ => ⟨fun _ => ?_, nofun⟩) (fun hc' => ?_)
    · rw [ha]
      rfl
    · rw [hc] at hc'
      cases hc'
  · -- an address was obtained
    exact lag_snoc hcounts rfl (fun _ => ⟨nofun, nofun⟩) (fun _ => ⟨nofun, nofun⟩)
  · -- a disconnect that counts
    by_cases hfull : maxRetry ≤ retry + 1
    · simp only [if_pos hfull] at hcounts ⊢
      exact lag_snoc hcounts rfl (fun _ => ⟨nofun, nofun⟩) (fun _ => ⟨nofun, nofun⟩)
    · simp only [if_neg hfull] at hcounts ⊢
      rcases hst with rfl | rfl | rfl
      · refine lag_snoc hcounts rfl (fun hc => ⟨nofun, fun _ => ?_⟩)
          (fun hc => ⟨nofun, fun _ => ?_⟩)
        · exact (hfresh hc).1 rfl
        · have ha := (hagain hc).1 rfl
          show ((since connects h).countP isAttempt : Int) = retry + 1 - 1
          omega
      · obtain ⟨hc, ha⟩ := hconnected rfl
        refine lag_snoc hcounts rfl (fun hc' => ?_) (fun _ => ⟨nofun, fun _ => ?_⟩)
        · rw [hc] at hc'
          cases hc'
        · have hretry := hzero (.inr rfl)
          show ((since connects h).countP isAttempt : Int) = retry + 1 - 1
          omega
      · exact absurd ⟨rfl, rfl⟩ hquiet
  · -- RETRY
    obtain rfl : state = .reconnecting := hst.resolve_right htransient
    refine lag_snoc hcounts rfl (fun hc => ⟨fun _ => ?_, nofun⟩)
      (fun hc => ⟨fun _ => ?_, nofun⟩)
    · have ha := (hfresh hc).2 rfl
      show (((since idles h).countP isAttempt + 1 : Nat) : Int) = retry + 1
      omega
    · have ha := (hagain hc).2 rfl
      show (((since connects h).countP isAttempt + 1 : Nat) : Int) = retry
      omega
  · -- no effect
    have hnone : isAttempt (input, ⟨state, state⟩) = false := by
      simp [isAttempt] at hconnect hretry ⊢
      exact ⟨hconnect, hretry⟩
    refine lag_snoc hcounts rfl ?_ ?_
    · rw [hnone]
      exact hfresh
    · rw [hnone]
      exact hagain

instance (m : Machine) (input : WifiInput) : Decidable (EntersFailed maxRetry m input) := by
  unfold EntersFailed
  infer_instance

theorem entersFailed_iff (m : Machine) (input : WifiInput) :
    EntersFailed maxRetry m input ↔ input = .disconnected ∧
      (m.state = .connecting ∨ m.state = .connected ∨ m.state = .reconnecting) ∧
      maxRetry ≤ m.retry + 1 := by
  obtain ⟨state, retry⟩ := m
  unfold EntersFailed smStep
  rcases smNext_cases state input retry maxRetry with
    ⟨rfl, heq⟩ | ⟨rfl, rfl, heq⟩ | ⟨rfl, hst, heq⟩ | ⟨rfl, hst, heq⟩ | ⟨rfl, hst, heq⟩ |
      ⟨-, -, hdisc, -, heq⟩
  · simp [heq]
  · simp [heq]
  · simp [heq]
  · simp only [heq, hst, true_and]
    split_ifs with hfull
    · rcases hst with rfl | rfl | rfl <;> simp [hfull]
    · simp [hfull]
  · simp [heq]
  · simp only [heq]
    constructor
    · exact fun h => absurd h.2 h.1
    · exact fun h => absurd ⟨h.1, h.2.1⟩ hdisc

/-- The disconnect that fills the counter finds enough attempts exactly when there was
no connection before it. -/
theorem attempts_of_full {s : Recorded} (hmax : 1 ≤ maxRetry) (hs : Lag maxRetry s)
    (hst : s.1.state = .connecting ∨ s.1.state = .connected) (hfull : maxRetry ≤ s.1.retry + 1) :
    maxRetry ≤ attempts s.2 ↔ connectedSinceIdle s.2 = false := by
  have hopen : s.1.retry ≠ maxRetry := by
    intro hr
    have hfailed := hs.counts.full.mp hr
    rcases hst with h | h <;> rw [h] at hfailed <;> cases hfailed
  have hle := hs.counts.le
  cases hc : connectedSinceIdle s.2 with
  | false =>
    refine iff_of_true ?_ rfl
    rcases hst with h | h
    · have hfresh := (hs.fresh hc).1 h
      have hlonger := countP_since_le isAttempt hc
      unfold attempts
      split_ifs <;> omega
    · rw [(hs.connected h).1] at hc
      cases hc
  | true =>
    refine iff_of_false ?_ nofun
    rw [attempts, if_pos (any_of_any_since hc)]
    rcases hst with h | h
    · have hagain := (hs.again hc).1 h
      omega
    · have hagain := (hs.connected h).2
      omega

/-- **The attempts are made unless there was a connection.** In a run without a
DISCONNECTED in RECONNECTING, the machine gives up after `maxRetry` attempts or more
if and only if it was never CONNECTED since it last left IDLE when it gives up. -/
theorem attempts_made_iff (hmax : 1 ≤ maxRetry) (inputs : List WifiInput)
    (hquiet : Quiet maxRetry inputs) :
    AttemptsMade maxRetry inputs ↔ FullUnconnected maxRetry inputs := by
  refine along_congr (I := Lag maxRetry) (lag_step hmax) ?_ inputs (lag_start hmax) hquiet
  intro s input hs hq
  rw [entersFailed_iff]
  constructor
  · intro h hinput hst hfull
    have hst' : s.1.state = .connecting ∨ s.1.state = .connected ∨ s.1.state = .reconnecting :=
      hst.imp_right .inl
    exact (attempts_of_full hmax hs hst hfull).mp (h ⟨hinput, hst', hfull⟩)
  · rintro h ⟨hinput, hst, hfull⟩
    have hst' : s.1.state = .connecting ∨ s.1.state = .connected := by
      rcases hst with hst | hst | hst
      · exact .inl hst
      · exact .inr hst
      · exact absurd ⟨hinput, hst⟩ hq
    exact (attempts_of_full hmax hs hst' hfull).mpr (h hinput hst' hfull)

/-- Two attempts that fail without a connection. -/
theorem attempts_made_two : AttemptsMade 2 [.connect, .disconnected, .retry, .disconnected] := by
  have hquiet : Quiet 2 [.connect, .disconnected, .retry, .disconnected] := by
    unfold Quiet
    decide
  refine (attempts_made_iff (by decide) _ hquiet).mpr ?_
  unfold FullUnconnected
  decide

/-- With a maximum of one attempt none is made after a connection is lost. -/
theorem attempts_missing_counterexample :
    Quiet 1 [.connect, .connected, .disconnected] ∧
      ¬ AttemptsMade 1 [.connect, .connected, .disconnected] := by
  unfold Quiet AttemptsMade
  decide

end DspEmbedded.Audit.WifiRetry
