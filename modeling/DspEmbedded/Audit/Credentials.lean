import DspEmbedded.Lib.Runs
import DspEmbedded.Model.Credentials

/-!
# Which network a boot joins

A store writes two strings one after the other and commits them, and may fail or be cut
off in between. A boot reads what is there then, into arrays that are shorter than what a
store takes. What it configures is told from the history of stores alone.
-/
namespace DspEmbedded.Audit.Credentials

open Lib.CString Lib.Runs Model.Credentials

/-! ## Lives -/

inductive Event where
  | store (ssid password : Option CStr) (r : StoreResults)
  | boot (provision : Option (CStr × CStr)) (b : BootResults) (r : StoreResults)

inductive Answer where
  | store (err : NvsErr)
  | boot (boot : Boot)

/-- Every boot starts from the settings of the build. -/
def step (settings : Settings) (nvs : Nvs) : Event → Answer × Nvs
  | .store ssid password r =>
    let (err, nvs) := dspWifiStoreCredentials nvs r ssid password
    (.store err, nvs)
  | .boot provision b r =>
    let (boot, nvs) := appMain nvs settings b r provision
    (.boot boot, nvs)

/-! ## What a history says -/

/-- The strings that an event would have stored. -/
def Event.offer : Event → Option (CStr × CStr)
  | .store (some ssid) (some password) _ => some (ssid, password)
  | .store _ _ _ => none
  | .boot provision _ _ => provision

/-- What `nvs_open` answers to the store of an event. -/
def Event.opened : Event → NvsErr
  | .store _ _ r => r.opened
  | .boot _ _ r => r.opened

/-- A boot finds a partition that is to be formatted anew. -/
def Event.Formats : Event → Prop
  | .store _ _ _ => False
  | .boot _ b _ => b.Formats

/-- Nothing is left after an erasure that works. -/
def Event.Erases : Event → Prop
  | .store _ _ _ => False
  | .boot _ b _ => b.Formats ∧ b.flashErase = .ok

/-- What an event finds in NVS once its flash is there. -/
def found (nvs : Nvs) : Event → Nvs
  | .store _ _ _ => nvs
  | .boot _ b _ => (nvsFlashInit nvs b).2

/-- The result of the store, if there was one. -/
def Answer.stored : Answer → Option NvsErr
  | .store err => some err
  | .boot b => b.stored

/-- The two strings, which are written one after the other. -/
inductive Half where
  | ssid
  | pass

def Half.held : Half → Nvs → Option CStr
  | .ssid, nvs => nvs.ssid
  | .pass, nvs => nvs.pass

def Half.of : Half → CStr → CStr → CStr
  | .ssid, s, _ => s
  | .pass, _, p => p

/-- A store of the two strings was begun: it got NVS open. -/
def Offers (e : Event × Answer) (ssid password : CStr) : Prop :=
  e.1.offer = some (ssid, password) ∧ ssid ≠ .empty ∧ e.2.stored.isSome ∧ e.1.opened = .ok

def Wrote (half : Half) (e : Event × Answer) (v : CStr) : Prop :=
  ∃ ssid password, Offers e ssid password ∧ half.of ssid password = v

def Stores (e : Event × Answer) (ssid password : CStr) : Prop :=
  Offers e ssid password ∧ e.2.stored = some .ok

/-- What was there before does not matter any more. -/
def Settles (e : Event × Answer) : Prop := e.1.Erases ∨ e.2.stored = some .ok

def Touches (e : Event × Answer) : Prop :=
  e.1.Formats ∨ ∃ ssid password, Offers e ssid password

/-! ## Strings and arrays -/

theorem headD_ne_zero_iff (s : CStr) : s.bytes.headD 0 ≠ 0 ↔ s ≠ .empty := by
  obtain ⟨bytes, noNul⟩ := s
  cases bytes with
  | nil => simp [CStr.empty]
  | cons b bs =>
    have hb : b ≠ 0 := fun hb => noNul (hb ▸ List.mem_cons_self)
    simpa [CStr.empty] using hb

/-- The station's configuration for two strings that fit. -/
def station (ssid password : CStr) : StaConfig := ⟨.ofStr 32 ssid, .ofStr 64 password⟩

theorem staConfig_eq (ssid password : CStr) :
    staConfig ssid password = station (ssid.take 31) (password.take 63) := by
  rw [staConfig, strncpy_zero (by decide), strncpy_zero (by decide), station]

theorem staConfig_of_fits {ssid password : CStr} (hs : ssid.length < 32)
    (hp : password.length < 64) : staConfig ssid password = station ssid password := by
  rw [staConfig_eq, CStr.take_of_length_le (by omega), CStr.take_of_length_le (by omega)]

/-! ## One load -/

theorem nvsGetStr_zero {cap : Nat} (stored : Option CStr) (failure : NvsErr) :
    (nvsGetStr stored failure (.zero cap)).1 = .ok ↔
      failure = .ok ∧ ∃ s, stored = some s ∧ s.length < cap := by
  unfold nvsGetStr
  by_cases hf : failure = .ok
  · cases stored with
    | none => simp [hf]
    | some s =>
      by_cases hs : cap ≤ s.length
      · simp [hf, hs]
      · simp only [hf, hs, ne_eq, not_true_eq_false, if_false, Option.some.injEq, true_and,
          exists_eq_left', true_iff]
        omega
  · simp [hf]

theorem nvsGetStr_ok {cap : Nat} {s : CStr} (hs : s.length < cap) :
    nvsGetStr (some s) .ok (.zero cap) = (.ok, .ofStr cap s) := by
  have hfit : ¬ cap ≤ s.length := by omega
  simp only [nvsGetStr, ne_eq, not_true_eq_false, if_false, hfit]
  rw [strncpy_zero (by omega), CStr.take_of_length_le (by omega)]

/-- All calls of the load succeed. -/
def Readable (b : BootResults) : Prop :=
  b.opened = .ok ∧ b.getSsid = .ok ∧ b.getPass = .ok

/-- The flash does what is asked of it. -/
def Ready (b : BootResults) : Prop := b.flashInit = .ok ∧ Readable b

/-- Both strings are there, and fit. -/
def Fits (nvs : Nvs) (ssid password : CStr) : Prop :=
  nvs = ⟨some ssid, some password⟩ ∧ ssid.length < 32 ∧ password.length < 64

theorem load_ok_iff (nvs : Nvs) (b : BootResults) :
    (nvsLoadCredentials nvs b (.zero _) (.zero _)).1 = .ok ↔
      Readable b ∧ ∃ s p, Fits nvs s p := by
  unfold nvsLoadCredentials
  by_cases hopen : b.opened = .ok
  · by_cases hssid : (nvsGetStr nvs.ssid b.getSsid (.zero dspWifiSsidMaxLen)).1 = .ok
    · simp only [hopen, hssid, ne_eq, not_true_eq_false, if_false]
      rw [nvsGetStr_zero] at hssid ⊢
      obtain ⟨hget, s, hs, hlen⟩ := hssid
      constructor
      · rintro ⟨hget', p, hp, hlen'⟩
        exact ⟨⟨hopen, hget, hget'⟩, s, p, by rw [← hs, ← hp], hlen, hlen'⟩
      · rintro ⟨⟨-, -, hget'⟩, s', p, hnvs, -, hlen'⟩
        exact ⟨hget', p, by rw [hnvs], hlen'⟩
    · simp only [hopen, hssid, ne_eq, not_true_eq_false, not_false_eq_true, if_false, if_true,
        false_iff]
      rw [nvsGetStr_zero] at hssid
      rintro ⟨⟨-, hget, -⟩, s, p, hnvs, hlen, -⟩
      exact hssid ⟨hget, s, by rw [hnvs], hlen⟩
  · simp only [hopen, ne_eq, not_false_eq_true, if_true, false_iff]
    exact fun h => hopen h.1.1

theorem load_fits {nvs : Nvs} {b : BootResults} {s p : CStr} (hb : Readable b)
    (h : Fits nvs s p) :
    nvsLoadCredentials nvs b (.zero _) (.zero _) = (.ok, .ofStr _ s, .ofStr _ p) := by
  obtain ⟨rfl, hs, hp⟩ := h
  obtain ⟨hopen, hssid, hpass⟩ := hb
  have hs' : s.length < dspWifiSsidMaxLen := hs
  have hp' : p.length < dspWifiPassMaxLen := hp
  simp [nvsLoadCredentials, hopen, hssid, hpass, nvsGetStr_ok hs', nvsGetStr_ok hp']

theorem staConfig_loaded {s p : CStr} (hs : s.length < 32) (hp : p.length < 64) :
    staConfig (CharBuf.ofStr dspWifiSsidMaxLen s).str (CharBuf.ofStr dspWifiPassMaxLen p).str =
      station s p := by
  have hs' : (CharBuf.ofStr dspWifiSsidMaxLen s).str = s := CharBuf.str_ofStr hs
  have hp' : (CharBuf.ofStr dspWifiPassMaxLen p).str = p := CharBuf.str_ofStr hp
  rw [hs', hp', staConfig_of_fits hs hp]

/-! ## One boot -/

theorem flashInit_kept {b : BootResults} (h : ¬ b.Formats) (nvs : Nvs) :
    nvsFlashInit nvs b = (b.flashInit, nvs) := if_neg h

/-- A string that is there after the flash was initialized was there before. -/
theorem flashInit_held {half : Half} {nvs : Nvs} {b : BootResults} {v : CStr}
    (h : half.held (nvsFlashInit nvs b).2 = some v) :
    ¬ (b.Formats ∧ b.flashErase = .ok) ∧ half.held nvs = some v := by
  by_cases hf : b.Formats
  · by_cases he : b.flashErase = .ok
    · simp only [nvsFlashInit, if_pos hf, nvsFlashErase, if_pos he] at h
      cases half <;> cases h
    · refine ⟨fun herased => he herased.2, ?_⟩
      simp only [nvsFlashInit, if_pos hf, nvsFlashErase, if_neg he] at h
      cases half with
      | ssid =>
        simp only [Half.held] at h ⊢
        split_ifs at h
        exact h
      | pass =>
        simp only [Half.held] at h ⊢
        split_ifs at h
        exact h
  · rw [flashInit_kept hf] at h
    exact ⟨fun herased => hf herased.1, h⟩

theorem Ready.not_formats {b : BootResults} (h : Ready b) : ¬ b.Formats := by
  rintro (he | he) <;> rw [h.1] at he <;> cases he

/-- Whatever is configured without a given configuration was read, and fits. -/
theorem init_sta {nvs : Nvs} {settings : Settings} {b : BootResults} {sta : StaConfig}
    (h : (dspWifiInit nvs settings b none).1.2.1 = some sta) :
    ∃ s p, Fits nvs s p ∧ sta = station s p := by
  unfold dspWifiInit at h
  by_cases hinit : (nvsFlashInit nvs b).1 = .ok
  · by_cases hload :
        (nvsLoadCredentials (nvsFlashInit nvs b).2 b (.zero _) (.zero _)).1 = .ok
    · have hread := (load_ok_iff _ b).mp hload
      obtain ⟨hb, s, p, hfits⟩ := hread
      simp only [hinit, ne_eq, not_true_eq_false, if_false, Option.filter_none,
        load_fits hb hfits, Option.some.injEq] at h
      rw [staConfig_loaded hfits.2.1 hfits.2.2] at h
      have hs := (@flashInit_held .ssid nvs b s (by rw [hfits.1]; rfl)).2
      have hp := (@flashInit_held .pass nvs b p (by rw [hfits.1]; rfl)).2
      have hnvs : nvs = ⟨some s, some p⟩ := by
        obtain ⟨ssid, pass⟩ := nvs
        exact congrArg₂ Nvs.mk hs hp
      exact ⟨s, p, ⟨hnvs, hfits.2⟩, h.symm⟩
    · simp [hinit, hload] at h
  · simp [hinit] at h

/-- On a flash that is ready both strings are read, or the boot reports that they are
not there. -/
theorem init_ready {nvs : Nvs} {settings : Settings} {b : BootResults} (hb : Ready b)
    {s p : CStr} (hnvs : nvs = ⟨some s, some p⟩) :
    dspWifiInit nvs settings b none =
      if s.length < 32 ∧ p.length < 64 then ((.ok, some (station s p), settings), nvs)
      else ((.notFound, none, settings), nvs) := by
  have hinit : nvsFlashInit nvs b = (.ok, nvs) := by
    rw [flashInit_kept hb.not_formats, hb.1]
  unfold dspWifiInit
  simp only [hinit, ne_eq, not_true_eq_false, if_false, Option.filter_none]
  by_cases hfit : s.length < 32 ∧ p.length < 64
  · rw [load_fits hb.2 ⟨hnvs, hfit⟩, if_pos hfit]
    simp only [not_true_eq_false, if_false]
    rw [staConfig_loaded hfit.1 hfit.2]
  · have hload : (nvsLoadCredentials nvs b (.zero _) (.zero _)).1 ≠ .ok := by
      rw [ne_eq, load_ok_iff]
      rintro ⟨-, s', p', hnvs', hfits⟩
      rw [hnvs, Nvs.mk.injEq, Option.some.injEq, Option.some.injEq] at hnvs'
      rw [← hnvs'.1, ← hnvs'.2] at hfits
      exact hfit hfits
    simp [hload, hfit]

/-! ## One event -/

/-- A store leaves NVS alone, or had two strings to write: a success leaves both, and a
failure may leave either. -/
theorem store_cases (nvs : Nvs) (r : StoreResults) (ssid password : Option CStr) :
    ((dspWifiStoreCredentials nvs r ssid password).1 ≠ .ok ∧
        (dspWifiStoreCredentials nvs r ssid password).2 = nvs) ∨
      ∃ s p, ssid = some s ∧ password = some p ∧ s ≠ .empty ∧ r.opened = .ok ∧
        (((dspWifiStoreCredentials nvs r ssid password).1 = .ok ∧
            (dspWifiStoreCredentials nvs r ssid password).2 = ⟨some s, some p⟩) ∨
          ((dspWifiStoreCredentials nvs r ssid password).1 ≠ .ok ∧ ∀ half : Half,
            half.held (dspWifiStoreCredentials nvs r ssid password).2 = some (half.of s p) ∨
              half.held (dspWifiStoreCredentials nvs r ssid password).2 = half.held nvs)) := by
  unfold dspWifiStoreCredentials
  cases hgiven : ssid.filter fun s => s.bytes.headD 0 ≠ 0 with
  | none => exact .inl ⟨by simp, rfl⟩
  | some s =>
    obtain ⟨hssid, hhead⟩ := Option.filter_eq_some_iff.mp hgiven
    have hs : s ≠ .empty := (headD_ne_zero_iff s).mp (of_decide_eq_true hhead)
    cases password with
    | none => exact .inl ⟨by simp, rfl⟩
    | some p =>
      by_cases hopen : r.opened = .ok
      · refine .inr ⟨s, p, hssid, rfl, hs, hopen, ?_⟩
        by_cases hset : r.setSsid = .ok
        · by_cases hpass : r.setPass = .ok
          · by_cases hcommit : r.commit = .ok
            · exact .inl (by simp [hopen, hset, hpass, hcommit])
            · refine .inr ⟨by simp [hopen, hset, hpass, hcommit], fun half => ?_⟩
              cases half with
              | ssid => cases r.ssidKept <;> simp [Half.held, Half.of, hopen, hset, hpass, hcommit]
              | pass => cases r.passKept <;> simp [Half.held, Half.of, hopen, hset, hpass, hcommit]
          · refine .inr ⟨by simp [hopen, hset, hpass], fun half => ?_⟩
            cases half with
            | ssid => cases r.ssidKept <;> simp [Half.held, Half.of, hopen, hset, hpass]
            | pass => cases r.passKept <;> simp [Half.held, Half.of, hopen, hset, hpass]
        · refine .inr ⟨by simp [hopen, hset], fun half => ?_⟩
          cases half with
          | ssid => cases r.ssidKept <;> simp [Half.held, Half.of, hopen, hset]
          | pass => exact .inr (by simp [Half.held, hopen, hset])
      · exact .inl (by simp [hopen])

theorem init_nvs (nvs : Nvs) (settings : Settings) (b : BootResults)
    (cfg : Option WifiConfig) :
    (dspWifiInit nvs settings b cfg).2 = (nvsFlashInit nvs b).2 := by
  unfold dspWifiInit
  by_cases hinit : (nvsFlashInit nvs b).1 = .ok
  · cases cfg.filter fun cfg => cfg.ssid.bytes.headD 0 ≠ 0 with
    | some cfg => simp [hinit]
    | none =>
      simp only [hinit, ne_eq, not_true_eq_false, if_false]
      split_ifs <;> rfl
  · simp [hinit]

/-- A boot makes no store, or one into what the flash holds by then. -/
theorem appMain_cases (nvs : Nvs) (settings : Settings) (b : BootResults) (r : StoreResults)
    (provision : Option (CStr × CStr)) :
    ((appMain nvs settings b r provision).1.stored = none ∧
        (appMain nvs settings b r provision).2 = (nvsFlashInit nvs b).2) ∨
      ∃ s p, provision = some (s, p) ∧
        (appMain nvs settings b r provision).1.stored =
          some (dspWifiStoreCredentials (nvsFlashInit nvs b).2 r (some s) (some p)).1 ∧
        (appMain nvs settings b r provision).2 =
          (dspWifiStoreCredentials (nvsFlashInit nvs b).2 r (some s) (some p)).2 := by
  unfold appMain
  cases provision with
  | none => exact .inl ⟨rfl, init_nvs _ _ _ _⟩
  | some offer =>
    obtain ⟨s, p⟩ := offer
    by_cases hinit : (dspWifiInit nvs settings b (some (provisionCfg s p))).1.1 = .ok
    · refine .inr ⟨s, p, rfl, ?_, ?_⟩
      · simp [hinit, init_nvs]
      · simp [hinit, init_nvs]
    · exact .inl ⟨by simp [hinit], by simp [hinit, init_nvs]⟩

variable (settings : Settings)

theorem step_cases (nvs : Nvs) (a : Event) :
    ((step settings nvs a).1.stored ≠ some .ok ∧ (step settings nvs a).2 = found nvs a) ∨
      ∃ s p, Offers (a, (step settings nvs a).1) s p ∧
        (((step settings nvs a).1.stored = some .ok ∧
            (step settings nvs a).2 = ⟨some s, some p⟩) ∨
          ((step settings nvs a).1.stored ≠ some .ok ∧ ∀ half : Half,
            half.held (step settings nvs a).2 = some (half.of s p) ∨
              half.held (step settings nvs a).2 = half.held (found nvs a))) := by
  cases a with
  | store ssid password r =>
    rcases store_cases nvs r ssid password with
      ⟨herr, hnvs⟩ | ⟨s, p, rfl, rfl, hs, hopen, hcases⟩
    · exact .inl ⟨fun h => herr (Option.some.inj h), hnvs⟩
    · refine .inr ⟨s, p, ⟨rfl, hs, rfl, hopen⟩, ?_⟩
      rcases hcases with ⟨hok, hnvs⟩ | ⟨herr, hnvs⟩
      · exact .inl ⟨congrArg some hok, hnvs⟩
      · exact .inr ⟨fun h => herr (Option.some.inj h), hnvs⟩
  | boot provision b r =>
    rcases appMain_cases nvs settings b r provision with
      ⟨hnone, hnvs⟩ | ⟨s, p, rfl, hstored, hnvs⟩
    · refine .inl ⟨?_, hnvs⟩
      intro h
      rw [show (step settings nvs (.boot provision b r)).1.stored = none from hnone] at h
      cases h
    · rcases store_cases (nvsFlashInit nvs b).2 r (some s) (some p) with
        ⟨herr, hkept⟩ | ⟨s', p', hs', hp', hs, hopen, hcases⟩
      · refine .inl ⟨?_, hnvs.trans hkept⟩
        intro h
        exact herr (Option.some.inj (hstored.symm.trans h))
      · obtain rfl := Option.some.inj hs'
        obtain rfl := Option.some.inj hp'
        refine .inr ⟨s, p, ⟨rfl, hs, Option.isSome_of_eq_some hstored, hopen⟩, ?_⟩
        rcases hcases with ⟨hok, hwritten⟩ | ⟨herr, hhalves⟩
        · exact .inl ⟨hstored.trans (congrArg some hok), hnvs.trans hwritten⟩
        · refine .inr ⟨fun h => herr (Option.some.inj (hstored.symm.trans h)), fun half => ?_⟩
          have hheld := congrArg half.held hnvs
          exact (hhalves half).imp hheld.trans hheld.trans

/-! ## Lives from the factory on -/

variable {settings : Settings}

/-- A string that was there before and is not overwritten is still there. -/
theorem found_held {half : Half} {nvs : Nvs} {a : Event} {v : CStr}
    (h : half.held (found nvs a) = some v) : ¬ a.Erases ∧ half.held nvs = some v := by
  cases a with
  | store ssid password r => exact ⟨not_false, h⟩
  | boot provision b r => exact flashInit_held h

theorem found_kept {a : Event} (h : ¬ a.Formats) (nvs : Nvs) : found nvs a = nvs := by
  cases a with
  | store ssid password r => rfl
  | boot provision b r => exact congrArg Prod.snd (flashInit_kept h nvs)

theorem held_backed (half : Half) (es : List Event) {v : CStr}
    (hv : half.held (final (step settings) .erased es) = some v) :
    Backed (Wrote half) Settles (trace (step settings) .erased es) v := by
  refine trace_backed ?_ es (by cases half <;> rfl) hv
  intro nvs a v hv
  rcases step_cases settings nvs a with
    ⟨hstored, hnvs⟩ | ⟨s, p, hoffer, ⟨-, hnvs⟩ | ⟨hstored, hhalves⟩⟩
  · rw [hnvs] at hv
    obtain ⟨he, hold⟩ := found_held hv
    exact .inr ⟨hold, not_or.mpr ⟨he, hstored⟩⟩
  · refine .inl ⟨s, p, hoffer, ?_⟩
    rw [hnvs] at hv
    cases half <;> exact Option.some.inj hv
  · rcases hhalves half with hnew | hkept
    · rw [hnew] at hv
      exact .inl ⟨s, p, hoffer, Option.some.inj hv⟩
    · rw [hkept] at hv
      obtain ⟨he, hold⟩ := found_held hv
      exact .inr ⟨hold, not_or.mpr ⟨he, hstored⟩⟩

/-- A success leaves the two strings it was given. -/
theorem stores_leaves {s p : CStr} (nvs : Nvs) (a : Event)
    (h : Stores (a, (step settings nvs a).1) s p) :
    (step settings nvs a).2 = ⟨some s, some p⟩ := by
  rcases step_cases settings nvs a with
    ⟨hstored, -⟩ | ⟨s', p', hoffer, ⟨-, hnvs⟩ | ⟨hstored, -⟩⟩
  · exact absurd h.2 hstored
  · have hsame := hoffer.1.symm.trans h.1.1
    rw [Option.some.injEq, Prod.mk.injEq] at hsame
    rw [hnvs, hsame.1, hsame.2]
  · exact absurd h.2 hstored

theorem untouched (nvs : Nvs) (a : Event) (h : ¬ Touches (a, (step settings nvs a).1)) :
    (step settings nvs a).2 = nvs := by
  obtain ⟨hformats, hoffers⟩ := not_or.mp h
  rcases step_cases settings nvs a with ⟨-, hnvs⟩ | ⟨s, p, hoffer, -⟩
  · rw [hnvs, found_kept hformats]
  · exact absurd ⟨s, p, hoffer⟩ hoffers

/-- The strings of the last success are there until something touches them. -/
theorem final_of_stores {es : List Event} {pre post : List (Event × Answer)}
    {e : Event × Answer} {s p : CStr}
    (htrace : trace (step settings) .erased es = pre ++ e :: post) (he : Stores e s p)
    (hpost : ∀ x ∈ post, ¬ Touches x) :
    final (step settings) .erased es = ⟨some s, some p⟩ := by
  refine final_of_kept (fun e => Stores e s p) (fun e => ¬ Touches e)
    (P := fun nvs => nvs = ⟨some s, some p⟩) stores_leaves ?_ es htrace he hpost
  intro nvs a hkeep hnvs
  exact (untouched nvs a hkeep).trans hnvs

/-- Where no store fails half way the strings that are left come from one success. -/
theorem whole_backed (es : List Event)
    (hwhole : ∀ e ∈ trace (step settings) .erased es, ∀ s p, Offers e s p → Stores e s p) :
    (∀ half : Half, half.held (final (step settings) .erased es) = none) ∨ ∃ s p,
      (∀ half : Half, ∀ v, half.held (final (step settings) .erased es) = some v →
        v = half.of s p) ∧
      Backed (fun e v => Stores e v.1 v.2) Settles (trace (step settings) .erased es) (s, p) := by
  refine trace_invariant (P := fun h nvs => (∀ e ∈ h, ∀ s p, Offers e s p → Stores e s p) →
    (∀ half : Half, half.held nvs = none) ∨ ∃ s p,
      (∀ half : Half, ∀ v, half.held nvs = some v → v = half.of s p) ∧
      Backed (fun e v => Stores e v.1 v.2) Settles h (s, p)) ?_ es
    (fun _ => .inl fun half => by cases half <;> rfl) hwhole
  intro h nvs a hP hall
  rcases step_cases settings nvs a with ⟨hstored, hnvs⟩ | ⟨s, p, hoffer, hcases⟩
  · by_cases hnone : ∀ half : Half, half.held (found nvs a) = none
    · exact .inl (hnvs ▸ hnone)
    · obtain ⟨half, hheld⟩ := not_forall.mp hnone
      obtain ⟨v, hv⟩ := Option.ne_none_iff_exists'.mp hheld
      obtain ⟨he, hv⟩ := found_held hv
      have hbefore := hP fun e hin => hall e (List.mem_append_left _ hin)
      rcases hbefore with hempty | ⟨s, p, hpair, hbacked⟩
      · rw [hempty half] at hv
        cases hv
      · refine .inr ⟨s, p, ?_, backed_keep hbacked (not_or.mpr ⟨he, hstored⟩)⟩
        intro half v hv
        rw [hnvs] at hv
        exact hpair half v (found_held hv).2
  · have hstores := hall _ (List.mem_append_right _ (List.mem_singleton_self _)) s p hoffer
    refine .inr ⟨s, p, ?_, backed_write hstores⟩
    intro half v hv
    rw [stores_leaves nvs a hstores] at hv
    cases half <;> exact (Option.some.inj hv).symm

/-- What `app_main` makes of the history: without given strings a boot configures only
strings that a store was begun with and that no later success or erasure has replaced,
the two of one store where none has failed once NVS was open. On a flash that is ready it
configures the strings of the last success whole, or nothing if they are too long. -/
theorem boot_configures (settings : Settings) (es : List Event) (b : BootResults)
    (r : StoreResults) :
    let h := trace (step settings) .erased es
    let boot := (appMain (final (step settings) .erased es) settings b r none).1
    (∀ sta, boot.sta = some sta → ∃ s p, sta = station s p ∧ s.length < 32 ∧ p.length < 64 ∧
      s ≠ .empty ∧ Backed (Wrote .ssid) Settles h s ∧ Backed (Wrote .pass) Settles h p ∧
      ((∀ e ∈ h, ∀ s p, Offers e s p → Stores e s p) →
        Backed (fun e v => Stores e v.1 v.2) Settles h (s, p))) ∧
    ∀ pre e post s p, h = pre ++ e :: post → Stores e s p → (∀ x ∈ post, ¬ Touches x) →
      Ready b → boot = if s.length < 32 ∧ p.length < 64 then
        ⟨.ok, some (station s p), settings, none⟩ else ⟨.notFound, none, settings, none⟩ := by
  refine ⟨?_, ?_⟩
  · intro sta hsta
    obtain ⟨s, p, ⟨hnvs, hs, hp⟩, rfl⟩ := init_sta hsta
    have hssid := held_backed .ssid es (v := s) (by rw [hnvs]; rfl)
    have hpass := held_backed .pass es (v := p) (by rw [hnvs]; rfl)
    refine ⟨s, p, rfl, hs, hp, ?_, hssid, hpass, ?_⟩
    · obtain ⟨-, e, -, -, ⟨s', p', hoffer, rfl⟩, -⟩ := hssid
      exact hoffer.2.1
    · intro hwhole
      rcases whole_backed es hwhole with hnone | ⟨s', p', hpair, hbacked⟩
      · have hssid := hnone .ssid
        rw [hnvs] at hssid
        cases hssid
      · rw [hnvs] at hpair
        obtain rfl : s = s' := hpair .ssid s rfl
        obtain rfl : p = p' := hpair .pass p rfl
        exact hbacked
  · intro pre e post s p htrace he hpost hb
    have hnvs := final_of_stores htrace he hpost
    simp only [appMain, init_ready hb hnvs]
    split_ifs <;> rfl

/-- A flash that does what it is asked. -/
def bootWorks : BootResults := ⟨.ok, .ok, false, false, .ok, .ok, .ok, .ok⟩

def storeWorks : StoreResults := ⟨.ok, .ok, .ok, .ok, true, true⟩

theorem storeThenBoot_configures :
    (appMain (final (step ⟨5, 1000⟩) .erased
        [.store (some (.lit "field")) (some (.lit "secret")) storeWorks])
      ⟨5, 1000⟩ bootWorks storeWorks none).1 =
        ⟨.ok, some (station (.lit "field") (.lit "secret")), ⟨5, 1000⟩, none⟩ :=
  (boot_configures _ _ _ _).2 [] _ [] (.lit "field") (.lit "secret") rfl
    ⟨⟨rfl, by decide +kernel, rfl, rfl⟩, rfl⟩ (by simp) ⟨rfl, rfl, rfl, rfl⟩

/-- A store that is cut off between the strings leaves two that were never one network. -/
example :
    (appMain (final (step ⟨5, 1000⟩) .erased
        [.store (some (.lit "field")) (some (.lit "secret")) storeWorks,
          .store (some (.lit "barn")) (some (.lit "hidden")) ⟨.ok, .ok, .fail, .ok, true, false⟩])
      ⟨5, 1000⟩ bootWorks storeWorks none).1.sta =
        some (station (.lit "barn") (.lit "secret")) := by
  decide +kernel

/-! ## Provisioning -/

theorem headD_str {cap : Nat} (b : CharBuf cap) : b.bytes.headD 0 ≠ 0 ↔ b.str ≠ .empty := by
  obtain ⟨bytes, hlen⟩ := b
  cases bytes with
  | nil => simp [CharBuf.str, CStr.ofBytes, CStr.empty]
  | cons c cs => by_cases hc : c = 0 <;> simp [CharBuf.str, CStr.ofBytes, CStr.empty, hc]

theorem provisionCfg_eq (s p : CStr) :
    provisionCfg s p =
      ⟨.ofStr dspWifiSsidMaxLen (s.take 31), .ofStr dspWifiPassMaxLen (p.take 63), 0, 0⟩ := by
  rw [provisionCfg, strncpy_zero (by decide), strncpy_zero (by decide)]

/-- The settings of the build stay, as the given configuration has none. -/
theorem init_provision {nvs : Nvs} (settings : Settings) {b : BootResults} {s p : CStr}
    (hs : s ≠ .empty) (hinit : (nvsFlashInit nvs b).1 = .ok) :
    (dspWifiInit nvs settings b (some (provisionCfg s p))).1 =
      (.ok, some (station (s.take 31) (p.take 63)), settings) := by
  have hssid : (CharBuf.ofStr dspWifiSsidMaxLen (s.take 31)).str = s.take 31 :=
    CharBuf.str_ofStr (Nat.lt_succ_of_le (s.length_take_le 31))
  have hpass : (CharBuf.ofStr dspWifiPassMaxLen (p.take 63)).str = p.take 63 :=
    CharBuf.str_ofStr (Nat.lt_succ_of_le (p.length_take_le 63))
  have hne : s.take 31 ≠ .empty := by
    intro h
    apply hs
    apply CStr.ext_bytes
    have hbytes := congrArg CStr.bytes h
    simpa [CStr.empty, List.take_eq_nil_iff] using hbytes
  have hgiven : (some (provisionCfg s p)).filter (fun cfg => cfg.ssid.bytes.headD 0 ≠ 0) =
      some (provisionCfg s p) := by
    rw [Option.filter_some, if_pos]
    rw [provisionCfg_eq, decide_eq_true_eq, headD_str, hssid]
    exact hne
  unfold dspWifiInit
  simp only [hinit, hgiven, ne_eq, not_true_eq_false, if_false]
  rw [provisionCfg_eq]
  simp only [hssid, hpass, staConfig_eq]
  rw [CStr.take_of_length_le (s.length_take_le 31), CStr.take_of_length_le (p.length_take_le 63)]
  simp

/-- A boot with given strings that has stored them has configured their first 31 and 63
bytes. -/
theorem provision_sta {nvs : Nvs} {settings : Settings} {b : BootResults} {r : StoreResults}
    {s p : CStr} (h : (appMain nvs settings b r (some (s, p))).1.stored = some .ok) :
    s ≠ .empty ∧ r.opened = .ok ∧ (appMain nvs settings b r (some (s, p))).1 =
      ⟨.ok, some (station (s.take 31) (p.take 63)), settings, some .ok⟩ := by
  rcases appMain_cases nvs settings b r (some (s, p)) with ⟨hnone, -⟩ | ⟨s', p', hsame, hstored, -⟩
  · rw [hnone] at h
    cases h
  · obtain ⟨rfl, rfl⟩ := Prod.mk.inj (Option.some.inj hsame)
    rw [hstored] at h
    rcases store_cases (nvsFlashInit nvs b).2 r (some s) (some p) with
      ⟨herr, -⟩ | ⟨s', -, hs', -, hs, hopen, -⟩
    · exact absurd (Option.some.inj h) herr
    · obtain rfl := Option.some.inj hs'
      refine ⟨hs, hopen, ?_⟩
      have hinit : (nvsFlashInit nvs b).1 = .ok := by
        by_contra hfail
        have hnone : (appMain nvs settings b r (some (s, p))).1.stored = none := by
          simp [appMain, dspWifiInit, hfail]
        rw [hnone] at hstored
        cases hstored
      have hboot := init_provision settings hs hinit (p := p)
      simp only [appMain, hboot, init_nvs, ne_eq, not_true_eq_false, if_false, h]

theorem trace_provision_sta {settings : Settings} (es : List Event) {s p : CStr}
    {b : BootResults} {r : StoreResults} {first : Boot}
    (hin : (.boot (some (s, p)) b r, .boot first) ∈ trace (step settings) .erased es)
    (hstored : first.stored = some .ok) :
    s ≠ .empty ∧ r.opened = .ok ∧
      first = ⟨.ok, some (station (s.take 31) (p.take 63)), settings, some .ok⟩ := by
  have hall : ∀ e ∈ trace (step settings) .erased es, ∀ s p b r first,
      e = (.boot (some (s, p)) b r, .boot first) → first.stored = some .ok →
        s ≠ .empty ∧ r.opened = .ok ∧
          first = ⟨.ok, some (station (s.take 31) (p.take 63)), settings, some .ok⟩ := by
    refine trace_forall ?_ es _
    intro nvs a s p b r first he hok
    obtain ⟨rfl, hanswer⟩ := Prod.mk.inj he
    obtain rfl := Answer.boot.inj hanswer
    exact provision_sta hok
  exact hall _ hin s p b r first rfl hstored

/-- After a boot that was given two strings and has stored them, a plain boot on a flash
that is ready configures the same if and only if both fit; otherwise it joins nothing,
where the boot before had gone on with the strings cut off. -/
theorem provisioned_boot_agrees (settings : Settings) (es : List Event) (b : BootResults)
    (r : StoreResults) :
    let h := trace (step settings) .erased es
    let boot := (appMain (final (step settings) .erased es) settings b r none).1
    ∀ pre post s p b' r' first, h = pre ++ (.boot (some (s, p)) b' r', .boot first) :: post →
      first.stored = some .ok → (∀ x ∈ post, ¬ Touches x) → Ready b →
      first.sta = some (station (s.take 31) (p.take 63)) ∧
        (boot.sta = first.sta ↔ s.length < 32 ∧ p.length < 64) ∧
        (boot.sta ≠ first.sta → boot = ⟨.notFound, none, settings, none⟩) := by
  intro h boot pre post s p b' r' first htrace hstored hpost hb
  have hentry : s ≠ .empty ∧ r'.opened = .ok ∧
      first = ⟨.ok, some (station (s.take 31) (p.take 63)), settings, some .ok⟩ := by
    have hin : (.boot (some (s, p)) b' r', .boot first) ∈ h := by
      rw [htrace]
      exact List.mem_append_right _ List.mem_cons_self
    exact trace_provision_sta es hin hstored
  obtain ⟨hs, hopen, rfl⟩ := hentry
  have hnvs := final_of_stores (s := s) (p := p) htrace ⟨⟨rfl, hs, rfl, hopen⟩, rfl⟩ hpost
  by_cases hfit : s.length < 32 ∧ p.length < 64
  · have hboot : boot = ⟨.ok, some (station s p), settings, none⟩ := by
      simp only [boot, appMain, init_ready hb hnvs, if_pos hfit]
    have hsame : boot.sta = some (station (s.take 31) (p.take 63)) := by
      rw [hboot, CStr.take_of_length_le (by omega), CStr.take_of_length_le (by omega)]
    exact ⟨rfl, iff_of_true hsame hfit, fun hne => absurd hsame hne⟩
  · have hboot : boot = ⟨.notFound, none, settings, none⟩ := by
      simp only [boot, appMain, init_ready hb hnvs, if_neg hfit]
    refine ⟨rfl, iff_of_false ?_ hfit, fun _ => hboot⟩
    rw [hboot]
    simp

theorem provisionThenBoot_agrees :
    let first := appMain .erased ⟨5, 1000⟩ bootWorks storeWorks
      (some (.lit "field", .lit "secret"))
    (appMain first.2 ⟨5, 1000⟩ bootWorks storeWorks none).1.sta = first.1.sta :=
  ((provisioned_boot_agrees ⟨5, 1000⟩
    [.boot (some (.lit "field", .lit "secret")) bootWorks storeWorks] _ _ [] [] (.lit "field")
    (.lit "secret") _ _ _ rfl (by decide +kernel) (by simp) ⟨rfl, rfl, rfl, rfl⟩).2.1).mpr
    (by decide +kernel)

end DspEmbedded.Audit.Credentials
