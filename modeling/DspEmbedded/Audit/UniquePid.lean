import DspEmbedded.Model.Board
import Mathlib.Data.List.Nodup

/-!
# Which runs keep one slot for each process id

The offers handler does not look for an existing negotiation before it creates
one. A run keeps the consumer ids of the table distinct exactly when every offer
that gets as far as the table finds it full or brings an id no slot holds.
-/
namespace DspEmbedded.Audit.UniquePid

open Lib.CString Lib.Runs Lib.SlotTable Model Model.Esp Model.Neg Model.RtcState Model.Board

variable {negMax xferMax : Nat}

/-- No two distinct active slots hold the same consumer id. -/
def UniquePids (m : NegModule negMax) : Prop :=
  ∀ i j : Int, i ≠ j → dspNegIsActive m i = true → dspNegIsActive m j = true →
    dspNegGetConsumerPid m i ≠ dspNegGetConsumerPid m j

/-- The offers of a run that keep ids distinct: none with an acceptable id, no
free slot, or a new id. -/
def FreshOffer (d : Device negMax xferMax) (a : Endpoint × HttpdReq) : Prop :=
  a.1 = .offers → ∀ p, offersProcessId a.2 = some p →
    dspNegCountActive d.neg = negMax ∨ dspNegFindByCpid d.neg (some p) = -1

theorem uniquePids_iff {m : NegModule negMax} (hw : Neg.WellFormed m) :
    UniquePids m ↔ ((Neg.ledger m).map NegEntry.cpid).Nodup := by
  rw [List.nodup_iff_getElem?_ne_getElem?]
  constructor
  · intro h i j hij hj
    rw [List.length_map] at hj
    have hi : i < (Neg.ledger m).length := hij.trans hj
    have hgi := List.getElem?_eq_getElem hi
    have hgj := List.getElem?_eq_getElem hj
    have hne := h i j (by omega) ((isActive_iff hw _).mpr ⟨i, _, rfl, hgi⟩)
      ((isActive_iff hw _).mpr ⟨j, _, rfl, hgj⟩)
    rw [getConsumerPid_of_ledger hgi, getConsumerPid_of_ledger hgj] at hne
    simpa only [List.getElem?_map, hgi, hgj, Option.map_some] using hne
  · intro h i j hij hi hj
    obtain ⟨i, e, rfl, he⟩ := (isActive_iff hw i).mp hi
    obtain ⟨j, e', rfl, he'⟩ := (isActive_iff hw j).mp hj
    rw [getConsumerPid_of_ledger he, getConsumerPid_of_ledger he']
    have hlt : ∀ {k : Nat} {x : NegEntry}, (Neg.ledger m)[k]? = some x →
        k < ((Neg.ledger m).map NegEntry.cpid).length := by
      intro k x hk
      rw [List.length_map]
      exact (List.getElem?_eq_some_iff.mp hk).1
    rcases Nat.lt_or_gt_of_ne (fun heq => hij (congrArg Int.ofNat heq) : i ≠ j) with hlt' | hgt'
    · have hne := h i j hlt' (hlt he')
      simpa only [List.getElem?_map, he, he', Option.map_some] using hne
    · have hne := h j i hgt' (hlt he)
      rw [List.getElem?_map, List.getElem?_map, he, he', Option.map_some, Option.map_some] at hne
      exact hne.symm

theorem find_neg_one_iff {m : NegModule negMax} (hw : Neg.WellFormed m) (p : CStr) :
    dspNegFindByCpid m (some p) = -1 ↔ p ∉ (Neg.ledger m).map NegEntry.cpid := by
  rw [find_eq_neg_one_iff hw, stateOf, Option.map_eq_none_iff, findNeg, lookup_eq_none_iff]

/-- No request but an offer touches the list of ids. -/
theorem map_cpid_effect {d d' : Device negMax xferMax} {req : HttpdReq} {endpoint : Endpoint}
    {resp : Response} (h : Effect d req endpoint resp d') (hne : endpoint ≠ .offers) :
    (Neg.ledger d'.neg).map NegEntry.cpid = (Neg.ledger d.neg).map NegEntry.cpid := by
  cases h with
  | offered => exact absurd rfl hne
  | negotiated _ _ hget _ _ hl =>
    simp only [hl]
    exact map_key_set NegEntry.cpid hget rfl
  | _ => rfl

/-- One request keeps the ids distinct exactly when it is no duplicate offer. -/
theorem uniquePids_step {d : Device negMax xferMax} (hw : Board.WellFormed d)
    (a : Endpoint × HttpdReq) (hu : UniquePids d.neg) :
    UniquePids (serveOne d a).2.neg ↔ FreshOffer d a := by
  have hn := hw.neg
  have hn' := (serve_wellFormed hw a.1 a.2).neg
  have hnodup := (uniquePids_iff hn).mp hu
  obtain ⟨endpoint, req⟩ := a
  by_cases hep : endpoint = .offers
  · subst hep
    rcases offers_cases hn req with ⟨hwhy, -, hm⟩ | ⟨p, m', hreq, hlt, heq, hw', -, hl⟩
    · constructor
      · intro _ _ p hp
        rcases hwhy with hnone | hfull
        · simp only at hp
          rw [hnone] at hp
          cases hp
        · left
          rw [countActive_eq hn]
          have hle := length_ledger_le d.neg
          omega
      · intro _
        simpa only [serveOne, serve, hm] using hu
    · simp only [serveOne, serve, heq]
      have hid : (offeredEntry p).cpid = p := offeredEntry_cpid (offersProcessId_length hreq).2
      rw [uniquePids_iff hw', hl, List.map_append, List.map_singleton, hid]
      constructor
      · intro h _ q hq
        right
        obtain rfl : p = q := Option.some.inj (hreq.symm.trans hq)
        rw [find_neg_one_iff hn]
        intro hmem
        exact (List.nodup_append.mp h).2.2 p hmem p (by simp) rfl
      · intro h
        rcases h rfl p hreq with hfull | hfresh
        · rw [countActive_eq hn] at hfull
          omega
        · rw [find_neg_one_iff hn] at hfresh
          rw [List.nodup_append]
          refine ⟨hnodup, List.nodup_singleton p, ?_⟩
          intro x hx y hy hxy
          rw [hxy, List.mem_singleton.mp hy] at hx
          exact hfresh hx
  · have hmap := map_cpid_effect (serve_effect hw endpoint req) hep
    rw [serveOne, uniquePids_iff hn', hmap]
    exact iff_of_true hnodup fun h => absurd h hep

/-- **Distinct ids along a run.** Every state of a run from power-on has distinct
consumer ids exactly when every offer of the run is fresh. -/
theorem uniquePids_always_iff (store : RtcStore negMax xferMax) (notify : Bool)
    (as : List (Endpoint × HttpdReq)) :
    Always serveOne (fun d => UniquePids d.neg) (boot store notify) as ↔
      Along serveOne FreshOffer (boot store notify) as := by
  apply always_iff_along (I := Board.WellFormed)
  · exact fun d a hw => serve_wellFormed hw a.1 a.2
  · exact fun d a hw hu => uniquePids_step hw a hu
  · exact boot_wellFormed store notify
  · rw [uniquePids_iff (boot_wellFormed store notify).neg]
    have hempty : Neg.ledger (boot store notify).neg = [] := Neg.ledger_fill true
    rw [hempty]
    exact List.nodup_nil

/-- The same offer sent twice fills two slots with one id. -/
theorem duplicate_offer_counterexample :
    ¬ Always serveOne (fun d => UniquePids d.neg) (boot (RtcStore.zero 4 2) false)
      [(.offers, offerRequest), (.offers, offerRequest)] := by
  intro hboth
  obtain ⟨-, -, h⟩ := hboth
  exact h 0 1 (by decide) (by decide +kernel) (by decide +kernel) (by decide +kernel)

end DspEmbedded.Audit.UniquePid
