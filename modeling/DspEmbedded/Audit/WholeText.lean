import DspEmbedded.CJson.Conforming
import DspEmbedded.Audit.Delivery
import DspEmbedded.Audit.Schema

/-!
# What stands behind a message

`dsp_json_parse` calls `cJSON_Parse`, which is content with a value at the start
of the text. A body that is let pass is therefore one JSON text only if it happens
to end with its first value, and the parser is lenient in front of the value and
inside it as well.
-/
namespace DspEmbedded.Audit.WholeText

open Lib.CString Lib.JsonText CJson Model Model.Esp Model.Json Model.Msg Model.Board
open Audit.Delivery Audit.Schema

/-- A validator answers OK, or one of the two negotiation handlers that parse a body
on their own receives it and does not answer that it is no JSON. -/
inductive Accepted (body : CStr) : Prop where
  | validator (v : Validator) (h : v.run (some body) = .ok)
  | handler {negMax xferMax : Nat} (d : Device negMax xferMax) (w : Post)
      (hw : w = .offers ∨ w = .terminate) (req : HttpdReq)
      (hbody : recvBody req w.bufSize = some body)
      (h : (post d w req).1 ≠ httpdRespSendErr .badRequest "invalid JSON")

/-- The body is a JSON text: a value in the notation of RFC 8259 with white space
around it. -/
def Whole (body : CStr) : Prop := ∃ t : Text, body.bytes = t.bytes

/-- The white space of RFC 8259. -/
def JsonWs (w : List UInt8) : Prop := ∀ b ∈ w, b = 32 ∨ b = 9 ∨ b = 10 ∨ b = 13

/-- The notation of RFC 8259. -/
def Conforming (value : List UInt8) : Prop := ∃ v : Value, value = bytesOf (v.toks [])

/-- Cut around the first value, the body has white space on both sides of it, and the
value keeps to the notation. -/
def CleanCut (body : CStr) : Prop :=
  ∀ front value back, FirstValue body front value back →
    JsonWs front ∧ Conforming value ∧ JsonWs back

variable {body : CStr}

theorem parsed_of_accepted (h : Accepted body) : cJSONParse body ≠ none := by
  cases h with
  | validator v h =>
    obtain ⟨obj, hobj, -⟩ := accepted_type h
    show dspJsonParse (some body) ≠ none
    rw [hobj]
    simp
  | handler d w hw req hbody h =>
    intro hnone
    have hrefused := post_refused d w hbody (not_accepts_of_unparsed hnone w)
    apply h
    rw [hrefused]
    rcases hw with rfl | rfl <;> rfl

theorem jsonWs_spaces (ws : List Ws) : JsonWs (bytesOf (spaceToks ws)) := by
  intro b hb
  obtain ⟨tok, htok, hb⟩ := List.mem_flatMap.mp hb
  obtain ⟨w, -, rfl⟩ := List.mem_map.mp htok
  obtain rfl := List.mem_singleton.mp hb
  cases w <;> decide

theorem exists_spaces {w : List UInt8} (h : JsonWs w) : ∃ ws, w = bytesOf (spaceToks ws) := by
  induction w with
  | nil => exact ⟨[], rfl⟩
  | cons b w ih =>
    obtain ⟨ws, rfl⟩ := ih fun b hb => h b (List.mem_cons_of_mem _ hb)
    rcases h b List.mem_cons_self with rfl | rfl | rfl | rfl
    · exact ⟨.space :: ws, rfl⟩
    · exact ⟨.tab :: ws, rfl⟩
    · exact ⟨.lineFeed :: ws, rfl⟩
    · exact ⟨.carriageReturn :: ws, rfl⟩

theorem text_bytes (t : Text) :
    t.bytes = bytesOf (spaceToks t.before) ++
      (bytesOf (t.value.toks []) ++ bytesOf (spaceToks t.after)) := by
  rw [Text.bytes, Text.toks, bytesOf_append, bytesOf_value]

/-- The first value of a JSON text is its value. -/
theorem firstValue_of_text {t : Text} (h : body.bytes = t.bytes) :
    FirstValue body (bytesOf (spaceToks t.before)) (bytesOf (t.value.toks []))
      (bytesOf (spaceToks t.after)) where
  bytes_eq := by rw [h, text_bytes]
  skipped := ⟨[], _, rfl, .inl rfl, blank_spaces t.before⟩
  derived := isValue_value t.value
    ((blank_spaces t.after).delimited (delimited_cons (by decide) []))

theorem cleanCut_of_whole (hparse : cJSONParse body ≠ none) (h : Whole body) :
    CleanCut body := by
  obtain ⟨t, ht⟩ := h
  intro front value back hfirst
  obtain ⟨rfl, rfl, rfl⟩ := hfirst.unique hparse (firstValue_of_text ht)
  exact ⟨jsonWs_spaces t.before, ⟨t.value, rfl⟩, jsonWs_spaces t.after⟩

theorem exists_firstValue_of_parsed (h : cJSONParse body ≠ none) :
    ∃ front value back, FirstValue body front value back := by
  obtain ⟨v, hv⟩ := Option.ne_none_iff_exists'.mp h
  obtain ⟨⟨v', after⟩, hcut, -⟩ := Option.map_eq_some_iff.mp hv
  obtain ⟨front, value, back, hfirst, -⟩ := exists_firstValue hcut
  exact ⟨front, value, back, hfirst⟩

/-- Where the parser finds a value, the cut around it shows whether the text is whole. -/
theorem whole_iff_cleanCut (hparse : cJSONParse body ≠ none) : Whole body ↔ CleanCut body := by
  constructor
  · exact cleanCut_of_whole hparse
  · intro hclean
    obtain ⟨front, value, back, hfirst⟩ := exists_firstValue_of_parsed hparse
    obtain ⟨hfront, ⟨v, rfl⟩, hback⟩ := hclean front value back hfirst
    obtain ⟨before, rfl⟩ := exists_spaces hfront
    obtain ⟨after, rfl⟩ := exists_spaces hback
    exact ⟨⟨before, v, after⟩, by rw [text_bytes, hfirst.bytes_eq]⟩

/-- **Whole texts.** A body that is let pass is one JSON text exactly when only JSON
white space stands in front of its first value and behind it, and the value keeps
to the notation of RFC 8259. -/
theorem accepted_whole_iff (body : CStr) (h : Accepted body) :
    Whole body ↔ CleanCut body := whole_iff_cleanCut (parsed_of_accepted h)

/-- A catalog request, and the same with one more letter behind it. -/
def catalogText : CStr :=
  CStr.lit "\x7b\"@context\":\"c\",\"@type\":\"dspace:CatalogRequestMessage\"\x7d"

def trailingText : CStr :=
  CStr.lit "\x7b\"@context\":\"c\",\"@type\":\"dspace:CatalogRequestMessage\"\x7dx"

theorem accepted_whole_catalog : Whole catalogText ↔ CleanCut catalogText :=
  accepted_whole_iff catalogText (.validator .catalogRequest (by decide +kernel))

/-- The letter behind the closing brace is not looked at. -/
theorem trailing_counterexample : ¬∀ body : CStr, Accepted body → Whole body := by
  intro hall
  have haccepted : Accepted trailingText := .validator .catalogRequest (by decide +kernel)
  have hclean := cleanCut_of_whole (parsed_of_accepted haccepted) (hall _ haccepted)
  have hrest : (parsePrefix trailingText).map (·.2) = some [120, 0] := by decide +kernel
  obtain ⟨⟨v, after⟩, hcut, rfl⟩ := Option.map_eq_some_iff.mp hrest
  obtain ⟨front, value, back, hfirst, hback⟩ := exists_firstValue hcut
  obtain rfl : [120] = back := List.append_cancel_right hback
  have hws := (hclean front value _ hfirst).2.2 120 (by simp)
  exact absurd hws (by decide)

end DspEmbedded.Audit.WholeText
