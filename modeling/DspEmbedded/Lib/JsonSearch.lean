import Mathlib.Data.List.TakeWhile
import DspEmbedded.Lib.JsonText
import DspEmbedded.Lib.Search

/-!
# A quoted name in a JSON text

Where a byte search for `"name"` stops in a text: at the strings that are spelled so,
and at those whose spelling ends in an escaped quote and the name. Quotes stand
nowhere else, and what follows a string never starts with a letter.
-/
namespace DspEmbedded.Lib.JsonSearch

open JsonText Search

/-! ## Bytes -/

def isAlnum (b : UInt8) : Bool :=
  (48 ≤ b && b ≤ 57) || (65 ≤ b && b ≤ 90) || (97 ≤ b && b ≤ 122)

/-- Letters and digits, at least one. -/
structure IsName (name : List UInt8) : Prop where
  ne_nil : name ≠ []
  alnum : ∀ b ∈ name, isAlnum b = true

theorem IsName.of_all {name : List UInt8} (hne : name ≠ []) (h : name.all isAlnum = true) :
    IsName name := ⟨hne, List.all_eq_true.mp h⟩

theorem IsName.not_mem {name : List UInt8} (h : IsName name) {b : UInt8} (hb : isAlnum b = false) :
    b ∉ name := by
  intro hmem
  rw [h.alnum b hmem] at hb
  cases hb

/-- Bytes of a character beyond ASCII are beyond ASCII. -/
theorem eq_of_mem_utf8 {c : Char} {b : UInt8} (h : b ∈ String.utf8EncodeChar c)
    (hb : b.toNat < 128) : c.toNat = b.toNat := by
  have hval : c.val.toNat = c.toNat := rfl
  simp only [String.utf8EncodeChar, hval] at h
  have hbyte : ∀ n : Nat, b = UInt8.ofNat n → b.toNat = n % 256 := by
    intro n hn
    rw [hn, UInt8.toNat_ofNat']
  split_ifs at h
  · have h1 := hbyte _ (List.mem_singleton.mp h)
    omega
  · simp only [List.mem_cons, List.not_mem_nil, or_false] at h
    rcases h with h | h <;> have h1 := hbyte _ h <;> omega
  · simp only [List.mem_cons, List.not_mem_nil, or_false] at h
    rcases h with h | h | h <;> have h1 := hbyte _ h <;> omega
  · simp only [List.mem_cons, List.not_mem_nil, or_false] at h
    rcases h with h | h | h | h <;> have h1 := hbyte _ h <;> omega

theorem notMem_bytes_plain {c : PlainChar} {b : UInt8} (hb : b = 34 ∨ b = 92) :
    b ∉ (Element.plain c).bytes := by
  intro h
  rcases hb with rfl | rfl
  · exact c.notQuote (eq_of_mem_utf8 h (by decide))
  · exact c.notBackslash (eq_of_mem_utf8 h (by decide))

theorem hexByte_ne (d : HexDigit) : d.byte ≠ 34 := by
  obtain ⟨v, upper⟩ := d
  revert v upper
  decide

@[simp] theorem raw_nil : raw [] = [] := rfl

@[simp] theorem raw_cons (e : Element) (s : Spelling) : raw (e :: s) = e.bytes ++ raw s := rfl

/-- Bytes without a quote in front are a part of what is searched. -/
theorem prefix_skip {bs : List UInt8} (h : 34 ∉ bs) (name more rest : List UInt8) :
    name ++ 34 :: more <+: bs ++ rest ↔
      ∃ name', name = bs ++ name' ∧ name' ++ 34 :: more <+: rest := by
  induction bs generalizing name with
  | nil => simp
  | cons b bs ih =>
    rw [List.mem_cons, not_or] at h
    cases name with
    | nil => simp [h.1]
    | cons a name =>
      rw [List.cons_append, List.cons_append, List.cons_prefix_cons, ih h.2]
      constructor
      · intro ⟨hab, name', hname, hrest⟩
        exact ⟨name', by rw [hab, hname, List.cons_append], hrest⟩
      · intro ⟨name', hname, hrest⟩
        obtain ⟨hab, hname⟩ := List.cons.inj hname
        exact ⟨hab, name', hname, hrest⟩

/-- A byte that the name cannot contain ends the reading. -/
theorem not_prefix_backslash {name : List UInt8} (h : 92 ∉ name) (more rest : List UInt8) :
    ¬ name ++ 34 :: more <+: 92 :: rest := by
  cases name with
  | nil => simp
  | cons a name =>
    intro hp
    obtain rfl : a = 92 := (List.cons_prefix_cons.mp hp).1
    exact h List.mem_cons_self

/-! ## One string -/

/-- The spelling ends in an escaped quote and the name. -/
def endsQuoted (name : List UInt8) : Spelling → Bool
  | [] => false
  | e :: s => (decide (e = .escape .quote) && raw s == name) || endsQuoted name s

/-- The name in quotes can be read at the end of the string. -/
def shows (name : List UInt8) (s : Spelling) : Bool := raw s == name || endsQuoted name s

/-- The name in quotes, and what has to follow. -/
def quoted (name more : List UInt8) : List UInt8 := 34 :: (name ++ 34 :: more)

section Name

variable {name : List UInt8}

/-- From the beginning of a spelling up to a quote only the whole of it is read. -/
theorem prefix_raw_iff (hquote : 34 ∉ name) (hslash : 92 ∉ name) (s : Spelling)
    (more rest : List UInt8) :
    name ++ 34 :: more <+: raw s ++ 34 :: rest ↔ raw s = name ∧ more <+: rest := by
  induction s generalizing name with
  | nil =>
    cases name with
    | nil => simp
    | cons b name =>
      have hb : b ≠ 34 := fun h => hquote (h ▸ List.mem_cons_self)
      simp [hb]
  | cons e s ih =>
    have hescape : ∀ bs, e.bytes = 92 :: bs →
        (name ++ 34 :: more <+: raw (e :: s) ++ 34 :: rest ↔
          raw (e :: s) = name ∧ more <+: rest) := by
      intro bs hbytes
      rw [raw_cons, hbytes]
      refine iff_of_false (not_prefix_backslash hslash more _) fun h => hslash ?_
      rw [← h.1]
      exact List.mem_cons_self
    cases e with
    | plain c =>
      rw [raw_cons, List.append_assoc, prefix_skip (notMem_bytes_plain (.inl rfl))]
      constructor
      · intro ⟨name', hname, hp⟩
        rw [hname, List.mem_append, not_or] at hquote hslash
        obtain ⟨hraw, hmore⟩ := (ih hquote.2 hslash.2).mp hp
        exact ⟨by rw [hraw, hname], hmore⟩
      · intro ⟨hname, hmore⟩
        rw [← hname, List.mem_append, not_or] at hquote hslash
        exact ⟨raw s, hname.symm, (ih hquote.2 hslash.2).mpr ⟨rfl, hmore⟩⟩
    | escape e => exact hescape [e.letter] rfl
    | unicode d0 d1 d2 d3 => exact hescape _ rfl

theorem prefix_quoted_iff (h : IsName name) (s : Spelling) (more rest : List UInt8) :
    quoted name more <+: 34 :: (raw s ++ 34 :: rest) ↔ raw s = name ∧ more <+: rest := by
  rw [quoted, List.cons_prefix_cons, prefix_raw_iff (h.not_mem (by decide)) (h.not_mem (by decide)),
    and_iff_right rfl]

/-- Behind a spelling that is the name itself comes what had to follow. -/
theorem drop_quoted {s : Spelling} (hs : raw s = name) (more rest : List UInt8) :
    (34 :: (raw s ++ 34 :: rest)).drop (quoted name more).length = rest.drop more.length := by
  rw [quoted, hs, List.length_cons, List.length_append, List.length_cons, List.drop_succ_cons,
    ← List.drop_drop, List.drop_left, List.drop_succ_cons]

/-- At the closing quote nothing is read, since no letter follows. -/
theorem behind_closing (h : IsName name) (more : List UInt8) {rest : List UInt8}
    (hrest : ∀ b ∈ rest.head?, isAlnum b = false) :
    behind (quoted name more) (34 :: rest) = behind (quoted name more) rest := by
  apply behind_cons
  rw [quoted, List.cons_prefix_cons]
  intro hpair
  have hp := hpair.2
  obtain ⟨a, name', rfl⟩ := List.exists_cons_of_ne_nil h.ne_nil
  cases rest with
  | nil => simp at hp
  | cons b rest =>
    obtain rfl : a = b := (List.cons_prefix_cons.mp hp).1
    have halnum := h.alnum a List.mem_cons_self
    rw [hrest a rfl] at halnum
    cases halnum

/-- The search inside a string, from behind its opening quote. -/
theorem behind_raw (h : IsName name) (s : Spelling) (more : List UInt8) {rest : List UInt8}
    (hrest : ∀ b ∈ rest.head?, isAlnum b = false) :
    behind (quoted name more) (raw s ++ 34 :: rest) =
      if endsQuoted name s = true ∧ more <+: rest then some (rest.drop more.length)
      else behind (quoted name more) rest := by
  induction s with
  | nil => simpa [endsQuoted] using behind_closing h more hrest
  | cons e s ih =>
    have hother : 34 ∉ e.bytes → e ≠ .escape .quote →
        behind (quoted name more) (raw (e :: s) ++ 34 :: rest) =
          if endsQuoted name (e :: s) = true ∧ more <+: rest then some (rest.drop more.length)
          else behind (quoted name more) rest := by
      intro hbytes hne
      rw [raw_cons, List.append_assoc, quoted, behind_append_of_notMem hbytes, ← quoted, ih]
      simp [endsQuoted, hne]
    cases e with
    | plain c => exact hother (notMem_bytes_plain (.inl rfl)) (by simp)
    | unicode d0 d1 d2 d3 =>
      refine hother ?_ (by simp)
      simp [Element.bytes, (hexByte_ne _).symm]
    | escape e =>
      by_cases he : e = .quote
      · subst he
        show behind (quoted name more) (92 :: 34 :: (raw s ++ 34 :: rest)) = _
        rw [behind_cons (by simp [quoted])]
        by_cases hhere : raw s = name ∧ more <+: rest
        · rw [behind_here ((prefix_quoted_iff h s more rest).mpr hhere),
            drop_quoted hhere.1, if_pos]
          simp [endsQuoted, hhere.1, hhere.2]
        · rw [behind_cons (mt (prefix_quoted_iff h s more rest).mp hhere), ih]
          by_cases hmore : more <+: rest
          · have hraw : raw s ≠ name := fun hraw => hhere ⟨hraw, hmore⟩
            simp [endsQuoted, hraw]
          · simp [hmore]
      · refine hother ?_ (by simpa using he)
        cases e <;> first | exact absurd rfl he | decide

/-- **The search over a string.** -/
theorem behind_str (h : IsName name) (s : Spelling) (more : List UInt8) {rest : List UInt8}
    (hrest : ∀ b ∈ rest.head?, isAlnum b = false) :
    behind (quoted name more) ((Tok.str s).bytes ++ rest) =
      if shows name s = true ∧ more <+: rest then some (rest.drop more.length)
      else behind (quoted name more) rest := by
  have hbytes : (Tok.str s).bytes ++ rest = 34 :: (raw s ++ 34 :: rest) := by simp [Tok.bytes]
  rw [hbytes]
  by_cases hhere : raw s = name ∧ more <+: rest
  · rw [behind_here ((prefix_quoted_iff h s more rest).mpr hhere), drop_quoted hhere.1, if_pos]
    simp [shows, hhere.1, hhere.2]
  · rw [behind_cons (mt (prefix_quoted_iff h s more rest).mp hhere), behind_raw h s more hrest]
    by_cases hmore : more <+: rest
    · have hraw : raw s ≠ name := fun hraw => hhere ⟨hraw, hmore⟩
      simp [shows, hraw]
    · simp [hmore]

end Name

/-! ## Tokens -/

def isWord : Tok → Bool
  | .ws _ => false
  | .punct _ => false
  | _ => true

/-- Whitespace or punctuation comes next, or nothing. -/
def Open (toks : List Tok) : Prop := ∀ t ∈ toks.head?, isWord t = false

/-- No two strings, numbers or literals stand side by side. -/
def Separated : List Tok → Prop
  | [] => True
  | t :: rest => (isWord t = true → Open rest) ∧ Separated rest

/-- The strings among the tokens. -/
def strings (toks : List Tok) : List Spelling :=
  toks.filterMap fun t =>
    match t with
    | .str s => some s
    | _ => none

@[simp] theorem strings_str (s : Spelling) (toks : List Tok) :
    strings (.str s :: toks) = s :: strings toks := rfl

theorem head_bytesOf {toks : List Tok} (h : Open toks) :
    ∀ b ∈ (bytesOf toks).head?, isAlnum b = false := by
  cases toks with
  | nil => simp [bytesOf]
  | cons t rest =>
    have hword := h t rfl
    cases t with
    | ws w =>
      intro b hb
      obtain rfl : w.byte = b := by simpa [bytesOf, Tok.bytes] using hb
      cases w <;> decide
    | punct p =>
      intro b hb
      obtain rfl : p.byte = b := by simpa [bytesOf, Tok.bytes] using hb
      cases p <;> decide
    | literal w => cases hword
    | number n => cases hword
    | str s => cases hword

theorem notMem_map_digitByte (digits : List (Fin 10)) : 34 ∉ digits.map digitByte := by
  intro h
  obtain ⟨d, -, hd⟩ := List.mem_map.mp h
  revert d
  decide

theorem notMem_number (n : Number) : 34 ∉ n.bytes := by
  have hexp : ∀ x : Exponent, 34 ∉ x.bytes := by
    intro x
    have hdigits := notMem_map_digitByte (x.first :: x.more)
    rw [Exponent.bytes]
    rcases x.sign with _ | _ | _ <;> cases x.upper <;> simpa using hdigits
  have hint := notMem_map_digitByte n.int
  have hfrac := notMem_map_digitByte n.frac
  have htail : 34 ∉ n.tail := by
    rw [Number.tail, List.mem_append, not_or]
    constructor
    · split_ifs <;> simp [hfrac]
    · cases n.exp with
      | none => simp
      | some x => exact hexp x
  rw [Number.bytes]
  cases n.negative <;> simp [hint, htail]

theorem notMem_of_not_str {t : Tok} (h : ∀ s, t ≠ .str s) : 34 ∉ t.bytes := by
  cases t with
  | ws w => cases w <;> decide
  | punct p => cases p <;> decide
  | literal w => cases w <;> decide
  | number n => exact notMem_number n
  | str s => exact absurd rfl (h s)

section Name

variable {name : List UInt8}

theorem behind_other {t : Tok} (h : ∀ s, t ≠ .str s) (more : List UInt8) (toks : List Tok) :
    behind (quoted name more) (bytesOf (t :: toks)) =
      behind (quoted name more) (bytesOf toks) := by
  rw [bytesOf, List.flatMap_cons, quoted, behind_append_of_notMem (notMem_of_not_str h)]
  rfl

/-- **Quoted names.** A name in quotes stands in a text exactly where one of its strings
shows it. -/
theorem quoted_infix_iff (h : IsName name) {toks : List Tok} (hsep : Separated toks) :
    quoted name [] <:+: bytesOf toks ↔ ∃ s ∈ strings toks, shows name s = true := by
  rw [← behind_isSome_iff]
  induction toks with
  | nil => simp [bytesOf, strings, behind, quoted]
  | cons t toks ih =>
    by_cases hstr : ∃ s, t = .str s
    · obtain ⟨s, rfl⟩ := hstr
      have hopen := head_bytesOf (hsep.1 rfl)
      have hsearch := behind_str h s [] hopen
      rw [bytesOf, List.flatMap_cons, ← bytesOf, hsearch]
      by_cases hshows : shows name s = true
      · simp [hshows]
      · simpa [hshows] using ih hsep.2
    · have hne : ∀ s, t ≠ .str s := fun s hs => hstr ⟨s, hs⟩
      have hstrings : strings (t :: toks) = strings toks := by
        cases t <;> first | rfl | exact absurd rfl (hne _)
      rw [behind_other hne, hstrings, ih hsep.2]

def startsColon : List Tok → Bool
  | .punct .colon :: _ => true
  | _ => false

/-- The tokens behind the first string that shows the name and has a colon right
behind it. -/
def afterKey (name : List UInt8) : List Tok → Option (List Tok)
  | [] => none
  | .str s :: rest =>
    if shows name s = true ∧ startsColon rest = true then some rest.tail else afterKey name rest
  | _ :: rest => afterKey name rest

theorem colon_prefix_iff {toks : List Tok} (h : Open toks) :
    [58] <+: bytesOf toks ↔ startsColon toks = true := by
  cases toks with
  | nil => simp [bytesOf, startsColon]
  | cons t rest =>
    have hword := h t rfl
    cases t with
    | ws w => cases w <;> simp [bytesOf, Tok.bytes, Ws.byte, startsColon]
    | punct p => cases p <;> simp [bytesOf, Tok.bytes, Punct.byte, startsColon]
    | literal w => cases hword
    | number n => cases hword
    | str s => cases hword

theorem drop_colon {toks : List Tok} (h : startsColon toks = true) :
    (bytesOf toks).drop 1 = bytesOf toks.tail := by
  cases toks with
  | nil => cases h
  | cons t rest =>
    cases t with
    | punct p => rfl
    | ws w => cases h
    | literal w => cases h
    | number n => cases h
    | str s => cases h

/-- **Quoted keys.** The search for a name in quotes with a colon ends behind the
first such key. -/
theorem behind_key (h : IsName name) {toks : List Tok} (hsep : Separated toks) :
    behind (quoted name [58]) (bytesOf toks) = (afterKey name toks).map bytesOf := by
  induction toks with
  | nil => simp [bytesOf, behind, quoted, afterKey]
  | cons t toks ih =>
    cases t with
    | str s =>
      have hopen := hsep.1 rfl
      have hsearch := behind_str h s [58] (head_bytesOf hopen)
      simp only [colon_prefix_iff hopen] at hsearch
      rw [bytesOf, List.flatMap_cons, ← bytesOf, hsearch, afterKey]
      split_ifs with hkey
      · rw [Option.map_some, List.length_singleton, drop_colon hkey.2]
      · exact ih hsep.2
    | ws w => exact (behind_other (by simp) _ _).trans (ih hsep.2)
    | punct p => exact (behind_other (by simp) _ _).trans (ih hsep.2)
    | literal w => exact (behind_other (by simp) _ _).trans (ih hsep.2)
    | number n => exact (behind_other (by simp) _ _).trans (ih hsep.2)

theorem afterKey_separated {toks rest : List Tok} (hsep : Separated toks)
    (h : afterKey name toks = some rest) : Separated rest := by
  induction toks with
  | nil => cases h
  | cons t toks ih =>
    cases t with
    | str s =>
      rw [afterKey] at h
      split_ifs at h with hkey
      · obtain rfl := Option.some.inj h
        cases toks with
        | nil => trivial
        | cons t' toks => exact hsep.2.2
      · exact ih hsep.2 h
    | ws w => exact ih hsep.2 h
    | punct p => exact ih hsep.2 h
    | literal w => exact ih hsep.2 h
    | number n => exact ih hsep.2 h

/-- Tokens whose strings do not show the name are passed over. -/
theorem afterKey_append {front : List Tok} (h : ∀ s ∈ strings front, shows name s = false)
    (rest : List Tok) : afterKey name (front ++ rest) = afterKey name rest := by
  induction front with
  | nil => rfl
  | cons t front ih =>
    cases t with
    | str s =>
      rw [strings_str] at h
      have hs : shows name s = false := h s List.mem_cons_self
      rw [List.cons_append, afterKey, if_neg (by simp [hs])]
      exact ih fun s' hs' => h s' (List.mem_cons_of_mem _ hs')
    | ws w => exact ih h
    | punct p => exact ih h
    | literal w => exact ih h
    | number n => exact ih h

end Name

/-! ## Texts are separated -/

theorem open_spaces (ws : List Ws) {tail : List Tok} (h : Open tail) :
    Open (spaceToks ws ++ tail) := by
  cases ws with
  | nil => exact h
  | cons w ws =>
    intro t ht
    obtain rfl : Tok.ws w = t := by simpa [spaceToks] using ht
    rfl

theorem open_punct (p : Punct) (tail : List Tok) : Open (.punct p :: tail) := by
  intro t ht
  obtain rfl : Tok.punct p = t := by simpa using ht
  rfl

theorem separated_spaces (ws : List Ws) {tail : List Tok} (h : Separated tail) :
    Separated (spaceToks ws ++ tail) := by
  induction ws with
  | nil => exact h
  | cons w ws ih => exact ⟨by simp [isWord], ih⟩

theorem separated_punct (p : Punct) {tail : List Tok} (h : Separated tail) :
    Separated (.punct p :: tail) := ⟨by simp [isWord], h⟩

mutual

theorem separated_value (v : Value) {tail : List Tok} (hopen : Open tail) (h : Separated tail) :
    Separated (v.toks tail) := by
  match v with
  | .literal w => exact ⟨fun _ => hopen, h⟩
  | .number n => exact ⟨fun _ => hopen, h⟩
  | .string s => exact ⟨fun _ => hopen, h⟩
  | .emptyArray inner => exact separated_punct _ (separated_spaces _ (separated_punct _ h))
  | .array items =>
    exact separated_punct _ (separated_items items (open_punct _ _) (separated_punct _ h))
  | .emptyObject inner => exact separated_punct _ (separated_spaces _ (separated_punct _ h))
  | .object members =>
    exact separated_punct _ (separated_members members (open_punct _ _) (separated_punct _ h))

theorem separated_items (items : Items) {tail : List Tok} (hopen : Open tail)
    (h : Separated tail) : Separated (items.toks tail) := by
  match items with
  | .last before value after =>
    exact separated_spaces _ (separated_value value (open_spaces _ hopen) (separated_spaces _ h))
  | .cons before value after rest =>
    have hrest := separated_punct .comma (separated_items rest hopen h)
    exact separated_spaces _
      (separated_value value (open_spaces _ (open_punct _ _)) (separated_spaces _ hrest))

theorem separated_members (members : Members) {tail : List Tok} (hopen : Open tail)
    (h : Separated tail) : Separated (members.toks tail) := by
  match members with
  | .last before key beforeColon afterColon value after =>
    have hvalue := separated_value value (open_spaces after hopen) (separated_spaces after h)
    refine separated_spaces _ ⟨fun _ => open_spaces _ (open_punct _ _), ?_⟩
    exact separated_spaces _ (separated_punct _ (separated_spaces _ hvalue))
  | .cons before key beforeColon afterColon value after rest =>
    have hrest := separated_punct .comma (separated_members rest hopen h)
    have hvalue := separated_value value (open_spaces after (open_punct _ _))
      (separated_spaces after hrest)
    refine separated_spaces _ ⟨fun _ => open_spaces _ (open_punct _ _), ?_⟩
    exact separated_spaces _ (separated_punct _ (separated_spaces _ hvalue))

end

theorem separated_text (t : Text) : Separated t.toks := by
  have hnil := @separated_spaces t.after [] trivial
  have hopen := @open_spaces t.after [] (by simp [Open])
  rw [List.append_nil] at hnil hopen
  exact separated_spaces _ (separated_value t.value hopen hnil)

/-! ## Spelling and meaning -/

theorem utf8_ascii {c : Char} (h : c.toNat < 128) :
    String.utf8EncodeChar c = [UInt8.ofNat c.toNat] := by
  have hval : c.val.toNat = c.toNat := rfl
  simp only [String.utf8EncodeChar, hval]
  rw [if_pos (by omega)]

/-- Spelled without a backslash, ASCII bytes are what the string denotes. -/
theorem units_of_raw {bytes : List UInt8} (hascii : ∀ b ∈ bytes, b.toNat < 128)
    (hslash : 92 ∉ bytes) {s : Spelling} (h : raw s = bytes) : units s = bytes.map UInt8.toNat := by
  induction s generalizing bytes with
  | nil =>
    subst h
    rfl
  | cons e s ih =>
    rw [raw_cons] at h
    subst h
    have hrest : ∀ b ∈ raw s, b.toNat < 128 := fun b hb => hascii b (List.mem_append_right _ hb)
    have hnext := ih hrest (fun hmem => hslash (List.mem_append_right _ hmem)) rfl
    have hunits : units (e :: s) = e.units ++ units s := rfl
    have hescaped : 92 ∉ e.bytes := fun hmem => hslash (List.mem_append_left _ hmem)
    cases e with
    | plain c =>
      obtain ⟨b, bs, hbytes⟩ := List.exists_cons_of_ne_nil
        (String.utf8EncodeChar_ne_nil (c := c.char))
      have hfirst : b ∈ String.utf8EncodeChar c.char := by simp [hbytes]
      have hb := hascii b (List.mem_append_left _ hfirst)
      have hchar : c.char.toNat < 128 := by rw [eq_of_mem_utf8 hfirst hb]; exact hb
      have hutf8 := utf8_ascii hchar
      rw [hunits, hnext, List.map_append]
      show utf16 c.char.toNat ++ _ = (String.utf8EncodeChar c.char).map UInt8.toNat ++ _
      rw [hutf8, utf16, if_pos (by omega), List.map_singleton, UInt8.toNat_ofNat', Nat.mod_eq_of_lt]
      omega
    | escape e => exact absurd List.mem_cons_self hescaped
    | unicode d0 d1 d2 d3 => exact absurd List.mem_cons_self hescaped

theorem units_of_raw_name {name : List UInt8} (h : IsName name) {s : Spelling} (hs : raw s = name) :
    units s = name.map UInt8.toNat := by
  refine units_of_raw (fun b hb => ?_) (h.not_mem (by decide)) hs
  have halnum := h.alnum b hb
  simp only [isAlnum, Bool.or_eq_true, Bool.and_eq_true, decide_eq_true_eq,
    UInt8.le_iff_toNat_le] at halnum
  have hnine : (57 : UInt8).toNat = 57 := rfl
  have hupper : (90 : UInt8).toNat = 90 := rfl
  have hlower : (122 : UInt8).toNat = 122 := rfl
  omega

/-- A spelling with an escaped quote denotes a string with a quote. -/
theorem quote_mem_units {name : List UInt8} {s : Spelling} (h : endsQuoted name s = true) :
    34 ∈ units s := by
  induction s with
  | nil => cases h
  | cons e s ih =>
    rw [endsQuoted, Bool.or_eq_true, Bool.and_eq_true, decide_eq_true_eq] at h
    rcases h with ⟨rfl, -⟩ | hrest
    · exact List.mem_append_left _ List.mem_cons_self
    · exact List.mem_append_right _ (ih hrest)

/-- A string that denotes a name shows it only where it is spelled with its own letters,
and shows no other. -/
theorem shows_iff_of_units {name other : List UInt8} (hname : IsName name) (hother : IsName other)
    {s : Spelling} (hs : units s = name.map UInt8.toNat) :
    shows other s = true ↔ raw s = other ∧ other = name := by
  have hquote : 34 ∉ units s := by
    rw [hs]
    intro hmem
    obtain ⟨b, hb, heq⟩ := List.mem_map.mp hmem
    obtain rfl : b = 34 := UInt8.toNat_inj.mp heq
    exact hname.not_mem (by decide) hb
  have hends : endsQuoted other s = false := by
    rw [← Bool.not_eq_true]
    exact fun h => hquote (quote_mem_units h)
  rw [shows, hends, Bool.or_false, beq_iff_eq]
  constructor
  · intro hraw
    have hunits := units_of_raw_name hother hraw
    rw [hs] at hunits
    have hinj : Function.Injective UInt8.toNat := fun a b => UInt8.toNat_inj.mp
    exact ⟨hraw, (List.map_injective_iff.mpr hinj hunits).symm⟩
  · intro h
    exact h.1

/-! ## The members of a text -/

/-- The strings of a member, its key first. -/
def memberStrings (m : Member) : List Spelling := m.key :: strings (m.value.toks [])

theorem strings_append (a b : List Tok) : strings (a ++ b) = strings a ++ strings b :=
  List.filterMap_append

@[simp] theorem strings_punct (p : Punct) (toks : List Tok) :
    strings (.punct p :: toks) = strings toks := rfl

@[simp] theorem strings_spaces (ws : List Ws) (toks : List Tok) :
    strings (spaceToks ws ++ toks) = strings toks := by
  induction ws with
  | nil => rfl
  | cons w ws ih => exact ih

@[simp] theorem strings_spaceToks (ws : List Ws) : strings (spaceToks ws) = [] := by
  have happend := strings_spaces ws []
  rwa [List.append_nil] at happend

mutual

theorem toks_value (v : Value) (tail : List Tok) : v.toks tail = v.toks [] ++ tail := by
  match v with
  | .literal w => rfl
  | .number n => rfl
  | .string s => rfl
  | .emptyArray inner => simp [Value.toks]
  | .array items =>
    rw [Value.toks, toks_items items, Value.toks, toks_items items [_]]
    simp
  | .emptyObject inner => simp [Value.toks]
  | .object members =>
    rw [Value.toks, toks_members members, Value.toks, toks_members members [_]]
    simp

theorem toks_items (items : Items) (tail : List Tok) : items.toks tail = items.toks [] ++ tail := by
  match items with
  | .last before value after =>
    rw [Items.toks, toks_value value, Items.toks, toks_value value (spaceToks after ++ [])]
    simp
  | .cons before value after rest =>
    rw [Items.toks, toks_value value, toks_items rest, Items.toks, toks_value value (_ ++ _)]
    simp

theorem toks_members (members : Members) (tail : List Tok) :
    members.toks tail = members.toks [] ++ tail := by
  match members with
  | .last before key beforeColon afterColon value after =>
    rw [Members.toks, toks_value value, Members.toks, toks_value value (spaceToks after ++ [])]
    simp
  | .cons before key beforeColon afterColon value after rest =>
    rw [Members.toks, toks_value value, toks_members rest, Members.toks, toks_value value (_ ++ _)]
    simp

end

theorem strings_value (v : Value) (tail : List Tok) :
    strings (v.toks tail) = strings (v.toks []) ++ strings tail := by
  rw [toks_value v tail, strings_append]

theorem strings_members (members : Members) (tail : List Tok) :
    strings (members.toks tail) = members.toList.flatMap memberStrings ++ strings tail := by
  match members with
  | .last before key beforeColon afterColon value after =>
    simp [Members.toks, Members.toList, memberStrings, strings_value value (spaceToks after ++ tail)]
  | .cons before key beforeColon afterColon value after rest =>
    have hrest := strings_members rest tail
    simp [Members.toks, Members.toList, memberStrings, strings_value value (spaceToks after ++ _),
      hrest]

/-- The tokens around one member, and the strings on both sides. -/
theorem toks_at_member (members : Members) (tail : List Tok) {pre post : List Member} {m : Member}
    (h : members.toList = pre ++ m :: post) :
    ∃ front back, members.toks tail =
        front ++ .str m.key :: (spaceToks m.beforeColon ++ .punct .colon ::
          (spaceToks m.afterColon ++ m.value.toks back)) ∧
      strings front = pre.flatMap memberStrings ∧
      strings back = post.flatMap memberStrings ++ strings tail := by
  match members, pre with
  | .last before key beforeColon afterColon value after, [] =>
    obtain ⟨rfl, rfl⟩ := List.cons.inj h
    refine ⟨spaceToks before, spaceToks after ++ tail, rfl, ?_, ?_⟩
    · simp
    · simp
  | .last before key beforeColon afterColon value after, p :: pre =>
    have hnil := (List.cons.inj h).2
    simp at hnil
  | .cons before key beforeColon afterColon value after rest, [] =>
    obtain ⟨rfl, rfl⟩ := List.cons.inj h
    refine ⟨spaceToks before, spaceToks after ++ .punct .comma :: rest.toks tail, rfl, ?_, ?_⟩
    · simp
    · simp [strings_members rest tail]
  | .cons before key beforeColon afterColon value after rest, p :: pre =>
    obtain ⟨rfl, hrest⟩ := List.cons.inj h
    obtain ⟨front, back, htoks, hfront, hback⟩ := toks_at_member rest tail hrest
    refine ⟨spaceToks before ++ .str key :: (spaceToks beforeColon ++ .punct .colon ::
      (spaceToks afterColon ++ value.toks (spaceToks after ++ .punct .comma :: front))), back,
      ?_, ?_, hback⟩
    · rw [Members.toks, htoks, toks_value value, toks_value value (spaceToks after ++ _ :: front)]
      simp
    · simp [memberStrings, strings_value value (spaceToks after ++ _), hfront]

/-- The strings of an object. -/
theorem strings_text {t : Text} {members : List Member} (h : t.members? = some members) :
    strings t.toks = members.flatMap memberStrings := by
  obtain ⟨before, value, after⟩ := t
  cases value with
  | emptyObject inner =>
    obtain rfl : [] = members := by simpa [Text.members?] using h
    simp [Text.toks, Value.toks]
  | object ms =>
    obtain rfl : ms.toList = members := by simpa [Text.members?] using h
    simp [Text.toks, Value.toks, strings_members]
  | _ => cases h

/-- An object's tokens around one of its members. -/
theorem text_at_member {t : Text} {pre post : List Member} {m : Member}
    (h : t.members? = some (pre ++ m :: post)) :
    ∃ front back, t.toks =
        front ++ .str m.key :: (spaceToks m.beforeColon ++ .punct .colon ::
          (spaceToks m.afterColon ++ m.value.toks back)) ∧
      strings front = pre.flatMap memberStrings ∧
      strings back = post.flatMap memberStrings := by
  obtain ⟨before, value, after⟩ := t
  cases value with
  | object ms =>
    have hlist : ms.toList = pre ++ m :: post := by simpa [Text.members?] using h
    obtain ⟨front, back, htoks, hfront, hback⟩ :=
      toks_at_member ms (.punct .closeBrace :: spaceToks after) hlist
    refine ⟨spaceToks before ++ .punct .openBrace :: front, back, ?_, ?_, ?_⟩
    · simp [Text.toks, Value.toks, htoks]
    · simp [hfront]
    · simpa using hback
  | emptyObject inner => simp [Text.members?] at h
  | _ => cases h

end DspEmbedded.Lib.JsonSearch
