import Mathlib.Algebra.Order.Field.Rat
import Mathlib.Data.List.Basic

/-!
# JSON texts

The concrete syntax of RFC 8259: every spelling that the grammar allows, with its
whitespace, its escapes and its notation of numbers, and the bytes of a text in
UTF-8. A string denotes UTF-16 code units, so that two spellings of one string
are equal and escaped surrogates need no pairing; a number denotes a rational.
Members are kept in the order of the text, with any repeated names.
-/
namespace DspEmbedded.Lib.JsonText

/-! ## Strings -/

inductive Ws where
  | space
  | tab
  | lineFeed
  | carriageReturn
  deriving DecidableEq

def Ws.byte : Ws → UInt8
  | .space => 32
  | .tab => 9
  | .lineFeed => 10
  | .carriageReturn => 13

/-- A character that stands for itself in a string. -/
structure PlainChar where
  char : Char
  notControl : 32 ≤ char.toNat
  notQuote : char.toNat ≠ 34
  notBackslash : char.toNat ≠ 92
  deriving DecidableEq

/-- The characters with an escape of their own. -/
inductive Escape where
  | quote
  | backslash
  | slash
  | backspace
  | formFeed
  | lineFeed
  | carriageReturn
  | tab
  deriving DecidableEq

/-- The letter behind the backslash. -/
def Escape.letter : Escape → UInt8
  | .quote => 34
  | .backslash => 92
  | .slash => 47
  | .backspace => 98
  | .formFeed => 102
  | .lineFeed => 110
  | .carriageReturn => 114
  | .tab => 116

def Escape.unit : Escape → Nat
  | .quote => 34
  | .backslash => 92
  | .slash => 47
  | .backspace => 8
  | .formFeed => 12
  | .lineFeed => 10
  | .carriageReturn => 13
  | .tab => 9

structure HexDigit where
  value : Fin 16
  upper : Bool
  deriving DecidableEq

def HexDigit.byte (d : HexDigit) : UInt8 :=
  if d.value.val < 10 then UInt8.ofNat (48 + d.value.val)
  else if d.upper then UInt8.ofNat (55 + d.value.val) else UInt8.ofNat (87 + d.value.val)

/-- One character of a string, in one of its spellings. -/
inductive Element where
  | plain (c : PlainChar)
  | escape (e : Escape)
  | unicode (d0 d1 d2 d3 : HexDigit)
  deriving DecidableEq

def Element.bytes : Element → List UInt8
  | .plain c => String.utf8EncodeChar c.char
  | .escape e => [92, e.letter]
  | .unicode d0 d1 d2 d3 => [92, 117, d0.byte, d1.byte, d2.byte, d3.byte]

/-- The code units of a code point. -/
def utf16 (n : Nat) : List Nat :=
  if n < 65536 then [n] else [55296 + (n - 65536) / 1024, 56320 + (n - 65536) % 1024]

def Element.units : Element → List Nat
  | .plain c => utf16 c.char.toNat
  | .escape e => [e.unit]
  | .unicode d0 d1 d2 d3 =>
    [((d0.value.val * 16 + d1.value.val) * 16 + d2.value.val) * 16 + d3.value.val]

/-- What stands between the quotes. -/
abbrev Spelling := List Element

def raw (s : Spelling) : List UInt8 := s.flatMap Element.bytes

/-- The string that a spelling denotes. -/
def units (s : Spelling) : List Nat := s.flatMap Element.units

def plainChar? (c : Char) : Option PlainChar :=
  if h : 32 ≤ c.toNat ∧ c.toNat ≠ 34 ∧ c.toNat ≠ 92 then some ⟨c, h.1, h.2.1, h.2.2⟩ else none

/-- Characters that need no escape, without one. -/
def spelled (cs : List Char) : Spelling := (cs.filterMap plainChar?).map .plain

/-! ## Numbers -/

def digitByte (d : Fin 10) : UInt8 := UInt8.ofNat (48 + d.val)

/-- The number that decimal digits denote. -/
def natValue (digits : List (Fin 10)) : Nat := digits.foldl (fun acc d => acc * 10 + d.val) 0

structure Exponent where
  upper : Bool
  /-- A sign, and whether it is a minus. -/
  sign : Option Bool
  first : Fin 10
  more : List (Fin 10)
  deriving DecidableEq

namespace Exponent

def bytes (x : Exponent) : List UInt8 :=
  (if x.upper then 69 else 101) ::
    ((match x.sign with
      | none => []
      | some false => [43]
      | some true => [45]) ++ (x.first :: x.more).map digitByte)

def value (x : Exponent) : Int :=
  if x.sign = some true then -(natValue (x.first :: x.more) : Int)
  else natValue (x.first :: x.more)

end Exponent

structure Number where
  negative : Bool
  int : List (Fin 10)
  noLeadingZero : int = [0] ∨ ∃ d ds, int = d :: ds ∧ d ≠ 0
  /-- The digits behind the point; without any there is no point. -/
  frac : List (Fin 10)
  exp : Option Exponent

namespace Number

/-- What follows the digits of the integer part. -/
def tail (n : Number) : List UInt8 :=
  (if n.frac = [] then [] else 46 :: n.frac.map digitByte) ++
    (match n.exp with
      | none => []
      | some x => x.bytes)

def bytes (n : Number) : List UInt8 :=
  (if n.negative then [45] else []) ++ (n.int.map digitByte ++ n.tail)

def value (n : Number) : ℚ :=
  (if n.negative then -1 else 1) *
    (natValue n.int + natValue n.frac / 10 ^ n.frac.length) *
    (10 : ℚ) ^ (match n.exp with
      | none => (0 : Int)
      | some x => x.value)

/-- Digits only. -/
def Plain (n : Number) : Prop := n.negative = false ∧ n.frac = [] ∧ n.exp = none

end Number

theorem Number.int_ne_nil (n : Number) : n.int ≠ [] := by
  rcases n.noLeadingZero with h | ⟨d, ds, h, -⟩
  · simp [h]
  · simp [h]

/-! ## Values -/

inductive Literal where
  | null
  | true
  | false
  deriving DecidableEq

def Literal.bytes : Literal → List UInt8
  | .null => [110, 117, 108, 108]
  | .true => [116, 114, 117, 101]
  | .false => [102, 97, 108, 115, 101]

mutual

inductive Value where
  | literal (w : Literal)
  | number (n : Number)
  | string (s : Spelling)
  | emptyArray (inner : List Ws)
  | array (items : Items)
  | emptyObject (inner : List Ws)
  | object (members : Members)

/-- The items of an array, each with the whitespace on both sides. -/
inductive Items where
  | last (before : List Ws) (value : Value) (after : List Ws)
  | cons (before : List Ws) (value : Value) (after : List Ws) (rest : Items)

/-- The members of an object; `beforeColon` and `afterColon` stand around the colon. -/
inductive Members where
  | last (before : List Ws) (key : Spelling) (beforeColon afterColon : List Ws) (value : Value)
      (after : List Ws)
  | cons (before : List Ws) (key : Spelling) (beforeColon afterColon : List Ws) (value : Value)
      (after : List Ws) (rest : Members)

end

/-- One member with the whitespace that belongs to it. -/
structure Member where
  before : List Ws
  key : Spelling
  beforeColon : List Ws
  afterColon : List Ws
  value : Value
  after : List Ws

def Members.toList : Members → List Member
  | .last before key beforeColon afterColon value after =>
    [⟨before, key, beforeColon, afterColon, value, after⟩]
  | .cons before key beforeColon afterColon value after rest =>
    ⟨before, key, beforeColon, afterColon, value, after⟩ :: rest.toList

/-! ## Tokens and texts -/

inductive Punct where
  | openBracket
  | closeBracket
  | openBrace
  | closeBrace
  | colon
  | comma
  deriving DecidableEq

def Punct.byte : Punct → UInt8
  | .openBracket => 91
  | .closeBracket => 93
  | .openBrace => 123
  | .closeBrace => 125
  | .colon => 58
  | .comma => 44

inductive Tok where
  | ws (w : Ws)
  | punct (p : Punct)
  | literal (w : Literal)
  | number (n : Number)
  | str (s : Spelling)

def Tok.bytes : Tok → List UInt8
  | .ws w => [w.byte]
  | .punct p => [p.byte]
  | .literal w => w.bytes
  | .number n => n.bytes
  | .str s => 34 :: (raw s ++ [34])

def bytesOf (toks : List Tok) : List UInt8 := toks.flatMap Tok.bytes

def spaceToks (ws : List Ws) : List Tok := ws.map .ws

mutual

/-- The tokens of a value, in front of what follows it. -/
def Value.toks : Value → List Tok → List Tok
  | .literal w, tail => .literal w :: tail
  | .number n, tail => .number n :: tail
  | .string s, tail => .str s :: tail
  | .emptyArray inner, tail => .punct .openBracket :: (spaceToks inner ++ .punct .closeBracket :: tail)
  | .array items, tail => .punct .openBracket :: items.toks (.punct .closeBracket :: tail)
  | .emptyObject inner, tail => .punct .openBrace :: (spaceToks inner ++ .punct .closeBrace :: tail)
  | .object members, tail => .punct .openBrace :: members.toks (.punct .closeBrace :: tail)

def Items.toks : Items → List Tok → List Tok
  | .last before value after, tail => spaceToks before ++ value.toks (spaceToks after ++ tail)
  | .cons before value after rest, tail =>
    spaceToks before ++ value.toks (spaceToks after ++ .punct .comma :: rest.toks tail)

def Members.toks : Members → List Tok → List Tok
  | .last before key beforeColon afterColon value after, tail =>
    spaceToks before ++ .str key :: (spaceToks beforeColon ++ .punct .colon ::
      (spaceToks afterColon ++ value.toks (spaceToks after ++ tail)))
  | .cons before key beforeColon afterColon value after rest, tail =>
    spaceToks before ++ .str key :: (spaceToks beforeColon ++ .punct .colon ::
      (spaceToks afterColon ++ value.toks (spaceToks after ++ .punct .comma :: rest.toks tail)))

end

/-- A text: a value with whitespace around it. -/
structure Text where
  before : List Ws
  value : Value
  after : List Ws

namespace Text

def toks (t : Text) : List Tok := spaceToks t.before ++ t.value.toks (spaceToks t.after)

def bytes (t : Text) : List UInt8 := bytesOf t.toks

/-- The members of the object that a text is. -/
def members? (t : Text) : Option (List Member) :=
  match t.value with
  | .emptyObject _ => some []
  | .object members => some members.toList
  | _ => none

end Text

end DspEmbedded.Lib.JsonText
