import GasMachine.Json

/-!
# Reading JSON text

A text is read in two passes: characters to tokens, tokens to a document. A document still holds
texts with their escapes and numbers digit by digit, because what becomes of them depends on the
reader's expectation: a member that nobody asks for may hold half a surrogate pair or a number
beyond every range.

Both passes are folds over their input with a state, so they end on every text and need no bound on
nesting.
-/

set_option autoImplicit false

namespace GasMachine

/-! ## Numbers as written -/

/-- A number as it stands in the text. -/
structure Numeral where
  negative : Bool
  /-- Digits before the point; no superfluous zero in front. -/
  whole : List Nat
  /-- Digits behind the point; never an empty list. -/
  fraction : Option (List Nat)
  /-- Whether the exponent is negative, and its digits. -/
  exponent : Option (Bool × List Nat)
deriving DecidableEq

namespace Numeral

def digitValue (c : Char) : Nat := c.toNat - 48

def takeDigits (text : List Char) : List Nat × List Char :=
  ((text.takeWhile Char.isDigit).map digitValue, text.dropWhile Char.isDigit)

def takeFraction? : List Char → Option (Option (List Nat) × List Char)
  | '.' :: text =>
    match takeDigits text with
    | ([], _) => none
    | (digits, rest) => some (some digits, rest)
  | text => some (none, text)

def takeExponent? : List Char → Option (Option (Bool × List Nat) × List Char)
  | [] => some (none, [])
  | c :: text =>
    if c = 'e' ∨ c = 'E' then
      let (negative, digits) := match text with
        | '-' :: rest => (true, rest)
        | '+' :: rest => (false, rest)
        | rest => (false, rest)
      match takeDigits digits with
      | ([], _) => none
      | (digits, rest) => some (some (negative, digits), rest)
    else some (none, c :: text)

def ofChars? (text : List Char) : Option Numeral :=
  let (negative, text) := match text with
    | '-' :: rest => (true, rest)
    | rest => (false, rest)
  let (whole, text) := takeDigits text
  if whole.isEmpty || (whole.head? == some 0 && 1 < whole.length) then none
  else do
    let (fraction, text) ← takeFraction? text
    let (exponent, text) ← takeExponent? text
    if text.isEmpty then some ⟨negative, whole, fraction, exponent⟩ else none

def ofDigits (digits : List Nat) : Nat :=
  digits.foldl (fun value digit => 10 * value + digit) 0

/-- The integer written, if it has neither fraction nor exponent and fits 64 bits, unsigned or
signed. Minus zero is no integer. -/
def toInt? (numeral : Numeral) : Option Int :=
  if numeral.fraction.isSome || numeral.exponent.isSome then none
  else
    let magnitude := ofDigits numeral.whole
    if numeral.negative then
      if magnitude = 0 ∨ 2 ^ 63 < magnitude then none else some (-magnitude)
    else if magnitude < 2 ^ 64 then some magnitude else none

end Numeral

/-! ## Texts as written -/

namespace Escape

def hexValue? (c : Char) : Option Nat :=
  if c.toNat < 0x80 then Hex.value? (UInt8.ofNat c.toNat) else none

def hexUnit? (a b c d : Char) : Option Nat := do
  return 4096 * (← hexValue? a) + 256 * (← hexValue? b) + 16 * (← hexValue? c) + (← hexValue? d)

/-- The character that a single letter behind a backslash stands for. -/
def letter? (c : Char) : Option Char :=
  if c = '\x22' ∨ c = '\\' ∨ c = '/' then some c
  else if c = 'b' then some '\x08'
  else if c = 'f' then some '\x0c'
  else if c = 'n' then some '\n'
  else if c = 'r' then some '\r'
  else if c = 't' then some '\t'
  else none

/-- One unit of a text: a character, or a 16-bit unit written by its number. -/
inductive Unit where
  | char (c : Char)
  | code (unit : Nat)

/-- The units of a text between its quotes; nothing if an escape is malformed. -/
def units? : List Char → Option (List Unit)
  | [] => some []
  | '\\' :: 'u' :: a :: b :: c :: d :: rest => do
    return .code (← hexUnit? a b c d) :: (← units? rest)
  | '\\' :: c :: rest => do
    return .char (← letter? c) :: (← units? rest)
  | ['\\'] => none
  | c :: rest => do
    return .char c :: (← units? rest)

/-- The characters of the units. A unit of a surrogate pair without its partner stands for
nothing. -/
def join? : List Unit → Option (List Char)
  | [] => some []
  | .char c :: rest => do
    return c :: (← join? rest)
  | .code unit :: rest =>
    if unit < 0xd800 ∨ 0xe000 ≤ unit then do
      return Char.ofNat unit :: (← join? rest)
    else if unit < 0xdc00 then
      match rest with
      | .code second :: rest =>
        if 0xdc00 ≤ second ∧ second < 0xe000 then do
          let c := Char.ofNat (0x10000 + 0x400 * (unit - 0xd800) + (second - 0xdc00))
          return c :: (← join? rest)
        else none
      | _ => none
    else none

end Escape

/-- A text between its quotes, escapes as written; every escape is well formed. -/
structure RawText where
  units : List Escape.Unit

def RawText.decode? (raw : RawText) : Option String :=
  (Escape.join? raw.units).map String.ofList

/-! ## Tokens -/

namespace Json

inductive Token where
  | openArray
  | closeArray
  | openObject
  | closeObject
  | colon
  | comma
  | null
  | bool (value : Bool)
  | number (numeral : Numeral)
  | text (raw : RawText)

def isBlank (c : Char) : Bool :=
  c = ' ' || c = '\n' || c = '\t' || c = '\r'

def Token.ofChar? (c : Char) : Option Token :=
  if c = '[' then some .openArray
  else if c = ']' then some .closeArray
  else if c = '\x7b' then some .openObject
  else if c = '\x7d' then some .closeObject
  else if c = ':' then some .colon
  else if c = ',' then some .comma
  else none

/-- The token of a run of other characters: a word or a number. -/
def Token.ofRun? (run : List Char) : Option Token :=
  if run = ['n', 'u', 'l', 'l'] then some .null
  else if run = ['t', 'r', 'u', 'e'] then some (.bool true)
  else if run = ['f', 'a', 'l', 's', 'e'] then some (.bool false)
  else (Numeral.ofChars? run).map .number

/-- What the lexer is inside of; characters last first. -/
inductive Lexer.Mode where
  | between
  | run (chars : List Char)
  | text (chars : List Char)
  | escape (chars : List Char)

/-- Lexer state: the tokens so far, last first. -/
structure Lexer where
  mode : Lexer.Mode
  tokens : List Token

def Lexer.endRun? (lexer : Lexer) : Option (List Token) :=
  match lexer.mode with
  | .between => some lexer.tokens
  | .run chars => (Token.ofRun? chars.reverse).map (· :: lexer.tokens)
  | .text _ | .escape _ => none

def Lexer.outside? (lexer : Lexer) (c : Char) : Option Lexer :=
  if isBlank c then do
    return ⟨.between, ← lexer.endRun?⟩
  else if c = '\x22' then do
    return ⟨.text [], ← lexer.endRun?⟩
  else match Token.ofChar? c with
    | some token => do
      return ⟨.between, token :: (← lexer.endRun?)⟩
    | none =>
      match lexer.mode with
      | .run chars => some ⟨.run (c :: chars), lexer.tokens⟩
      | _ => some ⟨.run [c], lexer.tokens⟩

/-- Take the next character. Control characters have to be escaped inside texts. -/
def Lexer.next? (lexer : Lexer) (c : Char) : Option Lexer :=
  match lexer.mode with
  | .text chars =>
    if c = '\x22' then do
      let units ← Escape.units? chars.reverse
      return ⟨.between, .text ⟨units⟩ :: lexer.tokens⟩
    else if c = '\\' then some ⟨.escape (c :: chars), lexer.tokens⟩
    else if c.toNat < 0x20 then none
    else some ⟨.text (c :: chars), lexer.tokens⟩
  | .escape chars =>
    if c.toNat < 0x20 then none else some ⟨.text (c :: chars), lexer.tokens⟩
  | _ => lexer.outside? c

def tokens? (text : String) : Option (List Token) := do
  let final ← text.toList.foldlM Lexer.next? ⟨.between, []⟩
  return (← final.endRun?).reverse

/-! ## Documents -/

/-- A text's structure, with texts and numbers as written. -/
inductive Document where
  | null
  | bool (value : Bool)
  | number (numeral : Numeral)
  | text (raw : RawText)
  | array (items : List Document)
  | object (members : List (RawText × Document))

/-- A container whose end has not been read; contents last first. -/
inductive Document.Open where
  | array (items : List Document)
  /-- An object, its members before the one being read, and that one's key. -/
  | object (members : List (RawText × Document)) (key : RawText)

/-- What the parser waits for. The containers around that place are given innermost first. -/
inductive Document.Parser where
  | value (around : List Document.Open)
  /-- A value, or the end of an array that has just begun. -/
  | firstItem (around : List Document.Open)
  /-- A key, or the end of the object if it has no members yet. -/
  | key (members : List (RawText × Document)) (mayClose : Bool) (around : List Document.Open)
  | colon (members : List (RawText × Document)) (key : RawText) (around : List Document.Open)
  | after (value : Document) (around : List Document.Open)

def Document.Parser.begin? (around : List Document.Open) : Token → Option Document.Parser
  | .null => some (.after .null around)
  | .bool flag => some (.after (.bool flag) around)
  | .number numeral => some (.after (.number numeral) around)
  | .text raw => some (.after (.text raw) around)
  | .openArray => some (.firstItem around)
  | .openObject => some (.key [] true around)
  | _ => none

def Document.Parser.next? : Document.Parser → Token → Option Document.Parser
  | .value around, token => begin? around token
  | .firstItem around, .closeArray => some (.after (.array []) around)
  | .firstItem around, token => begin? (.array [] :: around) token
  | .key _ true around, .closeObject => some (.after (.object []) around)
  | .key members _ around, .text raw => some (.colon members raw around)
  | .colon members name around, .colon => some (.value (.object members name :: around))
  | .after doc (.array items :: around), .comma => some (.value (.array (doc :: items) :: around))
  | .after doc (.array items :: around), .closeArray =>
    some (.after (.array (doc :: items).reverse) around)
  | .after doc (.object members name :: around), .comma =>
    some (.key ((name, doc) :: members) false around)
  | .after doc (.object members name :: around), .closeObject =>
    some (.after (.object ((name, doc) :: members).reverse) around)
  | _, _ => none

/-- The document of a text: exactly one value. -/
def Document.parse? (text : String) : Option Document := do
  let final ← (← tokens? text).foldlM Document.Parser.next? (.value [])
  match final with
  | .after value [] => some value
  | _ => none

end Json

end GasMachine
