import Mathlib
import GasMachine.Json.Document

/-!
# The tokens of written JSON

What the writer of JSON puts down for an integer, a word or a text, the lexer takes for one token.
A number or a word has no end of its own: it goes on until a character comes that is no part of it.
So there are two things to say of a text: it spells some tokens, the last of which may still be
going on, or it closes them. Marks and blanks close what was spelled before them, and what has been
closed can be followed by anything.

An integer comes back from its digits if it fits 64 bits. A text comes back from its escapes,
whatever characters it has.
-/

set_option autoImplicit false

namespace GasMachine

/-! ## Integers

The digits of a number are those of the library, and what has to be shown of them is that they are
read whole, have no superfluous zero in front and stand for the number. -/

namespace Numeral

/-- An integer as it is written. -/
def ofInt (n : Int) : Numeral :=
  ⟨decide (n < 0), (Nat.toDigits 10 n.natAbs).map digitValue, none, none⟩

theorem toList_toString (n : Int) :
    (toString n).toList = (if n < 0 then ['-'] else []) ++ Nat.toDigits 10 n.natAbs := by
  cases n with
  | ofNat n =>
    have positive : ¬Int.ofNat n < 0 := Int.not_lt.2 (Int.natCast_nonneg n)
    rw [if_neg positive]
    exact Nat.toList_repr
  | negSucc n =>
    rw [if_pos (Int.negSucc_lt_zero n)]
    show ("-" ++ Nat.repr (n + 1)).toList = _
    rw [String.toList_append, Nat.toList_repr]
    rfl

theorem isDigit_of_mem {n : Nat} : ∀ c ∈ Nat.toDigits 10 n, c.isDigit :=
  fun _ => Nat.isDigit_of_mem_toDigits (by decide) (by decide)

theorem takeDigits_toDigits (n : Nat) :
    takeDigits (Nat.toDigits 10 n) = ((Nat.toDigits 10 n).map digitValue, []) := by
  have all := isDigit_of_mem (n := n)
  rw [takeDigits, List.takeWhile_eq_self_iff.2 all, List.dropWhile_eq_nil_iff.2 all]

theorem ofDigits_toDigits (n : Nat) : ofDigits ((Nat.toDigits 10 n).map digitValue) = n := by
  rw [ofDigits, List.foldl_map]
  exact Nat.ofDigitChars_ten_toDigits

theorem digitValue_head?_pos {n : Nat} (positive : 0 < n) {c : Char}
    (first : (Nat.toDigits 10 n).head? = some c) : 0 < digitValue c := by
  induction n using Nat.strongRecOn with
  | _ n ih =>
    rw [Nat.toDigits_eq_if (by decide)] at first
    split at first
    case isTrue small =>
      cases first
      rw [digitValue, Nat.toNat_digitChar_sub_48_of_lt_ten small]
      exact positive
    case isFalse large =>
      rw [List.head?_append_of_ne_nil _ Nat.toDigits_ne_nil] at first
      exact ih (n / 10) (by omega) (by omega) first

/-- A zero in front stands alone. -/
theorem length_toDigits_le_one {n : Nat} {c : Char} (first : (Nat.toDigits 10 n).head? = some c)
    (zero : digitValue c = 0) : (Nat.toDigits 10 n).length ≤ 1 := by
  rcases Nat.eq_zero_or_pos n with rfl | positive
  · exact Nat.le_refl 1
  · exact absurd zero (Nat.ne_of_gt (digitValue_head?_pos positive first))

theorem ofChars?_toString (n : Int) : ofChars? (toString n).toList = some (ofInt n) := by
  have digits := takeDigits_toDigits n.natAbs
  have single (c : Char) := length_toDigits_le_one (n := n.natAbs) (c := c)
  rw [toList_toString, ofInt]
  by_cases negative : n < 0
  case pos => simpa [ofChars?, negative, digits, takeFraction?, takeExponent?] using single
  case neg =>
    -- The match on the sign goes on with all characters.
    have unsigned : ∀ rest, Nat.toDigits 10 n.natAbs ≠ '-' :: rest := by
      intro rest signed
      have first := isDigit_of_mem '-' (signed ▸ List.mem_cons_self)
      cases first
    simpa [ofChars?, negative, digits, takeFraction?, takeExponent?] using single

/-- What fits 64 bits, signed or unsigned, is the same integer again. -/
theorem toInt?_ofInt {n : Int} (low : -(2 ^ 63) ≤ n) (high : n < 2 ^ 64) :
    (ofInt n).toInt? = some n := by
  simp only [toInt?, ofInt, ofDigits_toDigits, Option.isSome_none, Bool.or_self, Bool.false_eq_true,
    if_false, decide_eq_true_eq]
  by_cases negative : n < 0
  case pos =>
    have fits : ¬(n.natAbs = 0 ∨ 2 ^ 63 < n.natAbs) := by omega
    have same : -(n.natAbs : Int) = n := by omega
    rw [if_pos negative, if_neg fits, same]
  case neg =>
    have fits : n.natAbs < 2 ^ 64 := by omega
    have same : (n.natAbs : Int) = n := by omega
    rw [if_neg negative, if_pos fits, same]

end Numeral

/-! ## Escapes

A character is written in one of three ways. Each of them is one unit to the reader, and units never
run into each other, because the reader takes a whole escape before it goes on. -/

namespace Escape

/-- Characters that are written as a backslash and one more character. -/
def short : List Char := ['\x22', '\\', '\x08', '\x0c', '\n', '\r', '\t']

/-- The unit that a character is written as. -/
def unitOf (c : Char) : Unit :=
  if c.toNat < 0x20 ∧ c ∉ short then .code c.toNat else .char c

theorem escapeChar_of_notMem {c : Char} (long : c ∉ short) :
    Json.escapeChar c =
      if c.toNat < 0x20 then ['\\', 'u'] ++ (Hex.padded 4 c.toNat).toList else [c] := by
  simp only [short, List.mem_cons, List.not_mem_nil, or_false, not_or] at long
  simp only [Json.escapeChar, long, or_self, if_false]

/-! ### Control characters -/

/-- The number of a control character, as it is written. -/
def controlDigits (n : Nat) : List Char := ['0', '0', Hex.digit (n / 16), Hex.digit (n % 16)]

theorem toList_padded {n : Nat} (control : n < 0x20) :
    (Hex.padded 4 n).toList = controlDigits n := by
  have all : ∀ n < 0x20, List.replicate (4 - (Nat.toDigits 16 n).length) '0' ++ Nat.toDigits 16 n =
      controlDigits n := by
    decide
  rw [Hex.padded, String.toList_ofList]
  exact all n control

theorem hexUnit?_control : ∀ n < 0x20,
    hexUnit? '0' '0' (Hex.digit (n / 16)) (Hex.digit (n % 16)) = some n := by
  decide

/-- A character that goes on with a text as it is. -/
def IsVisible (c : Char) : Prop := 0x20 ≤ c.toNat ∧ c ≠ '\x22' ∧ c ≠ '\\'

instance : DecidablePred IsVisible := fun _ => inferInstanceAs (Decidable (_ ∧ _))

theorem isVisible_digit : ∀ n < 16, IsVisible (Hex.digit n) := by
  decide

theorem isVisible_of_mem_controlDigits {n : Nat} (control : n < 0x20) :
    ∀ c ∈ controlDigits n, IsVisible c := by
  have zero := isVisible_digit 0 (by decide)
  have upper := isVisible_digit (n / 16) (by omega)
  have lower := isVisible_digit (n % 16) (by omega)
  simp only [controlDigits, List.forall_mem_cons]
  exact ⟨zero, zero, upper, lower, List.forall_mem_nil _⟩

theorem isVisible_of_notMem {c : Char} (long : c ∉ short) (code : ¬c.toNat < 0x20) :
    IsVisible c := by
  refine ⟨Nat.not_lt.1 code, ?_, ?_⟩
  · rintro rfl
    exact long (by decide)
  · rintro rfl
    exact long (by decide)

/-! ### Units -/

theorem units?_letter {c : Char} (other : c ≠ 'u') (rest : List Char) :
    units? ('\\' :: c :: rest) =
      (letter? c).bind fun meant => (units? rest).map (.char meant :: ·) := by
  rw [units?]
  · cases letter? c <;> cases units? rest <;> rfl
  · exact fun _ _ _ _ _ same => absurd same other

theorem units?_code {a b c d : Char} {unit : Nat} (number : hexUnit? a b c d = some unit)
    (rest : List Char) :
    units? ('\\' :: 'u' :: a :: b :: c :: d :: rest) = (units? rest).map (.code unit :: ·) := by
  rw [units?, number]
  cases units? rest <;> rfl

theorem units?_plain {c : Char} (plain : c ≠ '\\') (rest : List Char) :
    units? (c :: rest) = (units? rest).map (.char c :: ·) := by
  rw [units?]
  · cases units? rest <;> rfl
  · exact fun _ _ _ _ _ same => absurd same plain
  · exact fun _ _ same => absurd same plain
  · exact fun same => absurd same plain

theorem units?_escapeChar (c : Char) (rest : List Char) :
    units? (Json.escapeChar c ++ rest) = (units? rest).map (unitOf c :: ·) := by
  by_cases isShort : c ∈ short
  case pos =>
    simp only [short, List.mem_cons, List.not_mem_nil, or_false] at isShort
    rcases isShort with rfl | rfl | rfl | rfl | rfl | rfl | rfl <;>
      exact units?_letter (by decide) rest
  case neg =>
    rw [escapeChar_of_notMem isShort, unitOf]
    simp only [isShort, not_false_eq_true, and_true]
    split
    case isTrue control =>
      rw [toList_padded control]
      exact units?_code (hexUnit?_control _ control) rest
    case isFalse code => exact units?_plain (isVisible_of_notMem isShort code).2.2 rest

theorem units?_flatMap (chars : List Char) :
    units? (chars.flatMap Json.escapeChar) = some (chars.map unitOf) := by
  induction chars with
  | nil => rfl
  | cons c rest ih => rw [List.flatMap_cons, units?_escapeChar, ih, List.map_cons, Option.map_some]

theorem join?_unitOf (chars : List Char) : join? (chars.map unitOf) = some chars := by
  induction chars with
  | nil => rfl
  | cons c rest ih =>
    rw [List.map_cons, unitOf]
    split
    case isTrue control =>
      have single : c.toNat < 0xd800 ∨ 0xe000 ≤ c.toNat := .inl (by omega)
      unfold join?
      simp only [if_pos single, ih, Char.ofNat_toNat]
      rfl
    case isFalse =>
      rw [join?, ih]
      rfl

end Escape

/-- A text as it is written. -/
def RawText.ofString (text : String) : RawText := ⟨text.toList.map Escape.unitOf⟩

theorem RawText.decode?_ofString (text : String) : (ofString text).decode? = some text := by
  rw [decode?, ofString, Escape.join?_unitOf, Option.map_some, String.ofList_toList]

/-! ## Tokens

The lexer reads from left to right and keeps the tokens so far last first, so everything is said for
any tokens before. `Spells` leaves open whether the last token is at its end and `Closes` does not;
a text may be put behind another one only if that closes. -/

namespace Json.Lexer

variable {text more : List Char} {tokens others : List Token} {token : Token} {c : Char}

/-- After the text, the lexer has read these tokens, the last of which may still be going on. -/
def Spells (text : List Char) (tokens : List Token) : Prop :=
  ∀ before, ∃ lexer, text.foldlM next? ⟨.between, before⟩ = some lexer ∧
    lexer.endRun? = some (tokens.reverse ++ before)

/-- After the text, the lexer has read these tokens and is between tokens again. -/
def Closes (text : List Char) (tokens : List Token) : Prop :=
  ∀ before, text.foldlM next? ⟨.between, before⟩ = some ⟨.between, tokens.reverse ++ before⟩

theorem Closes.spells (closes : Closes text tokens) : Spells text tokens :=
  fun before => ⟨_, closes before, rfl⟩

theorem closes_nil : Closes [] [] := fun _ => rfl

theorem Closes.append (first : Closes text tokens) (second : Closes more others) :
    Closes (text ++ more) (tokens ++ others) := by
  intro before
  rw [List.foldlM_append, first before, List.reverse_append, List.append_assoc]
  exact second _

theorem Closes.append_spells (first : Closes text tokens) (second : Spells more others) :
    Spells (text ++ more) (tokens ++ others) := by
  intro before
  rw [List.foldlM_append, first before, List.reverse_append, List.append_assoc]
  exact second _

theorem next?_of_endRun? {lexer : Lexer} (ended : lexer.endRun? = some tokens) (c : Char) :
    lexer.next? c = lexer.outside? c := by
  unfold endRun? at ended
  unfold next?
  cases mode : lexer.mode with
  | between => rfl
  | run chars => rfl
  | text chars => rw [mode] at ended; cases ended
  | escape chars => rw [mode] at ended; cases ended

theorem ofChar?_of_isBlank (blank : isBlank c = true) : Token.ofChar? c = none := by
  simp only [isBlank, Bool.or_eq_true, decide_eq_true_eq] at blank
  rcases blank with ((rfl | rfl) | rfl) | rfl <;> rfl

theorem Spells.mark (spells : Spells text tokens) (isMark : Token.ofChar? c = some token) :
    Closes (text ++ [c]) (tokens ++ [token]) := by
  intro before
  obtain ⟨lexer, read, ended⟩ := spells before
  have notBlank : ¬isBlank c = true := fun blank => nomatch isMark ▸ ofChar?_of_isBlank blank
  have notQuote : c ≠ '\x22' := by
    rintro rfl
    cases isMark
  rw [List.foldlM_append, read]
  show lexer.next? c >>= _ = _
  rw [next?_of_endRun? ended, outside?, if_neg notBlank, if_neg notQuote, isMark, ended]
  simp

theorem Spells.blank (spells : Spells text tokens) (blank : isBlank c = true) :
    Closes (text ++ [c]) tokens := by
  intro before
  obtain ⟨lexer, read, ended⟩ := spells before
  rw [List.foldlM_append, read]
  show lexer.next? c >>= _ = _
  rw [next?_of_endRun? ended, outside?, if_pos blank, ended]
  rfl

theorem closes_blanks : ∀ blanks : List Char, (∀ c ∈ blanks, isBlank c = true) → Closes blanks []
  | [], _ => closes_nil
  | c :: rest, all => by
    rw [List.forall_mem_cons] at all
    exact (closes_nil.spells.blank all.1).append (closes_blanks rest all.2)

theorem Spells.blanks (spells : Spells text tokens) :
    ∀ blanks : List Char, (∀ c ∈ blanks, isBlank c = true) → Spells (text ++ blanks) tokens
  | [], _ => by simpa using spells
  | c :: rest, all => by
    rw [List.forall_mem_cons] at all
    have closes := (spells.blank all.1).append (closes_blanks rest all.2)
    rw [List.append_assoc, List.append_nil] at closes
    exact closes.spells

/-- Inside of a run or a text, characters are collected. -/
theorem foldlM_collected {inside : List Char → Mode} {before : List Token} {text chars : List Char}
    (collected : ∀ c ∈ text, ∀ chars,
      next? ⟨inside chars, before⟩ c = some ⟨inside (c :: chars), before⟩) :
    text.foldlM next? ⟨inside chars, before⟩ = some ⟨inside (text.reverse ++ chars), before⟩ := by
  induction text generalizing chars with
  | nil => rfl
  | cons c rest ih =>
    rw [List.forall_mem_cons] at collected
    rw [List.foldlM_cons, collected.1, List.reverse_cons, List.append_assoc]
    exact ih collected.2

/-! ### Runs

Numbers and words. They are read character by character and looked at as a whole when they end, so
the characters do not matter as long as none of them is a separator. -/

/-- Characters that are no part of a run. -/
def separators : List Char :=
  [' ', '\n', '\t', '\r', '\x22', '[', ']', '\x7b', '\x7d', ':', ',']

theorem next?_between (plain : c ∉ separators) (before : List Token) :
    next? ⟨.between, before⟩ c = some ⟨.run [c], before⟩ := by
  simp only [separators, List.mem_cons, List.not_mem_nil, or_false, not_or] at plain
  simp [next?, outside?, isBlank, Token.ofChar?, plain]

theorem next?_run (plain : c ∉ separators) (chars : List Char) (before : List Token) :
    next? ⟨.run chars, before⟩ c = some ⟨.run (c :: chars), before⟩ := by
  simp only [separators, List.mem_cons, List.not_mem_nil, or_false, not_or] at plain
  simp [next?, outside?, isBlank, Token.ofChar?, plain]

theorem spells_run {run : List Char} (nonempty : run ≠ []) (plain : ∀ c ∈ run, c ∉ separators)
    (isToken : Token.ofRun? run = some token) : Spells run [token] := by
  intro before
  obtain ⟨c, rest, rfl⟩ := List.exists_cons_of_ne_nil nonempty
  rw [List.forall_mem_cons] at plain
  refine ⟨⟨.run (rest.reverse ++ [c]), before⟩, ?_, ?_⟩
  · rw [List.foldlM_cons, next?_between plain.1]
    exact foldlM_collected fun c member chars => next?_run (plain.2 c member) chars before
  · show (Token.ofRun? (rest.reverse ++ [c]).reverse).map _ = _
    rw [List.reverse_append, List.reverse_reverse, List.reverse_singleton, List.singleton_append,
      isToken]
    rfl

theorem spells_null : Spells "null".toList [.null] :=
  spells_run (List.cons_ne_nil _ _) (by simp [separators]) rfl

theorem spells_bool (value : Bool) :
    Spells (if value then "true" else "false").toList [.bool value] := by
  cases value <;> exact spells_run (List.cons_ne_nil _ _) (by simp [separators]) rfl

theorem ofChars?_word :
    ∀ word ∈ [['n', 'u', 'l', 'l'], ['t', 'r', 'u', 'e'], ['f', 'a', 'l', 's', 'e']],
      Numeral.ofChars? word = none := by
  decide

theorem ofRun?_of_numeral {run : List Char} {numeral : Numeral}
    (read : Numeral.ofChars? run = some numeral) : Token.ofRun? run = some (.number numeral) := by
  unfold Token.ofRun?
  rw [if_neg, if_neg, if_neg, read, Option.map_some] <;>
    · rintro rfl
      rw [ofChars?_word _ (by decide)] at read
      cases read

theorem notMem_separators_of_isDigit (digit : c.isDigit) : c ∉ separators := by
  intro separator
  have others : ∀ c ∈ separators, c.isDigit = false := by simp [separators]
  rw [others c separator] at digit
  cases digit

theorem spells_int (n : Int) : Spells (toString n).toList [.number (Numeral.ofInt n)] := by
  apply spells_run
  case nonempty =>
    rw [Numeral.toList_toString]
    exact List.append_ne_nil_of_right_ne_nil _ Nat.toDigits_ne_nil
  case plain =>
    rw [Numeral.toList_toString]
    intro c member
    rcases List.mem_append.1 member with sign | digit
    · split at sign
      · rw [List.mem_singleton.1 sign]
        decide
      · cases sign
    · exact notMem_separators_of_isDigit (Numeral.isDigit_of_mem c digit)
  case isToken => exact ofRun?_of_numeral (Numeral.ofChars?_toString n)

/-! ### Texts

Inside a text the lexer collects characters and looks only for quotes and backslashes. An escape has
at most one of these behind its backslash, and that one is taken along. -/

theorem next?_text (visible : Escape.IsVisible c) (chars : List Char) (before : List Token) :
    next? ⟨.text chars, before⟩ c = some ⟨.text (c :: chars), before⟩ := by
  obtain ⟨code, notQuote, notEscape⟩ := visible
  simp only [next?, if_neg notQuote, if_neg notEscape, if_neg (Nat.not_lt.2 code)]

theorem foldlM_visible {visible : List Char} (all : ∀ c ∈ visible, Escape.IsVisible c)
    (chars : List Char) (before : List Token) :
    visible.foldlM next? ⟨.text chars, before⟩ =
      some ⟨.text (visible.reverse ++ chars), before⟩ :=
  foldlM_collected fun c member chars => next?_text (all c member) chars before

theorem foldlM_escapeChar (c : Char) (chars : List Char) (before : List Token) :
    (escapeChar c).foldlM next? ⟨.text chars, before⟩ =
      some ⟨.text ((escapeChar c).reverse ++ chars), before⟩ := by
  by_cases isShort : c ∈ Escape.short
  case pos =>
    simp only [Escape.short, List.mem_cons, List.not_mem_nil, or_false] at isShort
    rcases isShort with rfl | rfl | rfl | rfl | rfl | rfl | rfl <;> rfl
  case neg =>
    rw [Escape.escapeChar_of_notMem isShort]
    split
    case isTrue control =>
      rw [Escape.toList_padded control, List.foldlM_append, List.reverse_append, List.append_assoc]
      exact foldlM_visible (Escape.isVisible_of_mem_controlDigits control) ('u' :: '\\' :: chars)
        before
    case isFalse code =>
      have visible := Escape.isVisible_of_notMem isShort code
      exact foldlM_visible (List.forall_mem_singleton.2 visible) chars before

theorem foldlM_flatMap_escapeChar (rest chars : List Char) (before : List Token) :
    (rest.flatMap escapeChar).foldlM next? ⟨.text chars, before⟩ =
      some ⟨.text ((rest.flatMap escapeChar).reverse ++ chars), before⟩ := by
  induction rest generalizing chars with
  | nil => rfl
  | cons c rest ih =>
    rw [List.flatMap_cons, List.foldlM_append, foldlM_escapeChar, List.reverse_append,
      List.append_assoc]
    exact ih _

theorem closes_quote (text : String) :
    Closes (quote text).toList [.text (RawText.ofString text)] := by
  intro before
  rw [quote, String.toList_ofList, List.foldlM_cons]
  show (text.toList.flatMap escapeChar ++ ['\x22']).foldlM next? ⟨.text [], before⟩ = _
  rw [List.foldlM_append, foldlM_flatMap_escapeChar, List.append_nil]
  show next? ⟨.text (text.toList.flatMap escapeChar).reverse, before⟩ '\x22' >>= _ = _
  simp [next?, Escape.units?_flatMap, RawText.ofString]

/-! ### Texts of several tokens

What stands between items closes the one before it and is one token, with any blanks behind it. So
lists of items are put together in the same way for every layout. -/

/-- A text that stands between others for one token. -/
def Separates (separator : List Char) (token : Token) : Prop :=
  ∀ text tokens, Spells text tokens → Closes (text ++ separator) (tokens ++ [token])

/-- A mark, also with blanks behind it. -/
theorem separates_mark (isMark : Token.ofChar? c = some token) {blanks : List Char}
    (all : ∀ c ∈ blanks, isBlank c = true) : Separates (c :: blanks) token := by
  intro text tokens spells
  have closes := (spells.mark isMark).append (closes_blanks blanks all)
  rw [List.append_assoc, List.append_nil] at closes
  exact closes

theorem Spells.intercalate {separator : List Char} (separates : Separates separator token)
    {texts : List (List Char)} {parts : List (List Token)}
    (each : List.Forall₂ Spells texts parts) :
    Spells (separator.intercalate texts) ([token].intercalate parts) := by
  induction each with
  | nil => exact closes_nil.spells
  | @cons text tokens texts parts spells each ih =>
    cases each with
    | nil => simpa using spells
    | cons next others =>
      rw [List.intercalate_cons_cons, List.intercalate_cons_cons]
      exact (separates text tokens spells).append_spells ih

/-- A list between two marks, with blanks inside of them or without. -/
theorem Spells.between {first last : Char} {opening closing : Token} {before after : List Char}
    (spells : Spells text tokens) (opens : Token.ofChar? first = some opening)
    (closes : Token.ofChar? last = some closing) (blankBefore : ∀ c ∈ before, isBlank c = true)
    (blankAfter : ∀ c ∈ after, isBlank c = true) :
    Spells (first :: before ++ text ++ after ++ [last]) (opening :: (tokens ++ [closing])) := by
  have opened := separates_mark opens blankBefore [] [] closes_nil.spells
  exact (((opened.append_spells spells).blanks after blankAfter).mark closes).spells

end Json.Lexer

end GasMachine
