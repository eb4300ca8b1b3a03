import GasMachine.Proofs.JsonTokens
import GasMachine.Json.Reading

/-!
# Written JSON read back

The text of a value, in either layout, is read as the document of that value: `parse?_of_mem_texts`.
The way there has two halves, as the reader has two passes. The tokens of a document are parsed as
that document, by induction on it, with the containers around it and what has been read of the
innermost of them. The text of a value spells the tokens of its document, by induction on the value;
the layouts differ only in the blanks between tokens.

Doubles are left out, because their text need not be that of the number.
-/

set_option autoImplicit false

namespace GasMachine.Json

/-! ## Tokens of a document

By induction on the document, with the containers around it as they come. The last two of the three
statements carry what has been read of the innermost container, without which the step to the next
item would not go through. -/

mutual

/-- The tokens of a document. -/
def Document.tokens : Document → List Token
  | .null => [.null]
  | .bool value => [.bool value]
  | .number numeral => [.number numeral]
  | .text raw => [.text raw]
  | .array items =>
    .openArray :: ([.comma].intercalate (Document.itemTokens items) ++ [.closeArray])
  | .object members =>
    .openObject :: ([.comma].intercalate (Document.memberTokens members) ++ [.closeObject])

def Document.itemTokens : List Document → List (List Token)
  | [] => []
  | item :: rest => item.tokens :: itemTokens rest

def Document.memberTokens : List (RawText × Document) → List (List Token)
  | [] => []
  | (key, value) :: rest => (.text key :: .colon :: value.tokens) :: memberTokens rest

end

namespace Document

theorem exists_intercalate_itemTokens (item : Document) (rest : List Document) :
    ∃ others, [Token.comma].intercalate (itemTokens (item :: rest)) = item.tokens ++ others := by
  cases rest with
  | nil => exact ⟨[], by simp [itemTokens]⟩
  | cons next rest => exact ⟨_, List.intercalate_cons_cons.trans (List.append_assoc _ _ _)⟩

/-- The first item of an array is read as any other. -/
theorem foldlM_firstItem (item : Document) (others : List Token) (around : List Open) :
    (item.tokens ++ others).foldlM Parser.next? (.firstItem around) =
      (item.tokens ++ others).foldlM Parser.next? (.value (.array [] :: around)) := by
  cases item <;> rfl

theorem foldlM_member (key : RawText) (value : List Token) (done : List (RawText × Document))
    (mayClose : Bool) (around : List Open) :
    (.text key :: .colon :: value).foldlM Parser.next? (.key done mayClose around) =
      value.foldlM Parser.next? (.value (.object done key :: around)) := by
  cases mayClose <;> rfl

mutual

theorem foldlM_tokens : ∀ (doc : Document) (around : List Open),
    doc.tokens.foldlM Parser.next? (.value around) = some (.after doc around)
  | .null, _ | .bool _, _ | .number _, _ | .text _, _ => rfl
  | .array items, around => by
    have inside := foldlM_itemTokens items [] around
    cases items with
    | nil => rfl
    | cons item rest =>
      obtain ⟨others, first⟩ := exists_intercalate_itemTokens item rest
      rw [first, List.append_assoc, ← foldlM_firstItem] at inside
      rw [tokens, first, List.append_assoc]
      exact inside (List.cons_ne_nil item rest)
  | .object members, around => by
    have inside := foldlM_memberTokens members [] true around
    cases members with
    | nil => rfl
    | cons member rest => exact inside (List.cons_ne_nil member rest)

/-- Items of an array, some of which have been read, and its end. -/
theorem foldlM_itemTokens : ∀ (items done : List Document) (around : List Open), items ≠ [] →
    ([Token.comma].intercalate (itemTokens items) ++ [Token.closeArray]).foldlM Parser.next?
      (.value (.array done :: around)) = some (.after (.array (done.reverse ++ items)) around)
  | [], _, _, empty => absurd rfl empty
  | [item], done, around, _ => by
    have first := foldlM_tokens item (.array done :: around)
    simp [itemTokens, first, Parser.next?]
  | item :: next :: rest, done, around, _ => by
    have first := foldlM_tokens item (.array done :: around)
    have others := foldlM_itemTokens (next :: rest) (item :: done) around
      (List.cons_ne_nil next rest)
    rw [List.reverse_cons, List.append_assoc] at others
    rw [itemTokens, itemTokens, List.intercalate_cons_cons, List.append_assoc, List.append_assoc,
      List.foldlM_append, first]
    exact others

/-- Members of an object, some of which have been read, and its end. -/
theorem foldlM_memberTokens : ∀ (members done : List (RawText × Document)) (mayClose : Bool)
    (around : List Open), members ≠ [] →
    ([Token.comma].intercalate (memberTokens members) ++ [Token.closeObject]).foldlM Parser.next?
      (.key done mayClose around) = some (.after (.object (done.reverse ++ members)) around)
  | [], _, _, _, empty => absurd rfl empty
  | [(key, value)], done, mayClose, around, _ => by
    have first := foldlM_tokens value (.object done key :: around)
    rw [memberTokens, memberTokens, List.intercalate_singleton, List.cons_append, List.cons_append,
      foldlM_member]
    simp [first, Parser.next?]
  | (key, value) :: next :: rest, done, mayClose, around, _ => by
    have first := foldlM_tokens value (.object done key :: around)
    have others := foldlM_memberTokens (next :: rest) ((key, value) :: done) false around
      (List.cons_ne_nil next rest)
    rw [List.reverse_cons, List.append_assoc] at others
    rw [memberTokens, memberTokens, List.intercalate_cons_cons, List.append_assoc,
      List.append_assoc, List.cons_append, List.cons_append, foldlM_member, List.foldlM_append,
      first]
    exact others

end

theorem parse?_of_spells {text : String} {doc : Document}
    (spells : Lexer.Spells text.toList doc.tokens) : parse? text = some doc := by
  obtain ⟨lexer, read, ended⟩ := spells []
  have lexed : tokens? text = some doc.tokens := by
    rw [tokens?, read]
    show lexer.endRun?.bind _ = _
    rw [ended, Option.bind_some, List.append_nil, List.reverse_reverse]
    rfl
  rw [parse?, lexed]
  show (doc.tokens.foldlM Parser.next? (.value [])).bind _ = _
  rw [foldlM_tokens]
  rfl

end Document

/-! ## The document of a value

A value has at most one document, and none if it contains a double. -/

mutual

/-- The document that a value is written as; none if there is a double in it. -/
def document? : Json → Option Document
  | .null => some .null
  | .bool value => some (.bool value)
  | .int value => some (.number (Numeral.ofInt value))
  | .double _ => none
  | .string text => some (.text (RawText.ofString text))
  | .array items => (itemDocuments? items).map .array
  | .object members => (memberDocuments? members).map .object

def itemDocuments? : List Json → Option (List Document)
  | [] => some []
  | item :: rest => do return (← document? item) :: (← itemDocuments? rest)

def memberDocuments? : List (String × Json) → Option (List (RawText × Document))
  | [] => some []
  | (key, value) :: rest => do
    return (RawText.ofString key, ← document? value) :: (← memberDocuments? rest)

end

theorem itemDocuments?_cons {item : Json} {rest : List Json} {docs : List Document}
    (written : itemDocuments? (item :: rest) = some docs) :
    ∃ doc others, docs = doc :: others ∧ document? item = some doc ∧
      itemDocuments? rest = some others := by
  simp only [itemDocuments?, Option.bind_eq_bind, Option.bind_eq_some_iff, Option.pure_def,
    Option.some.injEq] at written
  obtain ⟨doc, first, others, inside, rfl⟩ := written
  exact ⟨doc, others, rfl, first, inside⟩

theorem memberDocuments?_cons {key : String} {value : Json} {rest : List (String × Json)}
    {docs : List (RawText × Document)}
    (written : memberDocuments? ((key, value) :: rest) = some docs) :
    ∃ doc others, docs = (RawText.ofString key, doc) :: others ∧ document? value = some doc ∧
      memberDocuments? rest = some others := by
  simp only [memberDocuments?, Option.bind_eq_bind, Option.bind_eq_some_iff, Option.pure_def,
    Option.some.injEq] at written
  obtain ⟨doc, first, others, inside, rfl⟩ := written
  exact ⟨doc, others, rfl, first, inside⟩

/-! ## Texts of a value

By induction on the value, along the recursion of the writer, and once for each layout. Neither
needs to know what follows: a text spells its tokens, and what comes behind it closes the last of
them. -/

open Lexer

theorem spells_member {key : String} {colon text : List Char} {tokens : List Token}
    (separates : Separates colon .colon) (spells : Spells text tokens) :
    Spells ((quote key).toList ++ colon ++ text)
      (.text (RawText.ofString key) :: .colon :: tokens) :=
  (separates _ _ (closes_quote key).spells).append_spells spells

/-! ### Without blanks -/

theorem spells_enclosed {opening closing : String} {first last : Token} {c d : Char}
    (opens : opening.toList = [c]) (closes : closing.toList = [d])
    (isFirst : Token.ofChar? c = some first) (isLast : Token.ofChar? d = some last)
    {texts : List String} {parts : List (List Token)}
    (each : List.Forall₂ Spells (texts.map String.toList) parts) :
    Spells (opening ++ ",".intercalate texts ++ closing).toList
      (first :: ([.comma].intercalate parts ++ [last])) := by
  rw [String.toList_append, String.toList_append, String.toList_intercalate, opens, closes]
  have comma : Separates ",".toList .comma := separates_mark rfl (List.forall_mem_nil _)
  have nothing : ∀ c ∈ ([] : List Char), isBlank c = true := List.forall_mem_nil _
  have inside := (Spells.intercalate comma each).between isFirst isLast nothing nothing
  simpa using inside

mutual

theorem spells_compact : ∀ (json : Json) (doc : Document), json.document? = some doc →
    Spells json.compact.toList doc.tokens
  | .null, _, rfl => by
    rw [compact]
    exact spells_null
  | .bool value, _, rfl => by
    rw [compact]
    exact spells_bool value
  | .int value, _, rfl => by
    rw [compact]
    exact spells_int value
  | .string text, _, rfl => by
    rw [compact]
    exact (closes_quote text).spells
  | .array items, _, written => by
    obtain ⟨docs, inside, rfl⟩ := Option.map_eq_some_iff.1 written
    rw [compact]
    exact spells_enclosed rfl rfl rfl rfl (spells_compactItems items docs inside)
  | .object members, _, written => by
    obtain ⟨docs, inside, rfl⟩ := Option.map_eq_some_iff.1 written
    rw [compact]
    exact spells_enclosed rfl rfl rfl rfl (spells_compactMembers members docs inside)

theorem spells_compactItems : ∀ (items : List Json) (docs : List Document),
    itemDocuments? items = some docs →
      List.Forall₂ Spells ((compactItems items).map String.toList) (Document.itemTokens docs)
  | [], _, rfl => .nil
  | item :: rest, _, written => by
    obtain ⟨doc, others, rfl, first, inside⟩ := itemDocuments?_cons written
    exact .cons (spells_compact item doc first) (spells_compactItems rest others inside)

theorem spells_compactMembers : ∀ (members : List (String × Json))
    (docs : List (RawText × Document)), memberDocuments? members = some docs →
      List.Forall₂ Spells ((compactMembers members).map String.toList) (Document.memberTokens docs)
  | [], _, rfl => .nil
  | (key, value) :: rest, _, written => by
    obtain ⟨doc, others, rfl, first, inside⟩ := memberDocuments?_cons written
    refine .cons ?_ (spells_compactMembers rest others inside)
    rw [String.toList_append, String.toList_append]
    have colon : Separates ":".toList .colon := separates_mark rfl (List.forall_mem_nil _)
    exact spells_member colon (spells_compact value doc first)

end

/-! ### One item or member a line -/

theorem isBlank_of_mem_newline (level : Nat) : ∀ c ∈ (newline level).toList, isBlank c = true := by
  simp [newline, isBlank]

theorem spells_onLines {opening closing : String} {first last : Token} {c d : Char} (level : Nat)
    (opens : opening.toList = [c]) (closes : closing.toList = [d])
    (isFirst : Token.ofChar? c = some first) (isLast : Token.ofChar? d = some last)
    {texts : List String} {parts : List (List Token)}
    (each : List.Forall₂ Spells (texts.map String.toList) parts) :
    Spells (onLines level opening closing texts).toList
      (first :: ([.comma].intercalate parts ++ [last])) := by
  cases texts with
  | nil => simpa [onLines] using spells_enclosed opens closes isFirst isLast each
  | cons text texts =>
    have comma : Separates ("," ++ newline (level + 1)).toList .comma := by
      rw [String.toList_append]
      exact separates_mark rfl (isBlank_of_mem_newline (level + 1))
    have inside := (Spells.intercalate comma each).between isFirst isLast
      (isBlank_of_mem_newline (level + 1)) (isBlank_of_mem_newline level)
    simp only [onLines, String.toList_append, String.toList_intercalate, opens, closes] at inside ⊢
    exact inside

mutual

theorem spells_prettyAt : ∀ (json : Json) (level : Nat) (doc : Document),
    json.document? = some doc → Spells (json.prettyAt level).toList doc.tokens
  | .null, _, _, written | .bool _, _, _, written | .int _, _, _, written
  | .string _, _, _, written => by
    simpa only [prettyAt] using spells_compact _ _ written
  | .array items, level, _, written => by
    obtain ⟨docs, inside, rfl⟩ := Option.map_eq_some_iff.1 written
    rw [prettyAt]
    have each := spells_prettyItems items (level + 1) docs inside
    exact spells_onLines level rfl rfl rfl rfl each
  | .object members, level, _, written => by
    obtain ⟨docs, inside, rfl⟩ := Option.map_eq_some_iff.1 written
    rw [prettyAt]
    have each := spells_prettyMembers members (level + 1) docs inside
    exact spells_onLines level rfl rfl rfl rfl each

theorem spells_prettyItems : ∀ (items : List Json) (level : Nat) (docs : List Document),
    itemDocuments? items = some docs →
      List.Forall₂ Spells ((prettyItems level items).map String.toList) (Document.itemTokens docs)
  | [], _, _, rfl => .nil
  | item :: rest, level, _, written => by
    obtain ⟨doc, others, rfl, first, inside⟩ := itemDocuments?_cons written
    exact .cons (spells_prettyAt item level doc first) (spells_prettyItems rest level others inside)

theorem spells_prettyMembers : ∀ (members : List (String × Json)) (level : Nat)
    (docs : List (RawText × Document)), memberDocuments? members = some docs →
      List.Forall₂ Spells ((prettyMembers level members).map String.toList)
        (Document.memberTokens docs)
  | [], _, _, rfl => .nil
  | (key, value) :: rest, level, _, written => by
    obtain ⟨doc, others, rfl, first, inside⟩ := memberDocuments?_cons written
    refine .cons ?_ (spells_prettyMembers rest level others inside)
    rw [String.toList_append, String.toList_append]
    have colon : Separates ": ".toList .colon :=
      separates_mark rfl (List.forall_mem_singleton.2 rfl)
    exact spells_member colon (spells_prettyAt value level doc first)

end

/-- The texts of a value, without blanks and with one item or member a line. -/
def texts (json : Json) : List String := [json.compact, json.pretty]

/-- The text of a value is read as the document of the value. -/
theorem parse?_of_mem_texts {json : Json} {doc : Document} (written : json.document? = some doc) :
    ∀ text ∈ json.texts, Document.parse? text = some doc := by
  intro text member
  apply Document.parse?_of_spells
  rcases List.mem_pair.1 member with rfl | rfl
  · exact spells_compact json doc written
  · exact spells_prettyAt json 0 doc written

end GasMachine.Json
