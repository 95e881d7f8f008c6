import ObjectBoundary.Json.Decode
import ObjectBoundary.Proofs.Json.Lexemes

/-!
# Reading back the indented text of a value

The reader takes the lexemes of a value as one step: it hands the value to whatever container is
open, to any depth. With the lexemes of the text this gives back every value from its indented text.
-/

namespace ObjectBoundary.Json

namespace Reader

/-- Takes one lexeme and goes on. -/
theorem run?_step (reader : Reader) (token : Token) (tokens : List Token) :
    reader.run? (token :: tokens) = (reader.step? token).bind (·.run? tokens) := by
  rw [run?]
  cases reader.step? token <;> rfl

/-- The first item of an array is read as any value is. -/
theorem run?_firstItem (json : Json) (stack : List Frame) (rest : List Token) :
    run? ⟨stack, .firstItem⟩ (json.lexemes ++ rest) =
      run? ⟨stack, .value⟩ (json.lexemes ++ rest) := by
  unfold lexemes
  split <;> rfl

mutual

theorem run?_lexemes : ∀ (json : Json) (stack : List Frame) (rest : List Token),
    run? ⟨stack, .value⟩ (json.lexemes ++ rest) = (complete? json stack).bind (·.run? rest)
  | .null, stack, rest => run?_step ..
  | .bool _, stack, rest => run?_step ..
  | .integer _, stack, rest => run?_step ..
  | .decimal _, stack, rest => run?_step ..
  | .text _, stack, rest => run?_step ..
  | .array [], stack, rest => run?_step ⟨.array [] :: stack, .firstItem⟩ .closeArray rest
  | .array (item :: items), stack, rest => by
    have first := run?_lexemes item (.array [] :: stack) (itemLexemes items ++ .closeArray :: rest)
    have others := run?_itemLexemes items [item] stack rest
    rw [lexemes, List.cons_append, List.append_assoc, List.append_assoc]
    exact (run?_firstItem ..).trans (first.trans others)
  | .object [], stack, rest => run?_step ⟨.fields [] :: stack, .firstField⟩ .closeObject rest
  | .object ((name, value) :: fields), stack, rest => by
    have first := run?_lexemes value (.field [] name :: stack)
      (fieldLexemes fields ++ .closeObject :: rest)
    have others := run?_fieldLexemes fields [(name, value)] stack rest
    rw [lexemes, List.cons_append, List.cons_append, List.cons_append, List.append_assoc,
      List.append_assoc]
    exact first.trans others

theorem run?_itemLexemes : ∀ (items done : List Json) (stack : List Frame) (rest : List Token),
    run? ⟨.array done :: stack, .afterValue⟩ (itemLexemes items ++ .closeArray :: rest) =
      (complete? (.array (done.reverse ++ items)) stack).bind (·.run? rest)
  | [], done, stack, rest => by
    rw [List.append_nil]
    exact run?_step ⟨.array done :: stack, .afterValue⟩ .closeArray rest
  | item :: items, done, stack, rest => by
    have first := run?_lexemes item (.array done :: stack)
      (itemLexemes items ++ .closeArray :: rest)
    have others := run?_itemLexemes items (item :: done) stack rest
    rw [itemLexemes, List.cons_append, List.append_assoc]
    rw [List.reverse_cons, List.append_assoc] at others
    exact first.trans others

theorem run?_fieldLexemes : ∀ (fields done : List (Option String × Json)) (stack : List Frame)
    (rest : List Token),
    run? ⟨.fields done :: stack, .afterValue⟩ (fieldLexemes fields ++ .closeObject :: rest) =
      (complete? (.object (done.reverse ++ fields)) stack).bind (·.run? rest)
  | [], done, stack, rest => by
    rw [List.append_nil]
    exact run?_step ⟨.fields done :: stack, .afterValue⟩ .closeObject rest
  | (name, value) :: fields, done, stack, rest => by
    have first := run?_lexemes value (.field done name :: stack)
      (fieldLexemes fields ++ .closeObject :: rest)
    have others := run?_fieldLexemes fields ((name, value) :: done) stack rest
    rw [fieldLexemes, List.cons_append, List.cons_append, List.cons_append, List.append_assoc]
    rw [List.reverse_cons, List.append_assoc] at others
    exact first.trans others

end

end Reader

/-- The indented text of a value denotes that value. -/
theorem parse?_indented {json : Json} (spelled : Spelled json) :
    parse? json.indented = some json := by
  have run := Reader.run?_lexemes json [] []
  rw [List.append_nil] at run
  have found := tokens?_indentedChars spelled 0
  simp [parse?, indented, found, run, Reader.complete?, Reader.run?]

theorem decode_indented {α : Type} (take : Json → Decoded α) {json : Json}
    (spelled : Spelled json) : decode take json.indented = take json := by
  rw [decode, parse?_indented spelled]

end ObjectBoundary.Json
