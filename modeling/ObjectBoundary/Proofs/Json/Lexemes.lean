import Mathlib.Data.List.TakeWhile
import ObjectBoundary.Json.Printer
import ObjectBoundary.Json.Token

/-!
# The lexemes of an indented text

Reading the indented text of a value one character at a time gives the lexemes of that value:
blanks are passed over, a string literal gives back its text whatever characters are in it, and a
word is complete as soon as a character follows that cannot belong to it.
-/

namespace ObjectBoundary.Json

/-! ### Numerals -/

/-- A numeral in the decimal system is made of digits. -/
theorem isDigit_toDigits (n : Nat) : ∀ c ∈ Nat.toDigits 10 n, c.isDigit = true :=
  fun _ hc => Nat.isDigit_of_mem_toDigits (by decide) (by decide) hc

theorem decimal?_of_isDigit {cs : List Char} (ne : cs ≠ [])
    (digits : ∀ c ∈ cs, c.isDigit = true) :
    Text.decimal? cs = some (Nat.ofDigitChars 10 cs 0) := by
  have values : cs.mapM Text.decimalValue? = some (cs.map fun c => c.toNat - '0'.toNat) := by
    clear ne
    induction cs with
    | nil => rfl
    | cons c cs ih =>
      have first : Text.decimalValue? c = some (c.toNat - '0'.toNat) := by
        simp [Text.decimalValue?, digits c List.mem_cons_self]
      have others := ih fun d hd => digits d (List.mem_cons_of_mem c hd)
      rw [List.mapM_cons, first, others]
      rfl
  have sum : ∀ start, Text.valueFrom 10 start (cs.map fun c => c.toNat - '0'.toNat) =
      Nat.ofDigitChars 10 cs start := by
    intro start
    rw [Text.valueFrom, List.foldl_map, Nat.ofDigitChars_eq_foldl]
    simp only [Nat.mul_comm]
  simp only [Text.decimal?, List.isEmpty_iff, ne, if_false, values, Option.map_some, sum]

theorem decimal?_toDigits (n : Nat) : Text.decimal? (Nat.toDigits 10 n) = some n := by
  rw [decimal?_of_isDigit Nat.toDigits_ne_nil (isDigit_toDigits n), Nat.ofDigitChars_ten_toDigits]

theorem head?_toDigits_ne_zero {n : Nat} (pos : 0 < n) :
    (Nat.toDigits 10 n).head? ≠ some '0' := by
  induction n using Nat.strongRecOn with
  | _ n ih =>
    rw [Nat.toDigits_eq_if (by decide)]
    split
    next small =>
      have digit : ∀ k < 10, 0 < k → [Nat.digitChar k].head? ≠ some '0' := by decide
      exact digit n small pos
    next large =>
      have smaller := ih (n / 10) (by omega) (by omega)
      have ne : Nat.toDigits 10 (n / 10) ≠ [] := Nat.toDigits_ne_nil
      obtain ⟨c, cs, hcs⟩ := List.exists_cons_of_ne_nil ne
      rw [hcs] at smaller ⊢
      exact smaller

/-- Only the numeral of zero begins with a zero. -/
theorem toDigits_no_leading_zero (n : Nat) :
    ¬ (1 < (Nat.toDigits 10 n).length ∧ (Nat.toDigits 10 n).head? = some '0') := by
  rintro ⟨long, zero⟩
  rcases Nat.eq_zero_or_pos n with rfl | pos
  · simp at long
  · exact head?_toDigits_ne_zero pos zero

namespace Token

theorem unsignedNumber?_toDigits (negative : Bool) (n : Nat) :
    unsignedNumber? negative (Nat.toDigits 10 n) =
      if negative then
        if n = 0 then some (.decimal (String.ofList ('-' :: Nat.toDigits 10 n)))
        else some (.integer (-(n : Int)))
      else some (.integer n) := by
  have all : (Nat.toDigits 10 n).takeWhile Char.isDigit = Nat.toDigits 10 n :=
    List.takeWhile_eq_self_iff.mpr (isDigit_toDigits n)
  have none : (Nat.toDigits 10 n).dropWhile Char.isDigit = [] :=
    List.dropWhile_eq_nil_iff.mpr (isDigit_toDigits n)
  have lead : ((Nat.toDigits 10 n).length > 1 && (Nat.toDigits 10 n).head? == some '0') =
      false := by
    simpa using toDigits_no_leading_zero n
  simp only [unsignedNumber?, all, none, decimal?_toDigits, lead]
  cases negative <;> simp

/-! ### Words -/

/-- A spelling that stays one word and has a value. -/
structure IsWord (cs : List Char) (value : Json) : Prop where
  ne_nil : cs ≠ []
  whole : ∀ c ∈ cs, endsWord c = false
  value_eq : wordValue? cs = some value

theorem isWord_null : IsWord "null".toList .null :=
  ⟨by decide, by simp [endsWord, isSpace, mark?], rfl⟩

theorem isWord_true : IsWord "true".toList (.bool true) :=
  ⟨by decide, by simp [endsWord, isSpace, mark?], rfl⟩

theorem isWord_false : IsWord "false".toList (.bool false) :=
  ⟨by decide, by simp [endsWord, isSpace, mark?], rfl⟩

theorem mem_of_endsWord {c : Char} (h : endsWord c = true) :
    c ∈ [' ', '\n', '\r', '\t', '"', '\x7b', '\x7d', '[', ']', ':', ','] := by
  unfold endsWord isSpace mark? at h
  split_ifs at h <;> simp_all [or_assoc]

theorem endsWord_of_isDigit {c : Char} (h : c.isDigit = true) : endsWord c = false := by
  cases ends : endsWord c with
  | false => rfl
  | true =>
    have others : ∀ d ∈ [' ', '\n', '\r', '\t', '"', '\x7b', '\x7d', '[', ']', ':', ','],
        d.isDigit = false := by simp
    rw [others c (mem_of_endsWord ends)] at h
    cases h

/-- A text of digits is none of the literals. -/
theorem wordValue?_of_isDigit {cs : List Char} (digits : ∀ c ∈ cs, c.isDigit = true) :
    wordValue? cs = unsignedNumber? false cs := by
  cases cs with
  | nil => rfl
  | cons c cs =>
    have digit := digits c List.mem_cons_self
    have other : ∀ d, d.isDigit = false → c ≠ d := by
      rintro d hd rfl
      simp [digit] at hd
    have n := other 'n' rfl
    have t := other 't' rfl
    have f := other 'f' rfl
    have minus := other '-' rfl
    simp [wordValue?, n, t, f, minus]

theorem isWord_integer (n : Int) : IsWord (integerChars n) (.integer n) := by
  cases n with
  | ofNat k =>
    have spelled : integerChars (.ofNat k) = Nat.toDigits 10 k := by
      simp [integerChars, Text.signedDecimal, Text.decimal]
    rw [spelled]
    refine ⟨Nat.toDigits_ne_nil, fun c hc => endsWord_of_isDigit (isDigit_toDigits k c hc), ?_⟩
    rw [wordValue?_of_isDigit (isDigit_toDigits k), unsignedNumber?_toDigits]
    rfl
  | negSucc k =>
    have spelled : integerChars (.negSucc k) = '-' :: Nat.toDigits 10 (k + 1) := by
      simp [integerChars, Text.signedDecimal, Text.decimal]
    rw [spelled]
    refine ⟨by simp, fun c hc => ?_, ?_⟩
    · rcases List.mem_cons.mp hc with rfl | hc
      · decide
      · exact endsWord_of_isDigit (isDigit_toDigits (k + 1) c hc)
    · have number := unsignedNumber?_toDigits true (k + 1)
      simpa [wordValue?, Int.negSucc_eq] using number

/-! ### Runs of the machine -/

/-- Whether a word in front of a text would end there. -/
def Apart : List Char → Prop
  | [] => True
  | c :: _ => endsWord c = true

theorem Apart.append {cs rest : List Char} (first : Apart cs) (last : Apart rest) :
    Apart (cs ++ rest) := by
  cases cs with
  | nil => exact last
  | cons c cs => exact first

theorem scan_open {c : Char} {found : List Token} {rest : List Char} :
    scan found .between (c :: rest) = scan ((open? c).1 ++ found) (open? c).2 rest := rfl

theorem open?_of_not_endsWord {c : Char} (h : endsWord c = false) : open? c = ([], .word [c]) := by
  unfold endsWord at h
  unfold open?
  cases space : isSpace c <;> cases mark : mark? c <;> simp_all

/-- A word is complete in front of a text that it cannot reach into. -/
theorem scan_word_end {reversed : List Char} {value : Json} {found : List Token}
    {rest : List Char} (hv : wordValue? reversed.reverse = some value) (apart : Apart rest) :
    scan found (.word reversed) rest = scan (.word value :: found) .between rest := by
  cases rest with
  | nil => simp [scan, finish?, hv]
  | cons c rest =>
    have ends : endsWord c = true := apart
    simp [scan, step?, ends, hv]

theorem scan_word_run {reversed cs rest : List Char} {found : List Token}
    (whole : ∀ c ∈ cs, endsWord c = false) :
    scan found (.word reversed) (cs ++ rest) =
      scan found (.word (cs.reverse ++ reversed)) rest := by
  induction cs generalizing reversed with
  | nil => rfl
  | cons c cs ih =>
    have first : endsWord c = false := whole c List.mem_cons_self
    have others := @ih (c :: reversed) fun d hd => whole d (List.mem_cons_of_mem c hd)
    simpa [scan, step?, first] using others

/-- A text in which the machine finds some lexemes, whatever it found before and whatever follows
that a word cannot reach into. -/
def Yields (cs : List Char) (tokens : List Token) : Prop :=
  ∀ found rest, Apart rest →
    scan found .between (cs ++ rest) = scan (tokens.reverse ++ found) .between rest

theorem yields_nil : Yields [] [] := fun _ _ _ => rfl

theorem Yields.append {cs cs' : List Char} {tokens tokens' : List Token} (first : Yields cs tokens)
    (second : Yields cs' tokens') (apart : Apart cs') : Yields (cs ++ cs') (tokens ++ tokens') := by
  intro found rest hrest
  rw [List.append_assoc, first found (cs' ++ rest) (apart.append hrest), second _ rest hrest]
  simp

theorem Yields.mark {c : Char} {token : Token} {cs : List Char} {tokens : List Token}
    (h : Yields cs tokens) (opened : open? c = ([token], .between)) :
    Yields (c :: cs) (token :: tokens) := by
  intro found rest hrest
  rw [List.cons_append, scan_open, opened]
  simpa using h (token :: found) rest hrest

theorem Yields.blank {c : Char} {cs : List Char} {tokens : List Token} (h : Yields cs tokens)
    (space : isSpace c = true) : Yields (c :: cs) tokens := by
  intro found rest hrest
  have opened : open? c = ([], .between) := by simp [open?, space]
  rw [List.cons_append, scan_open, opened]
  exact h found rest hrest

theorem Yields.newline {cs : List Char} {tokens : List Token} (h : Yields cs tokens) (depth : Nat) :
    Yields (Json.newline depth ++ cs) tokens := by
  have spaces : ∀ n, Yields (List.replicate n ' ' ++ cs) tokens := by
    intro n
    induction n with
    | zero => exact h
    | succ n ih => exact ih.blank rfl
  exact (spaces (2 * depth)).blank rfl

theorem IsWord.yields {cs : List Char} {value : Json} (word : IsWord cs value) :
    Yields cs [.word value] := by
  intro found rest hrest
  obtain ⟨ne, whole, hv⟩ := word
  cases cs with
  | nil => exact absurd rfl ne
  | cons c cs =>
    have first := whole c List.mem_cons_self
    rw [List.cons_append, scan_open, open?_of_not_endsWord first]
    rw [scan_word_run fun d hd => whole d (List.mem_cons_of_mem c hd)]
    exact scan_word_end (by simpa using hv) hrest

/-! ### String literals -/

theorem hexValue?_digitChar : ∀ d < 16, Text.hexValue? (Nat.digitChar d) = some d := by decide

theorem padLeft_toDigits_sixteen :
    ∀ n < 0x20, Text.padLeft 4 (Nat.toDigits 16 n) =
      ['0', '0', Nat.digitChar (n / 16), Nat.digitChar (n % 16)] := by decide

/-- Four hexadecimal digits add their code unit to a literal. -/
theorem scan_unit {a b c d : Char} {va vb vc vd : Nat} (ha : Text.hexValue? a = some va)
    (hb : Text.hexValue? b = some vb) (hc : Text.hexValue? c = some vc)
    (hd : Text.hexValue? d = some vd) (p : Literal) (found : List Token) (rest : List Char) :
    scan found (.inside p) ('\\' :: 'u' :: a :: b :: c :: d :: rest) =
      scan found (.inside (p.pushUnit (((va * 16 + vb) * 16 + vc) * 16 + vd))) rest := by
  simp [scan, step?, ha, hb, hc, hd]

theorem scan_escapeControl {c : Char} (control : c.toNat < 0x20) (cs rest : List Char)
    (found : List Token) :
    scan found (.inside { reversed := cs }) (escapeControl c ++ rest) =
      scan found (.inside { reversed := c :: cs }) rest := by
  have high := hexValue?_digitChar (c.toNat / 16) (by omega)
  have low := hexValue?_digitChar (c.toNat % 16) (by omega)
  have zero : Text.hexValue? '0' = some 0 := rfl
  have unit : ((0 * 16 + 0) * 16 + c.toNat / 16) * 16 + c.toNat % 16 = c.toNat := by omega
  have pushed : Literal.pushUnit { reversed := cs } c.toNat = { reversed := c :: cs } := by
    have notLeading : ¬ 0xd800 ≤ c.toNat := by omega
    have notTrailing : ¬ 0xdc00 ≤ c.toNat := by omega
    simp [Literal.pushUnit, notLeading, notTrailing]
  rw [escapeControl, padLeft_toDigits_sixteen c.toNat control]
  have run := scan_unit zero zero high low { reversed := cs } found rest
  rwa [unit, pushed] at run

/-- A character inside a literal is read back from its spelling. -/
theorem scan_escapeChar (c : Char) (cs rest : List Char) (found : List Token) :
    scan found (.inside { reversed := cs }) (escapeChar c ++ rest) =
      scan found (.inside { reversed := c :: cs }) rest := by
  unfold escapeChar
  split_ifs with quote backslash back feed line ret tab control
  all_goals first | subst c; rfl | skip
  · exact scan_escapeControl control cs rest found
  · simp [scan, step?, quote, backslash, control, Literal.push]

theorem scan_escaped (s cs rest : List Char) (found : List Token) :
    scan found (.inside { reversed := cs }) (s.flatMap escapeChar ++ rest) =
      scan found (.inside { reversed := s.reverse ++ cs }) rest := by
  induction s generalizing cs with
  | nil => rfl
  | cons c s ih =>
    rw [List.flatMap_cons, List.append_assoc, scan_escapeChar, ih]
    simp

theorem scan_closing (p : Literal) (found : List Token) (rest : List Char) :
    scan found (.inside p) ('"' :: rest) = scan (.text p.finish :: found) .between rest := rfl

/-- A string literal is one lexeme. -/
theorem yields_quote (s : Option String) : Yields (quote s) [.text s] := by
  intro found rest _
  have opened : ∀ cs, scan found .between ('"' :: cs) = scan found (.inside {}) cs := fun _ => rfl
  cases s with
  | none =>
    -- A lone leading surrogate waits for a partner until the literal ends.
    have d : Text.hexValue? 'd' = some 13 := rfl
    have eight : Text.hexValue? '8' = some 8 := rfl
    have zero : Text.hexValue? '0' = some 0 := rfl
    have body := scan_unit d eight zero zero {} found ('"' :: rest)
    have lone : (Literal.pushUnit {} (((13 * 16 + 8) * 16 + 0) * 16 + 0)).finish = none := by
      simp [Literal.pushUnit, Literal.finish]
    have spelled : quote none ++ rest =
        '"' :: '\\' :: 'u' :: 'd' :: '8' :: '0' :: '0' :: '"' :: rest := rfl
    rw [spelled, opened, body, scan_closing, lone]
    rfl
  | some s =>
    have body := scan_escaped s.toList [] ('"' :: rest) found
    have text : Literal.finish { reversed := s.toList.reverse ++ [] } = some s := by
      simp [Literal.finish]
    have spelled : quote (some s) = '"' :: (s.toList.flatMap escapeChar ++ ['"']) := rfl
    rw [spelled, List.cons_append, List.append_assoc, opened, List.singleton_append, body,
      scan_closing, text]
    rfl

end Token

/-! ### Whole values -/

mutual

def lexemes : Json → List Token
  | .null => [.word .null]
  | .bool b => [.word (.bool b)]
  | .integer n => [.word (.integer n)]
  | .decimal lexeme => [.word (.decimal lexeme)]
  | .text s => [.text s]
  | .array [] => [.openArray, .closeArray]
  | .array (item :: items) =>
    .openArray :: (lexemes item ++ (itemLexemes items ++ [.closeArray]))
  | .object [] => [.openObject, .closeObject]
  | .object ((name, value) :: fields) =>
    .openObject :: .text name :: .colon ::
      (lexemes value ++ (fieldLexemes fields ++ [.closeObject]))

def itemLexemes : List Json → List Token
  | [] => []
  | item :: items => .comma :: (lexemes item ++ itemLexemes items)

def fieldLexemes : List (Option String × Json) → List Token
  | [] => []
  | (name, value) :: fields =>
    .comma :: .text name :: .colon :: (lexemes value ++ fieldLexemes fields)

end

/-- A value in which every number that is not an integer has the spelling of one. -/
inductive Spelled : Json → Prop where
  | null : Spelled .null
  | bool (b : Bool) : Spelled (.bool b)
  | integer (n : Int) : Spelled (.integer n)
  | decimal {lexeme : String} (word : Token.IsWord lexeme.toList (.decimal lexeme)) :
      Spelled (.decimal lexeme)
  | text (s : Option String) : Spelled (.text s)
  | array {items : List Json} (each : ∀ item ∈ items, Spelled item) : Spelled (.array items)
  | object {fields : List (Option String × Json)} (each : ∀ field ∈ fields, Spelled field.2) :
      Spelled (.object fields)

open Token

theorem apart_newline (depth : Nat) (cs : List Char) : Apart (newline depth ++ cs) :=
  show endsWord '\n' = true from rfl

theorem apart_indentedItems (depth : Nat) (items : List Json) :
    Apart (indentedItems depth items) := by
  cases items with
  | nil => exact trivial
  | cons item items => exact (rfl : endsWord ',' = true)

theorem apart_indentedFields (depth : Nat) (fields : List (Option String × Json)) :
    Apart (indentedFields depth fields) := by
  cases fields with
  | nil => exact trivial
  | cons field fields => exact (rfl : endsWord ',' = true)

theorem yields_indentedItems {items : List Json} {depth : Nat}
    (each : ∀ item ∈ items, Yields (item.indentedChars depth) item.lexemes) :
    Yields (indentedItems depth items) (itemLexemes items) := by
  induction items with
  | nil => exact yields_nil
  | cons item items ih =>
    have first := each item List.mem_cons_self
    have others := ih fun other h => each other (List.mem_cons_of_mem item h)
    have both := first.append others (apart_indentedItems depth items)
    simpa [indentedItems, itemLexemes] using (both.newline depth).mark (c := ',') rfl

/-- The name of a field, a colon and a value, in front of what follows the value. -/
theorem yields_field (name : Option String) {cs : List Char} {tokens : List Token}
    (h : Yields cs tokens) :
    Yields (quote name ++ ':' :: ' ' :: cs) (.text name :: .colon :: tokens) :=
  (yields_quote name).append ((h.blank rfl).mark rfl) (rfl : endsWord ':' = true)

theorem yields_indentedFields {fields : List (Option String × Json)} {depth : Nat}
    (each : ∀ field ∈ fields, Yields (field.2.indentedChars depth) field.2.lexemes) :
    Yields (indentedFields depth fields) (fieldLexemes fields) := by
  induction fields with
  | nil => exact yields_nil
  | cons field fields ih =>
    obtain ⟨name, value⟩ := field
    have first := each (name, value) List.mem_cons_self
    have others := ih fun other h => each other (List.mem_cons_of_mem _ h)
    have both := yields_field name (first.append others (apart_indentedFields depth fields))
    simpa [indentedFields, fieldLexemes] using (both.newline depth).mark (c := ',') rfl

/-- A closing mark on a line of its own. -/
theorem yields_closing {c : Char} {token : Token} (depth : Nat)
    (opened : open? c = ([token], .between)) : Yields (newline depth ++ [c]) [token] :=
  (yields_nil.mark opened).newline depth

/-- The indented text of a value is made of the lexemes of the value. -/
theorem yields_indentedChars {json : Json} (spelled : Spelled json) (depth : Nat) :
    Yields (json.indentedChars depth) json.lexemes := by
  induction spelled generalizing depth with
  | null => exact isWord_null.yields
  | bool b =>
    cases b with
    | true => exact isWord_true.yields
    | false => exact isWord_false.yields
  | integer n => exact (isWord_integer n).yields
  | decimal word => exact word.yields
  | text s => exact yields_quote s
  | @array items _ each =>
    cases items with
    | nil => exact (yields_nil.mark rfl).mark rfl
    | cons item items =>
      have first := each item List.mem_cons_self (depth + 1)
      have others : Yields (indentedItems (depth + 1) items) (itemLexemes items) :=
        yields_indentedItems fun other h => each other (List.mem_cons_of_mem item h) (depth + 1)
      have closing : Yields (newline depth ++ [']']) [.closeArray] := yields_closing depth rfl
      have tail := others.append closing (apart_newline depth _)
      have apart := (apart_indentedItems (depth + 1) items).append (apart_newline depth [']'])
      simpa [indentedChars, lexemes] using
        ((first.append tail apart).newline (depth + 1)).mark (c := '[') rfl
  | @object fields _ each =>
    cases fields with
    | nil => exact (yields_nil.mark rfl).mark rfl
    | cons field fields =>
      obtain ⟨name, value⟩ := field
      have first := each (name, value) List.mem_cons_self (depth + 1)
      have others : Yields (indentedFields (depth + 1) fields) (fieldLexemes fields) :=
        yields_indentedFields fun other h => each other (List.mem_cons_of_mem _ h) (depth + 1)
      have closing : Yields (newline depth ++ ['\x7d']) [.closeObject] := yields_closing depth rfl
      have tail := others.append closing (apart_newline depth _)
      have apart := (apart_indentedFields (depth + 1) fields).append (apart_newline depth ['\x7d'])
      have body := yields_field name (first.append tail apart)
      simpa [indentedChars, lexemes] using (body.newline (depth + 1)).mark (c := '\x7b') rfl

theorem tokens?_indentedChars {json : Json} (spelled : Spelled json) (depth : Nat) :
    tokens? (json.indentedChars depth) = some json.lexemes := by
  have run := yields_indentedChars spelled depth [] [] trivial
  rw [List.append_nil] at run
  rw [tokens?, run]
  simp [scan, finish?]

end ObjectBoundary.Json
