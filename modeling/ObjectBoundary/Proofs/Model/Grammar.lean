import ObjectBoundary.Model.Registry
import ObjectBoundary.Proofs.Model.Items

/-!
# The grammar of type expressions

The texts that spell a type, as a grammar, and the reader of type expressions against it. The reader
does not follow the grammar from left to right: it looks for the first `<`, wants a `>` at the end
and cuts what stands between them at the outer commas. It finds the derivation all the same, because
a derived text closes every bracket that it opens and has no comma outside of all brackets.
-/

namespace ObjectBoundary.TypeExpr

open Text (isBlank trimChars)

def Blanks (cs : List Char) : Prop := ∀ c ∈ cs, isBlank c = true

def IsLetter (c : Char) : Prop := 'A' ≤ c ∧ c ≤ 'Z' ∨ 'a' ≤ c ∧ c ≤ 'z'

def IsDigit (c : Char) : Prop := '0' ≤ c ∧ c ≤ '9'

/-- A letter or an underscore, then letters, digits and underscores. -/
inductive IsName : List Char → Prop where
  | intro {c : Char} {cs : List Char} (first : IsLetter c ∨ c = '_')
      (others : ∀ d ∈ cs, IsLetter d ∨ IsDigit d ∨ d = '_') : IsName (c :: cs)

/-- A word, blanks, and a text between brackets. -/
def enclosed (word : String) (inner body : List Char) : List Char :=
  word.toList ++ inner ++ '<' :: (body ++ ['>'])

/-- The texts that derive from the grammar, each with what it spells. -/
inductive Derives : List Char → TypeExpr → Prop where
  | named {before name after : List Char} : Blanks before → IsName name → Blanks after →
      Derives (before ++ name ++ after) (.named (String.ofList name))
  | array {before inner elem after : List Char} {e : TypeExpr} :
      Blanks before → Blanks inner → Derives elem e → Blanks after →
      Derives (before ++ enclosed "array" inner elem ++ after) (.array e)
  | set {before inner elem after : List Char} {e : TypeExpr} :
      Blanks before → Blanks inner → Derives elem e → Blanks after →
      Derives (before ++ enclosed "set" inner elem ++ after) (.set e)
  | dict {before inner key elem after : List Char} {k e : TypeExpr} :
      Blanks before → Blanks inner → Derives key k → Derives elem e → Blanks after →
      Derives (before ++ enclosed "dict" inner (key ++ ',' :: elem) ++ after) (.dict k e)

/-- The spelling of an expression without blanks. -/
def spelling : TypeExpr → List Char
  | .named name => name.toList
  | .array elem => enclosed "array" [] elem.spelling
  | .set elem => enclosed "set" [] elem.spelling
  | .dict key elem => enclosed "dict" [] (key.spelling ++ ',' :: elem.spelling)

/-- Every name in the expression is one. -/
def WellNamed : TypeExpr → Prop
  | .named name => IsName name.toList
  | .array elem | .set elem => elem.WellNamed
  | .dict key elem => key.WellNamed ∧ elem.WellNamed

variable {cs head body text : List Char} {c : Char} {e : TypeExpr}

/-! ### Characters of names -/

theorem isAlpha_iff : c.isAlpha = true ↔ IsLetter c := by
  have upper : c.isUpper = true ↔ 'A' ≤ c ∧ c ≤ 'Z' := decide_eq_true_iff
  have lower : c.isLower = true ↔ 'a' ≤ c ∧ c ≤ 'z' := by
    change (decide ('a' ≤ c) && decide (c ≤ 'z')) = true ↔ _
    rw [Bool.and_eq_true, decide_eq_true_eq, decide_eq_true_eq]
  change (c.isUpper || c.isLower) = true ↔ _
  rw [Bool.or_eq_true, upper, lower, IsLetter]

theorem isDigit_iff : c.isDigit = true ↔ IsDigit c := by
  simp only [Char.isDigit, IsDigit, Bool.and_eq_true, decide_eq_true_eq]
  rfl

theorem isNameStart_iff : isNameStart c = true ↔ IsLetter c ∨ c = '_' := by
  simp only [isNameStart, Bool.or_eq_true, isAlpha_iff, beq_iff_eq]

theorem isNameRest_iff : isNameRest c = true ↔ IsLetter c ∨ IsDigit c ∨ c = '_' := by
  simp only [isNameRest, Char.isAlphanum, Bool.or_eq_true, isAlpha_iff, isDigit_iff, beq_iff_eq,
    or_assoc]

theorem isIdentifier_iff : isIdentifier cs = true ↔ IsName cs := by
  constructor
  · intro h
    cases cs with
    | nil => cases h
    | cons c cs =>
      simp only [isIdentifier, Bool.and_eq_true, List.all_eq_true, isNameStart_iff,
        isNameRest_iff] at h
      exact .intro h.1 h.2
  · rintro ⟨first, others⟩
    simp only [isIdentifier, Bool.and_eq_true, List.all_eq_true, isNameStart_iff, isNameRest_iff]
    exact ⟨first, others⟩

/-- Neither a bracket nor a comma. -/
def Plain (c : Char) : Prop := c ≠ '<' ∧ c ≠ '>' ∧ c ≠ ','

theorem plain_of_isBlank (blank : isBlank c = true) : Plain c := by
  refine ⟨?_, ?_, ?_⟩ <;> rintro rfl <;> revert blank <;> decide

theorem isBlank_eq_false_of_name (h : IsLetter c ∨ IsDigit c ∨ c = '_') : isBlank c = false := by
  have range : 48 ≤ c.toNat ∧ c.toNat ≤ 122 := by
    rcases h with (⟨low, high⟩ | ⟨low, high⟩) | ⟨low, high⟩ | rfl
    · exact ⟨Nat.le_trans (by decide) low, Nat.le_trans high (by decide)⟩
    · exact ⟨Nat.le_trans (by decide) low, Nat.le_trans high (by decide)⟩
    · exact ⟨Nat.le_trans (by decide) low, Nat.le_trans high (by decide)⟩
    · decide
  simp only [isBlank, Bool.or_eq_false_iff, Bool.and_eq_false_iff, decide_eq_false_iff_not,
    beq_eq_false_iff_ne]
  omega

theorem plain_of_name (h : IsLetter c ∨ IsDigit c ∨ c = '_') : Plain c := by
  refine ⟨?_, ?_, ?_⟩ <;> rintro rfl <;> revert h <;> simp only [IsLetter, IsDigit] <;> decide

theorem IsName.forall_mem (name : IsName cs) : ∀ c ∈ cs, IsLetter c ∨ IsDigit c ∨ c = '_' := by
  obtain ⟨first, others⟩ := name
  intro c member
  rcases List.mem_cons.mp member with rfl | member
  · rcases first with letter | under
    · exact .inl letter
    · exact .inr (.inr under)
  · exact others c member

/-! ### Blanks around a text -/

/-- A text with something at both ends that is not blank. -/
def Solid (cs : List Char) : Prop :=
  (∃ c ∈ cs.head?, isBlank c = false) ∧ ∃ c ∈ cs.getLast?, isBlank c = false

theorem IsName.solid (name : IsName cs) : Solid cs := by
  have kept : ∀ c ∈ cs, isBlank c = false := fun c member =>
    isBlank_eq_false_of_name (name.forall_mem c member)
  have filled : cs ≠ [] := by
    cases name
    simp
  exact ⟨⟨cs.head filled, List.head?_eq_some_head filled, kept _ (List.head_mem filled)⟩,
    ⟨cs.getLast filled, List.getLast?_eq_some_getLast filled, kept _ (List.getLast_mem filled)⟩⟩

/-- Trimming finds the text between runs of blanks. -/
theorem trimChars_eq {before after : List Char} (blanksBefore : Blanks before)
    (blanksAfter : Blanks after) (solid : Solid cs) :
    trimChars (before ++ cs ++ after) = cs := by
  obtain ⟨⟨first, isFirst, firstKept⟩, ⟨last, isLast, lastKept⟩⟩ := solid
  obtain ⟨rest, rfl⟩ : ∃ rest, cs = first :: rest := List.head?_eq_some_iff.mp isFirst
  obtain ⟨front, split⟩ : ∃ front, first :: rest = front ++ [last] :=
    List.getLast?_eq_some_iff.mp isLast
  have left : (before ++ (first :: rest) ++ after).dropWhile isBlank = first :: rest ++ after := by
    rw [List.append_assoc, List.dropWhile_append_of_pos blanksBefore, List.cons_append,
      List.dropWhile_cons_of_neg (by simp [firstKept])]
  have right : (first :: rest ++ after).reverse.dropWhile isBlank = (first :: rest).reverse := by
    rw [List.reverse_append,
      List.dropWhile_append_of_pos fun c member => blanksAfter c (List.mem_reverse.mp member),
      split, List.reverse_append, List.reverse_singleton, List.singleton_append,
      List.dropWhile_cons_of_neg (by simp [lastKept])]
  rw [trimChars, left, right, List.reverse_reverse]

/-- Trimming removes blanks only. -/
theorem exists_eq_trimChars (text : List Char) :
    ∃ before after, Blanks before ∧ Blanks after ∧ text = before ++ trimChars text ++ after := by
  let inner := text.dropWhile isBlank
  refine ⟨text.takeWhile isBlank, (inner.reverse.takeWhile isBlank).reverse,
    List.all_eq_true.mp List.all_takeWhile,
    fun c member => List.all_eq_true.mp List.all_takeWhile c (List.mem_reverse.mp member), ?_⟩
  have outer : text.takeWhile isBlank ++ inner = text := List.takeWhile_append_dropWhile
  have ends : inner.reverse.takeWhile isBlank ++ inner.reverse.dropWhile isBlank = inner.reverse :=
    List.takeWhile_append_dropWhile
  have reversed := congrArg List.reverse ends
  rw [List.reverse_append, List.reverse_reverse] at reversed
  rw [List.append_assoc, trimChars, reversed, outer]

/-! ### Cutting at brackets and commas -/

/-- The brackets that are found are the first opening one and the last character. -/
theorem brackets?_eq_some_iff :
    brackets? cs = some (head, body) ↔ cs = head ++ '<' :: (body ++ ['>']) ∧ '<' ∉ head := by
  constructor
  · intro found
    unfold brackets? at found
    split at found
    · cases found
    · next opening inner dropped =>
      split at found
      · next closing =>
        cases found
        have opens : opening = '<' := by
          have stopped := List.head?_dropWhile_not (· != '<') cs
          rw [dropped] at stopped
          simpa using stopped
        have joined : cs.takeWhile (· != '<') ++ opening :: inner = cs :=
          dropped ▸ List.takeWhile_append_dropWhile
        obtain ⟨front, rfl⟩ := List.getLast?_eq_some_iff.mp closing
        refine ⟨?_, fun member => ?_⟩
        · subst opens
          rw [List.dropLast_concat]
          exact joined.symm
        · have passed := List.all_eq_true.mp List.all_takeWhile _ member
          simp at passed
      · cases found
  · rintro ⟨rfl, absent⟩
    have pass : ∀ c ∈ head, (c != '<') = true := by
      intro c member
      simp only [bne_iff_ne, ne_eq]
      rintro rfl
      exact absent member
    have dropped : (head ++ '<' :: (body ++ ['>'])).dropWhile (· != '<') =
        '<' :: (body ++ ['>']) := by
      rw [List.dropWhile_append_of_pos pass]
      rfl
    have taken : (head ++ '<' :: (body ++ ['>'])).takeWhile (· != '<') = head := by
      rw [List.takeWhile_append_of_pos pass]
      simp
    rw [brackets?, dropped, taken]
    simp

theorem consFirst_ne_nil (parts : List (List Char)) : consFirst c parts ≠ [] := by
  cases parts <;> simp [consFirst]

theorem intercalate_consFirst (parts : List (List Char)) :
    [','].intercalate (consFirst c parts) = c :: [','].intercalate parts := by
  match parts with
  | [] => rfl
  | [part] => simp [consFirst, List.intercalate]
  | part :: next :: others => simp [consFirst, List.intercalate]

/-- The parts are pieces of the text with nothing but commas between them. -/
theorem intercalate_splitTop? {depth : Nat} {parts : List (List Char)}
    (split : splitTop? depth cs = some parts) : parts ≠ [] ∧ [','].intercalate parts = cs := by
  have first {c : Char} {rest : List Char} {found : Option (List (List Char))}
      {parts : List (List Char)}
      (ih : ∀ parts, found = some parts → parts ≠ [] ∧ [','].intercalate parts = rest)
      (split : found.map (consFirst c) = some parts) :
      parts ≠ [] ∧ [','].intercalate parts = c :: rest := by
    obtain ⟨inner, hinner, rfl⟩ := Option.map_eq_some_iff.mp split
    rw [intercalate_consFirst, (ih inner hinner).2]
    exact ⟨consFirst_ne_nil inner, rfl⟩
  fun_induction splitTop? depth cs generalizing parts with
  | case1 =>
    cases split
    exact ⟨by simp, rfl⟩
  | case2 => cases split
  | case3 _ _ ih => exact first (fun _ h => ih h) split
  | case4 => cases split
  | case5 _ _ ih => exact first (fun _ h => ih h) split
  | case6 cs ih =>
    obtain ⟨inner, hinner, rfl⟩ := Option.map_eq_some_iff.mp split
    obtain ⟨filled, joined⟩ := ih hinner
    obtain ⟨part, others, rfl⟩ := List.exists_cons_of_ne_nil filled
    refine ⟨by simp, ?_⟩
    rw [← joined]
    simp [List.intercalate]
  | case7 _ _ _ _ _ _ _ ih => exact first (fun _ h => ih h) split

/-! ### Texts that close their brackets -/

/-- A text that is split nowhere inside of at least `least` brackets and leaves no bracket open: it
goes before the first part of whatever follows. -/
def Closed (least : Nat) (cs : List Char) : Prop :=
  ∀ depth, least ≤ depth → ∀ rest,
    splitTop? depth (cs ++ rest) = (splitTop? depth rest).map (cs.foldr consFirst)

theorem closed_nil {least : Nat} : Closed least [] := by
  intro depth _ rest
  exact Option.map_id'.symm

theorem Closed.append {least : Nat} {ds : List Char} (left : Closed least cs)
    (right : Closed least ds) : Closed least (cs ++ ds) := by
  intro depth low rest
  rw [List.append_assoc, left depth low, right depth low, Option.map_map]
  congr 1
  funext parts
  exact (List.foldr_append ..).symm

theorem Closed.mono {least more : Nat} (closed : Closed least cs) (le : least ≤ more) :
    Closed more cs :=
  fun depth low => closed depth (Nat.le_trans le low)

theorem splitTop?_plain (plain : Plain c) (depth : Nat) (rest : List Char) :
    splitTop? depth (c :: rest) = (splitTop? depth rest).map (consFirst c) := by
  obtain ⟨notOpen, notClose, notComma⟩ := plain
  rw [splitTop?]
  · exact fun h => notOpen h
  · exact fun _ h => notClose h
  · exact fun _ _ h => notClose h
  · exact fun _ h => notComma h

theorem closed_of_plain {least : Nat} (plain : ∀ c ∈ cs, Plain c) : Closed least cs := by
  induction cs with
  | nil => exact closed_nil
  | cons c cs ih =>
    intro depth low rest
    have tail := ih (fun d member => plain d (List.mem_cons_of_mem c member)) depth low rest
    rw [List.cons_append, splitTop?_plain (plain c List.mem_cons_self), tail, Option.map_map]
    rfl

/-- A comma is no cut inside of brackets. -/
theorem closed_comma : Closed 1 [','] := by
  intro depth low rest
  obtain ⟨depth, rfl⟩ : ∃ d, depth = d + 1 := ⟨depth - 1, by omega⟩
  rw [List.singleton_append, splitTop?]
  · rfl
  · exact fun h => absurd h (by decide)
  · exact fun _ h => absurd h (by decide)
  · exact fun _ _ h => absurd h (by decide)
  · exact fun h => absurd h (by omega)

/-- Brackets around a text make it one that can stand anywhere. -/
theorem Closed.brackets (closed : Closed 1 body) : Closed 0 ('<' :: (body ++ ['>'])) := by
  intro depth _ rest
  have opened : splitTop? depth ('<' :: (body ++ '>' :: rest)) =
      (splitTop? (depth + 1) (body ++ '>' :: rest)).map (consFirst '<') := by
    rw [splitTop?]
  have closes : splitTop? (depth + 1) ('>' :: rest) =
      (splitTop? depth rest).map (consFirst '>') := by
    rw [splitTop?]
  rw [List.cons_append, List.append_assoc, List.singleton_append, opened,
    closed (depth + 1) (by omega), closes, Option.map_map, Option.map_map]
  congr 1
  funext parts
  simp [List.foldr_append]

theorem foldr_consFirst (first : List Char) (parts : List (List Char)) :
    cs.foldr consFirst (first :: parts) = (cs ++ first) :: parts := by
  induction cs with
  | nil => rfl
  | cons c cs ih => rw [List.foldr_cons, ih]; rfl

theorem Closed.splitTop? (closed : Closed 0 cs) : splitTop? 0 cs = some [cs] := by
  have whole := closed 0 (Nat.le_refl 0) []
  rw [List.append_nil] at whole
  rw [whole, TypeExpr.splitTop?, Option.map_some, foldr_consFirst, List.append_nil]

theorem Closed.splitTop?_pair {key elem : List Char} (closedKey : Closed 0 key)
    (closedElem : Closed 0 elem) :
    TypeExpr.splitTop? 0 (key ++ ',' :: elem) = some [key, elem] := by
  rw [closedKey 0 (Nat.le_refl 0), TypeExpr.splitTop?, closedElem.splitTop?, Option.map_some,
    Option.map_some, foldr_consFirst, List.append_nil]

/-! ### What derives -/

theorem closed_of_blanks (blanks : Blanks cs) : Closed 0 cs :=
  closed_of_plain fun c member => plain_of_isBlank (blanks c member)

theorem Closed.enclosed {word : String} {inner : List Char} (name : IsName word.toList)
    (blanks : Blanks inner) (closed : Closed 1 body) :
    Closed 0 (TypeExpr.enclosed word inner body) := by
  have plain : Closed 0 word.toList :=
    closed_of_plain fun c member => plain_of_name (name.forall_mem c member)
  exact (plain.append (closed_of_blanks blanks)).append closed.brackets

theorem isName_array : IsName "array".toList := isIdentifier_iff.mp (by decide)

theorem isName_set : IsName "set".toList := isIdentifier_iff.mp (by decide)

theorem isName_dict : IsName "dict".toList := isIdentifier_iff.mp (by decide)

/-- A derived text closes every bracket that it opens and has no outer comma. -/
theorem Derives.closed (derives : Derives text e) : Closed 0 text := by
  have around {before cs after : List Char} (blanksBefore : Blanks before) (closed : Closed 0 cs)
      (blanksAfter : Blanks after) : Closed 0 (before ++ cs ++ after) :=
    ((closed_of_blanks blanksBefore).append closed).append (closed_of_blanks blanksAfter)
  induction derives with
  | named before name after =>
    exact around before
      (closed_of_plain fun c member => plain_of_name (name.forall_mem c member)) after
  | array before inner _ after ih =>
    exact around before (.enclosed isName_array inner (ih.mono (Nat.zero_le 1))) after
  | set before inner _ after ih =>
    exact around before (.enclosed isName_set inner (ih.mono (Nat.zero_le 1))) after
  | dict before inner _ _ after ihKey ihElem =>
    have pair := ((ihKey.mono (Nat.zero_le 1)).append closed_comma).append
      (ihElem.mono (Nat.zero_le 1))
    rw [List.append_assoc, List.singleton_append] at pair
    exact around before (.enclosed isName_dict inner pair) after

/-! ### The reader -/

theorem parseChars_plain (absent : '<' ∉ trimChars text) :
    parseChars text =
      if isIdentifier (trimChars text) then .ok (.named (String.ofList (trimChars text)))
      else .error (trimChars text) := by
  rw [parseChars, if_neg (by simpa using absent)]

theorem contains_of_brackets? (found : brackets? cs = some (head, body)) :
    cs.contains '<' = true := by
  rw [(brackets?_eq_some_iff.mp found).1]
  simp

/-- One part between brackets is read as an element. -/
theorem parseChars_single {elem : List Char}
    (found : brackets? (trimChars text) = some (head, body))
    (parts : splitTop? 0 body = some [elem]) :
    parseChars text =
      if trimChars head = "array".toList then (parseChars elem).map .array
      else if trimChars head = "set".toList then (parseChars elem).map .set
      else .error (trimChars text) := by
  rw [parseChars, if_pos (contains_of_brackets? found)]
  split
  · simp_all
  · next found' =>
    cases found.symm.trans found'
    split
    · next parts' =>
      cases parts.symm.trans parts'
      rfl
    · simp_all
    · simp_all

/-- Two parts between brackets are read as a key and an element. -/
theorem parseChars_pair {key elem : List Char}
    (found : brackets? (trimChars text) = some (head, body))
    (parts : splitTop? 0 body = some [key, elem]) :
    parseChars text =
      if trimChars head = "dict".toList then
        match parseChars key with
        | .ok k => (parseChars elem).map (.dict k)
        | .error e => .error e
      else .error (trimChars text) := by
  rw [parseChars, if_pos (contains_of_brackets? found)]
  split
  · simp_all
  · next found' =>
    cases found.symm.trans found'
    split
    · simp_all
    · next parts' =>
      cases parts.symm.trans parts'
      rfl
    · simp_all

/-- A word with brackets after it is found between blanks. -/
theorem brackets?_enclosed {word : String} {before inner after : List Char}
    (name : IsName word.toList) (blanksBefore : Blanks before) (blanksInner : Blanks inner)
    (blanksAfter : Blanks after) :
    brackets? (trimChars (before ++ enclosed word inner body ++ after)) =
        some (word.toList ++ inner, body) ∧
      trimChars (word.toList ++ inner) = word.toList := by
  have solid : Solid (enclosed word inner body) := by
    obtain ⟨first, isFirst, kept⟩ := name.solid.1
    obtain ⟨rest, same⟩ := List.head?_eq_some_iff.mp isFirst
    refine ⟨⟨first, ?_, kept⟩, ⟨'>', ?_, by decide⟩⟩
    · rw [enclosed, same]
      rfl
    · rw [enclosed, ← List.cons_append, ← List.append_assoc]
      exact List.getLast?_concat
  have absent : '<' ∉ word.toList ++ inner := by
    intro member
    rcases List.mem_append.mp member with member | member
    · exact (plain_of_name (name.forall_mem _ member)).1 rfl
    · exact (plain_of_isBlank (blanksInner _ member)).1 rfl
  have nothing : Blanks [] := by simp [Blanks]
  refine ⟨?_, trimChars_eq nothing blanksInner name.solid⟩
  rw [trimChars_eq blanksBefore blanksAfter solid]
  exact brackets?_eq_some_iff.mpr ⟨rfl, absent⟩

/-- Every derivation is found. -/
theorem Derives.parseChars (derives : Derives text e) : parseChars text = .ok e := by
  induction derives with
  | @named before name after blanksBefore isName blanksAfter =>
    have absent : '<' ∉ name := fun member => (plain_of_name (isName.forall_mem _ member)).1 rfl
    have trimmed := trimChars_eq blanksBefore blanksAfter isName.solid
    rw [parseChars_plain (by rwa [trimmed]), trimmed, if_pos (isIdentifier_iff.mpr isName)]
  | array blanksBefore blanksInner derives blanksAfter ih =>
    obtain ⟨found, word⟩ :=
      brackets?_enclosed isName_array blanksBefore blanksInner blanksAfter
    rw [parseChars_single found derives.closed.splitTop?, if_pos word, ih]
    rfl
  | set blanksBefore blanksInner derives blanksAfter ih =>
    obtain ⟨found, word⟩ :=
      brackets?_enclosed isName_set blanksBefore blanksInner blanksAfter
    rw [parseChars_single found derives.closed.splitTop?, if_neg (by rw [word]; decide),
      if_pos word, ih]
    rfl
  | dict blanksBefore blanksInner derivesKey derivesElem blanksAfter ihKey ihElem =>
    obtain ⟨found, word⟩ :=
      brackets?_enclosed isName_dict blanksBefore blanksInner blanksAfter
    rw [parseChars_pair found (derivesKey.closed.splitTop?_pair derivesElem.closed), if_pos word,
      ihKey, ihElem]
    rfl

/-- A text with a word before its brackets, and blanks around both. -/
theorem exists_enclosed {word : String}
    (found : brackets? (trimChars text) = some (head, body))
    (isWord : trimChars head = word.toList) :
    ∃ before inner after, Blanks before ∧ Blanks inner ∧ Blanks after ∧
      text = before ++ enclosed word inner body ++ after := by
  obtain ⟨before, after, blanksBefore, blanksAfter, whole⟩ := exists_eq_trimChars text
  obtain ⟨before', inner, blanksBefore', blanksInner, front⟩ := exists_eq_trimChars head
  refine ⟨before ++ before', inner, after, ?_, blanksInner, blanksAfter, ?_⟩
  · intro c member
    rcases List.mem_append.mp member with member | member
    · exact blanksBefore c member
    · exact blanksBefore' c member
  · rw [(brackets?_eq_some_iff.mp found).1, front, isWord] at whole
    rw [whole]
    simp only [enclosed, List.append_assoc]

theorem splitTop?_single {elem : List Char} (parts : splitTop? 0 body = some [elem]) :
    body = elem := by
  have joined := (intercalate_splitTop? parts).2
  simpa [List.intercalate] using joined.symm

theorem splitTop?_pair {key elem : List Char} (parts : splitTop? 0 body = some [key, elem]) :
    body = key ++ ',' :: elem := by
  have joined := (intercalate_splitTop? parts).2
  simpa [List.intercalate] using joined.symm

/-- What is read derives from the grammar. -/
theorem derives_of_parseChars (read : TypeExpr.parseChars text = .ok e) : Derives text e := by
  fun_induction TypeExpr.parseChars text generalizing e with
  | case2 text cs _ head body found elem parts isArray =>
    rename_i ih
    obtain ⟨inside, readElem, rfl⟩ := map_eq_ok_iff.mp read
    obtain ⟨before, inner, after, blanksBefore, blanksInner, blanksAfter, rfl⟩ :=
      exists_enclosed found isArray
    rw [splitTop?_single parts]
    exact .array blanksBefore blanksInner (ih readElem) blanksAfter
  | case3 text cs _ head body found elem parts _ isSet =>
    rename_i ih
    obtain ⟨inside, readElem, rfl⟩ := map_eq_ok_iff.mp read
    obtain ⟨before, inner, after, blanksBefore, blanksInner, blanksAfter, rfl⟩ :=
      exists_enclosed found isSet
    rw [splitTop?_single parts]
    exact .set blanksBefore blanksInner (ih readElem) blanksAfter
  | case5 text cs _ head body found key elem parts isDict k readKey =>
    rename_i ihKey ih
    obtain ⟨inside, readElem, rfl⟩ := map_eq_ok_iff.mp read
    obtain ⟨before, inner, after, blanksBefore, blanksInner, blanksAfter, rfl⟩ :=
      exists_enclosed found isDict
    rw [splitTop?_pair parts]
    exact .dict blanksBefore blanksInner (ihKey readKey) (ih readElem) blanksAfter
  | case9 text cs _ =>
    rename_i isName
    cases read
    obtain ⟨before, after, blanksBefore, blanksAfter, whole⟩ := exists_eq_trimChars text
    rw [whole]
    exact .named blanksBefore (isIdentifier_iff.mp isName) blanksAfter
  | case1 | case4 | case6 | case7 | case8 | case10 => cases read

theorem parseChars_eq_ok_iff : parseChars text = .ok e ↔ Derives text e :=
  ⟨derives_of_parseChars, Derives.parseChars⟩

theorem parse_eq_ok_iff {s : String} : parse s = .ok e ↔ Derives s.toList e := by
  rw [← parseChars_eq_ok_iff]
  unfold parse
  split
  · next read => rw [read]; simp
  · next read => rw [read]; simp

/-- The spelling without blanks is one of the spellings. -/
theorem WellNamed.derives_spelling (named : e.WellNamed) : Derives e.spelling e := by
  have nothing : Blanks [] := by simp [Blanks]
  induction e with
  | named name =>
    have derives := Derives.named nothing named nothing
    simpa only [spelling, List.nil_append, List.append_nil, String.ofList_toList] using derives
  | array elem ih =>
    have derives := Derives.array nothing nothing (ih named) nothing
    simpa only [spelling, List.nil_append, List.append_nil] using derives
  | set elem ih =>
    have derives := Derives.set nothing nothing (ih named) nothing
    simpa only [spelling, List.nil_append, List.append_nil] using derives
  | dict key elem ihKey ihElem =>
    have derives := Derives.dict nothing nothing (ihKey named.1) (ihElem named.2) nothing
    simpa only [spelling, List.nil_append, List.append_nil] using derives

/-- Reading a type expression is exact: a text is read as an expression exactly when it derives
from the grammar with that expression, which is unique; every other text is a malformed type. Every
cut on the way is between characters of the text: the brackets that are found are the first opening
one and the last character, and the parts between commas make up the text. -/
theorem parse_exact (s : String) :
    (∀ e, parse s = .ok e ↔ Derives s.toList e) ∧
    (∀ e e', Derives s.toList e → Derives s.toList e' → e = e') ∧
    ((¬ ∃ e, Derives s.toList e) → ∃ part, parse s = .error part ∧
      ∀ lookup context, resolveText lookup context s = .error (.malformedType part)) ∧
    (∀ head body, brackets? (trimChars s.toList) = some (head, body) ↔
      trimChars s.toList = head ++ '<' :: (body ++ ['>']) ∧ '<' ∉ head) ∧
    (∀ parts, splitTop? 0 s.toList = some parts → [','].intercalate parts = s.toList) ∧
    ∀ e : TypeExpr, e.WellNamed → parse (String.ofList e.spelling) = .ok e := by
  refine ⟨fun e => parse_eq_ok_iff, ?_, ?_, fun head body => brackets?_eq_some_iff,
    fun parts split => (intercalate_splitTop? split).2, ?_⟩
  · intro e e' derives derives'
    have same := (parse_eq_ok_iff.mpr derives).symm.trans (parse_eq_ok_iff.mpr derives')
    exact Except.ok.inj same
  · intro underived
    cases read : parse s with
    | ok e => exact (underived ⟨e, parse_eq_ok_iff.mp read⟩).elim
    | error part =>
      refine ⟨part, rfl, fun lookup context => ?_⟩
      rw [resolveText, read]
  · intro e named
    rw [parse_eq_ok_iff, String.toList_ofList]
    exact named.derives_spelling

end ObjectBoundary.TypeExpr
