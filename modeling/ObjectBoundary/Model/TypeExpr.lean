import ObjectBoundary.Text.Blank

/-!
# Type expressions

The spelling of a type in an interface model: a name, or `array<…>`, `set<…>`, `dict<…,…>` around
further expressions, with blanks allowed around every name and every bracketed part.
-/

namespace ObjectBoundary

inductive TypeExpr where
  | named (name : String)
  | array (elem : TypeExpr)
  | dict (key elem : TypeExpr)
  | set (elem : TypeExpr)
  deriving DecidableEq, Repr, Inhabited

namespace TypeExpr

def isNameStart (c : Char) : Bool := c.isAlpha || c == '_'

def isNameRest (c : Char) : Bool := c.isAlphanum || c == '_'

/-- A letter or underscore, then letters, digits and underscores, all of ASCII. -/
def isIdentifier : List Char → Bool
  | [] => false
  | c :: cs => isNameStart c && cs.all isNameRest

/-- Puts a character in front of the first part. -/
def consFirst (c : Char) : List (List Char) → List (List Char)
  | [] => [[c]]
  | part :: parts => (c :: part) :: parts

/-- Splits at the commas that stand outside all angle brackets, where `depth` brackets are open.
There is no result when the brackets do not match. -/
def splitTop? : Nat → List Char → Option (List (List Char))
  | 0, [] => some [[]]
  | _ + 1, [] => none
  | depth, '<' :: cs => (splitTop? (depth + 1) cs).map (consFirst '<')
  | 0, '>' :: _ => none
  | depth + 1, '>' :: cs => (splitTop? depth cs).map (consFirst '>')
  | 0, ',' :: cs => (splitTop? 0 cs).map ([] :: ·)
  | depth, c :: cs => (splitTop? depth cs).map (consFirst c)

theorem length_consFirst_le {c : Char} {parts : List (List Char)} {n : Nat}
    (bound : ∀ part ∈ parts, part.length ≤ n) :
    ∀ part ∈ consFirst c parts, part.length ≤ n + 1 := by
  intro part member
  cases parts with
  | nil =>
    simp only [consFirst, List.mem_singleton] at member
    simp [member]
  | cons first rest =>
    simp only [consFirst, List.mem_cons] at member
    rcases member with rfl | member
    · have := bound first (by simp)
      simp only [List.length_cons]
      omega
    · have := bound part (by simp [member])
      omega

/-- No part is longer than the text that was split. -/
theorem length_le_of_splitTop? {depth : Nat} {cs : List Char} {parts : List (List Char)}
    (split : splitTop? depth cs = some parts) : ∀ part ∈ parts, part.length ≤ cs.length := by
  have step {c : Char} {rest : List Char} {found : Option (List (List Char))}
      {result : List (List Char)}
      (ih : ∀ parts, found = some parts → ∀ part ∈ parts, part.length ≤ rest.length)
      (h : found.map (consFirst c) = some result) :
      ∀ part ∈ result, part.length ≤ (c :: rest).length := by
    obtain ⟨inner, hinner, rfl⟩ := Option.map_eq_some_iff.1 h
    exact length_consFirst_le (ih inner hinner)
  fun_induction splitTop? depth cs generalizing parts with
  | case1 =>
    cases split
    simp
  | case2 => simp at split
  | case3 _ _ ih => exact step (fun _ h => ih h) split
  | case4 => simp at split
  | case5 _ _ ih => exact step (fun _ h => ih h) split
  | case6 cs ih =>
    obtain ⟨inner, hinner, rfl⟩ := Option.map_eq_some_iff.1 split
    intro part member
    rcases List.mem_cons.1 member with rfl | member
    · simp
    · have := ih hinner part member
      simp only [List.length_cons]
      omega
  | case7 _ _ _ _ _ _ _ ih => exact step (fun _ h => ih h) split

/-- The text between the first `<` and the final `>`, together with the text before the `<`. -/
def brackets? (cs : List Char) : Option (List Char × List Char) :=
  match cs.dropWhile (· != '<') with
  | [] => none
  | _ :: body =>
    if body.getLast? = some '>' then some (cs.takeWhile (· != '<'), body.dropLast) else none

theorem length_lt_of_brackets? {cs head body : List Char}
    (found : brackets? cs = some (head, body)) : body.length < cs.length := by
  have bound : (cs.dropWhile (· != '<')).length ≤ cs.length :=
    (List.dropWhile_sublist _).length_le
  unfold brackets? at found
  split at found
  · simp at found
  · next inner tail =>
    split at found
    · simp only [Option.some.injEq, Prod.mk.injEq] at found
      rw [tail] at bound
      rw [← found.2]
      simp only [List.length_cons, List.length_dropLast] at *
      omega
    · simp at found

/-- Reads an expression. A failure carries the trimmed text of the part that is malformed. -/
def parseChars (text : List Char) : Except (List Char) TypeExpr :=
  let cs := Text.trimChars text
  if cs.contains '<' then
    match _found : brackets? cs with
    | none => .error cs
    | some (head, body) =>
      match _parts : splitTop? 0 body with
      | some [elem] =>
        if Text.trimChars head = "array".toList then (parseChars elem).map .array
        else if Text.trimChars head = "set".toList then (parseChars elem).map .set
        else .error cs
      | some [key, elem] =>
        if Text.trimChars head = "dict".toList then
          match parseChars key with
          | .ok k => (parseChars elem).map (.dict k)
          | .error e => .error e
        else .error cs
      | _ => .error cs
  else if isIdentifier cs then .ok (.named (String.ofList cs))
  else .error cs
termination_by text.length
decreasing_by
  all_goals
    have outer := length_lt_of_brackets? _found
    have trimmed := Text.length_trimChars_le text
    have inner := length_le_of_splitTop? _parts
    simp only [List.mem_cons, List.not_mem_nil, or_false, forall_eq_or_imp, forall_eq] at inner
    simp only [cs] at outer
    omega

def parse (s : String) : Except String TypeExpr :=
  match parseChars s.toList with
  | .ok e => .ok e
  | .error cs => .error (String.ofList cs)

end TypeExpr

end ObjectBoundary
