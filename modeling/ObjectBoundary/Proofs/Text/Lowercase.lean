import Mathlib.Data.List.Infix
import Mathlib.Data.List.TakeWhile
import ObjectBoundary.Text.Blank
import ObjectBoundary.Text.Lowercase
import ObjectBoundary.Text.Piece

/-!
# Pieces of a text in lower case

A text is lowered one character at a time, and only a capital sigma looks at its neighbours. So a
piece is lowered inside a text as it is on its own exactly when each sigma in it is final in the
text if it is final in the piece.
-/

namespace ObjectBoundary.Text

variable {needle cs piece before after seen rest left right : List Char}

/-- A text has a piece when it goes on with it somewhere. -/
theorem hasPiece_iff : hasPiece needle cs = true ↔ needle <:+: cs := by
  induction cs with
  | nil => rw [hasPiece, List.isEmpty_iff, List.infix_nil]
  | cons c cs ih =>
    rw [hasPiece, Bool.or_eq_true, ih, List.isPrefixOf_iff_prefix, List.infix_cons_iff]

theorem trimChars_of_isBlank (blank : ∀ c ∈ cs, isBlank c = true) : trimChars cs = [] := by
  rw [trimChars, List.dropWhile_eq_nil_iff.mpr blank]
  rfl

/-! ### Lowering between neighbours -/

/-- Whether a capital sigma is final, given what comes before it, nearest first, and behind it. -/
def isFinal (seen rest : List Char) : Bool := meetsCased seen && !meetsCased rest

/-- The lower-case form of a character among its neighbours. -/
def lowerAt (seen rest : List Char) (c : Char) : List Char :=
  if c = 'Σ' then if isFinal seen rest then ['ς'] else ['σ'] else lowerChar c

theorem lowerFrom_cons (seen : List Char) (c : Char) (cs : List Char) :
    lowerFrom seen (c :: cs) = lowerAt seen cs c ++ lowerFrom (c :: seen) cs := rfl

/-- The lower-case form of a piece of a text, with the characters before it, nearest first, and
those behind it. -/
def lowerWithin (rest seen : List Char) : List Char → List Char
  | [] => []
  | c :: cs => lowerAt seen (cs ++ rest) c ++ lowerWithin rest (c :: seen) cs

theorem lowerFrom_append (seen cs rest : List Char) :
    lowerFrom seen (cs ++ rest) =
      lowerWithin rest seen cs ++ lowerFrom (cs.reverse ++ seen) rest := by
  induction cs generalizing seen with
  | nil => rfl
  | cons c cs ih =>
    rw [List.cons_append, lowerFrom_cons, ih, lowerWithin, List.append_assoc, List.reverse_cons,
      List.append_assoc, List.singleton_append]

/-- The neighbours of a character do not change how long its lower-case form is. -/
theorem length_lowerAt (seen rest seen' rest' : List Char) (c : Char) :
    (lowerAt seen rest c).length = (lowerAt seen' rest' c).length := by
  unfold lowerAt
  split
  · split <;> split <;> rfl
  · rfl

theorem lowerFrom_eq_lowerWithin (seen cs : List Char) :
    lowerFrom seen cs = lowerWithin [] seen cs := by
  induction cs generalizing seen with
  | nil => rfl
  | cons c cs ih => rw [lowerFrom_cons, ih, lowerWithin, List.append_nil]

theorem lowerAt_sigma_eq_iff {seen' rest' : List Char} :
    lowerAt seen rest 'Σ' = lowerAt seen' rest' 'Σ' ↔ isFinal seen rest = isFinal seen' rest' := by
  unfold lowerAt
  cases isFinal seen rest <;> cases isFinal seen' rest' <;> decide

/-- Among different neighbours a piece is lowered alike exactly when the same sigmas are final. -/
theorem lowerWithin_eq_iff {seen' rest' : List Char} :
    lowerWithin rest seen cs = lowerWithin rest' seen' cs ↔
      ∀ left right : List Char, cs = left ++ 'Σ' :: right →
        isFinal (left.reverse ++ seen) (right ++ rest) =
          isFinal (left.reverse ++ seen') (right ++ rest') := by
  induction cs generalizing seen seen' with
  | nil => simp [lowerWithin]
  | cons c cs ih =>
    have parts : lowerWithin rest seen (c :: cs) = lowerWithin rest' seen' (c :: cs) ↔
        lowerAt seen (cs ++ rest) c = lowerAt seen' (cs ++ rest') c ∧
          lowerWithin rest (c :: seen) cs = lowerWithin rest' (c :: seen') cs :=
      ⟨fun same => List.append_inj same (length_lowerAt ..),
        fun ⟨first, others⟩ => congrArg₂ (· ++ ·) first others⟩
    rw [parts, ih]
    constructor
    · rintro ⟨first, others⟩ left right split
      rcases List.cons_eq_append_iff.mp split with ⟨rfl, sigma⟩ | ⟨more, rfl, rfl⟩
      · obtain ⟨rfl, rfl⟩ := List.cons.inj sigma
        exact lowerAt_sigma_eq_iff.mp first
      · simpa using others more right rfl
    · intro same
      refine ⟨?_, fun left right split => ?_⟩
      · by_cases sigma : c = 'Σ'
        · subst sigma
          exact lowerAt_sigma_eq_iff.mpr (same [] cs rfl)
        · simp [lowerAt, sigma]
      · simpa using same (c :: left) right (congrArg (c :: ·) split)

/-! ### Sigmas that stand -/

/-- Each capital sigma of a piece is final in the text exactly when it is final in the piece. -/
def SigmasStand (before piece after : List Char) : Prop :=
  ∀ left right : List Char, piece = left ++ 'Σ' :: right →
    isFinal (left.reverse ++ before.reverse) (right ++ after) = isFinal left.reverse right

theorem sigmasStand_of_not_mem (absent : 'Σ' ∉ piece) : SigmasStand before piece after := by
  rintro left right rfl
  exact absurd (List.mem_append_right left List.mem_cons_self) absent

theorem meetsCased_append (none : meetsCased rest = false) :
    meetsCased (cs ++ rest) = meetsCased cs := by
  induction cs with
  | nil => exact none
  | cons c cs ih =>
    unfold meetsCased at ih ⊢
    cases ignored : isCaseIgnorable c with
    | true => rw [List.cons_append, List.dropWhile_cons_of_pos ignored,
        List.dropWhile_cons_of_pos ignored, ih]
    | false => rw [List.cons_append, List.dropWhile_cons_of_neg (by simp [ignored]),
        List.dropWhile_cons_of_neg (by simp [ignored])]

/-- What is not cut out of a word keeps its sigmas. -/
theorem sigmasStand_of_apart (first : meetsCased before.reverse = false)
    (last : meetsCased after = false) : SigmasStand before piece after := by
  intro left right _
  rw [isFinal, isFinal, meetsCased_append first, meetsCased_append last]

/-- A piece is lowered inside a text as it is on its own exactly when its sigmas stand. -/
theorem lowerWithin_eq_lowerFrom_iff :
    lowerWithin after before.reverse piece = lowerFrom [] piece ↔
      SigmasStand before piece after := by
  rw [lowerFrom_eq_lowerWithin, lowerWithin_eq_iff]
  simp only [List.append_nil, SigmasStand]

/-- Where the sigmas of a piece stand, the piece is still one in lower case. -/
theorem lowerFrom_infix (stand : SigmasStand before piece after) :
    lowerFrom [] piece <:+: lowerFrom [] (before ++ piece ++ after) := by
  have lowered : lowerFrom [] (before ++ piece ++ after) =
      lowerWithin (piece ++ after) [] before ++ (lowerWithin after before.reverse piece ++
        lowerFrom (piece.reverse ++ before.reverse) after) := by
    rw [List.append_assoc, lowerFrom_append, lowerFrom_append, List.append_nil]
  rw [lowered, lowerWithin_eq_lowerFrom_iff.mpr stand]
  exact ⟨_, _, List.append_assoc _ _ _⟩

end ObjectBoundary.Text
