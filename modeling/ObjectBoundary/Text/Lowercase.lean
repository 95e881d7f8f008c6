import ObjectBoundary.Text.CaseData
import ObjectBoundary.Text.Ranges

/-!
# Lower-casing

The full lower-case mapping of Unicode text. Two characters are special: a capital I with a dot
becomes two characters, and a capital sigma becomes a final sigma at the end of a word.
-/

namespace ObjectBoundary.Text

def isCased (c : Char) : Bool := inRanges casedRanges c.toNat

def isCaseIgnorable (c : Char) : Bool := inRanges caseIgnorableRanges c.toNat

/-- The lower-case form of one character, without regard to its neighbours. -/
def lowerChar (c : Char) : List Char :=
  if c.toNat < 0x80 then [c.toLower]
  else if c = 'İ' then ['i', '\u0307']
  else
    match lowercaseRuns.find? (·.covers c.toNat) with
    | some run => [Char.ofNat (c.toNat + run.offset).toNat]
    | none => [c]

/-- Whether a cased character follows, once the case-ignorable ones are passed over. -/
def meetsCased (cs : List Char) : Bool :=
  match cs.dropWhile isCaseIgnorable with
  | c :: _ => isCased c
  | [] => false

/-- Lower-cases `rest`, where `seen` holds the characters before it, nearest first. A capital
sigma is final when a cased character comes before it and none comes after it. -/
def lowerFrom (seen : List Char) : List Char → List Char
  | [] => []
  | c :: rest =>
    let low :=
      if c = 'Σ' then
        if meetsCased seen && !meetsCased rest then ['ς'] else ['σ']
      else lowerChar c
    low ++ lowerFrom (c :: seen) rest

def lowercase (s : String) : String :=
  String.ofList (lowerFrom [] s.toList)

end ObjectBoundary.Text
