import ParserCombinators.Text.CaseTable

/-!
Upper and lower case of a whole text. Both mappings are the full ones: a code
point may turn into several, and a capital sigma becomes a final sigma where a
cased letter stands before it and none after it, case-ignorable code points
being stepped over on both sides.
-/

namespace ParserCombinators

namespace CodePoint

def CaseRun.covers (run : CaseRun) (n : Nat) : Bool :=
  run.first ≤ n && n ≤ run.last && (n - run.first) % run.stride == 0

/-- The image of one code point under a table of runs and expansions. -/
def mapCase (runs : List CaseRun) (expansions : List (Nat × List Nat)) (c : CodePoint) :
    Text :=
  match expansions.lookup c.val with
  | some image => image.map ofNat
  | none =>
    match runs.find? (·.covers c.val) with
    | some run => [ofNat (c.val + run.offset).toNat]
    | none => [c]

def toUpper (c : CodePoint) : Text := mapCase upperRuns upperExpansions c

def toLower (c : CodePoint) : Text := mapCase lowerRuns lowerExpansions c

def isCaseIgnorable (c : CodePoint) : Bool := inRanges caseIgnorableRanges c.val

def isCased (c : CodePoint) : Bool := inRanges casedRanges c.val

def capitalSigma : CodePoint := ofNat 0x3a3

def smallSigma : CodePoint := ofNat 0x3c3

def finalSigma : CodePoint := ofNat 0x3c2

end CodePoint

namespace Text

def toUpper (t : Text) : Text := t.flatMap CodePoint.toUpper

/-- Whether the first code point that counts is cased. -/
def startsCased (t : Text) : Bool :=
  match t.find? fun c => !c.isCaseIgnorable with
  | some c => c.isCased
  | none => false

/-- Lower case of the second text, the first being what stands before it, reversed. -/
def toLowerFrom (before : Text) : Text → Text
  | [] => []
  | c :: rest =>
    let image :=
      if c == CodePoint.capitalSigma then
        if startsCased before && !startsCased rest then [CodePoint.finalSigma]
        else [CodePoint.smallSigma]
      else c.toLower
    image ++ toLowerFrom (c :: before) rest

def toLower (t : Text) : Text := toLowerFrom [] t

end Text

end ParserCombinators
