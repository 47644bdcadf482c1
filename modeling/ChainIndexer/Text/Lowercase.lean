import ChainIndexer.Text.CaseTable
import ChainIndexer.Text.Ranges

/-!
# Lowercase

Addresses are compared in lowercase. The mapping is the full one of Unicode: a capital I with a dot
becomes two characters, and a capital sigma becomes a final one at the end of a word.
-/

namespace ChainIndexer.Text

def CaseRun.image? (run : CaseRun) (code : Nat) : Option Nat :=
  if run.first ≤ code ∧ code ≤ run.last ∧ (code - run.first) % run.stride = 0 then
    some (code + run.offset).toNat
  else none

def lowerChar (c : Char) : Char :=
  match lowercaseRuns.findSome? (·.image? c.toNat) with
  | some code => Char.ofNat code
  | none => c

/-- Whether a cased character comes next, characters that do not matter for case skipped. -/
def meetsCased (chars : List Char) : Bool :=
  match chars.dropWhile (inRanges caseIgnorableRanges) with
  | c :: _ => inRanges casedRanges c
  | [] => false

/-- Lowercases characters, given those before them in reverse order. -/
def lowerAfter (before : List Char) : List Char → List Char
  | [] => []
  | c :: rest =>
    let lower :=
      if c.toNat < 0x80 then [c.toLower]
      else if c = 'Σ' then if meetsCased before && !meetsCased rest then ['ς'] else ['σ']
      else if c = 'İ' then ['i', '\u0307']
      else [lowerChar c]
    lower ++ lowerAfter (c :: before) rest

def lowercase (text : String) : String :=
  String.ofList (lowerAfter [] text.toList)

/-- Equality up to the case of ASCII letters. -/
def sameIgnoringAsciiCase (a b : String) : Bool :=
  a.toList.map Char.toLower = b.toList.map Char.toLower

end ChainIndexer.Text
