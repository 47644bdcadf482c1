import ChainIndexer.Text.IdentifierTable
import ChainIndexer.Text.Ranges

/-!
# Identifiers

Identifiers begin with a letter of any script or with an underscore; digits, marks and joining
punctuation may follow.
-/

namespace ChainIndexer.Text

def startsIdentifier (c : Char) : Bool :=
  c.isAlpha || c = '_' || inRanges identifierStartRanges c

def continuesIdentifier (c : Char) : Bool :=
  startsIdentifier c || c.isDigit || inRanges identifierExtendRanges c

end ChainIndexer.Text
