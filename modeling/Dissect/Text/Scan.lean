/-
# Cutting texts

Elementary cuts of a text: at the first occurrence of a character, at every occurrence, and by
length.  Lengths count code points.
-/

namespace Dissect.Text

/-- The parts before and after the first occurrence of a character, if there is one. -/
def cutChars (sep : Char) : List Char → Option (List Char × List Char)
  | [] => none
  | c :: rest =>
    if c = sep then some ([], rest)
    else (cutChars sep rest).map fun (before, after) => (c :: before, after)

/-- The parts of a text before and after the first occurrence of a character. -/
def cut? (s : String) (sep : Char) : Option (String × String) :=
  (cutChars sep s.toList).map fun (before, after) => (String.ofList before, String.ofList after)

/-- The pieces between all occurrences of a character; there is always at least one. -/
def splitChars (sep : Char) : List Char → List (List Char)
  | [] => [[]]
  | c :: rest =>
    if c = sep then [] :: splitChars sep rest
    else
      match splitChars sep rest with
      | [] => [[c]]
      | piece :: pieces => (c :: piece) :: pieces

/-- The pieces of a text between all occurrences of a character. -/
def splitAt (s : String) (sep : Char) : List String :=
  (splitChars sep s.toList).map String.ofList

/-- The first list stands somewhere inside the second. -/
def isInfixOf (part : List Char) : List Char → Bool
  | [] => part.isEmpty
  | c :: rest => part.isPrefixOf (c :: rest) || isInfixOf part rest

/-- The text contains the other one. -/
def contains (s part : String) : Bool := isInfixOf part.toList s.toList

/-- The first `n` characters. -/
def take (s : String) (n : Nat) : String := String.ofList (s.toList.take n)

/-- The last `n` characters. -/
def takeEnd (s : String) (n : Nat) : String :=
  String.ofList (s.toList.drop (s.toList.length - n))

/-- The text begins with the other one. -/
def startsWith (s start : String) : Bool := start.toList.isPrefixOf s.toList

/-- The text ends with the other one. -/
def endsWith (s tail : String) : Bool := tail.toList.isSuffixOf s.toList

/-- The texts joined by a separator. -/
def join (sep : String) (parts : List String) : String := sep.intercalate parts

end Dissect.Text
