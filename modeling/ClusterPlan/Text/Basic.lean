/-!
Small operations on text: comparison without case, splitting at a character, hexadecimal digits.
Case is the case of ASCII letters only.
-/

namespace ClusterPlan.Text

def lower (s : String) : String := String.ofList (s.toList.map Char.toLower)

def sameIgnoringCase (s t : String) : Bool := lower s == lower t

/-- The parts of the text between the occurrences of `sep`; one more than there are occurrences. -/
def splitChars (sep : Char) : List Char → List (List Char)
  | [] => [[]]
  | c :: rest =>
      match splitChars sep rest with
      | [] => [[c]]
      | part :: parts => if c = sep then [] :: part :: parts else (c :: part) :: parts

def split (sep : Char) (s : String) : List String := (splitChars sep s.toList).map String.ofList

/-- What stands before and after the first `sep`. -/
def cutChars? (sep : Char) : List Char → Option (List Char × List Char)
  | [] => none
  | c :: rest =>
      if c = sep then some ([], rest) else (cutChars? sep rest).map fun (a, b) => (c :: a, b)

def cut? (sep : Char) (s : String) : Option (String × String) :=
  (cutChars? sep s.toList).map fun (a, b) => (String.ofList a, String.ofList b)

/-- At least `width` lower-case hexadecimal digits. -/
def hex (width n : Nat) : String :=
  let ds := Nat.toDigits 16 n
  String.ofList (List.replicate (width - ds.length) '0' ++ ds)

/-- Padded with spaces on the right up to `width` characters. -/
def padRight (width : Nat) (s : String) : String :=
  s ++ String.ofList (List.replicate (width - s.length) ' ')

/-- Distinct texts in ascending order. -/
def ascending (texts : List String) : List String := (texts.mergeSort (· ≤ ·)).eraseDups

def join (sep : String) (texts : List String) : String := sep.intercalate texts

end ClusterPlan.Text
