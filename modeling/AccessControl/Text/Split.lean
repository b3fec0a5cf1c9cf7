/-!
Cutting texts at a separator.
-/

namespace AccessControl.Text

/-- The parts between separators; a text without one is a single part. -/
def split (sep : Char) : List Char → List (List Char)
  | [] => [[]]
  | c :: rest =>
    if c = sep then [] :: split sep rest
    else
      match split sep rest with
      | part :: parts => (c :: part) :: parts
      | [] => [[c]]

def splitLast? (sep : Char) (cs : List Char) : Option (List Char × List Char) :=
  match cs.reverse.dropWhile (· ≠ sep) with
  | [] => none
  | _ :: front => some (front.reverse, (cs.reverse.takeWhile (· ≠ sep)).reverse)

def splitFirst? (sep : Char) (cs : List Char) : Option (List Char × List Char) :=
  match cs.dropWhile (· ≠ sep) with
  | [] => none
  | _ :: back => some (cs.takeWhile (· ≠ sep), back)

end AccessControl.Text
