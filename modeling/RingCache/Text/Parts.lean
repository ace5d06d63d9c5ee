/-!
# Texts in parts

Cutting a list of characters at a separator: at the first one (`cut`), or at every one (`parts`).
The parts keep their order, and joining them with the separator gives the list back.
-/

namespace RingCache.Text

/-- The parts of a list between separators; one more than there are separators. -/
def parts (sep : Char) : List Char → List (List Char)
  | [] => [[]]
  | c :: cs =>
    if c = sep then [] :: parts sep cs
    else
      match parts sep cs with
      | [] => [[c]]
      | first :: others => (c :: first) :: others

/-- What stands before the first separator, and what stands after it if there is one. -/
def cut (sep : Char) (cs : List Char) : List Char × Option (List Char) :=
  match cs.dropWhile (· ≠ sep) with
  | [] => (cs, none)
  | _ :: after => (cs.takeWhile (· ≠ sep), some after)

/-- A text with the blanks at both ends taken off, by a given notion of a blank. -/
def strip (isBlank : Char → Bool) (cs : List Char) : List Char :=
  ((cs.dropWhile isBlank).reverse.dropWhile isBlank).reverse

def split (sep : Char) (s : String) : List String :=
  (parts sep s.toList).map String.ofList

end RingCache.Text
