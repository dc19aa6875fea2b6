/-!
# Ascending lists

Insertion into a list that is kept in ascending order, with and without repeats. The element types are
those with a decidable strict order.
-/

namespace Quorate

variable {A : Type} [LT A] [DecidableLT A]

/-- Insert before the first element that is greater. -/
def insertSorted (a : A) : List A → List A
  | [] => [a]
  | b :: rest => if a < b then a :: b :: rest else b :: insertSorted a rest

def sortAscending (as : List A) : List A :=
  as.foldl (fun sorted a => insertSorted a sorted) []

/-- Insert in order, unless the element is there. -/
def insertUnique [DecidableEq A] (a : A) : List A → List A
  | [] => [a]
  | b :: rest =>
    if a = b then b :: rest
    else if a < b then a :: b :: rest
    else b :: insertUnique a rest

def sortUnique [DecidableEq A] (as : List A) : List A :=
  as.foldl (fun sorted a => insertUnique a sorted) []

end Quorate
