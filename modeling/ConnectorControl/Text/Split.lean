/-!
# Cutting text

A text is cut at every separator, or at the first one; what lies between is kept as it is, empty
parts included.  Lines lose their ends, whichever of the two kinds they have.
-/

namespace ConnectorControl
namespace Text

/-- the parts between the separators -/
def splitChars (sep : Char) : List Char → List (List Char)
  | [] => [[]]
  | c :: cs =>
    if c = sep then [] :: splitChars sep cs
    else
      match splitChars sep cs with
      | [] => [[c]]
      | part :: parts => (c :: part) :: parts

def split (sep : Char) (s : String) : List String := (splitChars sep s.toList).map .ofList

/-- what stands before and behind the first separator -/
def cut? (sep : Char) (s : String) : Option (String × String) :=
  match s.toList.span (· ≠ sep) with
  | (before, _ :: behind) => some (.ofList before, .ofList behind)
  | (_, []) => none

/-- a line without the carriage return at its end -/
def withoutReturn (line : String) : String :=
  match line.toList.reverse with
  | '\r' :: rest => .ofList rest.reverse
  | _ => line

/-- The lines of a text, each of which ends in a line feed, or in a carriage return and a line feed.
What follows the last line feed is a line if it is not empty. -/
def lines (s : String) : List String :=
  let parts := split '\n' s
  parts.dropLast.map withoutReturn ++ parts.getLast?.toList.filter (· ≠ "")

theorem splitChars_of_not_mem {sep : Char} {cs : List Char} (h : sep ∉ cs) :
    splitChars sep cs = [cs] := by
  induction cs with
  | nil => rfl
  | cons c cs ih =>
    have hc : c ≠ sep := fun e => h (e ▸ List.mem_cons_self)
    simp [splitChars, hc, ih fun m => h (List.mem_cons_of_mem _ m)]

theorem split_of_not_mem {sep : Char} {s : String} (h : sep ∉ s.toList) : split sep s = [s] := by
  simp [split, splitChars_of_not_mem h]

end Text
end ConnectorControl
