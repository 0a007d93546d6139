import ConnectorControl.Decimal.Notation
import ConnectorControl.Json.Basic
import ConnectorControl.Json.Writer

/-!
# YAML text of JSON values

Objects and arrays that are not empty are written as blocks, a member or an item to a line; the
items of an array stand as far in as the name of the array.  Text is plain where it reads back as
the same text, else between single quotes, or between double quotes when it holds controls.
-/

namespace ConnectorControl
namespace Yaml

/-! ## text -/

/-- words that stand for something else than their text, in lower case -/
def reserved : List String :=
  ["", "~", "null", "true", "false", "yes", "no", "on", "off", "y", "n", ".nan", ".inf", "-.inf",
    "+.inf"]

/-- characters that a plain text does not start with -/
def indicators : List Char := "-?:,[]\x7b\x7d#&*!|>'\"%@ ".toList ++ [Char.ofNat 0x60]

/-- whether a text starts as a number does, with a digit, a plus sign or a point and a digit -/
def startsNumber : List Char → Bool
  | '.' :: c :: _ => c.isDigit
  | c :: _ => c.isDigit || c = '+'
  | [] => false

/-- whether a colon ends a name or a number sign starts a comment within a text -/
def breaksPlain : List Char → Bool
  | ':' :: [] => true
  | ':' :: ' ' :: _ => true
  | ' ' :: '#' :: _ => true
  | [' '] => true
  | _ :: cs => breaksPlain cs
  | [] => false

def isPlain (s : String) : Bool :=
  let cs := s.toList
  !reserved.contains s.toLower && !(cs.head?.any indicators.contains) && !startsNumber cs &&
    !breaksPlain cs

def singleQuoted (s : String) : String :=
  .ofList ('\'' :: s.toList.flatMap (fun c => if c = '\'' then ['\'', '\''] else [c]) ++ ['\''])

def scalarText (s : String) : String :=
  if s.toList.any fun c => c.toNat < 0x20 then Json.stringText s
  else if isPlain s then s
  else singleQuoted s

/-! ## blocks -/

/-- the text of a value that fits behind a name, if it has one -/
def inline? : Json → Option String
  | .null => some "null"
  | .bool b => some (if b then "true" else "false")
  | .int n => some (toString n)
  | .real x => some (Json.realText x)
  | .str s => some (scalarText s)
  | .arr [] => some "[]"
  | .obj [] => some "\x7b\x7d"
  | .arr (_ :: _) => none
  | .obj (_ :: _) => none

/-- puts a text in front of the first line and blanks in front of the others -/
def hang (first : String) : List String → List String
  | [] => []
  | l :: ls => (first ++ l) :: ls.map ("  " ++ ·)

/-- sets lines further in under a name, unless they are the items of an array -/
def indent : Json → List String → List String
  | .arr _, ls => ls
  | _, ls => ls.map ("  " ++ ·)

mutual

/-- the lines of a value -/
def lines : Json → List String
  | .arr (v :: vs) => itemLines (v :: vs)
  | .obj (m :: ms) => memberLines (m :: ms)
  | v => (inline? v).toList

def itemLines : List Json → List String
  | [] => []
  | v :: rest => hang "- " (lines v) ++ itemLines rest

def memberLines : List (String × Json) → List String
  | [] => []
  | (k, v) :: rest =>
    (match inline? v with
      | some text => [scalarText k ++ ": " ++ text]
      | none => (scalarText k ++ ":") :: indent v (lines v)) ++ memberLines rest

end

/-- the text of a value -/
def text (v : Json) : String := .join ((lines v).map (· ++ "\n"))

end Yaml
end ConnectorControl
