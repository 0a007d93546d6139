import ConnectorControl.Text.Integer
import ConnectorControl.Text.Split

/-!
# Socket addresses

An address is an IP address, of version 4 or 6, with a port.  The text of version 6 stands between
brackets, may leave out one run of zero groups, may end in an address of version 4, and may name a
scope.  An address is written in lower case, the longest run of zero groups left out.
-/

namespace ConnectorControl

inductive SocketAddress where
  | v4 (octets : List Nat) (port : Nat)
  | v6 (groups : List Nat) (scope port : Nat)
deriving DecidableEq

namespace SocketAddress

/-! ## reading -/

/-- what is read in front of a text, with the rest of it -/
abbrev Reader (α : Type) := List Char → Option (α × List Char)

def char (c : Char) : Reader Unit
  | c' :: cs => if c' = c then some ((), cs) else none
  | [] => none

/-- the value of a digit in a base up to sixteen -/
def digit? (base : Nat) (c : Char) : Option Nat :=
  let d :=
    if '0' ≤ c ∧ c ≤ '9' then some (c.toNat - '0'.toNat)
    else if 'a' ≤ c ∧ c ≤ 'f' then some (c.toNat - 'a'.toNat + 10)
    else if 'A' ≤ c ∧ c ≤ 'F' then some (c.toNat - 'A'.toNat + 10)
    else none
  d.filter (· < base)

def ofDigits (base : Nat) (ds : List Nat) : Nat := ds.foldl (fun n d => base * n + d) 0

/-- all digits in front of a text, at least one -/
def digits (base : Nat) : Reader (List Nat) := fun cs =>
  let isDigit := fun c => (digit? base c).isSome
  match (cs.takeWhile isDigit).filterMap (digit? base) with
  | [] => none
  | ds => some (ds, cs.dropWhile isDigit)

/-- a number with a bound -/
def number (base bound : Nat) : Reader Nat := fun cs => do
  let (ds, rest) ← digits base cs
  if ofDigits base ds < bound then some (ofDigits base ds, rest) else none

/-- a number of at most three digits, without leading zeros, that fits an octet -/
def octet : Reader Nat := fun cs => do
  let (ds, rest) ← digits 10 cs
  if ds.length ≤ 3 ∧ (ds.length = 1 ∨ ds.head? ≠ some 0) ∧ ofDigits 10 ds < 256 then
    some (ofDigits 10 ds, rest)
  else none

/-- a hexadecimal number of at most four digits -/
def group : Reader Nat := fun cs => do
  let (ds, rest) ← digits 16 cs
  if ds.length ≤ 4 then some (ofDigits 16 ds, rest) else none

/-- an address of version 4 -/
def octets : Reader (List Nat) := fun cs => do
  let (a, cs) ← octet cs
  let (b, cs) ← octet (← char '.' cs).2
  let (c, cs) ← octet (← char '.' cs).2
  let (d, cs) ← octet (← char '.' cs).2
  return ([a, b, c, d], cs)

/-- the two groups of an address of version 4 -/
def groupsOfOctets : List Nat → List Nat
  | a :: b :: rest => (256 * a + b) :: groupsOfOctets rest
  | _ => []

/-- groups read, the rest of the text, and whether they end in an address of version 4 -/
structure Groups where
  groups : List Nat
  rest : List Char
  mixed : Bool

/-- Reads as many groups as there are, at most `limit`; all but the first follow a colon.  An
address of version 4 needs room for two. -/
def readGroups (first : Bool) : Nat → List Char → Groups
  | 0, cs => ⟨[], cs, false⟩
  | limit + 1, cs =>
    match if first then some cs else (char ':' cs).map (·.2) with
    | none => ⟨[], cs, false⟩
    | some inner =>
      match if limit = 0 then none else octets inner with
      | some (os, rest) => ⟨groupsOfOctets os, rest, true⟩
      | none =>
        match group inner with
        | none => ⟨[], cs, false⟩
        | some (g, rest) =>
          let more := readGroups false limit rest
          { more with groups := g :: more.groups }

/-- an address of version 6; the run left out stands for at least one group -/
def groups : Reader (List Nat) := fun cs => do
  let front := readGroups true 8 cs
  if front.groups.length = 8 then return (front.groups, front.rest)
  else if front.mixed then none
  else
    let rest := (← char ':' (← char ':' front.rest).2).2
    let back := readGroups true (7 - front.groups.length) rest
    let gap := 8 - front.groups.length - back.groups.length
    return (front.groups ++ List.replicate gap 0 ++ back.groups, back.rest)

def port : Reader Nat := fun cs => do number 10 (Nat.pow 2 16) (← char ':' cs).2

def readV4 : Reader SocketAddress := fun cs => do
  let (os, cs) ← octets cs
  let (p, cs) ← port cs
  return (.v4 os p, cs)

/-- a scope behind a percent sign, zero without one -/
def scope (cs : List Char) : Nat × List Char :=
  match char '%' cs >>= fun r => number 10 (Nat.pow 2 32) r.2 with
  | some r => r
  | none => (0, cs)

def readV6 : Reader SocketAddress := fun cs => do
  let (gs, cs) ← groups (← char '[' cs).2
  let (s, cs) := scope cs
  let (p, cs) ← port (← char ']' cs).2
  return (.v6 gs s p, cs)

/-- reads a text as one address -/
def ofText? (s : String) : Option SocketAddress :=
  match readV4 s.toList <|> readV6 s.toList with
  | some (a, []) => some a
  | _ => none

/-! ## writing -/

def octetsText (os : List Nat) : String := ".".intercalate (os.map toString)

def groupText (g : Nat) : String := .ofList (Nat.toDigits 16 g)

def groupsText (gs : List Nat) : String := ":".intercalate (gs.map groupText)

/-- how many zeros a list starts with -/
def leadingZeros (gs : List Nat) : Nat := (gs.takeWhile (· = 0)).length

/-- the start and the length of the first of the longest runs of zeros -/
def longestRun (gs : List Nat) : Nat × Nat :=
  (List.range gs.length).foldl
    (fun best i =>
      let n := leadingZeros (gs.drop i)
      if best.2 < n then (i, n) else best)
    (0, 0)

def v6Text : List Nat → String
  | [0, 0, 0, 0, 0, 0xffff, a, b] =>
    "::ffff:" ++ octetsText [a / 256, a % 256, b / 256, b % 256]
  | gs =>
    let (start, length) := longestRun gs
    if 1 < length then
      groupsText (gs.take start) ++ "::" ++ groupsText (gs.drop (start + length))
    else groupsText gs

def text : SocketAddress → String
  | .v4 os p => octetsText os ++ ":" ++ toString p
  | .v6 gs s p =>
    let scope := if s = 0 then "" else "%" ++ toString s
    "[" ++ v6Text gs ++ scope ++ "]:" ++ toString p

end SocketAddress
end ConnectorControl
