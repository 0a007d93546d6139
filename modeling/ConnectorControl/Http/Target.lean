import ConnectorControl.Text.Split
import ConnectorControl.Text.Utf8

/-!
# Targets of requests

A request is for a path, with a query behind a question mark; what follows a number sign does not
belong to either.  The path may come behind a scheme and an authority.  An asterisk and an authority
alone are targets too, of the whole server, and have no path that a page is at.
-/

namespace ConnectorControl
namespace Http

structure Target where
  path : String
  query : Option String

namespace Target

/-- the bytes of the longest target -/
def longest : Nat := 65534

/-! ## path and query -/

/-- whether a character may stand in a path -/
def isPathChar (c : Char) : Bool := 0x20 < c.toNat && !"#<>?`\x7f".toList.contains c

/-- whether a character may stand in a query -/
def isQueryChar (c : Char) : Bool := 0x20 < c.toNat && !"\"#<>\x7f".toList.contains c

/-- a path with its query -/
def ofPath? (cs : List Char) : Option Target :=
  let (path, behind) := (cs.takeWhile (· ≠ '#')).span (· ≠ '?')
  if path.all isPathChar then
    match behind with
    | [] => some ⟨.ofList path, none⟩
    | _ :: query =>
      if query.all isQueryChar then some ⟨.ofList path, some (.ofList query)⟩ else none
  else none

/-! ## authority -/

def isAuthorityEnd (c : Char) : Bool := "/?#".toList.contains c

/-- whether a character may stand in an authority -/
def isAuthorityChar (c : Char) : Bool :=
  c.isAlphanum || "!$&'()*+,-.:;=@[]_~%".toList.contains c

/-- What is known of an authority after some of its characters: the colons and whether there is a
percent sign since the last user or address, and the brackets seen. -/
structure Authority where
  colons : Nat
  opened : Bool
  closed : Bool
  escaped : Bool
  /-- whether it ends in a user -/
  userLast : Bool

namespace Authority

def initial : Authority := ⟨0, false, false, false, false⟩

def step (a : Authority) (c : Char) : Option Authority :=
  let a := { a with userLast := c = '@' }
  if !isAuthorityChar c then none
  else if c = ':' then if a.colons < 8 then some { a with colons := a.colons + 1 } else none
  else if c = '[' then if a.escaped || a.opened then none else some { a with opened := true }
  else if c = ']' then
    if a.opened && !a.closed then some { a with closed := true, colons := 0, escaped := false }
    else none
  else if c = '@' then some { a with colons := 0, escaped := false }
  else if c = '%' then some { a with escaped := true }
  else some a

/-- whether an authority may end here: with a host and at most a port behind it -/
def isComplete (a : Authority) : Bool :=
  a.opened == a.closed && a.colons ≤ 1 && !a.userLast && !a.escaped

def accepts (cs : List Char) : Bool :=
  match cs.foldlM step initial with
  | some a => a.isComplete
  | none => false

end Authority

/-! ## scheme -/

def isSchemeChar (c : Char) : Bool := c.isAlphanum || "+-.~".toList.contains c

def longestScheme : Nat := 64

/-- The length of the scheme, and what is behind it.  There is none unless a colon and two slashes
follow. -/
def scheme? (cs : List Char) : Option (Nat × List Char) :=
  let (scheme, behind) := cs.span isSchemeChar
  match behind with
  | ':' :: '/' :: '/' :: rest => some (scheme.length, rest)
  | _ => none

/-! ## targets -/

/-- a target of the whole server -/
def server : Target := ⟨"", none⟩

/-- the target behind a scheme, where a path that is left out is the root -/
def ofAuthority? (cs : List Char) : Option Target := do
  let (authority, behind) := cs.span fun c => !isAuthorityEnd c
  if authority.isEmpty || !Authority.accepts authority then none
  else
    let t ← ofPath? behind
    return if t.path = "" then { t with path := "/" } else t

/-- reads a target -/
def parse? (s : String) : Option Target :=
  let cs := s.toList
  if s = "" ∨ longest < s.utf8ByteSize then none
  else if s = "*" then some ⟨"*", none⟩
  else if cs.head? = some '/' then ofPath? cs
  else
    match scheme? cs with
    | some (length, rest) => if longestScheme < length then none else ofAuthority? rest
    | none =>
      if cs.all (fun c => !isAuthorityEnd c) && Authority.accepts cs then some server else none

end Target
end Http
end ConnectorControl
