import ConnectorControl.Json.Number

/-!
# JSON text, read

A text is cut into tokens by a machine over its characters, and the tokens build a tree by a
machine over the containers not yet closed.  The reader is strict: no comments, no trailing text,
no raw controls inside strings.

Text may be well-formed and still have no value: a float too large, half of a surrogate pair, or a
container inside of 127 others.  `Written` keeps the place of such a part, since a reader may not
look there; it also has all members of an object in their order, also several of one name.  For
`parse?`, which looks everywhere, the last of them counts.
-/

namespace ConnectorControl
namespace Json

/-! ## tokens -/

/-- a mark, a string, or what stands between blanks and marks; a string may have no value -/
inductive Token where
  | mark (c : Char)
  | string (s : Option String)
  | word (cs : List Char)

namespace Token

def isMark (c : Char) : Bool := "[]\x7b\x7d,:".toList.contains c

def isBlank (c : Char) : Bool := c = ' ' || c = '\t' || c = '\n' || c = '\r'

/-- Where the machine stands.  What a string holds is kept in reverse as code points, among them the
halves of surrogate pairs that its escapes give; `code` has read part of a four-digit escape. -/
inductive Mode where
  | between
  | word (cs : List Char)
  | string (units : List Nat)
  | escape (units : List Nat)
  | code (units : List Nat) (left value : Nat)

structure State where
  tokens : List Token
  mode : Mode

def hexDigit? (c : Char) : Option Nat :=
  if '0' ≤ c ∧ c ≤ '9' then some (c.toNat - '0'.toNat)
  else if 'a' ≤ c ∧ c ≤ 'f' then some (c.toNat - 'a'.toNat + 10)
  else if 'A' ≤ c ∧ c ≤ 'F' then some (c.toNat - 'A'.toNat + 10)
  else none

def letterEscape? (c : Char) : Option Char :=
  match c with
  | '"' => some '"'
  | '\\' => some '\\'
  | '/' => some '/'
  | 'b' => some '\x08'
  | 'f' => some '\x0c'
  | 'n' => some '\n'
  | 'r' => some '\r'
  | 't' => some '\t'
  | _ => none

def isHigh (n : Nat) : Bool := 0xd800 ≤ n && n < 0xdc00

def isLow (n : Nat) : Bool := 0xdc00 ≤ n && n < 0xe000

/-- joins the halves of surrogate pairs; one without the other has no value -/
def joined? : List Nat → Option (List Char)
  | [] => some []
  | [n] => if isHigh n || isLow n then none else some [Char.ofNat n]
  | n :: m :: units =>
    if isHigh n then
      if isLow m then
        let c := Char.ofNat (0x10000 + (n - 0xd800) * 0x400 + (m - 0xdc00))
        (joined? units).map (c :: ·)
      else none
    else if isLow n then none
    else (joined? (m :: units)).map (Char.ofNat n :: ·)

/-- a character between tokens -/
def start (tokens : List Token) (c : Char) : State :=
  if isBlank c then ⟨tokens, .between⟩
  else if isMark c then ⟨.mark c :: tokens, .between⟩
  else if c = '"' then ⟨tokens, .string []⟩
  else ⟨tokens, .word [c]⟩

def step (s : State) (c : Char) : Option State :=
  match s.mode with
  | .between => some (start s.tokens c)
  | .word cs =>
    if isBlank c || isMark c || c = '"' then some (start (.word cs.reverse :: s.tokens) c)
    else some ⟨s.tokens, .word (c :: cs)⟩
  | .string units =>
    if c = '"' then some ⟨.string ((joined? units.reverse).map .ofList) :: s.tokens, .between⟩
    else if c = '\\' then some ⟨s.tokens, .escape units⟩
    else if c.toNat < 0x20 then none
    else some ⟨s.tokens, .string (c.toNat :: units)⟩
  | .escape units =>
    if c = 'u' then some ⟨s.tokens, .code units 4 0⟩
    else (letterEscape? c).map fun e => ⟨s.tokens, .string (e.toNat :: units)⟩
  | .code units left value => do
    let value := 16 * value + (← hexDigit? c)
    if left ≤ 1 then return ⟨s.tokens, .string (value :: units)⟩
    else return ⟨s.tokens, .code units (left - 1) value⟩

/-- the tokens of a text -/
def ofChars (cs : List Char) : Option (List Token) := do
  let s ← cs.foldlM step ⟨[], .between⟩
  match s.mode with
  | .between => some s.tokens.reverse
  | .word cs => some (.word cs.reverse :: s.tokens).reverse
  | _ => none

end Token

/-! ## trees -/

/-- JSON as it is written -/
inductive Written where
  | scalar (v : Json)
  | valueless
  | arr (items : List Written)
  | obj (members : List (Option String × Written))

namespace Builder

/-- A container not yet closed, its parts in reverse.  An object holds the name of the member being
read. -/
inductive Frame where
  | array (items : List Written)
  | object (members : List (Option String × Written)) (name : Option String)

/-- what may come next, inside the containers given -/
inductive State where
  | value (frames : List Frame)
  | firstItem (frames : List Frame)
  | name (members : List (Option String × Written)) (frames : List Frame)
  | firstName (frames : List Frame)
  | colon (members : List (Option String × Written)) (name : Option String) (frames : List Frame)
  | more (frame : Frame) (frames : List Frame)
  | complete (v : Written)

/-- how many containers may lie in one another -/
def maxDepth : Nat := 127

/-- hands a value to the container around it -/
def give (v : Written) : List Frame → State
  | [] => .complete v
  | .array items :: frames => .more (.array (v :: items)) frames
  | .object members name :: frames => .more (.object ((name, v) :: members) name) frames

/-- hands a container on that is closed -/
def close (v : Written) (frames : List Frame) : State :=
  give (if frames.length < maxDepth then v else .valueless) frames

def word? (cs : List Char) : Option Written :=
  if cs = "null".toList then some (.scalar .null)
  else if cs = "true".toList then some (.scalar (.bool true))
  else if cs = "false".toList then some (.scalar (.bool false))
  else
    (Number.parts? cs).map fun p =>
      match p.value with
      | some v => .scalar v
      | none => .valueless

/-- the first token of a value -/
def startValue (frames : List Frame) : Token → Option State
  | .string (some s) => some (give (.scalar (.str s)) frames)
  | .string none => some (give .valueless frames)
  | .word cs => (word? cs).map fun v => give v frames
  | .mark c =>
    if c = '[' then some (.firstItem frames)
    else if c = '\x7b' then some (.firstName frames)
    else none

def step (s : State) (t : Token) : Option State :=
  match s, t with
  | .value frames, t => startValue frames t
  | .firstItem frames, .mark ']' => some (close (.arr []) frames)
  | .firstItem frames, t => startValue (.array [] :: frames) t
  | .firstName frames, .mark '\x7d' => some (close (.obj []) frames)
  | .firstName frames, .string name => some (.colon [] name frames)
  | .name members frames, .string name => some (.colon members name frames)
  | .colon members name frames, .mark ':' => some (.value (.object members name :: frames))
  | .more (.array items) frames, .mark ',' => some (.value (.array items :: frames))
  | .more (.array items) frames, .mark ']' => some (close (.arr items.reverse) frames)
  | .more (.object members _) frames, .mark ',' => some (.name members frames)
  | .more (.object members _) frames, .mark '\x7d' => some (close (.obj members.reverse) frames)
  | _, _ => none

end Builder

/-- reads a text as it is written -/
def Written.ofText? (s : String) : Option Written := do
  let tokens ← Token.ofChars s.toList
  match ← tokens.foldlM Builder.step (.value []) with
  | .complete v => some v
  | _ => none

mutual

/-- the value of a tree that has one in all its parts, with members as they are written -/
def Written.value? : Written → Option Json
  | .scalar v => some v
  | .valueless => none
  | .arr items => (Written.items? items).map .arr
  | .obj members => (Written.members? members).map .obj

def Written.items? : List Written → Option (List Json)
  | [] => some []
  | v :: rest =>
    match v.value?, Written.items? rest with
    | some v, some rest => some (v :: rest)
    | _, _ => none

def Written.members? : List (Option String × Written) → Option (List (String × Json))
  | [] => some []
  | (name, v) :: rest =>
    match name, v.value?, Written.members? rest with
    | some name, some v, some rest => some ((name, v) :: rest)
    | _, _, _ => none

end

/-! ## key order -/

mutual

/-- the value with the members of every object in key order -/
def canonical : Json → Json
  | .arr items => .arr (canonicalItems items)
  | .obj members => .object (canonicalMembers members)
  | .null => .null
  | .bool b => .bool b
  | .int n => .int n
  | .real x => .real x
  | .str s => .str s

def canonicalItems : List Json → List Json
  | [] => []
  | v :: rest => v.canonical :: canonicalItems rest

def canonicalMembers : List (String × Json) → List (String × Json)
  | [] => []
  | (k, v) :: rest => (k, v.canonical) :: canonicalMembers rest

end

mutual

theorem canonical_canonical : (v : Json) → v.canonical.Canonical
  | .arr items => by simpa [canonical, Canonical] using itemsCanonical_canonicalItems items
  | .obj members => canonical_object (membersCanonical_iff.1 (membersCanonical_canonical members))
  | .null | .bool _ | .int _ | .real _ | .str _ => by simp [canonical, Canonical]

theorem itemsCanonical_canonicalItems : (items : List Json) →
    ItemsCanonical (canonicalItems items)
  | [] => trivial
  | v :: rest => ⟨canonical_canonical v, itemsCanonical_canonicalItems rest⟩

theorem membersCanonical_canonical : (ms : List (String × Json)) →
    MembersCanonical (canonicalMembers ms)
  | [] => trivial
  | (_, v) :: rest => ⟨canonical_canonical v, membersCanonical_canonical rest⟩

end

/-- reads a text as one value -/
def parse? (s : String) : Option Json := ((Written.ofText? s).bind Written.value?).map canonical

theorem canonical_of_parse? {s : String} {v : Json} (h : parse? s = some v) : v.Canonical := by
  obtain ⟨w, _, rfl⟩ := Option.map_eq_some_iff.1 h
  exact canonical_canonical w

end Json
end ConnectorControl
