import ConnectorControl.Text.Split

/-!
# Files of a working directory

A tree of files is known by their paths, with the directories on the way to them.  A path may go
through `.` and `..`; what lies above the tree is a directory without files.  A path from the root
finds no more than what every system has there.  A path that is too long leads nowhere.
-/

namespace ConnectorControl

inductive FileContent where
  | directory
  | bytes (bs : ByteArray)

structure FileTree where
  entries : List (List String × FileContent)

namespace FileTree

/-- the names on a path; repeated slashes count once -/
def names (path : String) : List String := (Text.split '/' path).filter (· ≠ "")

/-- the tree of files by path -/
def ofFiles (files : List (String × FileContent)) : FileTree :=
  ⟨files.map fun f => ((names f.1).filter (· ≠ "."), f.2)⟩

/-- what is at a list of names -/
def at? (t : FileTree) (place : List String) : Option FileContent :=
  match t.entries.find? fun e => e.1 = place with
  | some (_, c) => some c
  | none => if t.entries.any fun e => place.isPrefixOf e.1 then some .directory else none

def isDirectory (t : FileTree) (place : List String) : Bool :=
  match t.at? place with
  | some .directory => true
  | _ => place.isEmpty

/-- Follows names from a directory, `none` being a directory above the tree.  The directory above
the tree itself is given. -/
def walk (t : FileTree) (above : Option (List String)) :
    Option (List String) → List String → Option FileContent
  | none, [] => some .directory
  | none, name :: rest => if name = "." ∨ name = ".." then walk t above none rest else none
  | some place, [] => if t.isDirectory place then some .directory else t.at? place
  | some place, name :: rest =>
    if !t.isDirectory place then none
    else if name = "." then walk t above (some place) rest
    else if name = ".." then
      walk t above (if place.isEmpty then above else some place.dropLast) rest
    else walk t above (some (place ++ [name])) rest

/-- what is at the root of every system: its directories, the empty device and the table of users -/
def system : FileTree :=
  let directories := ["bin", "boot", "dev", "etc", "home", "lib", "media", "mnt", "opt", "proc",
    "root", "run", "sbin", "srv", "sys", "tmp", "usr", "var"]
  ofFiles ([("dev/null", .bytes .empty), ("etc/passwd", .bytes "root".toUTF8)] ++
    directories.map (·, .directory))

/-- the bytes of the longest path -/
def longestPath : Nat := 4095

/-- what is at a path; one that ends in a slash has to be a directory -/
def find? (t : FileTree) (path : String) : Option FileContent :=
  let places := names path ++ if path.endsWith "/" then ["."] else []
  if path = "" ∨ longestPath < path.utf8ByteSize then none
  else if path.startsWith "/" then system.walk (some []) (some []) places
  else t.walk none (some []) places

end FileTree

/-- the text of a file -/
def FileContent.text? : FileContent → Option String
  | .directory => none
  | .bytes bs => String.fromUTF8? bs

end ConnectorControl
