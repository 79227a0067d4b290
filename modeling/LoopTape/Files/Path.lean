namespace LoopTape
namespace Files

/-!
# Paths

A path is a text in which slashes separate names.  A path may be put into a
normal form that names the same place in most cases: names that are empty or a
single dot are left out, a path that names nothing becomes a single dot, and a
path from the root keeps its slash, or both of its slashes when it begins with
exactly two.  The name of two dots is kept.

The normal form loses the slash at the end of a path, which asks that the
place be a directory.
-/

/-- A name between slashes. -/
abbrev Name := List Char

/-- The names between the slashes of a path.  A slash at an end of the path
has an empty name beyond it. -/
def components : List Char -> List Name
  | [] => [[]]
  | '/' :: rest => [] :: components rest
  | character :: rest =>
    match components rest with
    | [] => [[character]]
    | name :: later => (character :: name) :: later

/-- The name of the directory that a path has reached. -/
def here : Name := ['.']

/-- The name of the directory above the one that a path has reached. -/
def above : Name := ['.', '.']

/-- The slashes that a path from the root keeps in front. -/
def root (path : List Char) : List Char :=
  match path with
  | '/' :: '/' :: '/' :: _ => ['/']
  | '/' :: '/' :: _ => ['/', '/']
  | '/' :: _ => ['/']
  | _ => []

/-- Names joined by slashes. -/
def joinNames : List Name -> List Char
  | [] => []
  | [name] => name
  | name :: next :: later => name ++ '/' :: joinNames (next :: later)

/-- The normal form of a path. -/
def normalize (path : List Char) : List Char :=
  let names := (components path).filter (fun name => !name.isEmpty && name != here)
  match root path ++ joinNames names with
  | [] => here
  | normal => normal

/-- The number of bytes that a text takes up in the names of files. -/
def byteLength : List Char -> Nat
  | [] => 0
  | character :: rest => character.utf8Size + byteLength rest

end Files
end LoopTape
