import LoopTape.Encoding.Codec
import LoopTape.Files.Path

namespace LoopTape
namespace Files

/-!
# Directories and what can go wrong with a file

A working directory holds files, which are bytes, and directories.  To open a
path is to walk along its names.  The walk needs a directory at every name but
the last, and the file itself must not be a directory.  Nothing is known about
the directories above the working directory except that they are there.

Before the walk, a path with a null character is refused, and then one that is
too long as a whole.  A single name that is too long is refused only when the
walk arrives at it.
-/

/-- Why a file cannot be opened. -/
inductive OpenFault where
  | notFound
  | isDirectory
  | notDirectory
  | nameTooLong
  | embeddedNull
  deriving DecidableEq

/-- The message about a path that cannot be opened. -/
def OpenFault.message (path : List Char) : OpenFault -> List Char
  | notFound => "[Errno 2] No such file or directory: ".toList ++ Text.quoted path
  | isDirectory => "[Errno 21] Is a directory: ".toList ++ Text.quoted path
  | notDirectory => "[Errno 20] Not a directory: ".toList ++ Text.quoted path
  | nameTooLong => "[Errno 36] File name too long: ".toList ++ Text.quoted path
  | embeddedNull => "embedded null byte".toList

/-- Why no text can be read from a path. -/
inductive ReadFault where
  | cannotOpen (fault : OpenFault) (path : List Char)
  | unknownEncoding (name : List Char)
  | undecodable (fault : Encoding.Fault)
  deriving DecidableEq

/-- The message about a text that cannot be read. -/
def ReadFault.message : ReadFault -> List Char
  | cannotOpen fault path => fault.message path
  | unknownEncoding name => "unknown encoding: ".toList ++ name
  | undecodable fault => fault.message

/-- What stands at a place. -/
inductive Entry where
  | file (bytes : List UInt8)
  | directory
  deriving DecidableEq

/-- A working directory: its files and directories by the names that lead to
them.  The directories on the way to an entry need not be entries. -/
abbrev Directory := List (List Name × Entry)

/-- A place that a walk has reached. -/
inductive Place where
  /-- A place in the working directory, by the names that lead to it. -/
  | inside (names : List Name)
  /-- A directory above the working directory. -/
  | outside
  deriving DecidableEq

/-- What stands at a place, if anything does. -/
def Directory.entry? (directory : Directory) : Place -> Option Entry
  | .outside => some .directory
  | .inside names =>
    match directory.find? (fun entry => entry.1 == names) with
    | some entry => some entry.2
    | none =>
      if names.isEmpty || directory.any (fun entry => names.isPrefixOf entry.1) then
        some .directory
      else none

/-- The longest name, and the longest path, in bytes. -/
def nameLimit : Nat := 255
def pathLimit : Nat := 4095

/-- The place that a name leads to from a directory. -/
def Place.enter (place : Place) (name : Name) : Place :=
  if name.isEmpty || name == here then place
  else if name == above then
    match place with
    | .outside => .outside
    | .inside [] => .outside
    | .inside names => .inside names.dropLast
  else
    match place with
    | .outside => .outside
    | .inside names => .inside (names ++ [name])

/-- Whether a name stands for a place that can be known from the place before. -/
def Place.knows (place : Place) (name : Name) : Bool :=
  match place with
  | .inside _ => true
  | .outside => name.isEmpty || name == here || name == above

/-- Walk along names from a place. -/
def Directory.walk (directory : Directory) (place : Place) :
    List Name -> Except OpenFault (List UInt8)
  | [] =>
    match directory.entry? place with
    | none => .error .notFound
    | some .directory => .error .isDirectory
    | some (.file bytes) => .ok bytes
  | name :: later =>
    match directory.entry? place with
    | none => .error .notFound
    | some (.file _) => .error .notDirectory
    | some .directory =>
      if nameLimit < byteLength name then .error .nameTooLong
      else if place.knows name then directory.walk (place.enter name) later
      else .error .notFound

/-- The bytes of the file at a path. -/
def Directory.fileBytes (directory : Directory) (path : List Char) : Except OpenFault (List UInt8) :=
  if path.contains '\x00' then .error .embeddedNull
  else if pathLimit < byteLength path then .error .nameTooLong
  else
    match path with
    | [] => .error .notFound
    | '/' :: rest => directory.walk .outside (components rest)
    | path => directory.walk (.inside []) (components path)

/-- The text of bytes in a code that is asked for by its name. -/
def decodeAs (encoding : List Char) (bytes : List UInt8) : Except ReadFault (List Char) :=
  match Encoding.Codec.ofName? encoding with
  | none => .error (.unknownEncoding encoding)
  | some codec => (Encoding.readText codec bytes).mapError .undecodable

/-- The text of the file at a path, which is put into normal form first. -/
def Directory.readText (directory : Directory) (path encoding : List Char) :
    Except ReadFault (List Char) :=
  let normal := normalize path
  match directory.fileBytes normal with
  | .error fault => .error (.cannotOpen fault normal)
  | .ok bytes => decodeAs encoding bytes

end Files
end LoopTape
