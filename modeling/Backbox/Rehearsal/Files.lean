/-!
# Files of a rehearsal

Directories and text files, and what is read at a path, for rehearsals of the probe. A path is
followed name by name; on the way every name has to be a directory. Only the directories and files
that a machine usually has are known, and where the reader stands no names are known at all.
-/

namespace Backbox

namespace Rehearsal

/-- A file with its text, or a directory with the entries of it that are known. -/
inductive FileTree where
  | file (text : String)
  | directory (entries : List (String × FileTree))
  deriving Inhabited

/-- Why no text is read at a path. -/
inductive ReadFault where
  | nulInPath
  | notFound
  | notDirectory
  | isDirectory
  | nameTooLong
  deriving DecidableEq

/-- The text of the fault. -/
def ReadFault.message : ReadFault → String
  | nulInPath => "file name contained an unexpected NUL byte"
  | notFound => "No such file or directory (os error 2)"
  | notDirectory => "Not a directory (os error 20)"
  | isDirectory => "Is a directory (os error 21)"
  | nameTooLong => "File name too long (os error 36)"

namespace FileTree

/-- The longest name of an entry, in bytes. -/
def maxNameBytes : Nat := 255

/-- The length from which on a path is too long, in bytes. -/
def pathLimit : Nat := 4096

/-- Follows names from a place in the tree. `above` holds the directories that it is in, the
nearest first; nothing is above the root but the root. -/
def follow : List FileTree → FileTree → List String → Except ReadFault FileTree
  | _, here, [] => .ok here
  | _, file _, _ :: _ => .error .notDirectory
  | above, directory entries, name :: names =>
    if name.isEmpty || name = "." then follow above (directory entries) names
    else if name = ".." then
      match above with
      | [] => follow [] (directory entries) names
      | parent :: above => follow above parent names
    else if maxNameBytes < name.utf8ByteSize then .error .nameTooLong
    else
      match entries.lookup name with
      | some next => follow (directory entries :: above) next names
      | none => .error .notFound

/-- Directories of which no entries are known. -/
def bareDirectories (names : List String) : List (String × FileTree) :=
  names.map fun name => (name, directory [])

/-- The entries of the root that a machine usually has. -/
def usualEntries : List (String × FileTree) :=
  ("dev", directory (("null", file "") :: bareDirectories ["fd", "pts", "shm"])) ::
  ("etc", directory
    [("hostname", file "machine\n"), ("hosts", file "127.0.0.1\tlocalhost\n"),
      ("passwd", file "root:x:0:0:root:/root:/bin/bash\n"), ("group", file "root:x:0:\n")]) ::
  ("usr", directory (bareDirectories ["bin", "include", "lib", "local", "sbin", "share", "src"])) ::
  ("var", directory (bareDirectories
    ["cache", "lib", "local", "log", "opt", "run", "spool", "tmp"])) ::
  ("proc", directory (bareDirectories ["self", "sys"])) ::
  bareDirectories
    ["bin", "boot", "home", "lib", "media", "mnt", "opt", "root", "run", "sbin", "srv", "sys",
      "tmp"]

/-- The text at a path, on a machine with one more file in its root. That file is meant also
by a path that begins with its name alone. -/
def read (name : String) (text : Option String) (path : String) : Except ReadFault String := do
  if path.toList.contains (Char.ofNat 0) then .error .nulInPath
  else if path.isEmpty then .error .notFound
  else if pathLimit ≤ path.utf8ByteSize then .error .nameTooLong
  else
    let root := directory <| match text with
      | some text => (name, file text) :: usualEntries
      | none => usualEntries
    let fromRoot := path.startsWith "/" || path.startsWith name
    let start := if fromRoot then root else directory []
    let above := if fromRoot then [] else [directory [], root]
    match ← follow above start (path.splitOn "/") with
    | file text => .ok text
    | directory _ => .error .isDirectory

end FileTree

end Rehearsal

/-- The files of a machine that usually has no others, and one more that may have a text. -/
def Probe.fileOr (name : String) (text : Option String) (path : String) : Except String String :=
  (Rehearsal.FileTree.read name text path).mapError Rehearsal.ReadFault.message

end Backbox
