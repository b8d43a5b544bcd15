import BlockTracker.Files.Path

/-!
# Trees of files

Directories, files and devices as a written report meets them.  A place is the list of names that lead to it from
the root; `..` in a path goes up to the place above.  To write a file, the directories above it are made first
(`FileTree.save`).
-/

namespace BlockTracker

/-- A file that keeps nothing that is written to it. -/
inductive Device
  | null
  | full
  | output
  | errors
deriving DecidableEq, Repr

/-- A file with its text, a device, or a directory with what is in it. -/
inductive FileTree
  | file (text : String)
  | device (d : Device)
  /-- A directory with what it holds by name.  A sealed one takes no new names. -/
  | directory (isSealed : Bool) (entries : List (String × FileTree))

namespace FileTree

/-- The largest length of a name, in bytes. -/
def maxNameLength : Nat := 255

/-- What stands at a place. -/
def get? : FileTree → List String → Option FileTree
  | t, [] => some t
  | directory _ entries, name :: names =>
    match entries.lookup name with
    | some t => t.get? names
    | none => none
  | _, _ :: _ => none

/-- Puts something at a place. -/
def put (new : FileTree) : FileTree → List String → FileTree
  | _, [] => new
  | directory isSealed entries, name :: names =>
    let inner := (entries.lookup name).getD (directory false [])
    directory isSealed ((name, put new inner names) :: entries.eraseP (·.1 = name))
  | t, _ :: _ => t

/-- Whether nothing new can be put into the place. -/
def isSealedAt (t : FileTree) (place : List String) : Bool :=
  match t.get? place with
  | some (directory isSealed _) => isSealed
  | _ => true

/-- Goes from a directory to the one with a given name in it. -/
def descend (t : FileTree) (place : List String) (name : String) : Except FileFault (List String) :=
  if name = ".." then .ok place.dropLast
  else if maxNameLength < name.utf8ByteSize then .error .nameTooLong
  else
    let inner := place ++ [name]
    match t.get? inner with
    | some (directory _ _) => .ok inner
    | some _ => .error .notADirectory
    | none => .error .notFound

/-- Goes down along names. -/
def walk (t : FileTree) : List String → List String → Except FileFault (List String)
  | place, [] => .ok place
  | place, name :: names =>
    match t.descend place name with
    | .ok inner => t.walk inner names
    | .error fault => .error fault

/-- Goes down along names and makes the directories that are missing.  A file in the place of the last directory
is told apart from one further up. -/
def makeDirectories (t : FileTree) : List String → List String → Except FileFault FileTree
  | _, [] => .ok t
  | place, name :: names =>
    match t.descend place name with
    | .ok inner => t.makeDirectories inner names
    | .error .notFound =>
      let inner := place ++ [name]
      if t.isSealedAt place then .error .notFound
      else makeDirectories (put (directory false []) t inner) inner names
    | .error .notADirectory => .error (if names.isEmpty then .alreadyExists else .notADirectory)
    | .error fault => .error fault

/-- Writes a text to a place in an existing directory. -/
def write (t : FileTree) (dir : List String) (name text : String) : Except FileFault FileTree :=
  let place := dir ++ [name]
  if maxNameLength < name.utf8ByteSize then .error .nameTooLong
  else
    match t.get? place with
    | some (directory _ _) => .error .isADirectory
    | some (device .full) => if text.isEmpty then .ok t else .error .full
    | some (device _) => .ok t
    | some (file _) => .ok (put (file text) t place)
    | none => if t.isSealedAt dir then .error .notFound else .ok (put (file text) t place)

/-- Where the names of a path start, seen from the directory `here`. -/
def origin (here : List String) (path : FilePath) : List String := if path.absolute then [] else here

/-- Writes a file after making the directories above it. -/
def save (t : FileTree) (here : List String) (path : FilePath) (text : String) : Except FileFault FileTree := do
  path.parent.check
  let t ← t.makeDirectories (origin here path) path.parent.names
  path.check
  let dir ← t.walk (origin here path) path.directories
  match path.names.getLast? with
  | some name => if path.directoryOnly then .error .isADirectory else t.write dir name text
  | none => .error .isADirectory

/-- What a path names, if that is no directory. -/
def find? (t : FileTree) (here : List String) (path : FilePath) : Option FileTree :=
  if path.directoryOnly then none
  else
    match path.check, path.names.getLast?, t.walk (origin here path) path.parent.names with
    | .ok _, some name, .ok dir => t.get? (dir ++ [name])
    | _, _, _ => none

/-- The text of a file; that of a device is empty. -/
def read? (t : FileTree) (here : List String) (path : FilePath) : Option String :=
  match t.find? here path with
  | some (file text) => some text
  | some (device _) => some ""
  | _ => none

/-- The device that a path names. -/
def device? (t : FileTree) (here : List String) (path : FilePath) : Option Device :=
  match t.find? here path with
  | some (device d) => some d
  | _ => none

end FileTree

end BlockTracker
