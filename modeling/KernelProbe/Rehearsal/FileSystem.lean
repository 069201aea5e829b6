import KernelProbe.Interaction.Dict
import KernelProbe.Rehearsal.SystemLayout
import KernelProbe.Text.Search
import KernelProbe.Text.Utf8

/-!
# A file system for rehearsals

Files and folders by the names that lead to them from the root, beside what every system has,
and the folder in which a program runs. A path is followed name by name, each through a folder;
only its last name may stand for nothing. `FileError` says why a path cannot be used, in the
words of the system.
-/

namespace KernelProbe.Rehearsal

open Text

/-- Causes for which a file cannot be used. -/
inductive FileError
  | notFound
  | permissionDenied
  | notADirectory
  | isADirectory
  | noSpace
  | nameTooLong
  /-- A text for the system has the character zero, which ends texts there. -/
  | zeroCharacter
  deriving DecidableEq, Repr

/-- The wording of a cause. -/
def FileError.message : FileError → String
  | notFound => "No such file or directory (os error 2)"
  | permissionDenied => "Permission denied (os error 13)"
  | notADirectory => "Not a directory (os error 20)"
  | isADirectory => "Is a directory (os error 21)"
  | noSpace => "No space left on device (os error 28)"
  | nameTooLong => "File name too long (os error 36)"
  | zeroCharacter => "nul byte found in provided data"

/-- The most bytes of a name in a folder. -/
def maxNameSize : Nat := 255

/-- The most bytes of a path. -/
def maxPathSize : Nat := 4095

/-- Where a path leads: to something, or to nothing in a folder that is there. -/
structure Place where
  parts : Parts
  node? : Option Node
  deriving DecidableEq, Repr

/-- The folder at a place. -/
def Place.folder (p : Place) : Except FileError Parts :=
  match p.node? with
  | some .folder => .ok p.parts
  | some _ => .error .notADirectory
  | none => .error .notFound

/-- Whether what is at a place can be run as a program. -/
def Place.checkProgram (p : Place) : Except FileError Unit :=
  match p.node? with
  | some (.file _ true) => .ok ()
  | some _ => .error .permissionDenied
  | none => .error .notFound

/-- The files of a system and the streams of a program that runs there. -/
structure FileSystem where
  /-- What there is beside what every system has. -/
  nodes : Dict Parts Node
  /-- The folder in which the program runs. -/
  here : Parts
  /-- What can still be read from the standard input. -/
  input : List UInt8
  /-- What the program printed, piece by piece. -/
  output : List String
  /-- What it wrote to the standard error. -/
  errors : List String

namespace FileSystem

/-- A system with an empty folder in which a program runs. -/
def new (here : Parts) (input : List UInt8) : FileSystem :=
  ⟨Dict.empty.insert here .folder, here, input, [], []⟩

/-- The system with something put at a place. -/
def put (s : FileSystem) (parts : Parts) (node : Node) : FileSystem :=
  { s with nodes := s.nodes.insert parts node }

/-- The system with a file below the folder of the program. -/
def addFile (s : FileSystem) (parts : Parts) (bytes : List UInt8) : FileSystem :=
  s.put (s.here ++ parts) (.file bytes false)

/-- Whether something was put below a place, so that a folder is there. -/
def isAbove (s : FileSystem) (parts : Parts) : Bool :=
  s.nodes.entries.any fun e => parts.length < e.1.length && parts.isPrefixOf e.1

/-- What is at a place. -/
def node? (s : FileSystem) (parts : Parts) : Option Node :=
  match s.nodes.find? parts with
  | some node => some node
  | none => if s.isAbove parts then some .folder else usualNode? parts

/-- Where a name leads from a folder. -/
def step (s : FileSystem) (folder : Parts) (name : String) : Except FileError Place :=
  if name = "." then .ok ⟨folder, some .folder⟩
  else if name = ".." then .ok ⟨folder.dropLast, some .folder⟩
  else if maxNameSize < name.utf8ByteSize then .error .nameTooLong
  else
    let parts := linkTarget (folder ++ [name])
    .ok ⟨parts, s.node? parts⟩

/-- Where names lead from a folder, all of them through folders. -/
def descend (s : FileSystem) (folder : Parts) : List String → Except FileError Parts
  | [] => .ok folder
  | name :: rest => do s.descend (← (← s.step folder name).folder) rest

/-- Where a path leads from a folder. A path that ends in a slash leads to a folder, and so it
    cannot be used to create a file. -/
def locate (s : FileSystem) (start : Parts) (creates : Bool) (path : String) :
    Except FileError Place := do
  if path = "" then throw .notFound
  if maxPathSize < path.utf8ByteSize then throw .nameTooLong
  let start := if path.toList.head? = some '/' then [] else start
  let names := ((splitOn '/' path.toList).filter (!·.isEmpty)).map String.ofList
  match names.getLast? with
  | none => pure ⟨[], some .folder⟩
  | some name =>
    let folder ← s.descend start names.dropLast
    let endsInSlash := path.toList.getLast? = some '/'
    if endsInSlash ∧ creates ∧ name ≠ "." ∧ name ≠ ".." then throw .isADirectory
    let place ← s.step folder name
    if endsInSlash then
      let parts ← place.folder
      pure ⟨parts, some .folder⟩
    else pure place

/-- Reads a file to its end. -/
def read (s : FileSystem) (path : String) : Except FileError (List UInt8 × FileSystem) := do
  match (← s.locate s.here false path).node? with
  | none => throw .notFound
  | some .folder => throw .isADirectory
  | some (.file bytes _) => pure (bytes, s)
  | some .input => pure (s.input, { s with input := [] })
  | some _ => pure ([], s)

/-- Opens a file for writing, without what was in it; gives its place. -/
def create (s : FileSystem) (path : String) : Except FileError (Parts × FileSystem) := do
  let place ← s.locate s.here true path
  match place.node? with
  | none => pure (place.parts, s.put place.parts (.file [] false))
  | some .folder => throw .isADirectory
  | some (.file _ runs) => pure (place.parts, s.put place.parts (.file [] runs))
  | some _ => pure (place.parts, s)

/-- Writes a text behind what is in an open file. -/
def append (s : FileSystem) (parts : Parts) (text : String) : Except FileError FileSystem :=
  match s.node? parts with
  | some (.file bytes runs) =>
    .ok (s.put parts (.file (bytes ++ Utf8.encode text.toList) runs))
  | some .fullDevice => if text = "" then .ok s else .error .noSpace
  | some .output => .ok { s with output := s.output ++ [text] }
  | some .errors => .ok { s with errors := s.errors ++ [text] }
  | _ => .ok s

/-- Writes a whole file. -/
def write (s : FileSystem) (path text : String) : Except FileError FileSystem := do
  let (parts, s) ← s.create path
  s.append parts text

/-- Whether a program can be found from a folder: by its path, or else in the search folders.
    There, one that cannot be run counts only if no other is found. -/
def checkProgram (s : FileSystem) (folder : Parts) (program : String) :
    Except FileError Unit := do
  if program.toList.contains '/' then (← s.locate folder false program).checkProgram
  else if program = "" then throw .notFound
  else
    let causes := searchFolders.filterMap fun f =>
      match s.step f program >>= Place.checkProgram with
      | .ok () => none
      | .error cause => some cause
    if causes.length = searchFolders.length then
      throw ((causes.find? (· ≠ .notFound)).getD .notFound)

/-- Whether a command line can be started in the folder at a path. -/
def checkSpawn (s : FileSystem) (folder : String) (commandLine : List String) :
    Except FileError Unit := do
  if (folder :: commandLine).any fun text => text.toList.contains '\x00' then
    throw .zeroCharacter
  let parts ← (← s.locate s.here false folder).folder
  s.checkProgram parts (commandLine.headD "")

/-- The files in the folder of the program that an earlier state of the system does not have. -/
def newFiles (s before : FileSystem) : List (String × List UInt8) :=
  s.nodes.entries.filterMap fun (parts, node) =>
    match node with
    | .file bytes _ =>
      if parts.dropLast = s.here ∧ (before.nodes.find? parts).isNone then
        parts.getLast?.map (·, bytes)
      else none
    | _ => none

end FileSystem

end KernelProbe.Rehearsal
