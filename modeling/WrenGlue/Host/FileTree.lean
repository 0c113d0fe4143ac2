import WrenGlue.Host.Basic

/-! Files in memory. Paths lead through directories from the root, or from a working directory if
they begin without a slash. -/

namespace WrenGlue

inductive Entry where
  | file (content : ByteArray)
  | directory
deriving Inhabited

def Entry.isDirectory : Entry → Bool
  | file _ => false
  | directory => true

/-- A place in a tree: the names on the way there from the root. -/
abbrev Location := List String

structure FileTree where
  /-- What the tree holds besides the root, which is a directory. Of two entries for one place the
  first counts. -/
  entries : List (Location × Entry) := []
  workingDirectory : Location := []
deriving Inhabited

/-- The names in a path. More than one slash separates no more than one does. -/
def pathNames (path : String) : List String :=
  ((path.toList.splitOn '/').filter (! ·.isEmpty)).map String.ofList

namespace FileTree

def entry? (t : FileTree) (place : Location) : Option Entry :=
  if place = [] then some .directory else t.entries.lookup place

/-- Where a path begins. -/
def base (t : FileTree) (path : String) : Location :=
  if path.toList.head? = some '/' then [] else t.workingDirectory

/-- The place one step from a directory. -/
def step (place : Location) (name : String) : Location :=
  if name = "." then place else if name = ".." then place.dropLast else place ++ [name]

/-- The place that `names` lead to from `place`. Every name but the last has to lead to a
directory. -/
def follow (t : FileTree) (place : Location) : List String → Except FileError Location
  | [] => .ok place
  | name :: rest =>
    match t.entry? place with
    | none => .error .notFound
    | some (.file _) => .error .notDirectory
    | some .directory => t.follow (step place name) rest

/-- A final slash asks for a directory. -/
def endsInSlash (path : String) : Bool := path.toList.getLast? = some '/'

/-- The content of the file at a path. -/
def readBytes (t : FileTree) (path : String) : Except FileError ByteArray := do
  if path = "" then
    throw .notFound
  let names := pathNames path ++ if endsInSlash path then ["."] else []
  match t.entry? (← t.follow (t.base path) names) with
  | none => throw .notFound
  | some .directory => throw .isDirectory
  | some (.file content) => return content

/-- The text of the file at a path. -/
def read (t : FileTree) (path : String) : Except FileError String := do
  match String.fromUTF8? (← t.readBytes path) with
  | some text => return text
  | none => throw .notText

/-- The tree with `entry` at `place`. -/
def put (t : FileTree) (place : Location) (entry : Entry) : FileTree :=
  { t with entries := (place, entry) :: t.entries.filter (·.1 ≠ place) }

/-- The place of the file that a path names, there or not. Its directory has to be there. -/
def target (t : FileTree) (path : String) : Except FileError Location := do
  match (pathNames path).getLast? with
  | none => throw (if path = "" then .notFound else .isDirectory)
  | some name =>
    let directory ← t.follow (t.base path) (pathNames path).dropLast
    match t.entry? directory with
    | none => throw .notFound
    | some (.file _) => throw .notDirectory
    | some .directory =>
      if endsInSlash path ∨ name = "." ∨ name = ".." then
        throw .isDirectory
      if (t.entry? (directory ++ [name])).any (·.isDirectory) then
        throw .isDirectory
      return directory ++ [name]

/-- The tree after `text` became the content of the file at a path. -/
def write (t : FileTree) (path text : String) : Except FileError FileTree := do
  return t.put (← t.target path) (.file text.toUTF8)

/-- The tree with `entry` at a path and directories on the way there. -/
def plant (t : FileTree) (path : String) (entry : Entry) : FileTree :=
  let place := (pathNames path).foldl step (t.base path)
  let onTheWay := (List.range place.length).map place.take
  (onTheWay.foldl (fun t p => if (t.entry? p).isSome then t else t.put p .directory) t).put place
    entry

/-- A tree with nothing but its working directory. -/
def empty : FileTree :=
  ({ workingDirectory := ["work"] } : FileTree).put ["work"] .directory

end FileTree

/-- Files, and what was printed. -/
structure Workspace where
  files : FileTree := .empty
  printed : String := ""
deriving Inhabited

/-- The host that works in memory. -/
def Workspace.host : Host (StateM Workspace) where
  read path := return (← get).files.read path
  write path text := do
    match (← get).files.write path text with
    | .ok files => modify ({ · with files }); return .ok ()
    | .error e => return .error e
  print text := do
    modify fun w => { w with printed := w.printed ++ text }
    return .ok ()

end WrenGlue
