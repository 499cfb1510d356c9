import HeaderSearch.FileSystem
import HeaderSearch.Table
import HeaderSearch.Text.Split

/-!
# File trees

A file tree is a file system held as a value: directories, files with their texts, and symbolic
links. A path is walked part by part from the root or from the working directory, and a link is
replaced by its target as soon as it is met, at most `linkBudget` times in one walk. `facts` gives
the answers of the tree to all questions of a file system.
-/

namespace HeaderSearch

/-- A place in a file tree: the names on the way to it from the root. -/
abbrev FileTree.Place := List String

/-- What is at a place of a file tree. -/
inductive Node where
  /-- A directory. -/
  | directory
  /-- A file with its text. -/
  | regular (text : String)
  /-- A symbolic link with its target. -/
  | link (target : String)
deriving DecidableEq, Repr

/-- A tree of directories, files and links. -/
structure FileTree where
  /-- What is at each place below the root. -/
  nodes : Table FileTree.Place Node := .empty
  /-- The directory that relative paths start from. -/
  working : FileTree.Place := []

namespace FileTree

/-- How many links may be followed in one walk. -/
def linkBudget : Nat := 40

/-- How many bytes the name of a node may have. -/
def nameLimit : Nat := 255

/-- How many bytes a path may have. -/
def pathLimit : Nat := 4095

/-- A step of a walk. -/
inductive Step where
  /-- Stay where the walk is, which has to be a directory. -/
  | stay
  /-- Go to the directory above. -/
  | up
  /-- Go to what is under a name. -/
  | down (name : String)
deriving DecidableEq, Repr

/-- The step that a part of a path stands for. -/
def stepOf (part : List Char) : Step :=
  if part = [] ∨ part = ['.'] then .stay
  else if part = ['.', '.'] then .up
  else .down (String.ofList part)

/-- The steps of a path. The empty part before a leading `/` stays at the root, and the one after a
    last `/` asks for a directory. -/
def steps (path : String) : List Step :=
  (Text.splitOn '/' path.toList).map stepOf

/-- Whether a path starts at the root. -/
def isAbsolute (path : String) : Bool := path.toList.head? = some '/'

/-- What is at a place, the root being a directory. -/
def node? (tree : FileTree) (place : Place) : Option Node :=
  if place = [] then some .directory else tree.nodes.get? place

/-- Walks on from a place, with as many links as are left to follow, and gives the place at the end. -/
def walk (tree : FileTree) (links : Nat) (place : Place) (ahead : List Step) :
    Except ReadError Place :=
  match ahead with
  | [] => .ok place
  | step :: rest =>
    if tree.node? place ≠ some .directory then .error .notADirectory
    else
      match step with
      | .stay => walk tree links place rest
      | .up => walk tree links place.dropLast rest
      | .down name =>
        if nameLimit < name.utf8ByteSize then .error .nameTooLong
        else
          match tree.node? (place ++ [name]) with
          | none => .error .notFound
          | some (.link target) =>
            match links with
            | 0 => .error .linkLoop
            | left + 1 =>
              walk tree left (if isAbsolute target then [] else place) (steps target ++ rest)
          | some _ => walk tree links (place ++ [name]) rest
termination_by (links, ahead.length)

/-- Where the walk of a path starts. -/
def start (tree : FileTree) (path : String) : Place :=
  if isAbsolute path then [] else tree.working

/-- The place that a path names, links followed. -/
def locate (tree : FileTree) (path : String) : Except ReadError Place :=
  if path.toList.contains '\x00' then .error .nullInPath
  else if path = "" then .error .notFound
  else if pathLimit < path.utf8ByteSize then .error .nameTooLong
  else tree.walk linkBudget (tree.start path) (steps path)

/-- The absolute path of a place. -/
def pathOf (place : Place) : Path :=
  if place = [] then ⟨"/"⟩ else ⟨String.join (place.map ("/" ++ ·))⟩

/-- The kind of a node that is no link. -/
def kindOf? : Node → Option FileKind
  | .directory => some .directory
  | .regular _ => some .regular
  | .link _ => none

/-- The answers of the tree. -/
def facts (tree : FileTree) : FileFacts where
  kind? path := (tree.locate path.text).toOption.bind tree.node? |>.bind kindOf?
  canonical? path := (tree.locate path.text).toOption.map pathOf
  read path :=
    match tree.locate path.text with
    | .error cause => .error cause
    | .ok place =>
      match tree.node? place with
      | some (.regular text) => .ok text
      | some _ => .error .isADirectory
      | none => .error .notFound

/-- Walks on from a place and makes the directories that are missing, also those that a later `..`
    leaves again. Gives the tree with them and the place at the end, or `none` if something other than
    a directory is in the way. -/
def pave? (tree : FileTree) (place : Place) : List Step → Option (FileTree × Place)
  | [] => some (tree, place)
  | .stay :: rest => pave? tree place rest
  | .up :: rest => pave? tree place.dropLast rest
  | .down name :: rest =>
    let next := place ++ [name]
    match tree.node? next with
    | none => pave? { tree with nodes := tree.nodes.insert next .directory } next rest
    | some .directory => pave? tree next rest
    | some _ => none

/-- The name that the last part of a path gives, if it gives one, and the steps before it. -/
def splitLast? (path : String) : Option (List Step × String) :=
  match (steps path).getLast? with
  | some (.down name) => some ((steps path).dropLast, name)
  | _ => none

/-- The tree with a directory, and those on the way to it, unless something is in the way. -/
def addDirectory (tree : FileTree) (path : String) : FileTree :=
  ((tree.pave? (tree.start path) (steps path)).map Prod.fst).getD tree

/-- The tree with a file, and the directories on the way to it, unless something is in the way. An
    earlier file of the same path is replaced. -/
def addFile (tree : FileTree) (path : String) (text : String) : FileTree :=
  match splitLast? path with
  | none => tree
  | some (before, name) =>
    match tree.pave? (tree.start path) before with
    | none => tree
    | some (paved, place) =>
      match paved.node? (place ++ [name]) with
      | none | some (.regular _) =>
        { paved with nodes := paved.nodes.insert (place ++ [name]) (.regular text) }
      | some _ => paved

/-- The tree with a link to a target that is not empty, in an existing directory in which nothing has
    the name of the link. -/
def addLink (tree : FileTree) (path : String) (target : String) : FileTree :=
  match splitLast? path with
  | none => tree
  | some (before, name) =>
    match tree.walk linkBudget (tree.start path) (before ++ [.stay]) with
    | .error _ => tree
    | .ok place =>
      if target = "" ∨ (tree.node? (place ++ [name])).isSome then tree
      else { tree with nodes := tree.nodes.insert (place ++ [name]) (.link target) }

/-- The tree of one directory and those on the way to it, which relative paths start from. -/
def rootedAt (path : String) : FileTree :=
  match ({} : FileTree).pave? [] (steps path) with
  | none => {}
  | some (tree, place) => { tree with working := place }

end FileTree

end HeaderSearch
