import Haml.Files
/-! Trees of files in memory. -/

namespace Haml

inductive FileNode where
  | file (bytes : ByteArray)
  | directory

abbrev Place := List String

/-- The top of a tree is a directory. Paths may lead out of the tree, where nothing is. -/
structure FileTree where
  nodes : List (Place × FileNode)

namespace FileTree

def empty : FileTree := ⟨[]⟩

def node? (t : FileTree) : Place → Option FileNode
  | [] => some .directory
  | place => t.nodes.lookup place

def put (t : FileTree) (place : Place) (node : FileNode) : FileTree :=
  ⟨(place, node) :: t.nodes.filter fun (other, _) => other ≠ place⟩

def add (t : FileTree) (node : FileNode) : Place → FileTree
  | [] => t
  | name :: place =>
      let t := if (t.node? place).isSome then t else t.add .directory place
      t.put (name :: place) node

def addPath (t : FileTree) (path : String) (node : FileNode) : FileTree :=
  t.add node ((Path.pieces path).filter fun piece => piece ≠ "" && piece ≠ ".").reverse

def maxName : Nat := 255

def maxPath : Nat := 4095

/-- Follows the pieces of a path from a place in the tree, or from outside. Only the last place may
be one that holds nothing. -/
def follow (t : FileTree) : Option Place → List String → Except FileFault (Option Place)
  | place, [] => .ok place
  | none, piece :: rest =>
      if piece = "" || piece = "." || piece = ".." then t.follow none rest else .error .missing
  | some place, piece :: rest =>
      match t.node? place with
      | none => .error .missing
      | some (.file _) => .error .notDirectory
      | some .directory =>
          if piece = "" || piece = "." then t.follow (some place) rest
          else if piece = ".." then t.follow (place.tail?) rest
          else if maxName < piece.utf8ByteSize then .error .nameTooLong
          else t.follow (some (piece :: place)) rest

def locate (t : FileTree) (path : String) : Except FileFault (Option Place) :=
  if path.toList.contains '\x00' then
    .error (.other "file name contained an unexpected NUL byte")
  else if path.isEmpty then .error .missing
  else if maxPath < path.utf8ByteSize then .error .nameTooLong
  else t.follow (if Path.isAbsolute path then none else some []) (Path.pieces path)

def find (t : FileTree) (path : String) : Except FileFault FileNode := do
  match ← t.locate path with
  | none => return .directory
  | some place =>
      match t.node? place with
      | some node => return node
      | none => throw .missing

def read (t : FileTree) (path : String) : Except FileFault String := do
  match ← t.find path with
  | .directory => throw .isDirectory
  | .file bytes =>
      match String.fromUTF8? bytes with
      | some text => return text
      | none => throw .notText

def isFile (t : FileTree) (path : String) : Bool :=
  match t.find path with
  | .ok (.file _) => true
  | _ => false

def write (t : FileTree) (path text : String) : Except FileFault FileTree := do
  match ← t.locate path with
  | none => throw .isDirectory
  | some place =>
      match t.node? place with
      | some .directory => throw .isDirectory
      | _ => return t.put place (.file text.toUTF8)

def files : Files (StateM FileTree) where
  read path := return (← get).read path
  isFile path := return (← get).isFile path
  write path text := do
    match (← get).write path text with
    | .ok t =>
        set t
        return .ok ()
    | .error fault => return .error fault

theorem node?_put (t : FileTree) (name : String) (place : Place) (node : FileNode) :
    (t.put (name :: place) node).node? (name :: place) = some node := by
  simp [put, node?]

end FileTree

end Haml
