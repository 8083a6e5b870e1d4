import TransferLifecycle.Source

set_option autoImplicit false

/- A tree of directories and files, and the walk along a path through it. The walk fails at the
first step that cannot be taken, so a missing directory is reported before a name too long behind
it. -/
namespace TransferLifecycle

inductive FileTree where
  | file (content : List UInt8)
  | directory (entries : List (String × FileTree))

namespace FileTree

/-- The most bytes a single name may have. -/
def nameLimit : Nat := 255

/-- A path has to have fewer bytes than this. -/
def pathLimit : Nat := 4096

/-- An empty directory for each name. -/
def emptyDirectories (names : List String) : List (String × FileTree) :=
  names.map (·, directory [])

/-- Reading a directory fails, though it opens. -/
def source : FileTree → Source
  | file content => .bytes content
  | directory _ => .unreadable

/-- A node of a tree and the directories above it, the nearest one first. -/
structure Place where
  node : FileTree
  above : List FileTree

namespace Place

/-- The directory above the root is the root. -/
def parent (p : Place) : Place :=
  match p.above with
  | [] => p
  | node :: above => ⟨node, above⟩

def root (p : Place) : Place := ⟨p.above.getLastD p.node, []⟩

/-- Steps are taken from directories only. An empty name, which a repeated or a last slash leaves in
the path, stays where it is but needs a directory too. -/
def step (p : Place) (name : String) : Except OpenFailure Place :=
  match p.node with
  | .file _ => .error .notDirectory
  | .directory entries =>
    if name = "" ∨ name = "." then .ok p
    else if name = ".." then .ok p.parent
    else if nameLimit < name.utf8ByteSize then .error .nameTooLong
    else
      match entries.lookup name with
      | none => .error .notFound
      | some node => .ok ⟨node, p.node :: p.above⟩

def walk (p : Place) (names : List String) : Except OpenFailure Place := names.foldlM step p

/-- Where a path leads; it starts at the root if it begins with a slash. -/
def follow (p : Place) (path : String) : Except OpenFailure Place :=
  if path.contains '\x00' then .error .nulByte
  else if path = "" then .error .notFound
  else if pathLimit ≤ path.utf8ByteSize then .error .nameTooLong
  else (if path.startsWith "/" then p.root else p).walk (path.splitOn "/")

def sourceAt (p : Place) (path : String) : Source :=
  match p.follow path with
  | .error reason => .closed reason
  | .ok place => place.node.source

end Place

end FileTree

end TransferLifecycle
