import ChipEight.SystemError

/-! Files by their paths, as a system looks them up: one name at a time from where the
last one led. A name is only ever looked up in a directory, so what is wrong with a path
is what goes wrong first on the way. -/
namespace ChipEight.Host

inductive FileNode where
  | file (content : List UInt8)
  | directory (entries : List (String × FileNode))

namespace FileNode

def entry? (entries : List (String × FileNode)) (name : String) : Option FileNode :=
  (entries.find? fun entry => entry.1 == name).map Prod.snd

/-- Follow names from a node; the directories above it lead back. -/
def follow (above : List FileNode) (node : FileNode) : List String → Except SystemError FileNode
  | [] => .ok node
  | name :: rest =>
    match node with
    | file _ => .error .notDirectory
    | directory entries =>
      if name = "" ∨ name = "." then follow above node rest
      else if name = ".." then
        match above with
        | [] => follow [] node rest
        | parent :: higher => follow higher parent rest
      else if 255 < name.utf8ByteSize then .error .nameTooLong
      else
        match entry? entries name with
        | some next => follow (node :: above) next rest
        | none => .error .notFound

end FileNode

structure FileTree where
  root : FileNode
  /-- The directory one is in. It is taken to lie right below the root. -/
  current : FileNode

namespace FileTree

def read (tree : FileTree) (path : String) : Except SystemError (List UInt8) :=
  if path.contains '\x00' then .error .unexpectedNul
  else if path.isEmpty then .error .notFound
  else if 4095 < path.utf8ByteSize then .error .nameTooLong
  else
    let names := path.splitOn "/"
    let found :=
      if path.startsWith "/" then FileNode.follow [] tree.root names
      else FileNode.follow [tree.root] tree.current names
    match found with
    | .ok (.file content) => .ok content
    | .ok (.directory _) => .error .isDirectory
    | .error cause => .error cause

end FileTree
end ChipEight.Host
