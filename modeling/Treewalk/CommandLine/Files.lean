namespace Treewalk

/-- Why there is no text at a path, or none can be put there. -/
inductive FileTrouble where
  | missing
  | notDirectory
  | isDirectory
  | nameTooLong
deriving DecidableEq

def FileTrouble.message : FileTrouble → String
  | missing => "No such file or directory (os error 2)"
  | notDirectory => "Not a directory (os error 20)"
  | isDirectory => "Is a directory (os error 21)"
  | nameTooLong => "File name too long (os error 36)"

/-- The names on the way from a directory to one below it, the last one first. -/
abbrev Way := List String

/-- Files and directories by the ways to them. The directories on the way to a file need not be
listed. A root is the directory above itself. -/
structure FileTree where
  isRoot : Bool
  directories : List Way
  files : List (Way × String)

/-- What a path has led to. Of the directories outside a tree nothing is known. -/
inductive Spot where
  | directory (way : Way)
  | outside
  | file (text : String)
deriving DecidableEq

/-- The parts of a path between its slashes. -/
def segmentsOf : List Char → List Char × List (List Char)
  | [] => ([], [])
  | c :: cs =>
    let (first, others) := segmentsOf cs
    if c == '/' then ([], first :: others) else (c :: first, others)

def segments (path : String) : List String :=
  let (first, others) := segmentsOf path.toList
  (first :: others).map String.ofList

def nameLimit : Nat := 255

def pathLimit : Nat := 4095

namespace FileTree

def isDirectory (t : FileTree) (way : Way) : Bool :=
  t.directories.contains way || t.files.any (fun f => way.isSuffixOf f.1 && way != f.1)

def child (t : FileTree) (way : Way) (name : String) : Except FileTrouble Spot :=
  if nameLimit < name.utf8ByteSize then .error .nameTooLong
  else match t.files.lookup (name :: way) with
    | some text => .ok (.file text)
    | none =>
      if t.isDirectory (name :: way) then .ok (.directory (name :: way)) else .error .missing

def parent (t : FileTree) : Way → Spot
  | [] => if t.isRoot then .directory [] else .outside
  | _ :: way => .directory way

/-- Follows one segment of a path. An empty one, as after a slash at the end, asks for a
directory. -/
def step (t : FileTree) (s : Spot) (segment : String) : Except FileTrouble Spot :=
  match s with
  | .file _ => .error .notDirectory
  | .outside =>
    if segment = "" ∨ segment = "." ∨ segment = ".." then .ok .outside else .error .missing
  | .directory way =>
    if segment = "" ∨ segment = "." then .ok s
    else if segment = ".." then .ok (t.parent way)
    else t.child way segment

def walk (t : FileTree) (path : List String) : Except FileTrouble Spot :=
  path.foldlM t.step (.directory [])

/-- The files of a directory, by their names. -/
def ofNames (files : List (String × String)) : FileTree :=
  ⟨false, [], files.map (fun f =>
    (((segments f.1).filter (fun name => name != "" && name != ".")).reverse, f.2))⟩

/-- What every machine has, with the input as a file. -/
def system (input : String) : FileTree :=
  ⟨true,
    ["bin", "dev", "etc", "home", "lib", "opt", "proc", "root", "sys", "tmp", "usr", "var"].map
      (fun name => [name]),
    [(["null", "dev"], ""), (["stdin", "dev"], input)]⟩

end FileTree

/-- The tree that relative paths start from, and the one that the others start from. -/
structure Disk where
  here : FileTree
  system : FileTree

namespace Disk

def treeOf (d : Disk) (path : String) : FileTree :=
  if path.toList.head? = some '/' then d.system else d.here

def find (d : Disk) (path : String) : Except FileTrouble Spot :=
  if pathLimit < path.utf8ByteSize then .error .nameTooLong
  else (d.treeOf path).walk (segments path)

def read (d : Disk) (path : String) : Except FileTrouble String := do
  match ← d.find path with
  | .file text => return text
  | _ => throw .isDirectory

/-- Whether a file can be made where there is none, or emptied. Its directory has to exist, and it
cannot be a directory itself, as a path with a slash at its end says. -/
def create (d : Disk) (path : String) : Except FileTrouble Unit :=
  match d.find path with
  | .ok (.file _) => .ok ()
  | .ok _ => .error .isDirectory
  | .error trouble =>
    if pathLimit < path.utf8ByteSize then .error .nameTooLong
    else
      let way := (segments path).reverse.dropWhile String.isEmpty
      match (d.treeOf path).walk (way.drop 1).reverse with
      | .error other => .error other
      | .ok (.file _) => .error .notDirectory
      | .ok _ =>
        if path.toList.getLast? = some '/' then .error .isDirectory
        else if trouble = .nameTooLong then .error .nameTooLong
        else .ok ()

end Disk

end Treewalk
