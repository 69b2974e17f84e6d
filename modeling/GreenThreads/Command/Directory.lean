/-!
# Directories

Files are read by a path relative to a working directory, which is given by the names and contents
of its files.
-/

namespace GreenThreads.Command

/-- Why a file cannot be read. -/
inductive ReadFailure where
  | missing
  | isDirectory
  /-- Something on the way is no directory. -/
  | notDirectory
  | other (text : String)
deriving DecidableEq, Repr

/-- The text of a failure. -/
def ReadFailure.message : ReadFailure → String
  | missing => "No such file or directory (os error 2)"
  | isDirectory => "Is a directory (os error 21)"
  | notDirectory => "Not a directory (os error 20)"
  | other text => text

/-- A working directory: its files, by their paths. -/
structure Directory where
  files : List (List String × String)
deriving Repr

namespace Directory

/-- The parts of a path; what stands for the present directory is left out. -/
def parts (path : String) : List String :=
  (path.splitOn "/").filter fun p => p != "" && p != "."

/-- A directory with the files of these names and contents. -/
def ofFiles (files : List (String × String)) : Directory :=
  ⟨files.map fun (name, content) => (parts name, content)⟩

/-- Whether a path names a directory that holds one of the files. -/
def holdsDirectory (d : Directory) (path : List String) : Bool :=
  d.files.any fun (p, _) => path.length < p.length && path.isPrefixOf p

/-- Whether something on the way to a path is a file. -/
def passesFile (d : Directory) (path : List String) : Bool :=
  d.files.any fun (p, _) => p.length < path.length && p.isPrefixOf path

/-- Whether a path can only name a directory. -/
def namesDirectory (path : String) : Bool :=
  path.endsWith "/" || path.endsWith "/." || path == "."

/-- Reads a file. -/
def read (d : Directory) (path : String) : Except ReadFailure String :=
  let ps := parts path
  if ps.all (· == "..") then .error .isDirectory
  else
    match d.files.lookup ps with
    | some content => if namesDirectory path then .error .notDirectory else .ok content
    | none =>
      if d.holdsDirectory ps then .error .isDirectory
      else if d.passesFile ps then .error .notDirectory
      else .error .missing

end Directory

end GreenThreads.Command
