/-
RcloneSync/PosixPath.lean

Lexical POSIX paths as `pathlib.PurePosixPath` and `posixpath` handle them: a path
is a root (`""`, `"/"` or `"//"`) and a list of parts without empty and `.` parts.
Nothing here touches a file system; resolving symbolic links is a parameter of the
code that needs it.
-/
import RcloneSync.PyText

namespace Py

/-- A parsed path. -/
structure PosixPath where
  root : String
  parts : List String
  deriving DecidableEq, Repr

/-- The root of a path text: two slashes are kept, three or more collapse to one. -/
def pathRoot : List Char → String
  | '/' :: '/' :: '/' :: _ => "/"
  | '/' :: '/' :: _ => "//"
  | '/' :: _ => "/"
  | _ => ""

/-- `PurePosixPath(text)`. -/
def parsePath (s : String) : PosixPath where
  root := pathRoot s.toList
  parts := (splitOn '/' s).filter fun part => part ≠ "" && part ≠ "."

/-- `path / name` for a relative path of one part. -/
def PosixPath.child (p : PosixPath) (name : String) : PosixPath :=
  { p with parts := p.parts ++ [name] }

/-- `str(path)`. -/
def PosixPath.text (p : PosixPath) : String :=
  if p.root = "" ∧ p.parts = [] then "." else p.root ++ join "/" p.parts

/-- `path.parts`: the root counts as a part. -/
def PosixPath.allParts (p : PosixPath) : List String :=
  if p.root = "" then p.parts else p.root :: p.parts

/-- `path.is_absolute()`. -/
def isAbsolutePath (s : String) : Bool := startsWith s "/"

/-- Parts of `posixpath.normpath`, from a stack of the parts kept so far (innermost first). -/
def normParts (absolute : Bool) : List String → List String → List String
  | [], kept => kept.reverse
  | part :: rest, kept =>
    if part = "" ∨ part = "." then normParts absolute rest kept
    else if part = ".." then
      match kept with
      | [] => if absolute then normParts absolute rest [] else normParts absolute rest [".."]
      | top :: below =>
        if top = ".." then normParts absolute rest (".." :: kept)
        else normParts absolute rest below
    else normParts absolute rest (part :: kept)

/-- `posixpath.normpath(text)`. -/
def normPath (s : String) : String :=
  let root := pathRoot s.toList
  let body := root ++ join "/" (normParts (root ≠ "") (splitOn '/' s) [])
  if body = "" then "." else body

example : normPath "/a/./b//../c" = "/a/c" := by decide

example : (parsePath "/opt//data/./x/").text = "/opt/data/x" := by decide

end Py
