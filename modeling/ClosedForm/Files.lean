import ClosedForm.Json.Expression
import ClosedForm.Yaml.Meaning

/-!
# Expression files

An expression is loaded from a file by its name: `.yaml` and `.yml` files are YAML, all others
JSON.  Where files come from is a parameter, a function from a path to a text or a fault.  Two such
sources are defined here: files held in memory under clean paths, and the files of a working
directory.
-/

namespace ClosedForm

/-- Where files are read from. -/
abbrev FileSource := String → Except Fault String

/-! ## Paths -/

namespace Path

/-- The parts of a path between its slashes. -/
def parts (path : String) : List String := (path.splitOn "/").filter (· != "")

/-- Whether a path begins at the root. -/
def isRooted (path : String) : Bool := path.toList.head? == some '/'

/-- Adds a part to those before it, latest first: a dot adds nothing, and two dots take back the
part before them, if there is one to take back. -/
def addPart (rooted : Bool) (before : List String) (part : String) : List String :=
  if part == "." then before
  else if part == ".." then
    match before with
    | [] => if rooted then [] else [".."]
    | last :: rest => if last == ".." then ".." :: before else rest
  else part :: before

/-- The parts of the shortest path that leads to the same place, latest first. -/
def cleanParts (path : String) : List String :=
  (parts path).foldl (addPart (isRooted path)) []

/-- The shortest path that leads to the same place. -/
def clean (path : String) : String :=
  let body := "/".intercalate (cleanParts path).reverse
  if isRooted path then "/" ++ body else if body == "" then "." else body

/-- What a path's last part has from its last point on, in lower case. -/
def extension (path : String) : String :=
  let last := (path.toList.reverse.takeWhile (· != '/'))
  if last.contains '.' then
    String.ofList (('.' :: (last.takeWhile (· != '.')).reverse).map Char.toLower)
  else ""

end Path

/-! ## Sources -/

/-- Files in memory. -/
structure MemoryFiles where
  /-- The files by their clean paths. -/
  files : List (String × String)

namespace MemoryFiles

/-- The path under which a file is kept.  The current directory and the one above it are the
root. -/
def key (path : String) : String :=
  let p := Path.clean path
  if p == "." || p == ".." then "/" else p

/-- Memory that holds one file. -/
def single (path content : String) : MemoryFiles := ⟨[(key path, content)]⟩

/-- Whether a path is that of a directory: the root, or what a file is under. -/
def isDirectory (m : MemoryFiles) (path : String) : Bool :=
  path == "/" || m.files.any fun (p, _) => (path ++ "/").isPrefixOf p

/-- Reads a file.  A directory has no content. -/
def source (m : MemoryFiles) : FileSource := fun path =>
  let p := key path
  match m.files.lookup p with
  | some content => .ok content
  | none => if m.isDirectory p then .ok "" else .error (.file "open" p "file does not exist")

end MemoryFiles

/-- The files of a working directory, by their paths relative to it. -/
structure WorkingDirectory where
  files : List (String × String)

namespace WorkingDirectory

/-- What a step through a directory leads to. -/
inductive Entry
  | missing
  | notDirectory
  | nameTooLong
  /-- A directory that is not under the working directory. -/
  | outside
  | directory (parts : List String)
  | file (content : String)

/-- The longest name of an entry, in bytes. -/
def maxName : Nat := 255

/-- The longest path, in bytes. -/
def maxPath : Nat := 4095

/-- The entry with the given parts. -/
def entry (w : WorkingDirectory) (parts : List String) : Entry :=
  match w.files.find? fun (p, _) => (Path.cleanParts p).reverse == parts with
  | some (_, content) => .file content
  | none =>
    if parts.isEmpty || w.files.any (fun (p, _) => parts.isPrefixOf (Path.cleanParts p).reverse) then
      .directory parts
    else .missing

/-- Follows one part of a path from an entry.  Every directory is in another one, the root in
itself. -/
def step (w : WorkingDirectory) (e : Entry) (part : String) : Entry :=
  match e with
  | .directory here =>
    if part == "." then e
    else if part == ".." then (if here.isEmpty then .outside else .directory here.dropLast)
    else if maxName < part.utf8ByteSize then .nameTooLong
    else w.entry (here ++ [part])
  | .outside =>
    if part == "." || part == ".." then .outside
    else if maxName < part.utf8ByteSize then .nameTooLong
    else .missing
  | .file _ => .notDirectory
  | e => e

/-- The entry that a path leads to.  A name outside the working directory leads nowhere. -/
def find (w : WorkingDirectory) (path : String) : Entry :=
  if maxPath < path.utf8ByteSize then .nameTooLong
  else (Path.parts path).foldl w.step (if Path.isRooted path then .outside else .directory [])

/-- Reads a file.  No path holds the character zero. -/
def source (w : WorkingDirectory) : FileSource := fun path =>
  if path.toList.contains '\x00' then .error (.file "open" path "invalid argument")
  else
    match w.find path with
    | .missing => .error (.file "open" path "no such file or directory")
    | .notDirectory => .error (.file "open" path "not a directory")
    | .nameTooLong => .error (.file "open" path "file name too long")
    | .outside => .error (.file "read" path "is a directory")
    | .directory _ => .error (.file "read" path "is a directory")
    | .file content =>
      if path.toList.getLast? == some '/' then .error (.file "open" path "not a directory")
      else .ok content

end WorkingDirectory

/-! ## Loading -/

/-- Reads the text of an expression in the format that a path's extension shows. -/
def Expr.ofText (path content : String) : Except Error Expr :=
  if Path.extension path ∈ [".yaml", ".yml"] then Expr.ofYaml content else Expr.ofJson content

/-- Loads the expression in a file. -/
def Expr.ofFile (source : FileSource) (path : String) : Except Error Expr :=
  match source path with
  | .error f => .error (.within (.reading path) (.fault f))
  | .ok content => (Expr.ofText path content).mapError (.within (.decoding path))

end ClosedForm
