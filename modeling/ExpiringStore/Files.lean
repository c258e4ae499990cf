import ExpiringStore.Text.Quoted

/-!
# Files and directories

The part of a file system that a store can meet: directories, plain files, and
the files in which tables live.  A place is the list of the names that lead to
it from the working directory, `..` standing only in front, for the directories
above.  A path may hold `..` anywhere: it is followed name by name, and a
directory that it passes through has to be there.
-/

namespace ExpiringStore

/-- Why a directory cannot be made. -/
inductive FileFailure.Reason where
  | fileExists
  | notDirectory
  | nameTooLong
  | missing
  deriving DecidableEq, Repr

/-- A path that cannot be made a directory. -/
structure FileFailure where
  reason : FileFailure.Reason
  path : String
  deriving DecidableEq, Repr

/-- The number of a reason and its wording. -/
def FileFailure.Reason.describe : FileFailure.Reason → Nat × String
  | .missing => (2, "No such file or directory")
  | .fileExists => (17, "File exists")
  | .notDirectory => (20, "Not a directory")
  | .nameTooLong => (36, "File name too long")

def FileFailure.text (f : FileFailure) : String :=
  let (number, wording) := f.reason.describe
  s!"[Errno {number}] {wording}: " ++ Quoted.text f.path

/-- Directories and plain files by their places. -/
structure Files where
  directories : List (List String) := []
  plain : List (List String) := []
  deriving Inhabited, Repr

namespace Files

/-- The names of a relative path; none for an absolute one. -/
def names? (s : String) : Option (List String) :=
  if s.startsWith "/" then none
  else some ((s.splitOn "/").filter fun name => !(name == "" || name == "."))

def pathText (names : List String) : String :=
  if names.isEmpty then "." else String.intercalate "/" names

/-- The place that a name leads to. -/
def step (place : List String) (name : String) : List String :=
  if name != ".." then place ++ [name]
  else if (place.getLast?.getD "..") == ".." then place ++ [".."]
  else place.dropLast

/-- The place of a relative path whose directories are all there. -/
def place? (s : String) : Option (List String) := (names? s).map (·.foldl step [])

/-- Is the place a directory?  The working directory and those above it are. -/
def isDirectory (f : Files) (place : List String) : Bool :=
  place.all (· == "..") || f.directories.contains place

/-- The most octets of a name and of a path. -/
def longestName : Nat := 255

def longestPath : Nat := 4095

def isTooLong (name : String) : Bool := longestName < name.utf8ByteSize

/-- Follows names from a place, through directories that are there. -/
def walk (f : Files) : List String → List String → Except FileFailure.Reason (List String)
  | place, [] => .ok place
  | place, name :: rest =>
    if f.plain.contains place then .error .notDirectory
    else if isTooLong name then .error .nameTooLong
    else
      let next := step place name
      if f.isDirectory next || f.plain.contains next then walk f next rest else .error .missing

/-- Makes one directory in one that is there. -/
def makeOne (f : Files) (names : List String) : Except FileFailure.Reason Files :=
  if longestPath < (pathText names).utf8ByteSize then .error .nameTooLong
  else
    match names.getLast? with
    | none => .error .fileExists
    | some name =>
      match walk f [] names.dropLast with
      | .error reason => .error reason
      | .ok upper =>
        if f.plain.contains upper then .error .notDirectory
        else if isTooLong name then .error .nameTooLong
        else
          let place := step upper name
          if f.isDirectory place || f.plain.contains place then .error .fileExists
          else .ok { f with directories := f.directories ++ [place] }

/-- Makes one directory, unless it is there already. -/
def ensureOne (f : Files) (names : List String) : Except FileFailure.Reason Files :=
  match makeOne f names with
  | .ok g => .ok g
  | .error .missing => .error .missing
  | .error reason =>
    match walk f [] names with
    | .ok place => if f.plain.contains place then .error reason else .ok f
    | .error _ => .error reason

/-- Makes a directory and those that its path passes through, the path given
from its end. -/
def ensureAll (f : Files) : List String → Except FileFailure Files
  | [] => .ok f
  | name :: upper =>
    let names := (name :: upper).reverse
    let named (r : Except FileFailure.Reason Files) : Except FileFailure Files :=
      r.mapError (⟨·, pathText names⟩)
    match ensureOne f names with
    | .error .missing =>
      match ensureAll f upper with
      | .error e => .error e
      | .ok g => named (ensureOne g names)
    | r => named r

/-- Makes a directory and those that its path passes through. -/
def makeDirectory (f : Files) (names : List String) : Except FileFailure Files :=
  ensureAll f names.reverse

/-- Adds a plain file, with the directories above it. -/
def addFile (f : Files) (names : List String) : Files :=
  match f.makeDirectory names.dropLast with
  | .ok g => { g with plain := g.plain ++ [names.foldl step []] }
  | .error _ => f

/-- The directories below the working directory as texts, in order. -/
def listing (f : Files) : List String :=
  ((f.directories.filter fun place => place.head? != some "..").map
    (String.intercalate "/")).mergeSort (fun a b => !(b < a))

end Files

end ExpiringStore
