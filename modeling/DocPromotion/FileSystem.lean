import DocPromotion.Text

/-!
The files that a run works on.

A path is a sequence of steps from the working directory.  Empty steps and single dots lead
nowhere, so different paths may lead to the same file.
-/

namespace DocPromotion

/-- Why a file cannot be read. -/
inductive FileError where
  | missing (path : Text)
  | isDirectory (path : Text)
  /-- A file stands where the path needs a directory. -/
  | notDirectory (path : Text)
  /-- The path or one of its steps is too long. -/
  | tooLong (path : Text)
  /-- The path holds a byte that no path may hold. -/
  | invalid (path : Text)
  /-- Any other reason, in the words of the system. -/
  | unreadable (path reason : Text)
deriving Repr, DecidableEq

/-- The wording of an error. -/
def FileError.message : FileError → Text
  | .missing path => "open " ++ path ++ ": no such file or directory"
  | .isDirectory path => "read " ++ path ++ ": is a directory"
  | .notDirectory path => "open " ++ path ++ ": not a directory"
  | .tooLong path => "open " ++ path ++ ": file name too long"
  | .invalid path => "open " ++ path ++ ": invalid argument"
  | .unreadable path reason => "open " ++ path ++ ": " ++ reason

/-- The steps of a path. -/
def pathSteps (path : Text) : List Text :=
  (Text.splitOn (Text.byte '/') path).filter fun step => !step.isEmpty && step != "."

/-- Whether a path says that it leads to a directory. -/
def namesDirectory (path : Text) : Bool :=
  match (Text.splitOn (Text.byte '/') path).getLast? with
  | some step => step.isEmpty || step == "."
  | none => false

/-- Whether a path starts at the root of all files, outside of the working directory. -/
def isAbsolute (path : Text) : Bool := path.head? == some (Text.byte '/')

/-- The largest number of bytes in a step of a path. -/
def maxStepLength : Nat := 255

/-- The largest number of bytes in a path. -/
def maxPathLength : Nat := 4095

/-- Files with their contents, by their paths from the working directory. -/
structure FileSystem where
  files : List (Text × Text)
deriving Repr, DecidableEq

namespace FileSystem

/-- Whether a path leads to a file. -/
def leadsTo (path : Text) (file : Text × Text) : Bool := pathSteps file.1 == pathSteps path

/-- Whether steps lead to a directory: the working directory, one above it, or one that holds a
file. -/
def isDirectory (fs : FileSystem) (steps : List Text) : Bool :=
  steps.all (· == "..") || fs.files.any fun file => steps.isPrefixOf (pathSteps file.1)

/-- Whether steps lead to a file or go on below one. -/
def passesFile (fs : FileSystem) (steps : List Text) : Bool :=
  fs.files.any fun file => (pathSteps file.1).isPrefixOf steps

/-- Why steps from the working directory that do not end at a file lead nowhere.  A step that is
too long only counts where a directory is reached before it. -/
def whyNot (fs : FileSystem) (path : Text) (steps : List Text) : FileError :=
  let before := steps.takeWhile (·.length ≤ maxStepLength)
  let long := before.length < steps.length
  if fs.isDirectory before then if long then .tooLong path else .isDirectory path
  else if fs.passesFile before then .notDirectory path
  else .missing path

/-- Why an absolute path cannot be read: nothing is known above the working directory but the
root of all files. -/
def whyNotAbsolute (path : Text) (steps : List Text) : FileError :=
  match steps with
  | [] => .isDirectory path
  | step :: _ => if maxStepLength < step.length then .tooLong path else .missing path

/-- The contents of the file that a path leads to. -/
def read (fs : FileSystem) (path : Text) : Except FileError Text :=
  if path.isEmpty then .error (.missing path)
  else if path.contains 0 then .error (.invalid path)
  else if maxPathLength < path.length then .error (.tooLong path)
  else if isAbsolute path then .error (whyNotAbsolute path (pathSteps path))
  else
    match fs.files.find? (leadsTo path) with
    | some file => if namesDirectory path then .error (.notDirectory path) else .ok file.2
    | none => .error (fs.whyNot path (pathSteps path))

/-- Replaces the contents of the file that a path leads to. -/
def write (fs : FileSystem) (path contents : Text) : FileSystem :=
  ⟨fs.files.map fun file => if leadsTo path file then (file.1, contents) else file⟩

end FileSystem

end DocPromotion
