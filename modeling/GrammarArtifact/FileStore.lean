import GrammarArtifact.Bytes
import GrammarArtifact.Ensure

/-! Files and directories. The way to a file starts at the root or in the working directory and
leads through directories that exist. Opening a file for writing either fails, and then nothing
changes, or leaves the file with the new content alone. -/

namespace GrammarArtifact

inductive FileError where
  | notFound
  | notDirectory
  | isDirectory
  | notText
  /-- The system does not open the file, for a reason of its own. -/
  | refused (reason : String)
  deriving DecidableEq

namespace FileError

def message : FileError → String
  | notFound => "No such file or directory (os error 2)"
  | notDirectory => "Not a directory (os error 20)"
  | isDirectory => "Is a directory (os error 21)"
  | notText => "stream did not contain valid UTF-8"
  | refused reason => reason

end FileError

/-- Names of directories on the way and of the file or directory at the end, seen from the root. -/
abbrev Path : Type := List String

namespace Path

/-- One step from a path. The root is its own parent. -/
def follow (path : Path) (part : String) : Path :=
  if part = "." then path
  else if part = ".." then path.dropLast
  else path ++ [part]

/-- The parts of a written path, without the empty ones that doubled slashes leave. -/
def parts (name : String) : List String :=
  ((name.toList.splitOn '/').filter (· ≠ [])).map String.ofList

/-- Whether a written path starts at the root. -/
def isAbsolute (name : String) : Bool := name.toList.head? = some '/'

end Path

/-- Directories and the contents of files. -/
structure FileStore where
  /-- The directory in which the other written paths start. -/
  workingDirectory : Path := []
  directories : List Path := [[]]
  files : List (Path × Bytes) := []
  /-- Files that cannot be written, whether they are there or not, with the reason for each. -/
  refusals : List (Path × String) := []

namespace FileStore

def content? (store : FileStore) (path : Path) : Option Bytes := store.files.lookup path

/-- The store in which a file holds the given content and nothing else has changed. -/
def put (store : FileStore) (path : Path) (content : Bytes) : FileStore :=
  { store with files := (path, content) :: store.files.filter (·.1 ≠ path) }

def enter (store : FileStore) (path : Path) (part : String) : Except FileError Path :=
  let there := path.follow part
  if there ∈ store.directories then .ok there
  else if (store.content? there).isSome then .error .notDirectory
  else .error .notFound

def start (store : FileStore) (name : String) : Path :=
  if Path.isAbsolute name then [] else store.workingDirectory

/-- The path that a text denotes. All but its last part have to be directories; the empty text
denotes nothing. -/
def locate (store : FileStore) (name : String) : Except FileError Path :=
  if name = "" then .error .notFound
  else
    match (Path.parts name).getLast? with
    | none => .ok (store.start name)
    | some last => do
      let directory ← (Path.parts name).dropLast.foldlM store.enter (store.start name)
      return directory.follow last

/-- Whether a text ends in a slash. It cannot be the name of a file then. -/
def endsInSlash (name : String) : Bool := name.toList.getLast? = some '/'

def read (store : FileStore) (name : String) : Except FileError Bytes := do
  let path ← store.locate name
  ensure (path ∉ store.directories) .isDirectory
  match store.content? path with
  | none => .error .notFound
  | some content => do
    ensure (endsInSlash name = false) .notDirectory
    return content

/-- Replaces the content of a file, creating the file if need be. A name that ends in a slash counts
as a directory whether there is one or not. -/
def write (store : FileStore) (name : String) (content : Bytes) : Except FileError FileStore := do
  let path ← store.locate name
  ensure (path ∉ store.directories ∧ endsInSlash name = false) .isDirectory
  match store.refusals.lookup path with
  | some reason => .error (.refused reason)
  | none => .ok (store.put path content)

@[simp] theorem directories_put (store : FileStore) (path : Path) (content : Bytes) :
    (store.put path content).directories = store.directories := rfl

@[simp] theorem workingDirectory_put (store : FileStore) (path : Path) (content : Bytes) :
    (store.put path content).workingDirectory = store.workingDirectory := rfl

theorem content?_put_self (store : FileStore) (path : Path) (content : Bytes) :
    (store.put path content).content? path = some content := by
  simp [put, content?]

theorem content?_put_of_ne {store : FileStore} {path other : Path} {content : Bytes}
    (h : other ≠ path) : (store.put path content).content? other = store.content? other := by
  simp only [put, content?, List.lookup_cons, beq_false_of_ne h]
  induction store.files with
  | nil => rfl
  | cons entry rest ih =>
    obtain ⟨p, c⟩ := entry
    simp only [ne_eq, decide_not] at ih ⊢
    by_cases hp : p = path
    · simp [hp, List.lookup_cons, beq_false_of_ne h, ih]
    · simp [hp, List.lookup_cons, ih]

end FileStore

end GrammarArtifact
