import FeatureAlignment.Failure

/-!
# Files

Commands read and write files by their paths.

* `FileAccess` is how that is done; a command works with any.
* `Files` is a tree of files held in memory, `Files.access` the access to it.
* `FilePath.isJson` tells JSON files by their extension.
-/

namespace FeatureAlignment

namespace FilePath

/-- The names in a path, empty ones and full stops left out. -/
def components (path : String) : List String :=
  ((Text.cutAt '/' path.toList).map String.ofList).filter (fun c => c ≠ "" ∧ c ≠ ".")

/-- The characters after the last full stop, if there is one behind the first
character. -/
def extension? (name : String) : Option String :=
  match (Text.cutAt '.' name.toList).reverse with
  | last :: first :: rest =>
    if rest.isEmpty && first.isEmpty then none else some (String.ofList last)
  | _ => none

/-- **Whether a path is that of a JSON file**: its extension is `json` in any case. -/
def isJson (path : String) : Bool :=
  match (components path).getLast? with
  | some name =>
    if name = ".." then false else ((extension? name).map (Text.sameAscii · "json")).getD false
  | none => false

/-- A path inside a directory. -/
def inside (directory path : String) : String :=
  if directory.isEmpty || directory.toList.getLast? == some '/' then directory ++ path
  else directory ++ "/" ++ path

end FilePath

/-- **How files are read and written.** -/
structure FileAccess (m : Type → Type) where
  read : String → m (Except FileFault String)
  write : String → String → m (Except FileFault Unit)

/-- **Files in memory**: their contents by the names on the way from the root. -/
structure Files where
  entries : List (List String × String)
  deriving DecidableEq, Repr

namespace Files

/-- What is found at a place. -/
inductive Node
  | file (content : String)
  | directory
  | nothing
  deriving DecidableEq, Repr

/-- What is at a place below the root. A directory is there as long as it holds a
file. -/
def node (files : Files) (place : List String) : Node :=
  match files.entries.lookup place with
  | some content => .file content
  | none =>
    if place.isEmpty || files.entries.any (fun e => place.isPrefixOf e.1) then .directory else .nothing

/-- **Following names** from a directory, which has to be one at every name. -/
def walk (files : Files) (place : List String) : List String → Except FileFault (List String)
  | [] => .ok place
  | name :: names =>
    match files.node place with
    | .file _ => .error .notDirectory
    | .nothing => .error .missing
    | .directory =>
      if name = ".." then
        if place.isEmpty then .error .missing else walk files place.dropLast names
      else walk files (place ++ [name]) names

/-- Whether a path asks for a directory. -/
def wantsDirectory (path : String) : Bool :=
  match path.toList.reverse with
  | '/' :: _ => true
  | '.' :: '/' :: _ => true
  | _ => false

/-- The place that a path names. Paths from the root of the machine name none. -/
def place (files : Files) (path : String) : Except FileFault (List String) :=
  if path.isEmpty || path.toList.head? == some '/' then .error .missing
  else files.walk [] (FilePath.components path)

/-- **Reading a file.** -/
def read (files : Files) (path : String) : Except FileFault String := do
  match files.node (← files.place path) with
  | .file content => if wantsDirectory path then .error .notDirectory else .ok content
  | .directory => .error .isDirectory
  | .nothing => .error .missing

/-- Give a place its content. -/
def put (place : List String) (content : String) : List (List String × String) → List (List String × String)
  | [] => [(place, content)]
  | e :: rest => if e.1 = place then (place, content) :: rest else e :: put place content rest

/-- **Writing a file**, which is created in a directory that is there. -/
def write (files : Files) (path content : String) : Except FileFault Files := do
  let place ← files.place path
  match files.node place with
  | .directory => .error .isDirectory
  | .file _ => if wantsDirectory path then .error .notDirectory else .ok ⟨put place content files.entries⟩
  | .nothing =>
    match files.node place.dropLast with
    | .directory => if wantsDirectory path then .error .isDirectory else .ok ⟨put place content files.entries⟩
    | .file _ => .error .notDirectory
    | .nothing => .error .missing

/-- Files by their paths. -/
def ofList (files : List (String × String)) : Files :=
  ⟨files.foldl (fun entries f => put (FilePath.components f.1) f.2 entries) []⟩

/-- **The access to files in memory.** -/
def access : FileAccess (StateM Files) where
  read path := do return (← get).read path
  write path content := do
    match (← get).write path content with
    | .ok files =>
      set files
      return .ok ()
    | .error fault => return .error fault

end Files

end FeatureAlignment
