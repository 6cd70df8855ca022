import NodeFamily.Text.Cut

/-!
# Trees of files

A `FileTree` says what stands at each place below a working directory. A place is the list of names
that lead to it from there. A path is a text that leads to a place: `locate` follows one as the
operating system does, so every step but the last must be a directory that is there, while
`Path.parent` cleans a path by its text alone. The tree has nothing above it, and `..` at its top
stays there. What an operation does to the tree is seen through `get?`: `set` and `erase` change one
place and no other.
-/

namespace NodeFamily

/-- What a failed operation was doing. -/
inductive FileAction
  | opening
  | reading
  | makingDirectory
deriving DecidableEq, Repr

/-- Why an operation on files fails. -/
inductive FileCause
  | notFound
  | notDirectory
  | isDirectory
  | nameTooLong
  /-- The path has a null character. -/
  | invalidPath
  /-- A reason outside of the tree, in words. -/
  | other (reason : String)
deriving DecidableEq, Repr

/-- A failed operation on files. -/
structure FileError where
  /-- What it was doing. -/
  action : FileAction
  /-- The path as it was given. -/
  path : String
  /-- Why it failed. -/
  cause : FileCause
deriving DecidableEq, Repr

/-- An action in words. -/
def FileAction.name : FileAction → String
  | .opening => "open"
  | .reading => "read"
  | .makingDirectory => "mkdir"

/-- A cause in words. -/
def FileCause.message : FileCause → String
  | .notFound => "no such file or directory"
  | .notDirectory => "not a directory"
  | .isDirectory => "is a directory"
  | .nameTooLong => "file name too long"
  | .invalidPath => "invalid argument"
  | .other reason => reason

/-- A failed operation in words. -/
def FileError.message (e : FileError) : String :=
  e.action.name ++ " " ++ e.path ++ ": " ++ e.cause.message

namespace Path

/-- The steps of a path: what stands between its slashes. -/
def steps (path : String) : List String := (Text.cutAt '/' path.toList).map String.ofList

/-- Cleans steps by their text: empty steps and `.` are dropped, and `..` takes back the step before
it. `before` are the names so far, the last first. -/
def cleanFrom (before : List String) : List String → List String
  | [] => before.reverse
  | step :: rest =>
    if step = "" ∨ step = "." then cleanFrom before rest
    else if step = ".." then cleanFrom before.tail rest
    else cleanFrom (step :: before) rest

/-- The names of the directory that a path lies in, by its text. -/
def parent (path : String) : List String := cleanFrom [] (steps path).dropLast

/-- Names joined to a path. -/
def join (names : List String) : String := "/".intercalate names

/-- The number of octets that a name may have. -/
def nameLimit : Nat := 255

/-- The number of octets that a path may have. -/
def pathLimit : Nat := 4095

/-- Why a path leads nowhere in any tree. -/
def fault? (path : String) : Option FileCause :=
  if path.toList.contains '\x00' then some .invalidPath
  else if pathLimit < path.utf8ByteSize then some .nameTooLong
  else none

end Path

/-- What stands at a place. -/
inductive Entry
  | file (content : String)
  | directory
deriving DecidableEq, Repr

/-- What stands at each place below a directory. -/
structure FileTree where
  /-- The entries with their places. -/
  entries : List (List String × Entry) := []
deriving DecidableEq, Repr

namespace FileTree

/-- What stands at a place. The top is always a directory. -/
def get? (t : FileTree) (place : List String) : Option Entry :=
  if place.isEmpty then some .directory else t.entries.lookup place

/-- Puts an entry at a place. -/
def set (t : FileTree) (place : List String) (entry : Entry) : FileTree :=
  ⟨(place, entry) :: t.entries.filter (·.1 ≠ place)⟩

/-- Takes away what stands at a place. -/
def erase (t : FileTree) (place : List String) : FileTree :=
  ⟨t.entries.filter (·.1 ≠ place)⟩

/-- The top is a directory. -/
@[simp]
theorem get?_nil (t : FileTree) : t.get? [] = some .directory := rfl

/-- Entries at one place have no say in what stands at another. -/
theorem lookup_filter_ne {place other : List String} (h : other ≠ place)
    (entries : List (List String × Entry)) :
    (entries.filter (·.1 ≠ place)).lookup other = entries.lookup other := by
  induction entries with
  | nil => rfl
  | cons e rest ih =>
    obtain ⟨key, entry⟩ := e
    by_cases he : key = place
    · have hne : (other == key) = false := by simp [he, h]
      simp only [List.lookup_cons, hne]
      simp_all
    · by_cases ho : other = key <;> simp_all [List.lookup_cons]

/-- What is put at a place stands there. -/
theorem get?_set_self (t : FileTree) {place : List String} (entry : Entry) (h : place ≠ []) :
    (t.set place entry).get? place = some entry := by
  simp [get?, set, h]

/-- What is put at a place changes no other place. -/
theorem get?_set_of_ne (t : FileTree) {place other : List String} (entry : Entry)
    (h : other ≠ place) : (t.set place entry).get? other = t.get? other := by
  have hne : (other == place) = false := by simp [h]
  simp only [get?, set, List.lookup_cons, hne, lookup_filter_ne h]

/-- Taking away what stands at a place changes no other place. -/
theorem get?_erase_of_ne (t : FileTree) {place other : List String} (h : other ≠ place) :
    (t.erase place).get? other = t.get? other := by
  simp only [get?, erase, lookup_filter_ne h]

/-- Goes one step on from a directory, to a directory. -/
def step (t : FileTree) (here : List String) (name : String) : Except FileCause (List String) :=
  if name = "" ∨ name = "." then .ok here
  else if name = ".." then .ok here.dropLast
  else if Path.nameLimit < name.utf8ByteSize then .error .nameTooLong
  else match t.get? (here ++ [name]) with
    | some .directory => .ok (here ++ [name])
    | some (.file _) => .error .notDirectory
    | none => .error .notFound

/-- Goes several steps on from a directory, to a directory. -/
def walk (t : FileTree) (here : List String) (names : List String) :
    Except FileCause (List String) :=
  names.foldlM t.step here

/-- The place that a path leads to, where nothing need be. -/
def locate (t : FileTree) (path : String) : Except FileCause (List String) :=
  match Path.fault? path with
  | some cause => .error cause
  | none =>
    let steps := Path.steps path
    match t.walk [] steps.dropLast with
    | .error cause => .error cause
    | .ok directory =>
      let last := steps.getLastD ""
      if ["", ".", ".."].contains last then t.step directory last
      else if Path.nameLimit < last.utf8ByteSize then .error .nameTooLong
      else .ok (directory ++ [last])

/-- The content of the file at a path. -/
def read (t : FileTree) (path : String) : Except FileError String :=
  match t.locate path with
  | .error cause => .error ⟨.opening, path, cause⟩
  | .ok place =>
    match t.get? place with
    | some (.file content) => .ok content
    | some .directory => .error ⟨.reading, path, .isDirectory⟩
    | none => .error ⟨.opening, path, .notFound⟩

/-- Writes a file at a path, over the one that is there. -/
def write (t : FileTree) (path content : String) : Except FileError FileTree :=
  match t.locate path with
  | .error cause => .error ⟨.opening, path, cause⟩
  | .ok place =>
    match t.get? place with
    | some .directory => .error ⟨.opening, path, .isDirectory⟩
    | _ => .ok (t.set place (.file content))

/-- Why no directory can be made at a place where nothing stands. -/
def makingFault? (place : List String) : Option FileCause :=
  (Path.fault? (Path.join place)).orElse fun _ =>
    if place.any (Path.nameLimit < ·.utf8ByteSize) then some .nameTooLong else none

/-- Makes directories below `made`, one inside the other, where they are missing. Those that are
made before one fails stay. -/
def makeBelow (t : FileTree) (made : List String) :
    List String → Except FileError Unit × FileTree
  | [] => (.ok (), t)
  | name :: rest =>
    let place := made ++ [name]
    let failing (cause : FileCause) : Except FileError Unit × FileTree :=
      (.error ⟨.makingDirectory, Path.join place, cause⟩, t)
    match t.get? place with
    | some .directory => makeBelow t place rest
    | some (.file _) => failing .notDirectory
    | none =>
      match makingFault? place with
      | some cause => failing cause
      | none => makeBelow (t.set place .directory) place rest

/-- Makes the directory with the given names, and those that it lies in. -/
def makeDirectories (t : FileTree) (names : List String) : Except FileError Unit × FileTree :=
  t.makeBelow [] names

/-- Whether something lies in a directory. -/
def isOccupied (t : FileTree) (place : List String) : Bool :=
  t.entries.any fun e => e.1.dropLast = place

/-- Takes away the file or the empty directory at a path, if there is one. -/
def remove? (t : FileTree) (path : String) : Option FileTree :=
  match t.locate path with
  | .error _ => none
  | .ok place =>
    match t.get? place with
    | none => none
    | some (.file _) => some (t.erase place)
    | some .directory =>
      if place.isEmpty || t.isOccupied place then none else some (t.erase place)

/-- The files with their paths. -/
def files (t : FileTree) : List (String × String) :=
  t.entries.filterMap fun
    | (place, .file content) => some (Path.join place, content)
    | (_, .directory) => none

/-- A tree of the given files and the directories that they lie in. A path that leads nowhere is
left out. -/
def ofFiles (files : List (String × String)) : FileTree :=
  files.foldl (fun t (path, content) =>
    let (_, t) := t.makeDirectories (Path.parent path)
    (t.write path content).toOption.getD t) {}

end FileTree

end NodeFamily
