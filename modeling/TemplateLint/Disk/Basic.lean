import TemplateLint.Path

/-! # Files and directories

A disk is a value: every file and directory by its route, the names that lead to it from the top.
A path is followed as a file system does it, so `..` leaves a directory that must exist and a slash
at the end calls for a directory. Only a write that succeeds changes a disk.
-/

namespace TemplateLint

/-- Why an operation on files failed. -/
inductive FileError where
  | notFound
  | denied
  | notDirectory
  | isDirectory
  | nameTooLong
  | nulByte
  | notText
deriving DecidableEq, Repr

/-- The wording of a file error. -/
def FileError.message : FileError → String
  | .notFound => "No such file or directory (os error 2)"
  | .denied => "Permission denied (os error 13)"
  | .notDirectory => "Not a directory (os error 20)"
  | .isDirectory => "Is a directory (os error 21)"
  | .nameTooLong => "File name too long (os error 36)"
  | .nulByte => "file name contained an unexpected NUL byte"
  | .notText => "stream did not contain valid UTF-8"

/-- The content of a file: text, or bytes that are no text. -/
inductive Content where
  | text (text : String)
  | binary (bytes : List UInt8)
deriving DecidableEq, Repr

/-- What may be done with a file or directory. -/
inductive Access where
  | full
  | readOnly
  | none
deriving DecidableEq, Repr

/-- A file or a directory. -/
inductive Entry where
  | file (content : Content) (access : Access)
  | directory (access : Access)
deriving DecidableEq, Repr

/-- The names that lead to an entry from the top. -/
abbrev Route := List String

/-- Files and directories by their routes. The top directory is always there. -/
structure Disk where
  entries : List (Route × Entry) := []
deriving DecidableEq, Repr

namespace Disk

/-- The entry at a route. -/
def entry? (disk : Disk) (route : Route) : Option Entry :=
  if route.isEmpty then some (.directory .full) else disk.entries.lookup route

/-- Put an entry at a route, in place of one that is there. -/
def put (disk : Disk) (route : Route) (entry : Entry) : Disk :=
  if disk.entries.any fun known => known.1 == route then
    ⟨disk.entries.map fun known => if known.1 == route then (route, entry) else known⟩
  else ⟨disk.entries ++ [(route, entry)]⟩

/-- Where a path leads: to an entry, or to a name that is free in a directory. -/
inductive Target where
  | present (route : Route) (entry : Entry)
  | vacant (directory : Route) (name : String)
deriving DecidableEq, Repr

/-- Enter a directory in order to look up a name in it. -/
def enter (disk : Disk) (route : Route) : Except FileError Unit :=
  match disk.entry? route with
  | none => .error .notFound
  | some (.file _ _) => .error .notDirectory
  | some (.directory .none) => .error .denied
  | some (.directory _) => .ok ()

/-- How many bytes a name has at most. -/
def nameLimit : Nat := 255

/-- How many bytes a path has at most. -/
def pathLimit : Nat := 4095

/-- Follow the names of a path from a route. -/
def follow (disk : Disk) : Route → List String → Except FileError Target
  | route, [] =>
    match disk.entry? route with
    | some entry => .ok (.present route entry)
    | none => .error .notFound
  | route, piece :: rest => do
    disk.enter route
    if piece = "." then disk.follow route rest
    else if piece = ".." then disk.follow route.dropLast rest
    else if nameLimit < piece.utf8ByteSize then .error .nameTooLong
    else
      match disk.entry? (route ++ [piece]), rest with
      | none, [] => .ok (.vacant route piece)
      | _, rest => disk.follow (route ++ [piece]) rest

/-- The names of a path that are looked up one after another. -/
def lookups (path : Path) : List String :=
  path.pieces.filter fun piece => !piece.isEmpty

/-- Whether a path ends in a slash. -/
def endsInSlash (path : Path) : Bool :=
  path.spelling.toList.getLast? == some '/'

/-- Check that a path can be followed at all. -/
def checkSpelling (path : Path) : Except FileError Unit :=
  if path.spelling.toList.contains '\x00' then .error .nulByte
  else if pathLimit < path.spelling.utf8ByteSize then .error .nameTooLong
  else .ok ()

/-- Where a path leads. -/
def find (disk : Disk) (path : Path) : Except FileError Target := do
  checkSpelling path
  let target ← disk.follow [] (lookups path)
  match target with
  | .present _ (.file _ _) => if endsInSlash path then .error .notDirectory else .ok target
  | _ => .ok target

/-- Whether a path leads to an entry. -/
def has (disk : Disk) (path : Path) : Bool :=
  match disk.find path with
  | .ok (.present _ _) => true
  | _ => false

/-- Whether a path leads to a file. -/
def isFile (disk : Disk) (path : Path) : Bool :=
  match disk.find path with
  | .ok (.present _ (.file _ _)) => true
  | _ => false

/-- The text of a file. -/
def readText (disk : Disk) (path : Path) : Except FileError String := do
  match ← disk.find path with
  | .vacant _ _ => .error .notFound
  | .present _ (.directory .none) => .error .denied
  | .present _ (.directory _) => .error .isDirectory
  | .present _ (.file _ .none) => .error .denied
  | .present _ (.file (.binary _) _) => .error .notText
  | .present _ (.file (.text text) _) => .ok text

/-- Why nothing can be written to a path that ends in a slash: it stands for a directory, if the way
to it is open. Its last name is not looked up. -/
def slashError (disk : Disk) (path : Path) : FileError :=
  match disk.follow [] (lookups path).dropLast with
  | .error error => error
  | .ok (.vacant _ _) => .notFound
  | .ok (.present route _) =>
    match disk.enter route with
    | .error error => error
    | .ok _ => .isDirectory

/-- Write a text to a file, which is created in a directory that is there. -/
def writeText (disk : Disk) (path : Path) (text : String) : Except FileError Disk := do
  checkSpelling path
  if endsInSlash path then throw (disk.slashError path)
  match ← disk.find path with
  | .present _ (.directory _) => .error .isDirectory
  | .present route (.file _ .full) => .ok (disk.put route (.file (.text text) .full))
  | .present _ (.file _ _) => .error .denied
  | .vacant directory name =>
    match disk.entry? directory with
    | some (.directory .full) => .ok (disk.put (directory ++ [name]) (.file (.text text) .full))
    | _ => .error .denied

/-- The path of a route. -/
def pathOf (route : Route) : Path := ⟨"/" ++ String.intercalate "/" route⟩

/-- The path without detours of the entry that a path leads to. -/
def canonical? (disk : Disk) (path : Path) : Option Path :=
  match disk.find path with
  | .ok (.present route _) => some (pathOf route)
  | _ => none

/-! ## Directory trees -/

/-- Whether the entries of a directory can be listed. -/
def isListable (disk : Disk) (route : Route) : Bool :=
  match disk.entry? route with
  | some (.directory .none) => false
  | some (.directory _) => true
  | _ => false

/-- Whether an entry below a directory is met when that directory is walked: every directory on the
way can be listed. -/
def isReached (disk : Disk) (top below : Route) : Bool :=
  (List.range below.length).all fun depth => disk.isListable (top ++ below.take depth)

/-- The entries met when a route is walked, by the names behind it; the walked one comes first. -/
def walk (disk : Disk) (top : Route) : List (Route × Entry) :=
  match disk.entry? top with
  | none => []
  | some entry =>
    ([], entry) :: disk.entries.filterMap fun (route, entry) =>
      let below := route.drop top.length
      if top.isPrefixOf route && !below.isEmpty && disk.isReached top below then some (below, entry)
      else none

/-! ## Building a disk -/

/-- Make a directory and those above it; one that is there stays. -/
def makeDirectory (disk : Disk) (route : Route) : Disk :=
  (List.range route.length).foldl (fun disk depth =>
    let above := route.take (depth + 1)
    if (disk.entry? above).isSome then disk else disk.put above (.directory .full)) disk

/-- Place a file and make the directories above it. -/
def placeFile (disk : Disk) (route : Route) (content : Content) : Disk :=
  (disk.makeDirectory route.dropLast).put route (.file content .full)

/-- Change what may be done with an entry. -/
def restrict (disk : Disk) (route : Route) (access : Access) : Disk :=
  match disk.entry? route with
  | some (.file content _) => disk.put route (.file content access)
  | some (.directory _) => disk.put route (.directory access)
  | none => disk

/-- Take an entry and all below it away. -/
def remove (disk : Disk) (route : Route) : Disk :=
  ⟨disk.entries.filter fun known => !route.isPrefixOf known.1⟩

/-- The content of a file that may be read. -/
def content? (disk : Disk) (route : Route) : Option Content :=
  match disk.entry? route with
  | some (.file _ .none) => none
  | some (.file content _) => some content
  | _ => none

end Disk

end TemplateLint
