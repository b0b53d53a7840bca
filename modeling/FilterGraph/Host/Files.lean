import FilterGraph.Host.OsError
import FilterGraph.Host.Path
import FilterGraph.Entries

/-!
# Files and directories

The part of a file system that a conversion can see: which directories, files and devices there
are, the working directory and the home directories. A location is the list of names from the root
down; the name `..` leads from a directory to the one above it.

* `Files.stat` follows a path through the directories; a step through anything else fails, and so
  does a name of more than 255 bytes;
* `Files.makeDirectories` creates a directory with all that are missing above it and leaves what it
  has created when it fails further down; whether the directory itself may be there is up to the
  caller;
* `Files.write` and `Files.remove` want the directory of the file to be there;
* `Files.read` gives the bytes of a file.
-/

namespace FilterGraph

/-- What is at a location. -/
inductive FileEntry where
  | file (content : List UInt8)
  | directory
  /-- A device, which is neither: it reads as empty and keeps nothing of what is written to it. -/
  | device
  deriving DecidableEq, Repr

/-- The names from the root to a file or directory. -/
abbrev Location := List String

/-- The files and directories below the root. -/
structure Files where
  working : Location
  home : Location
  /-- The home directories of users by name. -/
  users : List (String × Location)
  entries : List (Location × FileEntry)
  deriving DecidableEq, Repr

/-- Why a user has no home directory. -/
inductive HomeError where
  | unknownUser
  | nullInName
  deriving DecidableEq, Repr

namespace Files

/-- The directories that every system has in its root. -/
def systemDirectories : List String :=
  ["bin", "boot", "dev", "etc", "home", "lib", "media", "mnt", "opt", "proc", "root", "run", "sbin",
    "srv", "sys", "tmp", "usr", "var"]

/-- The directories that every system has below them. -/
def lowerDirectories : List Location :=
  [["dev", "pts"], ["dev", "shm"], ["usr", "bin"], ["usr", "lib"], ["usr", "local"],
    ["usr", "share"], ["var", "cache"], ["var", "lib"], ["var", "log"], ["var", "tmp"]]

/-- The devices that every system has. -/
def devices : List String := ["full", "null", "random", "tty", "urandom", "zero"]

/-- The line of the administrator in the table of users. -/
def administrator : String := "root:x:0:0:root:/root:/bin/sh\n"

/-- What every system has. -/
def systemEntries : List (Location × FileEntry) :=
  systemDirectories.map (([·], .directory)) ++ lowerDirectories.map (·, .directory) ++
    devices.map (["dev", ·], .device) ++
    [(["etc", "passwd"], .file administrator.toUTF8.toList)]

/-- Only the working directory, which is also the home directory, the directories above it, and
what every system has. Of the users only the administrator is known. -/
def scratch (working : Location) : Files :=
  let above := (List.range working.length).map fun n => (working.take (n + 1), FileEntry.directory)
  ⟨working, working, [("root", ["root"])], Entries.ofPairs (systemEntries ++ above)⟩

/-- What is at a location; the root is a directory. -/
def entry? (fs : Files) (l : Location) : Option FileEntry :=
  if l.isEmpty then some .directory else Entries.find? l fs.entries

/-- The longest name, in bytes. -/
def longestName : Nat := 255

/-- The longest path, in bytes. -/
def longestPath : Nat := 4095

/-- One step of a path: into a name of the directory at `here`, or up from it. -/
def enter (fs : Files) (here : Location) (name : String) : Except Int Location :=
  match fs.entry? here with
  | none => .error OsError.noEntry
  | some .directory =>
    if name = ".." then .ok here.dropLast
    else if longestName < name.utf8ByteSize then .error OsError.nameTooLong
    else .ok (here ++ [name])
  | some _ => .error OsError.notDirectory

/-- The location of a path, whose last name need not be there. -/
def locate (fs : Files) (p : Path) : Except Int Location :=
  if longestPath < p.text.utf8ByteSize then .error OsError.nameTooLong
  else p.names.foldlM fs.enter (if p.isAbsolute then [] else fs.working)

/-- What is at a path. -/
def stat (fs : Files) (p : Path) : Except Int FileEntry := do
  match fs.entry? (← fs.locate p) with
  | some e => .ok e
  | none => .error OsError.noEntry

/-- Whether something is at a path. Only the faults of a path that leads nowhere count as no. -/
def present (fs : Files) (p : Path) : Except OsError Bool :=
  if p.hasNull then .ok false
  else match fs.stat p with
    | .ok _ => .ok true
    | .error n =>
      if n = OsError.noEntry ∨ n = OsError.notDirectory then .ok false else .error ⟨n, p.text⟩

/-- Whether there is a directory at a path. -/
def isDirectory (fs : Files) (p : Path) : Bool :=
  match fs.stat p with
  | .ok .directory => true
  | _ => false

/-- Whether there is a file at a path. -/
def isFile (fs : Files) (p : Path) : Except OsError Bool := do
  match fs.stat p with
  | .ok (.file _) => .ok (! p.hasNull)
  | _ => (fs.present p).map fun _ => false

/-- Creates one directory. -/
def makeDirectory (fs : Files) (p : Path) : Except Int Files := do
  let l ← fs.locate p
  match fs.entry? l with
  | some _ => .error OsError.alreadyExists
  | none => .ok { fs with entries := Entries.set l .directory fs.entries }

/-- The failure to create a directory, unless one may be there and is. -/
def unlessPresent (fs : Files) (mayExist : Bool) (p : Path) (number : Int) : Option OsError :=
  if mayExist && fs.isDirectory p then none else some ⟨number, p.text⟩

/-- Creates the directory whose names, from the last to the first, are given, and those above,
which may be there. -/
def makeDirectoriesUp (fs : Files) (mayExist : Bool) (root : String) :
    List String → Files × Option OsError
  | [] => (fs, fs.unlessPresent mayExist ⟨root, []⟩ OsError.alreadyExists)
  | name :: above =>
    let p : Path := ⟨root, (name :: above).reverse⟩
    match fs.makeDirectory p with
    | .ok fs => (fs, none)
    | .error n =>
      if n ≠ OsError.noEntry then (fs, fs.unlessPresent mayExist p n)
      else match fs.makeDirectoriesUp true root above with
        | (fs, some e) => (fs, some e)
        | (fs, none) => match fs.makeDirectory p with
          | .ok fs => (fs, none)
          | .error n =>
            if n = OsError.noEntry then (fs, some ⟨n, p.text⟩)
            else (fs, fs.unlessPresent mayExist p n)

/-- Creates a directory, which may be there or not, with all that are missing above it. -/
def makeDirectories (fs : Files) (mayExist : Bool) (p : Path) : Files × Option OsError :=
  fs.makeDirectoriesUp mayExist p.root p.names.reverse

/-- Writes a file. -/
def write (fs : Files) (p : Path) (content : List UInt8) : Except OsError Files := do
  let l ← (fs.locate p).mapError (⟨·, p.text⟩)
  match fs.entry? l with
  | some .directory => .error ⟨OsError.isDirectory, p.text⟩
  | some .device => .ok fs
  | _ => .ok { fs with entries := Entries.set l (.file content) fs.entries }

/-- Removes a file; a directory stays. -/
def remove (fs : Files) (p : Path) : Except OsError Files := do
  let l ← (fs.locate p).mapError (⟨·, p.text⟩)
  match fs.entry? l with
  | none => .error ⟨OsError.noEntry, p.text⟩
  | some .directory => .error ⟨OsError.isDirectory, p.text⟩
  | some _ => .ok { fs with entries := fs.entries.filter (·.1 ≠ l) }

/-- The bytes of a file. -/
def read (fs : Files) (p : Path) : Except OsError (List UInt8) :=
  match fs.stat p with
  | .ok (.file content) => .ok content
  | .ok .device => .ok []
  | .ok .directory => .error ⟨OsError.isDirectory, p.text⟩
  | .error n => .error ⟨n, p.text⟩

/-- The paths of everything below the working directory, directories with a slash at the end. -/
def listing (fs : Files) : List String :=
  let lines := fs.entries.filterMap fun e =>
    if fs.working.isPrefixOf e.1 && fs.working.length < e.1.length then
      let path := "/".intercalate (e.1.drop fs.working.length)
      some (match e.2 with
        | .directory => path ++ "/"
        | _ => path)
    else none
  lines.mergeSort fun a b => decide (a ≤ b)

/-- The path of the working directory. -/
def workingPath (fs : Files) : Path := ⟨"/", fs.working⟩

/-- The home directory of the user with a name. -/
def homeOf (fs : Files) (name : String) : Except HomeError Location :=
  if name.isEmpty then .ok fs.home
  else if name.toList.contains '\x00' then .error .nullInName
  else match Entries.find? name fs.users with
    | some home => .ok home
    | none => .error .unknownUser

/-- A path with its leading `~` replaced by the home directory, and `~name` by that of a known
user. -/
def expandHome (fs : Files) (p : Path) : Except HomeError Path :=
  match p.isAbsolute, p.names with
  | false, first :: rest => match first.toList with
    | '~' :: name => (fs.homeOf (.ofList name)).map fun home => ⟨"/", home ++ rest⟩
    | _ => .ok p
  | _, _ => .ok p

end Files

end FilterGraph
