import Chip8.Shell.Report

/-! # Files — what the commands read and write

    Commands reach files only through `Files`, whatever keeps them.  `Folder` keeps
    them in memory, by their places in a tree of directories: the folder itself,
    the ones above it, the root, the ones that lead to a file and the few that
    every system has.  A path is walked name by name, and the first name that
    leads nowhere decides what is wrong with it. -/

namespace Chip8

/-- Access to files. -/
structure Files (m : Type → Type) where
  read : String → m (Except FileError (List Byte))
  write : String → List Byte → m (Except FileError Unit)

/-! ## Paths -/

/-- Where a walk begins. -/
inductive Base where
  | root
  /-- The folder itself, or a number of directories above it. -/
  | above (levels : Nat)
  deriving DecidableEq, Repr

/-- A place in the tree, by the names that lead there. -/
structure Place where
  base : Base
  names : List String
  deriving DecidableEq, Repr

namespace Place

/-- The place of a name in a directory. -/
def enter (p : Place) (name : String) : Place := { p with names := p.names ++ [name] }

/-- The directory that holds the place; the root holds itself. -/
def up (p : Place) : Place :=
  match p.base, p.names with
  | .above n, [] => ⟨.above (n + 1), []⟩
  | _, names     => { p with names := names.dropLast }

/-- Whether one of two places is a directory because the other lies in it. -/
def holds (p q : Place) : Bool :=
  p.base = q.base && p.names.length < q.names.length && p.names.isPrefixOf q.names

/-- The file that is always empty. -/
def nullDevice : Place := ⟨.root, ["dev", "null"]⟩

/-- The directories that every system has below the root. -/
def systemDirectories : List Place :=
  ["bin", "dev", "etc", "home", "lib", "proc", "root", "sys", "tmp", "usr", "var"].map
    fun name => ⟨.root, [name]⟩

end Place

/-- A path as it is spelled. -/
structure Path where
  base : Base
  /-- The names in front of the last one. -/
  parents : List String
  last : String
  /-- Whether a slash follows the last name. -/
  slashed : Bool
  deriving DecidableEq, Repr

namespace Path

/-- The length in bytes that no path may reach. -/
def lengthBound : Nat := 4096

/-- The most bytes that a name may have. -/
def nameCapacity : Nat := 255

/-- A path read from its text; one without names means the directory where it
    begins. -/
def ofText (s : String) : Except FileError Path :=
  if s = "" then .error .notFound
  else if lengthBound ≤ s.utf8ByteSize then .error .nameTooLong
  else
    let fields := (Text.fields '/' s.toList).map String.ofList
    let names := fields.filter (· ≠ "")
    .ok
      { base    := if fields.head? = some "" then .root else .above 0
        parents := names.dropLast
        last    := names.getLastD "."
        slashed := fields.getLast? = some "" }

end Path

/-! ## Files in memory -/

/-- Files in memory. -/
abbrev Folder := List (Place × List Byte)

/-- What a name stands for in a directory. -/
inductive Entry where
  | directory (place : Place)
  | file (place : Place) (bytes : List Byte)
  | absent (place : Place)
  /-- No name can be so long. -/
  | tooLong
  deriving DecidableEq, Repr

namespace Folder

/-- The folder with the files of those names. -/
def ofList (files : List (String × List Byte)) : Folder :=
  files.filterMap fun (name, bytes) =>
    match Path.ofText name with
    | .ok p    =>
      some (((p.parents ++ [p.last]).filter (· ≠ ".")).foldl Place.enter ⟨p.base, []⟩, bytes)
    | .error _ => none

/-- Whether there is a directory at a place. -/
def hasDirectory (f : Folder) (p : Place) : Bool :=
  p.names.isEmpty || Place.systemDirectories.contains p || f.any fun (q, _) => p.holds q

/-- The contents of the file at a place. -/
def contents (f : Folder) (p : Place) : Option (List Byte) :=
  if p = .nullDevice then some [] else f.lookup p

/-- What a name stands for in a directory; one dot is the directory itself and
    two are the one that holds it. -/
def entry (f : Folder) (directory : Place) (name : String) : Entry :=
  if name = "." then .directory directory
  else if name = ".." then .directory directory.up
  else if Path.nameCapacity < name.utf8ByteSize then .tooLong
  else
    let p := directory.enter name
    if f.hasDirectory p then .directory p
    else match f.contents p with
      | some bytes => .file p bytes
      | none       => .absent p

/-- The directory that a name leads to. -/
def descend (f : Folder) (directory : Place) (name : String) : Except FileError Place :=
  match f.entry directory name with
  | .directory p => .ok p
  | .file _ _    => .error .notDirectory
  | .absent _    => .error .notFound
  | .tooLong     => .error .nameTooLong

/-- The directory that the names in front of the last one lead to. -/
def walk (f : Folder) (p : Path) : Except FileError Place :=
  p.parents.foldlM f.descend ⟨p.base, []⟩

/-- The contents of a file. -/
def read (f : Folder) (s : String) : Except FileError (List Byte) := do
  let p ← Path.ofText s
  match f.entry (← f.walk p) p.last with
  | .directory _  => .error .isDirectory
  | .file _ bytes => if p.slashed then .error .notDirectory else .ok bytes
  | .absent _     => .error .notFound
  | .tooLong      => .error .nameTooLong

/-- The folder with a file at a place; what goes to the null device is lost. -/
def put (f : Folder) (p : Place) (bytes : List Byte) : Folder :=
  if p = .nullDevice then f else (p, bytes) :: f.filter fun (q, _) => q ≠ p

/-- Dropping the files at one place loses none at another. -/
theorem lookup_filter_of_ne (f : Folder) {p q : Place} (h : q ≠ p) :
    (f.filter fun (r, _) => decide (r ≠ p)).lookup q = f.lookup q := by
  induction f with
  | nil => rfl
  | cons entry f ih =>
    obtain ⟨r, bytes⟩ := entry
    by_cases hr : r = p
    · rw [List.filter_cons_of_neg (by simpa using hr), ih, List.lookup_cons,
        beq_false_of_ne (hr ▸ h)]
    · rw [List.filter_cons_of_pos (by simpa using hr), List.lookup_cons, List.lookup_cons, ih]

/-- What was put somewhere is found there. -/
theorem contents_put (f : Folder) {p : Place} (bytes : List Byte) (h : p ≠ .nullDevice) :
    (f.put p bytes).contents p = some bytes := by
  simp [contents, put, h]

/-- Every other file stays as it is. -/
theorem contents_put_of_ne (f : Folder) {p q : Place} (bytes : List Byte) (h : q ≠ p) :
    (f.put p bytes).contents q = f.contents q := by
  unfold contents put
  split
  · rfl
  · split
    · rfl
    · rw [List.lookup_cons, beq_false_of_ne h, lookup_filter_of_ne f h]

/-- The folder with a file written.  A slash after the last name asks for a
    directory, which no file becomes, whatever the name stands for. -/
def write (f : Folder) (s : String) (bytes : List Byte) : Except FileError Folder := do
  let p ← Path.ofText s
  let directory ← f.walk p
  if p.slashed then .error .isDirectory
  else match f.entry directory p.last with
    | .directory _         => .error .isDirectory
    | .file q _ | .absent q => .ok (f.put q bytes)
    | .tooLong             => .error .nameTooLong

/-- The files of a folder that is the state. -/
def files : Files (StateM Folder) where
  read s := return (← get).read s
  write s bytes := do
    match (← get).write s bytes with
    | .ok f    => set f; return .ok ()
    | .error e => return .error e

end Folder

end Chip8
