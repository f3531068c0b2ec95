/-
Module: WardleyMaps.Files.Directory
Purpose: A directory of files as a value, with the faults that reading and writing may meet.
Main exports: Directory, WriteTrouble, FileFault, WriteFault, Directory.read, Directory.write,
  Directory.replace
-/
import WardleyMaps.Files.Utf8
import WardleyMaps.Text.Cut

namespace WardleyMaps

/-!
Files are reached by paths from a working directory, or from the outermost folder if they begin with
a slash. A path is followed name by name, so that every name but the last must be that of a folder.
Reading gives the bytes of a file, writing replaces them, and both say why they cannot.

A file is empty once it was opened to be written, and its new bytes come after that. So a write can
fail at two times: before the file is opened, which leaves it as it was, and after that, which
leaves the first of the new bytes. Where this happens is a matter of the directory
(`Directory.troubles`), and it stays as it is while a program runs.

Left out are files that stand but cannot be read, folders in which nothing can be made, links, and
devices: every place has one path, and holds a folder or the bytes that were put there last.
-/

/-- The names that lead to a file or a folder. -/
abbrev Path := List Text

/-- What stands at a path. -/
inductive Node where
  | file (bytes : List UInt8)
  | folder
deriving DecidableEq, Repr

/-- What goes wrong when a file is written: it cannot be opened for that, or it is opened and only
so many of the bytes are stored before the system gives up. -/
inductive WriteTrouble where
  | refused
  | interrupted (stored : Nat)
deriving DecidableEq, Repr

/-- What stands at the paths from the outermost folder, the path of the working directory, and the
places at which writing fails. -/
structure Directory where
  here : Path := []
  nodes : List (Path × Node)
  troubles : List (Path × WriteTrouble) := []
deriving DecidableEq, Repr

/-- Why a file cannot be reached. -/
inductive FaultCause where
  | notFound
  | exists
  | notFolder
  | isFolder
  | nameTooLong
  | notPermitted
  | noSpace
  | nullCharacter
deriving DecidableEq, Repr

/-- A cause, and the path as it was asked for. -/
structure FileFault where
  cause : FaultCause
  path : Text
deriving DecidableEq, Repr

/-- The number and the wording of a cause. -/
def FaultCause.message : FaultCause → String
  | .notFound => "[Errno 2] No such file or directory"
  | .exists => "[Errno 17] File exists"
  | .notFolder => "[Errno 20] Not a directory"
  | .isFolder => "[Errno 21] Is a directory"
  | .nameTooLong => "[Errno 36] File name too long"
  | .notPermitted => "[Errno 13] Permission denied"
  | .noSpace => "[Errno 28] No space left on device"
  | .nullCharacter => "embedded null byte"

/-- The name of the kind of a cause. -/
def FaultCause.kind : FaultCause → String
  | .notFound => "FileNotFoundError"
  | .exists => "FileExistsError"
  | .notFolder => "NotADirectoryError"
  | .isFolder => "IsADirectoryError"
  | .nameTooLong => "OSError"
  | .notPermitted => "PermissionError"
  | .noSpace => "OSError"
  | .nullCharacter => "ValueError"

/-- The wording of a fault. A path with a null character is not shown, and neither is that of a file
that was opened already. -/
def FileFault.message (f : FileFault) : String :=
  if f.cause = .nullCharacter || f.cause = .noSpace then f.cause.message
  else s!"{f.cause.message}: {String.ofList (Text.quoted f.path)}"

/-- A write that came to no good end: why, and the directory as it was left. -/
structure WriteFault where
  fault : FileFault
  directory : Directory
deriving DecidableEq, Repr

/-- The fault of a path that no file can have, since it holds a null character. -/
def unusablePath? (t : Text) : Option FileFault :=
  if t.contains '\x00' then some { cause := .nullCharacter, path := t } else none

namespace Directory

open Text

/-- What stands at a path. -/
def node? (d : Directory) (p : Path) : Option Node :=
  if p = [] then some .folder else (d.nodes.find? (·.1 = p)).map Prod.snd

/-- What goes wrong when the file at a path is written, if anything does. -/
def trouble? (d : Directory) (p : Path) : Option WriteTrouble :=
  (d.troubles.find? (·.1 = p)).map Prod.snd

/-- Replace what stands at a path. -/
def set (d : Directory) (p : Path) (n : Node) : Directory :=
  if d.nodes.any (·.1 = p) then
    { d with nodes := d.nodes.map fun entry => if entry.1 = p then (p, n) else entry }
  else { d with nodes := d.nodes ++ [(p, n)] }

/-- Take away what stands at a path and below it. -/
def remove (d : Directory) (p : Path) : Directory :=
  { d with nodes := d.nodes.filter fun entry => !p.isPrefixOf entry.1 }

/-- Make folders of the names of a path that lead to its last one. -/
def makeParents (d : Directory) (p : Path) : Directory :=
  (List.range p.length).foldl
    (fun d n => if (d.node? (p.take n)).isNone then d.set (p.take n) .folder else d) d

/-- Put something at a path and make the folders that lead there. -/
def put (d : Directory) (p : Path) (n : Node) : Directory :=
  (d.makeParents p).set p n

/-- The names of a text between slashes. -/
def names (t : Text) : List Text :=
  t.splitOn '/'

/-- The names that lead from the outermost folder to where a path leads. -/
def route (d : Directory) (t : Text) : List Text :=
  if startsWith ['/'] t then names t else d.here ++ names t

/-- The most bytes that a name may have. -/
def maxNameBytes : Nat := 255

/-- The most bytes that a path may have. -/
def maxPathBytes : Nat := 4095

/-- What a name does to the path before it. An empty name and a single point stay where they are,
two points go up; above the outermost folder there is nothing. -/
def passed (path : Path) (name : Text) : Path :=
  if name = [] || name = ['.'] then path
  else if name = ['.', '.'] then path.dropLast
  else path ++ [name]

/-- Go from a folder where a name leads. Only the name of something that is to be found there has a
greatest length. -/
def enter (d : Directory) (folder : Path) (name : Text) : Except FaultCause Path :=
  match d.node? folder with
  | none => .error .notFound
  | some (.file _) => .error .notFolder
  | some .folder =>
      if maxNameBytes < (Utf8.encode name).length then .error .nameTooLong
      else .ok (passed folder name)

/-- Go from a folder along the names of a path. -/
def walk (d : Directory) (folder : Path) (names : List Text) : Except FaultCause Path :=
  names.foldlM d.enter folder

/-- The path that a text leads to. -/
def resolve (d : Directory) (t : Text) : Except FileFault Path :=
  let found : Except FaultCause Path :=
    if (unusablePath? t).isSome then .error .nullCharacter
    else if t = [] then .error .notFound
    else if maxPathBytes < (Utf8.encode t).length then .error .nameTooLong
    else d.walk [] (d.route t)
  found.mapError fun cause => { cause, path := t }

/-- The bytes of a file. -/
def read (d : Directory) (t : Text) : Except FileFault (List UInt8) := do
  match d.node? (← d.resolve t) with
  | none => .error { cause := .notFound, path := t }
  | some .folder => .error { cause := .isFolder, path := t }
  | some (.file bytes) => .ok bytes

/-- The place at which a file can be opened to be written, be it there or not. -/
def openPlace (d : Directory) (t : Text) : Except FileFault Path := do
  let p ← d.resolve t
  if d.node? p = some .folder then .error { cause := .isFolder, path := t }
  else if d.trouble? p = some .refused then .error { cause := .notPermitted, path := t }
  else .ok p

/-- Replace the bytes of a file or make a file of them. If the write is interrupted, the file was
emptied by then and holds the first of the bytes. -/
def write (d : Directory) (t : Text) (bytes : List UInt8) : Except WriteFault Directory :=
  match d.openPlace t with
  | .error fault => .error { fault, directory := d }
  | .ok p =>
      match d.trouble? p with
      | some (.interrupted stored) =>
          .error
            { fault := { cause := .noSpace, path := t }
              directory := d.set p (.file (bytes.take stored)) }
      | _ => .ok (d.set p (.file bytes))

/-- Whether something stands at a path. -/
def present (d : Directory) (t : Text) : Bool :=
  match d.resolve t with
  | .ok p => (d.node? p).isSome
  | .error _ => false

/-- Make a folder unless it is there. -/
def ensureFolder (d : Directory) (t : Text) : Except FileFault Directory := do
  let p ← d.resolve t
  match d.node? p with
  | some .folder => .ok d
  | some (.file _) => .error { cause := .exists, path := t }
  | none => .ok (d.set p .folder)

/-- The folders that a path names on its way, from the outermost to the one that it ends in. -/
def foldersOf (t : Text) : List Text :=
  let passed := (names t).dropLast
  ((List.range passed.length).map fun n => List.intercalate ['/'] (passed.take (n + 1))).filter
    (· ≠ [])

/-- Make the folders that a path leads through unless they are there. -/
def ensureFolders (d : Directory) (t : Text) : Except FileFault Directory := do
  let folders := foldersOf t
  let d ← folders.dropLast.foldlM (fun d folder =>
    if d.present folder then .ok d else d.ensureFolder folder) d
  match folders.getLast? with
  | none => .ok d
  | some folder => d.ensureFolder folder

/-- Put something where a path leads, in the place of what stands there and below, and make the
folders that it leads through. The working directory itself stays. -/
def replace (d : Directory) (t : Text) (n : Node) : Except FileFault Directory := do
  let d ← d.ensureFolders t
  let p ← d.resolve t
  if p.isPrefixOf d.here then .error { cause := .isFolder, path := t }
  else .ok ((d.remove p).set p n)

/-- Take away a file. -/
def delete (d : Directory) (t : Text) : Except FileFault Directory := do
  let p ← d.resolve t
  match d.node? p with
  | none => .error { cause := .notFound, path := t }
  | some .folder => .error { cause := .isFolder, path := t }
  | some (.file _) => .ok (d.remove p)

/-- Write bytes into a file from an offset on; what is missing before it becomes zeros. -/
def writeAt (d : Directory) (p : Path) (offset : Nat) (bytes : List UInt8) : Directory :=
  match d.node? p with
  | some (.file old) =>
      let kept := old.take offset ++ List.replicate (offset - old.length) 0
      d.set p (.file (kept ++ bytes ++ old.drop (offset + bytes.length)))
  | _ => d

/-- The path that names lead to, whether or not they are there: names that lead nowhere are left
out, and two points take back the name before. -/
def follow (names : List Text) : Path :=
  names.foldl passed []

/-- The absolute path of a text, without names that lead nowhere. Where a text begins with two
slashes, and no more, they are kept. -/
def absolute (d : Directory) (t : Text) : Text :=
  let path := '/' :: List.intercalate ['/'] (follow (d.route t))
  if startsWith ['/', '/'] t && !startsWith ['/', '/', '/'] t then '/' :: path else path

/-- The files below the working directory, by the texts of their paths from there. -/
def files (d : Directory) : List (Text × List UInt8) :=
  d.nodes.filterMap fun (p, n) =>
    match n with
    | .file bytes =>
        if d.here.isPrefixOf p then
          some (List.intercalate ['/'] (p.drop d.here.length), bytes)
        else none
    | .folder => none

end Directory

/-- Why the text of a file cannot be had: the file cannot be reached, or its bytes are no text. -/
inductive ReadFault where
  | file (fault : FileFault)
  | bytes (error : Utf8.DecodeError)
deriving DecidableEq, Repr

/-- The wording of a fault. -/
def ReadFault.message : ReadFault → String
  | .file fault => fault.message
  | .bytes error => error.message

/-- The text of a file. -/
def Directory.readText (d : Directory) (t : Text) : Except ReadFault Text := do
  let bytes ← (d.read t).mapError .file
  (Utf8.decode bytes).mapError .bytes

/-- Replace the text of a file. -/
def Directory.writeText (d : Directory) (t content : Text) : Except WriteFault Directory :=
  d.write t (Utf8.encode content)

end WardleyMaps
