import GoP2P.CoreError
import GoP2P.LexicalPath
import Mathlib.Data.Finmap

/-!
# Extracting deployment bundles

The file tree maps places to directories and files; it has no symbolic links.
Every change that a call makes to it is an event of the call, so the changes of
a call that fails half-way are known too.  `Disk` supplies the working
directory and the errors of the system, which may depend on the tree.
-/

namespace GoP2P.Node

open LexicalPath

inductive FileNode where
  | directory
  | file (mode : UInt64) (content : Bytes)
  deriving DecidableEq, Repr

abbrev FileTree := Finmap (fun _ : List Bytes => FileNode)

inductive DeployEvent where
  | createDirectory (path : List Bytes)
  | openFile (path : List Bytes) (mode : UInt64)
  | write (path : List Bytes) (content : Bytes)
  | delete (path : List Bytes)
  | saveProfile (profile : Bytes)
  deriving DecidableEq, Repr

structure Disk where
  getwd : Except CoreError Bytes
  mkdirError : FileTree → List Bytes → Option CoreError := fun _ _ => none
  openError : FileTree → List Bytes → Option CoreError := fun _ _ => none
  /-- The number of bytes that were written before the error. -/
  copyError : FileTree → List Bytes → Option (ℕ × CoreError) :=
    fun _ _ => none

/-- The working directory is `cwd`; asking for it may still fail. -/
def Disk.WorksIn (disk : Disk) (cwd : Bytes) : Prop :=
  ∀ answer, disk.getwd = .ok answer → answer = cwd

inductive TarTypeFlag where
  | reg
  | dir
  | symlink
  | link
  | other (flag : UInt8)
  deriving DecidableEq, Repr

structure TarEntry where
  name : Bytes
  typeflag : TarTypeFlag
  mode : UInt64
  content : Bytes
  deriving DecidableEq, Repr

/-- The entries a tar reader returns, and how the archive ends after them. -/
structure TarArchive where
  entries : List TarEntry
  ending : Except CoreError Unit := .ok ()

/-! ### The file system -/

section

variable (disk : Disk)

/-- Make the directories `done ++ [a]`, `done ++ [a, b]`, … that are missing. -/
def ensureBelow (tree : FileTree) (done : List Bytes) :
    List Bytes → Traced DeployEvent CoreError FileTree
  | [] => pure tree
  | name :: rest =>
      let path := done ++ [name]
      match tree.lookup path with
      | some .directory => ensureBelow tree path rest
      | some (.file _ _) => .fail (.op "mkdir" (text "not a directory"))
      | none =>
          match disk.mkdirError tree path with
          | some error => .fail error
          | none => do
              Traced.emit (.createDirectory path)
              ensureBelow (tree.insert path .directory) path rest

/-- `coreio.Local.EnsureDir` -/
def ensureDir (tree : FileTree) (path : Bytes) :
    Traced DeployEvent CoreError FileTree :=
  ensureBelow disk tree [] (place path)

def isDirectory (tree : FileTree) (path : List Bytes) : Bool :=
  path = [] ∨ tree.lookup path = some .directory

/-- `core.OpenFile` with `O_CREATE|O_WRONLY|O_TRUNC`; the mode of a file that
exists stays. -/
def openFile (tree : FileTree) (path : List Bytes) (mode : UInt64) :
    Traced DeployEvent CoreError FileTree :=
  if isDirectory tree path then
    .fail (.op "open" (text "is a directory"))
  else if !isDirectory tree path.dropLast then
    .fail (.op "open" (text "no such file or directory"))
  else
    match disk.openError tree path with
    | some error => .fail error
    | none => do
        Traced.emit (.openFile path mode)
        let kept :=
          match tree.lookup path with
          | some (.file old _) => old
          | _ => mode
        pure (tree.insert path (.file kept []))

def copyTo (tree : FileTree) (path : List Bytes) (content : Bytes) :
    Traced DeployEvent CoreError FileTree :=
  match disk.copyError tree path with
  | some (count, error) => do
      Traced.emit (.write path (content.take count))
      .fail error
  | none => do
      Traced.emit (.write path content)
      let mode :=
        match tree.lookup path with
        | some (.file old _) => old
        | _ => 0
      pure (tree.insert path (.file mode content))

def pathAbs (path : Bytes) : Outcome CoreError Bytes :=
  if isAbs path then
    .returned (clean path)
  else
    match disk.getwd with
    | .ok cwd => .returned (join [cwd, path])
    | .error error => .failed error

/-! ### Tarballs -/

def maxFileSize : ℕ := 100 * 1024 * 1024

def writeEntry (tree : FileTree) (fullPath : Bytes) (entry : TarEntry) :
    Traced DeployEvent CoreError FileTree := do
  let tree ← ensureDir disk tree (dir fullPath)
  let tree ← (openFile disk tree (place fullPath) entry.mode).mapError
    (.wrap "extractTarball" (text "failed to create file " ++ entry.name))
  let written := entry.content.take (maxFileSize + 1)
  let tree ← (copyTo disk tree (place fullPath) written).mapError
    (.wrap "extractTarball" (text "failed to write file " ++ entry.name))
  if written.length > maxFileSize then
    Traced.emit (.delete (place fullPath))
    .fail (.op "extractTarball"
      (text "file " ++ entry.name ++ text " exceeds maximum size"))
  else
    pure tree

/-- One turn of the loop over the entries, on the tree and the first executable
found so far. -/
def extractEntry (absDestDir : Bytes) (state : FileTree × Bytes)
    (entry : TarEntry) : Traced DeployEvent CoreError (FileTree × Bytes) := do
  let cleanName := clean entry.name
  Traced.failIf (isAbs cleanName = true) (.op "extractTarball"
    (text "invalid tar entry: absolute path not allowed: " ++ entry.name))
  Traced.failIf
    ((dotDot ++ [separator]).isPrefixOf cleanName = true ∨ cleanName = dotDot)
    (.op "extractTarball"
      (text "invalid tar entry: path traversal attempt: " ++ entry.name))
  let fullPath := clean (join [absDestDir, cleanName])
  Traced.failIf
    ((absDestDir ++ [separator]).isPrefixOf fullPath = false ∧
      fullPath ≠ absDestDir)
    (.op "extractTarball"
      (text "invalid tar entry: path escape attempt: " ++ entry.name))
  match entry.typeflag with
  | .dir => do
      let tree ← ensureDir disk state.1 fullPath
      pure (tree, state.2)
  | .reg => do
      let tree ← writeEntry disk state.1 fullPath entry
      pure (tree,
        if entry.mode &&& 0o111 ≠ 0 ∧ state.2 = [] then fullPath else state.2)
  | _ => pure state

def extractEntries (absDestDir : Bytes) (state : FileTree × Bytes) :
    List TarEntry → Traced DeployEvent CoreError (FileTree × Bytes)
  | [] => pure state
  | entry :: rest => do
      let state ← extractEntry disk absDestDir state entry
      extractEntries absDestDir state rest

def extractTarball (tree : FileTree) (archive : TarArchive) (destDir : Bytes) :
    Traced DeployEvent CoreError Bytes := do
  let absolute ← Traced.lift ((pathAbs disk destDir).mapError
    (.wrap "extractTarball" (text "failed to resolve destination directory")))
  let absDestDir := clean absolute
  let tree ← ensureDir disk tree absDestDir
  let state ← extractEntries disk absDestDir (tree, []) archive.entries
  Traced.lift (.ofExcept archive.ending)
  pure state.2

end

/-! ### Bundles -/

inductive BundleType where
  | profile
  | miner
  | full
  | other (name : Bytes)
  deriving DecidableEq, Repr

structure Bundle where
  type : BundleType := .other []
  name : Bytes := []
  data : Bytes := []
  checksum : Bytes := []
  deriving DecidableEq, Repr

/-- A decrypted bundle: its root file system as a tarball, and its config. -/
structure Tim where
  toTar : Except CoreError TarArchive
  config : Bytes

structure BundlePrimitives where
  /-- The hexadecimal SHA-256 of the data. -/
  calculateChecksum : Bytes → Bytes
  /-- `tim.FromSigil` on the data and the password. -/
  fromSigil : Bytes → Bytes → Except CoreError Tim
  trim : Bytes → Bytes

def isJSON (primitives : BundlePrimitives) (data : Bytes) : Bool :=
  match (primitives.trim data).head? with
  | none => false
  | some first => first == 0x7b || first == 0x5b

def extractProfileBundle (primitives : BundlePrimitives) (bundle : Bundle)
    (password : Bytes) : Outcome CoreError Bytes :=
  if primitives.calculateChecksum bundle.data ≠ bundle.checksum then
    .failed (.op "ExtractProfileBundle"
      (text "checksum mismatch - bundle may be corrupted"))
  else if isJSON primitives bundle.data then
    .returned bundle.data
  else
    match primitives.fromSigil bundle.data password with
    | .ok t => .returned t.config
    | .error error =>
        .failed (.wrap "ExtractProfileBundle"
          (text "failed to decrypt bundle") error)

def extractMinerBundle (primitives : BundlePrimitives) (disk : Disk)
    (tree : FileTree) (bundle : Bundle) (password destDir : Bytes) :
    Traced DeployEvent CoreError (Bytes × Bytes) := do
  Traced.failIf (primitives.calculateChecksum bundle.data ≠ bundle.checksum)
    (.op "ExtractMinerBundle"
      (text "checksum mismatch - bundle may be corrupted"))
  let t ← Traced.lift
    ((Outcome.ofExcept (primitives.fromSigil bundle.data password)).mapError
      (.wrap "ExtractMinerBundle" (text "failed to decrypt bundle")))
  let tarData ← Traced.lift ((Outcome.ofExcept t.toTar).mapError
    (.wrap "ExtractMinerBundle" (text "failed to convert rootfs to tar")))
  let minerPath ← (extractTarball disk tree tarData destDir).mapError
    (.wrap "ExtractMinerBundle" (text "failed to extract tarball"))
  pure (minerPath, t.config)

end GoP2P.Node
