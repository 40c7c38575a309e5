/-
`_load_library`: the file or the name the native library is opened by. Bare names, `pkg-config` and a
list of directories are asked in turn; the documented order knows the directories only.
-/
import Mathlib.Data.List.Basic

namespace Nwep.Loader

/-! ## Paths -/

/-- A `Path` as `pathlib` keeps it: the drive and root, empty for a relative path, and the components. -/
structure Path where
  anchor : String
  parts : List String
deriving Repr, DecidableEq

namespace Path

/-- `self / name`. -/
def div (p : Path) (name : String) : Path := { p with parts := p.parts ++ [name] }

instance : HDiv Path String Path := ⟨div⟩

/-- `self.parent`. -/
def parent (p : Path) : Path := { p with parts := p.parts.dropLast }

/-- `self.parents[i]`. -/
def parents (p : Path) (i : Nat) : Option Path :=
  if i < p.parts.length then some { p with parts := p.parts.take (p.parts.length - 1 - i) } else none

/-- `self.name`. -/
def name (p : Path) : String := p.parts.getLastD ""

/-- `str(self)` is a name without a separator, which `dlopen` looks up instead of opening it. -/
def Bare (p : Path) : Prop := p.anchor = "" ∧ p.parts.length = 1

instance (p : Path) : Decidable p.Bare := inferInstanceAs (Decidable (_ ∧ _))

theorem name_div (p : Path) (s : String) : (p / s).name = s := by
  show (p.parts ++ [s]).getLastD "" = s
  rw [List.getLastD_concat]

theorem length_div (p : Path) (s : String) : (p / s).parts.length = p.parts.length + 1 := by
  show (p.parts ++ [s]).length = _
  rw [List.length_append, List.length_singleton]

theorem not_bare_div_div (p : Path) (s t : String) : ¬ (p / s / t).Bare := by
  intro h
  have hlen := h.2
  rw [length_div, length_div] at hlen
  omega

end Path

/-! ## The environment -/

/-- `sys.platform`; `linux` is every value that starts with it. -/
inductive Platform where
  | win32 | darwin | linux
  | other (name : String)
deriving Repr, DecidableEq

/-- How running `pkg-config` ends: not started or not in time, with output that is not text, or with a
return code and the directory it prints, none for blank output. -/
inductive PkgConfig where
  | failed
  | undecodable
  | exited (returncode : Int) (libdir : Option Path)
deriving Repr, DecidableEq

/-- How `stat` of a path ends. A missing file or a path through a file is absent; other errors stay errors, for a
directory on the way that may not be searched, or as for a name that is too long. -/
inductive Stat where
  | found | absent | denied | failed
deriving Repr, DecidableEq

/-- What the loader can look at. -/
structure Env where
  /-- `NWEP_LIB_DIR`, none when it is unset or empty. -/
  libDir : Option Path
  nwepLib : Option String
  platform : Platform
  /-- `LOCALAPPDATA`, none when it is unset or empty. -/
  localAppData : Option Path
  programFiles : Option Path
  /-- `Path(__file__).resolve()`. -/
  file : Path
  /-- None when the working directory was removed. -/
  cwd : Option Path
  /-- None when no home directory can be determined. -/
  home : Option Path
  pkgConfig : PkgConfig
  stat : Path → Stat
  /-- The names the system loader knows. -/
  knows : String → Bool

inductive Exc where
  | osError | fileNotFoundError | permissionError | indexError | runtimeError | unicodeDecodeError
deriving Repr, DecidableEq

/-- `FileNotFoundError` and `PermissionError` are subclasses. -/
def Exc.isOSError : Exc → Bool
  | osError | fileNotFoundError | permissionError => true
  | indexError | runtimeError | unicodeDecodeError => false

/-- What was opened. -/
inductive Loaded where
  | name (name : String)
  | file (path : Path)
deriving Repr, DecidableEq

/-! ## Names and directories -/

/-- `_lib_names`. -/
def libNames (platform : Platform) (preferCore : Bool) : List String :=
  let (pre, suffix) := match platform with
    | .win32 => ("", ".dll")
    | .darwin => ("lib", ".dylib")
    | .linux | .other _ => ("lib", ".so")
  let bases := if preferCore then ["nwep_core", "nwep"] else ["nwep", "nwep_core"]
  bases.map fun base => pre ++ base ++ suffix

namespace Env

variable (c : Env)

def preferCore : Bool := ["core", "core_only", "nwep_core"].contains (c.nwepLib.getD "").toLower

def names : List String := libNames c.platform c.preferCore

/-- `_installer_default_dirs`. -/
def installerDefaultDirs : Except Exc (List Path) :=
  match c.platform with
  | .win32 =>
    let dirs := match c.localAppData with
      | some localAppData =>
        let pre := localAppData / "Programs" / "nwep"
        [pre / "lib", pre / "bin"]
      | none => []
    let pre := c.programFiles.getD ⟨"C:\\", ["Program Files"]⟩ / "nwep"
    .ok (dirs ++ [pre / "lib", pre / "bin"])
  | .linux =>
    match c.home with
    | some home => .ok [home / ".local" / "lib", ⟨"/", ["usr", "local", "lib"]⟩]
    | none => .error .runtimeError
  | .darwin | .other _ => .ok []

/-- A base, its `lib` and its `bin`. -/
def expand (base : Path) : List Path := [base, base / "lib", base / "bin"]

/-- `_candidate_dirs`. -/
def candidateDirs : Except Exc (List Path) := do
  let pkgDir := c.file.parent
  let repoRoot ← match c.file.parents 3 with
    | some root => .ok root
    | none => .error .indexError
  let cwd ← match c.cwd with
    | some cwd => .ok cwd
    | none => .error .fileNotFoundError
  let bases := c.libDir.toList ++ [pkgDir, pkgDir / "_libs", repoRoot / "zig-out", cwd / "zig-out"]
  let installer ← c.installerDefaultDirs
  return bases.flatMap expand ++ installer

/-- `_pkgconfig_libdir`. -/
def pkgconfigLibdir : Except Exc (Option Path) :=
  match c.platform, c.pkgConfig with
  | .linux, .failed => .ok none
  | .linux, .undecodable => .error .unicodeDecodeError
  | .linux, .exited returncode libdir => .ok (if returncode = 0 then libdir else none)
  | _, _ => .ok none

/-! ## Loading -/

/-- `path.exists()`, which takes no more than an absent file for one. -/
def present (path : Path) : Except Exc Bool :=
  match c.stat path with
  | .found => .ok true
  | .absent => .ok false
  | .denied => .error .permissionError
  | .failed => .error .osError

/-- The first path that exists, unless `exists` raises before it. -/
def search : List Path → Except Exc (Option Path)
  | [] => .ok none
  | path :: paths => do
    if ← c.present path then return some path
    else search paths

def files (directory : Path) : List Path := c.names.map fun name => directory / name

/-- The first name that stands in the directory. -/
def findIn (directory : Path) : Except Exc (Option Path) := c.search (c.files directory)

/-- The first directory with one. -/
def findAmong : List Path → Except Exc (Option Path)
  | [] => .ok none
  | directory :: directories => do
    match ← c.findIn directory with
    | some path => return some path
    | none => findAmong directories

/-- `ffi.dlopen(str(path))` of a path that exists. -/
def dlopen (path : Path) : Except Exc Loaded :=
  if path.Bare then
    if c.knows path.name then .ok (.name path.name) else .error .osError
  else .ok (.file path)

/-- The directories' turn. -/
def loadFromDirs : Except Exc Loaded := do
  let dirs ← c.candidateDirs
  match ← c.findAmong dirs with
  | some path => c.dlopen path
  | none => .error .osError

/-- The turn of `pkg-config`, then the directories'. -/
def loadFromPkgConfig : Except Exc Loaded := do
  let pcDir ← c.pkgconfigLibdir
  match ← c.findAmong pcDir.toList with
  | some path => c.dlopen path
  | none => c.loadFromDirs

/-- `_load_library`: bare names first, where `NWEP_LIB_DIR` is not set. -/
def loadLibrary : Except Exc Loaded :=
  match if c.libDir.isNone then c.names.find? c.knows else none with
  | some name => .ok (.name name)
  | none => c.loadFromPkgConfig

end Env

end Nwep.Loader
