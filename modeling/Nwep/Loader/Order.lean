/-
The documented order (`NWEP_LIB_DIR`, a bundled copy, the repository's `zig-out`, the installer's default
locations, then anything else), and when the loader follows it.
-/
import Nwep.Loader

namespace Nwep.Loader.Env

variable (c : Env)

/-! ## What exists -/

def Found (path : Path) : Prop := c.stat path = .found

instance : DecidablePred c.Found := fun _ => inferInstanceAs (Decidable (_ = _))

/-- `exists` raises for the path. -/
def Raises (path : Path) : Prop := c.stat path = .denied ∨ c.stat path = .failed

instance : DecidablePred c.Raises := fun _ => inferInstanceAs (Decidable (_ ∨ _))

/-- The paths that the directories stand for, in the order they are looked at. -/
def paths (directories : List Path) : List Path := directories.flatMap c.files

/-- The first path that exists. -/
def firstIn (directories : List Path) : Option Path := (c.paths directories).find? c.Found

/-- Before the first path that exists there is one for which `exists` raises. -/
def BlockedAt (ps : List Path) : Prop := ∃ path ∈ ps.takeWhile fun path => ¬ c.Found path, c.Raises path

instance : DecidablePred c.BlockedAt := fun ps => inferInstanceAs (Decidable (∃ path ∈ ps.takeWhile _, _))

def Blocked (directories : List Path) : Prop := c.BlockedAt (c.paths directories)

instance : DecidablePred c.Blocked := fun _ => inferInstanceAs (Decidable (c.BlockedAt _))

/-! ## The documented order -/

/-- The directories of the first three documented sources; the package may lie too shallow for a
repository. -/
def firstDirs : List Path :=
  (c.libDir.toList ++ [c.file.parent, c.file.parent / "_libs"] ++
    ((c.file.parents 3).map (· / "zig-out")).toList).flatMap
    expand

/-- The installer's default locations; without a home directory the system's remains. -/
def installerDirs : List Path :=
  match c.installerDefaultDirs with
  | .ok dirs => dirs
  | .error _ => [⟨"/", ["usr", "local", "lib"]⟩]

/-- The undocumented directories. -/
def cwdDirs : List Path := (c.cwd.map (· / "zig-out")).toList.flatMap expand

def firstFile : Option Path := c.firstIn c.firstDirs

def cwdFile : Option Path := c.firstIn c.cwdDirs

/-- The first existing candidate in the documented order. -/
def documented : Option Path := c.firstIn (c.firstDirs ++ c.installerDirs)

/-- What the other sources provide. -/
inductive Other (c : Env) : Loaded → Prop where
  | name (name) : name ∈ c.names → c.knows name = true → Other c (.name name)
  | pkgConfig (dir name) : c.pkgconfigLibdir = .ok (some dir) → name ∈ c.names → c.Found (dir / name) →
      Other c (.file (dir / name))
  | cwd (dir name) : dir ∈ c.cwdDirs → name ∈ c.names → c.Found (dir / name) → Other c (.file (dir / name))

/-- Without a documented candidate: something another source provides, or `OSError` when none does. -/
def Fallback (r : Except Exc Loaded) : Prop :=
  (∃ l, c.Other l ∧ r = .ok l) ∨ ((∀ l, ¬ c.Other l) ∧ ∃ e, r = .error e ∧ e.isOSError = true)

/-- The outcome is the documented one: the first candidate, the other sources without one. -/
def Meets (r : Except Exc Loaded) : Prop :=
  match c.documented with
  | some path => r = .ok (.file path)
  | none => c.Fallback r

variable {c}

theorem fallback_ok {l : Loaded} : c.Fallback (.ok l) ↔ c.Other l := by
  constructor
  · rintro (⟨l', ho, h⟩ | ⟨-, e, h, -⟩)
    · cases h; exact ho
    · cases h
  · exact fun h => .inl ⟨l, h, rfl⟩

theorem fallback_error {e : Exc} : c.Fallback (.error e) ↔ (∀ l, ¬ c.Other l) ∧ e.isOSError = true := by
  constructor
  · rintro (⟨l, -, h⟩ | ⟨hn, e', h, hos⟩)
    · cases h
    · cases h; exact ⟨hn, hos⟩
  · exact fun h => .inr ⟨h.1, e, rfl, h.2⟩

/-! ## Searching -/

theorem firstIn_append (dirs dirs' : List Path) :
    c.firstIn (dirs ++ dirs') = (c.firstIn dirs).or (c.firstIn dirs') := by
  unfold firstIn paths
  rw [List.flatMap_append, List.find?_append]

theorem firstIn_some {dirs : List Path} {path : Path} (h : c.firstIn dirs = some path) :
    ∃ dir ∈ dirs, ∃ name ∈ c.names, path = dir / name ∧ c.Found path := by
  have hfound := List.find?_some (p := fun path => decide (c.Found path)) h
  obtain ⟨dir, hdir, hpath⟩ := List.mem_flatMap.1 (List.mem_of_find?_eq_some h)
  obtain ⟨name, hn, hname⟩ := List.mem_map.1 hpath
  exact ⟨dir, hdir, name, hn, hname.symm, of_decide_eq_true hfound⟩

theorem firstIn_none {dirs : List Path} (h : c.firstIn dirs = none) {dir : Path} (hd : dir ∈ dirs) {name : String}
    (hn : name ∈ c.names) : ¬ c.Found (dir / name) := by
  have := List.find?_eq_none.1 h _ (List.mem_flatMap.2 ⟨dir, hd, List.mem_map_of_mem hn⟩)
  exact fun hf => this (decide_eq_true hf)

section Search

variable {path : Path} {ps : List Path}

theorem not_blockedAt_found (h : c.Found path) : ¬ c.BlockedAt (path :: ps) := by
  rintro ⟨q, hm, -⟩
  rw [List.takeWhile_cons_of_neg (by simpa using h)] at hm
  cases hm

theorem blockedAt_absent (h : c.stat path = .absent) : c.BlockedAt (path :: ps) ↔ c.BlockedAt ps := by
  have hnot : ¬ c.Found path := fun hf => by rw [Found, h] at hf; cases hf
  have hquiet : ¬ c.Raises path := fun hr => by rw [Raises, h] at hr; rcases hr with hr | hr <;> cases hr
  unfold BlockedAt
  rw [List.takeWhile_cons_of_pos (by simpa using hnot), List.exists_mem_cons_iff, or_iff_right hquiet]

theorem blockedAt_raises (h : c.Raises path) : c.BlockedAt (path :: ps) := by
  have hnot : ¬ c.Found path := fun hf => by rw [Raises, hf] at h; rcases h with h | h <;> cases h
  refine ⟨path, ?_, h⟩
  rw [List.takeWhile_cons_of_pos (by simpa using hnot)]
  exact List.mem_cons_self

/-- How `exists` ends. -/
theorem present_cases (path : Path) :
    (c.Found path ∧ c.present path = .ok true) ∨ (c.stat path = .absent ∧ c.present path = .ok false) ∨
    (c.Raises path ∧ ∃ e, c.present path = .error e ∧ e.isOSError = true) := by
  unfold present Found Raises
  cases c.stat path with
  | found => exact .inl ⟨rfl, rfl⟩
  | absent => exact .inr (.inl ⟨rfl, rfl⟩)
  | denied => exact .inr (.inr ⟨.inl rfl, _, rfl, rfl⟩)
  | failed => exact .inr (.inr ⟨.inr rfl, _, rfl, rfl⟩)

theorem search_cons : c.search (path :: ps) = (do if ← c.present path then return some path else c.search ps) := rfl

/-- A search raises where a path before the first that exists does, always an `OSError`, and else finds that path. -/
theorem search_cases (ps : List Path) :
    (c.BlockedAt ps ∧ ∃ e, c.search ps = .error e ∧ e.isOSError = true) ∨
    (¬ c.BlockedAt ps ∧ c.search ps = .ok (ps.find? c.Found)) := by
  induction ps with
  | nil => exact .inr ⟨fun ⟨_, hm, _⟩ => (by cases hm), rfl⟩
  | cons path ps ih =>
    rw [search_cons]
    rcases c.present_cases path with ⟨hs, hp⟩ | ⟨hs, hp⟩ | ⟨hs, e, hp, he⟩
    · rw [hp, List.find?_cons_of_pos (by simpa using hs)]
      exact .inr ⟨not_blockedAt_found hs, rfl⟩
    · have hnot : ¬ c.Found path := fun hf => by rw [Found, hs] at hf; cases hf
      rw [hp, blockedAt_absent hs, List.find?_cons_of_neg (by simpa using hnot)]
      exact ih
    · rw [hp]
      exact .inl ⟨blockedAt_raises hs, e, rfl, he⟩

theorem search_append (ps qs : List Path) :
    c.search (ps ++ qs) = (c.search ps).bind fun found => match found with
      | some path => .ok (some path)
      | none => c.search qs := by
  induction ps with
  | nil => rfl
  | cons path ps ih =>
    rw [List.cons_append, search_cons, search_cons]
    rcases hp : c.present path with e | there
    · rfl
    · cases there with
      | true => rfl
      | false => exact ih

/-- The loops over the directories and the names look at one path after the other. -/
theorem findAmong_eq (dirs : List Path) : c.findAmong dirs = c.search (c.paths dirs) := by
  induction dirs with
  | nil => rfl
  | cons dir dirs ih =>
    show c.findAmong (dir :: dirs) = c.search (c.files dir ++ c.paths dirs)
    rw [search_append, ← ih]; rfl

theorem findAmong_blocked {dirs : List Path} (h : c.Blocked dirs) :
    ∃ e, c.findAmong dirs = .error e ∧ e.isOSError = true := by
  rw [findAmong_eq]
  exact ((search_cases _).resolve_right fun hr => hr.1 h).2

theorem findAmong_free {dirs : List Path} (h : ¬ c.Blocked dirs) : c.findAmong dirs = .ok (c.firstIn dirs) := by
  rw [findAmong_eq]
  exact ((search_cases _).resolve_left fun hl => h hl.1).2

end Search

/-- A file under the working directory has components enough to be opened by its path. -/
theorem cwdFile_some {path : Path} (h : c.cwdFile = some path) : ¬ path.Bare ∧ c.Other (.file path) := by
  obtain ⟨dir, hdir, name, hn, rfl, hf⟩ := firstIn_some h
  refine ⟨?_, .cwd dir name hdir hn hf⟩
  obtain ⟨base, hbase, hd⟩ := List.mem_flatMap.1 hdir
  obtain ⟨cwd, -, rfl⟩ := Option.map_eq_some_iff.1 (Option.mem_toList.1 hbase)
  simp only [expand, List.mem_cons, List.not_mem_nil, or_false] at hd
  rcases hd with rfl | rfl | rfl <;> exact Path.not_bare_div_div _ _ _

theorem dlopen_file {path : Path} (h : ¬ path.Bare) : c.dlopen path = .ok (.file path) := if_neg h

/-- Only a path with a separator is opened as the file it names. -/
theorem dlopen_eq_file {path q : Path} : c.dlopen q = .ok (.file path) ↔ q = path ∧ ¬ path.Bare := by
  unfold dlopen
  by_cases hb : q.Bare
  · rw [if_pos hb]
    constructor
    · intro h
      split at h <;> cases h
    · rintro ⟨rfl, hn⟩
      exact absurd hb hn
  · rw [if_neg hb]
    constructor
    · intro h; cases h; exact ⟨rfl, hb⟩
    · rintro ⟨rfl, -⟩; rfl

/-! ## The stages -/

variable (c)

/-- A bare name is opened before anything else is asked. -/
def Named : Prop := c.libDir = none ∧ ∃ name ∈ c.names, c.knows name = true

/-- The output of `pkg-config` is not text. -/
def Undecodable : Prop := c.platform = .linux ∧ c.pkgConfig = .undecodable

/-- The directory `pkg-config` prints. -/
def pkgDirs : List Path :=
  match c.pkgconfigLibdir with
  | .ok dir => dir.toList
  | .error _ => []

/-- The file `pkg-config` leads to. -/
def pkgFile : Option Path := c.firstIn c.pkgDirs

/-- The directories can be listed. -/
def Located : Prop := 4 ≤ c.file.parts.length ∧ c.cwd ≠ none ∧ (c.platform = .linux → c.home ≠ none)

variable {c}

theorem loadLibrary_named (h : c.Named) : ∃ name ∈ c.names, c.knows name = true ∧ c.loadLibrary = .ok (.name name) := by
  obtain ⟨hdir, name, hn, hk⟩ := h
  unfold loadLibrary
  cases hf : c.names.find? c.knows with
  | none =>
    have := List.find?_eq_none.1 hf name hn
    exact absurd hk this
  | some found =>
    rw [hdir]
    exact ⟨found, List.mem_of_find?_eq_some hf, List.find?_some hf, rfl⟩

theorem loadLibrary_unnamed (h : ¬ c.Named) : c.loadLibrary = c.loadFromPkgConfig := by
  unfold loadLibrary
  cases hdir : c.libDir with
  | some dir => rfl
  | none =>
    cases hf : c.names.find? c.knows with
    | none => rfl
    | some found => exact absurd ⟨hdir, found, List.mem_of_find?_eq_some hf, List.find?_some hf⟩ h

theorem pkgconfigLibdir_ok (h : ¬ c.Undecodable) : ∃ dir, c.pkgconfigLibdir = .ok dir := by
  unfold pkgconfigLibdir
  split
  · exact ⟨_, rfl⟩
  · exact absurd ⟨by assumption, by assumption⟩ h
  · exact ⟨_, rfl⟩
  · exact ⟨_, rfl⟩

theorem loadFromPkgConfig_undecodable (h : c.Undecodable) : c.loadFromPkgConfig = .error .unicodeDecodeError := by
  have hlib : c.pkgconfigLibdir = .error .unicodeDecodeError := by
    unfold pkgconfigLibdir
    rw [h.1, h.2]
  unfold loadFromPkgConfig
  rw [hlib]
  rfl

theorem loadFromPkgConfig_eq (h : ¬ c.Undecodable) :
    c.loadFromPkgConfig = (do
      match ← c.findAmong c.pkgDirs with
      | some path => c.dlopen path
      | none => c.loadFromDirs) := by
  obtain ⟨dir, hd⟩ := pkgconfigLibdir_ok h
  unfold loadFromPkgConfig pkgDirs
  rw [hd]
  rfl

theorem loadFromPkgConfig_blocked (h : ¬ c.Undecodable) (hb : c.Blocked c.pkgDirs) :
    ∃ e, c.loadFromPkgConfig = .error e ∧ e.isOSError = true := by
  obtain ⟨e, he, hos⟩ := findAmong_blocked hb
  refine ⟨e, ?_, hos⟩
  rw [loadFromPkgConfig_eq h, he]; rfl

theorem loadFromPkgConfig_free (h : ¬ c.Undecodable) (hb : ¬ c.Blocked c.pkgDirs) :
    c.loadFromPkgConfig = match c.pkgFile with
      | some path => c.dlopen path
      | none => c.loadFromDirs := by
  rw [loadFromPkgConfig_eq h, findAmong_free hb]; rfl

/-- A file in the directory `pkg-config` prints. -/
theorem pkgFile_some {path : Path} (h : c.pkgFile = some path) : c.Other (.file path) ∧ path.name ∈ c.names := by
  obtain ⟨dir, hdir, name, hn, rfl, hf⟩ := firstIn_some h
  refine ⟨?_, by rw [Path.name_div]; exact hn⟩
  unfold pkgDirs at hdir
  split at hdir
  · rename_i dir' hd
    rw [Option.mem_toList.1 hdir] at hd
    exact .pkgConfig dir name hd hn hf
  · cases hdir

theorem parents_three : (c.file.parents 3).isSome = true ↔ 4 ≤ c.file.parts.length := by
  unfold Path.parents
  split
  · exact ⟨fun _ => by omega, fun _ => rfl⟩
  · exact ⟨fun h => (by cases h), fun _ => by omega⟩

theorem installerDefaultDirs_ok (h : c.platform = .linux → c.home ≠ none) :
    ∃ dirs, c.installerDefaultDirs = .ok dirs := by
  unfold installerDefaultDirs
  cases hp : c.platform with
  | linux =>
    obtain ⟨home, hh⟩ := Option.ne_none_iff_exists'.1 (h hp)
    rw [hh]; exact ⟨_, rfl⟩
  | win32 => exact ⟨_, rfl⟩
  | darwin => exact ⟨_, rfl⟩
  | other name => exact ⟨_, rfl⟩

theorem installerDefaultDirs_error (h : ¬ (c.platform = .linux → c.home ≠ none)) :
    c.installerDefaultDirs = .error .runtimeError := by
  rw [Classical.not_imp, not_not] at h
  unfold installerDefaultDirs
  rw [h.1, h.2]

/-- The list the loader goes through has the working directory's before the installer's. -/
theorem candidateDirs_ok (h : c.Located) : c.candidateDirs = .ok (c.firstDirs ++ (c.cwdDirs ++ c.installerDirs)) := by
  obtain ⟨hdepth, hcwd, hhome⟩ := h
  obtain ⟨root, hroot⟩ := Option.isSome_iff_exists.1 (parents_three.2 hdepth)
  obtain ⟨cwd, hc⟩ := Option.ne_none_iff_exists'.1 hcwd
  obtain ⟨dirs, hd⟩ := installerDefaultDirs_ok hhome
  unfold candidateDirs firstDirs cwdDirs installerDirs
  rw [hroot, hc, hd]
  show Except.ok (_ ++ _) = _
  simp only [Option.map_some, Option.toList_some, List.flatMap_append, List.flatMap_cons, List.flatMap_nil,
    List.append_assoc, List.append_nil]

/-- What is raised when the list cannot be made. -/
theorem candidateDirs_error (h : ¬ c.Located) :
    ∃ e, c.candidateDirs = .error e ∧ (e.isOSError = true ↔ 4 ≤ c.file.parts.length ∧ c.cwd = none) := by
  by_cases hdepth : 4 ≤ c.file.parts.length
  · obtain ⟨root, hroot⟩ := Option.isSome_iff_exists.1 (parents_three.2 hdepth)
    cases hc : c.cwd with
    | none =>
      refine ⟨.fileNotFoundError, ?_, fun _ => ⟨hdepth, rfl⟩, fun _ => rfl⟩
      unfold candidateDirs
      rw [hroot, hc]; rfl
    | some cwd =>
      have hhome : ¬ (c.platform = .linux → c.home ≠ none) :=
          fun hh => h ⟨hdepth, by rw [hc]; exact Option.some_ne_none _, hh⟩
      refine ⟨.runtimeError, ?_, fun he => (by cases he), fun ⟨_, he⟩ => (by cases he)⟩
      unfold candidateDirs
      rw [hroot, hc, installerDefaultDirs_error hhome]; rfl
  · have hroot : c.file.parents 3 = none := by
      rw [← Option.not_isSome_iff_eq_none, parents_three]; exact hdepth
    refine ⟨.indexError, ?_, fun he => (by cases he), fun ⟨hd, _⟩ => absurd hd hdepth⟩
    unfold candidateDirs
    rw [hroot]; rfl

/-- The directories in the order the loader goes through them. -/
def dirs (c : Env) : List Path := c.firstDirs ++ (c.cwdDirs ++ c.installerDirs)

theorem firstIn_dirs : c.firstIn c.dirs = c.firstFile.or (c.cwdFile.or (c.firstIn c.installerDirs)) := by
  unfold dirs
  rw [firstIn_append, firstIn_append]; rfl

theorem loadFromDirs_blocked (h : c.Located) (hb : c.Blocked c.dirs) :
    ∃ e, c.loadFromDirs = .error e ∧ e.isOSError = true := by
  obtain ⟨e, he, hos⟩ := findAmong_blocked hb
  refine ⟨e, ?_, hos⟩
  unfold loadFromDirs
  rw [candidateDirs_ok h]
  show (do match ← c.findAmong c.dirs with | some path => c.dlopen path | none => .error .osError) = _
  rw [he]; rfl

/-- The file the directories lead to. -/
theorem loadFromDirs_free (h : c.Located) (hb : ¬ c.Blocked c.dirs) :
    c.loadFromDirs = match c.firstFile.or (c.cwdFile.or (c.firstIn c.installerDirs)) with
      | some path => c.dlopen path
      | none => .error .osError := by
  unfold loadFromDirs
  rw [candidateDirs_ok h]
  show (do match ← c.findAmong c.dirs with | some path => c.dlopen path | none => .error .osError) = _
  rw [findAmong_free hb, firstIn_dirs]; rfl

theorem loadFromDirs_error (h : ¬ c.Located) :
    ∃ e, c.loadFromDirs = .error e ∧ (e.isOSError = true ↔ 4 ≤ c.file.parts.length ∧ c.cwd = none) := by
  obtain ⟨e, he, hos⟩ := candidateDirs_error h
  refine ⟨e, ?_, hos⟩
  unfold loadFromDirs
  rw [he]; rfl

theorem documented_eq : c.documented = c.firstFile.or (c.firstIn c.installerDirs) := firstIn_append ..

/-! ## When the order holds -/

/-- Nothing comes before the documented candidate and nothing raises on the way to it; without one the
sources that are asked are those that provide the library. -/
def Clear (c : Env) : Prop :=
  match c.documented with
  | some path =>
    ¬ c.Named ∧ ¬ c.Undecodable ∧ ¬ c.Blocked c.pkgDirs ∧ ¬ path.Bare ∧
    match c.pkgFile with
    | some q => q = path
    | none => c.Located ∧ ¬ c.Blocked c.dirs ∧ ∀ q, c.cwdFile = some q → c.firstFile.isSome = true ∨ q = path
  | none =>
    c.Named ∨ ¬ c.Undecodable ∧
    match c.pkgFile, c.cwdFile with
    | some q, _ => ¬ c.Blocked c.pkgDirs ∧ (q.Bare → c.knows q.name = true)
    | none, some _ => ¬ c.Blocked c.pkgDirs ∧ c.Located ∧ ¬ c.Blocked c.dirs
    | none, none =>
      (∀ name ∈ c.names, c.knows name = false) ∧
        (c.Blocked c.pkgDirs ∨ c.Located ∨ (4 ≤ c.file.parts.length ∧ c.cwd = none))

/-- The directories' turn, where one of the documented ones leads to a file. -/
theorem loadFromDirs_eq_file {path : Path} (hd : c.firstFile.or (c.firstIn c.installerDirs) = some path) :
    c.loadFromDirs = .ok (.file path) ↔
      ¬ path.Bare ∧ c.Located ∧ ¬ c.Blocked c.dirs ∧
        ∀ q, c.cwdFile = some q → c.firstFile.isSome = true ∨ q = path := by
  by_cases hloc : c.Located
  · by_cases hblocked : c.Blocked c.dirs
    · obtain ⟨e, he, -⟩ := loadFromDirs_blocked hloc hblocked
      rw [he]
      exact ⟨fun h => (by cases h), fun h => absurd hblocked h.2.2.1⟩
    rw [loadFromDirs_free hloc hblocked]
    cases hfirst : c.firstFile with
    | some f =>
      rw [hfirst] at hd
      cases hd
      show c.dlopen path = _ ↔ _
      rw [dlopen_eq_file]
      exact ⟨fun h => ⟨h.2, hloc, hblocked, fun _ _ => .inl rfl⟩, fun h => ⟨rfl, h.1⟩⟩
    | none =>
      rw [hfirst] at hd
      change c.firstIn c.installerDirs = _ at hd
      cases hcwd : c.cwdFile with
      | some q =>
        -- the installer's locations are listed behind the working directory's
        show c.dlopen q = _ ↔ _
        rw [dlopen_eq_file]
        constructor
        · rintro ⟨rfl, hb⟩
          exact ⟨hb, hloc, hblocked, fun _ h => .inr (Option.some.inj h).symm⟩
        · rintro ⟨hb, -, -, hq⟩
          exact ⟨(hq q rfl).resolve_left (by simp), hb⟩
      | none =>
        rw [hd]
        show c.dlopen path = _ ↔ _
        rw [dlopen_eq_file]
        exact ⟨fun h => ⟨h.2, hloc, hblocked, fun _ h => (by cases h)⟩, fun h => ⟨rfl, h.1⟩⟩
  · obtain ⟨e, he, -⟩ := loadFromDirs_error hloc
    rw [he]
    exact ⟨fun h => (by cases h), fun h => absurd h.2.1 hloc⟩

/-- With a documented candidate. -/
theorem meets_iff_some {path : Path} (hd : c.documented = some path) : c.Meets c.loadLibrary ↔ c.Clear := by
  unfold Meets Clear
  rw [hd]
  show c.loadLibrary = .ok (.file path) ↔ _
  -- what is asked before the documented candidates, in the order it is asked
  by_cases hnamed : c.Named
  · obtain ⟨name, -, -, hl⟩ := loadLibrary_named hnamed
    rw [hl]
    exact ⟨fun h => (by cases h), fun h => absurd hnamed h.1⟩
  rw [loadLibrary_unnamed hnamed]
  by_cases hund : c.Undecodable
  · rw [loadFromPkgConfig_undecodable hund]
    exact ⟨fun h => (by cases h), fun h => absurd hund h.2.1⟩
  by_cases hblocked : c.Blocked c.pkgDirs
  · obtain ⟨e, he, -⟩ := loadFromPkgConfig_blocked hund hblocked
    rw [he]
    exact ⟨fun h => (by cases h), fun h => absurd hblocked h.2.2.1⟩
  rw [loadFromPkgConfig_free hund hblocked]
  cases hpkg : c.pkgFile with
  | some q =>
    rw [dlopen_eq_file]
    exact ⟨fun h => ⟨hnamed, hund, hblocked, h.2, h.1⟩, fun h => ⟨h.2.2.2.2, h.2.2.2.1⟩⟩
  | none =>
    rw [documented_eq] at hd
    exact (loadFromDirs_eq_file hd).trans
      ⟨fun h => ⟨hnamed, hund, hblocked, h.1, h.2⟩, fun h => ⟨h.2.2.2.1, h.2.2.2.2⟩⟩

/-- Where neither `pkg-config` nor the working directory leads to a file, only names are left. -/
theorem other_iff_name (hpkg : c.pkgFile = none) (hcwd : c.cwdFile = none) :
    (∀ l, ¬ c.Other l) ↔ ∀ name ∈ c.names, c.knows name = false := by
  constructor
  · intro h name hn
    exact Bool.eq_false_iff.2 fun hk => h _ (.name name hn hk)
  · rintro h _ (⟨name, hn, hk⟩ | ⟨dir, name, hlib, hn, hf⟩ | ⟨dir, name, hdir, hn, hf⟩)
    · rw [h name hn] at hk; cases hk
    · have hdir : dir ∈ c.pkgDirs := by
        unfold pkgDirs
        rw [hlib]
        exact List.mem_singleton_self _
      exact firstIn_none hpkg hdir hn hf
    · exact firstIn_none hcwd hdir hn hf

/-- `pkg-config` leads to a file: it is opened, by its name if it has no separator. -/
theorem fallback_pkgFile {q : Path} (hpkg : c.pkgFile = some q) :
    c.Fallback (c.dlopen q) ↔ (q.Bare → c.knows q.name = true) := by
  obtain ⟨hq, hname⟩ := pkgFile_some hpkg
  by_cases hb : q.Bare
  · unfold dlopen
    rw [if_pos hb]
    by_cases hk : c.knows q.name = true
    · rw [if_pos hk, fallback_ok]
      exact ⟨fun _ _ => hk, fun _ => .name _ hname hk⟩
    · rw [if_neg hk, fallback_error]
      exact ⟨fun h => absurd hq (h.1 _), fun h => absurd (h hb) hk⟩
  · rw [dlopen_file hb, fallback_ok]
    exact ⟨fun _ h => absurd h hb, fun _ => hq⟩

/-- The directories' turn, where only the working directory may lead to a file. -/
theorem fallback_dirs (hfirst : c.firstFile = none) (hinstaller : c.firstIn c.installerDirs = none)
    (hpkg : c.pkgFile = none) :
    c.Fallback c.loadFromDirs ↔
      match c.cwdFile with
      | some _ => c.Located ∧ ¬ c.Blocked c.dirs
      | none => (∀ name ∈ c.names, c.knows name = false) ∧ (c.Located ∨ (4 ≤ c.file.parts.length ∧ c.cwd = none)) := by
  cases hcwd : c.cwdFile with
  | some q =>
    obtain ⟨hb, hq⟩ := cwdFile_some hcwd
    show _ ↔ _ ∧ _
    by_cases hloc : c.Located
    · by_cases hblocked : c.Blocked c.dirs
      · obtain ⟨e, he, -⟩ := loadFromDirs_blocked hloc hblocked
        rw [he, fallback_error]
        exact ⟨fun h => absurd hq (h.1 _), fun h => absurd hblocked h.2⟩
      rw [loadFromDirs_free hloc hblocked, hfirst, hcwd]
      show c.Fallback (c.dlopen q) ↔ _
      rw [dlopen_file hb, fallback_ok]
      exact ⟨fun _ => ⟨hloc, hblocked⟩, fun _ => hq⟩
    · obtain ⟨e, he, -⟩ := loadFromDirs_error hloc
      rw [he, fallback_error]
      exact ⟨fun h => absurd hq (h.1 _), fun h => absurd h.1 hloc⟩
  | none =>
    show _ ↔ _ ∧ _
    rw [← other_iff_name hpkg hcwd]
    by_cases hloc : c.Located
    · -- whether a search ends without a file or with an error, it is an `OSError`
      have herror : ∃ e, c.loadFromDirs = .error e ∧ e.isOSError = true := by
        by_cases hblocked : c.Blocked c.dirs
        · exact loadFromDirs_blocked hloc hblocked
        · rw [loadFromDirs_free hloc hblocked, hfirst, hcwd, hinstaller]
          exact ⟨_, rfl, rfl⟩
      obtain ⟨e, he, hos⟩ := herror
      rw [he, fallback_error]
      exact ⟨fun h => ⟨h.1, .inl hloc⟩, fun h => ⟨h.1, hos⟩⟩
    · obtain ⟨e, he, hos⟩ := loadFromDirs_error hloc
      rw [he, fallback_error, hos]
      exact ⟨fun h => ⟨h.1, .inr h.2⟩, fun h => ⟨h.1, h.2.resolve_left hloc⟩⟩

/-- The turn of `pkg-config`, where its directory does not get as far as a file. -/
theorem fallback_blocked (hund : ¬ c.Undecodable) (hb : c.Blocked c.pkgDirs) :
    c.Fallback c.loadFromPkgConfig ↔
      match c.pkgFile, c.cwdFile with
      | none, none => ∀ name ∈ c.names, c.knows name = false
      | _, _ => False := by
  obtain ⟨e, he, hos⟩ := loadFromPkgConfig_blocked hund hb
  rw [he, fallback_error, and_iff_left hos]
  cases hpkg : c.pkgFile with
  | some q => exact iff_of_false (fun h => h _ (pkgFile_some hpkg).1) id
  | none =>
    cases hcwd : c.cwdFile with
    | some q => exact iff_of_false (fun h => h _ (cwdFile_some hcwd).2) id
    | none => exact other_iff_name hpkg hcwd

/-- Without a documented candidate. -/
theorem meets_iff_none (hd : c.documented = none) : c.Meets c.loadLibrary ↔ c.Clear := by
  unfold Meets Clear
  rw [hd]
  show c.Fallback c.loadLibrary ↔ (_ ∨ _)
  by_cases hnamed : c.Named
  · obtain ⟨name, hn, hk, hl⟩ := loadLibrary_named hnamed
    rw [hl, fallback_ok]
    exact ⟨fun _ => .inl hnamed, fun _ => .name name hn hk⟩
  rw [loadLibrary_unnamed hnamed, or_iff_right hnamed]
  by_cases hund : c.Undecodable
  · rw [loadFromPkgConfig_undecodable hund, fallback_error]
    exact ⟨fun h => (by cases h.2), fun h => absurd hund h.1⟩
  rw [and_iff_right hund]
  by_cases hblocked : c.Blocked c.pkgDirs
  · rw [fallback_blocked hund hblocked]
    cases c.pkgFile with
    | some q => exact iff_of_false id fun h => h.1 hblocked
    | none =>
      cases c.cwdFile with
      | some q => exact iff_of_false id fun h => h.1 hblocked
      | none => exact ⟨fun h => ⟨h, .inl hblocked⟩, fun h => h.1⟩
  rw [loadFromPkgConfig_free hund hblocked]
  cases hpkg : c.pkgFile with
  | some q => exact (fallback_pkgFile hpkg).trans (and_iff_right hblocked).symm
  | none =>
    rw [documented_eq, Option.or_eq_none_iff] at hd
    refine (fallback_dirs hd.1 hd.2 hpkg).trans ?_
    cases c.cwdFile with
    | some q => exact (and_iff_right hblocked).symm
    | none => exact and_congr_right fun _ => (or_iff_right hblocked).symm

theorem meets_iff (c : Env) : c.Meets c.loadLibrary ↔ c.Clear := by
  cases hd : c.documented with
  | some path => exact meets_iff_some hd
  | none => exact meets_iff_none hd

/-- A file of `NWEP_LIB_DIR` is the first documented candidate. -/
theorem documented_libDir {dir path : Path} (hdir : c.libDir = some dir)
    (h : c.firstIn (expand dir) = some path) : c.documented = some path := by
  unfold documented firstDirs
  rw [hdir, Option.toList_some, List.append_assoc, List.flatMap_append, List.append_assoc, firstIn_append]
  simp only [List.flatMap_singleton, h]
  rfl

/-- The loader follows its documented order, and raises `OSError` alone and only without a source, if and
only if the environment is clear; so it is with a library in `NWEP_LIB_DIR`. -/
theorem resolution (c : Env) :
    (c.Meets c.loadLibrary ↔ c.Clear) ∧
    ∀ dir path, c.libDir = some dir → c.firstIn (expand dir) = some path →
      (c.loadLibrary = .ok (.file path) ↔ c.Clear) := by
  refine ⟨meets_iff c, fun dir path hdir h => ?_⟩
  rw [← meets_iff c]
  unfold Meets
  rw [documented_libDir hdir h]

/-- A library in `NWEP_LIB_DIR` and another in the directory of the system's package. -/
def twice (pkgConfig : PkgConfig) : Env where
  libDir := some ⟨"/", ["opt", "nwep"]⟩
  nwepLib := none
  platform := .linux
  localAppData := none
  programFiles := none
  file := ⟨"/", ["usr", "lib", "python3", "nwep", "_sys.py"]⟩
  cwd := some ⟨"/", ["root"]⟩
  home := some ⟨"/", ["root"]⟩
  pkgConfig := pkgConfig
  stat := fun path =>
    if path = ⟨"/", ["opt", "nwep", "libnwep.so"]⟩ ∨ path = ⟨"/", ["usr", "lib", "libnwep.so"]⟩ then .found else .absent
  knows := fun _ => false

theorem resolution_twice : (twice .failed).Clear :=
  ((resolution (twice .failed)).2 ⟨"/", ["opt", "nwep"]⟩ ⟨"/", ["opt", "nwep", "libnwep.so"]⟩ rfl (by decide +kernel)).1
    (by decide +kernel)

/-- With `pkg-config` the one in `NWEP_LIB_DIR` is passed by. -/
theorem libDir_passed_by :
    (twice (.exited 0 (some ⟨"/", ["usr", "lib"]⟩))).documented = some ⟨"/", ["opt", "nwep", "libnwep.so"]⟩ ∧
    (twice (.exited 0 (some ⟨"/", ["usr", "lib"]⟩))).loadLibrary = .ok (.file ⟨"/", ["usr", "lib", "libnwep.so"]⟩) ∧
    ¬ (twice (.exited 0 (some ⟨"/", ["usr", "lib"]⟩))).Meets
      (twice (.exited 0 (some ⟨"/", ["usr", "lib"]⟩))).loadLibrary := by
  have hd : (twice (.exited 0 (some ⟨"/", ["usr", "lib"]⟩))).documented =
      some ⟨"/", ["opt", "nwep", "libnwep.so"]⟩ := by
    decide +kernel
  have hl : (twice (.exited 0 (some ⟨"/", ["usr", "lib"]⟩))).loadLibrary =
      .ok (.file ⟨"/", ["usr", "lib", "libnwep.so"]⟩) := by
    decide +kernel
  refine ⟨hd, hl, ?_⟩
  unfold Meets
  rw [hd, hl]
  decide

end Nwep.Loader.Env
