import PropSandbox.FileSystem
import PropSandbox.Record

/-!
# Files in memory

A file system held as a value: files under the names on the way to them, and the directories that
were made. A file is in directories whether these were made or not.
-/

namespace PropSandbox

/-- The names on the way to a file or directory, from a place where all paths start. -/
abbrev Place := List String

/-- Where a path leads. Two points lead back to the directory above. -/
def Path.place (path : String) : Place :=
  let start := if Path.isAbsolute path then ["/"] else []
  (Path.names path).foldl
    (fun place name => if name = ".." then place.dropLast else place ++ [name]) start

/-- A name that is joined to a directory stands in it. -/
theorem Path.place_join (directory : String) {name : String} (single : names name = [name])
    (relative : isAbsolute name = false) (down : name ≠ "..") :
    place (join directory name) = place directory ++ [name] := by
  rw [place, place, names_join relative, isAbsolute_join relative, single, List.foldl_append,
    List.foldl_cons, List.foldl_nil, if_neg down]

/-- The places on the way to a place, from the start on. -/
def Place.above (place : Place) : List Place :=
  (List.range place.length).map place.take

theorem Place.above_concat (place : Place) (name : String) :
    Place.above (place ++ [name]) = place.above ++ [place] := by
  rw [above, List.length_append, List.length_singleton, List.range_succ, List.map_append, above]
  congr 1
  · refine List.map_congr_left fun i inside => ?_
    rw [List.take_append_of_le_length (Nat.le_of_lt (List.mem_range.1 inside))]
  · simp

theorem Place.not_mem_above {place other : Place} (longer : place.length < other.length) :
    other ∉ place.above := fun inside => by
  obtain ⟨n, -, rfl⟩ := List.mem_map.1 inside
  exact absurd (List.length_take_le' n place) (Nat.not_le.2 longer)

/-- Files and directories. A file that holds no text has no content here. -/
structure Files where
  files : List (Place × Option String)
  directories : List Place

namespace Files

def empty : Files := ⟨[], []⟩

/-- Whether a file is at a place. -/
def hasFile (fs : Files) (place : Place) : Bool :=
  (fs.files.lookup place).isSome

/-- Whether a directory is at a place. -/
def hasDirectory (fs : Files) (place : Place) : Bool :=
  place.isEmpty || fs.directories.contains place
    || fs.files.any fun entry => place.isPrefixOf entry.1 && place != entry.1

/-- Whether the way to a place leads through a file. -/
def isBlocked (fs : Files) (place : Place) : Bool :=
  (Place.above place).any fs.hasFile

/-- The names in the directory at a place, ascending. -/
def names (fs : Files) (place : Place) : List String :=
  let below := (fs.files.map Prod.fst ++ fs.directories).filterMap fun other =>
    if place.isPrefixOf other then (other.drop place.length).head? else none
  Record.keys (Record.ofList (below.map fun name => (name, ())))

/-- The text of the file at a place. -/
def text? (fs : Files) (place : Place) : Option String :=
  (fs.files.lookup place).join

/-- The files with a text in a file at a place. -/
def withText (fs : Files) (place : Place) (text : String) : Files :=
  { fs with files := fs.files.filter (fun entry => entry.1 != place) ++ [(place, some text)] }

/-- The files with a directory at a place. -/
def withDirectory (fs : Files) (place : Place) : Files :=
  { fs with directories := fs.directories ++ Place.above place ++ [place] }

theorem lookup_withText (fs : Files) (place other : Place) (text : String) :
    (fs.withText place text).files.lookup other =
      if other = place then some (some text) else fs.files.lookup other := by
  rw [withText]
  induction fs.files with
  | nil =>
    by_cases same : other = place
    · simp [same]
    · simp [List.lookup_cons, beq_eq_false_iff_ne.2 same, same]
  | cons entry rest ih =>
    obtain ⟨known, old⟩ := entry
    by_cases here : known = place
    · rw [List.filter_cons_of_neg (by simp [here]), ih]
      by_cases same : other = place
      · rw [if_pos same, if_pos same]
      · have differ : (other == known) = false := by simp [here, same]
        rw [List.lookup_cons, differ]
    · rw [List.filter_cons_of_pos (by simp [here]), List.cons_append, List.lookup_cons, ih,
        List.lookup_cons]
      by_cases same : other = known
      · simp [same, here]
      · simp [beq_eq_false_iff_ne.2 same]

/-- Files in memory as a file system. -/
def system : FileSystem (StateM Files) where
  isFile path := do return (← get).hasFile (Path.place path)
  isDirectory path := do return (← get).hasDirectory (Path.place path)
  present path := do
    let fs ← get
    let place := Path.place path
    if fs.isBlocked place then throw .fileAccess
    return fs.hasFile place || fs.hasDirectory place
  names path := do return (← get).names (Path.place path)
  read path := do
    match (← get).text? (Path.place path) with
    | some text => pure text
    | none => throw .fileAccess
  write path text := do
    let fs ← get
    let place := Path.place path
    if fs.hasDirectory place || !fs.hasDirectory place.dropLast then throw .fileAccess
    set (fs.withText place text)
  createDirectory path := do
    let fs ← get
    let place := Path.place path
    if fs.hasFile place || fs.isBlocked place then throw .fileAccess
    set (fs.withDirectory place)

/-! ## Reading and writing -/

variable {fs : Files} {path text : String}

theorem run_get (fs : Files) :
    (get : ExceptT Failure (StateM Files) Files).run.run fs = (.ok fs, fs) :=
  rfl

theorem run_present (passable : fs.isBlocked (Path.place path) = false) :
    (system.present path).run.run fs =
      (.ok (fs.hasFile (Path.place path) || fs.hasDirectory (Path.place path)), fs) := by
  rw [system, Failure.run_bind_ok (run_get fs)]
  dsimp only
  rw [passable, if_neg Bool.false_ne_true]
  rfl

theorem run_read (held : fs.text? (Path.place path) = some text) :
    (system.read path).run.run fs = (.ok text, fs) := by
  rw [system, Failure.run_bind_ok (run_get fs), held]
  rfl

theorem run_createDirectory (clear : fs.hasFile (Path.place path) = false)
    (passable : fs.isBlocked (Path.place path) = false) :
    (system.createDirectory path).run.run fs = (.ok (), fs.withDirectory (Path.place path)) := by
  rw [system, Failure.run_bind_ok (run_get fs)]
  dsimp only
  rw [clear, passable, Bool.or_self, if_neg Bool.false_ne_true]
  rfl

theorem run_write (clear : fs.hasDirectory (Path.place path) = false)
    (within : fs.hasDirectory (Path.place path).dropLast = true) (text : String) :
    (system.write path text).run.run fs = (.ok (), fs.withText (Path.place path) text) := by
  rw [system, Failure.run_bind_ok (run_get fs)]
  dsimp only
  rw [clear, within, Bool.not_true, Bool.or_self, if_neg Bool.false_ne_true]
  rfl

variable {place other : Place}

theorem hasFile_withText (fs : Files) (place other : Place) (text : String) :
    (fs.withText place text).hasFile other = (other == place || fs.hasFile other) := by
  rw [hasFile, lookup_withText]
  by_cases same : other = place <;> simp [same, hasFile]

theorem text?_withText (fs : Files) (place other : Place) (text : String) :
    (fs.withText place text).text? other = if other = place then some text else fs.text? other := by
  rw [text?, lookup_withText]
  split <;> rfl

theorem isBlocked_withText (outside : place ∉ other.above) (text : String) :
    (fs.withText place text).isBlocked other = fs.isBlocked other := by
  rw [isBlocked, isBlocked, Bool.eq_iff_iff, List.any_eq_true, List.any_eq_true]
  refine exists_congr fun step => and_congr_right fun inside => ?_
  have differ : step ≠ place := fun same => outside (same ▸ inside)
  rw [hasFile_withText, beq_eq_false_iff_ne.2 differ, Bool.false_or]

theorem isBlocked_append_singleton (fs : Files) (place : Place) (name : String) :
    fs.isBlocked (place ++ [name]) = (fs.isBlocked place || fs.hasFile place) := by
  simp [isBlocked, Place.above_concat]

theorem hasDirectory_withDirectory_self (fs : Files) (place : Place) :
    (fs.withDirectory place).hasDirectory place = true := by
  simp [hasDirectory, withDirectory]

/-- Only what is on the way to a new directory is a directory from then on. -/
theorem hasDirectory_withDirectory (longer : place.length < other.length) :
    (fs.withDirectory place).hasDirectory other = fs.hasDirectory other := by
  have outside := Place.not_mem_above longer
  have differ : other ≠ place := fun same => Nat.lt_irrefl _ (same ▸ longer)
  simp [hasDirectory, withDirectory, outside, differ]

/-- Only what is on the way to a new file is a directory from then on. -/
theorem hasDirectory_withText (aside : ¬ (other <+: place ∧ other ≠ place)) (text : String) :
    (fs.withText place text).hasDirectory other = fs.hasDirectory other := by
  have passed : ∀ entry : Place × Option String,
      (other.isPrefixOf entry.1 && other != entry.1) = true → entry.1 ≠ place := by
    rintro entry below rfl
    rw [Bool.and_eq_true, List.isPrefixOf_iff_prefix, bne_iff_ne] at below
    exact aside below
  have same : (fs.withText place text).files.any
      (fun entry => other.isPrefixOf entry.1 && other != entry.1) =
        fs.files.any fun entry => other.isPrefixOf entry.1 && other != entry.1 := by
    rw [Bool.eq_iff_iff, List.any_eq_true, List.any_eq_true]
    constructor
    · rintro ⟨entry, listed, below⟩
      rcases List.mem_append.1 listed with old | new
      · exact ⟨entry, (List.mem_filter.1 old).1, below⟩
      · exact absurd (congrArg Prod.fst (List.mem_singleton.1 new)) (passed entry below)
    · rintro ⟨entry, listed, below⟩
      have kept : (entry.1 != place) = true := bne_iff_ne.2 (passed entry below)
      exact ⟨entry, List.mem_append_left _ (List.mem_filter.2 ⟨listed, kept⟩), below⟩
  rw [hasDirectory, same]
  rfl

end Files

end PropSandbox
