import PropSandbox.FileSystem.Memory
import PropSandbox.Fixture.Store
import PropSandbox.Proofs.Fixtures

/-!
# Fixtures in files

A directory of fixture files answers as a store in memory does that starts with what the files say.
Saving writes the JSON file of a key, which is the file that is read first, so what a YAML file says
does not come back; and a file belongs to one key with one ending, so no key sees what is saved
under another, however many points their names have.
-/

namespace PropSandbox

namespace FixtureStore

/-! ## The files of a key -/

/-- A key that is a file name, which leads into no other directory. -/
def PlainKey (key : String) : Prop :=
  '/' ∉ key.toList

instance : DecidablePred PlainKey := fun key => inferInstanceAs (Decidable ('/' ∉ key.toList))

/-- The name of the file of a key with an ending. -/
def fileName (key ending : String) : String :=
  key ++ "." ++ ending

variable {directory key other ending : String} {format : DocumentFormat} {set : FixtureSet}

theorem toList_fileName (key ending : String) :
    (fileName key ending).toList = key.toList ++ '.' :: ending.toList := by
  simp [fileName]

/-- The ending is what stands after the last point. -/
theorem takeWhile_fileName (pointless : '.' ∉ ending.toList) :
    (fileName key ending).toList.reverse.takeWhile (· != '.') = ending.toList.reverse := by
  have before : ∀ c ∈ ending.toList.reverse, (c != '.') = true := fun c member =>
    bne_iff_ne.2 fun point => pointless (point ▸ List.mem_reverse.1 member)
  rw [toList_fileName, List.reverse_append, List.reverse_cons, List.append_assoc,
    List.takeWhile_append_of_pos before]
  simp

/-- A file belongs to one key with one ending. -/
theorem fileName_inj {known : String} (first : '.' ∉ ending.toList) (second : '.' ∉ known.toList)
    (same : fileName key ending = fileName other known) : key = other ∧ ending = known := by
  have letters : ending.toList.reverse = known.toList.reverse := by
    rw [← takeWhile_fileName first, same, takeWhile_fileName second]
  obtain rfl : ending = known := String.toList_inj.1 (List.reverse_inj.1 letters)
  have keys := congrArg String.toList same
  rw [toList_fileName, toList_fileName] at keys
  exact ⟨String.toList_inj.1 (List.append_cancel_right keys), rfl⟩

theorem endings_plain :
    ∀ entry ∈ endings, '.' ∉ entry.1.toList ∧ '/' ∉ entry.1.toList ∧ 1 < entry.1.length := by
  decide

/-- The name of a file is a name, which stands for something on a way and leads down. -/
theorem names_fileName (plain : PlainKey key) (known : (ending, format) ∈ endings) :
    Path.names (fileName key ending) = [fileName key ending] ∧
      Path.isAbsolute (fileName key ending) = false ∧ fileName key ending ≠ ".." := by
  obtain ⟨-, slashless, long⟩ := endings_plain _ known
  have slash : '/' ∉ (fileName key ending).toList := by
    rw [toList_fileName, List.mem_append, List.mem_cons]
    rintro (early | point | late)
    · exact plain early
    · exact absurd point (by decide)
    · exact slashless late
  have longer : 2 < (fileName key ending).length := by
    rw [fileName, String.length_append, String.length_append]
    have point : ".".length = 1 := rfl
    dsimp only at long
    omega
  have differs : ∀ short : String, short.length ≤ 2 → fileName key ending ≠ short := by
    rintro short bound rfl
    omega
  refine ⟨?_, ?_, differs ".." (by decide)⟩
  · rw [Path.names, List.splitOn_eq_singleton slash, List.map_singleton, String.ofList_toList,
      List.filter_cons_of_pos, List.filter_nil]
    simp [differs "" (by decide), differs "." (by decide)]
  · rw [Path.isAbsolute]
    cases letters : (fileName key ending).toList with
    | nil => rfl
    | cons c rest =>
      have other : c ≠ '/' := fun same => slash (by rw [letters, same]; exact List.mem_cons_self)
      simpa using other

/-- A file stands in the directory under its name. -/
theorem place_filePath (directory : String) (plain : PlainKey key)
    (known : (ending, format) ∈ endings) :
    Path.place (filePath directory key ending) = Path.place directory ++ [fileName key ending] :=
  have ⟨single, relative, down⟩ := names_fileName plain known
  Path.place_join directory single relative down

/-- Fixtures whose text says what they are. -/
def ReadsBack (set : FixtureSet) : Prop :=
  parse? .json (write set) = some set

end FixtureStore

namespace Files

open FixtureStore

variable {fs : Files} {directory key ending : String} {format : DocumentFormat}

/-- The text of a file in a directory, named by its path. -/
def textIn (fs : Files) (directory name : String) : Option String :=
  fs.text? (Path.place directory ++ [name])

/-- What the files of a key say: the JSON file if there is one, and else the YAML file, with the
long ending or with the short one. -/
def fixtures? (fs : Files) (directory key : String) : Option FixtureSet :=
  match fs.textIn directory (fileName key "json") with
  | some text => parse? .json text
  | none =>
    match fs.textIn directory (fileName key "yaml") with
    | some text => parse? .yaml text
    | none => (fs.textIn directory (fileName key "yml")).bind (parse? .yaml)

/-- Every key that one of the files may belong to. -/
def fixtureKeys (fs : Files) : List String :=
  fs.files.flatMap fun entry =>
    endings.map fun ending =>
      let name := (entry.1.getLast?.getD "").toList
      String.ofList (name.take (name.length - (ending.1.length + 1)))

/-- What the files in a directory say, by key. -/
def fixtures (fs : Files) (directory : String) : Record FixtureSet :=
  Record.ofList (fs.fixtureKeys.filterMap fun key =>
    (fs.fixtures? directory key).map fun set => (key, set))

/-- A directory of files as a store of fixtures needs it: there is such a directory or one can be
made, no fixture file is a directory, and every fixture file holds fixtures. -/
structure KeepsFixtures (fs : Files) (directory : String) : Prop where
  clear : fs.hasFile (Path.place directory) = false
  passable : fs.isBlocked (Path.place directory) = false
  file : ∀ key ending format, PlainKey key → (ending, format) ∈ endings →
    fs.hasDirectory (Path.place directory ++ [fileName key ending]) = false
  wellFormed : ∀ key ending format content, PlainKey key → (ending, format) ∈ endings →
    fs.files.lookup (Path.place directory ++ [fileName key ending]) = some content →
    ∃ text set, content = some text ∧ parse? format text = some set

namespace KeepsFixtures

theorem hasFile (keeps : fs.KeepsFixtures directory) (plain : PlainKey key)
    (known : (ending, format) ∈ endings) :
    fs.hasFile (Path.place directory ++ [fileName key ending]) =
      (fs.textIn directory (fileName key ending)).isSome := by
  rw [Files.hasFile, textIn, text?]
  cases listed : fs.files.lookup (Path.place directory ++ [fileName key ending]) with
  | none => rfl
  | some content =>
    obtain ⟨text, -, rfl, -⟩ := keeps.wellFormed key ending format content plain known listed
    rfl

theorem parse?_isSome (keeps : fs.KeepsFixtures directory) (plain : PlainKey key)
    (known : (ending, format) ∈ endings) {text : String}
    (held : fs.textIn directory (fileName key ending) = some text) :
    ∃ set, parse? format text = some set := by
  have listed := Option.join_eq_some_iff.1 held
  obtain ⟨_, set, same, parsed⟩ := keeps.wellFormed key ending format _ plain known listed
  cases same
  exact ⟨set, parsed⟩

theorem run_present (keeps : fs.KeepsFixtures directory) (plain : PlainKey key)
    (known : (ending, format) ∈ endings) :
    (system.present (filePath directory key ending)).run.run fs =
      (.ok (fs.textIn directory (fileName key ending)).isSome, fs) := by
  have place := place_filePath directory plain known
  have passable : fs.isBlocked (Path.place (filePath directory key ending)) = false := by
    rw [place, isBlocked_append_singleton, keeps.passable, keeps.clear, Bool.or_self]
  rw [Files.run_present passable, place, keeps.file key ending format plain known, Bool.or_false,
    keeps.hasFile plain known]

/-- The first file there is decides what is loaded. -/
theorem run_loadFirst (keeps : fs.KeepsFixtures directory) (plain : PlainKey key)
    (known : (ending, format) ∈ endings) (others : List (String × DocumentFormat)) :
    (loadFirst system directory key ((ending, format) :: others)).run.run fs =
      match fs.textIn directory (fileName key ending) with
      | some text => (.ok ((parse? format text).getD .empty), fs)
      | none => (loadFirst system directory key others).run.run fs := by
  rw [loadFirst, Failure.run_bind_ok (keeps.run_present plain known)]
  cases held : fs.textIn directory (fileName key ending) with
  | none => rfl
  | some text =>
    have read : (system.read (filePath directory key ending)).run.run fs = (.ok text, fs) :=
      run_read (by rw [place_filePath directory plain known]; exact held)
    obtain ⟨set, parsed⟩ := keeps.parse?_isSome plain known held
    rw [Option.isSome_some, if_pos rfl, Failure.run_bind_ok read]
    dsimp only
    rw [parsed]
    rfl

/-- A load finds what the files say and changes nothing. -/
theorem run_load (keeps : fs.KeepsFixtures directory) (plain : PlainKey key) :
    (inDirectory system directory).Holds key ((fs.fixtures? directory key).getD .empty) fs := by
  have json : ("json", .json) ∈ endings := by decide
  have long : ("yaml", .yaml) ∈ endings := by decide
  have short : ("yml", .yaml) ∈ endings := by decide
  change (loadFirst system directory key endings).run.run fs = _
  rw [fixtures?, endings, keeps.run_loadFirst plain json, keeps.run_loadFirst plain long,
    keeps.run_loadFirst plain short]
  cases fs.textIn directory (fileName key "json") with
  | some text => rfl
  | none =>
    cases fs.textIn directory (fileName key "yaml") with
    | some text => rfl
    | none => cases fs.textIn directory (fileName key "yml") <;> rfl

end KeepsFixtures

/-! ## Saving -/

/-- The files once fixtures are saved under a key. -/
def withFixtures (fs : Files) (directory key : String) (set : FixtureSet) : Files :=
  (fs.withDirectory (Path.place directory)).withText
    (Path.place directory ++ [fileName key "json"]) (write set)

variable {other : String} {set : FixtureSet}

theorem textIn_withFixtures (fs : Files) (directory key : String) (set : FixtureSet)
    (name : String) :
    (fs.withFixtures directory key set).textIn directory name =
      if name = fileName key "json" then some (write set) else fs.textIn directory name := by
  rw [textIn, withFixtures, text?_withText]
  simp only [List.append_cancel_left_eq, List.cons.injEq, and_true]
  rfl

/-- What is saved under a key is what its files say from then on, whatever they said before; the
files of the other keys say what they said. -/
theorem fixtures?_withFixtures (back : ReadsBack set) :
    (fs.withFixtures directory key set).fixtures? directory other =
      if other = key then some set else fs.fixtures? directory other := by
  have plain : ∀ entry ∈ endings, '.' ∉ entry.1.toList := fun entry known =>
    (endings_plain entry known).1
  by_cases same : other = key
  · rw [fixtures?, textIn_withFixtures, if_pos (by rw [same]), if_pos same]
    exact back
  · have apart : ∀ entry ∈ endings, fileName other entry.1 ≠ fileName key "json" :=
      fun entry known clash =>
        same (fileName_inj (plain entry known) (by decide) clash).1
    rw [if_neg same]
    simp only [fixtures?, textIn_withFixtures]
    rw [if_neg (apart ("json", .json) (by decide)), if_neg (apart ("yaml", .yaml) (by decide)),
      if_neg (apart ("yml", .yaml) (by decide))]

namespace KeepsFixtures

/-- Fixtures can be saved. -/
theorem run_save (keeps : fs.KeepsFixtures directory) (plain : PlainKey key) (set : FixtureSet) :
    ((inDirectory system directory).save key set).run.run fs =
      (.ok (), fs.withFixtures directory key set) := by
  have json : ("json", .json) ∈ endings := by decide
  have place := place_filePath directory plain json
  have longer : (Path.place directory).length <
      (Path.place directory ++ [fileName key "json"]).length := by simp
  have clear : (fs.withDirectory (Path.place directory)).hasDirectory
      (Path.place (filePath directory key "json")) = false := by
    rw [place, hasDirectory_withDirectory longer, keeps.file key "json" .json plain json]
  have within : (fs.withDirectory (Path.place directory)).hasDirectory
      (Path.place (filePath directory key "json")).dropLast = true := by
    rw [place, List.dropLast_concat, hasDirectory_withDirectory_self]
  rw [inDirectory, Failure.run_bind_ok (run_createDirectory keeps.clear keeps.passable),
    run_write clear within, place]
  rfl

/-- What is saved leaves the directory fit for what comes next. -/
theorem withFixtures (keeps : fs.KeepsFixtures directory) (back : ReadsBack set) :
    (fs.withFixtures directory key set).KeepsFixtures directory := by
  have longer : (Path.place directory).length <
      (Path.place directory ++ [fileName key "json"]).length := by simp
  refine ⟨?_, ?_, ?_, ?_⟩
  · have differ : Path.place directory ≠ Path.place directory ++ [fileName key "json"] := by simp
    rw [Files.withFixtures, hasFile_withText, beq_eq_false_iff_ne.2 differ, Bool.false_or]
    exact keeps.clear
  · rw [Files.withFixtures, isBlocked_withText (Place.not_mem_above longer)]
    exact keeps.passable
  · intro other ending format plain known
    have aside : ¬ (Path.place directory ++ [fileName other ending] <+:
        Path.place directory ++ [fileName key "json"] ∧
          Path.place directory ++ [fileName other ending] ≠
            Path.place directory ++ [fileName key "json"]) := fun below =>
      below.2 (below.1.eq_of_length (by simp))
    have deeper : (Path.place directory).length <
        (Path.place directory ++ [fileName other ending]).length := by simp
    rw [Files.withFixtures, hasDirectory_withText aside, hasDirectory_withDirectory deeper]
    exact keeps.file other ending format plain known
  · intro other ending format content plain known listed
    rw [Files.withFixtures, lookup_withText] at listed
    split at listed
    · rename_i same
      have name : fileName other ending = fileName key "json" := by simpa using same
      obtain ⟨-, rfl⟩ := fileName_inj (endings_plain _ known).1 (by decide) name
      obtain rfl : format = .json :=
        (by decide : ∀ entry ∈ endings, entry.1 = "json" → entry.2 = .json) _ known rfl
      exact ⟨write set, set, (Option.some.inj listed).symm, back⟩
    · exact keeps.wellFormed other ending format content plain known listed

end KeepsFixtures

end Files

/-! ## Calls of a store -/

/-- What is asked of a store. -/
inductive StoreCall where
  | load (key : String)
  | save (key : String) (set : FixtureSet)

def StoreCall.key : StoreCall → String
  | load key => key
  | save key _ => key

/-- Asks a store. A load answers what it finds. -/
def StoreCall.perform {m : Type → Type} [Monad m] (store : FixtureStore m) :
    StoreCall → ExceptT Failure m (Option FixtureSet)
  | load key => do return some (← store.load key)
  | save key set => do
    store.save key set
    return none

/-- Files in a directory that hold what a record holds, under every key that is a file name. -/
structure Files.Mirrors (fs : Files) (directory : String) (stored : Record FixtureSet) : Prop where
  keeps : fs.KeepsFixtures directory
  agrees : ∀ key, FixtureStore.PlainKey key →
    Record.get? stored key = fs.fixtures? directory key

namespace Files.Mirrors

open FixtureStore

variable {fs : Files} {directory key : String} {stored : Record FixtureSet} {set : FixtureSet}

theorem holds (mirrors : fs.Mirrors directory stored) (plain : PlainKey key) :
    (inDirectory system directory).Holds key ((Record.get? stored key).getD .empty) fs := by
  rw [mirrors.agrees key plain]
  exact mirrors.keeps.run_load plain

theorem withFixtures (mirrors : fs.Mirrors directory stored) (back : ReadsBack set) :
    (fs.withFixtures directory key set).Mirrors directory (Record.insert stored key set) := by
  refine ⟨mirrors.keeps.withFixtures back, fun other plain => ?_⟩
  rw [fixtures?_withFixtures back]
  split
  · rename_i same
    rw [same, Record.get?_insert_self]
  · rename_i differ
    rw [Record.get?_insert_of_ne _ _ differ, mirrors.agrees other plain]

/-- Files and a record that hold the same answer a call alike, and hold the same after it. -/
theorem perform (mirrors : fs.Mirrors directory stored) {call : StoreCall}
    (plain : PlainKey call.key)
    (back : ∀ key set, call = .save key set → ReadsBack set) :
    ∃ answer fs' stored',
      (call.perform (inDirectory system directory)).run.run fs = (.ok answer, fs') ∧
        (call.perform inMemory).run.run stored = (.ok answer, stored') ∧
        fs'.Mirrors directory stored' := by
  cases call with
  | load key =>
    change PlainKey key at plain
    refine ⟨some ((Record.get? stored key).getD .empty), fs, stored, ?_, rfl, mirrors⟩
    rw [StoreCall.perform, Failure.run_bind_ok (mirrors.holds plain)]
    rfl
  | save key set =>
    change PlainKey key at plain
    refine ⟨none, fs.withFixtures directory key set, Record.insert stored key set, ?_, rfl,
      mirrors.withFixtures (back key set rfl)⟩
    rw [StoreCall.perform, Failure.run_bind_ok (mirrors.keeps.run_save plain set)]
    rfl

end Files.Mirrors

end PropSandbox
