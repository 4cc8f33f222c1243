/-!
# Paths

A path names a file by the names on the way to it, with slashes between. Empty names and single
points on the way stand for nothing.
-/

namespace PropSandbox

namespace Path

def isAbsolute (path : String) : Bool :=
  path.toList.head? == some '/'

/-- The path seen from a directory. An absolute path is itself. -/
def join (directory path : String) : String :=
  if isAbsolute path then path
  else
    match directory.toList.getLast? with
    | none | some '/' => directory ++ path
    | some _ => directory ++ "/" ++ path

/-- Leaves out what stands for nothing at the end of a path, given back to front. -/
def trimmedBack : List Char → List Char
  | '/' :: [] => ['/']
  | '/' :: rest => trimmedBack rest
  | '.' :: '/' :: [] => ['/']
  | '.' :: '/' :: rest => trimmedBack rest
  | back => back

/-- The path of the directory that holds a file or directory: the path without its last name. -/
def parent? (path : String) : Option String :=
  match trimmedBack path.toList.reverse with
  | [] => none
  | ['/'] => none
  | back =>
    match back.dropWhile (· != '/') with
    | [] => some ""
    | others => some (String.ofList (trimmedBack others).reverse)

/-- The names on the way, in order. -/
def names (path : String) : List String :=
  ((path.toList.splitOn '/').map String.ofList).filter fun name => name != "" && name != "."

def fileName? (path : String) : Option String :=
  (names path).getLast?.filter (· != "..")

/-- What stands after the last point of a file name; a point at its start counts for nothing. -/
def extension? (path : String) : Option String :=
  (fileName? path).bind fun name =>
    let back := name.toList.reverse
    let ending := back.takeWhile (· != '.')
    match back.drop ending.length with
    | '.' :: _ :: _ => some (String.ofList ending.reverse)
    | _ => none

/-! ## Joined paths -/

variable {directory path : String}

/-- A slash divides the names before it from those after it. -/
theorem names_slash (front back : List Char) :
    names (String.ofList (front ++ '/' :: back)) =
      names (String.ofList front) ++ names (String.ofList back) := by
  simp [names, List.splitOn_append_cons_self]

/-- A path is joined to a directory by a slash, unless the directory is named by nothing or ends in
a slash already. -/
theorem join_cases (relative : isAbsolute path = false) :
    directory = "" ∧ join directory path = path ∨
      (∃ front, directory = String.ofList (front ++ ['/']) ∧
        join directory path = String.ofList (front ++ '/' :: path.toList)) ∨
      directory ≠ "" ∧
        join directory path = String.ofList (directory.toList ++ '/' :: path.toList) := by
  have notAbsolute : ¬ isAbsolute path = true := by simp [relative]
  rw [join, if_neg notAbsolute]
  cases last : directory.toList.getLast? with
  | none =>
    have empty : directory = "" := String.toList_eq_nil_iff.1 (List.getLast?_eq_none_iff.1 last)
    exact .inl ⟨empty, by simp [empty]⟩
  | some c =>
    by_cases slash : c = '/'
    · obtain ⟨front, split⟩ := List.getLast?_eq_some_iff.1 last
      rw [slash] at split
      refine .inr (.inl ⟨front, by rw [← split, String.ofList_toList], ?_⟩)
      simp [slash, ← String.toList_inj, split]
    · refine .inr (.inr ⟨?_, by simp [← String.toList_inj]⟩)
      rintro rfl
      cases last

/-- The way to what is joined to a directory leads through the directory. -/
theorem names_join (relative : isAbsolute path = false) :
    names (join directory path) = names directory ++ names path := by
  rcases @join_cases directory path relative with ⟨rfl, same⟩ | ⟨front, rfl, same⟩ | ⟨given, same⟩
  · rw [same]
    rfl
  · rw [same, names_slash, names_slash, String.ofList_toList]
    simp [names]
  · rw [same, names_slash, String.ofList_toList, String.ofList_toList]

theorem isAbsolute_join (relative : isAbsolute path = false) :
    isAbsolute (join directory path) = isAbsolute directory := by
  rcases @join_cases directory path relative with ⟨rfl, same⟩ | ⟨front, rfl, same⟩ | ⟨given, same⟩
  · rw [same, relative]
    rfl
  · rw [same]
    cases front <;> simp [isAbsolute]
  · rw [same]
    cases letters : directory.toList with
    | nil => exact absurd (String.toList_eq_nil_iff.1 letters) given
    | cons c rest => simp [isAbsolute, letters]

end Path

end PropSandbox
