import PropSandbox.Component.Folder
import PropSandbox.Proofs.Declared

/-!
# The first fault of a declaration

The declarations inside a declaration are its nodes, listed before the nodes inside them and each at
its path (`Declaration.nodes`). A node is ill-formed by itself, whatever stands in it
(`Declaration.IllFormed`). Building walks over the nodes in that order and stops at the first that
is ill-formed, with an error at its path. What was built until then is recorded in the library, but
under new identities only, so nothing is to be seen of it where the validators from before are
looked at.
-/

namespace PropSandbox

/-! ## Nodes -/

namespace Declaration

/-- The declarations that a declaration is built from, in order and each at its path: the fields of
a shape, the items of a list, the values of a map, the candidates of a union. -/
def children (prop : String) : Declaration → List (String × Declaration)
  | .short _ => []
  | .full form =>
    match Kind.ofDeclaredName form.type with
    | .built .shape => (form.fields.getD []).map fun field => (prop ++ "." ++ field.1, field.2)
    | .built .arrayOf => form.element.toList.map fun d => (prop ++ "[]", d)
    | .built .objectOf => form.element.toList.map fun d => (prop ++ "[]", d)
    | .built .oneOfType =>
      (form.types.getD []).zipIdx.map fun candidate =>
        (prop ++ "[" ++ toString candidate.2 ++ "]", candidate.1)
    | _ => []

theorem mem_parts_of_mem_children {prop : String} {d : Declaration} {node : String × Declaration}
    (listed : node ∈ d.children prop) : node.2 ∈ d.parts := by
  cases d with
  | short text => cases listed
  | full form =>
    simp only [parts, List.mem_append]
    rw [children] at listed
    split at listed
    · obtain ⟨field, known, rfl⟩ := List.mem_map.1 listed
      exact .inl (.inr (List.mem_map.2 ⟨field, known, rfl⟩))
    · obtain ⟨d, known, rfl⟩ := List.mem_map.1 listed
      exact .inl (.inl known)
    · obtain ⟨d, known, rfl⟩ := List.mem_map.1 listed
      exact .inl (.inl known)
    · obtain ⟨candidate, known, rfl⟩ := List.mem_map.1 listed
      exact .inr (List.fst_mem_of_mem_zipIdx known)
    · cases listed

theorem sizeOf_lt_of_mem_parts {d part : Declaration} (member : part ∈ d.parts) :
    sizeOf part < sizeOf d := by
  cases d with
  | short text => cases member
  | full form =>
    obtain ⟨type, required, element, fields, values, types, className⟩ := form
    simp only [parts, List.mem_append] at member
    rcases member with (isElement | isField) | isType
    · cases element with
      | none => cases isElement
      | some d =>
        obtain rfl := List.mem_singleton.1 isElement
        simp
        omega
    · cases fields with
      | none => cases isField
      | some fields =>
        obtain ⟨⟨name, d⟩, known, rfl⟩ := List.mem_map.1 isField
        have less := List.sizeOf_lt_of_mem known
        simp at less ⊢
        omega
    · cases types with
      | none => cases isType
      | some types =>
        have less := List.sizeOf_lt_of_mem isType
        simp at less ⊢
        omega

/-- The nodes of a declaration at a path: itself first, then the nodes of its children. -/
def nodes (prop : String) (d : Declaration) : List (String × Declaration) :=
  (prop, d) :: (d.children prop).attach.flatMap fun ⟨node, _⟩ => nodes node.1 node.2
termination_by sizeOf d
decreasing_by
  rename_i listed
  exact sizeOf_lt_of_mem_parts (mem_parts_of_mem_children listed)

/-- The nodes of some declarations, each at its path. -/
def nodesOf (declarations : List (String × Declaration)) : List (String × Declaration) :=
  declarations.flatMap fun node => node.2.nodes node.1

theorem nodes_eq (prop : String) (d : Declaration) :
    d.nodes prop = (prop, d) :: nodesOf (d.children prop) := by
  rw [nodes, nodesOf, List.flatMap_subtype]
  · rw [List.unattach_attach]
  · exact fun _ _ => rfl

/-! ## Ill-formed nodes -/

/-- What a constructor that is given no argument of its own reports. -/
def lacking (form : FullDeclaration Declaration) : BuiltKind → DeclarationFault
  | .shape => .lacks "shape" "fields"
  | .arrayOf => .lacks form.type "of"
  | .objectOf => .lacks form.type "of"
  | .instanceOf => .lacks "instanceOf" "class"
  | .oneOf => .lacks "oneOf" "values"
  | .oneOfType => .lacks "oneOfType" "types"

/-- A node is at fault by itself: a shorthand names no leaf of the library, a constructor lacks the
member that belongs to it, or nobody knows the type of a full form. -/
inductive IllFormed (lib : Library) : Declaration → DeclarationFault → Prop where
  | notALeaf {text name : String} {required : Bool} {kind : Kind}
      (written : Shorthand text name required) (named : Kind.Named name kind)
      (unknown : lib.leaf? kind = none) : IllFormed lib (.short text) (.notALeaf name)
  | lacks {form : FullDeclaration Declaration} {kind : BuiltKind}
      (named : Kind.Named form.type (.built kind)) (missing : form.construction? kind = none) :
      IllFormed lib (.full form) (lacking form kind)
  | unknownType {form : FullDeclaration Declaration} {kind : Kind}
      (named : Kind.Named form.type kind) (single : kind.isBuilt = false)
      (unknown : lib.leaf? kind = none) : IllFormed lib (.full form) (.unknownType form.type)

/-- The fault of a node, if it has one. -/
def fault? (lib : Library) : Declaration → Option DeclarationFault
  | .short text =>
    let (name, _) := shortParts text
    if (lib.leaf? (Kind.ofDeclaredName name)).isSome then none else some (.notALeaf name)
  | .full form =>
    match Kind.ofDeclaredName form.type with
    | .built kind => if (form.construction? kind).isSome then none else some (lacking form kind)
    | kind => if (lib.leaf? kind).isSome then none else some (.unknownType form.type)

variable {lib : Library}

theorem fault?_full_built (lib : Library) {form : FullDeclaration Declaration} {kind : BuiltKind}
    (named : Kind.ofDeclaredName form.type = .built kind) : (Declaration.full form).fault? lib =
      if (form.construction? kind).isSome then none else some (lacking form kind) := by
  simp only [fault?, named]

theorem fault?_full_single (lib : Library) {form : FullDeclaration Declaration} {kind : Kind}
    (named : Kind.ofDeclaredName form.type = kind) (single : kind.isBuilt = false) :
    (Declaration.full form).fault? lib =
      if (lib.leaf? kind).isSome then none else some (.unknownType form.type) := by
  cases kind with
  | built kind => cases single
  | _ => simp only [fault?, named]

theorem illFormed_iff {d : Declaration} {fault : DeclarationFault} :
    IllFormed lib d fault ↔ d.fault? lib = some fault := by
  constructor
  · intro illFormed
    cases illFormed with
    | notALeaf written named unknown =>
      obtain rfl := named.unique (Kind.named_ofDeclaredName _)
      simp [fault?, shorthand_iff.1 written, unknown]
    | lacks named missing =>
      have same := named.unique (Kind.named_ofDeclaredName _)
      simp [fault?_full_built _ same.symm, missing]
    | unknownType named single unknown =>
      have same := named.unique (Kind.named_ofDeclaredName _)
      simp [fault?_full_single _ same.symm single, unknown]
  · intro found
    cases d with
    | short text =>
      obtain ⟨⟨name, required⟩, isParts⟩ : ∃ parts, shortParts text = parts := ⟨_, rfl⟩
      simp only [fault?, isParts] at found
      split at found
      · cases found
      · rename_i unknown
        cases found
        have named := Kind.named_ofDeclaredName name
        exact .notALeaf (shorthand_iff.2 isParts) named (by simpa using unknown)
    | full form =>
      have named := Kind.named_ofDeclaredName form.type
      obtain ⟨kind, isKind⟩ : ∃ kind, Kind.ofDeclaredName form.type = kind := ⟨_, rfl⟩
      rw [isKind] at named
      cases built : kind.isBuilt with
      | false =>
        rw [fault?_full_single lib isKind built] at found
        split at found
        · cases found
        · rename_i unknown
          cases found
          exact .unknownType named built (by simpa using unknown)
      | true =>
        cases kind with
        | built kind =>
          rw [fault?_full_built lib isKind] at found
          split at found
          · cases found
          · rename_i missing
            cases found
            exact .lacks named (by simpa using missing)
        | _ => cases built

/-- The first ill-formed one among nodes: what stands before it is well-formed. -/
def FirstIllFormed (lib : Library) (nodes : List (String × Declaration)) (path : String)
    (fault : DeclarationFault) : Prop :=
  ∃ before d after, nodes = before ++ (path, d) :: after ∧ IllFormed lib d fault ∧
    ∀ node ∈ before, ∀ other, ¬ IllFormed lib node.2 other

/-- The error for the first ill-formed one among nodes. -/
def firstFault? (lib : Library) (nodes : List (String × Declaration)) : Option SandboxError :=
  nodes.findSome? fun node => (node.2.fault? lib).map (.invalidDeclaration node.1)

theorem firstFault?_eq_some_iff {nodes : List (String × Declaration)} {error : SandboxError} :
    firstFault? lib nodes = some error ↔ ∃ path fault,
      error = .invalidDeclaration path fault ∧ FirstIllFormed lib nodes path fault := by
  rw [firstFault?, List.findSome?_eq_some_iff]
  constructor
  · rintro ⟨before, ⟨path, d⟩, after, whole, found, earlier⟩
    obtain ⟨fault, isFault, rfl⟩ := Option.map_eq_some_iff.1 found
    refine ⟨path, fault, rfl, before, d, after, whole, illFormed_iff.2 isFault, ?_⟩
    intro node member other illFormed
    have none := earlier node member
    rw [illFormed_iff.1 illFormed] at none
    cases none
  · rintro ⟨path, fault, rfl, before, d, after, whole, illFormed, earlier⟩
    refine ⟨before, (path, d), after, whole, ?_, fun node member => ?_⟩
    · rw [illFormed_iff.1 illFormed, Option.map_some]
    · cases found : node.2.fault? lib with
      | none => rfl
      | some other => exact absurd (illFormed_iff.2 found) (earlier node member other)

theorem exists_firstFault?_iff {nodes : List (String × Declaration)} :
    (∃ error, firstFault? lib nodes = some error) ↔
      ∃ node ∈ nodes, ∃ fault, IllFormed lib node.2 fault := by
  rw [← Option.isSome_iff_exists, firstFault?, List.findSome?_isSome_iff]
  refine exists_congr fun node => and_congr_right fun _ => ?_
  rw [Option.isSome_map, Option.isSome_iff_exists]
  exact exists_congr fun fault => illFormed_iff.symm

end Declaration

/-! ## Undisturbed libraries -/

namespace Library

variable {lib lib' lib'' : Library}

/-- A library in which everything from before looks as it did. -/
structure Undisturbed (lib lib' : Library) : Prop where
  later : lib.Later lib'
  leaf : ∀ kind, lib'.leaf? kind = lib.leaf? kind

theorem Undisturbed.refl (lib : Library) : lib.Undisturbed lib :=
  ⟨.refl lib, fun _ => rfl⟩

theorem Undisturbed.trans (first : lib.Undisturbed lib') (second : lib'.Undisturbed lib'') :
    lib.Undisturbed lib'' :=
  ⟨first.later.trans second.later, fun kind => (second.leaf kind).trans (first.leaf kind)⟩

theorem undisturbed_make (lib : Library) (construction : Construction Validator) :
    lib.Undisturbed (construction.make.run lib).2 := by
  refine ⟨lib.later_make construction, fun kind => ?_⟩
  cases kind with
  | leaf kind =>
    rw [Construction.make_eq]
    simp only [leaf?, construct, chainable, StateT.run, noted]
    split <;> rfl
  | built kind => rfl
  | extension name => rw [leaf?, leaf?, lib.make_extensions]

/-- Validators from before have the metadata and the type that they had. -/
theorem Undisturbed.kept (undisturbed : lib.Undisturbed lib') {v : Validator}
    (older : v.id.number < lib.next) :
    lib'.metadata? v = lib.metadata? v ∧ lib'.infer v = lib.infer v :=
  ⟨undisturbed.later.agree v.id older, infer_of_agree undisturbed.later.agree v older⟩

end Library

/-! ## Building -/

namespace Building

variable {α β : Type} {lib : Library} {nodes more : List (String × Declaration)} {work : Building α}

/-- The error that building stops with, if it does. -/
def failure? (work : Building α) (lib : Library) : Option SandboxError :=
  match (work.run.run lib).1 with
  | .ok _ => none
  | .error error => some error

/-- The library that building leaves behind, whether it stops with an error or not. -/
def after (work : Building α) (lib : Library) : Library :=
  (work.run.run lib).2

/-- Building stops at the first ill-formed one among nodes, and disturbs nothing on the way. -/
def Finds (lib : Library) (nodes : List (String × Declaration)) (work : Building α) : Prop :=
  ∀ current, lib.Undisturbed current →
    failure? work current = Declaration.firstFault? lib nodes ∧
      current.Undisturbed (after work current)

theorem finds_pure (a : α) : Finds lib [] (pure a) :=
  fun current _ => ⟨rfl, .refl current⟩

theorem finds_make (lib : Library) (construction : Construction Validator) :
    Finds lib [] (liftM construction.make : Building Validator) :=
  fun current _ => ⟨rfl, current.undisturbed_make construction⟩

theorem Finds.bind {next : α → Building β} (first : Finds lib nodes work)
    (second : ∀ a, Finds lib more (next a)) : Finds lib (nodes ++ more) (work >>= next) := by
  intro current undisturbed
  obtain ⟨found, still⟩ := first current undisturbed
  have joined : Declaration.firstFault? lib (nodes ++ more) =
      (Declaration.firstFault? lib nodes).or (Declaration.firstFault? lib more) :=
    List.findSome?_append
  rw [joined, ← found]
  unfold failure?
  unfold after at still ⊢
  rw [ExceptT.run_bind, StateT.run_bind]
  generalize StateT.run (ExceptT.run work) current = outcome at still ⊢
  obtain ⟨result, between⟩ := outcome
  cases result with
  | error error => exact ⟨rfl, still⟩
  | ok a =>
    obtain ⟨later, beyond⟩ := second a between (undisturbed.trans still)
    exact ⟨later, still.trans beyond⟩

/-- The result of building plays no part. -/
theorem Finds.result (finds : Finds lib nodes work) (f : α → β) :
    Finds lib nodes (do
      let a ← work
      pure (f a)) := by
  have whole := finds.bind fun a => finds_pure (f a)
  rwa [List.append_nil] at whole

variable {prop : String} {d : Declaration}

/-- A well-formed node is passed over. -/
theorem Finds.past (wellFormed : d.fault? lib = none) (finds : Finds lib nodes work) :
    Finds lib ((prop, d) :: nodes) work := by
  intro current undisturbed
  have skipped : Declaration.firstFault? lib ((prop, d) :: nodes) =
      Declaration.firstFault? lib nodes := by
    rw [Declaration.firstFault?, List.findSome?_cons_of_isNone]
    · rfl
    · simp [wellFormed]
  rw [skipped]
  exact finds current undisturbed

/-- At an ill-formed node building stops. -/
theorem finds_fault {fault : DeclarationFault} (found : d.fault? lib = some fault) :
    Finds lib [(prop, d)] (Declaration.fault prop fault : Building α) := by
  intro current _
  refine ⟨?_, .refl current⟩
  rw [Declaration.firstFault?, List.findSome?_singleton, found]
  rfl

theorem run_leaf (kind : Kind) (otherwise : DeclarationFault) :
    (Declaration.leaf kind prop otherwise).run.run lib =
      ((lib.leaf? kind).elim (.error (.invalidDeclaration prop otherwise)) .ok, lib) := by
  have current : (get : Building Library).run.run lib = (.ok lib, lib) := rfl
  rw [Declaration.leaf, ExceptT.run_bind, StateT.run_bind, current]
  dsimp only [bind]
  cases lib.leaf? kind <;> rfl

/-- Looking up a leaf decides about a node that stands for one. -/
theorem finds_leaf {kind : Kind} {otherwise : DeclarationFault}
    (isFault : d.fault? lib = if (lib.leaf? kind).isSome then none else some otherwise) :
    Finds lib [(prop, d)] (Declaration.leaf kind prop otherwise) := by
  intro current undisturbed
  have same := undisturbed.leaf kind
  rw [after, failure?, run_leaf, same, Declaration.firstFault?, List.findSome?_singleton, isFault]
  refine ⟨?_, .refl current⟩
  cases lib.leaf? kind <;> rfl

/-- A constructor that is called on what was built fails at nothing of its own. -/
theorem Finds.construct (finds : Finds lib nodes work) (construction : α → Construction Validator)
    (required : Bool) :
    Finds lib nodes (do
      let made ← work
      let v ← liftM (construction made).make
      pure (Declaration.flavored v required)) := by
  have whole := finds.bind fun made =>
    (finds_make lib (construction made)).result fun v => Declaration.flavored v required
  rwa [List.append_nil] at whole

end Building

namespace Declaration

open Building (Finds)

variable {lib : Library} {prop : String}

/-- Building the declaration stops at the first of its nodes that is ill-formed. -/
def Walked (lib : Library) (d : Declaration) : Prop :=
  ∀ prop, Finds lib (d.nodes prop) (d.build prop)

theorem finds_eachField {fields : List (String × Declaration)}
    (walked : ∀ d ∈ fields.map Prod.snd, d.Walked lib) :
    Finds lib (nodesOf (fields.map fun field => (prop ++ "." ++ field.1, field.2)))
      (buildEachField prop fields) := by
  induction fields with
  | nil => exact Building.finds_pure []
  | cons field rest ih =>
    obtain ⟨name, d⟩ := field
    obtain ⟨first, others⟩ := List.forall_mem_cons.1 walked
    have later := fun v => (ih others).result fun made => (name, v) :: made
    exact (first (fieldPath prop name)).bind later

theorem finds_eachType {types : List Declaration} (walked : ∀ d ∈ types, d.Walked lib)
    (index : Nat) :
    Finds lib
      (nodesOf ((types.zipIdx index).map fun candidate =>
        (prop ++ "[" ++ toString candidate.2 ++ "]", candidate.1)))
      (buildEachType prop index types) := by
  induction types generalizing index with
  | nil => exact Building.finds_pure []
  | cons d rest ih =>
    obtain ⟨first, others⟩ := List.forall_mem_cons.1 walked
    have later := fun v => (ih others (index + 1)).result fun made => v :: made
    exact (first (candidatePath prop index)).bind later

variable {form : FullDeclaration Declaration}

theorem finds_element
    (isFault : (full form).fault? lib =
      if form.element.isSome then none else some (.lacks form.type "of"))
    (walked : ∀ d ∈ form.element.toList, d.Walked lib) :
    Finds lib ((prop, full form) :: nodesOf (form.element.toList.map fun d => (prop ++ "[]", d)))
      (buildElement prop form.type form.element) := by
  cases given : form.element with
  | none =>
    rw [given] at isFault
    exact Building.finds_fault isFault
  | some d =>
    rw [given] at isFault walked
    have inside := List.forall_mem_singleton.1 walked (elementPath prop)
    have single : nodesOf ((some d).toList.map fun d => (prop ++ "[]", d)) =
        d.nodes (elementPath prop) := List.flatMap_singleton _ _
    rw [single]
    exact inside.past isFault

theorem finds_fields
    (isFault : (full form).fault? lib =
      if form.fields.isSome then none else some (.lacks "shape" "fields"))
    (walked : ∀ d ∈ (form.fields.getD []).map Prod.snd, d.Walked lib) :
    Finds lib
      ((prop, full form) ::
        nodesOf ((form.fields.getD []).map fun field => (prop ++ "." ++ field.1, field.2)))
      (buildFields prop form.fields) := by
  cases given : form.fields with
  | none =>
    rw [given] at isFault
    exact Building.finds_fault isFault
  | some fields =>
    rw [given] at isFault walked
    exact (finds_eachField walked).past isFault

theorem finds_types
    (isFault : (full form).fault? lib =
      if form.types.isSome then none else some (.lacks "oneOfType" "types"))
    (walked : ∀ d ∈ form.types.getD [], d.Walked lib) :
    Finds lib
      ((prop, full form) ::
        nodesOf ((form.types.getD []).zipIdx.map fun candidate =>
          (prop ++ "[" ++ toString candidate.2 ++ "]", candidate.1)))
      (buildTypes prop form.types) := by
  cases given : form.types with
  | none =>
    rw [given] at isFault
    exact Building.finds_fault isFault
  | some types =>
    rw [given] at isFault walked
    exact (finds_eachType walked 0).past isFault

theorem Walked.short (text : String) : (Declaration.short text).Walked lib := by
  intro prop
  obtain ⟨⟨name, required⟩, isParts⟩ : ∃ parts, shortParts text = parts := ⟨_, rfl⟩
  have isFault : (Declaration.short text).fault? lib =
      if (lib.leaf? (Kind.ofDeclaredName name)).isSome then none else some (.notALeaf name) := by
    simp only [fault?, isParts]
  rw [build, isParts, nodes_eq]
  exact (Building.finds_leaf isFault).result fun v => flavored v required

theorem Walked.full (parts : ∀ part ∈ (Declaration.full form).parts, part.Walked lib) :
    (Declaration.full form).Walked lib := by
  intro prop
  simp only [Declaration.parts, List.forall_mem_append] at parts
  obtain ⟨⟨elementWalked, fieldsWalked⟩, typesWalked⟩ := parts
  obtain ⟨kind, isKind⟩ : ∃ kind, Kind.ofDeclaredName form.type = kind := ⟨_, rfl⟩
  rw [nodes_eq, children, build, buildFull.eq_def]
  dsimp only
  rw [isKind]
  cases kind with
  | leaf kind =>
    have isFault := fault?_full_single lib isKind rfl
    exact (Building.finds_leaf isFault).result fun v => flavored v form.required
  | extension name =>
    have isFault := fault?_full_single lib isKind rfl
    exact (Building.finds_leaf isFault).result fun v => flavored v form.required
  | built kind =>
    have isFault := fault?_full_built lib isKind
    cases kind with
    | shape =>
      rw [FullDeclaration.construction?, Option.isSome_map] at isFault
      exact (finds_fields isFault fieldsWalked).construct .shape form.required
    | arrayOf =>
      rw [FullDeclaration.construction?, Option.isSome_map] at isFault
      exact (finds_element isFault elementWalked).construct .arrayOf form.required
    | objectOf =>
      rw [FullDeclaration.construction?, Option.isSome_map] at isFault
      exact (finds_element isFault elementWalked).construct .objectOf form.required
    | instanceOf =>
      rw [FullDeclaration.construction?, Option.isSome_map] at isFault
      cases given : form.className with
      | none =>
        rw [given] at isFault
        exact (Building.finds_fault isFault).result fun v => flavored v form.required
      | some name =>
        rw [given] at isFault
        have made := Building.finds_make lib (.instanceOf name)
        exact (made.result fun v => flavored v form.required).past isFault
    | oneOf =>
      rw [FullDeclaration.construction?, Option.isSome_map] at isFault
      cases given : form.values with
      | none =>
        rw [given] at isFault
        exact (Building.finds_fault isFault).result fun v => flavored v form.required
      | some values =>
        rw [given] at isFault
        have made := Building.finds_make lib (.oneOf values)
        exact (made.result fun v => flavored v form.required).past isFault
    | oneOfType =>
      rw [FullDeclaration.construction?, Option.isSome_map] at isFault
      exact (finds_types isFault typesWalked).construct .oneOfType form.required

/-- The induction is on the declarations inside. -/
theorem walked (lib : Library) (d : Declaration) : d.Walked lib := by
  induction d using induct with
  | step d parts =>
    cases d with
    | short text => exact .short text
    | full form => exact .full parts

end Declaration

/-! ## Components -/

namespace ComponentDeclaration

/-- The nodes of the declared props of a component, each prop under its name. -/
def nodes (d : ComponentDeclaration) : List (String × Declaration) :=
  Declaration.nodesOf d.props

theorem finds_buildProps (lib : Library) (declared : Record Declaration)
    (props : Record Validator) :
    Building.Finds lib (Declaration.nodesOf declared) (buildProps props declared) := by
  induction declared generalizing props with
  | nil => exact Building.finds_pure props
  | cons prop rest ih =>
    obtain ⟨name, d⟩ := prop
    exact (d.walked lib name).bind fun v => ih (Record.insert props name v)

end ComponentDeclaration

theorem Registry.finds_registerDeclared (lib : Library) (registry : Registry)
    (d : ComponentDeclaration) : Building.Finds lib d.nodes (registry.registerDeclared d) := by
  have built := (ComponentDeclaration.finds_buildProps lib d.props []).result
    fun props => (⟨d.name, d.description, props⟩ : Component)
  exact built.result registry.register

namespace Building

variable {α : Type} {lib : Library} {nodes : List (String × Declaration)} {work : Building α}

theorem Finds.fails_iff (finds : Finds lib nodes work) :
    (∃ error, failure? work lib = some error) ↔
      ∃ node ∈ nodes, ∃ fault, Declaration.IllFormed lib node.2 fault := by
  rw [(finds lib (.refl lib)).1]
  exact Declaration.exists_firstFault?_iff

theorem Finds.error_eq (finds : Finds lib nodes work) {error : SandboxError}
    (failed : failure? work lib = some error) :
    ∃ path fault, error = .invalidDeclaration path fault ∧
      Declaration.FirstIllFormed lib nodes path fault := by
  rw [(finds lib (.refl lib)).1] at failed
  exact Declaration.firstFault?_eq_some_iff.1 failed

end Building

/-- A faulty declaration takes nothing from a registry and adds nothing to it. -/
theorem Filling.add_of_failure {filling : Filling} {d : ComponentDeclaration} {error : SandboxError}
    (failed : Building.failure? (filling.registry.registerDeclared d) filling.library =
      some error) :
    filling.add d =
      { filling with
        library := Building.after (filling.registry.registerDeclared d) filling.library } := by
  unfold Building.failure? StateT.run at failed
  unfold Building.after StateT.run Filling.add
  generalize (filling.registry.registerDeclared d).run filling.library = outcome at failed ⊢
  obtain ⟨result, library⟩ := outcome
  cases result with
  | ok registry => cases failed
  | error _ => rfl

/-- Building a declaration fails exactly if one of its nodes is ill-formed, and it reports the first
of them in the order of the nodes, under its path. Nor does a component with an ill-formed node get
into the registry: the registry stays as it is, and every validator from before keeps its metadata
and its type. -/
theorem building_fails_at_first_illFormed :
    (∀ (lib : Library) (prop : String) (d : Declaration),
      ((∃ error, Building.failure? (d.build prop) lib = some error) ↔
        ∃ node ∈ d.nodes prop, ∃ fault, Declaration.IllFormed lib node.2 fault) ∧
      ∀ error, Building.failure? (d.build prop) lib = some error →
        ∃ path fault, error = .invalidDeclaration path fault ∧
          Declaration.FirstIllFormed lib (d.nodes prop) path fault) ∧
    ∀ (filling : Filling) (d : ComponentDeclaration),
      ((∃ error,
          Building.failure? (filling.registry.registerDeclared d) filling.library = some error) ↔
        ∃ node ∈ d.nodes, ∃ fault, Declaration.IllFormed filling.library node.2 fault) ∧
      ∀ error,
        Building.failure? (filling.registry.registerDeclared d) filling.library = some error →
        (∃ path fault, error = .invalidDeclaration path fault ∧
          Declaration.FirstIllFormed filling.library d.nodes path fault) ∧
        (filling.add d).registry = filling.registry ∧ (filling.add d).loaded = filling.loaded ∧
        ∀ v : Validator, v.id.number < filling.library.next →
          (filling.add d).library.metadata? v = filling.library.metadata? v ∧
            (filling.add d).library.infer v = filling.library.infer v := by
  refine ⟨fun lib prop d => ?_, fun filling d => ?_⟩
  · have finds := d.walked lib prop
    exact ⟨finds.fails_iff, fun error failed => finds.error_eq failed⟩
  · have finds := Registry.finds_registerDeclared filling.library filling.registry d
    refine ⟨finds.fails_iff, fun error failed => ⟨finds.error_eq failed, ?_⟩⟩
    have undisturbed := (finds filling.library (.refl _)).2
    rw [Filling.add_of_failure failed]
    exact ⟨rfl, rfl, fun v older => undisturbed.kept older⟩

/-- A shape of a text, of a list of something nobody knows, and of something else nobody knows. -/
def mysteriousDeclaration : Declaration :=
  .full ⟨"shape", true, none,
    some [("a", .short "string"),
      ("b", .full ⟨"arrayOf", false, some (.short "mystery"), none, none, none, none⟩),
      ("c", .short "riddle")], none, none, none⟩

/-- A component with such a prop, after one that can be built. -/
def mysteriousComponent : ComponentDeclaration :=
  ⟨"Card", none,
    [("count", .full ⟨"arrayOf", false, some (.short "number"), none, none, none, none⟩),
      ("style", mysteriousDeclaration)]⟩

/-- The items of the list are reported, and the component is not registered. -/
theorem mysteriousComponent_fails :
    Declaration.FirstIllFormed .fresh (mysteriousDeclaration.nodes "style") "style.b[]"
      (.notALeaf "mystery") ∧
    ((⟨[], .fresh, 0⟩ : Filling).add mysteriousComponent).registry = [] := by
  obtain ⟨declarations, components⟩ := building_fails_at_first_illFormed
  constructor
  · have failed : Building.failure? (mysteriousDeclaration.build "style") .fresh =
        some (.invalidDeclaration "style.b[]" (.notALeaf "mystery")) := by
      decide +kernel
    obtain ⟨path, fault, same, first⟩ := (declarations _ _ _).2 _ failed
    cases same
    exact first
  · have failed : Building.failure? (Registry.registerDeclared [] mysteriousComponent) .fresh =
        some (.invalidDeclaration "style.b[]" (.notALeaf "mystery")) := by
      decide +kernel
    exact ((components ⟨[], .fresh, 0⟩ _).2 _ failed).2.1

end PropSandbox
