/-
This file models `core/app/src/content/compatibility.rs`: which loader and game
version would suit a set of selected projects, judged by what the provider lists
for each of them. It compares that judgement with the resolver's own choice of a
version once an instance with the loader and the game version exists.
-/

import Axial.App.Resolution

namespace Axial.App

open Bytes Fallible List
open Axial.Fs (isControl)
open Axial.Minecraft (LoaderComponentId trim trim_eq_self)

/-! ### Loaders -/

def shortKey : LoaderComponentId → String
  | .fabric => "fabric"
  | .quilt => "quilt"
  | .forge => "forge"
  | .neoForge => "neoforge"

def componentName : LoaderComponentId → String
  | .fabric => "net.fabricmc.fabric-loader"
  | .quilt => "org.quiltmc.quilt-loader"
  | .forge => "net.minecraftforge"
  | .neoForge => "net.neoforged"

def displayName : LoaderComponentId → String
  | .fabric => "Fabric"
  | .quilt => "Quilt"
  | .forge => "Forge"
  | .neoForge => "NeoForge"

/-- `LOADER_RANK`. -/
def rankedLoaders : List LoaderComponentId := [.fabric, .neoForge, .forge, .quilt]

def loaderComponentFromShortKey (value : String) : Option LoaderComponentId :=
  rankedLoaders.find? fun component => shortKey component = value

def loaderKey : Option LoaderComponentId → String
  | some loader => shortKey loader
  | none => ""

def loaderRank (loader : String) : Nat :=
  match loaderComponentFromShortKey loader with
  | some loader => rankedLoaders.idxOf loader
  | none => rankedLoaders.length

variable {value : String}

theorem loaderComponentFromShortKey_eq_some {loader : LoaderComponentId} :
    loaderComponentFromShortKey value = some loader ↔ value = shortKey loader := by
  constructor
  · intro found
    have named := find?_some found
    exact (of_decide_eq_true named).symm
  · rintro rfl
    cases loader <;> decide

/-! ### Items -/

structure CompatVersion where
  loaders : List LoaderComponentId
  gameVersions : List String
  installable : Bool

structure CompatItem where
  canonicalId : CanonicalId
  title : String
  kind : ContentKind
  versions : List CompatVersion

/-- `from_provider`, applied to a version as `compatibility` applies it. -/
def CompatVersion.fromProvider (version : ContentVersion) : CompatVersion where
  loaders := version.loaders.filterMap loaderComponentFromShortKey
  gameVersions := version.gameVersions
  installable := version.primaryFile.isSome

/-- The versions that a selection allows. -/
def compatVersions (selection : ResolutionSelection) (versions : List ContentVersion) :
    List CompatVersion :=
  (versions.filter fun version => selection.versionId.all fun id => version.id = id).map
    CompatVersion.fromProvider

def itemSupports (item : CompatItem) (loader : Option LoaderComponentId) (gameVersion : String) :
    Bool :=
  item.versions.any fun version =>
    version.installable && version.gameVersions.any (· = gameVersion) &&
      (!item.kind.filtersByLoader ||
        match loader with
        | some loader => loader ∈ version.loaders
        | none => false)

/-! ### Candidates -/

structure CompatDrop where
  canonicalId : CanonicalId
  title : String
  deriving DecidableEq

structure CompatCandidate where
  loader : String
  loaderLabel : String
  gameVersion : String
  selectionId : String
  summary : String
  supportedCount : Nat
  totalCount : Nat
  complete : Bool
  drops : List CompatDrop
  deriving DecidableEq

def buildCandidate (loader : Option LoaderComponentId) (gameVersion : String)
    (supportedCount totalCount : Nat) (drops : List CompatDrop) : CompatCandidate :=
  let complete : Bool := supportedCount = totalCount
  { loader := loaderKey loader
    loaderLabel := (loader.map displayName).getD "Vanilla"
    gameVersion
    selectionId :=
      match loader with
      | some id => "loader_version|" ++ componentName id ++ "|" ++ gameVersion
      | none => "vanilla|" ++ gameVersion
    summary :=
      if complete && totalCount = 1 then "Works here"
      else if complete then "All " ++ toString totalCount ++ " work here"
      else toString supportedCount ++ " of " ++ toString totalCount ++ " work here"
    supportedCount
    totalCount
    complete
    drops }

/-- The loaders that the selected projects ship for, or none at all. -/
def candidateLoaders (items : List CompatItem) : List (Option LoaderComponentId) :=
  if items.any fun item => item.kind.filtersByLoader then
    let loaders := rankedLoaders.filter fun loader => items.any fun item =>
      item.kind.filtersByLoader && item.versions.any fun version =>
        version.installable && decide (loader ∈ version.loaders)
    if loaders = [] then [none] else loaders.map some
  else [none]

/-- The parts of a text between its dots. -/
def dotted (value : String) : List String := (value.toList.splitOn '.').map String.ofList

def isReleaseVersion (value : String) : Bool :=
  value ≠ "" && (dotted value).all fun part => part ≠ "" && part.toList.all Char.isDigit

/-- `parse::<u32>().unwrap_or(0)`. -/
def parsePart (part : String) : Nat :=
  let digits := if part.toList.head? = some '+' then part.toList.tail else part.toList
  if digits ≠ [] ∧ digits.all Char.isDigit then
    let value := digits.foldl (fun value digit => 10 * value + (digit.toNat - '0'.toNat)) 0
    if value < 2 ^ 32 then value else 0
  else 0

def versionKey (value : String) : List Nat := (dotted value).map parsePart

/-- Remove repetitions that follow each other. -/
def dedupConsecutive (values : List String) : List String := values.destutter (· ≠ ·)

def candidateGameVersions (items : List CompatItem) : List String :=
  let versions := (((items.flatMap CompatItem.versions).filter CompatVersion.installable).flatMap
    CompatVersion.gameVersions).filter isReleaseVersion
  dedupConsecutive (versions.insertionSort fun left right => versionKey right ≤ versionKey left)

/-- Most supported first, then the newest game version, then the order of the loaders. -/
def candidateOrder (left right : CompatCandidate) : Ordering :=
  (compare right.supportedCount left.supportedCount).then
    ((compare (versionKey right.gameVersion) (versionKey left.gameVersion)).then
      (compare (loaderRank left.loader) (loaderRank right.loader)))

/-- The candidate of one pair, unless no item supports it. -/
def rankCandidate (items : List CompatItem) (loader : Option LoaderComponentId)
    (gameVersion : String) : Option CompatCandidate :=
  let dropped := items.filter fun item => !itemSupports item loader gameVersion
  let supportedCount := items.length - dropped.length
  if supportedCount = 0 then none
  else some (buildCandidate loader gameVersion supportedCount items.length
    (dropped.map fun item => { canonicalId := item.canonicalId, title := item.title }))

def rankCandidates (items : List CompatItem) : List CompatCandidate :=
  ((candidateLoaders items).flatMap fun loader => (candidateGameVersions items).filterMap
    (rankCandidate items loader)).insertionSort fun left right => candidateOrder left right ≠ .gt

/-- What the provider lists for a selected project, if it knows the project. -/
def selectedVersions (transport : Transport) (selection : ResolutionSelection)
    (project : Option ProjectMetadata) : Except ResolutionError (List ContentVersion) :=
  if project.isNone then .ok []
  else
    match transport.contentVersions selection.id { loader := none, gameVersion := none } with
    | .ok versions => .ok versions
    | .error (.provider (.httpStatus 404)) => .ok []
    | .error error => .error (.provider error)

def compatItem (transport : Transport) (metadata : CanonicalId → Option ProjectMetadata)
    (selection : ResolutionSelection) : Except ResolutionError CompatItem := do
  let project := metadata selection.id
  if project.any fun project => project.kind ≠ selection.kind then throw .selectedKindChanged
  if selection.kind = .modpack then throw .modpackRequiresInstance
  let versions ← selectedVersions transport selection project
  return { canonicalId := selection.id
           title := (project.map ProjectMetadata.title).getD "Unavailable content"
           kind := selection.kind
           versions := compatVersions selection versions }

def compatibility (transport : Transport) (selections : List ResolutionSelection) :
    Except ResolutionError (List CompatCandidate) := do
  if selections = [] then return []
  ensureWithinLimit .selections selections.length 256
  if ¬ (selections.map ResolutionSelection.canonicalId).Nodup then throw .duplicateSelection
  let metadata ← fromContent (transport.metadata (selections.map ResolutionSelection.id))
  let items ← selections.mapM (compatItem transport metadata)
  return rankCandidates items

/-! ### Targets -/

def validatedTarget (loader gameVersion : String) : Option ResolutionTarget :=
  let loader := trim loader
  let gameVersion := trim gameVersion
  if gameVersion = "" || decide (128 < (utf8 gameVersion).length) ||
      gameVersion.toList.any isControl ||
      loader ∉ ["", "vanilla", "fabric", "quilt", "forge", "neoforge"] then
    none
  else
    some { loader := if loader = "vanilla" then "" else loader
           gameVersion
           supportsMods := loader ∉ ["", "vanilla"] }

/-- The instance that a candidate asks for. -/
def CompatCandidate.target (candidate : CompatCandidate) : Option ResolutionTarget :=
  validatedTarget candidate.loader candidate.gameVersion

/-- A release version is written with digits and dots. -/
theorem isReleaseVersion_chars (release : isReleaseVersion value = true) {char : Char}
    (member : char ∈ value.toList) : char = '.' ∨ char.isDigit = true := by
  by_cases dot : char = '.'
  · exact .inl dot
  · right
    obtain ⟨part, inside, has⟩ := Minecraft.exists_mem_splitOn member dot
    have parts := (Bool.and_eq_true_iff.mp release).2
    have digits := all_eq_true.mp parts (String.ofList part) (mem_map_of_mem inside)
    have every := (Bool.and_eq_true_iff.mp digits).2
    rw [String.toList_ofList] at every
    exact all_eq_true.mp every char has

theorem trim_release (release : isReleaseVersion value = true) : trim value = value := by
  refine trim_eq_self fun char member => ?_
  rcases isReleaseVersion_chars release member with rfl | digit
  · decide
  · have low : 48 ≤ char.toNat ∧ char.toNat ≤ 57 := by
      simpa [Char.isDigit, UInt32.le_iff_toNat_le] using digit
    have outside : char.toNat ∉ [0x20, 0x85, 0xa0, 0x1680, 0x2028, 0x2029, 0x202f, 0x205f,
        0x3000] := by
      simp only [mem_cons, not_mem_nil, or_false]
      omega
    simp only [Minecraft.isWhitespace, outside, decide_false, Bool.or_false, Bool.or_eq_false_iff,
      Bool.and_eq_false_iff, decide_eq_false_iff_not]
    omega

theorem trim_loaderKey (loader : Option LoaderComponentId) :
    trim (loaderKey loader) = loaderKey loader := by
  rcases loader with _ | loader
  · decide
  · cases loader <;> decide

variable {loader : Option LoaderComponentId} {gameVersion : String}

/-- What an instance with a loader and a release version of the game asks of a version. -/
theorem validatedTarget_eq_some {target : ResolutionTarget}
    (release : isReleaseVersion gameVersion = true)
    (built : validatedTarget (loaderKey loader) gameVersion = some target) :
    target = { loader := loaderKey loader, gameVersion, supportsMods := loader.isSome } := by
  unfold validatedTarget at built
  simp only [trim_loaderKey, trim_release release] at built
  split at built
  · cases built
  · rw [Option.some_inj] at built
    rw [← built]
    rcases loader with _ | loader
    · rfl
    · cases loader <;> rfl

variable {kind : ContentKind}

theorem versionMatchesTarget_iff {version : ContentVersion} (named : gameVersion ≠ "") :
    versionMatchesTarget version
        { loader := loaderKey loader, gameVersion, supportsMods := loader.isSome } kind = true ↔
      gameVersion ∈ version.gameVersions ∧
        ∀ id, loader = some id → kind.filtersByLoader = true → shortKey id ∈ version.loaders := by
  have filtered : (some gameVersion).filter (· ≠ "") = some gameVersion := by
    rw [Option.filter_some, if_pos (decide_eq_true named)]
  unfold versionMatchesTarget versionMatchesFilter ResolutionTarget.filterFor
  rw [Bool.and_eq_true_iff, filtered]
  refine and_congr (by simp) ?_
  rcases loader with _ | id
  · simp
  · cases kind.filtersByLoader <;> simp [loaderKey]

/-! ### The provider lists a version once -/

variable {transport : Transport}

theorem mapVersion_id {version : Dto.Version} {mapped : ContentVersion}
    (made : mapVersion transport version = .ok mapped) : mapped.id = version.id := by
  unfold mapVersion at made
  simp only [bind_eq_ok, guard_eq_ok, pure_eq_ok] at made
  obtain ⟨-, -, -, -, -, channel, -, files, -, dependencies, -, rfl⟩ := made
  rfl

theorem mapProjectVersions_distinct {project : String} {versions : List Dto.Version}
    {mapped : List ContentVersion}
    (made : mapProjectVersions transport project versions = .ok mapped) :
    (mapped.map ContentVersion.id).Nodup := by
  unfold mapProjectVersions at made
  simp only [guard_eq_ok, bind_eq_ok, pure_eq_ok] at made
  obtain ⟨-, ⟨seen, listed⟩, folded, rfl⟩ := made
  -- What has been mapped is distinct, and all of it has been seen.
  let holds : List String × List ContentVersion → Prop := fun state =>
    (state.2.map ContentVersion.id).Nodup ∧ ∀ version ∈ state.2, version.id ∈ state.1
  have held : holds (seen, listed) := by
    refine foldlM_invariant folded ?_ ⟨nodup_nil, nofun⟩
    rintro ⟨seen, listed⟩ version - after taken ⟨distinct, inside⟩
    simp only [guard_eq_ok, bind_eq_ok, pure_eq_ok] at taken
    obtain ⟨-, unseen, next, made, rfl⟩ := taken
    refine ⟨?_, ?_⟩
    · rw [map_append, nodup_append]
      refine ⟨distinct, nodup_singleton _, ?_⟩
      rintro id before _ (_ | ⟨_, ⟨⟩⟩) rfl
      obtain ⟨other, member, same⟩ := mem_map.mp before
      rw [mapVersion_id made] at same
      exact unseen (same ▸ inside other member)
    · intro other member
      rcases mem_append.mp member with before | new
      · exact mem_cons_of_mem _ (inside other before)
      · rw [mem_singleton.mp new, mapVersion_id made]
        exact mem_cons_self
  exact held.1

variable {versions : List ContentVersion} {id : CanonicalId}

theorem contentVersions_distinct {filter : LoaderGameFilter}
    (read : transport.contentVersions id filter = .ok versions) :
    (versions.map ContentVersion.id).Nodup := by
  unfold Transport.contentVersions at read
  simp only [bind_eq_ok, pure_eq_ok] at read
  obtain ⟨project, -, -, -, answer, -, mapped, made, rfl⟩ := read
  exact (mapProjectVersions_distinct made).sublist (filter_sublist.map _)

/-! ### The two judgements -/

variable {Item : Type}

theorem foldl_mem {order : Item → Item → Ordering} (items : List Item) (first : Item) :
    items.foldl (fun best next => if order best next = .gt then best else next) first = first ∨
      items.foldl (fun best next => if order best next = .gt then best else next) first ∈ items := by
  induction items generalizing first with
  | nil => exact .inl rfl
  | cons item items ih =>
    rw [foldl_cons]
    by_cases greater : order first item = .gt
    · rw [if_pos greater]
      exact (ih first).imp_right (mem_cons_of_mem _)
    · rw [if_neg greater]
      rcases ih item with same | later
      · rw [same]
        exact .inr mem_cons_self
      · exact .inr (mem_cons_of_mem _ later)

theorem maxBy_mem {order : Item → Item → Ordering} {items : List Item} {best : Item}
    (found : maxBy order items = some best) : best ∈ items := by
  rcases items with _ | ⟨first, items⟩
  · cases found
  · rw [maxBy, Option.some_inj] at found
    rw [← found]
    rcases foldl_mem items first with same | later
    · rw [same]
      exact mem_cons_self
    · exact mem_cons_of_mem _ later

theorem exists_maxBy {Item : Type} {order : Item → Item → Ordering} {items : List Item}
    (nonempty : items ≠ []) : ∃ best, maxBy order items = some best := by
  rcases items with _ | ⟨first, items⟩
  · exact absurd rfl nonempty
  · exact ⟨_, rfl⟩

/-- Whether a version is one that the selection allows, the target accepts and that has a file to
install. -/
def Suits (selection : ResolutionSelection) (target : ResolutionTarget)
    (version : ContentVersion) : Prop :=
  (∀ id, selection.versionId = some id → version.id = id) ∧
    versionMatchesTarget version target selection.kind = true ∧ version.primaryFile.isSome = true

variable {selection : ResolutionSelection}

/-- The resolver finds a version to install when there is one. -/
theorem pick_iff {target : ResolutionTarget} (distinct : (versions.map ContentVersion.id).Nodup) :
    (∃ version, pickCompatibleVersion versions selection.versionId target selection.kind =
        some version ∧ version.primaryFile.isSome = true) ↔
      ∃ version ∈ versions, Suits selection target version := by
  unfold pickCompatibleVersion Suits
  cases selection.versionId with
  | none =>
    dsimp only
    constructor
    · rintro ⟨version, picked, file⟩
      obtain ⟨inside, suitable⟩ := mem_filter.mp (maxBy_mem picked)
      exact ⟨version, inside, nofun, (Bool.and_eq_true_iff.mp suitable).1, file⟩
    · rintro ⟨version, inside, -, matched, file⟩
      have kept : version ∈ versions.filter fun version =>
          versionMatchesTarget version target selection.kind && version.primaryFile.isSome :=
        mem_filter.mpr ⟨inside, Bool.and_eq_true_iff.mpr ⟨matched, file⟩⟩
      obtain ⟨best, picked⟩ := @exists_maxBy _ compareVersionRank _ (ne_nil_of_mem kept)
      exact ⟨best, picked,
        (Bool.and_eq_true_iff.mp (mem_filter.mp (maxBy_mem picked)).2).2⟩
  | some forced =>
    dsimp only
    constructor
    · rintro ⟨version, picked, file⟩
      have suitable := find?_some picked
      simp only [Bool.and_eq_true, decide_eq_true_eq] at suitable
      refine ⟨version, mem_of_find?_eq_some picked, ?_, suitable.2, file⟩
      rintro id same
      rw [suitable.1, Option.some_inj.mp same]
    · rintro ⟨version, inside, named, matched, file⟩
      have own : version.id = forced := named forced rfl
      cases picked : versions.find? fun version =>
          version.id = forced && versionMatchesTarget version target selection.kind with
      | none =>
        refine absurd ?_ (find?_eq_none.mp picked version inside)
        exact Bool.and_eq_true_iff.mpr ⟨decide_eq_true own, matched⟩
      | some other =>
        have suitable := find?_some picked
        simp only [Bool.and_eq_true, decide_eq_true_eq] at suitable
        have same : other = version := inj_on_of_nodup_map distinct
          (mem_of_find?_eq_some picked) inside (suitable.1.trans own.symm)
        exact ⟨other, rfl, same ▸ file⟩

/-- The candidate is said to be supported when there is such a version, where the kind of the
project is one the target takes at all. -/
theorem itemSupports_iff {title : String} (named : gameVersion ≠ "")
    (loaded : selection.kind.filtersByLoader = true → loader.isSome) :
    itemSupports { canonicalId := id, title, kind := selection.kind
                   versions := compatVersions selection versions } loader gameVersion = true ↔
      ∃ version ∈ versions, Suits selection
        { loader := loaderKey loader, gameVersion, supportsMods := loader.isSome } version := by
  unfold itemSupports compatVersions Suits
  rw [any_map, any_filter, any_eq_true]
  refine exists_congr fun version => and_congr_right fun _ => ?_
  rw [versionMatchesTarget_iff named]
  have shipped (component : LoaderComponentId) :
      component ∈ version.loaders.filterMap loaderComponentFromShortKey ↔
        shortKey component ∈ version.loaders := by
    simp only [mem_filterMap, loaderComponentFromShortKey_eq_some, exists_eq_right]
  have allowed : (selection.versionId.all fun id => decide (version.id = id)) = true ↔
      ∀ id, selection.versionId = some id → version.id = id := by
    cases selection.versionId <;> simp
  simp only [Function.comp_apply, CompatVersion.fromProvider, Bool.and_eq_true, allowed,
    any_eq_true, decide_eq_true_eq, exists_eq_right, Bool.or_eq_true, Bool.not_eq_true']
  cases filters : selection.kind.filtersByLoader with
  | false => simp only [true_or, and_true, reduceCtorEq, false_imp_iff, implies_true]; tauto
  | true =>
    obtain ⟨component, rfl⟩ := Option.isSome_iff_exists.mp (loaded filters)
    simp only [shipped, decide_eq_true_eq, Option.some_inj, forall_eq', reduceCtorEq, false_or,
      forall_const]
    tauto

/-! ### Complete candidates -/

variable {items : List CompatItem}

theorem isReleaseVersion_of_mem (member : gameVersion ∈ candidateGameVersions items) :
    isReleaseVersion gameVersion = true := by
  unfold candidateGameVersions dedupConsecutive at member
  have sorted := (destutter_sublist _ _).subset member
  rw [mem_insertionSort] at sorted
  exact (mem_filter.mp sorted).2

theorem ne_empty_of_release (release : isReleaseVersion gameVersion = true) : gameVersion ≠ "" :=
  of_decide_eq_true (Bool.and_eq_true_iff.mp release).1

/-- A candidate reported as complete is supported by every item. -/
theorem rankCandidates_complete {candidate : CompatCandidate}
    (ranked : candidate ∈ rankCandidates items) (complete : candidate.complete = true) :
    ∃ loader gameVersion, candidate.loader = loaderKey loader ∧
      candidate.gameVersion = gameVersion ∧ isReleaseVersion gameVersion = true ∧
      ∀ item ∈ items, itemSupports item loader gameVersion = true := by
  unfold rankCandidates at ranked
  rw [mem_insertionSort, mem_flatMap] at ranked
  obtain ⟨loader, -, paired⟩ := ranked
  obtain ⟨gameVersion, offered, built⟩ := mem_filterMap.mp paired
  unfold rankCandidate at built
  dsimp only at built
  split at built
  · cases built
  · rename_i supported
    cases built
    refine ⟨loader, gameVersion, rfl, rfl, isReleaseVersion_of_mem offered, fun item member => ?_⟩
    have counts : items.length -
        (items.filter fun item => !itemSupports item loader gameVersion).length = items.length :=
      of_decide_eq_true complete
    have none : (items.filter fun item => !itemSupports item loader gameVersion) = [] := by
      refine length_eq_zero_iff.mp ?_
      have some := length_pos_of_mem member
      have fewer := length_filter_le (fun item => !itemSupports item loader gameVersion) items
      omega
    have kept := filter_eq_nil_iff.mp none item member
    simpa using kept

/-- The loader is there for a kind that needs one. -/
theorem isSome_of_accepted (accepted : requireInstallableKind kind
      { loader := loaderKey loader, gameVersion, supportsMods := loader.isSome } = .ok ())
    (filters : kind.filtersByLoader = true) : loader.isSome = true := by
  cases kind with
  | mod =>
    rcases loader with _ | loader
    · cases accepted
    · rfl
  | modpack => cases accepted
  | resourcePack | shaderPack => cases filters

variable {item : CompatItem}

theorem accepted_of_supports (single : item.kind ≠ .modpack)
    (supports : itemSupports item loader gameVersion = true) :
    requireInstallableKind item.kind
      { loader := loaderKey loader, gameVersion, supportsMods := loader.isSome } = .ok () := by
  unfold requireInstallableKind
  rw [if_neg single]
  rcases loader with _ | loader
  · obtain ⟨version, -, supported⟩ := any_eq_true.mp supports
    have loaderless : item.kind.requiresModLoader = false := by
      rcases kind : item.kind <;> rw [kind] at supported <;> simp_all [ContentKind.filtersByLoader,
        ContentKind.requiresModLoader]
    rw [loaderless]
    rfl
  · rfl

/-- What `compatibility` reads for a selection, before it looks at any candidate. -/
theorem compatItem_spec {metadata : CanonicalId → Option ProjectMetadata}
    (made : compatItem transport metadata selection = .ok item) :
    selection.kind ≠ .modpack ∧ ∃ versions title,
      selectedVersions transport selection (metadata selection.id) = .ok versions ∧
      item = { canonicalId := selection.id, title, kind := selection.kind
               versions := compatVersions selection versions } := by
  unfold compatItem at made
  simp only [guard_eq_ok, bind_eq_ok, pure_eq_ok] at made
  obtain ⟨-, single, versions, read, rfl⟩ := made
  exact ⟨single, versions, _, read, rfl⟩

theorem read_of_selectedVersions {project : Option ProjectMetadata}
    (read : selectedVersions transport selection project = .ok versions) (some : versions ≠ []) :
    project.isSome = true ∧ transport.contentVersions selection.id
      { loader := none, gameVersion := none } = .ok versions := by
  unfold selectedVersions at read
  split at read
  · cases read
    exact absurd rfl some
  · rename_i known
    refine ⟨by simpa [Option.isSome_iff_ne_none] using known, ?_⟩
    split at read
    · rename_i listed same
      cases read
      exact same
    · cases read
      exact absurd rfl some
    · cases read

/-- The answer of the provider to the resolver is what the resolver would keep of its answer to
`compatibility`. -/
def FiltersAlike (transport : Transport) (selection : ResolutionSelection)
    (target : ResolutionTarget) : Prop :=
  ∀ all listed,
    transport.contentVersions selection.id { loader := none, gameVersion := none } = .ok all →
    transport.contentVersions selection.id (target.filterFor selection.kind) = .ok listed →
    listed = all.filter fun version => versionMatchesTarget version target selection.kind

theorem exists_suits_filter {target : ResolutionTarget} :
    (∃ version ∈ versions.filter fun version =>
        versionMatchesTarget version target selection.kind, Suits selection target version) ↔
      ∃ version ∈ versions, Suits selection target version := by
  refine exists_congr fun version => ?_
  rw [mem_filter]
  exact ⟨fun ⟨⟨inside, _⟩, suits⟩ => ⟨inside, suits⟩,
    fun ⟨inside, suits⟩ => ⟨⟨inside, suits.2.1⟩, suits⟩⟩

/-- Where the target takes the kind of a project at all, the two judgements are the same; and for
every selection of a complete candidate the resolver has a version to install. -/
theorem compatibility_agrees (transport : Transport) :
    (∀ (selection : ResolutionSelection) (id : CanonicalId) (title : String)
        (loader : Option LoaderComponentId) (gameVersion : String) (target : ResolutionTarget)
        (all listed : List ContentVersion),
      transport.contentVersions selection.id { loader := none, gameVersion := none } = .ok all →
      transport.contentVersions selection.id (target.filterFor selection.kind) = .ok listed →
      FiltersAlike transport selection target → isReleaseVersion gameVersion = true →
      validatedTarget (loaderKey loader) gameVersion = some target →
      requireInstallableKind selection.kind target = .ok () →
      (itemSupports { canonicalId := id, title, kind := selection.kind
                      versions := compatVersions selection all } loader gameVersion = true ↔
        ∃ version, pickCompatibleVersion listed selection.versionId target selection.kind =
          some version ∧ version.primaryFile.isSome = true)) ∧
    ∀ (selections : List ResolutionSelection) (candidates : List CompatCandidate)
        (candidate : CompatCandidate) (target : ResolutionTarget),
      compatibility transport selections = .ok candidates → candidate ∈ candidates →
      candidate.complete = true → candidate.target = some target →
      ∀ selection ∈ selections, FiltersAlike transport selection target →
      ∃ metadata, transport.metadata (selections.map ResolutionSelection.id) = .ok metadata ∧
        (metadata selection.id).isSome = true ∧
        requireInstallableKind selection.kind target = .ok () ∧
        ∀ listed,
          transport.contentVersions selection.id (target.filterFor selection.kind) = .ok listed →
          ∃ version, pickCompatibleVersion listed selection.versionId target selection.kind =
            some version ∧ version.primaryFile.isSome = true := by
  refine ⟨?_, ?_⟩
  · intro selection id title loader gameVersion target all listed readAll readListed alike release
      built accepted
    have shape := validatedTarget_eq_some release built
    rw [pick_iff (contentVersions_distinct readListed), alike all listed readAll readListed,
      exists_suits_filter]
    rw [shape] at accepted ⊢
    exact itemSupports_iff (ne_empty_of_release release) (isSome_of_accepted accepted)
  · intro selections candidates candidate target made ranked complete built selection member alike
    unfold compatibility at made
    split at made
    · cases made
      cases ranked
    simp only [guard_eq_ok, bind_eq_ok, pure_eq_ok] at made
    obtain ⟨_, -, -, metadata, read, items, gathered, rfl⟩ := made
    obtain ⟨loader, gameVersion, loaderSame, gameSame, release, every⟩ :=
      rankCandidates_complete ranked complete
    obtain ⟨item, inside, made⟩ := exists_of_mapM gathered member
    obtain ⟨single, all, title, readAll, rfl⟩ := compatItem_spec made
    have supports := every _ inside
    have shape : target = ⟨loaderKey loader, gameVersion, loader.isSome⟩ := by
      unfold CompatCandidate.target at built
      rw [loaderSame, gameSame] at built
      exact validatedTarget_eq_some release built
    have accepted : requireInstallableKind selection.kind target = .ok () := by
      rw [shape]
      exact accepted_of_supports single supports
    have suitable : ∃ version ∈ all, Suits selection target version := by
      rw [shape]
      refine (itemSupports_iff (ne_empty_of_release release) ?_).mp supports
      rw [shape] at accepted
      exact isSome_of_accepted accepted
    obtain ⟨known, readAll⟩ := read_of_selectedVersions readAll (by
      obtain ⟨version, listed, -⟩ := suitable
      exact ne_nil_of_mem listed)
    have metadataRead : transport.metadata (selections.map ResolutionSelection.id) =
        .ok metadata := by
      unfold fromContent at read
      exact mapError_eq_ok.mp read
    refine ⟨metadata, metadataRead, known, accepted, fun listed readListed => ?_⟩
    rw [pick_iff (contentVersions_distinct readListed), alike all listed readAll readListed,
      exists_suits_filter]
    exact suitable

/-- A provider with one project, which has one version for Fabric. -/
def sodiumTransport : Transport where
  projects _ _ := .ok ([{ id := "AANobbMI", title := "Sodium", projectType := "mod" }], 100)
  projectVersions _ _ _ := .ok ([
    { id := "b4hTi3mo", projectId := "AANobbMI", name := "Sodium 0.5.3"
      versionNumber := "mc1.20.1-0.5.3", dependencies := [], gameVersions := ["1.20.1"]
      versionType := "release", loaders := ["fabric"], downloads := 0, datePublished := none
      files := [{ sha1 := none, sha512 := none, url := "https://cdn.modrinth.com/sodium.jar"
                  filename := "sodium.jar", primary := true, size := some 1 }] }], 400)
  parseUrl _ := some
    { scheme := "https", username := "", password := none
      host := some (.domain "cdn.modrinth.com"), fragment := none }

def sodiumVersion : ContentVersion where
  id := "b4hTi3mo"
  name := "Sodium 0.5.3"
  versionNumber := "mc1.20.1-0.5.3"
  gameVersions := ["1.20.1"]
  loaders := ["fabric"]
  channel := .release
  published := none
  downloads := 0
  files := [{ url := "https://cdn.modrinth.com/sodium.jar", filename := "sodium.jar", sha1 := none
              sha512 := none, size := some 1, primary := true }]
  dependencies := []

def sodiumSelection : ResolutionSelection := ⟨"modrinth:AANobbMI", .mod, none⟩

theorem sodium_listed :
    sodiumTransport.contentVersions sodiumSelection.id { loader := none, gameVersion := none } =
        .ok [sodiumVersion] ∧
      sodiumTransport.contentVersions sodiumSelection.id
        (ResolutionTarget.filterFor ⟨"fabric", "1.20.1", true⟩ .mod) = .ok [sodiumVersion] := by
  constructor <;> decide

theorem compatibility_agrees_sodium :
    (itemSupports { canonicalId := sodiumSelection.id, title := "Sodium", kind := .mod
                    versions := compatVersions sodiumSelection [sodiumVersion] }
        (some .fabric) "1.20.1" = true ↔
      ∃ version, pickCompatibleVersion [sodiumVersion] none ⟨"fabric", "1.20.1", true⟩ .mod =
        some version ∧ version.primaryFile.isSome = true) ∧
    ∃ metadata, sodiumTransport.metadata [sodiumSelection.id] = .ok metadata ∧
      (metadata sodiumSelection.id).isSome = true ∧
      requireInstallableKind .mod ⟨"fabric", "1.20.1", true⟩ = .ok () ∧
      ∀ listed, sodiumTransport.contentVersions sodiumSelection.id
          (ResolutionTarget.filterFor ⟨"fabric", "1.20.1", true⟩ .mod) = .ok listed →
        ∃ version, pickCompatibleVersion listed none ⟨"fabric", "1.20.1", true⟩ .mod =
          some version ∧ version.primaryFile.isSome = true := by
  have alike : FiltersAlike sodiumTransport sodiumSelection ⟨"fabric", "1.20.1", true⟩ := by
    intro all listed readAll readListed
    cases sodium_listed.1.symm.trans readAll
    cases sodium_listed.2.symm.trans readListed
    decide
  refine ⟨(compatibility_agrees sodiumTransport).1 sodiumSelection sodiumSelection.id "Sodium"
      (some .fabric) "1.20.1" ⟨"fabric", "1.20.1", true⟩ _ _ sodium_listed.1 sodium_listed.2 alike
      (by decide) (by decide) rfl,
    (compatibility_agrees sodiumTransport).2 [sodiumSelection]
      [buildCandidate (some .fabric) "1.20.1" 1 1 []]
      (buildCandidate (some .fabric) "1.20.1" 1 1 []) ⟨"fabric", "1.20.1", true⟩
      (by decide) mem_cons_self (by decide) (by decide)
      sodiumSelection mem_cons_self alike⟩

/-- A mod for a loader that is not one of the four is offered without a loader, where it is not
supported; `pick_compatible_version` takes it there, since it does not look at loaders then. -/
theorem loaderless_mod_differs :
    let version := { sodiumVersion with loaders := ["liteloader"] }
    let item : CompatItem :=
      { canonicalId := sodiumSelection.id, title := "Sodium", kind := .mod
        versions := compatVersions sodiumSelection [version] }
    none ∈ candidateLoaders [item] ∧ "1.20.1" ∈ candidateGameVersions [item] ∧
      validatedTarget (loaderKey none) "1.20.1" = some ⟨"", "1.20.1", false⟩ ∧
      itemSupports item none "1.20.1" = false ∧
      pickCompatibleVersion [version] none ⟨"", "1.20.1", false⟩ .mod = some version ∧
      version.primaryFile.isSome = true := by
  decide

end Axial.App
