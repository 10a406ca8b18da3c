/-
This file models the rows of a managed component table and their validation in
`core/minecraft/src/managed_component_table.rs`. A validator is pushed one row
after the other and keeps what it has to know of the earlier ones: the inventory
ordinals, the portable prefixes of all paths, the entries of the directories on
the way to the last path, and the directories that the rows are to create.
-/

import Axial.Minecraft.PortablePath

namespace Axial.Minecraft

open Bytes Reader

abbrev maxTier2Entries : Nat := 200000
abbrev maxTier2ArtifactBytes : Nat := 512 * 2 ^ 20
abbrev maxTier2AggregateBytes : Nat := 16 * 2 ^ 30
abbrev maxManagedDirectoryEntries : Nat := 4096
abbrev componentTableRowsPerShard : Nat := 256
abbrev maxComponentTableRows : Nat := maxTier2Entries
abbrev maxComponentPathBytes : Nat := maxPortableRelativePathBytes
abbrev maxCreatedAncestors : Nat := 800000
abbrev maxCreatedAncestorPathBytes : Nat := 256 * 2 ^ 20
abbrev maxComponentPathStorageBytes : Nat := maxComponentTableRows * maxComponentPathBytes
abbrev maxCreatedAncestorAllocationBytes : Nat := maxCreatedAncestorPathBytes * 2
abbrev maxProjectedPathPrefixes : Nat := maxCreatedAncestors + maxComponentTableRows
abbrev maxProjectedPrefixPathBytes : Nat := maxCreatedAncestorPathBytes
abbrev maxProjectedPrefixAllocationBytes : Nat := maxProjectedPrefixPathBytes * 2

/-! ### Rows -/

inductive ManagedComponentKind where
  | libraries
  | assets
  deriving DecidableEq

/-- The `repr(u8)` discriminant. -/
def ManagedComponentKind.toByte : ManagedComponentKind → UInt8
  | .libraries => 1
  | .assets => 2

def ManagedComponentKind.fromByte (value : UInt8) : Option ManagedComponentKind :=
  if value = 1 then some .libraries else if value = 2 then some .assets else none

inductive ManagedComponentArtifactKind where
  | library
  | nativeLibrary
  | assetIndex
  | assetObject
  deriving DecidableEq

def ManagedComponentArtifactKind.toByte : ManagedComponentArtifactKind → UInt8
  | .library => 1
  | .nativeLibrary => 2
  | .assetIndex => 3
  | .assetObject => 4

def ManagedComponentArtifactKind.fromByte (value : UInt8) : Option ManagedComponentArtifactKind :=
  if value = 1 then some .library else if value = 2 then some .nativeLibrary
  else if value = 3 then some .assetIndex else if value = 4 then some .assetObject else none

theorem ManagedComponentKind.fromByte_eq_some (value : UInt8) (kind : ManagedComponentKind) :
    fromByte value = some kind ↔ value = kind.toByte := by
  revert value
  cases kind <;> decide +kernel

theorem ManagedComponentArtifactKind.fromByte_eq_some (value : UInt8)
    (kind : ManagedComponentArtifactKind) : fromByte value = some kind ↔ value = kind.toByte := by
  revert value
  cases kind <;> decide +kernel

def ManagedComponentKind.accepts : ManagedComponentKind → ManagedComponentArtifactKind → Bool
  | .libraries, .library | .libraries, .nativeLibrary => true
  | .assets, .assetIndex | .assets, .assetObject => true
  | _, _ => false

structure ComponentPriorFile where
  size : UInt64
  sha1 : Fixed 20
  deriving DecidableEq

structure ComponentTableRow (unicode : Unicode) where
  inventoryOrdinal : UInt32
  finalSize : UInt64
  finalSha1 : Fixed 20
  kind : ManagedComponentArtifactKind
  path : PortableRelativePath unicode
  firstCreatedDepth : Option UInt16
  prior : Option ComponentPriorFile
  deriving DecidableEq

variable {unicode : Unicode}

namespace ComponentTableRow

def priorIsFinal (row : ComponentTableRow unicode) : Bool :=
  row.prior.any fun prior => prior.size = row.finalSize ∧ prior.sha1 = row.finalSha1

def stagedBytes (row : ComponentTableRow unicode) : Nat :=
  if row.priorIsFinal then 0 else row.finalSize.toNat

def quarantineBytes (row : ComponentTableRow unicode) : Nat :=
  match row.prior with
  | some prior => if row.priorIsFinal then 0 else prior.size.toNat
  | none => 0

end ComponentTableRow

/-! ### Created ancestors -/

inductive ComponentCreatedAncestor (unicode : Unicode) where
  | componentRoot
  | relative (path : PortableRelativePath unicode)
  deriving DecidableEq

namespace ComponentCreatedAncestor

/-- `created_ancestor_at_depth`. -/
def atDepth (unicode : Unicode) (names : List String) (depth : Nat) :
    Option (ComponentCreatedAncestor unicode) :=
  if depth = 0 then some .componentRoot
  else if depth ≤ names.length then
    (PortableRelativePath.new unicode (joinSegments (names.take depth))).map .relative
  else none

/-- `created_ancestor_key`. -/
def key : ComponentCreatedAncestor unicode → Option PortablePathKey
  | .componentRoot => none
  | .relative path => some path.key

/-- `created_ancestor_path_len`. -/
def pathLen : ComponentCreatedAncestor unicode → Nat
  | .componentRoot => 0
  | .relative path => (utf8 path.value).length

/-- The derived order: the root comes first. -/
def le : ComponentCreatedAncestor unicode → ComponentCreatedAncestor unicode → Bool
  | .componentRoot, _ => true
  | .relative _, .componentRoot => false
  | .relative first, .relative second => first.value ≤ second.value

end ComponentCreatedAncestor

/-! ### The validator -/

/-- A checked addition with a limit. -/
def addWithin (limit current additional : Nat) : Option Nat :=
  if current + additional ≤ limit then some (current + additional) else none

def checkedAggregate (current additional : Nat) : Option Nat :=
  addWithin maxTier2AggregateBytes current additional

structure ProjectedPathPrefix where
  exact : String
  isFile : Bool

/-- The table of the prefixes of all paths, with its bounds. -/
structure ProjectedPrefixes where
  prefixes : AList fun _ : PortablePathKey => ProjectedPathPrefix
  pathBytes : Nat
  allocationBytes : Nat

/-- The table of the directories to create, with its bounds. -/
structure CreatedAncestors (unicode : Unicode) where
  ancestors : AList fun _ : Option PortablePathKey => ComponentCreatedAncestor unicode
  pathBytes : Nat
  allocationBytes : Nat

structure ComponentRowValidator (unicode : Unicode) where
  rowCount : Nat
  finalBytes : Nat
  stagedBytes : Nat
  priorBytes : Nat
  lastPath : Option String
  /-- The ordinals whose bits are set. -/
  inventoryOrdinals : List UInt32
  projected : ProjectedPrefixes
  createdDepthChecks : List (PortablePathKey × Option UInt16)
  createdDepthPathBytes : Nat
  created : CreatedAncestors unicode
  fanoutCounts : List Nat

/-- Add one prefix of a path, the last of which is the file. -/
def ProjectedPrefixes.add (unicode : Unicode) (projected : ProjectedPrefixes)
    (exactPrefix : String) (isFile : Bool) : Option ProjectedPrefixes := do
  let portablePrefix := (← PortableRelativePath.new unicode exactPrefix).key
  match projected.prefixes.lookup portablePrefix with
  | some existing =>
    if existing.exact ≠ exactPrefix ∨ existing.isFile = true ∨ isFile = true then none
    else some projected
  | none =>
    let length := (utf8 exactPrefix).length
    let pathBytes ← addWithin maxProjectedPrefixPathBytes projected.pathBytes length
    let allocationBytes ←
      addWithin maxProjectedPrefixAllocationBytes projected.allocationBytes (length * 2)
    guard (projected.prefixes.keys.length < maxProjectedPathPrefixes)
    return ⟨projected.prefixes.insert portablePrefix ⟨exactPrefix, isFile⟩, pathBytes,
      allocationBytes⟩

def ProjectedPrefixes.addAll (unicode : Unicode) (projected : ProjectedPrefixes)
    (names : List String) : Option ProjectedPrefixes :=
  (List.range names.length).foldlM (fun projected depth =>
    projected.add unicode (joinSegments (names.take (depth + 1))) (depth + 1 = names.length))
    projected

/-- Add an ancestor that is not there yet. -/
def CreatedAncestors.add (created : CreatedAncestors unicode)
    (ancestor : ComponentCreatedAncestor unicode) : Option (CreatedAncestors unicode) :=
  match created.ancestors.lookup ancestor.key with
  | some _ => some created
  | none => do
    let pathBytes ← addWithin maxCreatedAncestorPathBytes created.pathBytes ancestor.pathLen
    let allocationBytes ←
      addWithin maxCreatedAncestorAllocationBytes created.allocationBytes (ancestor.pathLen * 2)
    guard (created.ancestors.keys.length < maxCreatedAncestors)
    return ⟨created.ancestors.insert ancestor.key ancestor, pathBytes, allocationBytes⟩

/-- The ancestors of a path from one depth on, the first that is to be created. -/
def CreatedAncestors.addFrom (created : CreatedAncestors unicode) (names : List String) :
    Option UInt16 → Option (CreatedAncestors unicode)
  | none => some created
  | some depth => do
    guard (depth.toNat < names.length)
    (List.range' depth.toNat (names.length - depth.toNat)).foldlM (fun created parentDepth => do
      created.add (← ComponentCreatedAncestor.atDepth unicode names parentDepth)) created

/-- How many segments two paths begin with in common. -/
def commonSegments (last names : List String) : Nat :=
  ((last.zip names).takeWhile fun pair => pair.1 = pair.2).length

/-- One more entry in the directory at a depth. Nothing is either a directory that is full or the
panic of an index out of range. -/
def countFanout (counts : List Nat) (depth : Nat) : Option (List Nat) :=
  let counts := if depth = counts.length then counts ++ [0] else counts
  match counts[depth]? with
  | some count =>
    if count + 1 ≤ maxManagedDirectoryEntries then some (counts.set depth (count + 1)) else none
  | none => none

def countFanouts (counts : List Nat) (common depth : Nat) : Option (List Nat) :=
  (List.range' common (depth - common)).foldlM countFanout (counts.take (common + 1))

namespace ComponentRowValidator

def new (unicode : Unicode) (expectedRows : Nat) : Option (ComponentRowValidator unicode) :=
  if expectedRows > maxComponentTableRows then none
  else some {
    rowCount := 0
    finalBytes := 0
    stagedBytes := 0
    priorBytes := 0
    lastPath := none
    inventoryOrdinals := []
    projected := ⟨∅, 0, 0⟩
    createdDepthChecks := []
    createdDepthPathBytes := 0
    created := ⟨∅, 0, 0⟩
    fanoutCounts := [0] }

/-- What a row is checked for by itself. -/
def admissible (component : ManagedComponentKind) (row : ComponentTableRow unicode) : Bool :=
  decide (row.inventoryOrdinal.toNat < maxTier2Entries) &&
    decide (row.finalSize.toNat ≤ maxTier2ArtifactBytes) &&
    row.prior.all (fun prior => prior.size.toNat ≤ maxTier2ArtifactBytes) &&
    component.accepts row.kind &&
    decide ((utf8 row.path.value).length ≤ maxComponentPathBytes)

/-- The last path was that of a file, and this one leads through it. -/
def throughFile (last path : String) : Bool :=
  last.toList.isPrefixOf path.toList && (path.toList.drop last.toList.length).head? = some '/'

def push (validator : ComponentRowValidator unicode) (component : ManagedComponentKind)
    (row : ComponentTableRow unicode) : Option (ComponentRowValidator unicode) := do
  guard (validator.rowCount < maxComponentTableRows)
  guard (admissible component row)
  let portablePath := row.path.key
  let createdDepthPathBytes ← addWithin maxComponentPathStorageBytes
    validator.createdDepthPathBytes (utf8 portablePath.value).length
  let names := segments row.path.value
  guard (validator.lastPath.all fun last => decide (last < row.path.value))
  guard (row.inventoryOrdinal ∉ validator.inventoryOrdinals)
  let projected ← validator.projected.addAll unicode names
  let common := (validator.lastPath.map fun last => commonSegments (segments last) names).getD 0
  guard (validator.lastPath.all fun last => !throughFile last row.path.value)
  let fanoutCounts ← countFanouts validator.fanoutCounts common names.length
  guard (0 < names.length ∧ names.length < 2 ^ 16)
  guard (¬(row.prior.isSome = true ∧ row.firstCreatedDepth.isSome = true))
  let created ← validator.created.addFrom names row.firstCreatedDepth
  let finalBytes ← checkedAggregate validator.finalBytes row.finalSize.toNat
  let stagedBytes ← checkedAggregate validator.stagedBytes row.stagedBytes
  let priorBytes ← checkedAggregate validator.priorBytes row.quarantineBytes
  return {
    rowCount := validator.rowCount + 1
    finalBytes := finalBytes
    stagedBytes := stagedBytes
    priorBytes := priorBytes
    lastPath := some row.path.value
    inventoryOrdinals := row.inventoryOrdinal :: validator.inventoryOrdinals
    projected := projected
    createdDepthChecks := validator.createdDepthChecks ++ [(portablePath, row.firstCreatedDepth)]
    createdDepthPathBytes := createdDepthPathBytes
    created := created
    fanoutCounts := fanoutCounts }

def pushAll (validator : ComponentRowValidator unicode) (component : ManagedComponentKind)
    (rows : List (ComponentTableRow unicode)) : Option (ComponentRowValidator unicode) :=
  rows.foldlM (fun validator row => validator.push component row) validator

/-- The depth of the first created directory on the way to a path, from its segments and the
prefix before them. The outer option is a failure. -/
def createdDepth (validator : ComponentRowValidator unicode) (before : String) (index : Nat) :
    List String → Option (Option UInt16)
  | [] => some none
  | name :: names => do
    let exactPrefix := if before = "" then name else before ++ "/" ++ name
    let path ← PortableRelativePath.new unicode exactPrefix
    if (some path.key) ∈ validator.created.ancestors then
      if index + 1 < 2 ^ 16 then return some (UInt16.ofNat (index + 1)) else none
    else validator.createdDepth exactPrefix (index + 1) names

def validateCreatedDepths (validator : ComponentRowValidator unicode) : Option Unit :=
  validator.createdDepthChecks.forM fun (path, encodedDepth) => do
    let expectedDepth ←
      if none ∈ validator.created.ancestors then some (some 0)
      else validator.createdDepth "" 0 (segments path.value).dropLast
    guard (encodedDepth = expectedDepth)

/-! ### What an accepted row satisfies -/

variable {validator after : ComponentRowValidator unicode} {component : ManagedComponentKind}
  {row : ComponentTableRow unicode}

/-- What a push checks of the row itself, and what becomes of the counts. -/
theorem push_eq_some (pushed : validator.push component row = some after) :
    (segments row.path.value).length < 2 ^ 16 ∧
    validator.created.addFrom (segments row.path.value) row.firstCreatedDepth =
      some after.created ∧
    checkedAggregate validator.finalBytes row.finalSize.toNat = some after.finalBytes ∧
    checkedAggregate validator.priorBytes row.quarantineBytes = some after.priorBytes ∧
    after.rowCount = validator.rowCount + 1 := by
  simp only [push, bind_eq_some, Option.guard_eq_some', exists_const, Option.pure_def] at pushed
  obtain ⟨-, -, pathBytes, -, -, -, projected, -, -, fanout, -, few, -, created, ancestors,
    finalBytes, final, stagedBytes, -, priorBytes, prior, made⟩ := pushed
  cases made
  exact ⟨few.2, ancestors, final, prior, rfl⟩

theorem depth_lt_of_addFrom {created next : CreatedAncestors unicode} {names : List String}
    {depth : UInt16} (added : created.addFrom names (some depth) = some next) :
    depth.toNat < names.length := by
  simp only [CreatedAncestors.addFrom, bind_eq_some, Option.guard_eq_some', exists_const] at added
  exact added.1

variable {rows : List (ComponentTableRow unicode)}

theorem exists_push_of_pushAll (pushed : validator.pushAll component rows = some after)
    (member : row ∈ rows) :
    ∃ before next : ComponentRowValidator unicode, before.push component row = some next := by
  induction rows generalizing validator with
  | nil => cases member
  | cons first rows ih =>
    obtain ⟨next, here, later⟩ := Option.bind_eq_some_iff.mp
      (show (validator.push component first).bind (fun next => next.pushAll component rows) = _
        from pushed)
    rcases List.mem_cons.mp member with rfl | beyond
    · exact ⟨validator, next, here⟩
    · exact ih later beyond

theorem le_of_addWithin {limit current additional total : Nat}
    (added : addWithin limit current additional = some total) :
    total ≤ limit ∧ total = current + additional := by
  unfold addWithin at added
  split at added
  · cases added
    exact ⟨‹_›, rfl⟩
  · cases added

/-- What every push preserves, a whole list of rows preserves. -/
theorem pushAll_invariant {holds : ComponentRowValidator unicode → Prop}
    (preserved : ∀ before next : ComponentRowValidator unicode, ∀ row,
      before.push component row = some next → holds before → holds next)
    {rows : List (ComponentTableRow unicode)} (pushed : validator.pushAll component rows = some after)
    (initially : holds validator) : holds after := by
  induction rows generalizing validator with
  | nil =>
    cases pushed
    exact initially
  | cons row rows ih =>
    obtain ⟨next, here, later⟩ := Option.bind_eq_some_iff.mp
      (show (validator.push component row).bind (fun next => next.pushAll component rows) = _
        from pushed)
    exact ih later (preserved validator next row here initially)

/-- The totals stay within the aggregate bound. -/
theorem totals_le (pushed : validator.pushAll component rows = some after)
    (initially : validator.finalBytes ≤ maxTier2AggregateBytes ∧
      validator.priorBytes ≤ maxTier2AggregateBytes) :
    after.finalBytes ≤ maxTier2AggregateBytes ∧ after.priorBytes ≤ maxTier2AggregateBytes := by
  let within (state : ComponentRowValidator unicode) : Prop :=
    state.finalBytes ≤ maxTier2AggregateBytes ∧ state.priorBytes ≤ maxTier2AggregateBytes
  refine @pushAll_invariant _ _ _ _ within (fun before next row accepted _ => ?_) _ pushed initially
  obtain ⟨-, -, final, prior, -⟩ := push_eq_some accepted
  exact ⟨(le_of_addWithin final).1, (le_of_addWithin prior).1⟩

end ComponentRowValidator

end Axial.Minecraft
