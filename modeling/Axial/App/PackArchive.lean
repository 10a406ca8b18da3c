/-
This file models how the archive of a modpack is read and planned, `PackArchive` and the
functions below it in `core/app/src/content/packs.rs`. An archive has an index of downloads
and two trees of files of its own, of which that for clients goes before the common one. A
plan says which of the downloads are made, and whether the trees are laid out as well.

What the readers of archives, of JSON and of addresses return is a parameter, as are the
digests.
-/

import Axial.App.PackDestinations
import Axial.Performance.Version

namespace Axial.App

open Bytes List Option Fallible
open Axial.Minecraft (LoaderComponentId Unicode segments stripPrefix toAsciiLowercase)
open Axial.Performance (isControl splitWhitespace)

abbrev maxIndexBytes : Nat := 8 * 2 ^ 20

abbrev maxPackArchiveBytes : Nat := 512 * 2 ^ 20

abbrev maxPackFileBytes : Nat := 512 * 2 ^ 20

abbrev maxOverrideEntryBytes : Nat := 128 * 2 ^ 20

abbrev maxOverrideTotalBytes : Nat := 512 * 2 ^ 20

abbrev maxArchiveEntries : Nat := 30000

abbrev maxIndexFiles : Nat := 10000

abbrev maxOverrideFiles : Nat := 10000

/-! ### What is read -/

structure ZipEntry where
  name : String
  isDir : Bool
  unixMode : Option Nat
  size : Nat
  /-- `take(limit).read_to_end()`. -/
  read : Nat → Option (List UInt8)

/-- The entries of an archive in their order, none where an entry cannot be opened. -/
abbrev Zip := List (Option ZipEntry)

namespace PackDto

structure IndexFile where
  path : String
  sha1 : Option String
  sha512 : Option String
  client : Option String
  downloads : List String
  fileSize : Option Nat

structure Index where
  formatVersion : Nat
  game : Option String
  name : String
  versionId : String
  dependencies : List (String × String)
  files : List IndexFile

end PackDto

structure PackReader where
  openZip : List UInt8 → Option Zip
  parseIndex : String → Option PackDto.Index
  transport : Transport
  /-- An accepted address, as the parser spells it. -/
  urlText : String → String
  sha256 : List UInt8 → String
  sha512 : List UInt8 → String

structure PackLoader where
  componentId : LoaderComponentId
  version : String

structure PackIndex where
  name : String
  version : String
  minecraft : String
  loader : Option PackLoader
  files : List PackFile

structure PackOverride where
  path : String
  archiveIndex : Nat
  archivePath : String
  size : Nat
  sha512 : String

/-! ### Entries -/

def regularEntry (entry : ZipEntry) : Bool :=
  !entry.isDir && entry.unixMode.all fun mode => mode &&& 0o170000 ∈ [0, 0o100000]

/-- `by_index`. -/
def Zip.byIndex (zip : Zip) (position : Nat) : Option ZipEntry := zip[position]?.join

def readEntry (zip : Zip) (position limit : Nat) : Except PackError (List UInt8) :=
  match zip.byIndex position with
  | none => .error (.invalid "archive entry is missing")
  | some entry =>
    if regularEntry entry = false then
      .error (.invalid "archive entry is not a regular file")
    else if limit < entry.size then .error .tooLarge
    else
      match entry.read (limit + 1) with
      | none => .error (.invalid "archive entry could not be read")
      | some bytes =>
        if limit < bytes.length then .error .tooLarge
        else if bytes.length ≠ entry.size then .error .integrity
        else .ok bytes

/-! ### The index -/

def validateHash (value : Option String) (length : Nat) : Except PackError (Option String) :=
  match value with
  | none => .ok none
  | some value =>
    if (utf8 value).length ≠ length ∨ value.toList.all isHexDigit = false then
      .error (.invalid "integrity hash is invalid")
    else .ok (some (toAsciiLowercase value))

def validateCoordinate (value : String) : Except PackError Unit :=
  if value = "" ∨ 512 < (utf8 value).length ∨ value ≠ Minecraft.trim value ∨
      value.toList.any isControl = true then
    .error (.invalid "loader or Minecraft coordinate is invalid")
  else .ok ()

def packText (value fallback : String) : String :=
  let text := String.ofList (((" ".intercalate (splitWhitespace value)).toList).take 160)
  if text = "" then fallback else text

def packLoaderKeys : List (String × LoaderComponentId) :=
  [("fabric-loader", .fabric), ("quilt-loader", .quilt), ("neoforge", .neoForge),
    ("forge", .forge)]

/-- One turn of the loop over the loaders. -/
def declareLoader (dependencies : List (String × String)) (loader : Option PackLoader)
    (named : String × LoaderComponentId) : Except PackError (Option PackLoader) :=
  match dependencies.lookup named.1 with
  | none => .ok loader
  | some version => do
    validateCoordinate version
    if loader.isSome then throw (.invalid "multiple loader declarations")
    return some { componentId := named.2, version }

/-- One turn of the loop over the files. -/
def indexFile (reader : PackReader) (unicode : Unicode) (files : List PackFile)
    (file : PackDto.IndexFile) : Except PackError (List PackFile) :=
  if file.client = some "unsupported" then .ok files
  else do
    let _ ← validatePackPath unicode file.path
    let sha1 ← validateHash file.sha1 40
    let sha512 ← validateHash file.sha512 128
    if sha1.isNone ∧ sha512.isNone then throw (.invalid "file has no integrity hash")
    if (file.fileSize.any fun size => maxPackFileBytes < size) = true then throw .tooLarge
    match file.downloads.find? (downloadUrlIsPublic reader.transport) with
    | none => throw (.invalid "file has no public HTTPS download")
    | some url =>
      return files ++ [{ path := file.path, url := reader.urlText url, sha1, sha512,
                         size := file.fileSize }]

def parsePackIndex (reader : PackReader) (unicode : Unicode) (raw : String) :
    Except PackError PackIndex := do
  if maxIndexBytes < (utf8 raw).length then throw .tooLarge
  match reader.parseIndex raw with
  | none => throw (.invalid "index JSON is invalid")
  | some dto =>
    if 1 < dto.formatVersion ∨ (dto.game.any (· ≠ "minecraft")) = true then throw .unsupported
    match dto.dependencies.lookup "minecraft" with
    | none => throw (.invalid "Minecraft version is missing")
    | some minecraft =>
      validateCoordinate minecraft
      let loader ← packLoaderKeys.foldlM (declareLoader dto.dependencies) none
      -- Unknown loader declarations cannot silently become Vanilla.
      if (dto.dependencies.any fun dependency =>
          dependency.1 ∉ "minecraft" :: packLoaderKeys.map Prod.fst) = true then
        throw .unsupported
      if maxIndexFiles < dto.files.length then throw .tooLarge
      let files ← dto.files.foldlM (indexFile reader unicode) []
      validateDestinations unicode (files.map PackFile.path)
      return { name := packText dto.name "Modpack", version := dto.versionId, minecraft, loader,
               files }

/-! ### Overrides -/

/-- The loop over the entries of one tree; the map has its latest entry first. -/
structure Inspection where
  overrides : List PackOverride
  positions : List (String × Nat × String)
  totalBytes : Nat
  totalFiles : Nat

def Inspection.empty : Inspection := ⟨[], [], 0, 0⟩

def saturatingAdd (first second : Nat) : Nat := min (first + second) (2 ^ 64 - 1)

/-- Where a file goes: to the end, or in the place of the common one that it overrides. -/
def Inspection.position (state : Inspection) (root path key : String) : Except PackError Nat :=
  match state.positions.lookup key with
  | none => .ok state.overrides.length
  | some (position, previous) =>
    if previous = "overrides" ∧ root = "client-overrides" ∧
        (state.overrides[position]?).map PackOverride.path = some path then
      .ok position
    else .error (.conflict path)

def Inspection.insert (state : Inspection) (key root : String) (position : Nat)
    (source : PackOverride) : Inspection :=
  { overrides :=
      if position = state.overrides.length then state.overrides ++ [source]
      else state.overrides.set position source
    positions := (key, position, root) :: state.positions
    totalBytes := state.totalBytes + source.size
    totalFiles := state.totalFiles + 1 }

/-- A file of one of the trees. -/
def inspectFile (reader : PackReader) (unicode : Unicode) (zip : Zip) (state : Inspection)
    (root : String) (archiveIndex : Nat) (entry : ZipEntry) (path : String) :
    Except PackError Inspection := do
  if regularEntry entry = false then throw (.invalid "override is not a regular file")
  let _ ← validatePackPath unicode path
  if maxOverrideFiles < state.totalFiles + 1 ∨ maxOverrideEntryBytes < entry.size ∨
      maxOverrideTotalBytes < saturatingAdd state.totalBytes entry.size then
    throw .tooLarge
  let bytes ← readEntry zip archiveIndex
    (min maxOverrideEntryBytes (maxOverrideTotalBytes - state.totalBytes))
  let key := pathKey unicode path
  let position ← state.position root path key
  return state.insert key root position
    { path, archiveIndex, archivePath := entry.name, size := bytes.length,
      sha512 := reader.sha512 bytes }

/-- `trim_end_matches('/')`. -/
def trimEndSlashes (path : String) : String :=
  String.ofList (path.toList.rdropWhile (· = '/'))

/-- One turn of the two loops. -/
def inspectEntry (reader : PackReader) (unicode : Unicode) (zip : Zip) (state : Inspection)
    (visit : String × Nat) : Except PackError Inspection :=
  match zip.byIndex visit.2 with
  | none => .error (.invalid "unreadable override entry")
  | some entry =>
    match stripPrefix (visit.1 ++ "/") entry.name with
    | none => .ok state
    | some path =>
      if entry.isDir then
        if path = "" then .ok state
        else do
          let _ ← validatePackPath unicode (trimEndSlashes path)
          return state
      else inspectFile reader unicode zip state visit.1 visit.2 entry path

/-- The turns of the two loops, tree by tree. -/
def visits (zip : Zip) : List (String × Nat) :=
  ["overrides", "client-overrides"].flatMap fun root =>
    (List.range zip.length).map fun archiveIndex => (root, archiveIndex)

def inspectOverrides (reader : PackReader) (unicode : Unicode) (zip : Zip) :
    Except PackError (List PackOverride) := do
  let state ← (visits zip).foldlM (inspectEntry reader unicode zip) .empty
  validateDestinations unicode (state.overrides.map PackOverride.path)
  return state.overrides

/-! ### Archives and plans -/

structure PackArchive where
  bytes : List UInt8
  fingerprint : String
  index : PackIndex
  overrides : List PackOverride

structure PackPlan where
  archive : PackArchive
  files : List PackFile
  overrides : List PackOverride

/-- One turn of the search for the index. -/
def findIndex (zip : Zip) (found : Option Nat) (position : Nat) : Except PackError (Option Nat) :=
  match zip.byIndex position with
  | none => .error (.invalid "unreadable archive entry")
  | some entry =>
    if entry.name = "modrinth.index.json" then
      if found.isSome ∨ regularEntry entry = false then
        .error (.invalid "duplicate or nonregular pack index")
      else .ok (some position)
    else .ok found

def PackArchive.read (reader : PackReader) (unicode : Unicode) (bytes : List UInt8) :
    Except PackError PackArchive := do
  if maxPackArchiveBytes < bytes.length then throw .tooLarge
  match reader.openZip bytes with
  | none => throw (.invalid "not a readable zip archive")
  | some zip =>
    if maxArchiveEntries < zip.length then throw .tooLarge
    match ← (List.range zip.length).foldlM (findIndex zip) none with
    | none => throw .unsupported
    | some position =>
      let raw ← readEntry zip position maxIndexBytes
      match fromUtf8 raw with
      | none => throw (.invalid "index is not UTF-8")
      | some text =>
        let index ← parsePackIndex reader unicode text
        let overrides ← inspectOverrides reader unicode zip
        return { bytes, fingerprint := reader.sha256 bytes, index, overrides }

def PackArchive.plan (unicode : Unicode) (archive : PackArchive) (files : List PackFile)
    (includeOverrides : Bool) : Except PackError PackPlan := do
  let overrides := if includeOverrides then archive.overrides else []
  validateDestinations unicode (files.map PackFile.path ++ overrides.map PackOverride.path)
  return { archive, files, overrides }

def PackPlan.destinations (plan : PackPlan) : List String :=
  plan.files.map PackFile.path ++ plan.overrides.map PackOverride.path

/-! ### What the loops collect -/

variable {reader : PackReader} {unicode : Unicode} {zip : Zip}

def overrideRoots : List String := ["overrides", "client-overrides"]

/-- The entry of a file of one of the trees. -/
structure FileOf (zip : Zip) (root path : String) (archiveIndex : Nat) (entry : ZipEntry) :
    Prop where
  opened : zip.byIndex archiveIndex = some entry
  plain : entry.isDir = false
  named : entry.name = root ++ "/" ++ path

/-- What is known of an entry is known of an override. -/
structure Describes (reader : PackReader) (entry : ZipEntry) (source : PackOverride) : Prop where
  name : source.archivePath = entry.name
  size : source.size = entry.size
  payload : ∃ limit bytes, entry.read limit = some bytes ∧ bytes.length = entry.size ∧
    source.sha512 = reader.sha512 bytes

/-- What is true between the turns of the loops, of the turns made and what is collected. -/
structure Inspected (reader : PackReader) (unicode : Unicode) (zip : Zip)
    (made : List (String × Nat)) (state : Inspection) : Prop where
  sources : ∀ position source, state.overrides[position]? = some source → ∃ root entry,
    root ∈ overrideRoots ∧ FileOf zip root source.path source.archiveIndex entry ∧
      Describes reader entry source ∧
      state.positions.lookup (pathKey unicode source.path) = some (position, root)
  keyed : ∀ key position root, state.positions.lookup key = some (position, root) →
    ∃ source, state.overrides[position]? = some source
  complete : ∀ root archiveIndex, (root, archiveIndex) ∈ made → ∀ path entry,
    FileOf zip root path archiveIndex entry → ∃ source ∈ state.overrides, source.path = path ∧
      (root = "client-overrides" → source.archiveIndex = archiveIndex)
  files : state.overrides.length ≤ state.totalFiles ∧ state.totalFiles ≤ maxOverrideFiles
  entries : ∀ source ∈ state.overrides, source.size ≤ maxOverrideEntryBytes
  bytes : (state.overrides.map PackOverride.size).sum ≤ state.totalBytes ∧
    state.totalBytes ≤ maxOverrideTotalBytes

theorem Inspected.empty : Inspected reader unicode zip [] .empty where
  sources := nofun
  keyed := nofun
  complete := nofun
  files := ⟨le_rfl, Nat.zero_le _⟩
  entries := nofun
  bytes := ⟨le_rfl, Nat.zero_le _⟩

variable {rest : String}

theorem stripPrefix_eq_some {start value : String} :
    stripPrefix start value = some rest ↔ value = start ++ rest := by
  unfold stripPrefix
  constructor
  · intro cut
    split at cut
    · rename_i begins
      obtain ⟨more, whole⟩ := List.isPrefixOf_iff_prefix.mp begins
      rw [← whole, drop_left] at cut
      cases cut
      exact String.toList_injective (by rw [String.toList_append, String.toList_ofList, whole])
    · cases cut
  · rintro rfl
    rw [String.toList_append, if_pos (List.isPrefixOf_iff_prefix.mpr (prefix_append _ _)),
      drop_left, String.ofList_toList]

variable {root path other : String}

/-- The two trees share no name. -/
theorem roots_differ {name : String} (listed : root ∈ overrideRoots) (known : other ∈ overrideRoots)
    (first : name = root ++ "/" ++ path) (second : name = other ++ "/" ++ rest) :
    root = other ∧ path = rest := by
  have alone : ∀ root ∈ overrideRoots, segments root = [root] := by decide
  have parts := congrArg segments (first.symm.trans second)
  rw [Minecraft.segments_append, Minecraft.segments_append, alone root listed,
    alone other known] at parts
  obtain ⟨same, tail⟩ := List.cons.inj parts
  exact ⟨same, by rw [← Minecraft.joinSegments_segments path,
    ← Minecraft.joinSegments_segments rest, show segments path = segments rest from tail]⟩

variable {entry : ZipEntry} {bytes : List UInt8}

theorem readEntry_spec {position limit : Nat} (opened : zip.byIndex position = some entry)
    (wasRead : readEntry zip position limit = .ok bytes) :
    entry.read (limit + 1) = some bytes ∧ bytes.length = entry.size ∧ bytes.length ≤ limit := by
  unfold readEntry at wasRead
  rw [opened] at wasRead
  dsimp only at wasRead
  simp only [ite_throw_eq_ok] at wasRead
  obtain ⟨-, -, wasRead⟩ := wasRead
  split at wasRead
  · cases wasRead
  · rename_i read found
    simp only [ite_throw_eq_ok, Except.ok.injEq, not_lt, not_not] at wasRead
    obtain ⟨within, exact, rfl⟩ := wasRead
    exact ⟨found, exact, within⟩

theorem sum_set_le {sizes : List Nat} {position size : Nat} :
    (sizes.set position size).sum ≤ sizes.sum + size := by
  induction sizes generalizing position with
  | nil => exact Nat.zero_le _
  | cons first sizes ih =>
    cases position with
    | zero =>
      rw [set_cons_zero, sum_cons, sum_cons]
      omega
    | succ position =>
      have rest := @ih position
      rw [set_cons_succ, sum_cons, sum_cons]
      omega

variable {state : Inspection} {key : String}

/-- Where an override goes is behind the others, or where one with its path is. -/
theorem position_cases {position : Nat} (placed : state.position root path key = .ok position) :
    state.positions.lookup key = none ∧ position = state.overrides.length ∨
      state.positions.lookup key = some (position, "overrides") ∧ root = "client-overrides" ∧
        ∃ source, state.overrides[position]? = some source ∧ source.path = path := by
  unfold Inspection.position at placed
  split at placed
  · rename_i absent
    cases placed
    exact .inl ⟨absent, rfl⟩
  · rename_i place previous found
    rw [check_eq_ok] at placed
    obtain ⟨⟨rfl, client, same⟩, rfl⟩ := placed
    obtain ⟨source, there, named⟩ := map_eq_some_iff.mp same
    exact .inr ⟨found, client, source, there, named⟩

theorem insert_overrides (key root : String) {position : Nat} (source : PackOverride)
    (within : position ≤ state.overrides.length) (other : Nat) :
    (state.insert key root position source).overrides[other]? =
      if other = position then some source else state.overrides[other]? := by
  unfold Inspection.insert
  dsimp only
  by_cases last : position = state.overrides.length
  · subst last
    rw [if_pos rfl, getElem?_append]
    by_cases inside : other < state.overrides.length
    · rw [if_pos inside, if_neg inside.ne]
    · rw [if_neg inside, getElem?_singleton]
      by_cases same : other = state.overrides.length
      · rw [if_pos same, if_pos (by omega)]
      · rw [if_neg same, if_neg (by omega), getElem?_eq_none (by omega)]
  · rw [if_neg last, getElem?_set]
    by_cases same : position = other
    · rw [if_pos same, if_pos (by omega), if_pos same.symm]
    · rw [if_neg same, if_neg (Ne.symm same)]

theorem lookup_insert {position : Nat} {source : PackOverride} :
    (state.insert key root position source).positions.lookup other =
      if other = key then some (position, root) else state.positions.lookup other := by
  show List.lookup other ((key, position, root) :: state.positions) = _
  rw [lookup_cons]
  by_cases same : other = key
  · rw [if_pos same, beq_iff_eq.mpr same]
  · rw [if_neg same, beq_eq_false_iff_ne.mpr same]

/-- One more file keeps what is true between the turns. -/
theorem Inspected.insert {made : List (String × Nat)} {state : Inspection}
    (inspected : Inspected reader unicode zip made state) {root : String} {position : Nat}
    (source : PackOverride) {entry : ZipEntry} (listed : root ∈ overrideRoots)
    (stands : FileOf zip root source.path source.archiveIndex entry)
    (describes : Describes reader entry source)
    (placed : state.position root source.path (pathKey unicode source.path) = .ok position)
    (counted : state.totalFiles + 1 ≤ maxOverrideFiles)
    (small : source.size ≤ maxOverrideEntryBytes)
    (together : state.totalBytes + source.size ≤ maxOverrideTotalBytes) :
    Inspected reader unicode zip (made ++ [(root, source.archiveIndex)])
      (state.insert (pathKey unicode source.path) root position source) := by
  have places := position_cases placed
  have within : position ≤ state.overrides.length := by
    rcases places with ⟨-, last⟩ | ⟨-, -, other, there, -⟩
    · exact last.le
    · exact (List.getElem?_eq_some_iff.mp there).1.le
  have apart {other : Nat} {old : PackOverride} (there : state.overrides[other]? = some old)
      (elsewhere : other ≠ position) : pathKey unicode old.path ≠ pathKey unicode source.path := by
    intro same
    obtain ⟨_, _, _, _, _, found⟩ := inspected.sources other old there
    rw [same] at found
    rcases places with ⟨absent, -⟩ | ⟨present, -⟩
    · rw [absent] at found
      cases found
    · rw [present] at found
      cases found
      exact elsewhere rfl
  have here := insert_overrides (pathKey unicode source.path) root source within
  constructor
  case sources =>
    intro other old there
    rw [here] at there
    by_cases same : other = position
    · rw [if_pos same] at there
      cases there
      exact ⟨root, entry, listed, stands, describes, by rw [lookup_insert, if_pos rfl, same]⟩
    · rw [if_neg same] at there
      obtain ⟨before, held, known, stood, described, found⟩ := inspected.sources other old there
      exact ⟨before, held, known, stood, described, by
        rw [lookup_insert, if_neg (apart there same), found]⟩
  case keyed =>
    intro key other before found
    rw [here]
    by_cases same : other = position
    · exact ⟨source, if_pos same⟩
    · rw [if_neg same]
      rw [lookup_insert] at found
      split at found
      · cases found
        exact absurd rfl same
      · exact inspected.keyed key other before found
  case complete =>
    intro before archiveIndex member path held stood
    have kept : source ∈ (state.insert (pathKey unicode source.path) root position
        source).overrides :=
      mem_of_getElem? ((here position).trans (if_pos rfl))
    rcases mem_append.mp member with earlier | last
    · obtain ⟨old, inside, named, wins⟩ :=
        inspected.complete before archiveIndex earlier path held stood
      obtain ⟨other, there⟩ := mem_iff_getElem?.mp inside
      by_cases same : other = position
      · -- The override that is replaced is a common one.
        subst same
        obtain ⟨beneath, below, known, oldStood, -, found⟩ := inspected.sources other old there
        rcases places with ⟨-, rfl⟩ | ⟨present, client, again, thereAgain, path_eq⟩
        · exact absurd (List.getElem?_eq_some_iff.mp there).1 (lt_irrefl _)
        · cases there.symm.trans thereAgain
          refine ⟨source, kept, path_eq.symm.trans named, fun isClient => ?_⟩
          rw [path_eq, present] at found
          cases found
          have opened := oldStood.opened
          rw [wins isClient, stood.opened] at opened
          cases opened
          subst isClient
          have clash := (roots_differ known (by decide) oldStood.named stood.named).1
          exact absurd clash (by decide)
      · refine ⟨old, mem_of_getElem? ((here other).trans ?_), named, wins⟩
        rw [if_neg same, there]
    · cases mem_singleton.mp last
      have opened := stands.opened
      rw [stood.opened] at opened
      cases opened
      exact ⟨source, kept, (roots_differ listed listed stands.named stood.named).2, fun _ => rfl⟩
  case files =>
    refine ⟨?_, counted⟩
    have before := inspected.files.1
    show (if position = state.overrides.length then _ else _ : List PackOverride).length ≤ _ + 1
    split
    · rw [length_append, length_singleton]
      omega
    · rw [length_set]
      omega
  case entries =>
    intro other member
    obtain ⟨place, there⟩ := mem_iff_getElem?.mp member
    rw [here] at there
    split at there
    · cases there
      exact small
    · exact inspected.entries other (mem_of_getElem? there)
  case bytes =>
    refine ⟨?_, together⟩
    have before := inspected.bytes.1
    show ((if position = state.overrides.length then _ else _ : List PackOverride).map _).sum ≤ _
    split
    · rw [map_append, map_singleton, sum_append, sum_singleton]
      show _ ≤ state.totalBytes + source.size
      omega
    · rw [map_set]
      exact sum_set_le.trans (Nat.add_le_add_right before _)

variable {made : List (String × Nat)} {visit : String × Nat}

theorem Inspected.skip (inspected : Inspected reader unicode zip made state)
    (none : ∀ path entry, ¬ FileOf zip visit.1 path visit.2 entry) :
    Inspected reader unicode zip (made ++ [visit]) state :=
  { inspected with
    complete := fun root archiveIndex member path entry stands => by
      rcases mem_append.mp member with earlier | last
      · exact inspected.complete root archiveIndex earlier path entry stands
      · cases mem_singleton.mp last
        exact absurd stands (none path entry) }

variable {before after : Inspection} {archiveIndex : Nat}

section

variable (inspected : Inspected reader unicode zip made before)

include inspected

theorem Inspected.inspectFile (listed : root ∈ overrideRoots)
    (stands : FileOf zip root path archiveIndex entry)
    (advanced : inspectFile reader unicode zip before root archiveIndex entry path = .ok after) :
    Inspected reader unicode zip (made ++ [(root, archiveIndex)]) after := by
  unfold App.inspectFile at advanced
  simp only [guard_eq_ok, bind_eq_ok, pure_eq_ok, not_or,
    not_lt] at advanced
  obtain ⟨-, _, -, ⟨counted, -, -⟩, bytes, wasRead, position, placed, rfl⟩ := advanced
  obtain ⟨got, exact, within⟩ := readEntry_spec stands.opened wasRead
  have total := inspected.bytes.2
  have both := le_min_iff.mp within
  exact inspected.insert
    { path, archiveIndex, archivePath := entry.name, size := bytes.length,
      sha512 := reader.sha512 bytes }
    listed stands ⟨rfl, exact, _, bytes, got, exact, rfl⟩ placed counted both.1
    (by dsimp only; omega)

/-- Every turn keeps what is true between them. -/
theorem Inspected.step (listed : visit.1 ∈ overrideRoots)
    (advanced : inspectEntry reader unicode zip before visit = .ok after) :
    Inspected reader unicode zip (made ++ [visit]) after := by
  unfold inspectEntry at advanced
  split at advanced
  · cases advanced
  · rename_i entry opened
    have unique {path : String} {other : ZipEntry}
        (stands : FileOf zip visit.1 path visit.2 other) : other = entry :=
      some_inj.mp (stands.opened.symm.trans opened)
    split at advanced
    · rename_i outside
      cases advanced
      refine inspected.skip fun path other stands => ?_
      cases unique stands
      rw [stripPrefix_eq_some.mpr stands.named] at outside
      cases outside
    · rename_i path cut
      split at advanced
      · rename_i isDir
        have skipped : Inspected reader unicode zip (made ++ [visit]) before := by
          refine inspected.skip fun other entry stands => ?_
          cases unique stands
          exact Bool.false_ne_true (stands.plain.symm.trans isDir)
        split at advanced
        · cases advanced
          exact skipped
        · obtain ⟨-, -, same⟩ := bind_eq_ok.mp advanced
          cases same
          exact skipped
      · rename_i isFile
        exact inspected.inspectFile listed
          ⟨opened, eq_false_of_ne_true isFile, stripPrefix_eq_some.mp cut⟩ advanced

theorem Inspected.run {visited : List (String × Nat)}
    (listed : ∀ visit ∈ visited, visit.1 ∈ overrideRoots)
    (advanced : visited.foldlM (inspectEntry reader unicode zip) before = .ok after) :
    Inspected reader unicode zip (made ++ visited) after := by
  induction visited generalizing made before with
  | nil =>
    cases foldlM_nil_eq_ok.mp advanced
    rwa [List.append_nil]
  | cons visit visited ih =>
    obtain ⟨middle, here, later⟩ := foldlM_cons_eq_ok.mp advanced
    have first := inspected.step (listed visit mem_cons_self) here
    have rest := ih first
      (fun other member => listed other (mem_cons_of_mem _ member)) later
    rwa [append_assoc] at rest

end

theorem mem_visits :
    (root, archiveIndex) ∈ visits zip ↔ root ∈ overrideRoots ∧ archiveIndex < zip.length := by
  unfold visits overrideRoots
  simp only [mem_flatMap, List.mem_map, mem_range, Prod.mk.injEq]
  constructor
  · rintro ⟨_, listed, _, within, rfl, rfl⟩
    exact ⟨listed, within⟩
  · rintro ⟨listed, within⟩
    exact ⟨root, listed, archiveIndex, within, rfl, rfl⟩

/-! ### What is planned -/

/-- The trees of an archive as they are laid out: each override is the file of an entry and each
file has one override, that of the tree for clients if it is in both. -/
structure LaysOut (reader : PackReader) (zip : Zip) (overrides : List PackOverride) : Prop where
  sources : ∀ source ∈ overrides, ∃ root entry, root ∈ overrideRoots ∧
    FileOf zip root source.path source.archiveIndex entry ∧ Describes reader entry source
  once : ∀ root ∈ overrideRoots, ∀ path archiveIndex entry,
    FileOf zip root path archiveIndex entry → (overrides.map PackOverride.path).count path = 1
  clientWins : ∀ source ∈ overrides, ∀ archiveIndex entry,
    FileOf zip "client-overrides" source.path archiveIndex entry →
      source.archiveIndex = archiveIndex
  files : overrides.length ≤ maxOverrideFiles
  entries : ∀ source ∈ overrides, source.size ≤ maxOverrideEntryBytes
  bytes : (overrides.map PackOverride.size).sum ≤ maxOverrideTotalBytes

theorem Coherent.nodup {destinations : List String} (coherent : Coherent unicode destinations) :
    destinations.Nodup :=
  List.Nodup.of_map _ coherent.distinct

theorem lt_of_byIndex {position : Nat} (opened : zip.byIndex position = some entry) :
    position < zip.length :=
  (List.getElem?_eq_some_iff.mp (join_eq_some_iff.mp opened)).1

theorem laysOut_of_inspectOverrides (documented : unicode.Documented)
    {overrides : List PackOverride}
    (inspected : inspectOverrides reader unicode zip = .ok overrides) :
    LaysOut reader zip overrides := by
  unfold inspectOverrides at inspected
  simp only [bind_eq_ok, pure_eq_ok] at inspected
  obtain ⟨state, folded, ⟨⟩, accepted, rfl⟩ := inspected
  have all := Inspected.empty.run (fun visit member => (mem_visits.mp member).1) folded
  rw [nil_append] at all
  have distinct := (coherent_of_validateDestinations documented accepted).nodup
  have found {root path : String} {archiveIndex : Nat} {entry : ZipEntry}
      (listed : root ∈ overrideRoots) (stands : FileOf zip root path archiveIndex entry) :
      ∃ source ∈ state.overrides, source.path = path ∧
        (root = "client-overrides" → source.archiveIndex = archiveIndex) :=
    all.complete root archiveIndex (mem_visits.mpr ⟨listed, lt_of_byIndex stands.opened⟩) path
      entry stands
  constructor
  case sources =>
    intro source member
    obtain ⟨position, there⟩ := mem_iff_getElem?.mp member
    obtain ⟨root, entry, listed, stands, describes, -⟩ := all.sources position source there
    exact ⟨root, entry, listed, stands, describes⟩
  case once =>
    intro root listed path archiveIndex entry stands
    obtain ⟨source, member, rfl, -⟩ := found listed stands
    exact count_eq_one_of_mem distinct (List.mem_map_of_mem member)
  case clientWins =>
    intro source member archiveIndex entry stands
    obtain ⟨other, inside, same, wins⟩ := found (by decide) stands
    rw [← inj_on_of_nodup_map distinct inside member same]
    exact wins rfl
  case files => exact all.files.1.trans all.files.2
  case entries => exact all.entries
  case bytes => exact all.bytes.1.trans all.bytes.2

/-- The files of an index are those of the archive, in order, that a client has a use for. -/
theorem paths_of_indexFiles {inputs : List PackDto.IndexFile} {before after : List PackFile}
    (indexed : inputs.foldlM (indexFile reader unicode) before = .ok after) :
    after.map PackFile.path = before.map PackFile.path ++
      (inputs.filter (·.client ≠ some "unsupported")).map PackDto.IndexFile.path := by
  induction inputs generalizing before with
  | nil =>
    cases foldlM_nil_eq_ok.mp indexed
    exact (List.append_nil _).symm
  | cons file inputs ih =>
    obtain ⟨middle, here, later⟩ := foldlM_cons_eq_ok.mp indexed
    rw [ih later]
    unfold indexFile at here
    split at here
    · rename_i unsupported
      cases here
      rw [filter_cons_of_neg (by simpa using unsupported)]
    · rename_i supported
      simp only [bind_eq_ok, guard_eq_ok] at here
      obtain ⟨_, -, _, -, _, -, -, -, here⟩ := here
      split at here
      · cases here
      · cases here
        rw [filter_cons_of_pos (by simpa using supported), map_append, append_assoc]
        rfl

theorem parsePackIndex_spec {raw : String} {index : PackIndex}
    (parsed : parsePackIndex reader unicode raw = .ok index) :
    ∃ dto, reader.parseIndex raw = some dto ∧ index.files.map PackFile.path =
      (dto.files.filter (·.client ≠ some "unsupported")).map PackDto.IndexFile.path := by
  unfold parsePackIndex at parsed
  rw [guard_eq_ok] at parsed
  obtain ⟨-, parsed⟩ := parsed
  split at parsed
  · cases parsed
  · rename_i dto decoded
    refine ⟨dto, decoded, ?_⟩
    rw [guard_eq_ok] at parsed
    obtain ⟨-, parsed⟩ := parsed
    split at parsed
    · cases parsed
    · simp only [bind_eq_ok, guard_eq_ok, pure_eq_ok] at parsed
      obtain ⟨_, -, _, -, -, -, files, indexed, _, -, rfl⟩ := parsed
      exact paths_of_indexFiles indexed

/-- What an archive that is read has come from. -/
theorem PackArchive.read_spec {archive : PackArchive}
    (wasRead : PackArchive.read reader unicode bytes = .ok archive) :
    ∃ zip raw, reader.openZip bytes = some zip ∧
      parsePackIndex reader unicode raw = .ok archive.index ∧
      inspectOverrides reader unicode zip = .ok archive.overrides := by
  unfold PackArchive.read at wasRead
  rw [guard_eq_ok] at wasRead
  obtain ⟨-, wasRead⟩ := wasRead
  split at wasRead
  · cases wasRead
  · rename_i zip opened
    rw [guard_eq_ok] at wasRead
    obtain ⟨-, wasRead⟩ := wasRead
    obtain ⟨place, -, wasRead⟩ := bind_eq_ok.mp wasRead
    cases place with
    | none => cases wasRead
    | some position =>
      obtain ⟨raw, -, wasRead⟩ := bind_eq_ok.mp wasRead
      split at wasRead
      · cases wasRead
      · rename_i text decoded
        simp only [bind_eq_ok, pure_eq_ok] at wasRead
        obtain ⟨index, parsed, overrides, inspected, rfl⟩ := wasRead
        exact ⟨zip, text, opened, parsed, inspected⟩

/-- A plan of an archive that is read has destinations that go well together, each of its downloads
and, if they are wanted, each file of its trees at one of them. Whatever the loops over the trees
have come to, the totals are within their limits. -/
theorem packPlan_coherent (documented : unicode.Documented) {bytes : List UInt8}
    {archive : PackArchive} (wasRead : PackArchive.read reader unicode bytes = .ok archive) :
    ∃ zip dto raw, reader.openZip bytes = some zip ∧ reader.parseIndex raw = some dto ∧
      archive.index.files.map PackFile.path =
        (dto.files.filter (·.client ≠ some "unsupported")).map PackDto.IndexFile.path ∧
      LaysOut reader zip archive.overrides ∧
      (∀ visited state, visited <+: visits zip →
        visited.foldlM (inspectEntry reader unicode zip) .empty = .ok state →
          state.totalFiles ≤ maxOverrideFiles ∧ state.totalBytes ≤ maxOverrideTotalBytes) ∧
      ∀ files includeOverrides plan, archive.plan unicode files includeOverrides = .ok plan →
        plan.destinations = files.map PackFile.path ++
          (if includeOverrides then archive.overrides.map PackOverride.path else []) ∧
        Coherent unicode plan.destinations ∧
        ∀ destination ∈ plan.destinations, plan.destinations.count destination = 1 := by
  obtain ⟨zip, raw, opened, parsed, inspected⟩ := PackArchive.read_spec wasRead
  obtain ⟨dto, decoded, paths⟩ := parsePackIndex_spec parsed
  refine ⟨zip, dto, raw, opened, decoded, paths, laysOut_of_inspectOverrides documented inspected,
    fun visited state first folded => ?_, fun files includeOverrides plan planned => ?_⟩
  · have some := Inspected.empty.run
      (fun visit member => (mem_visits.mp (first.subset member)).1) folded
    exact ⟨some.files.2, some.bytes.2⟩
  · unfold PackArchive.plan at planned
    simp only [bind_eq_ok, pure_eq_ok] at planned
    obtain ⟨⟨⟩, accepted, rfl⟩ := planned
    have coherent := coherent_of_validateDestinations documented accepted
    refine ⟨?_, coherent, fun destination member => count_eq_one_of_mem coherent.nodup member⟩
    show _ ++ List.map _ (if includeOverrides then _ else _) = _
    cases includeOverrides <;> rfl

/-- An archive with an index of two files, one of which is not for clients, and a file that is in
both trees. -/
def bothTrees : PackReader where
  openZip _ := some ([("modrinth.index.json", []), ("overrides/options.txt", [1]),
    ("client-overrides/options.txt", [2, 3])].map fun (name, bytes) =>
      some { name, isDir := false, unixMode := none, size := bytes.length,
             read := fun limit => some (bytes.take limit) })
  parseIndex _ := some ⟨1, none, "", "", [("minecraft", "1.21")], ["required", "unsupported"].map
    fun client => ⟨"mods/" ++ client ++ ".jar", some (String.ofList (replicate 40 'a')), none,
      some client, ["https://cdn.modrinth.com/a.jar"], some 10⟩⟩
  transport := ⟨fun _ _ => .ok ([], 0), fun _ _ _ => .ok ([], 0),
    fun _ => some ⟨"https", "", none, some (.domain "cdn.modrinth.com"), none⟩⟩
  urlText := id
  sha256 bytes := toString bytes.length
  sha512 bytes := toString bytes.length

/-- The plan has the file for clients, and once the one of the trees, from the tree for clients. -/
theorem packPlan_coherent_bothTrees :
    ∃ archive plan, PackArchive.read bothTrees .apostrophe [] = .ok archive ∧
      archive.plan .apostrophe archive.index.files true = .ok plan ∧
      plan.destinations = ["mods/required.jar", "options.txt"] ∧
      Coherent .apostrophe plan.destinations ∧
      ∀ source ∈ archive.overrides, source.path = "options.txt" → source.archiveIndex = 2 := by
  have accepted : (PackArchive.read bothTrees .apostrophe []).toOption.map (fun archive =>
      (archive.index.files.map PackFile.path, archive.overrides.map PackOverride.path)) =
        some (["mods/required.jar"], ["options.txt"]) := by
    decide +kernel
  cases wasRead : PackArchive.read bothTrees .apostrophe [] with
  | error error =>
    rw [wasRead] at accepted
    cases accepted
  | ok archive =>
    rw [wasRead] at accepted
    obtain ⟨files, overrides⟩ := Prod.mk.inj (some_inj.mp accepted)
    obtain ⟨zip, dto, raw, opened, -, -, laid, -, plans⟩ :=
      packPlan_coherent Minecraft.apostrophe_documented wasRead
    cases opened
    have apart : validateDestinations .apostrophe (archive.index.files.map PackFile.path ++
        archive.overrides.map PackOverride.path) = .ok () := by
      rw [files, overrides]
      exact validateDestinations_eq_ok.mpr
        ⟨[("mods/required.jar", "mods/required.jar"), ("options.txt", "options.txt")],
          by decide +kernel, by decide +kernel⟩
    have planned : archive.plan .apostrophe archive.index.files true = .ok _ :=
      bind_eq_ok.mpr ⟨(), apart, rfl⟩
    obtain ⟨destinations, coherent, -⟩ := plans _ _ _ planned
    rw [files, if_pos rfl, overrides] at destinations
    refine ⟨archive, _, rfl, planned, destinations, coherent,
      fun source member named => laid.clientWins source member 2
        ⟨"client-overrides/options.txt", false, none, 2, fun limit => some ([2, 3].take limit)⟩ ?_⟩
    rw [named]
    exact ⟨rfl, rfl, rfl⟩

end Axial.App
