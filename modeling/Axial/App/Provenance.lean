/-
This file models the ownership records of `core/app/src/content/provenance.rs`: entries and
manifests as their type has them, valid or not, what `validate` asks of them, how they are
encoded, and the mutations of a manifest. A batch is validated as a whole, and a name
counts for its entry in both of its spellings, enabled and disabled.

JSON and timestamps are parameters. Of JSON only the text of one entry is, since the size
of a manifest goes by how the entries are laid out.
-/

import Axial.App.PackDestinations

namespace Axial.App.Provenance

open Bytes Reader List Option Fallible
open Axial.Minecraft (Unicode isAscii)

variable {unicode : Unicode}

abbrev maxManifestBytes : Nat := 4 * 1024 * 1024

abbrev maxManifestEntries : Nat := 4096

/-! ### Entries -/

/-- A name as its only constructor makes it. -/
abbrev ExactName (unicode : Unicode) :=
  {name : ManagedContentFileName unicode //
    ManagedContentFileName.newExact unicode name.asStr = some name}

/-- The names are of the type `Name`: names of managed content, or texts before they are read. -/
structure EntryOf (Name : Type) where
  canonicalId : CanonicalId
  provider : ProviderId
  projectId : String
  versionId : String
  kind : ContentKind
  filename : Option Name
  sha512 : Option String
  size : Option Nat
  dependencies : List ContentDependency
  enabled : Bool
  installedAt : String
  title : Option String
  packInstallation : Option PackInstallation
  deriving DecidableEq

abbrev ManifestEntry (unicode : Unicode) := EntryOf (ExactName unicode)

def validateText (value : String) (maximum : Nat) : ContentResult Unit :=
  if value = "" ∨ maximum < (utf8 value).length ∨ '\x00' ∈ value.toList then
    .error (.invalid "invalid content identity text")
  else .ok ()

def validatePackInstallation (unicode : Unicode) (proof : PackInstallation) : ContentResult Unit :=
  if (utf8 proof.fingerprint).length ≠ 64 ∨ proof.fingerprint.toList.all isHexDigit = false ∨
      20000 < proof.files.length ∨ (proof.files.any fun file =>
        maxContentFileBytes < file.size || !validSha512 file.sha512) = true then
    .error (.invalid "invalid pack installation evidence")
  else
    match validateDestinations unicode (proof.files.map PackInstalledFile.path) with
    | .error _ => .error (.invalid "invalid pack installation destinations")
    | .ok () => .ok ()

/-- What an entry may own, by its kind. -/
def validateOwnership (entry : ManifestEntry unicode) : ContentResult Unit :=
  if entry.kind = .modpack then
    if entry.filename.isSome ∨ entry.sha512.isSome ∨ entry.size.isSome then
      .error (.invalid "modpack provenance cannot own a file")
    else
      match entry.packInstallation with
      | none => .ok ()
      | some proof => validatePackInstallation unicode proof
  else if entry.packInstallation.isSome then
    .error (.invalid "only modpacks can record pack installation evidence")
  else
    match entry.filename with
    | none => .error (.invalid "missing content filename")
    | some filename =>
      if entry.kind = .mod ∧ endsWith filename.val.key.value ".jar" = false then
        .error (.invalid "managed mod filename must end in .jar")
      else if entry.sha512.any validSha512 = false ∨ entry.size.all (· = 0) = true then
        .error (.invalid "content ownership requires SHA-512 and an exact positive size")
      else .ok ()

def validateDependency (dependency : ContentDependency) : ContentResult Unit :=
  if dependency.projectId.isNone ∧ dependency.versionId.isNone then
    .error (.invalid "content dependency has no identity")
  else
    (dependency.projectId.toList ++ dependency.versionId.toList).forM fun value =>
      validateText value 512

/-- `chrono::DateTime::parse_from_rfc3339(value).is_ok()` is a parameter. -/
def validateEntry (isTimestamp : String → Bool) (entry : ManifestEntry unicode) :
    ContentResult Unit := do
  [entry.canonicalId.text, entry.projectId, entry.versionId].forM fun value =>
    validateText value 512
  if entry.canonicalId ≠ .forProject entry.provider entry.projectId then
    throw (.invalid "content canonical identity disagrees with provider project")
  validateOwnership entry
  if 256 < entry.dependencies.length then throw (.invalid "too many content dependencies")
  entry.dependencies.forM validateDependency
  validateText entry.installedAt 64
  if isTimestamp entry.installedAt = false then
    throw (.invalid "invalid content installation timestamp")
  if (entry.title.any fun title => 1024 < (utf8 title).length) = true then
    throw (.invalid "content title exceeds its bound")

/-! ### Manifests -/

structure ManifestOf (Name : Type) where
  schemaVersion : Nat
  entries : List (EntryOf Name)
  deriving DecidableEq

abbrev ContentManifest (unicode : Unicode) := ManifestOf (ExactName unicode)

/-- The identities and the names that a manifest has shown so far. -/
structure Seen where
  identities : List CanonicalId
  names : List (ContentKind × PortablePathKey)

/-- What an entry takes up among the names. -/
def nameOf (entry : ManifestEntry unicode) : Option (ContentKind × PortablePathKey) :=
  entry.filename.map fun filename => (entry.kind, filename.val.key)

/-- One turn of the loop over the entries. -/
def seeEntry (isTimestamp : String → Bool) (seen : Seen) (entry : ManifestEntry unicode) :
    ContentResult Seen := do
  validateEntry isTimestamp entry
  if entry.canonicalId ∈ seen.identities then throw (.invalid "duplicate content identity")
  if (nameOf entry).any (· ∈ seen.names) = true then
    throw (.invalid "duplicate portable content path")
  return ⟨seen.identities ++ [entry.canonicalId], seen.names ++ (nameOf entry).toList⟩

def validateManifest (isTimestamp : String → Bool) (manifest : ContentManifest unicode) :
    ContentResult Unit := do
  if manifest.schemaVersion ≠ 3 ∨ maxManifestEntries < manifest.entries.length then
    throw (.invalid "unsupported or oversized content manifest")
  let _ ← manifest.entries.foldlM (seeEntry isTimestamp) ⟨[], []⟩
  return ()

/-! ### Encoding -/

/-- The text of an entry two levels deep, and the reader of the whole; names are texts. -/
structure Json where
  entryText : EntryOf String → List UInt8
  parse : List UInt8 → Option (ManifestOf String)

def EntryOf.map {Name Other : Type} (make : Name → Other) (entry : EntryOf Name) :
    EntryOf Other :=
  { entry with filename := entry.filename.map make }

/-- A manifest with its names written out. -/
def wire (manifest : ContentManifest unicode) : ManifestOf String :=
  ⟨manifest.schemaVersion, manifest.entries.map (EntryOf.map fun name => name.val.asStr)⟩

/-- `to_vec_pretty` of the list of entries. -/
def prettyEntries (texts : List (List UInt8)) : List UInt8 :=
  if texts = [] then utf8 "[]"
  else utf8 "[\n    " ++ List.intercalate (utf8 ",\n    ") texts ++ utf8 "\n  ]"

def pretty (json : Json) (manifest : ManifestOf String) : List UInt8 :=
  utf8 "\x7b\n  \"schema_version\": " ++ utf8 (toString manifest.schemaVersion) ++
    utf8 ",\n  \"entries\": " ++ prettyEntries (manifest.entries.map json.entryText) ++
    utf8 "\n\x7d"

def encodeManaged (isTimestamp : String → Bool) (json : Json)
    (manifest : ContentManifest unicode) : ContentResult (List UInt8) := do
  validateManifest isTimestamp manifest
  let bytes := pretty json (wire manifest)
  if maxManifestBytes < bytes.length then throw (.invalid "content manifest exceeds its byte bound")
  return bytes

/-- The name of an entry is read as the type of names reads it. -/
def readEntry (unicode : Unicode) (entry : EntryOf String) : Option (ManifestEntry unicode) :=
  match entry.filename with
  | none => some { entry with filename := none }
  | some value =>
    match made : ManagedContentFileName.newExact unicode value with
    | none => none
    | some name =>
      have same := (ManagedContentFileName.newExact_spec made).1
      some { entry with filename := some ⟨name, same.symm ▸ made⟩ }

def decodeManaged (unicode : Unicode) (isTimestamp : String → Bool) (json : Json)
    (bytes : Option (List UInt8)) : ContentResult (ContentManifest unicode) :=
  match bytes with
  | none => .ok ⟨3, []⟩
  | some bytes =>
    if maxManifestBytes < bytes.length then
      .error (.invalid "content manifest exceeds its byte bound")
    else
      match json.parse bytes with
      | none => .error .parse
      | some read =>
        match read.entries.mapM (readEntry unicode) with
        | none => .error .parse
        | some entries => do
          let manifest : ContentManifest unicode := ⟨read.schemaVersion, entries⟩
          validateManifest isTimestamp manifest
          return manifest

/-! ### Mutations -/

def ManifestOf.find (manifest : ContentManifest unicode) (id : CanonicalId) :
    Option (ManifestEntry unicode) :=
  manifest.entries.find? fun entry => entry.canonicalId = id

/-- Whether an entry goes elsewhere than the one it replaces. -/
def Displaces (old entry : ManifestEntry unicode) : Prop :=
  old.filename ≠ entry.filename ∨ old.kind ≠ entry.kind

instance (old entry : ManifestEntry unicode) : Decidable (Displaces old entry) := instDecidableOr

structure Batch (unicode : Unicode) where
  ids : List CanonicalId
  candidate : ContentManifest unicode
  displaced : List (ManifestEntry unicode)

/-- One turn of the loop over the additions. -/
def Batch.add (batch : Batch unicode) (entry : ManifestEntry unicode) :
    ContentResult (Batch unicode) :=
  if entry.canonicalId ∈ batch.ids then .error (.invalid "duplicate content identity")
  else
    let ids := batch.ids ++ [entry.canonicalId]
    let entries := batch.candidate.entries
    match entries.findIdx? fun old => old.canonicalId = entry.canonicalId with
    | none => .ok { batch with ids, candidate.entries := entries ++ [entry] }
    | some index =>
      .ok { ids, candidate := { batch.candidate with entries := entries.set index entry },
            displaced := batch.displaced ++
              (entries[index]?.filter fun old => Displaces old entry).toList }

section

variable (isTimestamp : String → Bool) (json : Json) (manifest : ContentManifest unicode)

/-- The outcome and the manifest afterwards. -/
def tryUpsertBatch (additions : List (ManifestEntry unicode)) :
    ContentResult (List (ManifestEntry unicode)) × ContentManifest unicode :=
  if maxManifestEntries < additions.length then
    (.error (.invalid "too many content entries"), manifest)
  else
    match additions.foldlM Batch.add ⟨[], manifest, []⟩ with
    | .error error => (.error error, manifest)
    | .ok batch =>
      match encodeManaged isTimestamp json batch.candidate with
      | .error error => (.error error, manifest)
      | .ok _ => (.ok batch.displaced, batch.candidate)

def tryUpsert (entry : ManifestEntry unicode) :
    ContentResult (Option (ManifestEntry unicode)) × ContentManifest unicode :=
  ((tryUpsertBatch isTimestamp json manifest [entry]).1.map List.head?,
    (tryUpsertBatch isTimestamp json manifest [entry]).2)

def ManifestOf.remove (id : CanonicalId) :
    Option (ManifestEntry unicode) × ContentManifest unicode :=
  match manifest.entries.findIdx? fun entry => entry.canonicalId = id with
  | none => (none, manifest)
  | some index => (manifest.entries[index]?,
      { manifest with entries := manifest.entries.eraseIdx index })

def trySetEnabled (id : CanonicalId) (enabled : Bool) :
    ContentResult (Option Bool) × ContentManifest unicode :=
  match manifest.entries.findIdx? fun entry => entry.canonicalId = id with
  | none => (.ok none, manifest)
  | some index =>
    if manifest.entries[index]?.any fun entry => entry.enabled = enabled then
      (.ok (some false), manifest)
    else
      let candidate : ContentManifest unicode := { manifest with
        entries := manifest.entries.modify index fun entry => { entry with enabled } }
      match encodeManaged isTimestamp json candidate with
      | .error error => (.error error, manifest)
      | .ok _ => (.ok (some true), candidate)

end

inductive Mutation (unicode : Unicode) where
  | upsert (entry : ManifestEntry unicode)
  | upsertBatch (additions : List (ManifestEntry unicode))
  | remove (id : CanonicalId)
  | setEnabled (id : CanonicalId) (enabled : Bool)

/-- The manifest after a mutation, whether it succeeds or fails. -/
def apply (isTimestamp : String → Bool) (json : Json) (manifest : ContentManifest unicode) :
    Mutation unicode → ContentManifest unicode
  | .upsert entry => (tryUpsert isTimestamp json manifest entry).2
  | .upsertBatch additions => (tryUpsertBatch isTimestamp json manifest additions).2
  | .remove id => (manifest.remove id).2
  | .setEnabled id enabled => (trySetEnabled isTimestamp json manifest id enabled).2

/-! ### What is valid -/

variable {isTimestamp : String → Bool} {json : Json}

/-- What `validate` comes to. -/
structure Valid (isTimestamp : String → Bool) (manifest : ContentManifest unicode) : Prop where
  schema : manifest.schemaVersion = 3
  bounded : manifest.entries.length ≤ maxManifestEntries
  entries : ∀ entry ∈ manifest.entries, validateEntry isTimestamp entry = .ok ()
  identities : (manifest.entries.map EntryOf.canonicalId).Nodup
  names : (manifest.entries.filterMap nameOf).Nodup

theorem nodup_append_toList {Item : Type} [BEq Item] [LawfulBEq Item] {items : List Item}
    (item : Option Item) (distinct : items.Nodup) :
    (items ++ item.toList).Nodup ↔ ¬ item.any (· ∈ items) = true := by
  cases item with
  | none => simpa using distinct
  | some item =>
    rw [toList_some, ← concat_eq_append, nodup_concat]
    simp [distinct]

theorem filterMap_cons_toList {Input Output : Type} (make : Input → Option Output) (input : Input)
    (inputs : List Input) :
    (input :: inputs).filterMap make = (make input).toList ++ inputs.filterMap make := by
  rw [filterMap_cons]
  cases make input <;> rfl

theorem seeEntries_eq_ok {entries : List (ManifestEntry unicode)} {seen : Seen}
    (identities : seen.identities.Nodup) (names : seen.names.Nodup) :
    (∃ finish, entries.foldlM (seeEntry isTimestamp) seen = .ok finish) ↔
      (∀ entry ∈ entries, validateEntry isTimestamp entry = .ok ()) ∧
        (seen.identities ++ entries.map EntryOf.canonicalId).Nodup ∧
        (seen.names ++ entries.filterMap nameOf).Nodup := by
  induction entries generalizing seen with
  | nil =>
    refine iff_of_true ⟨seen, rfl⟩ ⟨nofun, ?_, ?_⟩
    · rwa [map_nil, List.append_nil]
    · rwa [filterMap_nil, List.append_nil]
  | cons entry entries ih =>
    have split : seen.identities ++ (entry :: entries).map EntryOf.canonicalId =
        seen.identities ++ (some entry.canonicalId).toList ++ entries.map EntryOf.canonicalId := by
      rw [append_assoc]
      rfl
    rw [filterMap_cons_toList, ← append_assoc, split, forall_mem_cons]
    simp only [foldlM_cons_eq_ok, seeEntry, bind_eq_ok, guard_eq_ok,
      pure_eq_ok]
    constructor
    · rintro ⟨finish, middle, ⟨⟨⟩, valid, new, free, rfl⟩, later⟩
      have first := (nodup_append_toList (some entry.canonicalId) identities).mpr
        (by simpa using new)
      obtain ⟨rest, ids, all⟩ := (ih first
        ((nodup_append_toList (nameOf entry) names).mpr free)).mp ⟨finish, later⟩
      exact ⟨⟨valid, rest⟩, ids, all⟩
    · rintro ⟨⟨valid, rest⟩, ids, all⟩
      have first := (nodup_append.mp ids).1
      have second := (nodup_append.mp all).1
      obtain ⟨finish, later⟩ := (@ih
        ⟨seen.identities ++ [entry.canonicalId], seen.names ++ (nameOf entry).toList⟩
        first second).mpr ⟨rest, ids, all⟩
      refine ⟨finish, _, ⟨(), valid, ?_, (nodup_append_toList _ names).mp second, rfl⟩, later⟩
      simpa using (nodup_append_toList (some entry.canonicalId) identities).mp first

theorem validateManifest_eq_ok {manifest : ContentManifest unicode} :
    validateManifest isTimestamp manifest = .ok () ↔ Valid isTimestamp manifest := by
  have folds := @seeEntries_eq_ok _ isTimestamp manifest.entries ⟨[], []⟩ nodup_nil
    nodup_nil
  unfold validateManifest
  simp only [guard_eq_ok, bind_eq_ok, pure_eq_ok, and_true, not_or,
    not_not, not_lt]
  rw [folds]
  constructor
  · rintro ⟨⟨schema, bounded⟩, entries, identities, names⟩
    exact ⟨schema, bounded, entries, identities, names⟩
  · rintro ⟨schema, bounded, entries, identities, names⟩
    exact ⟨⟨schema, bounded⟩, entries, identities, names⟩

variable {entries : List (ManifestEntry unicode)}

/-- Fewer entries are as valid. -/
theorem Valid.sublist {manifest : ContentManifest unicode} (valid : Valid isTimestamp manifest)
    (fewer : entries.Sublist manifest.entries) :
    Valid isTimestamp { manifest with entries } where
  schema := valid.schema
  bounded := fewer.length_le.trans valid.bounded
  entries entry member := valid.entries entry (fewer.subset member)
  identities := valid.identities.sublist (fewer.map _)
  names := valid.names.sublist (fewer.filterMap _)

variable {bytes : List UInt8}

theorem encodeManaged_eq_ok {manifest : ContentManifest unicode} :
    encodeManaged isTimestamp json manifest = .ok bytes ↔ Valid isTimestamp manifest ∧
      pretty json (wire manifest) = bytes ∧ bytes.length ≤ maxManifestBytes := by
  unfold encodeManaged
  simp only [bind_eq_ok, guard_eq_ok, pure_eq_ok, not_lt]
  constructor
  · rintro ⟨⟨⟩, valid, short, rfl⟩
    exact ⟨validateManifest_eq_ok.mp valid, rfl, short⟩
  · rintro ⟨valid, rfl, short⟩
    exact ⟨(), validateManifest_eq_ok.mpr valid, short, rfl⟩

/-! ### Sizes -/

variable {texts : List (List UInt8)}

theorem length_intercalate {separator : List UInt8} (some : texts ≠ []) :
    (List.intercalate separator texts).length + separator.length =
      (texts.map fun text => text.length + separator.length).sum := by
  induction texts with
  | nil => exact absurd rfl some
  | cons text texts ih =>
    rw [map_cons, sum_cons]
    by_cases last : texts = []
    · rw [last, intercalate_singleton]
      rfl
    · rw [intercalate_cons_of_ne_nil last, length_append, length_append,
        ← ih last]
      omega

/-- Fewer entries are not longer. -/
theorem length_prettyEntries_le {fewer : List (List UInt8)} (within : fewer.Sublist texts) :
    (prettyEntries fewer).length ≤ (prettyEntries texts).length := by
  have brackets : (utf8 "[]").length = 2 ∧ (utf8 "[\n    ").length = 6 := by decide
  unfold prettyEntries
  by_cases none : fewer = []
  · rw [if_pos none]
    split
    · exact le_rfl
    · rw [length_append, length_append]
      omega
  · have some : texts ≠ [] := by
      rintro rfl
      exact none (sublist_nil.mp within)
    have sum := (within.map fun text => text.length + (utf8 ",\n    ").length).sum_le_sum
      fun _ _ => Nat.zero_le _
    rw [← length_intercalate none, ← length_intercalate some] at sum
    rw [if_neg none, if_neg some]
    simp only [length_append]
    omega

theorem length_pretty_le {manifest : ContentManifest unicode}
    (fewer : entries.Sublist manifest.entries) :
    (pretty json (wire { manifest with entries })).length ≤
      (pretty json (wire manifest)).length := by
  have texts :
      (prettyEntries ((wire { manifest with entries }).entries.map json.entryText)).length ≤
      (prettyEntries ((wire manifest).entries.map json.entryText)).length :=
    length_prettyEntries_le ((fewer.map _).map _)
  unfold pretty
  simp only [length_append]
  have schema : (wire { manifest with entries }).schemaVersion =
      (wire manifest).schemaVersion := rfl
  rw [schema]
  omega

/-! ### Batches -/

variable {entry : ManifestEntry unicode}

theorem find?_set {index : Nat} {old : ManifestEntry unicode} (there : entries[index]? = some old)
    (same : old.canonicalId = entry.canonicalId)
    (distinct : (entries.map EntryOf.canonicalId).Nodup) (id : CanonicalId) :
    (entries.set index entry).find? (fun entry => entry.canonicalId = id) =
      if entry.canonicalId = id then some entry
      else entries.find? fun entry => entry.canonicalId = id := by
  induction entries generalizing index with
  | nil => cases there
  | cons first entries ih =>
    rw [map_cons, nodup_cons] at distinct
    cases index with
    | zero =>
      cases there
      rw [set_cons_zero, find?_cons, find?_cons, same]
      by_cases here : entry.canonicalId = id
      · rw [if_pos here, decide_eq_true here]
      · rw [if_neg here, decide_eq_false here]
    | succ index =>
      have inside : old ∈ entries := mem_of_getElem? there
      have elsewhere : first.canonicalId ≠ entry.canonicalId := fun equal =>
        distinct.1 (equal.trans same.symm ▸ List.mem_map_of_mem inside)
      rw [set_cons_succ, find?_cons, find?_cons,
        ih there distinct.2]
      by_cases here : first.canonicalId = id
      · have other : ¬ entry.canonicalId = id := fun equal => elsewhere (here.trans equal.symm)
        rw [decide_eq_true here, if_neg other, if_neg other]
      · rw [decide_eq_false here]

variable {batch next : Batch unicode}

/-- What one turn does: the addition is found under its identity, and everything else as before. -/
theorem Batch.add_spec (distinct : (batch.candidate.entries.map EntryOf.canonicalId).Nodup)
    (added : batch.add entry = .ok next) :
    entry.canonicalId ∉ batch.ids ∧ next.ids = batch.ids ++ [entry.canonicalId] ∧
      (next.candidate.entries.map EntryOf.canonicalId).Nodup ∧
      (∀ id, next.candidate.find id =
        if entry.canonicalId = id then some entry else batch.candidate.find id) ∧
      next.displaced = batch.displaced ++
        ((batch.candidate.find entry.canonicalId).filter fun old => Displaces old entry).toList := by
  unfold Batch.add at added
  rw [ite_throw_eq_ok] at added
  obtain ⟨new, added⟩ := added
  have located : batch.candidate.find entry.canonicalId = _ :=
    find?_eq_bind_findIdx?_getElem?
  dsimp only at added
  cases position : batch.candidate.entries.findIdx?
      (fun old => old.canonicalId = entry.canonicalId) with
  | none =>
    rw [position] at added located
    cases added
    have fresh : entry.canonicalId ∉ batch.candidate.entries.map EntryOf.canonicalId := by
      intro member
      obtain ⟨old, inside, same⟩ := List.mem_map.mp member
      exact of_decide_eq_false (findIdx?_eq_none_iff.mp position old inside) same
    refine ⟨new, rfl, ?_, fun id => ?_, ?_⟩
    · rw [map_append, map_singleton, ← concat_eq_append]
      exact distinct.concat fresh
    · show List.find? _ (batch.candidate.entries ++ [entry]) = _
      rw [find?_append, find?_singleton]
      by_cases here : entry.canonicalId = id
      · subst here
        rw [if_pos rfl, if_pos (decide_eq_true rfl)]
        exact congrArg (Option.or · (some entry)) located
      · rw [if_neg here, if_neg (by simpa using here), or_none]
        rfl
    · rw [located]
      exact (List.append_nil _).symm
  | some index =>
    rw [position, bind_some] at located
    rw [position] at added
    cases added
    obtain ⟨within, same, -⟩ := findIdx?_eq_some_iff_getElem.mp position
    have there : batch.candidate.entries[index]? = some batch.candidate.entries[index] :=
      getElem?_eq_getElem within
    have named := of_decide_eq_true same
    refine ⟨new, rfl, ?_, find?_set there named distinct, by rw [located]⟩
    show ((batch.candidate.entries.set index entry).map EntryOf.canonicalId).Nodup
    rw [map_set, ← named, ← getElem_map EntryOf.canonicalId, set_getElem_self]
    · exact distinct
    · rwa [length_map]

/-- What the loop over the additions has come to. -/
structure Added (manifest : ContentManifest unicode) (done : List (ManifestEntry unicode))
    (batch : Batch unicode) : Prop where
  ids : batch.ids = done.map EntryOf.canonicalId
  distinct : (batch.candidate.entries.map EntryOf.canonicalId).Nodup
  found : ∀ id, batch.candidate.find id =
    (done.find? fun entry => entry.canonicalId = id).or (manifest.find id)
  displaced : batch.displaced = done.filterMap fun entry =>
    (manifest.find entry.canonicalId).filter fun old => Displaces old entry

theorem Added.start {manifest : ContentManifest unicode} (valid : Valid isTimestamp manifest) :
    Added manifest [] ⟨[], manifest, []⟩ :=
  ⟨rfl, valid.identities, fun _ => rfl, rfl⟩

variable {done : List (ManifestEntry unicode)}

theorem Added.add {manifest : ContentManifest unicode} (sofar : Added manifest done batch)
    (added : batch.add entry = .ok next) : Added manifest (done ++ [entry]) next := by
  obtain ⟨new, ids, distinct, found, displaced⟩ := Batch.add_spec sofar.distinct added
  have absent : done.find? (fun other => other.canonicalId = entry.canonicalId) = none := by
    rw [find?_eq_none]
    intro other member same
    exact new (sofar.ids ▸ of_decide_eq_true same ▸ List.mem_map_of_mem member)
  have before := sofar.found entry.canonicalId
  rw [absent, none_or] at before
  refine ⟨by rw [ids, sofar.ids, map_append]; rfl, distinct, fun id => ?_, ?_⟩
  · rw [found, find?_append, find?_singleton]
    by_cases here : entry.canonicalId = id
    · subst here
      rw [if_pos rfl, if_pos (decide_eq_true rfl), absent]
      rfl
    · rw [if_neg here, if_neg (by simpa using here), or_none, sofar.found]
  · rw [displaced, before, sofar.displaced, filterMap_append, filterMap_cons_toList,
      filterMap_nil, List.append_nil]

theorem Added.run {manifest : ContentManifest unicode} {additions : List (ManifestEntry unicode)}
    {finish : Batch unicode} (sofar : Added manifest done batch)
    (added : additions.foldlM Batch.add batch = .ok finish) :
    Added manifest (done ++ additions) finish := by
  induction additions generalizing done batch with
  | nil =>
    cases foldlM_nil_eq_ok.mp added
    rwa [List.append_nil]
  | cons entry additions ih =>
    obtain ⟨middle, here, later⟩ := foldlM_cons_eq_ok.mp added
    have rest := ih (sofar.add here) later
    rwa [append_assoc] at rest

/-! ### One mutation -/

def Encodable (isTimestamp : String → Bool) (json : Json) (manifest : ContentManifest unicode) :
    Prop :=
  ∃ bytes, encodeManaged isTimestamp json manifest = .ok bytes

theorem Encodable.valid {manifest : ContentManifest unicode}
    (encodable : Encodable isTimestamp json manifest) : Valid isTimestamp manifest := by
  obtain ⟨bytes, encoded⟩ := encodable
  exact (encodeManaged_eq_ok.mp encoded).1

/-- A batch fails and changes nothing, or its candidate is encoded and takes the place. -/
theorem tryUpsertBatch_cases (manifest : ContentManifest unicode)
    (additions : List (ManifestEntry unicode)) :
    (∃ error, tryUpsertBatch isTimestamp json manifest additions = (.error error, manifest)) ∨
      ∃ batch, tryUpsertBatch isTimestamp json manifest additions =
          (.ok batch.displaced, batch.candidate) ∧
        additions.foldlM Batch.add ⟨[], manifest, []⟩ = .ok batch ∧
        Encodable isTimestamp json batch.candidate := by
  unfold tryUpsertBatch
  split
  · exact .inl ⟨_, rfl⟩
  · cases folded : additions.foldlM Batch.add ⟨[], manifest, []⟩ with
    | error error => exact .inl ⟨error, rfl⟩
    | ok batch =>
      dsimp only
      cases encoded : encodeManaged isTimestamp json batch.candidate with
      | error error => exact .inl ⟨error, rfl⟩
      | ok bytes => exact .inr ⟨batch, rfl, rfl, bytes, encoded⟩

theorem trySetEnabled_cases (manifest : ContentManifest unicode) (id : CanonicalId)
    (enabled : Bool) :
    (trySetEnabled isTimestamp json manifest id enabled).2 = manifest ∨
      (∃ changed, (trySetEnabled isTimestamp json manifest id enabled).1 = .ok changed) ∧
        Encodable isTimestamp json (trySetEnabled isTimestamp json manifest id enabled).2 := by
  unfold trySetEnabled
  split
  · exact .inl rfl
  · split
    · exact .inl rfl
    · rename_i index _ _
      dsimp only
      cases encoded : encodeManaged isTimestamp json ({ manifest with
          entries := manifest.entries.modify index fun entry => { entry with enabled } } :
            ContentManifest unicode) with
      | error error => exact .inl rfl
      | ok bytes => exact .inr ⟨⟨_, rfl⟩, bytes, encoded⟩

theorem remove_sublist (manifest : ContentManifest unicode) (id : CanonicalId) :
    (manifest.remove id).2.schemaVersion = manifest.schemaVersion ∧
      (manifest.remove id).2.entries.Sublist manifest.entries := by
  unfold ManifestOf.remove
  split
  · exact ⟨rfl, List.Sublist.refl _⟩
  · exact ⟨rfl, eraseIdx_sublist _ _⟩

theorem Encodable.sublist {manifest : ContentManifest unicode}
    (encodable : Encodable isTimestamp json manifest) (fewer : entries.Sublist manifest.entries) :
    Encodable isTimestamp json { manifest with entries } := by
  obtain ⟨bytes, encoded⟩ := encodable
  obtain ⟨valid, rfl, short⟩ := encodeManaged_eq_ok.mp encoded
  exact ⟨_, encodeManaged_eq_ok.mpr
    ⟨valid.sublist fewer, rfl, (length_pretty_le fewer).trans short⟩⟩

/-- A mutation leaves the manifest as it was, encodes what it makes of it, or takes entries out. -/
theorem apply_cases (manifest : ContentManifest unicode) (mutation : Mutation unicode) :
    Encodable isTimestamp json (apply isTimestamp json manifest mutation) ∨
      ∃ entries, entries.Sublist manifest.entries ∧
        apply isTimestamp json manifest mutation = { manifest with entries } := by
  have same : ∃ entries, entries.Sublist manifest.entries ∧ manifest = { manifest with entries } :=
    ⟨manifest.entries, List.Sublist.refl _, rfl⟩
  have batch (additions : List (ManifestEntry unicode)) :
      Encodable isTimestamp json (tryUpsertBatch isTimestamp json manifest additions).2 ∨
        ∃ entries, entries.Sublist manifest.entries ∧
          (tryUpsertBatch isTimestamp json manifest additions).2 = { manifest with entries } := by
    rcases tryUpsertBatch_cases manifest additions with ⟨error, failed⟩ | ⟨done, made, -, encoded⟩
    · rw [failed]
      exact .inr same
    · rw [made]
      exact .inl encoded
  cases mutation with
  | upsert entry => exact batch [entry]
  | upsertBatch additions => exact batch additions
  | remove id =>
    obtain ⟨schema, fewer⟩ := remove_sublist manifest id
    refine .inr ⟨(manifest.remove id).2.entries, fewer, ?_⟩
    show (manifest.remove id).2 = _
    rw [← schema]
  | setEnabled id enabled =>
    rcases trySetEnabled_cases manifest id enabled with unchanged | ⟨-, encoded⟩
    · refine .inr ?_
      show ∃ entries, _ ∧ (trySetEnabled isTimestamp json manifest id enabled).2 = _
      rw [unchanged]
      exact same
    · exact .inl encoded

/-- What every encoded manifest has, and every manifest keeps that loses entries, a run keeps. -/
theorem run_invariant {holds : ContentManifest unicode → Prop}
    (encoded : ∀ manifest, Encodable isTimestamp json manifest → holds manifest)
    (fewer : ∀ manifest entries, entries.Sublist manifest.entries → holds manifest →
      holds { manifest with entries })
    {manifest : ContentManifest unicode} (initially : holds manifest)
    (mutations : List (Mutation unicode)) :
    holds (mutations.foldl (apply isTimestamp json) manifest) := by
  induction mutations generalizing manifest with
  | nil => exact initially
  | cons mutation mutations ih =>
    refine ih ?_
    rcases apply_cases manifest mutation with encodable | ⟨entries, within, made⟩
    · exact encoded _ encodable
    · rw [made]
      exact fewer manifest entries within initially

/-! ### Keys of files -/

/-- The keys a file goes by, enabled and disabled. -/
def fileKeys (name : ExactName unicode) : List PortablePathKey :=
  [name.val.key, name.val.disabled.key]

/-- No key belongs to two entries of a kind. -/
def KeysDisjoint (manifest : ContentManifest unicode) : Prop :=
  manifest.entries.Pairwise fun first second => first.kind = second.kind →
    ∀ name ∈ first.filename, ∀ other ∈ second.filename, (fileKeys name).Disjoint (fileKeys other)

section

variable (documented : unicode.Documented)
  (tail : ∀ first second, isAscii second = true →
    unicode.nfc (first ++ second) = unicode.nfc first ++ second)
include documented tail

theorem disabled_key (name : ExactName unicode) :
    name.val.disabled.key.value = name.val.key.value ++ disabledSuffix := by
  have ascii : isAscii disabledSuffix = true := by decide
  have lower : Minecraft.toAsciiLowercase disabledSuffix = disabledSuffix := by decide
  have made := name.property
  simp only [ManagedContentFileName.newExact, bind_eq_some, guard_eq_some', exists_const,
    pure_eq_some] at made
  obtain ⟨enabled, -, -, disabled, suffixed, same⟩ := made
  have spelled : disabled.value = enabled.value ++ disabledSuffix := by
    unfold PortableFileName.withSuffix PortableFileName.new at suffixed
    split at suffixed
    · cases suffixed
      show unicode.nfc _ = _
      rw [tail _ _ ascii, enabled.spelling]
    · cases suffixed
  rw [← same]
  show unicode.nfc (unicode.caseFold disabled.value) =
    unicode.nfc (unicode.caseFold enabled.value) ++ disabledSuffix
  rw [spelled, documented.caseFold_append, documented.caseFold_ascii _ ascii, lower, tail _ _ ascii]

/-- What stands for a file when it is enabled never stands for a disabled one. -/
theorem key_ne_disabled_key (name other : ExactName unicode) :
    name.val.key ≠ other.val.disabled.key := by
  intro same
  have plain := (ManagedContentFileName.newExact_spec name.property).2.1
  rw [same, disabled_key documented tail, endsWith, String.toList_append] at plain
  rw [isSuffixOf_iff_suffix.mpr (suffix_append _ _)] at plain
  cases plain

theorem fileKeys_disjoint {name other : ExactName unicode}
    (apart : name.val.key ≠ other.val.key) : (fileKeys name).Disjoint (fileKeys other) := by
  have disabled : name.val.disabled.key ≠ other.val.disabled.key := by
    intro same
    have texts : name.val.disabled.key.value.toList = other.val.disabled.key.value.toList := by
      rw [same]
    rw [disabled_key documented tail, disabled_key documented tail, String.toList_append,
      String.toList_append] at texts
    have values := String.toList_injective (append_cancel_right texts)
    exact apart (congrArg PortablePathKey.mk values)
  unfold fileKeys
  intro key first second
  simp only [mem_cons, not_mem_nil, or_false] at first second
  rcases first with rfl | rfl
  · rcases second with same | same
    · exact apart same
    · exact key_ne_disabled_key documented tail name other same
  · rcases second with same | same
    · exact key_ne_disabled_key documented tail other name same.symm
    · exact disabled same

theorem Valid.keysDisjoint {manifest : ContentManifest unicode}
    (valid : Valid isTimestamp manifest) : KeysDisjoint manifest := by
  have pairs := pairwise_filterMap.mp valid.names
  refine pairs.imp fun {first second} apart sameKind name inFirst other inSecond => ?_
  refine fileKeys_disjoint documented tail fun sameKey => ?_
  have one : nameOf first = some (first.kind, name.val.key) := by
    unfold nameOf
    rw [mem_def.mp inFirst, map_some]
  have two : nameOf second = some (second.kind, other.val.key) := by
    unfold nameOf
    rw [mem_def.mp inSecond, map_some]
  exact apart _ one _ two (by rw [sameKind, sameKey])

end

/-! ### Reading back -/

theorem readEntry_map (entry : ManifestEntry unicode) :
    readEntry unicode (entry.map fun name => name.val.asStr) = some entry := by
  obtain ⟨canonicalId, provider, projectId, versionId, kind, filename, sha512, size, dependencies,
    enabled, installedAt, title, packInstallation⟩ := entry
  cases filename with
  | none => rfl
  | some name =>
    unfold readEntry EntryOf.map
    dsimp only [map_some]
    split
    · rename_i failed
      rw [name.property] at failed
      cases failed
    · rename_i read made
      have same : read = name.val := some_inj.mp (made.symm.trans name.property)
      subst same
      rfl

/-- What is encoded is read back, where JSON reads what it wrote. -/
theorem decode_encode {manifest : ContentManifest unicode}
    (encoded : encodeManaged isTimestamp json manifest = .ok bytes)
    (faithful : json.parse (pretty json (wire manifest)) = some (wire manifest)) :
    decodeManaged unicode isTimestamp json (some bytes) = .ok manifest := by
  obtain ⟨valid, rfl, short⟩ := encodeManaged_eq_ok.mp encoded
  have entries : (wire manifest).entries.mapM (readEntry unicode) = some manifest.entries := by
    unfold wire
    dsimp only
    induction manifest.entries with
    | nil => rfl
    | cons entry entries ih =>
      rw [map_cons, mapM_cons, readEntry_map, ih]
      rfl
  unfold decodeManaged
  dsimp only
  rw [if_neg (Nat.not_lt.mpr short), faithful]
  dsimp only
  rw [entries]
  show (validateManifest isTimestamp manifest >>= fun _ => pure manifest) = _
  rw [validateManifest_eq_ok.mpr valid]
  rfl

/-! ### Runs of mutations -/

/-- What is true of a manifest at any time. -/
structure Sound (isTimestamp : String → Bool) (json : Json) (manifest : ContentManifest unicode) :
    Prop where
  valid : Valid isTimestamp manifest
  batchFails : ∀ additions error after,
    tryUpsertBatch isTimestamp json manifest additions = (.error error, after) → after = manifest
  enablingFails : ∀ id enabled error after,
    trySetEnabled isTimestamp json manifest id enabled = (.error error, after) → after = manifest
  batch : ∀ additions displaced after,
    tryUpsertBatch isTimestamp json manifest additions = (.ok displaced, after) →
      Encodable isTimestamp json after ∧
      displaced = (additions.filterMap fun entry =>
        (manifest.find entry.canonicalId).filter fun old => Displaces old entry) ∧
      ∀ id, after.find id =
        (additions.find? fun entry => entry.canonicalId = id).or (manifest.find id)
  keys : KeysDisjoint manifest
  decodes : ∀ bytes, encodeManaged isTimestamp json manifest = .ok bytes →
    json.parse bytes = some (wire manifest) →
      decodeManaged unicode isTimestamp json (some bytes) = .ok manifest

theorem Valid.sound (documented : unicode.Documented)
    (tail : ∀ first second, isAscii second = true →
      unicode.nfc (first ++ second) = unicode.nfc first ++ second)
    {manifest : ContentManifest unicode} (valid : Valid isTimestamp manifest) :
    Sound isTimestamp json manifest := by
  constructor
  case valid => exact valid
  case batchFails =>
    intro additions error after failed
    rcases tryUpsertBatch_cases manifest additions with ⟨_, same⟩ | ⟨batch, made, -⟩
    · cases same.symm.trans failed
      rfl
    · cases made.symm.trans failed
  case enablingFails =>
    intro id enabled error after failed
    rcases trySetEnabled_cases manifest id enabled with unchanged | ⟨⟨changed, made⟩, -⟩
    · rw [failed] at unchanged
      exact unchanged
    · rw [failed] at made
      cases made
  case batch =>
    intro additions displaced after done
    rcases tryUpsertBatch_cases manifest additions with ⟨_, same⟩ | ⟨batch, made, folded, encoded⟩
    · cases same.symm.trans done
    · cases made.symm.trans done
      have all := (Added.start valid).run folded
      exact ⟨encoded, all.displaced, all.found⟩
  case keys => exact valid.keysDisjoint documented tail
  case decodes =>
    intro bytes encoded faithful
    refine decode_encode encoded ?_
    rw [(encodeManaged_eq_ok.mp encoded).2.1, faithful]

/-- Whatever mutations are made of a manifest that is valid, it is valid afterwards with all that
this comes with, and if it could be encoded then it still can. -/
theorem manifest_sound (documented : unicode.Documented)
    (tail : ∀ first second, isAscii second = true →
      unicode.nfc (first ++ second) = unicode.nfc first ++ second)
    {manifest : ContentManifest unicode} (valid : validateManifest isTimestamp manifest = .ok ())
    (mutations : List (Mutation unicode)) :
    Sound isTimestamp json (mutations.foldl (apply isTimestamp json) manifest) ∧
      (Encodable isTimestamp json manifest →
        Encodable isTimestamp json (mutations.foldl (apply isTimestamp json) manifest)) := by
  have stays : Valid isTimestamp (mutations.foldl (apply isTimestamp json) manifest) :=
    run_invariant (fun _ encodable => encodable.valid) (fun _ _ fewer valid => valid.sublist fewer)
      (validateManifest_eq_ok.mp valid) mutations
  exact ⟨stays.sound documented tail, fun encodable =>
    run_invariant (fun _ encodable => encodable)
      (fun _ _ fewer encodable => encodable.sublist fewer) encodable mutations⟩

/-- A mod as it is written down, whose hash repeats one digit. -/
def modText (projectId versionId filename : String) (digit : Char) (size : Nat) :
    EntryOf String where
  canonicalId := .forProject .modrinth projectId
  provider := .modrinth
  projectId := projectId
  versionId := versionId
  kind := .mod
  filename := some filename
  sha512 := some (String.ofList (replicate 128 digit))
  size := some size
  dependencies := []
  enabled := true
  installedAt := "2026-07-01T08:00:00Z"
  title := none
  packInstallation := none

def newSodium : EntryOf String := modText "AANobbMI" "OwLQelEN" "sodium-0.6.jar" 'c' 950
def oldSodium : EntryOf String := modText "AANobbMI" "b4hTi3mo" "sodium-0.5.jar" 'a' 900
def lithium : EntryOf String := modText "gvQqBUqZ" "ZSNsJrPI" "lithium.jar" 'b' 700
def iris : EntryOf String := modText "YL57xq9U" "Rhzf61g1" "iris.jar" 'd' 800

/-- The JSON of a mod. -/
def modJson (entry : EntryOf String) : List UInt8 :=
  utf8 ("\x7b\n      \"canonical_id\": \"" ++ entry.canonicalId.text ++
    "\",\n      \"provider\": \"" ++ entry.provider.asStr ++
    "\",\n      \"project_id\": \"" ++ entry.projectId ++
    "\",\n      \"version_id\": \"" ++ entry.versionId ++
    "\",\n      \"kind\": \"mod\",\n      \"filename\": \"" ++ entry.filename.getD "" ++
    "\",\n      \"sha512\": \"" ++ entry.sha512.getD "" ++
    "\",\n      \"size\": " ++ toString (entry.size.getD 0) ++
    ",\n      \"dependencies\": [],\n      \"enabled\": " ++ toString entry.enabled ++
    ",\n      \"installed_at\": \"" ++ entry.installedAt ++ "\"\n    \x7d")

/-- JSON that reads the manifest of an updated mod and a new one. -/
def modsJson : Json where
  entryText := modJson
  parse bytes :=
    if bytes = pretty ⟨modJson, fun _ => none⟩ ⟨3, [newSodium, iris]⟩ then
      some ⟨3, [newSodium, iris]⟩
    else none

def modEntries (texts : List (EntryOf String)) : List (ManifestEntry .apostrophe) :=
  texts.filterMap (readEntry .apostrophe)

/-- An update displaces the file of one of two mods, renames it and adds a third mod; after the
other is removed the manifest is read back. -/
theorem manifest_sound_of_update :
    let onThatDay := fun value => decide (value = "2026-07-01T08:00:00Z")
    let older : ContentManifest .apostrophe := ⟨3, modEntries [oldSodium, lithium]⟩
    let update := modEntries [newSodium, iris]
    let newer := [.upsertBatch update, .remove lithium.canonicalId].foldl
      (apply onThatDay modsJson) older
    (tryUpsertBatch onThatDay modsJson older update).1.map
      (map (EntryOf.map fun name => name.val.asStr)) = .ok [oldSodium] ∧
    wire newer = ⟨3, [newSodium, iris]⟩ ∧ Sound onThatDay modsJson newer ∧
    decodeManaged .apostrophe onThatDay modsJson
      (some (pretty modsJson ⟨3, [newSodium, iris]⟩)) = .ok newer := by
  intro onThatDay older update newer
  have valid : validateManifest onThatDay older = .ok () := by decide +kernel
  have encodable : Encodable onThatDay modsJson older :=
    ⟨_, encodeManaged_eq_ok.mpr ⟨validateManifest_eq_ok.mp valid, rfl, by decide +kernel⟩⟩
  obtain ⟨sound, still⟩ := @manifest_sound .apostrophe onThatDay modsJson
    Minecraft.apostrophe_documented (fun _ _ _ => rfl) older valid
    [.upsertBatch update, .remove lithium.canonicalId]
  have written : wire newer = ⟨3, [newSodium, iris]⟩ := by decide +kernel
  refine ⟨by decide +kernel, written, sound, ?_⟩
  obtain ⟨bytes, encoded⟩ := still encodable
  have text : pretty modsJson (wire newer) = bytes := (encodeManaged_eq_ok.mp encoded).2.1
  rw [← written, text]
  refine sound.decodes bytes encoded ?_
  rw [← text, written]
  decide +kernel

end Axial.App.Provenance
