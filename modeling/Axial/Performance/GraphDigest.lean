/-
This file proves that the digest of a sealed plan identifies its graph, and that the
graph is all that counts: plans sealed of the same pins and edges in any order are the
same plan. What is hashed is a sequence of fields with their lengths ahead, and lists
with their counts ahead, so that it can be taken apart in one way only.
-/

import Axial.Library.Framing
import Axial.Performance.Representable

namespace Axial.Performance

open Bytes Fallible Framing Relation Function List

/-! ### Fields -/

theorem hashField_eq (label : String) (value : List UInt8) :
    hashField label value = counted 8 (utf8 label) ++ counted 8 value := by
  simp only [hashField, counted, append_assoc]

/-- What is as short as every field of a sealed plan. -/
abbrev Short (bytes : List UInt8) : Prop := bytes.length < 256 ^ 8

theorem splitsOff_hashField (label : String) : SplitsOff Short (hashField label) := by
  intro first second rest rest' firstShort secondShort same
  rw [hashField_eq, hashField_eq, append_assoc, append_assoc] at same
  exact splitsOff_counted 8 _ _ _ _ firstShort secondShort (append_cancel_left same)

theorem splitsOff_text (label : String) :
    SplitsOff (fun text => Short (utf8 text)) fun text => hashField label (utf8 text) := by
  intro first second rest rest' firstShort secondShort same
  obtain ⟨texts, same⟩ := splitsOff_hashField label _ _ _ _ firstShort secondShort same
  exact ⟨utf8_injective texts, same⟩

theorem splitsOff_number (label : String) :
    SplitsOff (fun number => number < 256 ^ 8) fun number => hashField label (bigEndian 8 number) := by
  intro first second rest rest' firstSmall secondSmall same
  have short : ∀ number, Short (bigEndian 8 number) := fun number => by
    rw [Short, bigEndian_length]
    decide
  obtain ⟨numbers, same⟩ := splitsOff_hashField label _ _ _ _ (short first) (short second) same
  exact ⟨(splitsOff_bigEndian 8).injective firstSmall secondSmall numbers, same⟩

/-- A name out of a few, each of which has one. -/
theorem splitsOff_name {Value : Type} {name : Value → String} (label : String)
    (injective : Injective name) (short : ∀ value, Short (utf8 (name value))) :
    SplitsOff (fun _ : Value => True) fun value => hashField label (utf8 (name value)) := by
  intro first second rest rest' _ _ same
  obtain ⟨names, same⟩ := splitsOff_text label _ _ _ _ (short first) (short second) same
  exact ⟨injective names, same⟩

theorem familyName_injective : Injective familyName := by
  intro first second same
  cases first <;> cases second <;> first | rfl | exact absurd same (by decide)

theorem tierName_injective : Injective tierName := by
  intro first second same
  cases first <;> cases second <;> first | rfl | exact absurd same (by decide)

theorem canonicalName_injective : Injective ManagedArtifactRole.canonicalName := by
  intro first second same
  cases first <;> cases second <;> first | rfl | exact absurd same (by decide)

/-! ### Nodes and edges -/

/-- A node whose fields are short. -/
structure CanonicalGraphNode.Short (node : CanonicalGraphNode) : Prop where
  project : Performance.Short (utf8 node.projectId)
  version : Performance.Short (utf8 node.versionId)
  filename : Performance.Short (utf8 node.filename)
  size : node.size < 256 ^ 8
  sha512 : Performance.Short (utf8 node.sha512)

theorem splitsOff_node : SplitsOff CanonicalGraphNode.Short CanonicalGraphNode.fields := by
  rintro ⟨project, version, filename, role, size, sha512⟩
    ⟨project', version', filename', role', size', sha512'⟩ rest rest' first second same
  simp only [CanonicalGraphNode.fields, append_assoc] at same
  obtain ⟨projects, same⟩ := splitsOff_text _ _ _ _ _ first.project second.project same
  obtain ⟨versions, same⟩ := splitsOff_text _ _ _ _ _ first.version second.version same
  obtain ⟨filenames, same⟩ := splitsOff_text _ _ _ _ _ first.filename second.filename same
  obtain ⟨roles, same⟩ := splitsOff_name "pin_role" canonicalName_injective
    (by rintro (_ | _) <;> decide) _ _ _ _ trivial trivial same
  obtain ⟨sizes, same⟩ := splitsOff_number _ _ _ _ _ first.size second.size same
  obtain ⟨hashes, same⟩ := splitsOff_text _ _ _ _ _ first.sha512 second.sha512 same
  refine ⟨?_, same⟩
  rw [CanonicalGraphNode.mk.injEq]
  exact ⟨projects, versions, filenames, roles, sizes, hashes⟩

/-- An edge whose fields are short. -/
structure ManagedDependencyEdge.Short (edge : ManagedDependencyEdge) : Prop where
  parent : Performance.Short (utf8 edge.parentProjectId)
  child : Performance.Short (utf8 edge.childProjectId)
  version : Performance.Short (utf8 edge.childVersionId)

theorem splitsOff_edge : SplitsOff ManagedDependencyEdge.Short ManagedDependencyEdge.fields := by
  rintro ⟨parent, child, version⟩ ⟨parent', child', version'⟩ rest rest' first second same
  simp only [ManagedDependencyEdge.fields, append_assoc] at same
  obtain ⟨parents, same⟩ := splitsOff_text _ _ _ _ _ first.parent second.parent same
  obtain ⟨children, same⟩ := splitsOff_text _ _ _ _ _ first.child second.child same
  obtain ⟨childVersions, same⟩ := splitsOff_text _ _ _ _ _ first.version second.version same
  refine ⟨?_, same⟩
  rw [ManagedDependencyEdge.mk.injEq]
  exact ⟨parents, children, childVersions⟩

/-! ### Graphs -/

/-- What of a graph is hashed, all of whose fields and lists are short. -/
structure GraphShort (inputs : CanonicalGraphDigestInputs) (nodes : List CanonicalGraphNode)
    (edges : List ManagedDependencyEdge) : Prop where
  composition : Short (utf8 inputs.compositionId)
  gameVersion : Short (utf8 inputs.gameVersion)
  loader : Short (utf8 inputs.loader)
  aggregateBytes : inputs.aggregateBytes < 256 ^ 8
  nodeCount : nodes.length < 256 ^ 8
  nodes : ∀ node ∈ nodes, node.Short
  edgeCount : edges.length < 256 ^ 8
  edges : ∀ edge ∈ edges, edge.Short

variable {edges : List ManagedDependencyEdge}

theorem canonicalGraph_injective {inputs inputs' : CanonicalGraphDigestInputs}
    {nodes nodes' : List CanonicalGraphNode} {edges' : List ManagedDependencyEdge}
    (first : GraphShort inputs nodes edges) (second : GraphShort inputs' nodes' edges')
    (same : canonicalGraph inputs nodes edges = canonicalGraph inputs' nodes' edges') :
    inputs.compositionId = inputs'.compositionId ∧ inputs.family = inputs'.family ∧
      inputs.tier = inputs'.tier ∧ inputs.gameVersion = inputs'.gameVersion ∧
      inputs.loader = inputs'.loader ∧ nodes = nodes' ∧ edges = edges' := by
  simp only [canonicalGraph, append_assoc] at same
  have same := append_cancel_left same
  obtain ⟨compositions, same⟩ :=
    splitsOff_text _ _ _ _ _ first.composition second.composition same
  obtain ⟨families, same⟩ := splitsOff_name "family" familyName_injective
    (by intro family; cases family <;> decide) _ _ _ _ trivial trivial same
  obtain ⟨tiers, same⟩ := splitsOff_name "tier" tierName_injective
    (by intro tier; cases tier <;> decide) _ _ _ _ trivial trivial same
  obtain ⟨gameVersions, same⟩ :=
    splitsOff_text _ _ _ _ _ first.gameVersion second.gameVersion same
  obtain ⟨loaders, same⟩ := splitsOff_text _ _ _ _ _ first.loader second.loader same
  obtain ⟨-, same⟩ := splitsOff_number _ _ _ _ _ first.aggregateBytes second.aggregateBytes same
  obtain ⟨nodeCounts, same⟩ := splitsOff_number _ _ _ _ _ first.nodeCount second.nodeCount same
  obtain ⟨graphNodes, same⟩ := splitsOff_node.flatMap nodeCounts first.nodes second.nodes same
  obtain ⟨edgeCounts, same⟩ := splitsOff_number _ _ _ _ _ first.edgeCount second.edgeCount same
  have graphEdges := splitsOff_edge.flatMap_injective edgeCounts first.edges second.edges same
  exact ⟨compositions, families, tiers, gameVersions, loaders, graphNodes, graphEdges⟩

/-! ### Hexadecimal -/

theorem hexDigit_injective :
    ∀ first < 16, ∀ second < 16, Axial.Fs.hexDigit first = Axial.Fs.hexDigit second →
      first = second := by
  decide

theorem splitsOff_hexDigits : SplitsOff (fun _ : UInt8 => True) fun byte =>
    [Axial.Fs.hexDigit (byte.toNat / 16), Axial.Fs.hexDigit (byte.toNat % 16)] := by
  refine splitsOff_of_length 2 (fun _ => rfl) fun first second _ _ same => ?_
  simp only [List.cons.injEq, and_true] at same
  have firstBound := first.toNat_lt
  have secondBound := second.toNat_lt
  have high := hexDigit_injective _ (by omega) _ (by omega) same.1
  have low := hexDigit_injective _ (by omega) _ (by omega) same.2
  exact UInt8.toNat_inj.mp (by omega)

theorem hexEncode_injective : Injective hexEncode := by
  intro first second same
  have digits := String.ofList_injective same
  have length : first.length = second.length := by
    have lengths := congrArg List.length digits
    simp only [length_flatMap, length_cons, length_nil, map_const',
      sum_replicate, smul_eq_mul] at lengths
    omega
  exact splitsOff_hexDigits.flatMap_injective length (fun _ _ => trivial) (fun _ _ => trivial)
    digits

/-! ### Sealed plans -/

variable {libraries : PlanLibraries}

def IsSealed (libraries : PlanLibraries) (plan : ManagedCompositionInstallPlan) : Prop :=
  ∃ declarative gameVersion loader pins edges,
    sealPlan libraries declarative gameVersion loader pins edges = .ok plan

namespace ManagedCompositionInstallPlan

def inputs (plan : ManagedCompositionInstallPlan) : CanonicalGraphDigestInputs :=
  ⟨plan.compositionId, plan.family, plan.tier, plan.gameVersion, plan.loader,
    plan.aggregateBytes⟩

/-- The pins without what they are downloaded from. -/
def nodes (plan : ManagedCompositionInstallPlan) : List CanonicalGraphNode :=
  plan.pins.map .fromPin

end ManagedCompositionInstallPlan

/-- What is known of a sealed plan. -/
structure SealedGraph (libraries : PlanLibraries) (plan : ManagedCompositionInstallPlan) :
    Prop where
  composition : isRequiredText plan.compositionId maxCompositionIdBytes = true
  gameVersion : isRequiredText plan.gameVersion maxTargetValueBytes = true
  loader : isRequiredText plan.loader maxTargetValueBytes = true
  sound : GraphSound libraries.unicode plan.nodes plan.edges
  total : plan.aggregateBytes = (plan.nodes.map (·.size)).sum
  nodesSorted : plan.nodes.Pairwise fun left right => left.projectId < right.projectId
  edgesSorted : plan.edges.Pairwise fun left right => left.key < right.key
  digest : plan.graphDigest = graphDigest libraries.sha512 plan.inputs plan.nodes plan.edges

variable {value : String} {maxBytes : Nat}

theorem isRequiredText_of_ok {error : ManagedInstallPlanError}
    (valid : validateRequiredText value maxBytes error = .ok ()) :
    isRequiredText value maxBytes = true :=
  (check_eq_ok.mp valid).1

theorem isRequiredText_of_target (valid : validateTargetValue value = .ok ()) :
    isRequiredText value maxTargetValueBytes = true := by
  unfold validateTargetValue at valid
  rw [bind_eq_ok] at valid
  obtain ⟨_, required, -⟩ := valid
  exact isRequiredText_of_ok required

variable {plan : ManagedCompositionInstallPlan}

theorem sealedGraph (isSealed : IsSealed libraries plan) : SealedGraph libraries plan := by
  obtain ⟨declarative, gameVersion, loader, pins, edges, made⟩ := isSealed
  unfold sealPlan at made
  rw [bind_eq_ok] at made
  obtain ⟨total, admitted, made⟩ := made
  rw [pure_eq_ok] at made
  subst made
  obtain ⟨composition, version, target⟩ := texts_of_sealable admitted
  obtain ⟨sound, sum⟩ := graph_of_sealable admitted
  have permuted : pins.Perm (sortPins pins) := (perm_insertionSort _ _).symm
  have permutedEdges : edges.Perm (sortEdges edges) := (perm_insertionSort _ _).symm
  refine ⟨isRequiredText_of_ok composition, isRequiredText_of_target version,
    isRequiredText_of_target target, sound.perm (permuted.map _) permutedEdges, ?_, ?_, ?_, rfl⟩
  · change total = ((sortPins pins).map _ |>.map _).sum
    rw [sum, List.map_map, (permuted.map ManagedArtifactPin.size).sum_eq]
    rfl
  · refine pairwise_map.mpr (insertionSort_strict ?_)
    have projects := sound.projects
    rw [List.map_map] at projects
    exact projects
  · exact insertionSort_strict (sound.distinct.map ManagedDependencyEdge.key_injective)

theorem short_of_le {bytes : List UInt8} {bound : Nat} (within : bytes.length ≤ bound)
    (small : bound < 256 ^ 8) : Short bytes :=
  within.trans_lt small

theorem short_of_required (required : isRequiredText value maxBytes = true)
    (small : maxBytes < 256 ^ 8) : Short (utf8 value) := by
  simp only [isRequiredText, Bool.not_eq_true', Bool.or_eq_false_iff, decide_eq_false_iff_not]
    at required
  exact short_of_le (not_lt.mp required.1.1.2) small

theorem short_of_modrinthId (valid : isModrinthId value = true) : Short (utf8 value) := by
  simp only [isModrinthId, Bool.and_eq_true, decide_eq_true_eq] at valid
  exact short_of_le valid.1.le (by decide)

variable {unicode : Minecraft.Unicode}

theorem short_of_filename {filename : String}
    (valid : validatePortableJarFilename unicode filename = .ok ()) : Short (utf8 filename) := by
  obtain ⟨key, found⟩ := exists_filenameKey valid
  unfold filenameKey Minecraft.PortableFileName.newExact at found
  obtain ⟨name, kept, -⟩ := Option.map_eq_some_iff.mp found
  rw [Option.filter_eq_some_iff] at kept
  obtain ⟨-, spelled⟩ := kept
  have checked := name.valid
  rw [of_decide_eq_true spelled] at checked
  simp only [Minecraft.validateFileName, Bool.and_eq_true, decide_eq_true_eq] at checked
  exact short_of_le checked.1.1 (by decide)

theorem CanonicalGraphNode.Sound.short {node : CanonicalGraphNode} (sound : node.Sound unicode) :
    node.Short where
  project := short_of_modrinthId sound.project
  version := short_of_modrinthId sound.version
  filename := short_of_filename sound.filename
  size := by
    have bounds := sound.size
    unfold validateArtifactSize at bounds
    rw [ite_eq_right_iff] at bounds
    by_contra large
    have beyond : node.size = 0 ∨ managedArtifactMaxBytes < node.size :=
      .inr (lt_of_lt_of_le (by decide) (not_lt.mp large))
    cases bounds beyond
  sha512 := by
    have digits := sound.sha512
    simp only [isCanonicalSha512, Bool.and_eq_true, decide_eq_true_eq] at digits
    exact short_of_le digits.1.le (by decide)

theorem ManagedDependencyEdge.short {edge : ManagedDependencyEdge}
    (valid : edge.validate = .ok ()) : edge.Short := by
  unfold ManagedDependencyEdge.validate validateModrinthId at valid
  simp only [bind_eq_ok, check_eq_ok] at valid
  obtain ⟨_, ⟨parent, -⟩, _, ⟨child, -⟩, version, -⟩ := valid
  exact ⟨short_of_modrinthId parent, short_of_modrinthId child, short_of_modrinthId version⟩

theorem SealedGraph.short (graph : SealedGraph libraries plan) :
    GraphShort plan.inputs plan.nodes plan.edges where
  composition := short_of_required graph.composition (by decide)
  gameVersion := short_of_required graph.gameVersion (by decide)
  loader := short_of_required graph.loader (by decide)
  aggregateBytes := by
    have total : plan.inputs.aggregateBytes = _ := graph.total
    rw [total]
    exact graph.sound.bytes.trans_lt (by decide)
  nodeCount := graph.sound.nodeCount.trans_lt (by decide)
  nodes node member := (graph.sound.eachNode node member).short
  edgeCount := graph.sound.edgeCount.trans_lt (by decide)
  edges edge member := ManagedDependencyEdge.short (graph.sound.eachEdge edge member)

/-! ### The digest identifies the graph -/

variable {Item Key : Type}

/-- Lists that are strictly sorted by a key have the same members only if they are the same. -/
theorem eq_of_sorted [DecidableEq Item] [LinearOrder Key] {key : Item → Key}
    {firsts seconds : List Item} (first : firsts.Pairwise fun left right => key left < key right)
    (second : seconds.Pairwise fun left right => key left < key right)
    (same : firsts.toFinset = seconds.toFinset) : firsts = seconds := by
  have nodup : ∀ {items : List Item}, (items.Pairwise fun left right => key left < key right) →
      items.Nodup :=
    fun sorted => sorted.imp fun below equal => absurd (congrArg key equal) below.ne
  refine Perm.eq_of_pairwise (fun left right _ _ below above => ?_) first second
    (perm_of_nodup_nodup_toFinset_eq (nodup first) (nodup second) same)
  exact absurd above below.asymm

/-- The graphs of two plans are the same: what they compose and for which target, and the sets of
their nodes and edges. -/
structure SameGraph (first second : ManagedCompositionInstallPlan) : Prop where
  composition : first.compositionId = second.compositionId
  family : first.family = second.family
  tier : first.tier = second.tier
  gameVersion : first.gameVersion = second.gameVersion
  loader : first.loader = second.loader
  nodes : first.nodes.toFinset = second.nodes.toFinset
  edges : first.edges.toFinset = second.edges.toFinset

theorem graphDigest_eq_iff {first second : ManagedCompositionInstallPlan}
    (injective : Injective libraries.sha512) (firstSealed : IsSealed libraries first)
    (secondSealed : IsSealed libraries second) :
    first.graphDigest = second.graphDigest ↔ SameGraph first second := by
  have firstGraph := sealedGraph firstSealed
  have secondGraph := sealedGraph secondSealed
  rw [firstGraph.digest, secondGraph.digest]
  constructor
  · intro same
    obtain ⟨composition, family, tier, gameVersion, loader, nodes, edges⟩ :=
      canonicalGraph_injective firstGraph.short secondGraph.short
        (injective (hexEncode_injective same))
    exact ⟨composition, family, tier, gameVersion, loader, by rw [nodes], by rw [edges]⟩
  · intro same
    have nodes := eq_of_sorted firstGraph.nodesSorted secondGraph.nodesSorted same.nodes
    have edges := eq_of_sorted firstGraph.edgesSorted secondGraph.edgesSorted same.edges
    have totals : first.aggregateBytes = second.aggregateBytes := by
      rw [firstGraph.total, secondGraph.total, nodes]
    unfold ManagedCompositionInstallPlan.inputs
    rw [same.composition, same.family, same.tier, same.gameVersion, same.loader, totals, nodes,
      edges]

/-! ### Any order -/

/-- Pins that are valid and do not collide are admitted, in any order. -/
theorem scan_of_pins {pins : List ManagedArtifactPin}
    (valid : ∀ pin ∈ pins, pin.validate libraries = .ok ())
    (projects : (pins.map (·.projectId)).Nodup)
    (filenames : (pins.map fun pin => filenameKey libraries.unicode pin.filename).Nodup)
    (bytes : (pins.map (·.size)).sum ≤ managedArtifactMaxBytes) :
    pins.foldlM (admitPin libraries) .start =
      .ok (pins.foldl (PinScan.next libraries.unicode) .start) := by
  rw [foldlM_eq_ok admitPin_eq_ok]
  refine ⟨fun before pin after split => ?_, rfl⟩
  have member : pin ∈ pins := split ▸ mem_append_right before mem_cons_self
  obtain ⟨key, named⟩ : ∃ key, filenameKey libraries.unicode pin.filename = some key :=
    exists_filenameKey (sound_of_validate (valid pin member)).filename
  simp only [PinScan.foldl_next]
  refine ⟨valid pin member, nodup_map_iff_earlier.mp projects before pin after split,
    ⟨key, named, ?_⟩, ?_⟩
  · have fresh := nodup_map_iff_earlier.mp filenames before pin after split
    rwa [named, some_mem_map] at fresh
  · rw [split] at bytes
    exact sum_earlier_le.trans bytes

variable {pins : List ManagedArtifactPin}

theorem scan_of_edges (distinct : edges.Nodup) (each : ∀ edge ∈ edges, edge.validate = .ok () ∧
      pinnedVersion pins edge.parentProjectId ≠ none ∧
      pinnedVersion pins edge.childProjectId = some edge.childVersionId) :
    edges.foldlM (admitEdge pins) [] = .ok edges := by
  rw [foldlM_eq_ok (admitEdge_eq_ok pins)]
  refine ⟨fun before edge after split => ?_, foldl_append_singleton edges⟩
  have member : edge ∈ edges := split ▸ mem_append_right before mem_cons_self
  rw [foldl_append_singleton]
  have fresh : edge ∉ before := by
    rw [split] at distinct
    exact fun earlier => (nodup_append.mp distinct).2.2 edge earlier edge
      mem_cons_self rfl
  exact ⟨(each edge member).1, fresh, (each edge member).2⟩

theorem pinnedVersion_eq_some (projects : (pins.map (·.projectId)).Nodup)
    {projectId versionId : String} :
    pinnedVersion pins projectId = some versionId ↔
      ∃ pin ∈ pins, pin.projectId = projectId ∧ pin.versionId = versionId := by
  refine ⟨pin_of_pinnedVersion, ?_⟩
  rintro ⟨pin, member, rfl, rfl⟩
  unfold pinnedVersion
  cases found : pins.find? fun other => other.projectId = pin.projectId with
  | none => exact absurd (find?_eq_none.mp found pin member) (by simp)
  | some other =>
    have same : other = pin := inj_on_of_nodup_map projects
      (mem_of_find?_eq_some found) member (by simpa using find?_some found)
    rw [same]
    rfl

variable {others : List ManagedArtifactPin}

theorem pinnedVersion_perm (permuted : pins.Perm others) (projects : (pins.map (·.projectId)).Nodup)
    (projectId : String) : pinnedVersion pins projectId = pinnedVersion others projectId := by
  ext versionId
  rw [pinnedVersion_eq_some projects,
    pinnedVersion_eq_some ((permuted.map _).nodup_iff.mp projects)]
  simp only [permuted.mem_iff]

variable {otherEdges : List ManagedDependencyEdge}

theorem unreachable_perm (permuted : pins.Perm others) (permutedEdges : edges.Perm otherEdges)
    (roots : List String)
    (inside : ∀ edge ∈ edges, ∃ pin ∈ pins, pin.projectId = edge.childProjectId)
    (pin : ManagedArtifactPin) :
    unreachable pins edges roots pin = unreachable others otherEdges roots pin := by
  have listed : ∀ edge ∈ edges, edge.childProjectId ∈ pins.map (·.projectId) :=
    fun edge member => mem_map.mpr (inside edge member)
  have otherListed : ∀ edge ∈ otherEdges, edge.childProjectId ∈ others.map (·.projectId) := by
    intro edge member
    rw [← (permuted.map _).mem_iff]
    exact listed edge (permutedEdges.mem_iff.mpr member)
  unfold unreachable
  congr 1
  refine decide_eq_decide.mpr (not_congr ?_)
  rw [mem_reachable_adjacent listed, mem_reachable_adjacent otherListed,
    Depends.perm permutedEdges]

variable {declarative : CompositionPlan} {gameVersion loader : String}

/-- Pins and edges that may be sealed may be sealed in any order. -/
theorem sealable_perm {total : Nat} (permuted : pins.Perm others)
    (permutedEdges : edges.Perm otherEdges)
    (admitted : sealable libraries declarative gameVersion loader pins edges = .ok total) :
    sealable libraries declarative gameVersion loader others otherEdges = .ok total := by
  unfold sealable at admitted ⊢
  simp only [guard_eq_ok, bind_eq_ok, pure_eq_ok] at admitted ⊢
  obtain ⟨mode, ⟨⟩, composition, ⟨⟩, version, ⟨⟩, target, matching, nodeCount, edgeCount,
    rootCount, roots, rooted, scan, scanned, sameRoots, empty, seen, scannedEdges, connected,
    rfl⟩ := admitted
  obtain ⟨valid, projects, filenames, bytes, total⟩ := pins_of_scan scanned
  obtain ⟨validEdges, distinct, parents, children⟩ := edges_of_scan scannedEdges
  have otherScan := @scan_of_pins _ others
    (fun pin member => valid pin (permuted.mem_iff.mpr member))
    ((permuted.map _).nodup_iff.mp projects) ((permuted.map _).nodup_iff.mp filenames)
    ((permuted.map ManagedArtifactPin.size).sum_eq ▸ bytes)
  have otherEdgesScan : otherEdges.foldlM (admitEdge others) [] = .ok otherEdges := by
    refine scan_of_edges (permutedEdges.nodup_iff.mp distinct) fun edge member => ?_
    have before := permutedEdges.mem_iff.mpr member
    rw [← pinnedVersion_perm permuted projects, ← pinnedVersion_perm permuted projects]
    obtain ⟨parent, inside, named⟩ := parents edge before
    have pinned := (pinnedVersion_eq_some projects).mpr ⟨parent, inside, named, rfl⟩
    refine ⟨validEdges edge before, ?_, (pinnedVersion_eq_some projects).mpr
      (children edge before)⟩
    rw [pinned]
    exact Option.some_ne_none _
  have reaches : ∀ pin, unreachable pins edges roots pin =
      unreachable others otherEdges roots pin :=
    unreachable_perm permuted permutedEdges roots fun edge member => by
      obtain ⟨pin, inside, named, -⟩ := children edge member
      exact ⟨pin, inside, named⟩
  refine ⟨mode, (), composition, (), version, (), target, matching, permuted.length_eq ▸ nodeCount,
    permutedEdges.length_eq ▸ edgeCount, rootCount, roots, rooted, _, otherScan, ?_, ?_,
    otherEdges, otherEdgesScan, ?_, ?_⟩
  · rw [not_not] at sameRoots ⊢
    rw [sameRoots]
    exact toFinset_eq_of_perm _ _ ((permuted.filter _).map _)
  · rintro ⟨none, some⟩
    refine empty ⟨none, some.imp ?_ ?_⟩
    · rintro different rfl
      exact different (nil_perm.mp permuted)
    · rintro different rfl
      exact different (nil_perm.mp permutedEdges)
  · intro missed
    obtain ⟨pin, member, lost⟩ := any_eq_true.mp missed
    exact connected (any_eq_true.mpr ⟨pin, permuted.mem_iff.mpr member, reaches pin ▸ lost⟩)
  · rw [PinScan.foldl_next, total]
    exact (permuted.map ManagedArtifactPin.size).sum_eq.symm

theorem eq_sort_of_perm [LinearOrder Key] (key : Item → Key) {items others : List Item}
    (permuted : items.Perm others) (distinct : (items.map key).Nodup) :
    (items.insertionSort fun left right => key left ≤ key right) =
      others.insertionSort fun left right => key left ≤ key right := by
  refine Perm.eq_of_pairwise (fun left right _ _ below above => ?_)
    (insertionSort_strict distinct)
    (insertionSort_strict ((permuted.map key).nodup_iff.mp distinct)) ?_
  · exact absurd above below.asymm
  · exact (perm_insertionSort _ _).trans
      (permuted.trans (perm_insertionSort _ _).symm)

theorem sealPlan_perm (permuted : pins.Perm others) (permutedEdges : edges.Perm otherEdges)
    (made : sealPlan libraries declarative gameVersion loader pins edges = .ok plan) :
    sealPlan libraries declarative gameVersion loader others otherEdges = .ok plan := by
  unfold sealPlan at made ⊢
  rw [bind_eq_ok] at made ⊢
  obtain ⟨total, admitted, made⟩ := made
  have sound := (graph_of_sealable admitted).1
  have projects := sound.projects
  rw [List.map_map] at projects
  have pinsSorted : sortPins pins = sortPins others :=
    eq_sort_of_perm ManagedArtifactPin.projectId permuted projects
  have edgesSorted : sortEdges edges = sortEdges otherEdges :=
    eq_sort_of_perm _ permutedEdges (sound.distinct.map ManagedDependencyEdge.key_injective)
  rw [pinsSorted, edgesSorted] at made
  exact ⟨total, sealable_perm permuted permutedEdges admitted, made⟩

/-- With a hash function that tells everything apart, digests of sealed plans are equal exactly
if their graphs are; and the same pins and edges in another order are sealed alike, or refused
alike. -/
theorem graph_identified (libraries : PlanLibraries)
    (injective : Injective libraries.sha512) :
    (∀ first second, IsSealed libraries first → IsSealed libraries second →
        (first.graphDigest = second.graphDigest ↔ SameGraph first second)) ∧
      ∀ declarative gameVersion loader pins others edges otherEdges, pins.Perm others →
        edges.Perm otherEdges →
        (sealPlan libraries declarative gameVersion loader pins edges).toOption =
          (sealPlan libraries declarative gameVersion loader others otherEdges).toOption := by
  refine ⟨fun first second => graphDigest_eq_iff injective, ?_⟩
  intro declarative gameVersion loader pins others edges otherEdges permuted permutedEdges
  cases made : sealPlan libraries declarative gameVersion loader pins edges with
  | ok plan => rw [sealPlan_perm permuted permutedEdges made]
  | error refused =>
    cases again : sealPlan libraries declarative gameVersion loader others otherEdges with
    | ok plan =>
      rw [sealPlan_perm permuted.symm permutedEdges.symm again] at made
      cases made
    | error _ => rfl

/-- A plan is sealed from its pins in either order, and has another digest than one of others. -/
theorem graph_identified_dependedOn : ∃ plan other,
    (sealPlan (plainLibraries id) (libraryComposition ["AANobbMI"]) "1.21.1" "fabric"
      dependedOn.reverse dependence).toOption = some plan ∧
    sealPlan (plainLibraries id) (libraryComposition ["AANobbMI", "aanobbmi"]) "1.21.1" "fabric"
      twoLibraries [] = .ok other ∧ plan.graphDigest ≠ other.graphDigest := by
  obtain ⟨digests, orders⟩ := graph_identified (plainLibraries id) injective_id
  obtain ⟨plan, made, first⟩ := exists_plan (sealable_dependedOn id)
  obtain ⟨other, otherMade, second⟩ := exists_plan (sealable_twoLibraries id)
  refine ⟨plan, other, ?_, otherMade, fun same => ?_⟩
  · rw [← orders _ _ _ dependedOn _ dependence _ (reverse_perm _).symm (.refl _), made]
    rfl
  · have graphs := (digests plan other ⟨_, _, _, _, _, made⟩ ⟨_, _, _, _, _, otherMade⟩).mp same
    have nodes := graphs.nodes
    unfold ManagedCompositionInstallPlan.nodes at nodes
    rw [first, second] at nodes
    exact absurd nodes (by decide +kernel)

end Axial.Performance
