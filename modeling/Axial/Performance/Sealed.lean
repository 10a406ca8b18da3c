/-
This file is about what a sealed plan is good for: the state built of it, and the
rollback snapshot built of that state, are what the validation of states and snapshots
accepts, with the digest that the plan was sealed with. One rule of the validation is
not a rule of sealing: project ids are case-sensitive there, and may not collide in
lower case here.

The graph that all of them check is put apart from the order in which they check it,
so that it can be carried from the plan as it was given to the plan in its sorted order.
-/

import Axial.Performance.State

namespace Axial.Performance

open Bytes Fallible Relation List Option
open Axial.Minecraft (PortablePathKey trim)

/-! ### Sound graphs -/

/-- A node all of whose fields are what plans and states require of them. -/
structure CanonicalGraphNode.Sound (unicode : Minecraft.Unicode) (node : CanonicalGraphNode) :
    Prop where
  project : isModrinthId node.projectId = true
  version : isModrinthId node.versionId = true
  filename : validatePortableJarFilename unicode node.filename = .ok ()
  size : validateArtifactSize node.size = .ok ()
  sha512 : isCanonicalSha512 node.sha512 = true

/-- An edge that leads from one project to another. -/
def Depends (edges : List ManagedDependencyEdge) (parent child : String) : Prop :=
  ∃ edge ∈ edges, edge.parentProjectId = parent ∧ edge.childProjectId = child

/-- A graph that can be installed, whatever the order its nodes and edges are in. -/
structure GraphSound (unicode : Minecraft.Unicode) (nodes : List CanonicalGraphNode)
    (edges : List ManagedDependencyEdge) : Prop where
  eachNode : ∀ node ∈ nodes, node.Sound unicode
  projects : (nodes.map (·.projectId)).Nodup
  filenames : (nodes.map fun node => filenameKey unicode node.filename).Nodup
  bytes : (nodes.map (·.size)).sum ≤ managedArtifactMaxBytes
  nodeCount : nodes.length ≤ maxManagedPlanNodes
  edgeCount : edges.length ≤ maxManagedPlanEdges
  eachEdge : ∀ edge ∈ edges, edge.validate = .ok ()
  distinct : edges.Nodup
  parents : ∀ edge ∈ edges, ∃ node ∈ nodes, node.projectId = edge.parentProjectId
  children : ∀ edge ∈ edges, ∃ node ∈ nodes,
    node.projectId = edge.childProjectId ∧ node.versionId = edge.childVersionId
  reached : ∀ node ∈ nodes, node.role = .requiredDependency →
    ∃ root ∈ nodes, root.role = .root ∧
      ReflTransGen (Depends edges) root.projectId node.projectId

variable {edges : List ManagedDependencyEdge}

theorem Depends.perm {others : List ManagedDependencyEdge} (permuted : edges.Perm others) :
    Depends edges = Depends others := by
  funext parent child
  unfold Depends
  simp only [permuted.mem_iff]

variable {unicode : Minecraft.Unicode}

theorem GraphSound.perm {nodes others : List CanonicalGraphNode}
    {otherEdges : List ManagedDependencyEdge} (sound : GraphSound unicode nodes edges)
    (permuted : nodes.Perm others) (permutedEdges : edges.Perm otherEdges) :
    GraphSound unicode others otherEdges where
  eachNode node member := sound.eachNode node (permuted.mem_iff.mpr member)
  projects := (permuted.map _).nodup_iff.mp sound.projects
  filenames := (permuted.map _).nodup_iff.mp sound.filenames
  bytes := (permuted.map CanonicalGraphNode.size).sum_eq.symm.trans_le sound.bytes
  nodeCount := permuted.length_eq ▸ sound.nodeCount
  edgeCount := permutedEdges.length_eq ▸ sound.edgeCount
  eachEdge edge member := sound.eachEdge edge (permutedEdges.mem_iff.mpr member)
  distinct := permutedEdges.nodup_iff.mp sound.distinct
  parents edge member := by
    obtain ⟨node, inside, same⟩ := sound.parents edge (permutedEdges.mem_iff.mpr member)
    exact ⟨node, permuted.mem_iff.mp inside, same⟩
  children edge member := by
    obtain ⟨node, inside, same⟩ := sound.children edge (permutedEdges.mem_iff.mpr member)
    exact ⟨node, permuted.mem_iff.mp inside, same⟩
  reached node member required := by
    obtain ⟨root, inside, role, path⟩ :=
      sound.reached node (permuted.mem_iff.mpr member) required
    exact ⟨root, permuted.mem_iff.mp inside, role, Depends.perm permutedEdges ▸ path⟩

theorem mem_adjacent {parent child : String} :
    child ∈ adjacent edges parent ↔ Depends edges parent child := by
  unfold adjacent Depends
  simp only [List.mem_map, List.mem_filter, decide_eq_true_eq, and_assoc]

variable {projectId : String}

/-- What is found from some projects is what edges lead to. -/
theorem mem_reachable_adjacent {projects roots : List String}
    (inside : ∀ edge ∈ edges, edge.childProjectId ∈ projects) :
    projectId ∈ Closure.reachable (adjacent edges) projects roots ↔
      ∃ root ∈ roots, ReflTransGen (Depends edges) root projectId := by
  have same : Closure.Child (adjacent edges) = Depends edges := by
    funext parent child
    exact propext mem_adjacent
  rw [Closure.mem_reachable, same]
  intro parent child below
  obtain ⟨edge, member, -, rfl⟩ := mem_adjacent.mp below
  exact inside edge member

/-! ### What the checks require -/

variable {filename : String} {key : PortablePathKey}

theorem portableFilenameKey_eq_ok :
    portableFilenameKey unicode filename = .ok key ↔ filenameKey unicode filename = some key := by
  unfold portableFilenameKey
  cases filenameKey unicode filename with
  | none => simp only [reduceCtorEq]
  | some other => rw [Except.ok.injEq, some_inj]

theorem stateFilenameKey_eq_ok {libraries : PlanLibraries} :
    stateFilenameKey libraries filename = .ok key ↔
      filenameKey libraries.unicode filename = some key := by
  unfold stateFilenameKey
  cases filenameKey libraries.unicode filename with
  | none => simp only [reduceCtorEq]
  | some other => rw [Except.ok.injEq, some_inj]

theorem exists_filenameKey (valid : validatePortableJarFilename unicode filename = .ok ()) :
    ∃ key, filenameKey unicode filename = some key := by
  unfold validatePortableJarFilename at valid
  simp only [bind_eq_ok, portableFilenameKey_eq_ok] at valid
  obtain ⟨key, same, -⟩ := valid
  exact ⟨key, same⟩

variable {total : Nat}

theorem addBytes_eq_ok {size sum : Nat} :
    addBytes total size = .ok sum ↔
      total + size ≤ managedArtifactMaxBytes ∧ total + size = sum := by
  unfold addBytes checkedAdd
  by_cases within : total + size ≤ managedArtifactMaxBytes
  · have small : total + size < 2 ^ 64 := within.trans_lt (by decide)
    simp only [small, if_true, filter_some, within, decide_true, Except.ok.injEq, true_and]
  · by_cases small : total + size < 2 ^ 64
    · simp only [small, if_true, filter_some, within, decide_false, Bool.false_eq_true,
        if_false, reduceCtorEq, false_and]
    · simp only [small, if_false, filter_none, within, reduceCtorEq, false_and]

variable {Item Key : Type} {items : List Item}

theorem some_mem_map {key : Item → Option Key} {value : Key} :
    some value ∈ items.map key ↔ value ∈ items.filterMap key := by
  rw [List.mem_map, List.mem_filterMap]

/-- The sums of the sizes so far stay within a bound that the sum of all is within. -/
theorem sum_earlier_le {size : Item → Nat} {before after : List Item} {item : Item} :
    (before.map size).sum + size item ≤ ((before ++ item :: after).map size).sum := by
  rw [map_append, sum_append, map_cons, sum_cons]
  omega

theorem insertionSort_strict [LinearOrder Key] {key : Item → Key} (distinct : (items.map key).Nodup)
    :
    (items.insertionSort fun left right => key left ≤ key right).Pairwise fun left right =>
      key left < key right := by
  have : Std.Total fun left right : Item => key left ≤ key right :=
    ⟨fun left right => le_total _ _⟩
  have : IsTrans Item fun left right : Item => key left ≤ key right :=
    ⟨fun first second third => le_trans⟩
  have sorted := pairwise_insertionSort (fun left right => key left ≤ key right) items
  have apart := pairwise_map.mp
    (((perm_insertionSort (fun left right => key left ≤ key right) items).map key).nodup_iff.mpr
      distinct)
  exact sorted.imp₂ (fun _ _ ordered different => lt_of_le_of_ne ordered different) apart

/-! ### What sealing establishes -/

variable {libraries : PlanLibraries}

theorem sound_of_validate {pin : ManagedArtifactPin} (valid : pin.validate libraries = .ok ()) :
    (CanonicalGraphNode.fromPin pin).Sound libraries.unicode := by
  unfold ManagedArtifactPin.validate at valid
  simp only [bind_eq_ok] at valid
  obtain ⟨_, project, _, version, _, filename, _, -, _, size, sha512⟩ := valid
  unfold validateModrinthId at project version
  unfold validateSha512 at sha512
  exact {
    project := (check_eq_ok.mp project).1
    version := (check_eq_ok.mp version).1
    filename
    size
    sha512 := (check_eq_ok.mp sha512).1 }

/-- What the scan of the pins notes of one more pin. -/
def PinScan.next (unicode : Minecraft.Unicode) (scan : PinScan) (pin : ManagedArtifactPin) :
    PinScan :=
  ⟨scan.projects ++ [pin.projectId],
    scan.filenames ++ (filenameKey unicode pin.filename).toList, scan.aggregateBytes + pin.size⟩

theorem PinScan.foldl_next (unicode : Minecraft.Unicode) (pins : List ManagedArtifactPin) :
    pins.foldl (PinScan.next unicode) .start =
      ⟨pins.map (·.projectId), pins.filterMap fun pin => filenameKey unicode pin.filename,
        (pins.map (·.size)).sum⟩ := by
  induction pins using List.reverseRecOn with
  | nil => rfl
  | append_singleton pins pin ih =>
    rw [foldl_append, ih]
    simp only [foldl_cons, foldl_nil, PinScan.next, map_append, map_cons,
      map_nil, filterMap_append, filterMap_cons, filterMap_nil,
      sum_append, sum_cons, sum_nil, Nat.add_zero]
    cases filenameKey unicode pin.filename <;> rfl

theorem admitPin_eq_ok (scan : PinScan) (pin : ManagedArtifactPin) (result : PinScan) :
    admitPin libraries scan pin = .ok result ↔
      (pin.validate libraries = .ok () ∧ pin.projectId ∉ scan.projects ∧
        (∃ key, filenameKey libraries.unicode pin.filename = some key ∧ key ∉ scan.filenames) ∧
        scan.aggregateBytes + pin.size ≤ managedArtifactMaxBytes) ∧
      scan.next libraries.unicode pin = result := by
  unfold admitPin PinScan.next
  simp only [guard_eq_ok, bind_eq_ok, pure_eq_ok, portableFilenameKey_eq_ok, addBytes_eq_ok]
  constructor
  · rintro ⟨_, valid, fresh, key, same, freshKey, _, ⟨within, rfl⟩, rfl⟩
    exact ⟨⟨valid, fresh, ⟨key, same, freshKey⟩, within⟩, by rw [same]; rfl⟩
  · rintro ⟨⟨valid, fresh, ⟨key, same, freshKey⟩, within⟩, rfl⟩
    exact ⟨(), valid, fresh, key, same, freshKey, _, ⟨within, rfl⟩, by rw [same]; rfl⟩

variable {pins : List ManagedArtifactPin}

theorem pins_of_scan {scan : PinScan} (scanned : pins.foldlM (admitPin libraries) .start = .ok scan)
    :
    (∀ pin ∈ pins, pin.validate libraries = .ok ()) ∧ (pins.map (·.projectId)).Nodup ∧
      (pins.map fun pin => filenameKey libraries.unicode pin.filename).Nodup ∧
      (pins.map (·.size)).sum ≤ managedArtifactMaxBytes ∧
      scan.aggregateBytes = (pins.map (·.size)).sum := by
  rw [foldlM_eq_ok admitPin_eq_ok] at scanned
  obtain ⟨each, rfl⟩ := scanned
  simp only [PinScan.foldl_next] at each ⊢
  refine ⟨fun pin member => ?_, nodup_map_iff_earlier.mpr fun before pin after split => ?_,
    nodup_map_iff_earlier.mpr fun before pin after split => ?_, ?_, trivial⟩
  · obtain ⟨before, after, split⟩ := append_of_mem member
    exact (each before pin after split).1
  · exact (each before pin after split).2.1
  · obtain ⟨key, same, fresh⟩ := (each before pin after split).2.2.1
    rw [same, some_mem_map]
    exact fresh
  · rcases eq_nil_or_concat' pins with rfl | ⟨before, pin, rfl⟩
    · exact Nat.zero_le _
    · have last := (each before pin [] rfl).2.2.2
      simpa using last

theorem admitEdge_eq_ok (pins : List ManagedArtifactPin) (seen : List ManagedDependencyEdge)
    (edge : ManagedDependencyEdge) (result : List ManagedDependencyEdge) :
    admitEdge pins seen edge = .ok result ↔
      (edge.validate = .ok () ∧ edge ∉ seen ∧ pinnedVersion pins edge.parentProjectId ≠ none ∧
        pinnedVersion pins edge.childProjectId = some edge.childVersionId) ∧
      seen ++ [edge] = result := by
  unfold admitEdge
  simp only [guard_eq_ok, bind_eq_ok, pure_eq_ok]
  constructor
  · rintro ⟨_, valid, fresh, parent, -, child, rfl⟩
    exact ⟨⟨valid, fresh, parent, not_not.mp child⟩, rfl⟩
  · rintro ⟨⟨valid, fresh, parent, child⟩, rfl⟩
    exact ⟨(), valid, fresh, parent, by rw [child]; exact Option.some_ne_none _,
      not_not.mpr child, rfl⟩

theorem pin_of_pinnedVersion {versionId : String}
    (pinned : pinnedVersion pins projectId = some versionId) :
    ∃ pin ∈ pins, pin.projectId = projectId ∧ pin.versionId = versionId := by
  unfold pinnedVersion at pinned
  obtain ⟨pin, found, same⟩ := map_eq_some_iff.mp pinned
  exact ⟨pin, mem_of_find?_eq_some found, by simpa using find?_some found, same⟩

theorem edges_of_scan {seen : List ManagedDependencyEdge}
    (scanned : edges.foldlM (admitEdge pins) [] = .ok seen) :
    (∀ edge ∈ edges, edge.validate = .ok ()) ∧ edges.Nodup ∧
      (∀ edge ∈ edges, ∃ pin ∈ pins, pin.projectId = edge.parentProjectId) ∧
      ∀ edge ∈ edges, ∃ pin ∈ pins,
        pin.projectId = edge.childProjectId ∧ pin.versionId = edge.childVersionId := by
  rw [foldlM_eq_ok (admitEdge_eq_ok pins)] at scanned
  obtain ⟨each, -⟩ := scanned
  simp only [foldl_append_singleton] at each
  have admitted : ∀ edge ∈ edges, edge.validate = .ok () ∧
      pinnedVersion pins edge.parentProjectId ≠ none ∧
      pinnedVersion pins edge.childProjectId = some edge.childVersionId := by
    intro edge member
    obtain ⟨before, after, split⟩ := append_of_mem member
    have here := each before edge after split
    exact ⟨here.1, here.2.2⟩
  refine ⟨fun edge member => (admitted edge member).1, ?_, fun edge member => ?_,
    fun edge member => pin_of_pinnedVersion (admitted edge member).2.2⟩
  · rw [← List.map_id edges]
    exact nodup_map_iff_earlier.mpr fun before edge after split => by
      rw [List.map_id]
      exact (each before edge after split).2.1
  · obtain ⟨versionId, found⟩ := ne_none_iff_exists'.mp (admitted edge member).2.1
    obtain ⟨pin, inside, same, -⟩ := pin_of_pinnedVersion found
    exact ⟨pin, inside, same⟩

variable {declarative : CompositionPlan} {gameVersion loader : String}

/-- The graph of a plan that may be sealed is sound. -/
theorem graph_of_sealable
    (admitted : sealable libraries declarative gameVersion loader pins edges = .ok total) :
    GraphSound libraries.unicode (pins.map .fromPin) edges ∧
      total = (pins.map (·.size)).sum := by
  unfold sealable at admitted
  simp only [guard_eq_ok, bind_eq_ok, pure_eq_ok] at admitted
  obtain ⟨-, _, -, _, -, _, -, -, nodeCount, edgeCount, -, roots, -, scan, scanned, sameRoots, -,
    seen, scannedEdges, connected, rfl⟩ := admitted
  obtain ⟨valid, projects, filenames, bytes, total⟩ := pins_of_scan scanned
  obtain ⟨validEdges, distinct, parents, children⟩ := edges_of_scan scannedEdges
  refine ⟨⟨?_, ?_, ?_, ?_, ?_, not_lt.mp edgeCount, validEdges, distinct, ?_, ?_, ?_⟩, total⟩
  · exact List.forall_mem_map.mpr fun pin member => sound_of_validate (valid pin member)
  · rw [List.map_map]
    exact projects
  · rw [List.map_map]
    exact filenames
  · rw [List.map_map]
    exact bytes
  · rw [length_map]
    exact not_lt.mp nodeCount
  · intro edge member
    obtain ⟨pin, inside, same⟩ := parents edge member
    exact ⟨_, mem_map_of_mem inside, same⟩
  · intro edge member
    obtain ⟨pin, inside, same⟩ := children edge member
    exact ⟨_, mem_map_of_mem inside, same⟩
  · refine List.forall_mem_map.mpr fun pin member required => ?_
    have found : pin.projectId ∈
        Closure.reachable (adjacent edges) (pins.map (·.projectId)) roots := by
      by_contra missing
      refine connected (any_eq_true.mpr ⟨pin, member, ?_⟩)
      exact Bool.and_eq_true_iff.mpr ⟨decide_eq_true required, decide_eq_true missing⟩
    rw [mem_reachable_adjacent] at found
    · obtain ⟨root, isRoot, path⟩ := found
      have rootPin : root ∈ rootPins pins := by
        rw [← List.mem_toFinset, ← not_not.mp sameRoots, List.mem_toFinset]
        exact isRoot
      unfold rootPins at rootPin
      simp only [List.mem_map, List.mem_filter, decide_eq_true_eq] at rootPin
      obtain ⟨first, ⟨inside, role⟩, rfl⟩ := rootPin
      exact ⟨_, mem_map_of_mem inside, role, path⟩
    · intro edge inside
      obtain ⟨child, among, same, -⟩ := children edge inside
      exact mem_map.mpr ⟨child, among, same⟩

/-- The texts of a plan that may be sealed. -/
theorem texts_of_sealable
    (admitted : sealable libraries declarative gameVersion loader pins edges = .ok total) :
    validateRequiredText declarative.compositionId maxCompositionIdBytes .invalidCompositionId =
        .ok () ∧
      validateTargetValue gameVersion = .ok () ∧ validateTargetValue loader = .ok () := by
  unfold sealable at admitted
  simp only [guard_eq_ok, bind_eq_ok] at admitted
  obtain ⟨-, _, composition, _, version, _, loader, -⟩ := admitted
  exact ⟨composition, version, loader⟩

/-! ### What the validation of a state requires -/

/-- What the scan of the mods of a state notes of one more mod. -/
def InstalledScan.next (unicode : Minecraft.Unicode) (scan : InstalledScan)
    (installed : InstalledMod) : InstalledScan :=
  ⟨some installed.projectId, scan.projects ++ [installed.projectId],
    scan.filenames ++ (filenameKey unicode installed.filename).toList,
    scan.aggregateBytes + installed.size⟩

theorem InstalledScan.foldl_next (unicode : Minecraft.Unicode) (installedMods : List InstalledMod) :
    installedMods.foldl (InstalledScan.next unicode) .start =
      ⟨installedMods.getLast?.map (·.projectId), installedMods.map (·.projectId),
        installedMods.filterMap fun installed => filenameKey unicode installed.filename,
        (installedMods.map (·.size)).sum⟩ := by
  induction installedMods using List.reverseRecOn with
  | nil => rfl
  | append_singleton installedMods installed ih =>
    rw [foldl_append, ih]
    simp only [foldl_cons, foldl_nil, InstalledScan.next, map_append, map_cons,
      map_nil, filterMap_append, filterMap_cons, filterMap_nil,
      sum_append, sum_cons, sum_nil, Nat.add_zero, getLast?_concat,
      map_some]
    cases filenameKey unicode installed.filename <;> rfl

theorem admitInstalled_eq_ok (scan : InstalledScan) (installed : InstalledMod)
    (result : InstalledScan) :
    admitInstalled libraries scan installed = .ok result ↔
      ((CanonicalGraphNode.fromInstalled installed).Sound libraries.unicode ∧
        (∀ previous ∈ scan.previous, previous < installed.projectId) ∧
        installed.projectId ∉ scan.projects ∧
        (∃ key, filenameKey libraries.unicode installed.filename = some key ∧
          key ∉ scan.filenames) ∧
        scan.aggregateBytes + installed.size ≤ managedArtifactMaxBytes) ∧
      scan.next libraries.unicode installed = result := by
  unfold admitInstalled InstalledScan.next validateModrinthId validateSha512
  simp only [guard_eq_ok, bind_eq_ok, pure_eq_ok, portableFilenameKey_eq_ok, addBytes_eq_ok,
    check_eq_ok, Option.any_eq_true, decide_eq_true_eq, not_exists, not_and, not_le]
  constructor
  · rintro ⟨_, ⟨project, -⟩, _, ⟨version, -⟩, _, filename, _, size, _, ⟨sha512, -⟩, ascending, fresh,
      key, same, freshKey, _, ⟨within, rfl⟩, rfl⟩
    exact ⟨⟨⟨project, version, filename, size, sha512⟩, ascending, fresh, ⟨key, same, freshKey⟩,
      within⟩, by rw [same]; rfl⟩
  · rintro ⟨⟨sound, ascending, fresh, ⟨key, same, freshKey⟩, within⟩, rfl⟩
    exact ⟨(), ⟨sound.project, trivial⟩, (), ⟨sound.version, trivial⟩, (), sound.filename, (),
      sound.size, (), ⟨sound.sha512, trivial⟩, ascending, fresh, key, same, freshKey, _,
      ⟨within, rfl⟩, by rw [same]; rfl⟩

variable {installedMods : List InstalledMod}

/-- The mods of a sound graph in the order of their projects pass the scan. -/
theorem scan_of_sound
    (sound : GraphSound libraries.unicode (installedMods.map .fromInstalled) edges)
    (ascending : installedMods.Pairwise fun left right => left.projectId < right.projectId) :
    ∃ scan, installedMods.foldlM (admitInstalled libraries) .start = .ok scan ∧
      scan.aggregateBytes = (installedMods.map (·.size)).sum := by
  refine ⟨_, (foldlM_eq_ok admitInstalled_eq_ok).mpr ⟨fun before installed after split => ?_, rfl⟩,
    by rw [InstalledScan.foldl_next]⟩
  have member : installed ∈ installedMods := split ▸ List.mem_append_right _ List.mem_cons_self
  have here := sound.eachNode _ (mem_map_of_mem member)
  have lower := pairwise_iff_earlier.mp ascending before installed after split
  rw [InstalledScan.foldl_next]
  refine ⟨here, fun previous last => ?_, ?_, ?_, ?_⟩
  · obtain ⟨earlier, found, rfl⟩ := mem_map.mp last
    exact lower earlier (List.mem_of_getLast? found)
  · have apart := sound.projects
    rw [List.map_map] at apart
    exact nodup_map_iff_earlier.mp apart before installed after split
  · obtain ⟨key, same⟩ := exists_filenameKey here.filename
    have apart := sound.filenames
    rw [List.map_map] at apart
    have fresh := nodup_map_iff_earlier.mp apart before installed after split
    refine ⟨key, same, fun again => fresh ?_⟩
    have taken := some_mem_map.mpr again
    rw [← same] at taken
    exact taken
  · have bound := sound.bytes
    rw [List.map_map, split] at bound
    exact sum_earlier_le.trans bound

/-- What the scan of the edges of a state notes of one more edge. -/
def EdgeScan.next (scan : EdgeScan) (edge : ManagedDependencyEdge) : EdgeScan :=
  ⟨some edge, scan.seen ++ [edge]⟩

theorem EdgeScan.foldl_next (edges : List ManagedDependencyEdge) :
    edges.foldl EdgeScan.next .start = ⟨edges.getLast?, edges⟩ := by
  induction edges using List.reverseRecOn with
  | nil => rfl
  | append_singleton edges edge ih =>
    rw [foldl_append, ih, getLast?_concat]
    rfl

theorem admitStateEdge_eq_ok (installedMods : List InstalledMod) (scan : EdgeScan)
    (edge : ManagedDependencyEdge) (result : EdgeScan) :
    admitStateEdge installedMods scan edge = .ok result ↔
      ((∀ previous ∈ scan.previous, previous.key < edge.key) ∧ edge.validate = .ok () ∧
        edge ∉ scan.seen ∧ installedVersion installedMods edge.parentProjectId ≠ none ∧
        installedVersion installedMods edge.childProjectId = some edge.childVersionId) ∧
      scan.next edge = result := by
  unfold admitStateEdge EdgeScan.next
  simp only [guard_eq_ok, bind_eq_ok, pure_eq_ok, Option.any_eq_true, decide_eq_true_eq, not_exists,
    not_and, not_le]
  constructor
  · rintro ⟨ascending, _, valid, fresh, -, parent, child, rfl⟩
    exact ⟨⟨ascending, valid, fresh, parent, not_not.mp child⟩, rfl⟩
  · rintro ⟨⟨ascending, valid, fresh, parent, child⟩, rfl⟩
    exact ⟨ascending, (), valid, fresh, by rw [child]; exact Option.some_ne_none _, parent,
      not_not.mpr child, rfl⟩

/-- With distinct projects, the version that is installed of a project is that of its mod. -/
theorem installedVersion_eq (distinct : (installedMods.map (·.projectId)).Nodup)
    {installed : InstalledMod} (member : installed ∈ installedMods) :
    installedVersion installedMods installed.projectId = some installed.versionId := by
  unfold installedVersion
  cases found : installedMods.find? fun other => other.projectId = installed.projectId with
  | none =>
    have missing := find?_eq_none.mp found installed member
    simp at missing
  | some other =>
    have same : other.projectId = installed.projectId := by simpa using find?_some found
    rw [inj_on_of_nodup_map distinct (mem_of_find?_eq_some found) member same]
    rfl

theorem scanEdges_of_sound
    (sound : GraphSound libraries.unicode (installedMods.map .fromInstalled) edges)
    (ascending : edges.Pairwise fun left right => left.key < right.key) :
    ∃ scan, edges.foldlM (admitStateEdge installedMods) .start = .ok scan := by
  have distinct := sound.projects
  rw [List.map_map] at distinct
  refine ⟨_, (foldlM_eq_ok (admitStateEdge_eq_ok installedMods)).mpr
    ⟨fun before edge after split => ?_, rfl⟩⟩
  have member : edge ∈ edges := split ▸ List.mem_append_right _ List.mem_cons_self
  have lower := pairwise_iff_earlier.mp ascending before edge after split
  rw [EdgeScan.foldl_next]
  refine ⟨fun previous last => lower previous (List.mem_of_getLast? last), sound.eachEdge edge member,
    fun again => (lower edge again).ne rfl, ?_, ?_⟩
  · obtain ⟨node, inside, same⟩ := sound.parents edge member
    obtain ⟨installed, among, rfl⟩ := List.mem_map.mp inside
    rw [← same]
    exact Option.ne_none_iff_exists'.mpr ⟨_, installedVersion_eq distinct among⟩
  · obtain ⟨node, inside, same, version⟩ := sound.children edge member
    obtain ⟨installed, among, rfl⟩ := List.mem_map.mp inside
    rw [← same, ← version]
    exact installedVersion_eq distinct among

/-- The digest of a state whose graph is sound and sorted. -/
theorem canonicalStateGraphDigest_of_sound {state : CompositionState}
    (sound : GraphSound libraries.unicode (state.installedMods.map .fromInstalled)
      state.dependencyEdges)
    (ascending : state.installedMods.Pairwise fun left right => left.projectId < right.projectId)
    (ascendingEdges : state.dependencyEdges.Pairwise fun left right => left.key < right.key)
    (composition : validateRequiredText state.compositionId maxCompositionIdBytes
      .invalidCompositionId = .ok ())
    (version : validateTargetValue state.gameVersion = .ok ())
    (loader : validateTargetValue state.loader = .ok ()) :
    canonicalStateGraphDigest libraries state = .ok (graphDigest libraries.sha512
      ⟨state.compositionId, state.family, state.tier, state.gameVersion, state.loader,
        (state.installedMods.map (·.size)).sum⟩
      (state.installedMods.map .fromInstalled) state.dependencyEdges) := by
  obtain ⟨scan, scanned, total⟩ := scan_of_sound sound ascending
  obtain ⟨seen, scannedEdges⟩ := scanEdges_of_sound sound ascendingEdges
  have nodeCount := sound.nodeCount
  rw [length_map] at nodeCount
  unfold canonicalStateGraphDigest
  simp only [guard_eq_ok, bind_eq_ok, pure_eq_ok]
  refine ⟨not_lt.mpr nodeCount, not_lt.mpr sound.edgeCount, (), composition, (), version, (), loader,
    scan, scanned, seen, scannedEdges, fun some => ?_, by rw [total]⟩
  obtain ⟨installed, member, missing⟩ := any_eq_true.mp some
  obtain ⟨required, unreached⟩ := Bool.and_eq_true_iff.mp missing
  refine of_decide_eq_true unreached ?_
  rw [mem_reachable_adjacent]
  · obtain ⟨root, inside, role, path⟩ :=
      sound.reached _ (mem_map_of_mem member) (of_decide_eq_true required)
    obtain ⟨first, among, rfl⟩ := List.mem_map.mp inside
    refine ⟨first.projectId, ?_, path⟩
    exact mem_map_of_mem (mem_filter.mpr ⟨among, decide_eq_true role⟩)
  · intro edge inside
    obtain ⟨node, among, same, -⟩ := sound.children edge inside
    obtain ⟨child, listed, rfl⟩ := List.mem_map.mp among
    exact mem_map.mpr ⟨child, listed, same⟩

end Axial.Performance
