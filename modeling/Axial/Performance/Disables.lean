/-
This file settles what emergency disables do. A disabled composition is never
planned. A mod of a disabled artifact is left out exactly where an applying disable
reaches it by ASCII case: the manifest is checked with Unicode lower case, the
planner compares with `eq_ignore_ascii_case`.
-/

import Axial.Performance.Planner

namespace Axial.Performance

open Fallible List Option
open Axial.Fs (eqIgnoreAsciiCase)
open Axial.Minecraft (trim)

variable {tables : UnicodeTables}

/-! ### What an accepted manifest says -/

/-- A disable of an artifact refers to a managed mod: both name the artifact, the mod by its id and
the disable by its id or its project, in any case. -/
def Refers (tables : UnicodeTables) (manifest : Manifest) (disable : EmergencyDisable)
    (managedMod : ManagedMod) : Prop :=
  ∃ artifact, referredArtifact tables manifest.artifacts managedMod.artifactId = some artifact ∧
    (tables.toLowercase disable.targetId = tables.toLowercase artifact.id ∨
      tables.toLowercase disable.targetId = tables.toLowercase artifact.projectId)

/-- The two spell the artifact as it spells itself, up to the case of ASCII letters. -/
def SpelledAlike (tables : UnicodeTables) (manifest : Manifest) (disable : EmergencyDisable)
    (managedMod : ManagedMod) : Prop :=
  ∃ artifact, referredArtifact tables manifest.artifacts managedMod.artifactId = some artifact ∧
    sameAsciiCase artifact.id managedMod.artifactId = true ∧
    (sameAsciiCase disable.targetId artifact.id = true ∨
      sameAsciiCase disable.targetId artifact.projectId = true)

variable {seen : List String}

theorem validateArtifacts_distinct {artifacts : List ManagedArtifactDefinition}
    (accepted : validateArtifacts tables seen artifacts = .ok ()) :
    (artifacts.map fun artifact => tables.toLowercase artifact.id).Nodup ∧
      ∀ artifact ∈ artifacts, tables.toLowercase artifact.id ∉ seen := by
  induction artifacts generalizing seen with
  | nil => exact ⟨nodup_nil, nofun⟩
  | cons artifact artifacts ih =>
    unfold validateArtifacts at accepted
    simp only [bind_eq_ok, guard_eq_ok] at accepted
    obtain ⟨-, -, fresh, -, -, later⟩ := accepted
    obtain ⟨distinct, unseen⟩ := ih later
    refine ⟨nodup_cons.mpr ⟨?_, distinct⟩, ?_⟩
    · intro again
      obtain ⟨other, member, same⟩ := List.mem_map.mp again
      exact unseen other member (same ▸ mem_cons_self)
    · intro other member inSeen
      rcases mem_cons.mp member with rfl | inside
      · exact fresh inSeen
      · exact unseen other inside (mem_cons_of_mem _ inSeen)

variable {manifest : Manifest}

/-- A target that is accepted is not empty. -/
theorem ne_empty_of_validateDisables {disables : List EmergencyDisable}
    (accepted : validateDisables tables manifest seen disables = .ok ()) :
    ∀ disable ∈ disables, disable.targetId ≠ "" := by
  induction disables generalizing seen with
  | nil => exact nofun
  | cons disable disables ih =>
    unfold validateDisables at accepted
    simp only [bind_eq_ok, guard_eq_ok] at accepted
    obtain ⟨_, -, -, _, target, later⟩ := accepted
    intro other member
    rcases mem_cons.mp member with rfl | inside
    · rintro empty
      unfold validateDisableTarget at target
      simp only [guard_eq_ok] at target
      rw [empty] at target
      exact target.1 (by decide)
    · exact ih later other inside

theorem validateManifest_spec {timestamp : String → Bool}
    (accepted : validateManifest tables timestamp manifest = .ok ()) :
    (manifest.artifacts.map fun artifact => tables.toLowercase artifact.id).Nodup ∧
      ∀ disable ∈ manifest.emergencyDisables, disable.targetId ≠ "" := by
  unfold validateManifest at accepted
  simp only [bind_eq_ok, guard_eq_ok] at accepted
  obtain ⟨-, _, -, -, _, -, _, -, _, -, _, -, _, -, _, -, _, -, _, artifacts, _, -, _, -,
    disables⟩ := accepted
  exact ⟨(validateArtifacts_distinct artifacts).1, ne_empty_of_validateDisables disables⟩

variable {disable : EmergencyDisable} {managedMod : ManagedMod}

/-- The planner's comparison, in terms of the artifact that the manifest was checked with. -/
theorem artifactTargetMatches_iff
    (distinct : (manifest.artifacts.map fun artifact => tables.toLowercase artifact.id).Nodup) :
    artifactTargetMatches manifest disable managedMod = true ↔
      SpelledAlike tables manifest disable managedMod := by
  -- Where the planner finds an artifact, it is the one the mod refers to.
  have referred {artifact : ManagedArtifactDefinition} (member : artifact ∈ manifest.artifacts)
      (same : sameAsciiCase artifact.id managedMod.artifactId = true) :
      referredArtifact tables manifest.artifacts managedMod.artifactId = some artifact := by
    have lower := tables.toLowercase_ascii _ _ same
    unfold referredArtifact
    cases found : manifest.artifacts.find? fun artifact =>
        tables.toLowercase artifact.id = tables.toLowercase managedMod.artifactId with
    | none => exact absurd (decide_eq_true lower) (find?_eq_none.mp found artifact member)
    | some other =>
      have own : tables.toLowercase other.id = tables.toLowercase managedMod.artifactId := by
        simpa using find?_some found
      rw [inj_on_of_nodup_map distinct (mem_of_find?_eq_some found) member
        (own.trans lower.symm)]
  unfold artifactTargetMatches SpelledAlike
  constructor
  · intro matched
    split at matched
    · cases matched
    · rename_i artifact found
      have same : sameAsciiCase artifact.id managedMod.artifactId = true :=
        @List.find?_some _ (fun artifact : ManagedArtifactDefinition =>
          sameAsciiCase artifact.id managedMod.artifactId) _ _ found
      exact ⟨artifact, referred (mem_of_find?_eq_some found) same, same,
        Bool.or_eq_true_iff.mp matched⟩
  · rintro ⟨artifact, refers, same, target⟩
    have member : artifact ∈ manifest.artifacts := mem_of_find?_eq_some refers
    split
    · rename_i missing
      exact absurd same (find?_eq_none.mp missing artifact member)
    · rename_i other found
      have alike : sameAsciiCase other.id managedMod.artifactId = true :=
        @List.find?_some _ (fun artifact : ManagedArtifactDefinition =>
          sameAsciiCase artifact.id managedMod.artifactId) _ _ found
      have own := (referred (mem_of_find?_eq_some found) alike).symm.trans refers
      cases own
      exact Bool.or_eq_true_iff.mpr target

/-! ### What the search finds -/

namespace Planning

variable {planning : Planning}

/-- A mod that ends up in the plan of its composition. -/
def keeps (tables : UnicodeTables) (planning : Planning) (tier : CompositionTier)
    (managedMod : ManagedMod) : Bool :=
  (activeArtifactDisable planning.manifest managedMod (planning.family tables)
      (planning.loader tables) tier).isNone &&
    (shouldIncludeMod tables managedMod planning.request.gameVersion planning.request.hardware
      (planning.installedSet tables)).1

theorem considerMod_mods (tier : CompositionTier) (active : ActiveMods) (managedMod : ManagedMod) :
    (planning.considerMod tables tier active managedMod).mods =
      active.mods ++ [managedMod].filter (planning.keeps tables tier) := by
  unfold considerMod keeps
  cases found : activeArtifactDisable planning.manifest managedMod (planning.family tables)
      (planning.loader tables) tier with
  | some disable => simp [found]
  | none =>
    cases included : (shouldIncludeMod tables managedMod planning.request.gameVersion
      planning.request.hardware (planning.installedSet tables)).1 <;> simp [found, included]

theorem activeMods_mods (definition : CompositionDef) (warnings : List String) :
    (planning.activeMods tables definition warnings).mods =
      definition.mods.filter (planning.keeps tables definition.tier) := by
  have whole (mods : List ManagedMod) (active : ActiveMods) :
      (mods.foldl (planning.considerMod tables definition.tier) active).mods =
        active.mods ++ mods.filter (planning.keeps tables definition.tier) := by
    induction mods generalizing active with
    | nil => simp
    | cons managedMod mods ih =>
      rw [foldl_cons, ih, considerMod_mods, append_assoc,
        ← filter_append]
      rfl
  exact (whole definition.mods _).trans (nil_append _)

/-- A composition that is planned when it is come to: it is not disabled, and has mods enough. -/
def eligible (tables : UnicodeTables) (planning : Planning) (definition : CompositionDef) : Bool :=
  (activeCompositionDisable planning.manifest definition (planning.family tables)
      (planning.loader tables)).isNone &&
    (2 ≤ (definition.mods.filter (planning.keeps tables definition.tier)).length ||
      definition.tier = .vanillaEnhanced)

/-- The composition that the request is planned with. -/
def chosen (tables : UnicodeTables) (planning : Planning) : Option CompositionDef :=
  (planning.candidates tables).find? (planning.eligible tables)

theorem searchCompositions_spec (definitions : List CompositionDef)
    (fallback : List String × String) :
    match planning.searchCompositions tables fallback definitions with
    | .inl plan => ∃ definition, definitions.find? (planning.eligible tables) = some definition ∧
        plan.compositionId = definition.id ∧ plan.tier = definition.tier ∧
        plan.family = planning.family tables ∧ plan.loader = planning.loader tables ∧
        plan.mods = definition.mods.filter (planning.keeps tables definition.tier)
    | .inr _ => definitions.find? (planning.eligible tables) = none := by
  induction definitions generalizing fallback with
  | nil => rfl
  | cons definition definitions ih =>
    unfold searchCompositions
    cases disabled : activeCompositionDisable planning.manifest definition
        (planning.family tables) (planning.loader tables) with
    | some disable =>
      have skipped : planning.eligible tables definition = false := by
        unfold eligible
        rw [disabled]
        rfl
      dsimp only
      rw [find?_cons_of_neg (by rw [skipped]; exact Bool.false_ne_true)]
      exact ih _
    | none =>
      dsimp only
      by_cases enough : 2 ≤ (definition.mods.filter
          (planning.keeps tables definition.tier)).length ∨ definition.tier = .vanillaEnhanced
      · have planned : planning.eligible tables definition = true := by
          unfold eligible
          rw [disabled]
          simpa using enough
        unfold considerComposition
        rw [if_pos (by rw [activeMods_mods]; exact enough)]
        exact ⟨definition, find?_cons_of_pos planned, rfl, rfl, rfl, rfl,
          activeMods_mods _ _⟩
      · have skipped : planning.eligible tables definition = false := by
          unfold eligible
          rw [disabled]
          simpa using enough
        unfold considerComposition
        rw [if_neg (by rw [activeMods_mods]; exact enough)]
        rw [find?_cons_of_neg (by rw [skipped]; exact Bool.false_ne_true)]
        exact ih _

/-- The plan is that of the chosen composition, with the mods it keeps, or of none. -/
theorem resolve_spec (planning : Planning) :
    (planning.resolve tables).family = planning.family tables ∧
      (planning.resolve tables).loader = planning.loader tables ∧
      match planning.chosen tables with
      | some definition => (planning.resolve tables).compositionId = definition.id ∧
          (planning.resolve tables).tier = definition.tier ∧
          (planning.resolve tables).mods =
            definition.mods.filter (planning.keeps tables definition.tier)
      | none => (planning.resolve tables).compositionId = "" ∧
          (planning.resolve tables).mods = [] := by
  have found := @searchCompositions_spec tables planning (planning.candidates tables) ([], "")
  unfold chosen resolve
  cases searched : planning.searchCompositions tables ([], "") (planning.candidates tables) with
  | inl plan =>
    rw [searched] at found
    obtain ⟨definition, first, id, tier, family, loader, mods⟩ := found
    rw [first]
    exact ⟨family, loader, id, tier, mods⟩
  | inr fallback =>
    rw [searched] at found
    rw [found]
    exact ⟨rfl, rfl, rfl, rfl⟩

end Planning

/-! ### The effect of disables -/

/-- Neither the composition nor a mod of the plan is one that an applying disable is about. -/
def DisablesEffective (tables : UnicodeTables) (manifest : Manifest)
    (request : ResolutionRequest) : Prop :=
  let plan := resolvePlan tables (some manifest) request
  ∀ disable ∈ manifest.emergencyDisables,
    disableApplies disable plan.family plan.loader plan.tier = true →
    (disable.target = .composition → plan.compositionId ≠ disable.targetId) ∧
    (disable.target = .artifact → ∀ managedMod ∈ plan.mods,
      ¬ Refers tables manifest disable managedMod)

/-- Every mod the chosen composition would include, and that some applying disable refers to, is
reached by an applying disable with the same spelling up to ASCII case. -/
def DisablesSpelledAlike (tables : UnicodeTables) (planning : Planning) : Prop :=
  ∀ definition, planning.chosen tables = some definition → ∀ managedMod ∈ definition.mods,
    (shouldIncludeMod tables managedMod planning.request.gameVersion planning.request.hardware
      (planning.installedSet tables)).1 = true →
    (∃ disable ∈ planning.manifest.emergencyDisables, disable.target = .artifact ∧
      disableApplies disable (planning.family tables) (planning.loader tables)
        definition.tier = true ∧ Refers tables planning.manifest disable managedMod) →
    ∃ disable ∈ planning.manifest.emergencyDisables, disable.target = .artifact ∧
      disableApplies disable (planning.family tables) (planning.loader tables)
        definition.tier = true ∧ SpelledAlike tables planning.manifest disable managedMod

variable {family : VersionFamily} {loader : String}

theorem isNone_activeCompositionDisable {definition : CompositionDef}
    (none : (activeCompositionDisable manifest definition family loader).isNone = true)
    (member : disable ∈ manifest.emergencyDisables) (target : disable.target = .composition)
    (applies : disableApplies disable family loader definition.tier = true) :
    definition.id ≠ disable.targetId := by
  intro same
  have absent := find?_eq_none.mp (isNone_iff_eq_none.mp none) disable member
  simp [target, same, applies] at absent

theorem isNone_activeArtifactDisable_iff {tier : CompositionTier}
    (distinct : (manifest.artifacts.map fun artifact => tables.toLowercase artifact.id).Nodup) :
    (activeArtifactDisable manifest managedMod family loader tier).isNone = true ↔
      ¬ ∃ disable ∈ manifest.emergencyDisables, disable.target = .artifact ∧
        disableApplies disable family loader tier = true ∧
        SpelledAlike tables manifest disable managedMod := by
  unfold activeArtifactDisable
  rw [isNone_iff_eq_none, find?_eq_none]
  simp only [Bool.and_eq_true, decide_eq_true_eq, artifactTargetMatches_iff distinct, not_exists,
    not_and]
  exact forall_congr' fun disable => forall_congr' fun _ =>
    ⟨fun clear target applies alike => clear ⟨target, alike⟩ applies,
      fun clear both applies => clear both.1 applies both.2⟩

/-- The plan of a managed request is as its disables want it exactly when those that concern the
chosen composition are spelled as the artifacts are. -/
theorem disablesEffective_iff (tables : UnicodeTables) (timestamp : String → Bool)
    (manifest : Manifest) (request : ResolutionRequest)
    (accepted : validateManifest tables timestamp manifest = .ok ())
    (managed : request.mode = .managed) :
    DisablesEffective tables manifest request ↔
      DisablesSpelledAlike tables { manifest, request } := by
  obtain ⟨distinct, named⟩ := validateManifest_spec accepted
  have planned : resolvePlan tables (some manifest) request =
      Planning.resolve tables { manifest, request } := by
    unfold resolvePlan
    rw [if_neg (by rw [managed]; decide)]
  let planning : Planning := { manifest, request }
  obtain ⟨family, loader, found⟩ := @Planning.resolve_spec tables planning
  unfold DisablesEffective DisablesSpelledAlike
  rw [planned]
  dsimp only
  rw [family, loader]
  cases chosen : planning.chosen tables with
  | none =>
    rw [chosen] at found
    refine ⟨fun _ => nofun, fun _ disable member _ => ⟨fun _ => ?_, fun _ => ?_⟩⟩
    · rw [found.1]
      exact (named disable member).symm
    · rw [found.2]
      exact nofun
  | some definition =>
    rw [chosen] at found
    obtain ⟨id, tier, mods⟩ := found
    have planable : planning.eligible tables definition = true := find?_some chosen
    have free := (Bool.and_eq_true_iff.mp planable).1
    rw [id, tier, mods]
    constructor
    · rintro effective _ ⟨⟩ managedMod member included ⟨disable, inside, target, applies, refers⟩
      by_contra missed
      have kept : managedMod ∈ definition.mods.filter
          (planning.keeps tables definition.tier) := by
        refine mem_filter.mpr ⟨member, Bool.and_eq_true_iff.mpr ⟨?_, included⟩⟩
        exact (isNone_activeArtifactDisable_iff distinct).mpr missed
      exact (effective disable inside applies).2 target managedMod kept refers
    · intro alike disable inside applies
      refine ⟨fun target => isNone_activeCompositionDisable free inside target applies,
        fun target managedMod kept refers => ?_⟩
      obtain ⟨member, keeps⟩ := mem_filter.mp kept
      obtain ⟨clear, included⟩ := Bool.and_eq_true_iff.mp keeps
      exact (isNone_activeArtifactDisable_iff distinct).mp clear
        (alike definition rfl managedMod member included
          ⟨disable, inside, target, applies, refers⟩)

/-! ### A disable that does nothing -/

/-- Lower case of ASCII and of the capital letters of Latin-1. -/
def latinLower (char : Char) : Char :=
  if 0xc0 ≤ char.toNat && char.toNat ≤ 0xde && char.toNat ≠ 0xd7 then
    Char.ofNat (char.toNat + 0x20)
  else char

def latinTables : UnicodeTables where
  toLowercase value := String.ofList ((value.toList.map Char.toLower).map latinLower)
  isDecimal := Char.isDigit
  toLowercase_ascii first second same := by
    unfold eqIgnoreAsciiCase at same
    rw [of_decide_eq_true same]
  isDecimal_digit _ digit := digit
  isDecimal_alpha char alpha := by
    have numbers : char.toNat = char.val.toNat := rfl
    simp [Char.isAlpha, Char.isUpper, Char.isLower, Char.isDigit, UInt32.le_iff_toNat_le]
      at alpha ⊢
    omega

def sodiumMod (artifactId : String) : ManagedMod where
  artifactId
  projectId := "AANobbMI"
  slug := "sodium"
  name := "Sodium"
  condition := .always
  versionRange := ""
  exactGameVersions := []
  hardwareReq := none
  mutualExclusions := []

/-- A disable of an artifact for every instance. -/
def stopDisable (targetId : String) : EmergencyDisable where
  id := "stop"
  target := .artifact
  targetId
  reason := "It crashes."
  families := []
  loaders := []
  tiers := []

/-- A manifest with the artifact `ÄB`, a mod that refers to it and a disable of it. -/
def oneMod (artifactId targetId : String) : Manifest where
  schemaVersion := 3
  generatedAt := "2026-01-01T00:00:00Z"
  minimumAppVersion := "0.3.0"
  ruleChannel := "bundled"
  artifacts := [{ id := "\u00c4B", projectId := "AANobbMI", slug := "sodium"
                  ownershipClass := .compositionManaged }]
  compositions := [
    { id := "fabric-basic", displayName := "Basic", description := "", families := [.F]
      loaders := ["fabric"], tier := .vanillaEnhanced, mods := [sodiumMod artifactId]
      jvmPreset := "" }]
  emergencyDisables := [stopDisable targetId]

def fabricRequest : ResolutionRequest where
  gameVersion := "1.21.1"
  loader := "fabric"
  mode := .managed
  hardware := { totalRamMb := 8192, logicalCores := 8, gpuVendor := "", gpuArch := 0 }
  installedMods := []

/-- Where the mod spells the artifact as it is spelled, the disable has its effect. -/
theorem disablesEffective_iff_sodium :
    let manifest := oneMod "\u00c4b" "\u00c4B"
    DisablesSpelledAlike latinTables { manifest, request := fabricRequest } ∧
      DisablesEffective latinTables manifest fabricRequest ∧
      (resolvePlan latinTables (some manifest) fabricRequest).mods = [] := by
  intro manifest
  have alike : DisablesSpelledAlike latinTables { manifest, request := fabricRequest } := by
    intro definition chosen managedMod member _ _
    have composed : definition = manifest.compositions.head (by decide) :=
      some_inj.mp (chosen.symm.trans (by decide))
    rw [composed] at member ⊢
    cases mem_singleton.mp member
    exact ⟨stopDisable "\u00c4B", mem_cons_self, rfl, rfl, _, rfl, by decide, .inl (by decide)⟩
  exact ⟨alike, (disablesEffective_iff latinTables (fun _ => true) manifest fabricRequest
    (by decide) rfl).mpr alike, by decide⟩

/-- A manifest in which the artifact and its disable are spelled `ÄB` and the mod says `äb` is
accepted, and the mod is planned. -/
theorem disable_missed :
    validateManifest latinTables (fun _ => true) (oneMod "\u00e4b" "\u00c4B") = .ok () ∧
      fabricRequest.mode = .managed ∧
      ¬ DisablesEffective latinTables (oneMod "\u00e4b" "\u00c4B") fabricRequest := by
  refine ⟨by decide, rfl, fun effective => ?_⟩
  have planned : sodiumMod "\u00e4b" ∈
      (resolvePlan latinTables (some (oneMod "\u00e4b" "\u00c4B")) fabricRequest).mods := by
    decide
  refine (effective (stopDisable "\u00c4B") mem_cons_self rfl).2 rfl _ planned ?_
  exact ⟨{ id := "\u00c4B", projectId := "AANobbMI", slug := "sodium"
           ownershipClass := .compositionManaged }, by decide, .inl rfl⟩

end Axial.Performance
