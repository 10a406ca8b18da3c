/-
This file is about the artifacts that the steps of a processor plan refer to: the reader of an
argument records each one that it binds, and the steps are bound with the record of all that
they take and of all that they make.
-/

import Axial.Minecraft.ForgeContracts

namespace Axial.Minecraft

open Fallible

variable {unicode : Unicode} {data : ProcessorDataTable unicode}

/-! ### What a step refers to -/

/-- The artifact that a token stands for. -/
def tokenArtifact (data : ProcessorDataTable unicode) (token : String) :
    Option (BoundProcessorArtifact unicode) :=
  match data.lookup token with
  | some (.artifact made) => some made
  | some (.installerData _) | some (.literal _) | none => none

/-- The artifact that a part takes from without its step. -/
def BoundProcessorArgumentPart.taken (data : ProcessorDataTable unicode) :
    BoundProcessorArgumentPart → Option (BoundProcessorArtifact unicode)
  | .dataToken token => tokenArtifact data token
  | .literal _ | .outputToken _ | .builtinToken _ => none

/-- The output of its step that a part refers to. -/
def BoundProcessorArgumentPart.own (data : ProcessorDataTable unicode) :
    BoundProcessorArgumentPart → Option (BoundProcessorArtifact unicode)
  | .outputToken token => tokenArtifact data token
  | .literal _ | .dataToken _ | .builtinToken _ => none

/-- The entry of the data that a part uses. -/
def BoundProcessorArgumentPart.token? : BoundProcessorArgumentPart → Option String
  | .dataToken token | .outputToken token => some token
  | .literal _ | .builtinToken _ => none

def BoundProcessorArgument.taken (data : ProcessorDataTable unicode) :
    BoundProcessorArgument unicode → List (BoundProcessorArtifact unicode)
  | .artifact made => [made]
  | .outputArtifact _ => []
  | .template parts => parts.filterMap (·.taken data)

def BoundProcessorArgument.own (data : ProcessorDataTable unicode) :
    BoundProcessorArgument unicode → List (BoundProcessorArtifact unicode)
  | .artifact _ => []
  | .outputArtifact made => [made]
  | .template parts => parts.filterMap (·.own data)

def BoundProcessorArgument.tokens : BoundProcessorArgument unicode → List String
  | .artifact _ | .outputArtifact _ => []
  | .template parts => parts.filterMap (·.token?)

/-- The artifacts that a step takes from without: its jar, its classpath, and what its arguments
refer to. -/
def BoundProcessorStep.taken (data : ProcessorDataTable unicode)
    (step : BoundProcessorStep unicode) : List (BoundProcessorArtifact unicode) :=
  step.jar :: step.classpath ++ step.args.flatMap (·.taken data)

/-- The paths of the outputs of a step. -/
def BoundProcessorStep.made (step : BoundProcessorStep unicode) :
    List (PortableRelativePath unicode) :=
  step.outputs.map (·.artifact.relativePath)

/-! ### Records -/

theorem PortableRelativePath.eq_of_value {first second : PortableRelativePath unicode}
    (same : first.value = second.value) : first = second := by
  obtain ⟨value, _, _⟩ := first
  cases same
  rfl

/-- A table holds just the paths of a list, spelled as they are. -/
def Records (dependencies : ProcessorDependencies) (paths : List (PortableRelativePath unicode)) :
    Prop :=
  ∀ key value, dependencies.lookup key = some value ↔
    ∃ path ∈ paths, path.key = key ∧ path.value = value

theorem records_empty : Records ∅ ([] : List (PortableRelativePath unicode)) := by
  intro key value
  rw [AList.lookup_empty]
  exact ⟨nofun, fun ⟨_, member, _⟩ => absurd member List.not_mem_nil⟩

theorem Records.insert {dependencies : ProcessorDependencies}
    {paths : List (PortableRelativePath unicode)} (records : Records dependencies paths)
    {path : PortableRelativePath unicode} (fresh : dependencies.lookup path.key = none) :
    Records (dependencies.insert path.key path.value) (paths ++ [path]) := by
  intro key value
  by_cases same : key = path.key
  · rw [same, AList.lookup_insert, Option.some.injEq]
    constructor
    · intro spelled
      exact ⟨path, by simp, rfl, spelled⟩
    · rintro ⟨other, member, sameKey, spelled⟩
      rcases List.mem_append.mp member with inside | last
      · have known := (records path.key value).mpr ⟨other, inside, sameKey, spelled⟩
        rw [fresh] at known
        cases known
      · rw [List.mem_singleton.mp last] at spelled
        exact spelled
  · rw [AList.lookup_insert_ne same, records key value]
    constructor
    · rintro ⟨other, member, rest⟩
      exact ⟨other, List.mem_append_left _ member, rest⟩
    · rintro ⟨other, member, sameKey, spelled⟩
      rcases List.mem_append.mp member with inside | last
      · exact ⟨other, inside, sameKey, spelled⟩
      · rw [List.mem_singleton.mp last] at sameKey
        exact absurd sameKey.symm same

variable {paths : List (PortableRelativePath unicode)} {dependencies : ProcessorDependencies}
  {path : PortableRelativePath unicode}

section

variable (records : Records dependencies paths)

include records

/-- A path that stands in the table already adds nothing. -/
theorem Records.again (known : dependencies.lookup path.key = some path.value) :
    Records dependencies (paths ++ [path]) := by
  intro key value
  rw [records key value]
  constructor
  · rintro ⟨other, member, rest⟩
    exact ⟨other, List.mem_append_left _ member, rest⟩
  · rintro ⟨other, member, sameKey, spelled⟩
    rcases List.mem_append.mp member with inside | last
    · exact ⟨other, inside, sameKey, spelled⟩
    · obtain rfl := List.mem_singleton.mp last
      obtain ⟨earlier, inside, keyed, spells⟩ := (records _ _).mp known
      exact ⟨earlier, inside, keyed.trans sameKey, spells.trans spelled⟩

theorem Records.mem (known : dependencies.lookup path.key = some path.value) : path ∈ paths := by
  obtain ⟨other, member, -, spelled⟩ := (records _ _).mp known
  exact PortableRelativePath.eq_of_value spelled ▸ member

theorem Records.append_nil : Records dependencies (paths ++ []) :=
  (List.append_nil paths).symm ▸ records

variable {artifact : BoundProcessorArtifact unicode} {after : ProcessorDependencies}

theorem recordProcessorDependency_records
    (ok : recordProcessorDependency dependencies artifact = .ok after) :
    Records after (paths ++ [artifact.relativePath]) := by
  unfold recordProcessorDependency at ok
  split at ok
  · rename_i existing known
    split at ok
    · rename_i same
      cases ok
      exact records.again (same ▸ known)
    · cases ok
  · cases ok
    exact records.insert ‹_›

end

theorem foldlM_recordProcessorDependency_records :
    ∀ {artifacts : List (BoundProcessorArtifact unicode)} {dependencies after : ProcessorDependencies}
      {paths : List (PortableRelativePath unicode)}, Records dependencies paths →
      artifacts.foldlM recordProcessorDependency dependencies = .ok after →
      Records after (paths ++ artifacts.map (·.relativePath))
  | [], _, _, _, records, ok => by
    rw [foldlM_nil_eq_ok] at ok
    rw [List.map_nil, List.append_nil]
    exact ok ▸ records
  | _ :: _, _, _, _, records, ok => by
    obtain ⟨middle, here, later⟩ := foldlM_cons_eq_ok.mp ok
    rw [List.map_cons, List.append_cons]
    exact foldlM_recordProcessorDependency_records
      (recordProcessorDependency_records records here) later

/-! ### Arguments -/

/-- A part uses data that is there, and refers to nothing of its step but what that makes. -/
structure BoundProcessorArgumentPart.Bound (data : ProcessorDataTable unicode)
    (made : List (PortableRelativePath unicode)) (part : BoundProcessorArgumentPart) : Prop where
  token : ∀ token, part.token? = some token → token ∈ data
  own : ∀ artifact, part.own data = some artifact → artifact.relativePath ∈ made

structure BoundProcessorArgument.Bound (data : ProcessorDataTable unicode)
    (made : List (PortableRelativePath unicode)) (argument : BoundProcessorArgument unicode) :
    Prop where
  tokens : ∀ token ∈ argument.tokens, token ∈ data
  own : ∀ artifact ∈ argument.own data, artifact.relativePath ∈ made

variable {token : String}

theorem tokenArtifact_of_lookup (stands : data.lookup token = some (.artifact artifact)) :
    tokenArtifact data token = some artifact := by
  unfold tokenArtifact
  rw [stands]

theorem tokenArtifact_eq_none (other : ∀ artifact, data.lookup token ≠ some (.artifact artifact)) :
    tokenArtifact data token = none := by
  unfold tokenArtifact
  split
  · exact absurd ‹_› (other _)
  · rfl
  · rfl
  · rfl

variable {value : BoundProcessorData unicode}

theorem mem_of_lookup (stands : data.lookup token = some value) : token ∈ data :=
  AList.lookup_isSome.mp (Option.isSome_of_eq_some stands)

theorem bound_dataToken {made : List (PortableRelativePath unicode)}
    (stands : data.lookup token = some value) :
    (BoundProcessorArgumentPart.dataToken token).Bound data made := by
  refine ⟨?_, nofun⟩
  rintro _ ⟨⟩
  exact mem_of_lookup stands

/-- What has been read of a template: its parts are bound, and what they take is recorded. -/
structure TemplateParts.Sound (data : ProcessorDataTable unicode)
    (made before : List (PortableRelativePath unicode)) (template : TemplateParts) : Prop where
  records : Records template.consumed
    (before ++ (template.parts.filterMap (·.taken data)).map (·.relativePath))
  bound : ∀ part ∈ template.parts, part.Bound data made

variable {made before : List (PortableRelativePath unicode)}

variable {template : TemplateParts}

section

variable (sound : template.Sound data made before)

include sound

/-- A part that takes nothing. -/
theorem TemplateParts.Sound.push {part : BoundProcessorArgumentPart}
    (takes : part.taken data = none) (bound : part.Bound data made) :
    (template.push part).Sound data made before := by
  constructor
  · have same : ((template.parts ++ [part]).filterMap (·.taken data)) =
        template.parts.filterMap (·.taken data) := by
      rw [List.filterMap_append, List.filterMap_cons_none takes, List.filterMap_nil,
        List.append_nil]
    unfold TemplateParts.push
    dsimp only
    rw [same]
    exact sound.records
  · intro other member
    rcases List.mem_append.mp member with inside | last
    · exact sound.bound other inside
    · exact List.mem_singleton.mp last ▸ bound

theorem TemplateParts.Sound.pushLiteral : template.pushLiteral.Sound data made before := by
  unfold TemplateParts.pushLiteral
  split
  · exact sound
  · have bound : (BoundProcessorArgumentPart.literal (String.ofList template.literal)).Bound
        data made := ⟨nofun, nofun⟩
    have pushed := sound.push rfl bound
    exact ⟨pushed.records, pushed.bound⟩

variable {consumed : ProcessorDependencies}

/-- A part that takes an artifact. -/
theorem TemplateParts.Sound.take (stands : data.lookup token = some (.artifact artifact))
    (recorded : recordProcessorDependency template.consumed artifact = .ok consumed) :
    ({ template with consumed }.push (.dataToken token)).Sound data made before := by
  have takes : (BoundProcessorArgumentPart.dataToken token).taken data = some artifact :=
    tokenArtifact_of_lookup stands
  constructor
  · have same : (template.parts ++ [BoundProcessorArgumentPart.dataToken token]).filterMap
        (·.taken data) = template.parts.filterMap (·.taken data) ++ [artifact] := by
      rw [List.filterMap_append, List.filterMap_cons_some takes, List.filterMap_nil]
    unfold TemplateParts.push
    dsimp only
    rw [same, List.map_append, ← List.append_assoc]
    exact recordProcessorDependency_records sound.records recorded
  · intro other member
    rcases List.mem_append.mp member with inside | last
    · exact sound.bound other inside
    · exact List.mem_singleton.mp last ▸ bound_dataToken stands

end

variable {current : ProcessorDependencies}

theorem bindProcessorToken_sound {after : TemplateParts} (makes : Records current made)
    (sound : template.Sound data made before)
    (ok : bindProcessorToken data current token template = .ok after) :
    after.Sound data made before := by
  unfold bindProcessorToken at ok
  obtain ⟨-, ok⟩ := ite_throw_eq_ok.mp ok
  split at ok
  · rename_i artifact stands
    split at ok
    · rename_i expected known
      split at ok
      · rename_i spelled
        cases ok
        refine sound.push rfl ⟨?_, ?_⟩
        · rintro _ ⟨⟩
          exact mem_of_lookup stands
        · intro other is
          cases (tokenArtifact_of_lookup stands).symm.trans is
          exact makes.mem (spelled ▸ known)
      · cases ok
    · obtain ⟨consumed, recorded, ok⟩ := bind_eq_ok.mp ok
      cases ok
      exact sound.take stands recorded
  · rename_i path stands
    cases ok
    refine sound.push ?_ (bound_dataToken stands)
    exact tokenArtifact_eq_none (by rw [stands]; nofun)
  · rename_i value stands
    cases ok
    refine sound.push ?_ (bound_dataToken stands)
    exact tokenArtifact_eq_none (by rw [stands]; nofun)
  · split at ok
    · cases ok
      exact sound.push rfl ⟨nofun, nofun⟩
    · cases ok

theorem TemplateParts.Sound.withLiteral (sound : template.Sound data made before)
    (literal : List Char) : { template with literal }.Sound data made before :=
  ⟨sound.records, sound.bound⟩

theorem bindProcessorTemplate_sound {chars : List Char} {scan : ArgumentScan}
    {after : TemplateParts} (makes : Records current made) (sound : template.Sound data made before)
    (ok : bindProcessorTemplate data current chars scan template = .ok after) :
    after.Sound data made before := by
  fun_induction bindProcessorTemplate data current chars scan template with
  | case1 | case3 | case4 | case8 | case10 | case12 => cases ok
  | case2 =>
    cases ok
    exact sound.pushLiteral
  | case5 template next rest quoted ih =>
    exact ih (sound.withLiteral _) ok
  | case6 rest quoted template _ ih => exact ih sound ok
  | case7 =>
    rename_i ih
    exact ih sound.pushLiteral ok
  | case9 =>
    rename_i ih
    exact ih (sound.withLiteral _) ok
  | case11 =>
    rename_i bound ih
    exact ih (bindProcessorToken_sound makes sound bound) ok
  | case13 =>
    rename_i ih
    exact ih sound ok

variable {arg : String}

theorem parseProcessorArgument_sound {argument : BoundProcessorArgument unicode}
    (makes : Records current made) (records : Records consumed before)
    (ok : parseProcessorArgument data current arg consumed = .ok (argument, after)) :
    Records after (before ++ (argument.taken data).map (·.relativePath)) ∧
      argument.Bound data made := by
  unfold parseProcessorArgument at ok
  obtain ⟨-, ok⟩ := ite_throw_eq_ok.mp ok
  split at ok
  · obtain ⟨artifact, parsed, ok⟩ := bind_eq_ok.mp ok
    split at ok
    · rename_i expected known
      split at ok
      · rename_i spelled
        cases ok
        refine ⟨?_, fun token member => absurd member List.not_mem_nil, fun other is => ?_⟩
        · exact records.append_nil
        · rw [List.mem_singleton.mp is]
          exact makes.mem (spelled ▸ known)
      · cases ok
    · obtain ⟨recorded, records', ok⟩ := bind_eq_ok.mp ok
      cases ok
      exact ⟨recordProcessorDependency_records records records',
        fun token member => absurd member List.not_mem_nil,
        fun other is => absurd is List.not_mem_nil⟩
  · obtain ⟨template, read, ok⟩ := bind_eq_ok.mp ok
    obtain ⟨-, ok⟩ := ite_throw_eq_ok.mp ok
    cases ok
    have start : TemplateParts.Sound data made before ⟨[], [], consumed⟩ := by
      refine ⟨?_, fun part member => absurd member List.not_mem_nil⟩
      exact records.append_nil
    have sound := bindProcessorTemplate_sound makes start read
    refine ⟨sound.records, fun token member => ?_, fun artifact member => ?_⟩
    · obtain ⟨part, inside, uses⟩ := List.mem_filterMap.mp member
      exact (sound.bound part inside).token token uses
    · obtain ⟨part, inside, refers⟩ := List.mem_filterMap.mp member
      exact (sound.bound part inside).own artifact refers

theorem bindStepArgument_sound
    {state after : List (BoundProcessorArgument unicode) × ProcessorDependencies}
    (makes : Records current made) (ok : bindStepArgument data current state arg = .ok after)
    (sound : Records state.2 (before ++ (state.1.flatMap (·.taken data)).map (·.relativePath)) ∧
      ∀ argument ∈ state.1, argument.Bound data made) :
    Records after.2 (before ++ (after.1.flatMap (·.taken data)).map (·.relativePath)) ∧
      ∀ argument ∈ after.1, argument.Bound data made := by
  unfold bindStepArgument at ok
  obtain ⟨⟨argument, consumed⟩, parsed, ok⟩ := bind_eq_ok.mp ok
  cases ok
  obtain ⟨records, bound⟩ := parseProcessorArgument_sound makes sound.1 parsed
  constructor
  · rw [List.flatMap_append, List.map_append, ← List.append_assoc, List.flatMap_singleton]
    exact records
  · intro other member
    rcases List.mem_append.mp member with inside | last
    · exact sound.2 other inside
    · exact List.mem_singleton.mp last ▸ bound

/-! ### Outputs -/

/-- A table of producers holds just the paths that are made, each by one step, and no two of
them under one key. -/
structure Produced (producers : ProcessorProducers)
    (made : List (PortableRelativePath unicode × Nat)) : Prop where
  lookup : ∀ key value index, producers.lookup key = some (value, index) ↔
    ∃ path, (path, index) ∈ made ∧ path.key = key ∧ path.value = value
  distinct : (made.map (·.1.key)).Nodup

theorem produced_empty : Produced ∅ ([] : List (PortableRelativePath unicode × Nat)) := by
  refine ⟨fun key value index => ?_, List.nodup_nil⟩
  rw [AList.lookup_empty]
  exact ⟨nofun, fun ⟨_, member, _⟩ => absurd member List.not_mem_nil⟩

theorem Produced.notMem {producers : ProcessorProducers}
    {made : List (PortableRelativePath unicode × Nat)} (produced : Produced producers made)
    {key : PortablePathKey} (fresh : producers.lookup key = none) :
    key ∉ made.map (·.1.key) := by
  intro member
  obtain ⟨⟨path, index⟩, inside, same⟩ := List.mem_map.mp member
  have known := (produced.lookup key path.value index).mpr ⟨path, inside, same, rfl⟩
  rw [fresh] at known
  cases known

theorem Produced.insert {producers : ProcessorProducers}
    {made : List (PortableRelativePath unicode × Nat)} (produced : Produced producers made)
    {path : PortableRelativePath unicode} (fresh : producers.lookup path.key = none)
    (index : Nat) :
    Produced (producers.insert path.key (path.value, index)) (made ++ [(path, index)]) := by
  refine ⟨fun key value step => ?_, ?_⟩
  · by_cases same : key = path.key
    · rw [same, AList.lookup_insert, Option.some.injEq, Prod.mk.injEq]
      constructor
      · rintro ⟨spelled, rfl⟩
        exact ⟨path, by simp, rfl, spelled⟩
      · rintro ⟨other, member, sameKey, spelled⟩
        rcases List.mem_append.mp member with inside | last
        · exact absurd (List.mem_map.mpr ⟨_, inside, sameKey⟩) (produced.notMem fresh)
        · obtain ⟨rfl, rfl⟩ := Prod.mk.inj (List.mem_singleton.mp last)
          exact ⟨spelled, rfl⟩
    · rw [AList.lookup_insert_ne same, produced.lookup key value step]
      refine exists_congr fun other => and_congr_left fun ⟨sameKey, _⟩ => ?_
      rw [List.mem_append, List.mem_singleton, Prod.mk.injEq]
      exact ⟨.inl, fun either => either.resolve_right fun ⟨is, _⟩ => same (is ▸ sameKey.symm)⟩
  · rw [List.map_append, List.map_singleton]
    refine List.Nodup.append produced.distinct (List.nodup_singleton _) ?_
    exact List.disjoint_singleton.mpr (produced.notMem fresh)

/-- The paths that steps make, each with the index of its step. -/
def madeBy (steps : List (BoundProcessorStep unicode)) : List (PortableRelativePath unicode × Nat) :=
  (steps.map (·.made)).zipIdx.flatMap fun (paths, index) => paths.map fun path => (path, index)

variable {index : Nat}

theorem mem_madeBy {steps : List (BoundProcessorStep unicode)} :
    (path, index) ∈ madeBy steps ↔ ∃ step, steps[index]? = some step ∧ path ∈ step.made := by
  unfold madeBy
  rw [List.mem_flatMap]
  constructor
  · rintro ⟨⟨paths, other⟩, member, inside⟩
    obtain ⟨same, makes, pair⟩ := List.mem_map.mp inside
    obtain ⟨rfl, rfl⟩ := Prod.mk.inj pair
    have found := List.mem_zipIdx_iff_getElem?.mp member
    rw [List.getElem?_map, Option.map_eq_some_iff] at found
    obtain ⟨step, there, rfl⟩ := found
    exact ⟨step, there, makes⟩
  · rintro ⟨step, found, makes⟩
    refine ⟨(step.made, index), List.mem_zipIdx_iff_getElem?.mpr ?_,
      List.mem_map.mpr ⟨path, makes, rfl⟩⟩
    rw [List.getElem?_map, found, Option.map_some]

theorem madeBy_append (steps : List (BoundProcessorStep unicode))
    (step : BoundProcessorStep unicode) :
    madeBy (steps ++ [step]) = madeBy steps ++ step.made.map fun path => (path, steps.length) := by
  unfold madeBy
  rw [List.map_append, List.zipIdx_append, List.flatMap_append, Nat.zero_add, List.length_map,
    List.map_singleton, List.zipIdx_singleton, List.flatMap_singleton]

theorem map_fst_madeBy (steps : List (BoundProcessorStep unicode)) :
    (madeBy steps).map (·.1) = steps.flatMap (·.made) := by
  induction steps using List.reverseRecOn with
  | nil => rfl
  | append_singleton steps step ih =>
    rw [madeBy_append, List.map_append, ih, List.flatMap_append,
      List.flatMap_singleton, List.map_map]
    exact congrArg _ (List.map_id _)

/-- What has been admitted of the outputs of a step, after those of the steps before it. -/
structure StepOutputs.Sound (earlier : List (PortableRelativePath unicode × Nat)) (index : Nat)
    (state : StepOutputs unicode) : Prop where
  produced : Produced state.producers
    (earlier ++ (state.outputs.map (·.artifact.relativePath)).map fun path => (path, index))
  current : Records state.current (state.outputs.map (·.artifact.relativePath))

theorem bindStepOutput_sound {earlier : List (PortableRelativePath unicode × Nat)}
    {state after : StepOutputs unicode}
    {declared : BoundProcessorArtifact unicode × BoundProcessorOutputExpectation}
    (ok : bindStepOutput index state declared = .ok after) (sound : state.Sound earlier index) :
    after.Sound earlier index := by
  unfold bindStepOutput at ok
  dsimp only at ok
  split at ok
  · split at ok <;> cases ok
  · rename_i fresh
    cases ok
    have unmade : state.current.lookup declared.1.relativePath.key = none := by
      refine Option.eq_none_iff_forall_not_mem.mpr fun value known => ?_
      obtain ⟨path, member, same, -⟩ := (sound.current _ value).mp known
      refine sound.produced.notMem fresh (List.mem_map.mpr ⟨(path, index), ?_, same⟩)
      exact List.mem_append_right _ (List.mem_map.mpr ⟨path, member, rfl⟩)
    constructor
    · rw [List.map_append, List.map_append, ← List.append_assoc]
      exact sound.produced.insert fresh index
    · rw [List.map_append]
      exact sound.current.insert unmade

/-! ### Steps -/

/-- The steps that have been bound: the producers of what they make are known, and so is all that
they take. -/
structure BoundSteps.Sound (data : ProcessorDataTable unicode) (state : BoundSteps unicode) :
    Prop where
  produced : Produced state.producers (madeBy state.steps)
  recorded : List.Forall₂ (fun taken dependencies =>
    Records dependencies (taken.map (·.relativePath))) (state.steps.map (·.taken data))
      state.dependencies
  bound : ∀ step ∈ state.steps, ∀ argument ∈ step.args, argument.Bound data step.made

variable {declaration : ProcessorDeclaration} {state : BoundSteps unicode}

theorem bindClientStep_sound {after : BoundSteps unicode}
    {recipeStep : Option (ForgeRecipeStep unicode)}
    (ok : bindClientStep data state recipeStep declaration = .ok after) (sound : state.Sound data) :
    after.Sound data := by
  unfold bindClientStep at ok
  simp only [bind_eq_ok, pure_eq_ok] at ok
  obtain ⟨-, -, jar, -, classpath, -, declared, -, bound, outputs, consumed, recorded,
    ⟨args, taken⟩, parsed, rfl⟩ := ok
  have made : bound.Sound (madeBy state.steps) state.steps.length := by
    refine @foldlM_invariant _ _ _ _ (StepOutputs.Sound (madeBy state.steps) state.steps.length)
      _ _ _ outputs (fun _ _ _ _ => bindStepOutput_sound) ⟨?_, records_empty⟩
    show Produced state.producers (madeBy state.steps ++ [])
    rw [List.append_nil]
    exact sound.produced
  have first := foldlM_recordProcessorDependency_records records_empty recorded
  rw [List.nil_append] at first
  obtain ⟨records, arguments⟩ := @foldlM_invariant _ _ _ _
    (fun state : List (BoundProcessorArgument unicode) × ProcessorDependencies =>
      Records state.2 ((jar :: classpath).map (·.relativePath) ++
        (state.1.flatMap (·.taken data)).map (·.relativePath)) ∧
      ∀ argument ∈ state.1, argument.Bound data (bound.outputs.map (·.artifact.relativePath)))
    _ _ _ parsed (fun _ _ _ _ => bindStepArgument_sound made.current)
    ⟨first.append_nil, fun _ member => absurd member List.not_mem_nil⟩
  refine ⟨?_, ?_, fun step member => ?_⟩
  · rw [madeBy_append]
    exact made.produced
  · rw [List.map_append]
    refine List.rel_append sound.recorded (.cons ?_ .nil)
    rw [← List.map_append] at records
    exact records
  · rcases List.mem_append.mp member with inside | last
    · exact sound.bound step inside
    · rw [List.mem_singleton.mp last]
      exact arguments

variable {recipe : Option (List (ForgeRecipeStep unicode))}

theorem bindProcessor_sound {after : BoundSteps unicode}
    (ok : bindProcessor data recipe state declaration = .ok after) (sound : state.Sound data) :
    after.Sound data := by
  unfold bindProcessor at ok
  obtain ⟨client, -, ok⟩ := bind_eq_ok.mp ok
  split at ok
  · exact bindClientStep_sound ok sound
  · cases ok
    exact sound

theorem boundSteps_sound {declarations : List ProcessorDeclaration} {bound : BoundSteps unicode}
    (ok : declarations.foldlM (bindProcessor data recipe) ⟨[], ∅, []⟩ = .ok bound) :
    bound.Sound data :=
  @foldlM_invariant _ _ _ _ (BoundSteps.Sound data) _ _ _ ok (fun _ _ _ _ => bindProcessor_sound)
    ⟨produced_empty, .nil, fun _ member => absurd member List.not_mem_nil⟩

end Axial.Minecraft
