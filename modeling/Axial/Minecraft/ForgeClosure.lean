/-
This file proves that a processor plan that is accepted is closed: what a step takes is made by
an earlier step or has a contract that carries what is selected at its path, no two artifacts
stand under one portable key, and each output ends in the game or in a later step.
-/

import Axial.Minecraft.ForgeReferences

namespace Axial.Minecraft

open Bytes Fallible List Option AList PortableRelativePath

variable {unicode : Unicode}

/-! ### Dependencies -/

variable {producers : ProcessorProducers} {external : InputContracts unicode}

/-- What a step takes is made by an earlier step, or has a contract. -/
def Supplied (producers : ProcessorProducers) (inputs : InputArtifactTable unicode)
    (consumer : Nat) (key : PortablePathKey) (value : String) : Prop :=
  (∃ producer < consumer, producers.lookup key = some (value, producer)) ∨
    ∃ path ∈ inputs, path.key = key ∧ path.value = value

variable {state after : BoundDependencies unicode} {consumer : Nat}
  {input : PortablePathKey × String}

/-- A dependency that is bound is on an earlier step, or on an artifact from outside. -/
theorem bindDependency_eq_ok
    (ok : bindDependency producers external consumer state input = .ok after) :
    (∃ producer < consumer, producers.lookup input.1 = some (input.2, producer) ∧
      after = { state with consumedOutputs := state.consumedOutputs.insert input.1 }) ∨
    producers.lookup input.1 = none ∧ ∃ contract, external.lookup input.1 = some contract ∧
      contract.path.value = input.2 ∧
      after = { state with
        inputContracts := state.inputContracts.insert contract.path contract.contract } := by
  unfold bindDependency at ok
  split at ok
  · rename_i produced producer made
    obtain ⟨spelled, ok⟩ := ite_throw_eq_ok.mp ok
    obtain ⟨earlier, ok⟩ := ite_throw_eq_ok.mp ok
    cases ok
    exact .inl ⟨producer, not_le.mp earlier, not_not.mp spelled ▸ made, rfl⟩
  · split at ok
    · cases ok
    · rename_i contract found
      obtain ⟨spelled, ok⟩ := ite_throw_eq_ok.mp ok
      cases ok
      exact .inr ⟨‹_›, contract, found, not_not.mp spelled, rfl⟩

/-- What the dependencies that are bound come to. -/
structure BoundDependencies.Sound (producers : ProcessorProducers)
    (external : InputContracts unicode) (dependencies : List ProcessorDependencies)
    (state : BoundDependencies unicode) : Prop where
  inputs : ∀ path contract, state.inputContracts.lookup path = some contract →
    external.lookup path.key = some ⟨path, contract⟩ ∧ producers.lookup path.key = none
  consumed : ∀ key ∈ state.consumedOutputs, ∃ consumer inputs,
    dependencies[consumer]? = some inputs ∧ ∃ value, inputs.lookup key = some value ∧
      ∃ producer < consumer, producers.lookup key = some (value, producer)

variable {dependencies : List ProcessorDependencies}

theorem bindDependency_sound {inputs : ProcessorDependencies}
    (here : dependencies[consumer]? = some inputs) (takes : inputs.lookup input.1 = some input.2)
    (keyed : ∀ key contract, external.lookup key = some contract → contract.path.key = key)
    (ok : bindDependency producers external consumer state input = .ok after)
    (sound : state.Sound producers external dependencies) :
    after.Sound producers external dependencies := by
  rcases bindDependency_eq_ok ok with ⟨producer, earlier, made, rfl⟩ |
    ⟨unmade, contract, found, -, rfl⟩
  · refine ⟨sound.inputs, fun key member => ?_⟩
    rcases mem_insert_iff.mp member with rfl | inside
    · exact ⟨consumer, inputs, here, input.2, takes, producer, earlier, made⟩
    · exact sound.consumed key inside
  · refine ⟨fun path other known => ?_, sound.consumed⟩
    by_cases same : path = contract.path
    · rw [same] at known ⊢
      cases (lookup_insert _).symm.trans known
      rw [keyed _ _ found]
      exact ⟨found, unmade⟩
    · exact sound.inputs path other ((lookup_insert_ne same).symm.trans known)

/-- Contracts of inputs are only added. -/
def Extends (before after : BoundDependencies unicode) : Prop :=
  ∀ path ∈ before.inputContracts, path ∈ after.inputContracts

theorem bindDependency_extends
    (ok : bindDependency producers external consumer state input = .ok after) :
    Extends state after := by
  rcases bindDependency_eq_ok ok with ⟨_, -, -, rfl⟩ | ⟨-, contract, -, -, rfl⟩
  · exact fun _ member => member
  · exact fun path member => (mem_insert _).mpr (.inr member)

theorem bindStepDependencies_extends {step : ProcessorDependencies × Nat}
    (ok : bindStepDependencies producers external state step = .ok after) : Extends state after :=
  @foldlM_rel _ _ _ _ Extends (fun _ _ member => member)
    (fun _ _ _ one two path member => two path (one path member)) _ _ _ ok
    fun _ _ _ _ => bindDependency_extends

/-- The entries of a table are what it is looked up for. -/
theorem mem_entries_map {Key Value : Type} [DecidableEq Key] {table : AList fun _ : Key => Value}
    {key : Key} {value : Value} :
    (key, value) ∈ table.entries.map (fun entry => (entry.1, entry.2)) ↔
      table.lookup key = some value := by
  rw [← mem_def, mem_lookup_iff, List.mem_map]
  constructor
  · rintro ⟨⟨_, _⟩, member, ⟨⟩⟩
    exact member
  · intro member
    exact ⟨_, member, rfl⟩

theorem bindStepDependencies_sound {step : ProcessorDependencies × Nat}
    (here : dependencies[step.2]? = some step.1)
    (keyed : ∀ key contract, external.lookup key = some contract → contract.path.key = key)
    (ok : bindStepDependencies producers external state step = .ok after)
    (sound : state.Sound producers external dependencies) :
    after.Sound producers external dependencies :=
  @foldlM_invariant _ _ _ _ (·.Sound producers external dependencies) _ _ _ ok
    (fun _ _ member _ => bindDependency_sound here (mem_entries_map.mp member) keyed) sound

variable {key : PortablePathKey} {value : String}

theorem bindStepDependencies_supplied {step : ProcessorDependencies × Nat}
    (keyed : ∀ key contract, external.lookup key = some contract → contract.path.key = key)
    (ok : bindStepDependencies producers external state step = .ok after)
    (takes : step.1.lookup key = some value) :
    Supplied producers after.inputContracts step.2 key value := by
  obtain ⟨before, middle, bound, -, below⟩ := @exists_step_of_foldlM _ _ _ _ Extends
    (fun _ _ member => member) (fun _ _ _ one two path member => two path (one path member))
    _ _ _ ok (fun _ _ _ _ => bindDependency_extends) _ (mem_entries_map.mpr takes)
  rcases bindDependency_eq_ok bound with ⟨producer, earlier, made, -⟩ |
    ⟨-, contract, found, spelled, rfl⟩
  · exact .inl ⟨producer, earlier, made⟩
  · refine .inr ⟨contract.path, below contract.path ?_, keyed _ _ found, spelled⟩
    exact (mem_insert _).mpr (.inl rfl)

theorem bindProcessorDependencyContracts_sound {bound : BoundDependencies unicode}
    (keyed : ∀ key contract, external.lookup key = some contract → contract.path.key = key)
    (ok : bindProcessorDependencyContracts dependencies producers external = .ok bound) :
    bound.Sound producers external dependencies ∧
      ∀ consumer inputs, dependencies[consumer]? = some inputs →
        ∀ key value, inputs.lookup key = some value →
          Supplied producers bound.inputContracts consumer key value := by
  unfold bindProcessorDependencyContracts at ok
  obtain ⟨-, -, ok⟩ := bind_eq_ok.mp ok
  constructor
  · refine @foldlM_invariant _ _ _ _ (·.Sound producers external dependencies) _ _ _ ok
      (fun _ step member _ => bindStepDependencies_sound (mem_zipIdx_iff_getElem?.mp member)
        keyed) ⟨fun path contract known => ?_, fun key member => absurd member not_mem_nil⟩
    rw [lookup_empty] at known
    cases known
  · intro consumer inputs here key value takes
    obtain ⟨before, after, step, -, below⟩ := @exists_step_of_foldlM _ _ _ _ Extends
      (fun _ _ member => member) (fun _ _ _ one two path member => two path (one path member))
      _ _ _ ok (fun _ _ _ _ => bindStepDependencies_extends) (inputs, consumer)
      (mem_zipIdx_iff_getElem?.mpr here)
    rcases bindStepDependencies_supplied keyed step takes with made | ⟨path, member, rest⟩
    · exact .inl made
    · exact .inr ⟨path, below path member, rest⟩

/-! ### Outputs -/

variable {consumed : List PortablePathKey} {finalInventory : FinalContracts unicode}

/-- The part of an output is what the final inventory and later steps make of it. -/
structure Classified (consumed : List PortablePathKey) (finalInventory : FinalContracts unicode)
    (output : BoundProcessorOutput unicode) : Prop where
  terminal : ∀ size, output.role = .terminal size → ∃ contract,
    finalInventory.lookup output.artifact.relativePath.key = some contract ∧
      contract.path = output.artifact.relativePath ∧ contract.size = size ∧
      ∀ sha1, contract.sha1 = some sha1 → output.expectation = .providerSha1 sha1
  intermediate : output.role = .intermediate →
    output.artifact.relativePath.key ∈ consumed ∧
      finalInventory.lookup output.artifact.relativePath.key = none

theorem classifyOutput_eq_ok {output after : BoundProcessorOutput unicode}
    (ok : classifyOutput consumed finalInventory output = .ok after) :
    after.artifact = output.artifact ∧ Classified consumed finalInventory after := by
  unfold classifyOutput at ok
  split at ok
  · rename_i contract found
    obtain ⟨same, ok⟩ := ite_throw_eq_ok.mp ok
    cases ok
    rw [not_or, not_not] at same
    refine ⟨rfl, ⟨?_, nofun⟩⟩
    rintro _ ⟨⟩
    refine ⟨contract, found, same.1, rfl, fun sha1 declared => ?_⟩
    have agrees := same.2
    rw [declared, any_some, decide_eq_true_eq] at agrees
    exact not_not.mp agrees
  · split at ok
    · cases ok
      exact ⟨rfl, ⟨nofun, fun _ => ⟨‹_›, ‹_›⟩⟩⟩
    · cases ok

variable {step : BoundProcessorStep unicode}

/-- A step that is classified is as it was but for the parts of its outputs. -/
theorem classifyStep_eq_ok {after : BoundProcessorStep unicode}
    (ok : classifyStep consumed finalInventory step = .ok after) :
    (∃ outputs, after = { step with outputs }) ∧ after.made = step.made ∧
      ∀ output ∈ after.outputs, Classified consumed finalInventory output := by
  unfold classifyStep at ok
  obtain ⟨outputs, classified, ok⟩ := bind_eq_ok.mp ok
  cases ok
  refine ⟨⟨outputs, rfl⟩, ?_, ?_⟩
  · refine map_of_mapM classified fun output after ok => ?_
    rw [(classifyOutput_eq_ok ok).1]
  · exact forall_of_mapM classified fun output after ok => (classifyOutput_eq_ok ok).2

theorem classifyProcessorOutputs_sound {data : ProcessorDataTable unicode}
    {bound : BoundSteps unicode} {steps : List (BoundProcessorStep unicode)}
    (ok : classifyProcessorOutputs consumed finalInventory bound.steps = .ok steps)
    (sound : bound.Sound data) :
    ({ bound with steps } : BoundSteps unicode).Sound data ∧
      ∀ step ∈ steps, ∀ output ∈ step.outputs, Classified consumed finalInventory output := by
  have made : steps.map (·.made) = bound.steps.map (·.made) :=
    map_of_mapM ok fun _ _ classified => (classifyStep_eq_ok classified).2.1
  have taken : steps.map (·.taken data) = bound.steps.map (·.taken data) := by
    refine map_of_mapM ok fun step after classified => ?_
    obtain ⟨⟨outputs, rfl⟩, -, -⟩ := classifyStep_eq_ok classified
    rfl
  refine ⟨⟨?_, ?_, ?_⟩, ?_⟩
  · show Produced bound.producers (madeBy steps)
    have same : madeBy steps = madeBy bound.steps := by
      unfold madeBy
      rw [made]
    rw [same]
    exact sound.produced
  · show List.Forall₂ _ (steps.map (·.taken data)) bound.dependencies
    rw [taken]
    exact sound.recorded
  · intro step member argument inside
    obtain ⟨earlier, before, classified⟩ := exists_input_of_mapM ok member
    obtain ⟨⟨outputs, rfl⟩, same, -⟩ := classifyStep_eq_ok classified
    rw [same]
    exact sound.bound earlier before argument inside
  · intro step member
    obtain ⟨earlier, -, classified⟩ := exists_input_of_mapM ok member
    exact (classifyStep_eq_ok classified).2.2

/-! ### The plan -/

variable {digest : List UInt8 → Fixed 20}

/-- A plan over the final inventory of libraries, and the artifacts that the installer embeds, is
closed, ordered and free of aliases. -/
structure BoundProcessorPlan.Closed (digest : List UInt8 → Fixed 20)
    (plans : List (LibraryArtifactPlan unicode))
    (embedded : List (AuthenticatedEmbeddedMavenArtifact unicode))
    (plan : BoundProcessorPlan unicode) : Prop where
  /-- What a step takes is made before, or comes from outside with what is selected there. -/
  supplied : ∀ consumer : Nat, ∀ step : BoundProcessorStep unicode, plan.steps[consumer]? = some step →
    ∀ artifact ∈ step.taken plan.data,
      (∃ producer < consumer, ∃ earlier : BoundProcessorStep unicode,
        plan.steps[producer]? = some earlier ∧ artifact.relativePath ∈ earlier.made) ∨
      ∃ contract, plan.inputArtifacts.lookup artifact.relativePath = some contract ∧
        Carries digest plans embedded artifact.relativePath contract
  /-- What is selected at a path is one library. -/
  selected : (plans.map (·.relativePath.key)).Nodup
  /-- A step takes nothing that it makes, under whatever spelling. -/
  apart : ∀ step ∈ plan.steps, ∀ artifact ∈ step.taken plan.data, ∀ path ∈ step.made,
    path.key ≠ artifact.relativePath.key
  /-- What it refers to as its own it makes. -/
  own : ∀ step ∈ plan.steps, ∀ argument ∈ step.args, ∀ artifact ∈ argument.own plan.data,
    artifact.relativePath ∈ step.made
  /-- No two outputs have one portable key. -/
  outputs : ((plan.steps.flatMap (·.made)).map (·.key)).Nodup
  /-- Nor have an output and an input. -/
  inputs : ∀ path ∈ plan.inputArtifacts, ∀ made ∈ plan.steps.flatMap (·.made), made.key ≠ path.key
  /-- What ends in the game is a library of it. -/
  terminal : ∀ step ∈ plan.steps, ∀ output ∈ step.outputs, ∀ size, output.role = .terminal size →
    ∃ library ∈ plans, library.relativePath = output.artifact.relativePath ∧
      library.expected.size = size ∧ ∀ declared, library.expected.sha1 = some declared →
        ∃ sha1, output.expectation = .providerSha1 sha1 ∧ SpellsSha1 declared sha1
  /-- What does not is taken by a later step. -/
  intermediate : ∀ producer : Nat, ∀ step : BoundProcessorStep unicode,
    plan.steps[producer]? = some step → ∀ output ∈ step.outputs, output.role = .intermediate →
      ∃ consumer > producer, ∃ later : BoundProcessorStep unicode,
        plan.steps[consumer]? = some later ∧ ∃ artifact ∈ later.taken plan.data,
          artifact.relativePath = output.artifact.relativePath
  /-- A token that is used has its data. -/
  tokens : ∀ step ∈ plan.steps, ∀ argument ∈ step.args, ∀ token ∈ argument.tokens,
    token ∈ plan.data
  /-- Data of the installer has its bytes. -/
  installerData : ∀ token path, plan.data.lookup token = some (.installerData path) →
    ∃ bytes, plan.installerData.lookup path = some bytes

/-- The steps and the dependencies of a plan, as they are bound. -/
structure BoundPlan (digest : List UInt8 → Fixed 20) (plans : List (LibraryArtifactPlan unicode))
    (embedded : List (AuthenticatedEmbeddedMavenArtifact unicode))
    (data : ProcessorDataTable unicode) (bound : BoundSteps unicode)
    (dependencies : BoundDependencies unicode)
    (contracts : ResolvedProcessorArtifactContracts unicode) : Prop where
  planned : Planned plans
  sound : contracts.Sound digest plans embedded
  embeds : ∀ artifact ∈ embedded, ∃ contract,
    contracts.externalInputs.lookup artifact.relativePath.key = some contract ∧
      contract.path = artifact.relativePath ∧ contract.contract.sha1 = digest artifact.bytes ∧
      contract.contract.size = some artifact.bytes.length
  stepped : bound.Sound data
  depends : dependencies.Sound bound.producers contracts.externalInputs bound.dependencies
  supplied : ∀ consumer inputs, bound.dependencies[consumer]? = some inputs →
    ∀ key value, inputs.lookup key = some value →
      Supplied bound.producers dependencies.inputContracts consumer key value
  classified : ∀ step ∈ bound.steps, ∀ output ∈ step.outputs,
    Classified dependencies.consumedOutputs contracts.finalInventory output

variable {path : PortableRelativePath unicode}

section BoundPlan

variable {plans : List (LibraryArtifactPlan unicode)}
  {embedded : List (AuthenticatedEmbeddedMavenArtifact unicode)}
  {data : ProcessorDataTable unicode} {bound : BoundSteps unicode}
  {dependencies : BoundDependencies unicode}
  {contracts : ResolvedProcessorArtifactContracts unicode}

/-- What a step takes is a dependency of it. -/
theorem BoundSteps.Sound.takes (sound : bound.Sound data)
    (here : bound.steps[consumer]? = some step) :
    ∃ inputs, bound.dependencies[consumer]? = some inputs ∧
      Records inputs ((step.taken data).map (·.relativePath)) := by
  refine exists_getElem?_of_forall₂ sound.recorded ?_
  rw [getElem?_map, here, map_some]

variable {index : Nat}

theorem BoundSteps.Sound.made_key (sound : bound.Sound data)
    (made : bound.producers.lookup key = some (value, index)) :
    ∃ step : BoundProcessorStep unicode, bound.steps[index]? = some step ∧
      ∃ path ∈ step.made, path.key = key ∧ path.value = value := by
  obtain ⟨path, member, rest⟩ := (sound.produced.lookup key value index).mp made
  obtain ⟨step, found, inside⟩ := mem_madeBy.mp member
  exact ⟨step, found, path, inside, rest⟩

theorem BoundSteps.Sound.lookup_made (sound : bound.Sound data)
    (here : bound.steps[index]? = some step) (member : path ∈ step.made) :
    bound.producers.lookup path.key = some (path.value, index) :=
  (sound.produced.lookup _ _ _).mpr ⟨path, mem_madeBy.mpr ⟨step, here, member⟩, rfl, rfl⟩

variable {artifact : BoundProcessorArtifact unicode}

section

variable (plan : BoundPlan digest plans embedded data bound dependencies contracts)

include plan

theorem BoundPlan.supplies (here : bound.steps[consumer]? = some step)
    (member : artifact ∈ step.taken data) :
    Supplied bound.producers dependencies.inputContracts consumer artifact.relativePath.key
      artifact.relativePath.value := by
  obtain ⟨inputs, there, records⟩ := plan.stepped.takes here
  refine plan.supplied consumer inputs there _ _ ((records _ _).mpr ?_)
  exact ⟨artifact.relativePath, List.mem_map.mpr ⟨artifact, member, rfl⟩, rfl, rfl⟩

theorem BoundPlan.carries {contract : BoundProcessorInputContract}
    (known : dependencies.inputContracts.lookup path = some contract) :
    Carries digest plans embedded path contract :=
  @carries_of_lookup _ _ _ _ _ plan.planned plan.sound plan.embeds ⟨path, contract⟩
    (plan.depends.inputs path contract known).1

theorem BoundPlan.comes (here : bound.steps[consumer]? = some step)
    (member : artifact ∈ step.taken data) :
    (∃ producer < consumer, ∃ earlier : BoundProcessorStep unicode,
      bound.steps[producer]? = some earlier ∧ artifact.relativePath ∈ earlier.made) ∨
    ∃ contract, dependencies.inputContracts.lookup artifact.relativePath = some contract ∧
      Carries digest plans embedded artifact.relativePath contract := by
  rcases plan.supplies here member with ⟨producer, before, made⟩ | ⟨path, inside, -, spelled⟩
  · obtain ⟨earlier, found, path, makes, -, spelled⟩ := plan.stepped.made_key made
    exact .inl ⟨producer, before, earlier, found, eq_of_value spelled ▸ makes⟩
  · rw [← eq_of_value spelled]
    obtain ⟨contract, known⟩ := isSome_iff_exists.mp (lookup_isSome.mpr inside)
    exact .inr ⟨contract, known, plan.carries known⟩

theorem BoundPlan.apart (inside : step ∈ bound.steps) (member : artifact ∈ step.taken data)
    (makes : path ∈ step.made) : path.key ≠ artifact.relativePath.key := by
  intro same
  obtain ⟨consumer, here⟩ := mem_iff_getElem?.mp inside
  have made := plan.stepped.lookup_made here makes
  rw [same] at made
  rcases plan.supplies here member with ⟨producer, before, other⟩ | ⟨input, known, sameKey, -⟩
  · obtain ⟨-, index⟩ := Prod.mk.inj (Option.some.inj (made.symm.trans other))
    exact absurd index before.ne'
  · obtain ⟨contract, found⟩ := isSome_iff_exists.mp (lookup_isSome.mpr known)
    have unmade := (plan.depends.inputs input contract found).2
    rw [sameKey, made] at unmade
    cases unmade

theorem BoundPlan.separate (known : path ∈ dependencies.inputContracts)
    {made : PortableRelativePath unicode} (member : made ∈ bound.steps.flatMap (·.made)) :
    made.key ≠ path.key := by
  intro same
  obtain ⟨step, inside, makes⟩ := mem_flatMap.mp member
  obtain ⟨index, here⟩ := mem_iff_getElem?.mp inside
  obtain ⟨contract, found⟩ := isSome_iff_exists.mp (lookup_isSome.mpr known)
  have unmade := (plan.depends.inputs path contract found).2
  rw [← same, plan.stepped.lookup_made here makes] at unmade
  cases unmade

theorem BoundPlan.ends {step : BoundProcessorStep unicode} (inside : step ∈ bound.steps)
    {output : BoundProcessorOutput unicode} (member : output ∈ step.outputs) {size : Option Nat}
    (role : output.role = .terminal size) :
    ∃ library ∈ plans, library.relativePath = output.artifact.relativePath ∧
      library.expected.size = size ∧ ∀ declared, library.expected.sha1 = some declared →
        ∃ sha1, output.expectation = .providerSha1 sha1 ∧ SpellsSha1 declared sha1 := by
  obtain ⟨contract, found, path, sized, agrees⟩ :=
    (plan.classified step inside output member).terminal size role
  obtain ⟨-, library, listed, expects⟩ := plan.sound.final _ _ found
  refine ⟨library, listed, expects.path.symm.trans path, expects.size.symm.trans sized,
    fun declared expected => ?_⟩
  obtain ⟨sha1, known, spells⟩ :=
    planSha1_spells (plan.planned.hex library listed) expects.sha1 expected
  exact ⟨sha1, agrees sha1 known, spells⟩

theorem BoundPlan.passes {producer : Nat} {step : BoundProcessorStep unicode}
    (here : bound.steps[producer]? = some step) {output : BoundProcessorOutput unicode}
    (member : output ∈ step.outputs) (role : output.role = .intermediate) :
    ∃ consumer > producer, ∃ later : BoundProcessorStep unicode,
      bound.steps[consumer]? = some later ∧
      ∃ artifact ∈ later.taken data, artifact.relativePath = output.artifact.relativePath := by
  obtain ⟨used, -⟩ := (plan.classified step (mem_of_getElem? here) output member).intermediate role
  obtain ⟨consumer, inputs, there, value, takes, maker, before, made⟩ :=
    plan.depends.consumed _ used
  have makes := plan.stepped.lookup_made here (List.mem_map.mpr ⟨output, member, rfl⟩)
  rw [makes] at made
  cases made
  obtain ⟨later, found⟩ : ∃ later, bound.steps[consumer]? = some later := by
    have bounded : consumer < bound.steps.length := by
      have length := plan.stepped.recorded.length_eq
      rw [length_map] at length
      rw [length]
      exact (List.getElem?_eq_some_iff.mp there).1
    exact ⟨_, getElem?_eq_getElem bounded⟩
  obtain ⟨recorded, same, records⟩ := plan.stepped.takes found
  rw [there] at same
  cases same
  obtain ⟨path, listed, -, spelled⟩ := (records _ _).mp takes
  obtain ⟨artifact, inside, rfl⟩ := List.mem_map.mp listed
  exact ⟨consumer, before, later, found, artifact, inside,
    eq_of_value spelled⟩

end

end BoundPlan

/-- A plan that is structurally complete holds the data of the installer that it names. -/
theorem installerData_of_isComplete {plan : BoundProcessorPlan unicode}
    (complete : plan.isStructurallyComplete = true) {token : String}
    (found : plan.data.lookup token = some (.installerData path)) :
    ∃ bytes, plan.installerData.lookup path = some bytes := by
  unfold BoundProcessorPlan.isStructurallyComplete at complete
  rw [Bool.and_eq_true, Bool.and_eq_true, Bool.and_eq_true] at complete
  have entry := List.all_eq_true.mp complete.1.1.2 _ (mem_lookup_iff.mp found)
  have held : path ∈ plan.installerData := of_decide_eq_true (Bool.and_eq_true_iff.mp entry).2
  exact isSome_iff_exists.mp (lookup_isSome.mpr held)

/-- Whatever is accepted is closed, over the libraries that it leaves. -/
theorem bindForgeProcessorPlan_closed {regex : Regex} {env : Environment}
    {derivation : ProcessorDerivation} {installer : InstallerArchive} {record : LoaderBuildRecord}
    {version : LoaderProfileFragment} {profile : InstallProfileDeclarations}
    {libraries finalLibraries : List Library}
    {embedded : List (AuthenticatedEmbeddedMavenArtifact unicode)}
    {plan : BoundProcessorPlan unicode}
    (accepted : bindForgeProcessorPlan digest regex env derivation installer record version profile
      libraries embedded = .ok (finalLibraries, plan)) :
    ∃ plans, libraryArtifactPlansFor unicode regex finalLibraries env = .ok plans ∧
      plan.Closed digest plans embedded := by
  unfold bindForgeProcessorPlan at accepted
  simp only [bind_eq_ok, pure_eq_ok] at accepted
  obtain ⟨-, -, -, -, -, -, data, -, ⟨_, recipe⟩, -, contracts, resolved, installerData, -, bound,
    folded, dependencies, depends, steps, classified, -, -, ⟨⟩, complete, ⟨⟩⟩ := accepted
  rw [check_eq_ok] at complete
  obtain ⟨plans, planned, sound, embeds⟩ := resolvedProcessorArtifactContracts_sound resolved
  obtain ⟨dependent, supplied⟩ := bindProcessorDependencyContracts_sound
    (fun key contract found => (sound.external key contract found).1) depends
  obtain ⟨stepped, roles⟩ := classifyProcessorOutputs_sound classified (boundSteps_sound folded)
  have whole : BoundPlan digest plans embedded data { bound with steps } dependencies contracts :=
    ⟨planned_of_libraries planned, sound, embeds, stepped, dependent, supplied, roles⟩
  refine ⟨plans, planned, ?_⟩
  constructor
  · exact fun consumer step here artifact member => whole.comes here member
  · exact keys_nodup (planned_of_libraries planned) sound
  · exact fun step inside artifact member path makes => whole.apart inside member makes
  · exact fun step inside argument member => (whole.stepped.bound step inside argument member).own
  · rw [← map_fst_madeBy, List.map_map]
    exact whole.stepped.produced.distinct
  · exact fun path known made member => whole.separate known member
  · exact fun step inside output member size role => whole.ends inside member role
  · exact fun producer step here output member role => whole.passes here member role
  · exact fun step inside argument member => (whole.stepped.bound step inside argument member).tokens
  · exact fun token path => installerData_of_isComplete complete

/-- A tool that can be downloaded. -/
def sampleTool : Library where
  name := "a:tool:1"
  downloads := some ⟨some ⟨"a/tool/1/tool-1.jar", "0123456789abcdef0123456789abcdef01234567", 9,
    "https://libraries"⟩, []⟩
  url := ""
  rules := []
  natives := []
  sha1 := ""
  checksums := []
  size := 0

/-- A library that processors are to make. -/
def sampleGame : Library where
  name := "g:game:1"
  downloads := some ⟨some ⟨"g/game/1/game-1.jar", "", 0, ""⟩, []⟩
  url := ""
  rules := []
  natives := []
  sha1 := ""
  checksums := []
  size := 0

/-- The tool makes an artifact, and from it a library of the game. -/
def sampleProfile : InstallProfileDeclarations where
  processors := [
    ⟨"a:tool:1", [], ["--out", "[g:mid:1]"], ["client"],
      [("[g:mid:1]", "'0123456789abcdef0123456789abcdef01234567'")]⟩,
    ⟨"a:tool:1", [], ["--in", "[g:mid:1]", "\x7bOUT\x7d"], [],
      [("\x7bOUT\x7d", "'89abcdef0123456789abcdef0123456789abcdef'")]⟩]
  data := AList.insert "OUT" ⟨"[g:game:1]"⟩ ∅

def samplePlan : Except ForgeInstallerError (List Library × BoundProcessorPlan Unicode.plain) :=
  bindForgeProcessorPlan (fun _ => Fixed.zero 20) (fun _ _ => none)
    (defaultEnvironment "linux" "x86_64") 0 (.ok []) ⟨.forge, .forgeModern, "1", "1"⟩ ⟨"", none⟩
    sampleProfile [sampleTool, sampleGame] []

theorem bindForgeProcessorPlan_closed_sample :
    ∃ libraries plan plans, samplePlan = .ok (libraries, plan) ∧ plan.steps.length = 2 ∧
      plan.Closed (fun _ => Fixed.zero 20) plans [] := by
  have two : samplePlan.toOption.map (·.2.steps.length) = some 2 := by decide +kernel
  cases accepted : samplePlan with
  | error error =>
    rw [accepted] at two
    cases two
  | ok result =>
    rw [accepted] at two
    obtain ⟨plans, -, closed⟩ := bindForgeProcessorPlan_closed accepted
    exact ⟨result.1, result.2, plans, rfl, Option.some.inj two, closed⟩

end Axial.Minecraft
