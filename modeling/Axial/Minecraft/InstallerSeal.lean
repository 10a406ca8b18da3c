/-
This file proves that an installation and a reconstruction of a loader seal the same libraries:
either path enters just the selected libraries, each as its one producer makes it, whatever of it
was declared before.
-/

import Axial.Minecraft.InstallerSelection

namespace Axial.Minecraft

open Bytes Fallible List Option

variable {unicode : Unicode} {digest : List UInt8 → Fixed 20}

/-! ### Steps of the two paths -/

/-- What the network enters of a selected library: nothing but what it streams. -/
def Streams (digest : List UInt8 → Fixed 20)
    (responses : PortableRelativePath unicode → List UInt8)
    (selected : InstallerSelectedLibrary unicode)
    (before after : Option (SealedExactLibraryDeclaration unicode)) : Prop :=
  match selected.producer with
  | .freshNetwork =>
    let bytes := responses selected.plan.relativePath
    MeetsExpectation selected.plan (digest bytes) bytes.length ∧
      after = some (declarationFor selected.plan (digest bytes) bytes.length selected.plan.sourceUrl)
  | .exactNetwork | .embedded | .terminal _ => after = before

/-- What processors enter of a selected library: nothing but what they make. -/
def Makes (digest : List UInt8 → Fixed 20) (made : PortableRelativePath unicode → List UInt8)
    (selected : InstallerSelectedLibrary unicode)
    (before after : Option (SealedExactLibraryDeclaration unicode)) : Prop :=
  match selected.producer with
  | .terminal contract =>
    let bytes := made selected.plan.relativePath
    MeetsExpectation selected.plan (digest bytes) bytes.length ∧
      (∀ sha1, contract.expectation = .providerSha1 sha1 → digest bytes = sha1) ∧
      (∀ size, contract.size = some size → bytes.length = size) ∧
      after = some (declarationFor selected.plan (digest bytes) bytes.length none)
  | .exactNetwork | .freshNetwork | .embedded => after = before

/-- What a declaration enters of a selected library in place of processors. -/
def Declares (selected : InstallerSelectedLibrary unicode)
    (before after : Option (SealedExactLibraryDeclaration unicode)) : Prop :=
  match selected.producer with
  | .terminal contract => ∃ sha1 size, contract.expectation = .providerSha1 sha1 ∧
      contract.size = some size ∧ after = some (declarationFor selected.plan sha1 size none)
  | .exactNetwork | .freshNetwork | .embedded => after = before

/-- Entries change as a relation says for the selected libraries, and nowhere else. -/
structure Advances (selected : SelectedTable unicode)
    (relates : PortableRelativePath unicode → InstallerSelectedLibrary unicode →
      Option (SealedExactLibraryDeclaration unicode) →
      Option (SealedExactLibraryDeclaration unicode) → Prop)
    (before after : DeclarationTable unicode) : Prop where
  each : ∀ path library, selected.lookup path = some library →
    relates path library (before.lookup path) (after.lookup path)
  others : ∀ path, selected.lookup path = none → after.lookup path = before.lookup path

variable {selected : SelectedTable unicode}

theorem Advances.mono
    {first second : PortableRelativePath unicode → InstallerSelectedLibrary unicode →
      Option (SealedExactLibraryDeclaration unicode) →
      Option (SealedExactLibraryDeclaration unicode) → Prop}
    {before after : DeclarationTable unicode} (advances : Advances selected first before after)
    (implies : ∀ path library, selected.lookup path = some library → ∀ one two,
      first path library one two → second path library one two) :
    Advances selected second before after :=
  ⟨fun path library found => implies path library found _ _ (advances.each path library found),
    advances.others⟩

/-- A loop over the selected libraries, each step of which sees just the input and the entry at
its path. -/
theorem advances_of_foldlM {State Value : Type} {selected : SelectedTable unicode}
    {step : State → PortableRelativePath unicode × InstallerSelectedLibrary unicode →
      Except SealedLibraryDeclarationError State}
    {inputs : State → PortableRelativePath unicode → Value}
    {entries : State → DeclarationTable unicode}
    {changes : PortableRelativePath unicode → InstallerSelectedLibrary unicode → Value →
      Option (SealedExactLibraryDeclaration unicode) →
      Option (SealedExactLibraryDeclaration unicode) → Prop} {start finish : State}
    (folded : (tableItems selected).foldlM step start = .ok finish)
    (each : ∀ before path library, selected.lookup path = some library → ∀ after,
      step before (path, library) = .ok after →
      changes path library (inputs before path) ((entries before).lookup path)
          ((entries after).lookup path) ∧
        ∀ other, other ≠ path → inputs after other = inputs before other ∧
          (entries after).lookup other = (entries before).lookup other) :
    Advances selected (fun path library => changes path library (inputs start path))
      (entries start) (entries finish) := by
  obtain ⟨changed, untouched⟩ := @foldlM_pointwise _ _ _ _ _ _
    (fun state path => (inputs state path, (entries state).lookup path)) (·.1)
    (fun item before after => changes item.1 item.2 before.1 before.2 after.2) _ _ _ folded
    (tableItems_nodup selected) fun before item member after stepped => by
      obtain ⟨now, frame⟩ := each before item.1 item.2 (mem_tableItems.mp member) after stepped
      exact ⟨now, fun other apart => Prod.ext (frame other apart).1 (frame other apart).2⟩
  refine ⟨fun path library found => changed (path, library) (mem_tableItems.mpr found),
    fun path absent => congrArg Prod.snd (untouched path fun inside => ?_)⟩
  obtain ⟨item, member, rfl⟩ := List.mem_map.mp inside
  have found := mem_tableItems.mp member
  rw [absent] at found
  cases found

/-- Libraries stand under the paths of their plans. -/
def Keyed (selected : SelectedTable unicode) : Prop :=
  ∀ path library, selected.lookup path = some library → library.plan.relativePath = path

/-! ### The network -/

variable {responses : PortableRelativePath unicode → List UInt8}

/-- The sources have been retained from the responses. -/
def Retains (digest : List UInt8 → Fixed 20)
    (responses : PortableRelativePath unicode → List UInt8)
    (sources : List (RetainedLibraryComponentSource unicode)) : Prop :=
  ∀ source ∈ sources, source.observedSha1 = digest (responses source.relativePath) ∧
    source.observedSize = (responses source.relativePath).length

/-- The proofs have been made of the responses. -/
def ProvesStreams (digest : List UInt8 → Fixed 20)
    (responses : PortableRelativePath unicode → List UInt8)
    (streamed : List (ExactLibraryDownloadProof unicode)) : Prop :=
  ∀ proof ∈ streamed, proof.sha1 = digest (responses proof.path) ∧
    proof.size = (responses proof.path).length

variable {path : PortableRelativePath unicode}
  {sources : List (RetainedLibraryComponentSource unicode)}

theorem collectSource_collects {table : SourceTable unicode}
    (ok : sources.foldlM collectSource ∅ = .ok table)
    {source : RetainedLibraryComponentSource unicode} (found : table.lookup path = some source) :
    source ∈ sources ∧ source.relativePath = path := by
  have collected := (@foldlM_collects _ _ _ _ _ _
    (fun (state : SourceTable unicode) path => state.lookup path) (·.relativePath) (fun _ => True)
    _ _ _ ok (fun _ => rfl) (fun before source after bound => by
      unfold collectSource at bound
      obtain ⟨fresh, bound⟩ := ite_throw_eq_ok.mp bound
      cases bound
      exact .inl ⟨trivial, AList.lookup_eq_none.mpr fresh, fun _ => lookup_insert_ite⟩)
    path source).mp found
  exact ⟨collected.1, collected.2.2⟩

variable {streamed : List (ExactLibraryDownloadProof unicode)}

theorem collectProof_collects {table : ProofTable unicode}
    (ok : streamed.foldlM collectProof ∅ = .ok table) {proof : ExactLibraryDownloadProof unicode}
    (found : table.lookup path = some proof) : proof ∈ streamed ∧ proof.path = path := by
  have collected := (@foldlM_collects _ _ _ _ _ _
    (fun (state : ProofTable unicode) path => state.lookup path) (·.path) (fun _ => True)
    _ _ _ ok (fun _ => rfl) (fun before proof after bound => by
      unfold collectProof at bound
      obtain ⟨-, bound⟩ := ite_throw_eq_ok.mp bound
      obtain ⟨fresh, bound⟩ := ite_throw_eq_ok.mp bound
      cases bound
      exact .inl ⟨trivial, AList.lookup_eq_none.mpr fresh, fun _ => lookup_insert_ite⟩)
    path proof).mp found
  exact ⟨collected.1, collected.2.2⟩

/-- What the network enters of a library, by the digest and the size that it has seen. -/
def StreamsFrom (seen : Option (Fixed 20 × Nat)) (library : InstallerSelectedLibrary unicode)
    (before after : Option (SealedExactLibraryDeclaration unicode)) : Prop :=
  match library.producer with
  | .freshNetwork => ∃ sha1 size, seen = some (sha1, size) ∧
      MeetsExpectation library.plan sha1 size ∧
      after = some (declarationFor library.plan sha1 size library.plan.sourceUrl)
  | .exactNetwork | .embedded | .terminal _ => after = before

variable {library : InstallerSelectedLibrary unicode}
  {before after : Option (SealedExactLibraryDeclaration unicode)}

theorem StreamsFrom.streams {seen : Option (Fixed 20 × Nat)}
    (changes : StreamsFrom seen library before after)
    (observed : ∀ sha1 size, seen = some (sha1, size) →
      sha1 = digest (responses library.plan.relativePath) ∧
        size = (responses library.plan.relativePath).length) :
    Streams digest responses library before after := by
  unfold StreamsFrom at changes
  unfold Streams
  split at changes
  · obtain ⟨sha1, size, saw, meets, entered⟩ := changes
    obtain ⟨rfl, rfl⟩ := observed sha1 size saw
    exact ⟨meets, entered⟩
  · exact changes
  · exact changes
  · exact changes

/-- What has been observed of a source. -/
def RetainedLibraryComponentSource.observed (source : RetainedLibraryComponentSource unicode) :
    Fixed 20 × Nat :=
  (source.observedSha1, source.observedSize)

def ExactLibraryDownloadProof.observed (proof : ExactLibraryDownloadProof unicode) :
    Fixed 20 × Nat :=
  (proof.sha1, proof.size)

/-- What the network of an installation does to the entry of a library. -/
theorem completeNetworkLibrary_eq_ok {state after : NetworkState unicode}
    (path_eq : library.plan.relativePath = path)
    (ok : completeNetworkLibrary state (path, library) = .ok after) :
    StreamsFrom ((state.sources.lookup path).map (·.observed)) library
        (state.entries.lookup path) (after.entries.lookup path) ∧
      ∀ other, other ≠ path →
        (after.sources.lookup other).map (·.observed) =
            (state.sources.lookup other).map (·.observed) ∧
          after.entries.lookup other = state.entries.lookup other := by
  unfold completeNetworkLibrary at ok
  obtain ⟨plan, producer⟩ := library
  cases producer with
  | embedded | terminal =>
    cases ok
    exact ⟨rfl, fun _ _ => ⟨rfl, rfl⟩⟩
  | exactNetwork =>
    dsimp only [InstallerLibraryProducer.acquisition] at ok
    split at ok
    · cases ok
    · obtain ⟨-, ok⟩ := ite_throw_eq_ok.mp ok
      simp only [bind_eq_ok, pure_eq_ok] at ok
      obtain ⟨⟨⟩, -, entries, completed, rfl⟩ := ok
      rw [completeSource, if_pos (by decide)] at completed
      split at completed
      · cases completed
      · obtain ⟨-, completed⟩ := ite_throw_eq_ok.mp completed
        cases completed
        exact ⟨rfl, fun other apart => ⟨congrArg _ (AList.lookup_erase_ne apart), rfl⟩⟩
  | freshNetwork =>
    dsimp only [InstallerLibraryProducer.acquisition] at ok
    split at ok
    · cases ok
    · rename_i source found
      obtain ⟨-, ok⟩ := ite_throw_eq_ok.mp ok
      simp only [bind_eq_ok, pure_eq_ok] at ok
      obtain ⟨⟨⟩, valid, entries, completed, rfl⟩ := ok
      rw [completeSource, if_neg (by decide)] at completed
      obtain ⟨-, here, frame⟩ := insertExactDeclaration_eq_ok completed
      dsimp only at path_eq here frame
      rw [path_eq] at here frame
      exact ⟨⟨_, _, congrArg _ found, validatePlanContract_eq_ok valid, here⟩,
        fun other apart => ⟨congrArg _ (AList.lookup_erase_ne apart), frame other apart⟩⟩

/-- What the network of a reconstruction does to the entry of a library. -/
theorem completeStreamedLibrary_eq_ok {state after : ProofTable unicode × DeclarationTable unicode}
    (path_eq : library.plan.relativePath = path)
    (ok : completeStreamedLibrary state (path, library) = .ok after) :
    StreamsFrom ((state.1.lookup path).map (·.observed)) library (state.2.lookup path)
        (after.2.lookup path) ∧
      ∀ other, other ≠ path →
        (after.1.lookup other).map (·.observed) = (state.1.lookup other).map (·.observed) ∧
          after.2.lookup other = state.2.lookup other := by
  unfold completeStreamedLibrary at ok
  obtain ⟨plan, producer⟩ := library
  cases producer with
  | embedded | terminal | exactNetwork =>
    cases ok
    exact ⟨rfl, fun _ _ => ⟨rfl, rfl⟩⟩
  | freshNetwork =>
    rw [if_neg (not_not.mpr rfl)] at ok
    split at ok
    · cases ok
    · rename_i proof found
      obtain ⟨-, ok⟩ := ite_throw_eq_ok.mp ok
      simp only [bind_eq_ok, pure_eq_ok] at ok
      obtain ⟨⟨⟩, valid, entries, inserted, rfl⟩ := ok
      obtain ⟨-, here, frame⟩ := insertExactDeclaration_eq_ok inserted
      dsimp only at path_eq here frame
      rw [path_eq] at here frame
      exact ⟨⟨_, _, congrArg _ found, validatePlanContract_eq_ok valid, here⟩,
        fun other apart => ⟨congrArg _ (AList.lookup_erase_ne apart), frame other apart⟩⟩

variable {pending : PendingInstallerTerminalDeclarations unicode}
  {declarations : InstallerLibraryDeclarations unicode}

theorem completeNetwork_streams (keyed : Keyed declarations.selected)
    (retains : Retains digest responses sources)
    (ok : declarations.completeNetwork sources = .ok pending) :
    pending.selected = declarations.selected ∧ pending.contract = declarations.contract ∧
      Advances declarations.selected (fun _ => Streams digest responses) declarations.entries
        pending.entries := by
  unfold InstallerLibraryDeclarations.completeNetwork at ok
  simp only [bind_eq_ok] at ok
  obtain ⟨table, collected, state, folded, ok⟩ := ok
  obtain ⟨-, ok⟩ := ite_throw_eq_ok.mp ok
  cases ok
  have advances := @advances_of_foldlM _ _ _ _ _
    (fun (state : NetworkState unicode) path => (state.sources.lookup path).map (·.observed))
    (·.entries) (fun _ library seen => StreamsFrom seen library) _ _ folded
    fun before path library found after stepped =>
      completeNetworkLibrary_eq_ok (keyed path library found) stepped
  refine ⟨rfl, rfl, advances.mono fun path library found one two now =>
    now.streams fun sha1 size saw => ?_⟩
  obtain ⟨source, there, same⟩ := map_eq_some_iff.mp saw
  cases same
  obtain ⟨member, at_path⟩ := collectSource_collects collected there
  rw [keyed _ _ found, ← at_path]
  exact retains source member

theorem completeReconstructionNetwork_streams {pending : InstallerLibraryDeclarations unicode}
    (keyed : Keyed declarations.selected) (proves : ProvesStreams digest responses streamed)
    (ok : declarations.completeReconstructionNetwork streamed = .ok pending) :
    pending.selected = declarations.selected ∧ pending.contract = declarations.contract ∧
      Advances declarations.selected (fun _ => Streams digest responses) declarations.entries
        pending.entries := by
  unfold InstallerLibraryDeclarations.completeReconstructionNetwork at ok
  simp only [bind_eq_ok] at ok
  obtain ⟨table, collected, state, folded, ok⟩ := ok
  obtain ⟨-, ok⟩ := ite_throw_eq_ok.mp ok
  cases ok
  have advances := @advances_of_foldlM _ _ _ _ _
    (fun (state : ProofTable unicode × DeclarationTable unicode) path =>
      (state.1.lookup path).map (·.observed))
    (·.2) (fun _ library seen => StreamsFrom seen library) _ _ folded
    fun before path library found after stepped =>
      completeStreamedLibrary_eq_ok (keyed path library found) stepped
  refine ⟨rfl, rfl, advances.mono fun path library found one two now =>
    now.streams fun sha1 size saw => ?_⟩
  obtain ⟨proof, there, same⟩ := map_eq_some_iff.mp saw
  cases same
  obtain ⟨member, at_path⟩ := collectProof_collects collected there
  rw [keyed _ _ found, ← at_path]
  exact proves proof member

/-! ### Outputs of processors -/

variable {made : PortableRelativePath unicode → List UInt8}

/-- The outputs are of the bytes that have been made. -/
def Outputs (made : PortableRelativePath unicode → List UInt8)
    (outputs : VerifiedProcessorOutputs unicode) : Prop :=
  ∀ path output, outputs.lookup path = some output → output.bytes = made path

variable {outputs : VerifiedProcessorOutputs unicode} {plan : LibraryArtifactPlan unicode}

/-- An output that is taken is as it says, and as its contract and its plan ask. -/
theorem terminalOutput_eq_ok {contract : InstallerTerminalOutputContract unicode}
    {output : VerifiedProcessorOutput}
    (ok : terminalOutput digest outputs path plan contract = .ok output) :
    outputs.lookup path = some output ∧ output.sha1 = digest output.bytes ∧
      output.size = output.bytes.length ∧ MeetsExpectation plan output.sha1 output.size ∧
      (∀ sha1, contract.expectation = .providerSha1 sha1 → output.sha1 = sha1) ∧
      ∀ size, contract.size = some size → output.size = size := by
  unfold terminalOutput at ok
  split at ok
  · cases ok
  · rename_i found there
    obtain ⟨same, expected, ok⟩ := bind_eq_ok.mp ok
    obtain ⟨sound, ok⟩ := ite_throw_eq_ok.mp ok
    simp only [bind_eq_ok, pure_eq_ok] at ok
    obtain ⟨⟨⟩, valid, rfl⟩ := ok
    unfold VerifiedProcessorOutput.forExpectation at expected
    obtain ⟨-, expected⟩ := ite_throw_eq_ok.mp expected
    simp only [not_or, ne_eq, not_not] at sound
    obtain ⟨-, sized, digested, fits⟩ := sound
    have sizes (size : Nat) (known : contract.size = some size) : same.size = size := by
      rw [known, any_some, decide_eq_true_eq] at fits
      exact (not_not.mp fits).symm
    split at expected
    · rename_i derivation derived
      cases expected
      refine ⟨there, digested, sized, validatePlanContract_eq_ok valid, fun sha1 known => ?_, sizes⟩
      rw [derived] at known
      cases known
    · rename_i sha1 provided
      split at expected
      · cases expected
      · rename_i agrees
        cases expected
        refine ⟨there, digested, sized, validatePlanContract_eq_ok valid, fun other known => ?_,
          sizes⟩
        rw [provided] at known
        cases known
        exact (not_not.mp agrees).symm

/-- What processors enter of a library, by the output that is there for it. -/
def MakesFrom (digest : List UInt8 → Fixed 20) (seen : Option VerifiedProcessorOutput)
    (library : InstallerSelectedLibrary unicode)
    (before after : Option (SealedExactLibraryDeclaration unicode)) : Prop :=
  match library.producer with
  | .terminal contract => ∃ output, seen = some output ∧
      MeetsExpectation library.plan (digest output.bytes) output.bytes.length ∧
      (∀ sha1, contract.expectation = .providerSha1 sha1 → digest output.bytes = sha1) ∧
      (∀ size, contract.size = some size → output.bytes.length = size) ∧
      after = some (declarationFor library.plan (digest output.bytes) output.bytes.length none)
  | .exactNetwork | .freshNetwork | .embedded => after = before

theorem MakesFrom.makes {seen : Option VerifiedProcessorOutput}
    (changes : MakesFrom digest seen library before after)
    (observed : ∀ output, seen = some output → output.bytes = made library.plan.relativePath) :
    Makes digest made library before after := by
  unfold MakesFrom at changes
  unfold Makes
  split at changes
  · obtain ⟨output, saw, rest⟩ := changes
    rw [observed output saw] at rest
    exact rest
  · exact changes
  · exact changes
  · exact changes

variable {retain : Bool}

theorem sealTerminalLibrary_eq_ok {state after : TerminalState unicode}
    (path_eq : library.plan.relativePath = path)
    (ok : sealTerminalLibrary digest retain state (path, library) = .ok after) :
    MakesFrom digest (state.outputs.lookup path) library (state.entries.lookup path)
        (after.entries.lookup path) ∧
      ∀ other, other ≠ path → after.outputs.lookup other = state.outputs.lookup other ∧
        after.entries.lookup other = state.entries.lookup other := by
  unfold sealTerminalLibrary at ok
  obtain ⟨plan, producer⟩ := library
  cases producer with
  | exactNetwork | freshNetwork | embedded =>
    cases ok
    exact ⟨rfl, fun _ _ => ⟨rfl, rfl⟩⟩
  | terminal contract =>
    dsimp only at ok path_eq
    obtain ⟨output, taken, ok⟩ := bind_eq_ok.mp ok
    obtain ⟨entries, inserted, ok⟩ := bind_eq_ok.mp ok
    obtain ⟨there, digested, sized, meets, provided, fits⟩ := terminalOutput_eq_ok taken
    obtain ⟨-, here, frame⟩ := insertExactDeclaration_eq_ok inserted
    rw [path_eq] at here frame
    rw [digested, sized] at meets here
    simp only [digested] at provided
    simp only [sized] at fits
    have left : after.outputs = state.outputs.erase path ∧ after.entries = entries := by
      split at ok
      · obtain ⟨source, -, ok⟩ := bind_eq_ok.mp ok
        cases ok
        exact ⟨rfl, rfl⟩
      · cases ok
        exact ⟨rfl, rfl⟩
    rw [left.1, left.2]
    exact ⟨⟨output, there, meets, provided, fits, here⟩,
      fun other apart => ⟨AList.lookup_erase_ne apart, frame other apart⟩⟩

theorem foldlM_sealTerminalLibrary {start finish : TerminalState unicode} (keyed : Keyed selected)
    (outputs : Outputs made start.outputs)
    (folded : (tableItems selected).foldlM (sealTerminalLibrary digest retain) start = .ok finish) :
    Advances selected (fun _ => Makes digest made) start.entries finish.entries := by
  have advances := @advances_of_foldlM _ _ _ _ _
    (fun (state : TerminalState unicode) path => state.outputs.lookup path) (·.entries)
    (fun _ library seen => MakesFrom digest seen library) _ _ folded
    fun before path library found after stepped =>
      sealTerminalLibrary_eq_ok (keyed path library found) stepped
  refine advances.mono fun path library found one two now => now.makes fun output saw => ?_
  rw [keyed _ _ found]
  exact outputs path output saw

theorem sealDeclaredLibrary_eq_ok {entries after : DeclarationTable unicode}
    (path_eq : library.plan.relativePath = path)
    (ok : sealDeclaredLibrary entries (path, library) = .ok after) :
    Declares library (entries.lookup path) (after.lookup path) ∧
      ∀ other, other ≠ path → () = () ∧ after.lookup other = entries.lookup other := by
  unfold sealDeclaredLibrary at ok
  obtain ⟨plan, producer⟩ := library
  cases producer with
  | exactNetwork | freshNetwork | embedded =>
    cases ok
    exact ⟨rfl, fun _ _ => ⟨rfl, rfl⟩⟩
  | terminal contract =>
    dsimp only at ok path_eq
    split at ok
    · rename_i sha1 size provided sized
      obtain ⟨⟨⟩, -, inserted⟩ := bind_eq_ok.mp ok
      obtain ⟨-, here, frame⟩ := insertExactDeclaration_eq_ok inserted
      rw [path_eq] at here frame
      exact ⟨⟨sha1, size, provided, sized, here⟩, fun other apart => ⟨rfl, frame other apart⟩⟩
    · cases ok
    · cases ok

theorem foldlM_sealDeclaredLibrary {start finish : DeclarationTable unicode}
    (keyed : Keyed selected)
    (folded : (tableItems selected).foldlM sealDeclaredLibrary start = .ok finish) :
    Advances selected (fun _ => Declares) start finish :=
  @advances_of_foldlM _ _ _ _ _ (fun _ _ => ()) id (fun _ library _ => Declares library) _ _ folded
    fun _ path library found _ stepped => sealDeclaredLibrary_eq_ok (keyed path library found) stepped

/-! ### The two paths -/

/-- What either path has entered of a selected library, from what was known of it. -/
def Seals (digest : List UInt8 → Fixed 20)
    (responses made : PortableRelativePath unicode → List UInt8)
    (library : InstallerSelectedLibrary unicode)
    (known sealed : Option (SealedExactLibraryDeclaration unicode)) : Prop :=
  match library.producer with
  | .exactNetwork | .embedded => sealed = known
  | .freshNetwork => Streams digest responses library known sealed
  | .terminal _ => Makes digest made library known sealed

variable {known middle : Option (SealedExactLibraryDeclaration unicode)}

theorem Streams.seals {sealed : Option (SealedExactLibraryDeclaration unicode)}
    (streams : Streams digest responses library known middle)
    (makes : Makes digest made library middle sealed) :
    Seals digest responses made library known sealed := by
  obtain ⟨plan, producer⟩ := library
  cases producer with
  | exactNetwork | embedded => exact Eq.trans makes streams
  | freshNetwork =>
    cases (makes : sealed = middle)
    exact streams
  | terminal contract => exact makes

/-- A library whose output has been made is sealed as it was declared. -/
theorem Streams.eq_of_declares {declared sealed : Option (SealedExactLibraryDeclaration unicode)}
    (streams : Streams digest responses library known middle)
    (declares : Declares library middle declared)
    (seals : Seals digest responses made library known sealed) : sealed = declared := by
  obtain ⟨plan, producer⟩ := library
  cases producer with
  | exactNetwork | embedded => exact Eq.trans seals (Eq.trans declares streams).symm
  | freshNetwork =>
    cases (declares : declared = middle)
    exact seals.2.trans streams.2.symm
  | terminal contract =>
    obtain ⟨sha1, size, provided, sized, entered⟩ := declares
    obtain ⟨-, digested, length, made⟩ := seals
    rw [made, entered, digested sha1 provided, length size sized]

theorem Seals.eq {first second : Option (SealedExactLibraryDeclaration unicode)}
    (one : Seals digest responses made library known first)
    (two : Seals digest responses made library known second) : first = second := by
  obtain ⟨plan, producer⟩ := library
  cases producer with
  | exactNetwork | embedded => exact Eq.trans one (Eq.symm two)
  | freshNetwork => exact one.2.trans two.2.symm
  | terminal contract => exact one.2.2.2.trans two.2.2.2.symm

/-- Entries that are as they were before processors ran, where none were to run. -/
theorem Makes.of_not_terminal (other : library.producer.isTerminal = false)
    (entry : Option (SealedExactLibraryDeclaration unicode)) :
    Makes digest made library entry entry := by
  obtain ⟨plan, producer⟩ := library
  cases producer with
  | exactNetwork | freshNetwork | embedded => exact rfl
  | terminal contract => cases other

variable {sealed : SealedInstallerLibrarySources unicode}

theorem sealWithoutTerminalOutputs_makes
    (ok : pending.sealWithoutTerminalOutputs digest = .ok sealed) :
    sealed.declarations.contract = pending.contract ∧
      Advances pending.selected (fun _ => Makes digest made) pending.entries
        sealed.declarations.entries := by
  unfold PendingInstallerTerminalDeclarations.sealWithoutTerminalOutputs at ok
  obtain ⟨plain, ok⟩ := ite_throw_eq_ok.mp ok
  simp only [bind_eq_ok, pure_eq_ok] at ok
  obtain ⟨sources, -, ⟨⟩, -, rfl⟩ := ok
  refine ⟨rfl, fun path library found => Makes.of_not_terminal ?_ _, fun _ _ => rfl⟩
  have all := (not_or.mp plain).1
  rw [Bool.not_eq_true, List.any_eq_false] at all
  exact Bool.eq_false_iff.mpr (all (path, library) (mem_tableItems.mpr found))

theorem sealTerminalOutputs_makes (keyed : Keyed pending.selected) (observed : Outputs made outputs)
    (ok : pending.sealTerminalOutputs digest outputs = .ok sealed) :
    sealed.declarations.contract = pending.contract ∧
      Advances pending.selected (fun _ => Makes digest made) pending.entries
        sealed.declarations.entries := by
  unfold PendingInstallerTerminalDeclarations.sealTerminalOutputs at ok
  obtain ⟨state, folded, ok⟩ := bind_eq_ok.mp ok
  obtain ⟨-, ok⟩ := ite_throw_eq_ok.mp ok
  obtain ⟨sources, -, ok⟩ := bind_eq_ok.mp ok
  obtain ⟨-, ok⟩ := ite_throw_eq_ok.mp ok
  simp only [bind_eq_ok, pure_eq_ok] at ok
  obtain ⟨⟨⟩, -, rfl⟩ := ok
  exact ⟨rfl, foldlM_sealTerminalLibrary keyed observed folded⟩

theorem sealObservedTerminalOutputs_makes {pending : InstallerLibraryDeclarations unicode}
    (keyed : Keyed pending.selected) (observed : Outputs made outputs)
    (ok : pending.sealObservedTerminalOutputs digest outputs retain = .ok sealed) :
    sealed.declarations.contract = pending.contract ∧
      Advances pending.selected (fun _ => Makes digest made) pending.entries
        sealed.declarations.entries := by
  unfold InstallerLibraryDeclarations.sealObservedTerminalOutputs at ok
  obtain ⟨state, folded, ok⟩ := bind_eq_ok.mp ok
  obtain ⟨-, ok⟩ := ite_throw_eq_ok.mp ok
  obtain ⟨-, ok⟩ := ite_throw_eq_ok.mp ok
  simp only [bind_eq_ok, pure_eq_ok] at ok
  obtain ⟨sources, -, rfl⟩ := ok
  exact ⟨rfl, foldlM_sealTerminalLibrary keyed observed folded⟩

theorem sealDeclaredTerminalOutputs_declares {pending : InstallerLibraryDeclarations unicode}
    (keyed : Keyed pending.selected)
    (ok : pending.sealDeclaredTerminalOutputs digest retain = .ok sealed) :
    sealed.declarations.contract = pending.contract ∧
      Advances pending.selected (fun _ => Declares) pending.entries sealed.declarations.entries := by
  unfold InstallerLibraryDeclarations.sealDeclaredTerminalOutputs at ok
  obtain ⟨-, ok⟩ := ite_throw_eq_ok.mp ok
  obtain ⟨entries, folded, ok⟩ := bind_eq_ok.mp ok
  obtain ⟨-, ok⟩ := ite_throw_eq_ok.mp ok
  simp only [bind_eq_ok, pure_eq_ok] at ok
  obtain ⟨sources, -, rfl⟩ := ok
  exact ⟨rfl, foldlM_sealDeclaredLibrary keyed folded⟩

variable {bound : InstallerLibraryDeclarations unicode}

/-- What an installation enters, over what was bound. -/
theorem install_seals {outputs : Option (VerifiedProcessorOutputs unicode)}
    (keyed : Keyed bound.selected) (retains : Retains digest responses sources)
    (observed : ∀ known, outputs = some known → Outputs made known)
    (ok : bound.install digest sources outputs = .ok sealed) :
    sealed.declarations.contract = bound.contract ∧
      Advances bound.selected (fun _ => Seals digest responses made) bound.entries
        sealed.declarations.entries := by
  unfold InstallerLibraryDeclarations.install InstallerLibraryDeclarations.intoNetworkJobs at ok
  simp only [bind_eq_ok, pure_eq_ok] at ok
  obtain ⟨⟨_, _⟩, ⟨jobs, -, ⟨⟩⟩, pending, completed, ok⟩ := ok
  obtain ⟨selected, contract, streams⟩ := completeNetwork_streams keyed retains completed
  have makes : sealed.declarations.contract = pending.contract ∧
      Advances pending.selected (fun _ => Makes digest made) pending.entries
        sealed.declarations.entries := by
    cases outputs with
    | none => exact sealWithoutTerminalOutputs_makes ok
    | some known => exact sealTerminalOutputs_makes (selected ▸ keyed) (observed known rfl) ok
  rw [selected, contract] at makes
  exact ⟨makes.1, fun path library found =>
    (streams.each path library found).seals (makes.2.each path library found),
    fun path absent => (makes.2.others path absent).trans (streams.others path absent)⟩

/-- What a reconstruction enters is what any installation of the same bytes enters. -/
theorem reconstruct_seals {outputs : Option (VerifiedProcessorOutputs unicode)}
    (keyed : Keyed bound.selected) (proves : ProvesStreams digest responses streamed)
    (observed : ∀ known, outputs = some known → Outputs made known)
    (ok : bound.reconstruct digest streamed outputs retain = .ok sealed) :
    sealed.declarations.contract = bound.contract ∧
      Advances bound.selected (fun _ library known rebuilt => ∀ installed,
        Seals digest responses made library known installed → installed = rebuilt) bound.entries
        sealed.declarations.entries := by
  unfold InstallerLibraryDeclarations.reconstruct
    InstallerLibraryDeclarations.intoReconstructionJobs at ok
  simp only [bind_eq_ok] at ok
  obtain ⟨pending, completed, ok⟩ := ok
  obtain ⟨selected, contract, streams⟩ := completeReconstructionNetwork_streams keyed proves completed
  cases outputs with
  | none =>
    obtain ⟨same, declares⟩ := sealDeclaredTerminalOutputs_declares (selected ▸ keyed) ok
    rw [selected] at declares
    exact ⟨same.trans contract, fun path library found installed seals =>
      (streams.each path library found).eq_of_declares (declares.each path library found) seals,
      fun path absent => (declares.others path absent).trans (streams.others path absent)⟩
  | some known =>
    obtain ⟨same, makes⟩ :=
      sealObservedTerminalOutputs_makes (selected ▸ keyed) (observed known rfl) ok
    rw [selected] at makes
    exact ⟨same.trans contract, fun path library found installed seals =>
      seals.eq ((streams.each path library found).seals (makes.each path library found)),
      fun path absent => (makes.others path absent).trans (streams.others path absent)⟩

/-! ### Producers -/

/-- No processor and no artifact of the installer provides a library. -/
structure FromNetwork (inputs : AuthenticatedInstallerLibraryInputs unicode)
    (plan : LibraryArtifactPlan unicode) : Prop where
  terminal : ∀ contract ∈ inputs.terminalOutputs, contract.path ≠ plan.relativePath
  embedded : ∀ artifact ∈ inputs.embeddedArtifacts, artifact.relativePath ≠ plan.relativePath

/-- A digest and a size of a library are declared. -/
def FullyDeclared (plan : LibraryArtifactPlan unicode) : Prop :=
  ∃ declared size, plan.expected.sha1 = some declared ∧ plan.expected.size = some size ∧ 0 < size

/-- What provides a library, by the inputs alone. -/
def Provides (inputs : AuthenticatedInstallerLibraryInputs unicode)
    (plan : LibraryArtifactPlan unicode) : InstallerLibraryProducer unicode → Prop
  | .exactNetwork => FromNetwork inputs plan ∧ FullyDeclared plan
  | .freshNetwork => FromNetwork inputs plan ∧ ¬ FullyDeclared plan
  | .embedded => ∃ artifact ∈ inputs.embeddedArtifacts, artifact.relativePath = plan.relativePath
  | .terminal contract => contract ∈ inputs.terminalOutputs ∧ contract.path = plan.relativePath

/-- The entry of a library is as its producer makes it. -/
def EntryOf (digest : List UInt8 → Fixed 20) (inputs : AuthenticatedInstallerLibraryInputs unicode)
    (responses made : PortableRelativePath unicode → List UInt8)
    (plan : LibraryArtifactPlan unicode) (entry : SealedExactLibraryDeclaration unicode) :
    InstallerLibraryProducer unicode → Prop
  | .exactNetwork => ∃ declared sha1 size, plan.expected.sha1 = some declared ∧
      SpellsSha1 declared sha1 ∧ plan.expected.size = some size ∧
      entry = declarationFor plan sha1 size plan.sourceUrl
  | .freshNetwork =>
    let bytes := responses plan.relativePath
    entry = declarationFor plan (digest bytes) bytes.length plan.sourceUrl
  | .embedded => ∃ artifact ∈ inputs.embeddedArtifacts,
      artifact.relativePath = plan.relativePath ∧
      entry = declarationFor plan (digest artifact.bytes) artifact.bytes.length none
  | .terminal _ =>
    let bytes := made plan.relativePath
    entry = declarationFor plan (digest bytes) bytes.length none

variable {embedded : Option (AuthenticatedEmbeddedMavenArtifact unicode)}
  {terminal : Option (InstallerTerminalOutputContract unicode)}
  {inputs : AuthenticatedInstallerLibraryInputs unicode}
  {producer : InstallerLibraryProducer unicode}

/-- A library that has been bound is provided by its producer, and by no other. -/
theorem Binds.provides (binds : Binds digest plan terminal embedded producer known)
    (terminals : ∀ contract, terminal = some contract ↔
      contract ∈ inputs.terminalOutputs ∧ contract.path = plan.relativePath)
    (artifacts : ∀ artifact, embedded = some artifact ↔
      artifact ∈ inputs.embeddedArtifacts ∧ artifact.relativePath = plan.relativePath)
    (other : InstallerLibraryProducer unicode) : Provides inputs plan other ↔ other = producer := by
  have network : FromNetwork inputs plan ↔ terminal = none ∧ embedded = none := by
    constructor
    · rintro ⟨noTerminal, noEmbedded⟩
      constructor
      · refine eq_none_iff_forall_ne_some.mpr fun contract is => ?_
        obtain ⟨member, path⟩ := (terminals contract).mp is
        exact noTerminal contract member path
      · refine eq_none_iff_forall_ne_some.mpr fun artifact is => ?_
        obtain ⟨member, path⟩ := (artifacts artifact).mp is
        exact noEmbedded artifact member path
    · rintro ⟨noTerminal, noEmbedded⟩
      refine ⟨fun contract member path => ?_, fun artifact member path => ?_⟩
      · cases noTerminal.symm.trans ((terminals contract).mpr ⟨member, path⟩)
      · cases noEmbedded.symm.trans ((artifacts artifact).mpr ⟨member, path⟩)
  have holds : ∀ candidate, Provides inputs plan candidate ↔ match candidate with
      | .exactNetwork => (terminal = none ∧ embedded = none) ∧ FullyDeclared plan
      | .freshNetwork => (terminal = none ∧ embedded = none) ∧ ¬ FullyDeclared plan
      | .embedded => embedded.isSome = true
      | .terminal contract => terminal = some contract := by
    intro candidate
    cases candidate with
    | exactNetwork | freshNetwork => exact and_congr_left fun _ => network
    | embedded =>
      rw [isSome_iff_exists]
      exact exists_congr fun artifact => (artifacts artifact).symm
    | terminal contract => exact (terminals contract).symm
  rw [holds]
  cases binds with
  | terminal contract =>
    cases other with
    | terminal chosen => exact ⟨fun same => by cases same; rfl, fun same => by cases same; rfl⟩
    | exactNetwork | freshNetwork => exact ⟨fun both => (by cases both.1.1), nofun⟩
    | embedded => exact ⟨nofun, nofun⟩
  | embedded artifact meets =>
    cases other with
    | terminal chosen => exact ⟨nofun, nofun⟩
    | exactNetwork | freshNetwork => exact ⟨fun both => (by cases both.1.2), nofun⟩
    | embedded => exact ⟨fun _ => rfl, fun _ => rfl⟩
  | exactNetwork declared size sha1 named sized positive decodes =>
    have full : FullyDeclared plan := ⟨declared, size, named, sized, positive⟩
    cases other with
    | terminal | embedded => exact ⟨nofun, nofun⟩
    | exactNetwork => exact ⟨fun _ => rfl, fun _ => ⟨⟨rfl, rfl⟩, full⟩⟩
    | freshNetwork => exact ⟨fun both => absurd full both.2, nofun⟩
  | freshNetwork partly =>
    have notFull : ¬ FullyDeclared plan := fun ⟨declared, size, named, sized, positive⟩ =>
      partly declared size named sized positive
    cases other with
    | terminal | embedded => exact ⟨nofun, nofun⟩
    | exactNetwork => exact ⟨fun both => absurd both.2 notFull, nofun⟩
    | freshNetwork => exact ⟨fun _ => rfl, fun _ => ⟨⟨rfl, rfl⟩, notFull⟩⟩

/-- A library that is sealed has the entry of its producer, which meets what its plan expects. -/
theorem Binds.entryOf {sealed : Option (SealedExactLibraryDeclaration unicode)}
    (binds : Binds digest plan terminal embedded producer known)
    (artifacts : ∀ artifact, embedded = some artifact ↔
      artifact ∈ inputs.embeddedArtifacts ∧ artifact.relativePath = plan.relativePath)
    (seals : Seals digest responses made ⟨plan, producer⟩ known sealed) :
    ∃ entry, sealed = some entry ∧ EntryOf digest inputs responses made plan entry producer ∧
      MeetsExpectation plan entry.sha1 entry.size := by
  cases binds with
  | terminal contract =>
    obtain ⟨meets, -, -, entered⟩ := seals
    exact ⟨_, entered, rfl, meets⟩
  | embedded artifact meets =>
    obtain ⟨member, path⟩ := (artifacts artifact).mp rfl
    exact ⟨_, seals, ⟨artifact, member, path, rfl⟩, meets⟩
  | exactNetwork declared size sha1 named sized positive decodes =>
    have spells := decodeSha1_spells decodes
    refine ⟨_, seals, ⟨declared, sha1, size, named, spells, sized, rfl⟩, positive, ?_, ?_⟩
    · intro expected known
      exact Option.some.inj (known.symm.trans sized)
    · intro other known
      cases named.symm.trans known
      exact spells
  | freshNetwork partly =>
    obtain ⟨meets, entered⟩ := seals
    exact ⟨_, entered, rfl, meets⟩

/-! ### Agreement -/

/-- Two declarations are of the same libraries: those that are selected, each from one producer. -/
structure SealAlike (digest : List UInt8 → Fixed 20)
    (inputs : AuthenticatedInstallerLibraryInputs unicode) (environment : Environment)
    (responses made : PortableRelativePath unicode → List UInt8)
    (plans : List (LibraryArtifactPlan unicode))
    (installed rebuilt : SealedExactLibraryDeclarations unicode) : Prop where
  entries : ∀ path, installed.entries.lookup path = rebuilt.entries.lookup path
  contract : installed.contract = rebuilt.contract
  own : installed.contract = ⟨inputs.libraries, environment⟩
  covers : ∀ path, path ∈ installed.entries ↔ ∃ plan ∈ plans, plan.relativePath = path
  producer : ∀ plan ∈ plans, ∃! producer, Provides inputs plan producer
  entry : ∀ plan ∈ plans, ∀ producer, Provides inputs plan producer →
    ∃ entry, installed.entries.lookup plan.relativePath = some entry ∧
      EntryOf digest inputs responses made plan entry producer ∧
      MeetsExpectation plan entry.sha1 entry.size

/-- An installation and a reconstruction that read the same bytes seal the same libraries. -/
theorem install_reconstruct_alike {regex : Regex}
    {inputs : AuthenticatedInstallerLibraryInputs unicode} {environment : Environment}
    {bound : InstallerLibraryDeclarations unicode}
    (accepted : bindInstallerLibraryDeclarations digest regex inputs environment = .ok bound)
    {sources : List (RetainedLibraryComponentSource unicode)}
    (retains : Retains digest responses sources)
    {streamed : List (ExactLibraryDownloadProof unicode)}
    (proves : ProvesStreams digest responses streamed)
    {outputs observed : Option (VerifiedProcessorOutputs unicode)}
    (installs : ∀ known, outputs = some known → Outputs made known)
    (observes : ∀ known, observed = some known → Outputs made known)
    {installed rebuilt : SealedInstallerLibrarySources unicode} {retain : Bool}
    (install : bound.install digest sources outputs = .ok installed)
    (reconstruct : bound.reconstruct digest streamed observed retain = .ok rebuilt) :
    ∃ plans, libraryArtifactPlansFor unicode regex inputs.libraries environment = .ok plans ∧
      SealAlike digest inputs environment responses made plans installed.declarations
        rebuilt.declarations := by
  obtain ⟨plans, planned, selects⟩ := bindInstallerLibraryDeclarations_selects accepted
  have keyed : Keyed bound.selected := fun path library found => (selects.plan path library found).2
  obtain ⟨contract, seals⟩ := install_seals keyed retains installs install
  obtain ⟨same, agrees⟩ := reconstruct_seals keyed proves observes reconstruct
  refine ⟨plans, planned, fun path => ?_, contract.trans same.symm, contract.trans selects.contract,
    fun path => ?_, fun plan member => ?_, fun plan member producer provides => ?_⟩
  · cases found : bound.selected.lookup path with
    | none => exact (seals.others path found).trans (agrees.others path found).symm
    | some library => exact agrees.each path library found _ (seals.each path library found)
  · rw [← AList.lookup_isSome]
    constructor
    · intro entered
      cases found : bound.selected.lookup path with
      | none =>
        rw [seals.others path found, selects.entries path found] at entered
        cases entered
      | some library => exact ⟨library.plan, selects.plan path library found⟩
    · rintro ⟨plan, member, rfl⟩
      obtain ⟨producer, terminal, embedded, found, binds, -, artifacts⟩ :=
        selects.selected plan member
      obtain ⟨entry, entered, -⟩ := binds.entryOf artifacts (seals.each _ _ found)
      exact isSome_of_eq_some entered
  · obtain ⟨producer, terminal, embedded, -, binds, terminals, artifacts⟩ :=
      selects.selected plan member
    exact ⟨producer, (binds.provides terminals artifacts producer).mpr rfl,
      fun other provides => (binds.provides terminals artifacts other).mp provides⟩
  · obtain ⟨chosen, terminal, embedded, found, binds, terminals, artifacts⟩ :=
      selects.selected plan member
    obtain rfl := (binds.provides terminals artifacts producer).mp provides
    exact binds.entryOf artifacts (seals.each _ _ found)

/-! ### An installer with every producer -/

def sampleLibrary (name sha1 : String) (size : Int) (url : String) : Library where
  name := name
  downloads := some ⟨some ⟨name, sha1, size, url⟩, []⟩
  url := ""
  rules := []
  natives := []
  sha1 := ""
  checksums := []
  size := 0

/-- The path of a single name. -/
def samplePath (name : String) (single : segments name = [name])
    (valid : nfc Unicode.plain name = name ∧ validateFileName name = true)
    (bounded : boundedPath name = true) : PortableRelativePath Unicode.plain :=
  ⟨name, by rw [single]; exact fun _ member => mem_singleton.mp member ▸ valid, bounded⟩

def exactPath := samplePath "exact.jar" (by decide +kernel) (by decide +kernel) (by decide +kernel)

def freshPath := samplePath "fresh.jar" (by decide +kernel) (by decide +kernel) (by decide +kernel)

def embeddedPath :=
  samplePath "embedded.jar" (by decide +kernel) (by decide +kernel) (by decide +kernel)

def terminalPath :=
  samplePath "terminal.jar" (by decide +kernel) (by decide +kernel) (by decide +kernel)

def zeroSha1 : String := "0000000000000000000000000000000000000000"

def zeroDigest (_ : List UInt8) : Fixed 20 := Fixed.zero 20

def sampleInputs : AuthenticatedInstallerLibraryInputs Unicode.plain where
  libraries := [sampleLibrary "exact.jar" zeroSha1 1 "https://exact",
    sampleLibrary "fresh.jar" "" 0 "https://fresh", sampleLibrary "embedded.jar" "" 0 "",
    sampleLibrary "terminal.jar" "" 0 ""]
  embeddedArtifacts := [⟨embeddedPath, [5]⟩]
  terminalOutputs := [⟨terminalPath, .derived 0, none⟩]

def sampleSources : List (RetainedLibraryComponentSource Unicode.plain) :=
  [⟨exactPath, .library, Fixed.zero 20, 1, some ("https://exact", ⟨some 1, some zeroSha1⟩)⟩,
    ⟨freshPath, .library, Fixed.zero 20, 1, some ("https://fresh", ⟨none, none⟩)⟩]

def sampleStreamed : List (ExactLibraryDownloadProof Unicode.plain) :=
  [⟨freshPath, false, "https://fresh", ⟨none, none⟩, 1, Fixed.zero 20⟩]

def sampleOutputs : VerifiedProcessorOutputs Unicode.plain :=
  AList.insert terminalPath ⟨[9], 1, Fixed.zero 20, .derived 0⟩ ∅

theorem sampleOutputs_made : ∀ known, some sampleOutputs = some known →
    Outputs (fun _ => [9]) known := by
  rintro _ ⟨⟩ path output found
  unfold sampleOutputs at found
  rw [lookup_insert_ite] at found
  split at found
  · cases found
    rfl
  · cases found

/-- Both paths, on the same bytes. -/
def sampleSealed : Except SealedLibraryDeclarationError
    (SealedInstallerLibrarySources Unicode.plain × SealedInstallerLibrarySources Unicode.plain) := do
  let bound ← bindInstallerLibraryDeclarations zeroDigest (fun _ _ => none) sampleInputs
    (defaultEnvironment "linux" "x86_64")
  let installed ← bound.install zeroDigest sampleSources (some sampleOutputs)
  let rebuilt ← bound.reconstruct zeroDigest sampleStreamed (some sampleOutputs) true
  return (installed, rebuilt)

theorem install_reconstruct_alike_sample : ∃ plans installed rebuilt,
    sampleSealed = .ok (installed, rebuilt) ∧
      installed.declarations.entries.entries.length = 4 ∧
      SealAlike zeroDigest sampleInputs (defaultEnvironment "linux" "x86_64") (fun _ => [7])
        (fun _ => [9]) plans installed.declarations rebuilt.declarations := by
  have four : sampleSealed.toOption.map (·.1.declarations.entries.entries.length) = some 4 := by
    decide +kernel
  cases ran : sampleSealed with
  | error error =>
    rw [ran] at four
    cases four
  | ok result =>
    rw [ran] at four
    have steps := ran
    simp only [sampleSealed, bind_eq_ok, pure_eq_ok] at steps
    obtain ⟨bound, accepted, installed, install, rebuilt, reconstruct, rfl⟩ := steps
    have retains : Retains zeroDigest (fun _ => [7]) sampleSources := by
      intro source member
      unfold sampleSources at member
      rcases mem_cons.mp member with rfl | member
      · exact ⟨rfl, rfl⟩
      · exact mem_singleton.mp member ▸ ⟨rfl, rfl⟩
    have proves : ProvesStreams zeroDigest (fun _ => [7]) sampleStreamed := fun proof member =>
      mem_singleton.mp member ▸ ⟨rfl, rfl⟩
    obtain ⟨plans, -, alike⟩ := install_reconstruct_alike accepted retains proves
      sampleOutputs_made sampleOutputs_made install reconstruct
    exact ⟨plans, installed, rebuilt, rfl, Option.some.inj four, alike⟩

end Axial.Minecraft
