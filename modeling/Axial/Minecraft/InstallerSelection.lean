/-
This file is about the selection of the libraries of an installer: each selected plan is bound to
just one producer, which the declarations of the installer decide, and what is known of it
beforehand is entered under its path.
-/

import Axial.Minecraft.ForgeContracts
import Axial.Minecraft.InstallerLibraries

namespace Axial.Minecraft

open Bytes Reader Fallible Option AList

variable {unicode : Unicode}

/-! ### Plans -/

/-- The declaration of the library of a plan. -/
def declarationFor (plan : LibraryArtifactPlan unicode) (sha1 : Fixed 20) (size : Nat)
    (providerUrl : Option String) : SealedExactLibraryDeclaration unicode :=
  ⟨plan.relativePath, kindForPlan plan, sha1, size, providerUrl⟩

/-- A digest and a size are what a plan expects. -/
structure MeetsExpectation (plan : LibraryArtifactPlan unicode) (sha1 : Fixed 20) (size : Nat) :
    Prop where
  positive : 0 < size
  size : ∀ expected, plan.expected.size = some expected → expected = size
  sha1 : ∀ declared, plan.expected.sha1 = some declared → SpellsSha1 declared sha1

theorem eqIgnoreAsciiCase_comm {first second : String} :
    eqIgnoreAsciiCase first second = true ↔ eqIgnoreAsciiCase second first = true := by
  unfold eqIgnoreAsciiCase
  rw [decide_eq_true_eq, decide_eq_true_eq]
  exact eq_comm

variable {plan : LibraryArtifactPlan unicode} {sha1 : Fixed 20} {size : Nat}

theorem validatePlanContract_eq_ok {passed : Unit}
    (ok : validatePlanContract plan sha1 size = .ok passed) : MeetsExpectation plan sha1 size := by
  unfold validatePlanContract at ok
  obtain ⟨sized, ok⟩ := ite_throw_eq_ok.mp ok
  obtain ⟨spelled, -⟩ := ite_throw_eq_ok.mp ok
  rw [not_or] at sized
  refine ⟨Nat.pos_of_ne_zero sized.1, fun expected known => ?_, fun declared known => ?_⟩
  · have agrees := sized.2
    rw [known, any_some, decide_eq_true_eq] at agrees
    exact not_not.mp agrees
  · rw [known, any_some, decide_eq_true_eq] at spelled
    exact eqIgnoreAsciiCase_comm.mp (not_not.mp spelled)

theorem toDigit_eq_some {byte : UInt8} {digit : Nat} (read : toDigit byte = some digit) :
    hexNibble byte = digit ∧ digit < 16 := by
  unfold toDigit at read
  unfold hexNibble
  split at read
  · rename_i range
    cases read
    rw [if_pos range]
    have upper := UInt8.le_iff_toNat_le.mp range.2
    exact ⟨rfl, by rw [show (0x39 : UInt8).toNat = 57 from rfl] at upper; omega⟩
  · rename_i decimal
    rw [if_neg decimal]
    split at read
    · rename_i range
      cases read
      rw [if_pos range]
      have upper := UInt8.le_iff_toNat_le.mp range.2
      exact ⟨rfl, by rw [show (0x66 : UInt8).toNat = 102 from rfl] at upper; omega⟩
    · rename_i lower
      rw [if_neg lower]
      split at read
      · rename_i range
        cases read
        rw [if_pos range]
        have upper := UInt8.le_iff_toNat_le.mp range.2
        exact ⟨rfl, by rw [show (0x46 : UInt8).toNat = 70 from rfl] at upper; omega⟩
      · cases read

/-- On digits the decoder of the declarations reads what the one of the installer does. -/
theorem hexBytes_of_decodePairs : ∀ {bytes decoded : List UInt8},
    decodePairs bytes = some decoded → hexBytes bytes = some decoded
  | [], _, read => read
  | [_], _, read => read
  | first :: second :: rest, decoded, read => by
    simp only [decodePairs, bind_eq_some, pure_eq_some] at read
    obtain ⟨high, readHigh, low, readLow, later, readLater, rfl⟩ := read
    obtain ⟨isHigh, smallHigh⟩ := toDigit_eq_some readHigh
    obtain ⟨isLow, smallLow⟩ := toDigit_eq_some readLow
    have here : hexByte first second = some (UInt8.ofNat (high * 16 + low)) := by
      unfold hexByte
      rw [isHigh, isLow]
      exact if_pos ⟨by omega, by omega⟩
    simp only [hexBytes, here, hexBytes_of_decodePairs readLater, bind_eq_bind,
      bind_some, pure_def]

theorem decodeSha1_spells {declared : String} (ok : decodeSha1 declared = .ok sha1) :
    SpellsSha1 declared sha1 := by
  unfold decodeSha1 at ok
  obtain ⟨hex, ok⟩ := ite_throw_eq_ok.mp ok
  have digits := not_not.mp hex
  obtain ⟨other, decodes, spells⟩ := decodeProcessorSha1_of_isSha1Hex digits
  split at ok
  · cases ok
  · rename_i decoded read
    cases ok
    obtain ⟨bytes, pairs, fixed⟩ := bind_eq_some_iff.mp read
    unfold decodeProcessorSha1 at decodes
    split at decodes
    · rw [hexBytes_of_decodePairs pairs, bind_some, fixed] at decodes
      cases decodes
      exact spells
    · cases decodes

/-! ### Entries -/

variable {entries after : DeclarationTable unicode}

theorem insertExactDeclaration_eq_ok {downloadable : Bool}
    (ok : insertExactDeclaration entries plan sha1 size downloadable = .ok after) :
    0 < size ∧ after.lookup plan.relativePath = some (declarationFor plan sha1 size
        (if downloadable then plan.sourceUrl else none)) ∧
      ∀ path, path ≠ plan.relativePath → after.lookup path = entries.lookup path := by
  unfold insertExactDeclaration at ok
  obtain ⟨fresh, ok⟩ := ite_throw_eq_ok.mp ok
  cases ok
  rw [not_or] at fresh
  exact ⟨Nat.pos_of_ne_zero fresh.1, lookup_insert _, fun _ apart => lookup_insert_ne apart⟩

variable {Value Key : Type}

theorem mem_tableItems [DecidableEq Key] {table : AList fun _ : Key => Value} {item : Key × Value} :
    item ∈ tableItems table ↔ table.lookup item.1 = some item.2 := by
  unfold tableItems
  rw [← mem_def, mem_lookup_iff, List.mem_map]
  constructor
  · rintro ⟨entry, member, rfl⟩
    exact member
  · intro member
    exact ⟨_, member, rfl⟩

theorem tableItems_nodup (table : AList fun _ : Key => Value) :
    ((tableItems table).map (·.1)).Nodup := by
  unfold tableItems
  rw [List.map_map]
  exact table.nodupKeys

/-! ### Binding -/

theorem selectPlan_eq_ok {state after : PlanTable unicode × PortableSelection unicode}
    (ok : selectPlan state plan = .ok after) :
    state.1.lookup plan.relativePath = none ∧ state.2.lookup plan.relativePath.key = none ∧
      after = (state.1.insert plan.relativePath plan,
        state.2.insert plan.relativePath.key plan.relativePath) := by
  unfold selectPlan at ok
  obtain ⟨fresh, ok⟩ := ite_throw_eq_ok.mp ok
  cases ok
  rw [not_or] at fresh
  exact ⟨lookup_eq_none.mpr fresh.1, lookup_eq_none.mpr fresh.2, rfl⟩

theorem lookup_insert_ite [DecidableEq Key] {table : AList fun _ : Key => Value} {key name : Key}
    {value : Value} :
    (table.insert key value).lookup name = if name = key then some value else table.lookup name := by
  by_cases same : name = key
  · rw [if_pos same, same, lookup_insert]
  · rw [if_neg same, lookup_insert_ne same]

/-- The plans that are selected stand under their paths, and these under their keys. -/
theorem selectPlan_selected {plans : List (LibraryArtifactPlan unicode)}
    {selected : PlanTable unicode × PortableSelection unicode}
    (ok : plans.foldlM selectPlan (∅, ∅) = .ok selected) :
    (∀ path plan, selected.1.lookup path = some plan ↔ plan ∈ plans ∧ plan.relativePath = path) ∧
      ∀ plan ∈ plans, selected.2.lookup plan.relativePath.key = some plan.relativePath := by
  constructor
  · intro path plan
    have collected := @foldlM_collects _ _ _ _ _ _ (fun state path => state.1.lookup path)
      (·.relativePath) (fun _ => True) _ _ _ ok (fun _ => lookup_empty _)
      (fun before plan after bound => by
        obtain ⟨fresh, -, rfl⟩ := selectPlan_eq_ok bound
        exact .inl ⟨trivial, fresh, fun _ => lookup_insert_ite⟩) path plan
    rw [collected]
    exact and_congr_right fun _ => Iff.of_eq (true_and _)
  · intro plan member
    obtain ⟨before, after, bound, -, below⟩ := @exists_step_of_foldlM _ _ _ _
      (fun first second => Grows first.2 second.2) (fun _ => .refl _) (fun _ _ _ => .trans) _ _ _ ok
      (fun before plan _ after bound => by
        obtain ⟨-, fresh, rfl⟩ := selectPlan_eq_ok bound
        exact grows_insert fresh) _ member
    obtain ⟨-, -, rfl⟩ := selectPlan_eq_ok bound
    exact below _ _ (lookup_insert _)

variable {portable : PortableSelection unicode}

theorem bindTerminal_bound {contracts : List (InstallerTerminalOutputContract unicode)}
    {terminals : TerminalTable unicode}
    (ok : contracts.foldlM (bindTerminal portable) ∅ = .ok terminals) :
    ∀ path contract, terminals.lookup path = some contract ↔
      contract ∈ contracts ∧ contract.path = path := by
  intro path contract
  have collected := @foldlM_collects _ _ _ _ _ _
    (fun (state : TerminalTable unicode) path => state.lookup path) (·.path) (fun _ => True)
    _ _ _ ok (fun _ => lookup_empty _) (fun before terminal after bound => by
      unfold bindTerminal at bound
      split at bound
      · cases bound
      · obtain ⟨fresh, bound⟩ := ite_throw_eq_ok.mp bound
        cases bound
        rw [not_or] at fresh
        exact .inl ⟨trivial, lookup_eq_none.mpr fresh.2, fun _ => lookup_insert_ite⟩)
    path contract
  rw [collected]
  exact and_congr_right fun _ => Iff.of_eq (true_and _)

theorem bindEmbedded_bound {artifacts : List (AuthenticatedEmbeddedMavenArtifact unicode)}
    {bound : EmbeddedTable unicode × List (AuthenticatedEmbeddedMavenArtifact unicode)}
    (ok : artifacts.foldlM (bindEmbedded portable) (∅, []) = .ok bound) :
    ∀ path artifact, bound.1.lookup path = some artifact ↔
      artifact ∈ artifacts ∧ artifact.relativePath.key ∈ portable ∧
        artifact.relativePath = path :=
  @foldlM_collects _ _ _ _ _ _
    (fun (state : EmbeddedTable unicode × List (AuthenticatedEmbeddedMavenArtifact unicode)) path =>
      state.1.lookup path) (·.relativePath) (fun artifact => artifact.relativePath.key ∈ portable)
    _ _ _ ok (fun _ => lookup_empty _) fun before artifact after bound => by
      unfold bindEmbedded at bound
      split at bound
      · rename_i absent
        cases bound
        exact .inr ⟨lookup_eq_none.mp absent, fun _ => rfl⟩
      · rename_i known
        obtain ⟨fresh, bound⟩ := ite_throw_eq_ok.mp bound
        cases bound
        rw [not_or] at fresh
        exact .inl ⟨lookup_isSome.mp (isSome_of_eq_some known),
          lookup_eq_none.mpr fresh.2, fun _ => lookup_insert_ite⟩

variable {digest : List UInt8 → Fixed 20}

/-- How a library is bound by what is declared at its path, and what is known of it then. -/
inductive Binds (digest : List UInt8 → Fixed 20) (plan : LibraryArtifactPlan unicode) :
    Option (InstallerTerminalOutputContract unicode) →
    Option (AuthenticatedEmbeddedMavenArtifact unicode) → InstallerLibraryProducer unicode →
    Option (SealedExactLibraryDeclaration unicode) → Prop where
  | terminal (contract : InstallerTerminalOutputContract unicode) :
    Binds digest plan (some contract) none (.terminal contract) none
  | embedded (artifact : AuthenticatedEmbeddedMavenArtifact unicode)
    (meets : MeetsExpectation plan (digest artifact.bytes) artifact.bytes.length) :
    Binds digest plan none (some artifact) .embedded
      (some (declarationFor plan (digest artifact.bytes) artifact.bytes.length none))
  | exactNetwork (declared : String) (size : Nat) (sha1 : Fixed 20)
    (named : plan.expected.sha1 = some declared) (sized : plan.expected.size = some size)
    (positive : 0 < size) (decodes : decodeSha1 declared = .ok sha1) :
    Binds digest plan none none .exactNetwork
      (some (declarationFor plan sha1 size plan.sourceUrl))
  | freshNetwork (partly : ∀ declared size, plan.expected.sha1 = some declared →
      plan.expected.size = some size → ¬ 0 < size) :
    Binds digest plan none none .freshNetwork none

variable {producer : InstallerLibraryProducer unicode}

theorem bindNetwork_eq_ok (ok : bindNetwork entries plan = .ok (producer, after)) :
    ∃ known, Binds digest plan none none producer known ∧
      (entries.lookup plan.relativePath = none → after.lookup plan.relativePath = known) ∧
      ∀ path, path ≠ plan.relativePath → after.lookup path = entries.lookup path := by
  unfold bindNetwork at ok
  obtain ⟨-, ok⟩ := ite_throw_eq_ok.mp ok
  split at ok
  · rename_i declared size named sized
    split at ok
    · rename_i positive
      simp only [bind_eq_ok, pure_eq_ok] at ok
      obtain ⟨sha1, decodes, table, inserted, same⟩ := ok
      cases same
      obtain ⟨-, here, frame⟩ := insertExactDeclaration_eq_ok inserted
      exact ⟨_, .exactNetwork declared size sha1 named sized positive decodes, fun _ => here, frame⟩
    · rename_i zero
      cases ok
      refine ⟨none, .freshNetwork fun other otherSize _ known => ?_, id, fun _ _ => rfl⟩
      cases sized.symm.trans known
      exact zero
  · rename_i partly
    cases ok
    exact ⟨none, .freshNetwork fun declared size named sized => absurd sized (partly _ _ named),
      id, fun _ _ => rfl⟩

theorem bindProducer_eq_ok {terminal : Option (InstallerTerminalOutputContract unicode)}
    {embedded : Option (AuthenticatedEmbeddedMavenArtifact unicode)}
    (ok : bindProducer digest terminal embedded entries plan = .ok (producer, after)) :
    ∃ known, Binds digest plan terminal embedded producer known ∧
      (entries.lookup plan.relativePath = none → after.lookup plan.relativePath = known) ∧
      ∀ path, path ≠ plan.relativePath → after.lookup path = entries.lookup path := by
  unfold bindProducer at ok
  split at ok
  · cases ok
  · simp only [bind_eq_ok, pure_eq_ok] at ok
    obtain ⟨-, -, same⟩ := ok
    cases same
    exact ⟨none, .terminal _, id, fun _ _ => rfl⟩
  · simp only [bind_eq_ok, pure_eq_ok] at ok
    obtain ⟨⟨⟩, valid, table, inserted, same⟩ := ok
    cases same
    obtain ⟨-, here, frame⟩ := insertExactDeclaration_eq_ok inserted
    exact ⟨_, .embedded _ (validatePlanContract_eq_ok valid), fun _ => here, frame⟩
  · exact bindNetwork_eq_ok ok

/-- What the selection of the libraries has come to. -/
structure InstallerLibraryDeclarations.Selects (digest : List UInt8 → Fixed 20)
    (inputs : AuthenticatedInstallerLibraryInputs unicode) (environment : Environment)
    (plans : List (LibraryArtifactPlan unicode)) (bound : InstallerLibraryDeclarations unicode) :
    Prop where
  contract : bound.contract = ⟨inputs.libraries, environment⟩
  plan : ∀ path selected, bound.selected.lookup path = some selected →
    selected.plan ∈ plans ∧ selected.plan.relativePath = path
  selected : ∀ plan ∈ plans, ∃ producer terminal embedded,
    bound.selected.lookup plan.relativePath = some ⟨plan, producer⟩ ∧
      Binds digest plan terminal embedded producer (bound.entries.lookup plan.relativePath) ∧
      (∀ contract, terminal = some contract ↔
        contract ∈ inputs.terminalOutputs ∧ contract.path = plan.relativePath) ∧
      ∀ artifact, embedded = some artifact ↔
        artifact ∈ inputs.embeddedArtifacts ∧ artifact.relativePath = plan.relativePath
  entries : ∀ path, bound.selected.lookup path = none → bound.entries.lookup path = none

theorem bindInstallerLibraryDeclarations_selects {regex : Regex}
    {inputs : AuthenticatedInstallerLibraryInputs unicode} {environment : Environment}
    {bound : InstallerLibraryDeclarations unicode}
    (ok : bindInstallerLibraryDeclarations digest regex inputs environment = .ok bound) :
    ∃ plans, libraryArtifactPlansFor unicode regex inputs.libraries environment = .ok plans ∧
      bound.Selects digest inputs environment plans := by
  unfold bindInstallerLibraryDeclarations at ok
  split at ok
  · cases ok
  · rename_i plans planned
    simp only [bind_eq_ok] at ok
    obtain ⟨⟨selectedPaths, portable⟩, selects, terminals, terminal, ⟨embedded, workspace⟩, embeds,
      state, folded, ok⟩ := ok
    obtain ⟨-, ok⟩ := ite_throw_eq_ok.mp ok
    cases ok
    obtain ⟨stand, keyed⟩ := selectPlan_selected selects
    have item (entry : PortableRelativePath unicode × LibraryArtifactPlan unicode)
        (member : entry ∈ tableItems selectedPaths) :
        entry.2 ∈ plans ∧ entry.2.relativePath = entry.1 :=
      (stand _ _).mp (mem_tableItems.mp member)
    obtain ⟨each, frame⟩ := @foldlM_pointwise _ _ _ _ _ _
      (fun (state : SelectionState unicode) path =>
        (state.terminals.lookup path, state.selected.lookup path, state.entries.lookup path))
      (·.1) (fun item seen now => ∃ producer known,
        Binds digest item.2 seen.1 (embedded.lookup item.1) producer known ∧
          now.2.1 = some ⟨item.2, producer⟩ ∧ (seen.2.2 = none → now.2.2 = known))
      _ _ _ folded (tableItems_nodup _) fun before entry member after bound => by
        simp only [bindSelected, bind_eq_ok, pure_eq_ok] at bound
        obtain ⟨⟨producer, entries⟩, made, rfl⟩ := bound
        obtain ⟨known, binds, here, frame⟩ := bindProducer_eq_ok made
        have path := (item entry member).2
        rw [path] at here frame
        refine ⟨⟨producer, known, binds, lookup_insert _, here⟩, fun other apart => ?_⟩
        rw [lookup_erase_ne apart, lookup_insert_ne apart, frame other apart]
    refine ⟨plans, planned, rfl, fun path library found => ?_, fun plan member => ?_,
      fun path absent => ?_⟩
    · by_cases inside : path ∈ (tableItems selectedPaths).map (·.1)
      · obtain ⟨entry, member, rfl⟩ := List.mem_map.mp inside
        obtain ⟨producer, known, -, now, -⟩ := each entry member
        cases now.symm.trans found
        exact item entry member
      · have untouched : state.selected.lookup path = none :=
          congrArg (·.2.1) (frame path inside)
        cases untouched.symm.trans found
    · have member' : (plan.relativePath, plan) ∈ tableItems selectedPaths :=
        mem_tableItems.mpr ((stand _ _).mpr ⟨member, rfl⟩)
      obtain ⟨producer, known, binds, now, entered⟩ := each _ member'
      have same : state.entries.lookup plan.relativePath = known := entered rfl
      refine ⟨producer, terminals.lookup plan.relativePath, embedded.lookup plan.relativePath, now,
        same ▸ binds, fun contract => bindTerminal_bound terminal _ _, fun artifact => ?_⟩
      rw [bindEmbedded_bound embeds plan.relativePath artifact]
      refine and_congr_right fun _ => ⟨And.right, fun path => ⟨?_, path⟩⟩
      rw [path]
      exact lookup_isSome.mp (isSome_of_eq_some (keyed plan member))
    · by_cases inside : path ∈ (tableItems selectedPaths).map (·.1)
      · obtain ⟨entry, member, rfl⟩ := List.mem_map.mp inside
        obtain ⟨producer, known, -, now, -⟩ := each entry member
        cases now.symm.trans absent
      · exact congrArg (·.2.2) (frame path inside)

end Axial.Minecraft
