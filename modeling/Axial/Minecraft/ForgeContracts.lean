/-
This file proves what the contracts of a processor plan carry: the digests of planned libraries
are decoded exactly, and every contract of an input or of a final artifact agrees with the
libraries and the embedded artifacts at its path.
-/

import Axial.Minecraft.ForgePlan

namespace Axial.Minecraft

open Bytes Fallible List Option AList

variable {unicode : Unicode}

theorem check_eq_ok {error : ForgeInstallerError} {holds : Bool} {passed : Unit} :
    check error holds = .ok passed ↔ holds = true := by
  cases holds
  · exact ⟨nofun, nofun⟩
  · exact ⟨fun _ => rfl, fun _ => rfl⟩

/-! ### Digests -/

theorem hexNibble_code : ∀ code < 0x80, isHexDigit (Char.ofNat code) = true →
    hexNibble (UInt8.ofNat code) < 16 ∧
      (Axial.Fs.hexDigit (hexNibble (UInt8.ofNat code))).toLower = (Char.ofNat code).toLower := by
  decide

variable {char : Char}

theorem toNat_of_isHexDigit (digit : isHexDigit char = true) : char.toNat < 0x80 := by
  have upper : ∀ bound : Char, char ≤ bound → char.toNat ≤ bound.toNat := fun bound below =>
    Char.le_def.mp below
  simp only [isHexDigit, Char.isDigit, Bool.or_eq_true, Bool.and_eq_true, decide_eq_true_eq]
    at digit
  rcases digit with (decimal | lower) | capital
  · exact lt_of_le_of_lt (upper '9' decimal.2) (by decide)
  · exact lt_of_le_of_lt (upper 'f' lower.2) (by decide)
  · exact lt_of_le_of_lt (upper 'F' capital.2) (by decide)

/-- A digit stands for a nibble that is written as the digit, up to its case. -/
theorem hexNibble_of_isHexDigit (digit : isHexDigit char = true) :
    hexNibble (UInt8.ofNat char.toNat) < 16 ∧
      (Axial.Fs.hexDigit (hexNibble (UInt8.ofNat char.toNat))).toLower = char.toLower := by
  have code := hexNibble_code char.toNat (toNat_of_isHexDigit digit)
  rw [Char.ofNat_toNat] at code
  exact code digit

/-- The two digits that a byte is written with. -/
def hexDigits (byte : UInt8) : List Char :=
  [Axial.Fs.hexDigit (byte.toNat / 16), Axial.Fs.hexDigit (byte.toNat % 16)]

theorem hexByte_of_digits {high low : Char} (first : isHexDigit high = true)
    (second : isHexDigit low = true) :
    ∃ byte, hexByte (UInt8.ofNat high.toNat) (UInt8.ofNat low.toNat) = some byte ∧
      (hexDigits byte).map Char.toLower = [high.toLower, low.toLower] := by
  obtain ⟨smallHigh, spellsHigh⟩ := hexNibble_of_isHexDigit first
  obtain ⟨smallLow, spellsLow⟩ := hexNibble_of_isHexDigit second
  have bound : hexNibble (UInt8.ofNat high.toNat) * 16 +
      hexNibble (UInt8.ofNat low.toNat) < 256 := by omega
  refine ⟨_, if_pos ⟨by omega, bound⟩, ?_⟩
  have value : (UInt8.ofNat (hexNibble (UInt8.ofNat high.toNat) * 16 +
      hexNibble (UInt8.ofNat low.toNat))).toNat =
      hexNibble (UInt8.ofNat high.toNat) * 16 + hexNibble (UInt8.ofNat low.toNat) :=
    UInt8.toNat_ofNat_of_lt' bound
  unfold hexDigits
  rw [value, show ∀ big small, small < 16 → (big * 16 + small) / 16 = big by omega,
    show ∀ big small, small < 16 → (big * 16 + small) % 16 = small by omega]
  · rw [map_cons, map_cons, map_nil, spellsHigh, spellsLow]
  · exact smallLow
  · exact smallLow

/-- Digits in pairs stand for bytes that are written as they are, up to their case. -/
theorem hexBytes_of_digits : ∀ {chars : List Char}, chars.length % 2 = 0 →
    (∀ char ∈ chars, isHexDigit char = true) →
    ∃ bytes, hexBytes (chars.map fun char => UInt8.ofNat char.toNat) = some bytes ∧
      bytes.length = chars.length / 2 ∧
      (bytes.flatMap hexDigits).map Char.toLower = chars.map Char.toLower
  | [], _, _ => ⟨[], rfl, rfl, rfl⟩
  | [_], even, _ => absurd even (by simp)
  | high :: low :: chars, even, digits => by
    obtain ⟨byte, here, spelled⟩ := hexByte_of_digits (digits high (by simp)) (digits low (by simp))
    obtain ⟨bytes, rest, length, later⟩ := @hexBytes_of_digits chars
      (by simp only [length_cons] at even; omega) fun char member => digits char (by simp [member])
    refine ⟨byte :: bytes, ?_, ?_, ?_⟩
    · simp only [map_cons, hexBytes, here, rest, Option.pure_def, bind_eq_bind,
        bind_some]
    · simp only [length_cons, length]
      omega
    · rw [flatMap_cons, map_append, spelled, later]
      rfl

/-- A digest as its declaration spells it. -/
def SpellsSha1 (declared : String) (sha1 : Fixed 20) : Prop :=
  eqIgnoreAsciiCase (encodeSha1 sha1) declared = true

variable {declared : String}

theorem decodeProcessorSha1_of_isSha1Hex (hex : isSha1Hex declared = true) :
    ∃ sha1, decodeProcessorSha1 declared = some sha1 ∧ SpellsSha1 declared sha1 := by
  unfold isSha1Hex at hex
  rw [Bool.and_eq_true, decide_eq_true_eq, List.all_eq_true] at hex
  obtain ⟨long, digits⟩ := hex
  have bytes : utf8 declared = declared.toList.map fun char => UInt8.ofNat char.toNat := by
    rw [← utf8_of_ascii fun char member => toNat_of_isHexDigit (digits char member),
      String.ofList_toList]
  have length : declared.toList.length = 40 := by rw [← long, bytes, length_map]
  obtain ⟨decoded, made, size, spelled⟩ :=
    hexBytes_of_digits (by rw [length]) digits
  refine ⟨⟨decoded, by rw [size, length]⟩, ?_, ?_⟩
  · rw [decodeProcessorSha1, if_pos long, bytes, made]
    exact (Fixed.ofList?_eq_some _ _).mpr rfl
  · exact decide_eq_true (congrArg String.ofList (by
      rw [encodeSha1, String.toList_ofList]
      exact spelled))

/-! ### Planned libraries -/

theorem isWhitespace_code : ∀ code < 0x80, isHexDigit (Char.ofNat code) = true →
    isWhitespace (Char.ofNat code) = false := by
  decide

theorem trim_of_isSha1Hex {value : String} (hex : isSha1Hex value = true) : trim value = value := by
  refine trim_eq_self fun char member => ?_
  have digit := List.all_eq_true.mp (Bool.and_eq_true_iff.mp hex).2 char member
  have code := isWhitespace_code char.toNat (toNat_of_isHexDigit digit)
  rw [Char.ofNat_toNat] at code
  exact code digit

theorem trim_empty : trim "" = "" := by
  decide

/-- A digest that is expected is spelled in hexadecimal. -/
def ExpectedIntegrity.Hex (expected : ExpectedIntegrity) : Prop :=
  ∀ declared, expected.sha1 = some declared → isSha1Hex declared = true

variable {size : Int}

theorem fromMojang_hex {sha1 : String} (hex : sha1 = "" ∨ isSha1Hex sha1 = true) :
    (ExpectedIntegrity.fromMojang size sha1).Hex := by
  intro declared expected
  unfold ExpectedIntegrity.fromMojang at expected
  dsimp only at expected
  split at expected
  · cases expected
  · rename_i some
    cases expected
    rcases hex with rfl | hex
    · exact absurd trim_empty some
    · rw [trim_of_isSha1Hex hex]
      exact hex

variable {legacy : Option String}

theorem legacySha1_hex {checksums : List String} (ok : legacySha1 checksums = .ok legacy)
    {checksum : String} (some : legacy = some checksum) : isSha1Hex checksum = true := by
  unfold legacySha1 at ok
  dsimp only at ok
  split at ok
  · rename_i all
    cases ok
    exact List.all_eq_true.mp all checksum (mem_of_head? some)
  · cases ok

variable {expected : ExpectedIntegrity}

theorem chosenIntegrity_hex {sha1 : String}
    (hex : ∀ checksum, legacy = some checksum → isSha1Hex checksum = true)
    (ok : chosenIntegrity size sha1 legacy = .ok expected) : expected.Hex := by
  unfold chosenIntegrity at ok
  split at ok
  · split at ok
    · cases ok
      exact fromMojang_hex (.inr ‹_›)
    · cases ok
  · split at ok
    · cases ok
      intro declared same
      cases same
      exact hex _ rfl
    · cases ok
      exact fromMojang_hex (.inl rfl)

variable {lib : Library}

theorem libraryExpectedIntegrity_hex {sha1 : String} {compareTopLevel : Bool}
    (ok : libraryExpectedIntegrity lib size sha1 compareTopLevel = .ok expected) :
    expected.Hex := by
  unfold libraryExpectedIntegrity at ok
  split at ok
  · split at ok
    · cases ok
    · rename_i sound
      cases ok
      refine fromMojang_hex ?_
      by_cases empty : trim sha1 = ""
      · exact .inl empty
      · exact .inr (not_not.mp fun other => sound ⟨empty, other⟩)
  · split at ok
    · cases ok
    · obtain ⟨legacy, read, ok⟩ := bind_eq_ok.mp ok
      exact chosenIntegrity_hex (fun checksum => legacySha1_hex read) ok

variable {plan : LibraryArtifactPlan unicode}

/-- A plan is made from a path and from what the library declares. -/
theorem plan_hex {located : Except LibraryPlanError (PortableRelativePath unicode)}
    {sha1 : String} {compareTopLevel native : Bool}
    {url : PortableRelativePath unicode → Option String}
    {name : PortableRelativePath unicode → String}
    (ok : (do
      let relativePath ← located
      let expected ← libraryExpectedIntegrity lib size sha1 compareTopLevel
      return some ⟨relativePath, url relativePath, name relativePath, expected, native⟩ :
        Except LibraryPlanError (Option (LibraryArtifactPlan unicode))) = .ok (some plan)) :
    plan.expected.Hex := by
  simp only [bind_eq_ok, pure_eq_ok] at ok
  obtain ⟨path, -, expected, integrity, same⟩ := ok
  cases same
  exact libraryExpectedIntegrity_hex integrity

theorem resolveLibraryPlan_hex (ok : resolveLibraryPlan unicode lib = .ok (some plan)) :
    plan.expected.Hex := by
  unfold resolveLibraryPlan at ok
  split at ok
  · exact plan_hex ok
  · split at ok
    · cases ok
    · exact plan_hex ok

theorem resolveNativePlan_hex {osName osArch : String}
    (ok : resolveNativePlan unicode lib osName osArch = .ok (some plan)) : plan.expected.Hex := by
  unfold resolveNativePlan at ok
  dsimp only at ok
  split at ok
  · exact plan_hex ok
  · split at ok
    · cases ok
    · exact plan_hex ok

/-- Plans stand under their paths. -/
def PlanTable.Sound (plans : PlanTable unicode) : Prop :=
  ∀ path plan, plans.lookup path = some plan → plan.relativePath = path ∧ plan.expected.Hex

theorem PlanTable.Sound.insertPlan {plans after : PlanTable unicode}
    {plan : Option (LibraryArtifactPlan unicode)} (sound : plans.Sound)
    (hex : ∀ planned, plan = some planned → planned.expected.Hex)
    (ok : insertPlan? plans plan = .ok after) : after.Sound := by
  cases plan with
  | none =>
    cases ok
    exact sound
  | some plan =>
    unfold insertPlan? Axial.Minecraft.insertPlan at ok
    dsimp only at ok
    split at ok
    · split at ok
      · cases ok
        exact sound
      · cases ok
    · cases ok
      intro path found
      by_cases same : path = plan.relativePath
      · rw [same, lookup_insert]
        rintro ⟨⟩
        exact ⟨rfl, hex plan rfl⟩
      · rw [lookup_insert_ne same]
        exact sound path found

variable {env : Environment} {regex : Regex}

theorem planLibrary_sound {plans after : PlanTable unicode}
    (ok : planLibrary regex env plans lib = .ok after) (sound : plans.Sound) : after.Sound := by
  unfold planLibrary at ok
  split at ok
  · cases ok
    exact sound
  · split at ok
    · cases ok
      exact sound
    · simp only [bind_eq_ok] at ok
      obtain ⟨direct, resolved, middle, inserted, native, resolvedNative, ok⟩ := ok
      refine PlanTable.Sound.insertPlan (PlanTable.Sound.insertPlan sound ?_ inserted) ?_ ok
      · rintro planned rfl
        exact resolveLibraryPlan_hex resolved
      · rintro planned rfl
        exact resolveNativePlan_hex resolvedNative

/-- Each path has one plan, whose digest is spelled in hexadecimal. -/
structure Planned (plans : List (LibraryArtifactPlan unicode)) : Prop where
  distinct : (plans.map (·.relativePath)).Nodup
  hex : ∀ plan ∈ plans, plan.expected.Hex

variable {plans : List (LibraryArtifactPlan unicode)} {libraries : List Library}

theorem planned_of_libraries (ok : libraryArtifactPlansFor unicode regex libraries env = .ok plans)
    : Planned plans := by
  obtain ⟨table, folded, same⟩ := bind_eq_ok.mp ok
  cases same
  have sound : table.Sound := @foldlM_invariant _ _ _ _ PlanTable.Sound _ _ _ folded
    (fun _ _ _ _ planned sound => planLibrary_sound planned sound)
    (fun _ _ found => by rw [lookup_empty] at found; cases found)
  have own (entry : Sigma fun _ : PortableRelativePath unicode => LibraryArtifactPlan unicode)
      (member : entry ∈ table.entries) :
      entry.2.relativePath = entry.1 ∧ entry.2.expected.Hex :=
    sound entry.1 entry.2 (mem_lookup_iff.mpr member)
  constructor
  · have keys : (table.entries.map (·.2)).map (·.relativePath) = table.keys := by
      rw [List.map_map]
      exact map_congr_left fun entry member => (own entry member).1
    rw [keys]
    exact table.keys_nodup
  · intro plan member
    obtain ⟨entry, inside, rfl⟩ := List.mem_map.mp member
    exact (own entry inside).2

/-! ### Contracts -/

/-- A contract of a final artifact is what a plan expects at its path. -/
structure ExactProcessorFinalContract.FromPlan (contract : ExactProcessorFinalContract unicode)
    (plan : LibraryArtifactPlan unicode) : Prop where
  path : contract.path = plan.relativePath
  sha1 : planSha1 plan = .ok contract.sha1
  size : contract.size = plan.expected.size

/-- A contract of an input is what a plan expects that can be downloaded. -/
structure ExactProcessorInputContract.FromPlan (contract : ExactProcessorInputContract unicode)
    (plan : LibraryArtifactPlan unicode) : Prop where
  path : contract.path = plan.relativePath
  url : plan.sourceUrl.isSome = true
  sha1 : planSha1 plan = .ok (some contract.contract.sha1)
  size : contract.contract.size = plan.expected.size
  source : contract.contract.source = .download

/-- A table only gains entries. -/
def Grows {Key Value : Type} [DecidableEq Key] (before after : AList fun _ : Key => Value) : Prop :=
  ∀ key value, before.lookup key = some value → after.lookup key = some value

variable {Value Key : Type}

theorem grows_insert [DecidableEq Key] {table : AList fun _ : Key => Value} {key : Key}
    {value : Value} (fresh : table.lookup key = none) : Grows table (table.insert key value) := by
  intro other found present
  have apart : other ≠ key := fun same => by
    rw [same, fresh] at present
    cases present
  rw [lookup_insert_ne apart]
  exact present

theorem Grows.refl [DecidableEq Key] (table : AList fun _ : Key => Value) :
    Grows table table := fun _ _ present => present

theorem Grows.trans [DecidableEq Key] {first second third : AList fun _ : Key => Value}
    (one : Grows first second) (two : Grows second third) : Grows first third :=
  fun key value present => two key value (one key value present)

variable {contract : ExactProcessorInputContract unicode}

/-- What an insertion of a contract of an input does. -/
theorem insertExactInputContract_eq_ok {contracts after : InputContracts unicode}
    (ok : insertExactInputContract contracts contract = .ok after) :
    after = contracts ∨ contracts.lookup contract.path.key = none ∧
      after = contracts.insert contract.path.key contract := by
  unfold insertExactInputContract at ok
  split at ok
  · obtain ⟨-, ok⟩ := ite_throw_eq_ok.mp ok
    obtain ⟨-, ok⟩ := ite_throw_eq_ok.mp ok
    cases ok
    exact .inl rfl
  · cases ok
    exact .inr ⟨‹_›, rfl⟩

/-- What an insertion of a contract of a final artifact does. -/
theorem insertExactFinalContract_eq_ok {contracts after : FinalContracts unicode}
    {contract : ExactProcessorFinalContract unicode}
    (ok : insertExactFinalContract contracts contract = .ok after) :
    Grows contracts after ∧ after.lookup contract.path.key = some contract ∧
      ∀ key found, after.lookup key = some found → found = contract ∧ key = contract.path.key ∨
        contracts.lookup key = some found := by
  unfold insertExactFinalContract at ok
  split at ok
  · rename_i existing present
    obtain ⟨samePath, ok⟩ := ite_throw_eq_ok.mp ok
    obtain ⟨same, ok⟩ := ite_throw_eq_ok.mp ok
    cases ok
    rw [not_or, not_not, not_not] at same
    have equal : existing = contract := by
      obtain ⟨path, sha1, size⟩ := existing
      obtain rfl : path = contract.path := not_not.mp samePath
      obtain ⟨rfl, rfl⟩ := same
      rfl
    exact ⟨.refl _, equal ▸ present, fun _ _ found => .inr found⟩
  · rename_i fresh
    cases ok
    refine ⟨grows_insert fresh, lookup_insert _, fun key found present => ?_⟩
    by_cases same : key = contract.path.key
    · rw [same, lookup_insert] at present
      cases present
      exact .inl ⟨rfl, same⟩
    · rw [lookup_insert_ne same] at present
      exact .inr present

/-- Every contract is of a plan, and stands under the key of its path. -/
structure ResolvedProcessorArtifactContracts.FromPlans
    (contracts : ResolvedProcessorArtifactContracts unicode)
    (plans : List (LibraryArtifactPlan unicode)) : Prop where
  final : ∀ key contract, contracts.finalInventory.lookup key = some contract →
    contract.path.key = key ∧ ∃ plan ∈ plans, contract.FromPlan plan
  external : ∀ key contract, contracts.externalInputs.lookup key = some contract →
    contract.path.key = key ∧ ∃ plan ∈ plans, contract.FromPlan plan

variable {sha1 : Option (Fixed 20)}

theorem insertPlanInput_fromPlans {contracts after : InputContracts unicode} (member : plan ∈ plans)
    (decoded : planSha1 plan = .ok sha1) (ok : insertPlanInput contracts plan sha1 = .ok after)
    (sound : ∀ key contract, contracts.lookup key = some contract →
      contract.path.key = key ∧ ∃ plan ∈ plans, contract.FromPlan plan) :
    ∀ key contract, after.lookup key = some contract →
      contract.path.key = key ∧ ∃ plan ∈ plans, contract.FromPlan plan := by
  unfold insertPlanInput at ok
  split at ok
  · rename_i known url source
    rcases insertExactInputContract_eq_ok ok with rfl | ⟨-, rfl⟩
    · exact sound
    · intro key contract found
      by_cases same : key = plan.relativePath.key
      · rw [same, lookup_insert] at found
        cases found
        exact ⟨same.symm, plan, member, rfl, isSome_of_eq_some source, decoded, rfl, rfl⟩
      · rw [lookup_insert_ne same] at found
        exact sound key contract found
  · cases ok
    exact sound

variable {contracts after : ResolvedProcessorArtifactContracts unicode}

theorem resolvePlanContract_eq_ok (ok : resolvePlanContract contracts plan = .ok after) :
    ∃ sha1, planSha1 plan = .ok sha1 ∧
      insertPlanInput contracts.externalInputs plan sha1 = .ok after.externalInputs ∧
      insertExactFinalContract contracts.finalInventory
        ⟨plan.relativePath, sha1, plan.expected.size⟩ = .ok after.finalInventory := by
  unfold resolvePlanContract at ok
  simp only [bind_eq_ok, pure_eq_ok] at ok
  obtain ⟨sha1, decoded, external, input, final, inventory, rfl⟩ := ok
  exact ⟨sha1, decoded, input, inventory⟩

theorem resolvePlanContract_fromPlans (member : plan ∈ plans)
    (ok : resolvePlanContract contracts plan = .ok after) (sound : contracts.FromPlans plans) :
    after.FromPlans plans := by
  obtain ⟨sha1, decoded, input, inventory⟩ := resolvePlanContract_eq_ok ok
  refine ⟨fun key contract found => ?_,
    insertPlanInput_fromPlans member decoded input sound.external⟩
  rcases (insertExactFinalContract_eq_ok inventory).2.2 key contract found with
    ⟨rfl, same⟩ | earlier
  · exact ⟨same.symm, plan, member, rfl, decoded, rfl⟩
  · exact sound.final key contract earlier

/-- Every plan has a contract of a final artifact. -/
theorem exists_final_of_plan {start : ResolvedProcessorArtifactContracts unicode}
    (folded : plans.foldlM resolvePlanContract start = .ok contracts) (member : plan ∈ plans) :
    ∃ contract, contracts.finalInventory.lookup plan.relativePath.key = some contract ∧
      contract.FromPlan plan := by
  obtain ⟨before, after, resolved, -, below⟩ := @exists_step_of_foldlM _ _ _ _
    (fun first second => Grows first.finalInventory second.finalInventory) (fun _ => .refl _)
    (fun _ _ _ => .trans) _ _ _ folded
    (fun _ _ _ _ ok =>
      let ⟨_, _, _, inventory⟩ := resolvePlanContract_eq_ok ok
      (insertExactFinalContract_eq_ok inventory).1) _ member
  obtain ⟨sha1, decoded, -, inventory⟩ := resolvePlanContract_eq_ok resolved
  exact ⟨_, below _ _ (insertExactFinalContract_eq_ok inventory).2.1, rfl, decoded, rfl⟩

variable {digest : List UInt8 → Fixed 20}

theorem embeddedAgrees_iff {path : PortableRelativePath unicode} {size : Option Nat} :
    embeddedAgrees path sha1 size contract = true ↔ path = contract.path ∧
      (∀ known, sha1 = some known → known = contract.contract.sha1) ∧
      ∀ known, size = some known → contract.contract.size = some known := by
  unfold embeddedAgrees
  rw [Bool.and_eq_true, Bool.and_eq_true, decide_eq_true_eq, and_assoc]
  refine and_congr_right fun _ => and_congr ?_ ?_
  · cases sha1 with
    | none => exact ⟨fun _ _ => nofun, fun _ => rfl⟩
    | some known =>
      rw [all_some, decide_eq_true_eq]
      exact ⟨by rintro rfl _ ⟨⟩; rfl, fun all => all known rfl⟩
  · cases size with
    | none => exact ⟨fun _ _ => nofun, fun _ => rfl⟩
    | some known =>
      rw [all_some, decide_eq_true_eq]
      exact ⟨by intro same _ other; cases other; exact same.symm,
        fun all => (all known rfl).symm⟩

variable {artifact : AuthenticatedEmbeddedMavenArtifact unicode}

/-- What an embedded artifact does to the contracts, with which it agrees. -/
theorem resolveEmbeddedContract_eq_ok
    (ok : resolveEmbeddedContract digest contracts artifact = .ok after) :
    after = { contracts with
      externalInputs := contracts.externalInputs.insert artifact.relativePath.key
        (embeddedContract digest artifact) } ∧
      (∀ known, contracts.finalInventory.lookup artifact.relativePath.key = some known →
        embeddedAgrees known.path known.sha1 known.size (embeddedContract digest artifact) = true) ∧
      ∀ known, contracts.externalInputs.lookup artifact.relativePath.key = some known →
        embeddedAgrees known.path (some known.contract.sha1) known.contract.size
          (embeddedContract digest artifact) = true := by
  unfold resolveEmbeddedContract at ok
  obtain ⟨⟨⟩, final, ok⟩ := bind_eq_ok.mp ok
  rw [check_eq_ok] at final
  have agrees (known : ExactProcessorFinalContract unicode)
      (present : contracts.finalInventory.lookup artifact.relativePath.key = some known) :
      embeddedAgrees known.path known.sha1 known.size (embeddedContract digest artifact) = true := by
    rw [show (embeddedContract digest artifact).path = artifact.relativePath from rfl, present] at final
    exact final
  split at ok
  · rename_i known present
    obtain ⟨⟨⟩, external, ok⟩ := bind_eq_ok.mp ok
    rw [check_eq_ok] at external
    rw [pure_eq_ok] at ok
    refine ⟨ok.symm, agrees, fun other found => ?_⟩
    rw [show (embeddedContract digest artifact).path = artifact.relativePath from rfl, found] at present
    cases present
    exact external
  · rename_i fresh
    obtain ⟨external, inserted, ok⟩ := bind_eq_ok.mp ok
    rw [pure_eq_ok] at ok
    refine ⟨?_, agrees, fun other found => ?_⟩
    · rcases insertExactInputContract_eq_ok inserted with same | ⟨-, rfl⟩
      · unfold insertExactInputContract at inserted
        rw [fresh] at inserted
        cases inserted
        exact ok.symm
      · exact ok.symm
    · rw [show (embeddedContract digest artifact).path = artifact.relativePath from rfl, found] at fresh
      cases fresh

/-- A contract of an input is of a plan, or of an embedded artifact that agrees with the plan. -/
def ExactProcessorInputContract.Sourced (digest : List UInt8 → Fixed 20)
    (plans : List (LibraryArtifactPlan unicode))
    (embedded : List (AuthenticatedEmbeddedMavenArtifact unicode))
    (final : FinalContracts unicode) (contract : ExactProcessorInputContract unicode) : Prop :=
  (∃ plan ∈ plans, contract.FromPlan plan) ∨
    (∃ artifact ∈ embedded, contract = embeddedContract digest artifact) ∧
      ∀ known, final.lookup contract.path.key = some known →
        embeddedAgrees known.path known.sha1 known.size contract = true

/-- A table of contracts only gains entries, and changes none but in what it had left open. -/
def Refines (before after : InputContracts unicode) : Prop :=
  ∀ key contract, before.lookup key = some contract →
    ∃ later, after.lookup key = some later ∧ later.path = contract.path ∧
      later.contract.sha1 = contract.contract.sha1 ∧
      ∀ size, contract.contract.size = some size → later.contract.size = some size

theorem Refines.refl (contracts : InputContracts unicode) : Refines contracts contracts :=
  fun _ contract present => ⟨contract, present, rfl, rfl, fun _ same => same⟩

theorem Refines.trans {first second third : InputContracts unicode} (one : Refines first second)
    (two : Refines second third) : Refines first third := by
  intro key contract present
  obtain ⟨middle, found, path, sha1, size⟩ := one key contract present
  obtain ⟨last, there, samePath, sameSha1, sameSize⟩ := two key middle found
  exact ⟨last, there, samePath.trans path, sameSha1.trans sha1,
    fun known same => sameSize known (size known same)⟩

theorem resolveEmbeddedContract_refines
    (ok : resolveEmbeddedContract digest contracts artifact = .ok after) :
    Refines contracts.externalInputs after.externalInputs := by
  obtain ⟨rfl, -, agrees⟩ := resolveEmbeddedContract_eq_ok ok
  intro key contract present
  by_cases same : key = artifact.relativePath.key
  · rw [same] at present
    obtain ⟨path, sha1, size⟩ := embeddedAgrees_iff.mp (agrees contract present)
    refine ⟨_, ?_, path.symm, (sha1 _ rfl).symm, size⟩
    rw [same]
    exact lookup_insert _
  · refine ⟨contract, ?_, rfl, rfl, fun _ known => known⟩
    exact (lookup_insert_ne same).trans present

/-- What the contracts that are resolved have to do with plans and embedded artifacts. -/
structure ResolvedProcessorArtifactContracts.Sound (digest : List UInt8 → Fixed 20)
    (plans : List (LibraryArtifactPlan unicode))
    (embedded : List (AuthenticatedEmbeddedMavenArtifact unicode))
    (contracts : ResolvedProcessorArtifactContracts unicode) : Prop where
  final : ∀ key contract, contracts.finalInventory.lookup key = some contract →
    contract.path.key = key ∧ ∃ plan ∈ plans, contract.FromPlan plan
  planned : ∀ plan ∈ plans, ∃ contract,
    contracts.finalInventory.lookup plan.relativePath.key = some contract ∧ contract.FromPlan plan
  external : ∀ key contract, contracts.externalInputs.lookup key = some contract →
    contract.path.key = key ∧ contract.Sourced digest plans embedded contracts.finalInventory

variable {embedded : List (AuthenticatedEmbeddedMavenArtifact unicode)}

theorem resolveEmbeddedContract_sound (member : artifact ∈ embedded)
    (ok : resolveEmbeddedContract digest contracts artifact = .ok after)
    (sound : contracts.Sound digest plans embedded) : after.Sound digest plans embedded := by
  obtain ⟨rfl, agrees, -⟩ := resolveEmbeddedContract_eq_ok ok
  refine ⟨sound.final, sound.planned, fun key contract found => ?_⟩
  by_cases same : key = artifact.relativePath.key
  · rw [same] at found
    cases (lookup_insert _).symm.trans found
    exact ⟨same.symm, .inr ⟨⟨artifact, member, rfl⟩, agrees⟩⟩
  · exact sound.external key contract ((lookup_insert_ne same).symm.trans found)

theorem resolvedProcessorArtifactContracts_sound
    (ok : resolvedProcessorArtifactContracts digest regex env libraries embedded = .ok contracts) :
    ∃ plans, libraryArtifactPlansFor unicode regex libraries env = .ok plans ∧
      contracts.Sound digest plans embedded ∧
      ∀ artifact ∈ embedded, ∃ contract,
        contracts.externalInputs.lookup artifact.relativePath.key = some contract ∧
        contract.path = artifact.relativePath ∧ contract.contract.sha1 = digest artifact.bytes ∧
        contract.contract.size = some artifact.bytes.length := by
  unfold resolvedProcessorArtifactContracts at ok
  split at ok
  · cases ok
  · rename_i plans planned
    obtain ⟨middle, resolved, ok⟩ := bind_eq_ok.mp ok
    have fromPlans : middle.FromPlans plans :=
      @foldlM_invariant _ _ _ _ (·.FromPlans plans) _ _ _ resolved
        (fun _ _ member _ => resolvePlanContract_fromPlans member)
        ⟨fun _ _ => nofun, fun _ _ => nofun⟩
    have first : middle.Sound digest plans embedded :=
      ⟨fromPlans.final, fun _ => exists_final_of_plan resolved,
        fun key contract found => (fromPlans.external key contract found).imp_right .inl⟩
    refine ⟨plans, planned, ?_, fun artifact member => ?_⟩
    · exact @foldlM_invariant _ _ _ _ (·.Sound digest plans embedded) _ _ _ ok
        (fun _ _ member _ => resolveEmbeddedContract_sound member) first
    · obtain ⟨before, after, embeds, -, below⟩ := @exists_step_of_foldlM _ _ _ _
        (fun first second => Refines first.externalInputs second.externalInputs)
        (fun _ => .refl _) (fun _ _ _ => .trans) _ _ _ ok
        (fun _ _ _ _ => resolveEmbeddedContract_refines) _ member
      obtain ⟨rfl, -, -⟩ := resolveEmbeddedContract_eq_ok embeds
      obtain ⟨later, found, path, sha1, size⟩ :=
        below artifact.relativePath.key (embeddedContract digest artifact) (lookup_insert _)
      exact ⟨later, found, path, sha1, size _ rfl⟩

/-- The contract of an input carries what is selected at its path. -/
structure Carries (digest : List UInt8 → Fixed 20) (plans : List (LibraryArtifactPlan unicode))
    (embedded : List (AuthenticatedEmbeddedMavenArtifact unicode))
    (path : PortableRelativePath unicode) (contract : BoundProcessorInputContract) : Prop where
  source : match contract.source with
    | .download => ∃ plan ∈ plans, plan.relativePath = path ∧ plan.sourceUrl.isSome = true ∧
        plan.expected.sha1.isSome = true ∧ contract.size = plan.expected.size
    | .embedded => ∃ artifact ∈ embedded, artifact.relativePath = path
  library : ∀ plan ∈ plans, plan.relativePath = path →
    (∀ declared, plan.expected.sha1 = some declared → SpellsSha1 declared contract.sha1) ∧
      ∀ size, plan.expected.size = some size → contract.size = some size
  embedded : ∀ artifact ∈ embedded, artifact.relativePath = path →
    contract.sha1 = digest artifact.bytes ∧ contract.size = some artifact.bytes.length

theorem planSha1_spells (hex : plan.expected.Hex) (ok : planSha1 plan = .ok sha1)
    (expected : plan.expected.sha1 = some declared) :
    ∃ decoded, sha1 = some decoded ∧ SpellsSha1 declared decoded := by
  obtain ⟨decoded, decodes, spells⟩ := decodeProcessorSha1_of_isSha1Hex (hex declared expected)
  unfold planSha1 at ok
  rw [expected] at ok
  dsimp only at ok
  rw [decodes] at ok
  cases ok
  exact ⟨decoded, rfl, spells⟩

theorem isSome_of_planSha1 {decoded : Fixed 20} (ok : planSha1 plan = .ok (some decoded)) :
    plan.expected.sha1.isSome = true := by
  unfold planSha1 at ok
  split at ok
  · cases ok
  · exact isSome_of_eq_some ‹_›

variable {second first : LibraryArtifactPlan unicode}

/-- A path names one plan. -/
theorem Planned.eq_of_path (planned : Planned plans) (one : first ∈ plans) (two : second ∈ plans)
    (same : first.relativePath = second.relativePath) : first = second :=
  inj_on_of_nodup_map planned.distinct one two same

/-- So does its portable key. -/
theorem eq_of_key (planned : Planned plans) (sound : contracts.Sound digest plans embedded)
    (one : first ∈ plans) (two : second ∈ plans)
    (same : first.relativePath.key = second.relativePath.key) : first = second := by
  obtain ⟨contract, found, here⟩ := sound.planned first one
  obtain ⟨other, there, also⟩ := sound.planned second two
  rw [same, there] at found
  cases found
  exact planned.eq_of_path one two (here.path.symm.trans also.path)

theorem keys_nodup (planned : Planned plans) (sound : contracts.Sound digest plans embedded) :
    (plans.map (·.relativePath.key)).Nodup :=
  List.Nodup.map_on (fun _ one _ two => eq_of_key planned sound one two)
    (List.Nodup.of_map _ planned.distinct)

/-- What stands under the key of a path, spelled as the path, carries what is selected there. -/
theorem carries_of_lookup {plans : List (LibraryArtifactPlan unicode)}
    {embedded : List (AuthenticatedEmbeddedMavenArtifact unicode)}
    {contracts : ResolvedProcessorArtifactContracts unicode} (planned : Planned plans)
    (sound : contracts.Sound digest plans embedded)
    (holds : ∀ artifact ∈ embedded, ∃ contract,
      contracts.externalInputs.lookup artifact.relativePath.key = some contract ∧
      contract.path = artifact.relativePath ∧ contract.contract.sha1 = digest artifact.bytes ∧
      contract.contract.size = some artifact.bytes.length)
    {contract : ExactProcessorInputContract unicode}
    (found : contracts.externalInputs.lookup contract.path.key = some contract) :
    Carries digest plans embedded contract.path contract.contract := by
  obtain ⟨-, sourced⟩ := sound.external _ _ found
  refine ⟨?_, fun plan member same => ?_, fun artifact member same => ?_⟩
  · rcases sourced with ⟨plan, member, made⟩ | ⟨⟨artifact, member, same⟩, -⟩
    · rw [made.source]
      exact ⟨plan, member, made.path.symm, made.url, isSome_of_planSha1 made.sha1, made.size⟩
    · rw [same]
      exact ⟨artifact, member, rfl⟩
  · rcases sourced with ⟨source, inside, made⟩ | ⟨-, agrees⟩
    · have equal : plan = source := planned.eq_of_path member inside (same.trans made.path)
      subst equal
      refine ⟨fun declared expected => ?_, fun size expected => made.size.trans expected⟩
      obtain ⟨decoded, known, spells⟩ := planSha1_spells (planned.hex plan member) made.sha1 expected
      cases known
      exact spells
    · obtain ⟨known, final, made⟩ := sound.planned plan member
      rw [same] at final
      obtain ⟨-, sameSha1, sameSize⟩ := embeddedAgrees_iff.mp (agrees known final)
      refine ⟨fun declared expected => ?_,
        fun size expected => sameSize size (made.size.trans expected)⟩
      obtain ⟨decoded, is, spells⟩ := planSha1_spells (planned.hex plan member) made.sha1 expected
      rw [← sameSha1 decoded is]
      exact spells
  · obtain ⟨other, there, path, sha1, size⟩ := holds artifact member
    rw [same, found] at there
    cases there
    exact ⟨sha1, size⟩

end Axial.Minecraft
