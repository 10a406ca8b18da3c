/-
This file models where the files of a modpack go, `validate_pack_path` and
`validate_destinations` of `core/app/src/content/packs.rs`. A set of destinations is
accepted if their keys differ and none of them is a directory of another; so far this is
about keys. Besides, no destination is a record of the launcher, however its name is
spelled and however often it is marked as disabled.
-/

import Axial.App.ContentArtifact
import Axial.Minecraft.PortableNames

namespace Axial.App

open Bytes List Fallible
open Axial.Minecraft (Unicode segments joinSegments isAscii toAsciiLowercase Marks)

variable {unicode : Unicode}

/-! ### One destination -/

/-- The path of a text, once it is known to be one. -/
def pathKey (unicode : Unicode) (value : String) : String :=
  (PortablePathKey.fromNormalized unicode value).value

def managedDirectories : List String := ["mods", "resourcepacks", "shaderpacks"]

/-- Whether a name is one the launcher keeps for itself. -/
def componentIsReserved (unicode : Unicode) (component : String) : Bool :=
  (PortableFileName.newExact unicode component).any managedContentNameIsReserved

def validatePackPath (unicode : Unicode) (value : String) :
    Except PackError (PortableRelativePath unicode) :=
  match PortableRelativePath.newExact unicode value with
  | none => .error (.invalid "file uses an invalid portable path")
  | some path =>
    let components := segments value
    if 64 < components.length then .error (.invalid "file path is too deeply nested")
    else
      let first := components.headD value
      let firstKey := pathKey unicode first
      let managed := firstKey ∈ managedDirectories
      if managed ∧ first ≠ firstKey then
        .error (.invalid "managed directory spelling is not canonical")
      else
        let directManaged := managed ∧ components.length = 2
        if directManaged ∧ (endsWith path.fileName.key.value disabledSuffix = true ∨
            (path.fileName.withSuffix disabledSuffix).isNone = true) then
          .error (.invalid "managed file name is reserved")
        else if (components.zipIdx.any fun (component, position) =>
            (position = 0 ∨ directManaged) ∧ componentIsReserved unicode component) = true then
          .error (.invalid "launcher metadata paths are reserved")
        else .ok path

/-! ### Destinations together -/

/-- The keys of the directories above a key, the nearest one first, as `rsplit_once` finds
them. -/
def ancestorKeys (key : String) : List String :=
  ((List.range' 1 ((segments key).length - 1)).reverse).map fun depth =>
    joinSegments ((segments key).take depth)

/-- One turn of the loop over the destinations. -/
def insertDestination (unicode : Unicode) (keys : List (String × String)) (destination : String) :
    Except PackError (List (String × String)) := do
  let _ ← validatePackPath unicode destination
  if pathKey unicode destination ∈ keys.map Prod.fst then throw (.conflict destination)
  return keys ++ [(pathKey unicode destination, destination)]

/-- The ordered map is gone through by its keys. -/
def validateDestinations (unicode : Unicode) (destinations : List String) :
    Except PackError Unit := do
  let keys ← destinations.foldlM (insertDestination unicode) []
  (keys.mergeSort fun first second => decide (first.1 ≤ second.1)).forM fun (key, destination) =>
    if ∃ parent ∈ ancestorKeys key, parent ∈ keys.map Prod.fst then
      throw (.conflict destination)
    else pure ()

theorem mem_ancestorKeys {key parent : String} :
    parent ∈ ancestorKeys key ↔ ∃ rest, key = parent ++ "/" ++ rest := by
  unfold ancestorKeys
  simp only [mem_map, mem_reverse, mem_range'_1]
  constructor
  · rintro ⟨depth, ⟨some, within⟩, rfl⟩
    have inside : depth < (segments key).length := by omega
    refine ⟨joinSegments ((segments key).drop depth), ?_⟩
    rw [← Minecraft.joinSegments_append, take_append_drop, Minecraft.joinSegments_segments]
    · rw [Ne, take_eq_nil_iff]
      rintro (none | none)
      · omega
      · exact Minecraft.segments_ne_nil key none
    · rw [Ne, drop_eq_nil_iff]
      omega
  · rintro ⟨rest, rfl⟩
    have some := length_pos_iff.mpr (Minecraft.segments_ne_nil parent)
    have more := length_pos_iff.mpr (Minecraft.segments_ne_nil rest)
    refine ⟨(segments parent).length, ⟨some, ?_⟩, ?_⟩
    · rw [Minecraft.segments_append, length_append]
      omega
    · rw [Minecraft.segments_append, take_left, Minecraft.joinSegments_segments]

/-! ### Records of the launcher -/

/-- Whether a name is, by its key, one that the launcher keeps for itself. -/
def NamesRecord (unicode : Unicode) (component : String) : Prop :=
  ∃ name : PortableFileName unicode, PortableFileName.newExact unicode component = some name ∧
    managedContentNameIsReserved name = true

/-- A name of ASCII that is such a name in one of its letter cases, marked as disabled any number
of times. -/
def RecordAlias (component : String) : Prop :=
  isAscii component = true ∧ ∃ (base : String) (marks : Nat),
    (base ∈ managedContentExactNames ∨
      ∃ start ∈ managedContentPrefixes, startsWith base start = true) ∧
    (toAsciiLowercase component).toList =
      base.toList ++ (List.replicate marks disabledSuffix.toList).flatten

variable {base : List Char} {fuel : Nat}

theorem stripDisabled_of_suffix :
    stripDisabled (fuel + 1) (base ++ disabledSuffix.toList) = stripDisabled fuel base := by
  have length : (base ++ disabledSuffix.toList).length - disabledSuffix.length = base.length := by
    rw [length_append]
    exact Nat.add_sub_cancel _ _
  rw [stripDisabled, if_pos (isSuffixOf_iff_suffix.mpr (suffix_append _ _)), length,
    take_left]

theorem stripDisabled_marks (marks fuel : Nat) :
    stripDisabled (fuel + marks) (base ++ (List.replicate marks disabledSuffix.toList).flatten) =
      stripDisabled fuel base := by
  induction marks with
  | zero => rw [replicate_zero, flatten_nil, List.append_nil, Nat.add_zero]
  | succ marks ih =>
    rw [replicate_succ', flatten_append, flatten_singleton, ← append_assoc,
      ← Nat.add_assoc, stripDisabled_of_suffix, ih]

/-- What does not end as a disabled file does stays. -/
theorem stripDisabled_of_not_suffix (plain : disabledSuffix.toList.isSuffixOf base = false) :
    stripDisabled fuel base = base := by
  cases fuel with
  | zero => rfl
  | succ fuel => rw [stripDisabled, plain, if_neg Bool.false_ne_true]

/-- What begins with a text that ends in a hyphen goes on to do so, since no hyphen is cut off. -/
theorem stripDisabled_of_hyphen {start rest : List Char} :
    (start ++ ['-']) <+: stripDisabled fuel (start ++ ['-'] ++ rest) := by
  induction fuel generalizing rest with
  | zero => exact prefix_append _ _
  | succ fuel ih =>
    rw [stripDisabled]
    split
    · rename_i ends
      obtain ⟨kept, rfl⟩ : disabledSuffix.toList <:+ rest := by
        rcases suffix_or_suffix_of_suffix (isSuffixOf_iff_suffix.mp ends)
          (suffix_append (start ++ ['-']) rest) with within | ⟨longer, whole⟩
        · exact within
        · rcases eq_nil_or_concat longer with rfl | ⟨more, last, rfl⟩
          · rw [nil_append] at whole
            exact whole ▸ suffix_refl _
          · -- The suffix would reach back to the hyphen.
            obtain ⟨front, same⟩ := isSuffixOf_iff_suffix.mp ends
            rw [← whole, concat_eq_append, ← append_assoc] at same
            have cut := append_cancel_right same
            rw [← append_assoc] at cut
            have hyphen : last = '-' := head_eq_of_cons_eq (append_inj' cut rfl).2
            have noHyphen : '-' ∉ disabledSuffix.toList := by decide
            rw [← whole, concat_eq_append, hyphen] at noHyphen
            simp at noHyphen
      have length : (start ++ ['-'] ++ (kept ++ disabledSuffix.toList)).length -
          disabledSuffix.length = (start ++ ['-'] ++ kept).length := by
        rw [← append_assoc, length_append]
        exact Nat.add_sub_cancel _ _
      rw [length, ← append_assoc, take_left]
      exact ih
    · exact prefix_append _ _

variable {value : String}

theorem key_of_ascii (documented : unicode.Documented) (ascii : isAscii value = true) :
    pathKey unicode value = toAsciiLowercase value := by
  unfold pathKey PortablePathKey.fromNormalized
  rw [documented.caseFold_ascii value ascii,
    documented.nfc_ascii _ (Minecraft.isAscii_toAsciiLowercase ascii)]

theorem length_flatten_replicate (marks : Nat) :
    marks ≤ ((List.replicate marks disabledSuffix.toList).flatten).length := by
  induction marks with
  | zero => exact Nat.zero_le _
  | succ marks ih =>
    have some : 0 < disabledSuffix.toList.length := by decide
    rw [replicate_succ, flatten_cons, length_append]
    omega

variable {component : String}

/-- The check sees through letter case and marks. -/
theorem namesRecord_of_alias (documented : unicode.Documented) {name : PortableFileName unicode}
    (made : PortableFileName.newExact unicode component = some name)
    (disguised : RecordAlias component) : NamesRecord unicode component := by
  obtain ⟨ascii, base, marks, listed, spelled⟩ := disguised
  have exact : name.value = component :=
    of_decide_eq_true (Option.filter_eq_some_iff.mp made).2
  have key : name.key.value = toAsciiLowercase component := by
    rw [← key_of_ascii documented ascii, ← exact]
    rfl
  refine ⟨name, made, ?_⟩
  have enough := length_flatten_replicate marks
  have length : name.key.value.length =
      base.toList.length + ((List.replicate marks disabledSuffix.toList).flatten).length := by
    rw [key, ← String.length_toList, spelled, length_append]
  have fuel : name.key.value.length = name.key.value.length - marks + marks := by omega
  unfold managedContentNameIsReserved managedContentNameKey
  rw [key, spelled, ← key, fuel, stripDisabled_marks]
  rw [Bool.or_eq_true]
  rcases listed with listed | ⟨start, listed, begins⟩
  · refine .inl (decide_eq_true ?_)
    have plain : ∀ base ∈ managedContentExactNames,
        disabledSuffix.toList.isSuffixOf base.toList = false := by decide
    rw [stripDisabled_of_not_suffix (plain base listed), String.ofList_toList]
    exact listed
  · refine .inr (any_eq_true.mpr ⟨start, listed, ?_⟩)
    have hyphen : ∀ start ∈ managedContentPrefixes,
        start.toList = start.toList.dropLast ++ ['-'] := by decide
    obtain ⟨rest, whole⟩ := List.isPrefixOf_iff_prefix.mp begins
    unfold startsWith
    rw [List.isPrefixOf_iff_prefix, String.toList_ofList, ← whole, hyphen start listed]
    exact stripDisabled_of_hyphen

/-! ### What is accepted -/

/-- The names of a destination that lie where the launcher keeps its records: at the root of an
instance, and directly in a directory of managed content. -/
def guardedComponents (unicode : Unicode) (value : String) : List String :=
  if pathKey unicode ((segments value).headD value) ∈ managedDirectories ∧
      (segments value).length = 2 then segments value
  else (segments value).take 1

/-- What holds of destinations that go well together. -/
structure Coherent (unicode : Unicode) (destinations : List String) : Prop where
  distinct : (destinations.map (pathKey unicode)).Nodup
  apart : ∀ first ∈ destinations, ∀ second ∈ destinations, ∀ rest,
    pathKey unicode second ≠ pathKey unicode first ++ "/" ++ rest
  free : ∀ destination ∈ destinations, ∀ component ∈ guardedComponents unicode destination,
    ¬ NamesRecord unicode component ∧ ¬ RecordAlias component

variable {path : PortableRelativePath unicode}

theorem guarded_of_validatePackPath (accepted : validatePackPath unicode value = .ok path)
    (member : component ∈ guardedComponents unicode value) :
    component ∈ segments value ∧ componentIsReserved unicode component = false := by
  unfold validatePackPath at accepted
  split at accepted
  · cases accepted
  · simp only [ite_throw_eq_ok, Bool.not_eq_true] at accepted
    have free := accepted.2.2.2.1
    rw [any_eq_false] at free
    unfold guardedComponents at member
    split at member
    · rename_i direct
      refine ⟨member, ?_⟩
      obtain ⟨position, found⟩ := mem_iff_getElem?.mp member
      have here := free (component, position) (mk_mem_zipIdx_iff_getElem?.mpr found)
      simp only [decide_eq_true_eq, not_and, Bool.not_eq_true] at here
      exact here (.inr direct)
    · have inside := mem_of_mem_take member
      refine ⟨inside, ?_⟩
      have found : (segments value)[0]? = some component := by
        cases split : segments value with
        | nil => exact absurd split (Minecraft.segments_ne_nil value)
        | cons first rest =>
          rw [split] at member
          rw [mem_singleton.mp member]
          rfl
      have here := free (component, 0) (mk_mem_zipIdx_iff_getElem?.mpr found)
      simp only [decide_eq_true_eq, not_and, Bool.not_eq_true] at here
      exact here (.inl trivial)

/-- The names of an accepted path are accepted names. -/
theorem segments_of_newExact (accepted : PortableRelativePath.newExact unicode value = some path) :
    segments value = path.names.map PortableFileName.value := by
  have exact : path.value = value := of_decide_eq_true (Option.filter_eq_some_iff.mp accepted).2
  rw [← exact]
  refine Minecraft.segments_joinSegments (by simpa using path.nonempty) fun name member => ?_
  obtain ⟨part, -, rfl⟩ := mem_map.mp member
  exact Minecraft.notMem_of_valid part.valid (by decide)

theorem newExact_value (name : PortableFileName unicode) :
    PortableFileName.newExact unicode name.value = some name := by
  have made : PortableFileName.new unicode name.value = some name := by
    unfold PortableFileName.new
    simp only [name.spelling, name.valid, ↓reduceDIte]
  unfold PortableFileName.newExact
  rw [made, Option.filter_some, if_pos (decide_eq_true rfl)]

theorem newExact_of_validatePackPath (accepted : validatePackPath unicode value = .ok path) :
    PortableRelativePath.newExact unicode value = some path := by
  unfold validatePackPath at accepted
  split at accepted
  · cases accepted
  · rename_i other spelled
    simp only [ite_throw_eq_ok, Except.ok.injEq] at accepted
    rw [spelled, accepted.2.2.2.2]

theorem free_of_validatePackPath (documented : unicode.Documented)
    (accepted : validatePackPath unicode value = .ok path)
    (member : component ∈ guardedComponents unicode value) :
    ¬ NamesRecord unicode component ∧ ¬ RecordAlias component := by
  obtain ⟨inside, free⟩ := guarded_of_validatePackPath accepted member
  have plain : ¬ NamesRecord unicode component := by
    rintro ⟨name, made, reserved⟩
    unfold componentIsReserved at free
    rw [made, Option.any_some, reserved] at free
    cases free
  rw [segments_of_newExact (newExact_of_validatePackPath accepted)] at inside
  obtain ⟨name, -, rfl⟩ := mem_map.mp inside
  exact ⟨plain, fun disguised =>
    plain (namesRecord_of_alias documented (newExact_value name) disguised)⟩

variable {destinations : List String}

/-- What the loop has collected. -/
theorem insertDestinations {keys finish : List (String × String)}
    (inserted : destinations.foldlM (insertDestination unicode) keys = .ok finish) :
    finish = keys ++ destinations.map (fun destination =>
        (pathKey unicode destination, destination)) ∧
      (∀ destination ∈ destinations, ∃ path, validatePackPath unicode destination = .ok path) ∧
      ((keys.map Prod.fst).Nodup → (finish.map Prod.fst).Nodup) := by
  induction destinations generalizing keys with
  | nil =>
    cases foldlM_nil_eq_ok.mp inserted
    exact ⟨(List.append_nil _).symm, nofun, id⟩
  | cons destination destinations ih =>
    obtain ⟨middle, here, later⟩ := foldlM_cons_eq_ok.mp inserted
    unfold insertDestination at here
    simp only [bind_eq_ok, guard_eq_ok, pure_eq_ok] at here
    obtain ⟨path, accepted, fresh, rfl⟩ := here
    obtain ⟨whole, valid, unique⟩ := ih later
    refine ⟨?_, ?_, fun distinct => unique ?_⟩
    · rw [whole, append_assoc]
      rfl
    · intro other member
      rcases mem_cons.mp member with rfl | inside
      · exact ⟨path, accepted⟩
      · exact valid other inside
    · rw [map_append, map_singleton, ← concat_eq_append]
      exact distinct.concat fresh

/-- The order in which the keys are gone through makes no difference. -/
theorem validateDestinations_eq_ok :
    validateDestinations unicode destinations = .ok () ↔
      ∃ keys, destinations.foldlM (insertDestination unicode) [] = .ok keys ∧
        ∀ key ∈ keys, ¬∃ parent ∈ ancestorKeys key.1, parent ∈ keys.map Prod.fst := by
  unfold validateDestinations
  rw [bind_eq_ok]
  refine exists_congr fun keys => and_congr_right fun _ => ?_
  rw [forM_eq_ok]
  simp only [mem_mergeSort]
  exact forall₂_congr fun key _ => ite_throw_eq_ok.trans (and_iff_left rfl)

/-- What is accepted goes well together. -/
theorem coherent_of_validateDestinations (documented : unicode.Documented)
    (accepted : validateDestinations unicode destinations = .ok ()) :
    Coherent unicode destinations := by
  obtain ⟨keys, inserted, apart⟩ := validateDestinations_eq_ok.mp accepted
  obtain ⟨whole, valid, unique⟩ := insertDestinations inserted
  rw [nil_append] at whole
  have named : keys.map Prod.fst = destinations.map (pathKey unicode) := by
    rw [whole, map_map]
    rfl
  refine ⟨named ▸ unique nodup_nil, fun first inFirst second inSecond rest below => ?_,
    fun destination inside component guarded => ?_⟩
  · have listed : (pathKey unicode second, second) ∈ keys :=
      whole ▸ mem_map_of_mem inSecond
    exact apart _ listed ⟨pathKey unicode first, mem_ancestorKeys.mpr ⟨rest, below⟩,
      named ▸ mem_map_of_mem inFirst⟩
  · obtain ⟨path, passed⟩ := valid destination inside
    exact free_of_validatePackPath documented passed guarded

end Axial.App
