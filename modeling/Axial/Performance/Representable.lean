/-
This file assembles what a sealed plan is good for from the facts about its graph: what
is plain in the texts of a plan, how the stored names of a snapshot stand apart, and
what the validation of states and of snapshots asks beyond a sound graph.
-/

import Axial.Performance.Sealed

namespace Axial.Performance

open Bytes Fallible List
open Axial.Minecraft (PortablePathKey trim trim_eq_self isAscii validateFileName)

/-! ### Plain texts -/

variable {char : Char}

theorem isWhitespace_of_between (above : 0x20 < char.toNat) (below : char.toNat < 0x7f) :
    Minecraft.isWhitespace char = false := by
  unfold Minecraft.isWhitespace
  simp only [mem_cons, not_mem_nil, Bool.or_eq_false_iff, Bool.and_eq_false_iff,
    decide_eq_false_iff_not, not_or, or_false]
  omega

theorem isControl_of_between (above : 0x20 < char.toNat) (below : char.toNat < 0x7f) :
    isControl char = false := by
  simp only [isControl, Axial.Fs.isControl, Bool.or_eq_false_iff, Bool.and_eq_false_iff,
    decide_eq_false_iff_not]
  omega

variable {value : String}

/-- A text of visible characters of ASCII is trimmed. -/
theorem boundedText_of_visible {maxChars : Nat}
    (visible : ∀ char ∈ value.toList, 0x20 < char.toNat ∧ char.toNat < 0x7f) (some : value ≠ "")
    (short : value.toList.length ≤ maxChars) : boundedText value maxChars = true := by
  have trimmed : trim value = value := trim_eq_self fun char member =>
    isWhitespace_of_between (visible char member).1 (visible char member).2
  unfold boundedText
  rw [trimmed]
  simp only [decide_true, Bool.true_and, ne_eq, Bool.and_eq_true, decide_eq_true_eq]
  exact ⟨some, short⟩

theorem toNat_of_isAlphanum (plain : char.isAlphanum = true) :
    0x20 < char.toNat ∧ char.toNat < 0x7f := by
  have symbol : Base64.plain char = true := by
    unfold Base64.plain
    rw [plain]
    rfl
  have within := Minecraft.toNat_of_plain symbol
  omega

theorem validateStateToken_of_isModrinthId (label : String) (valid : isModrinthId value = true) :
    validateStateToken label value = .ok () := by
  obtain ⟨bytes, letters⟩ := Bool.and_eq_true_iff.mp valid
  have visible (char : Char) (member : char ∈ value.toList) :
      0x20 < char.toNat ∧ char.toNat < 0x7f :=
    toNat_of_isAlphanum (all_eq_true.mp letters char member)
  have ascii : isAscii value = true := all_eq_true.mpr fun char member =>
    decide_eq_true ((visible char member).2.trans (by decide))
  have eight : value.toList.length = modrinthIdBytes := by
    rw [← Minecraft.utf8_length_of_isAscii ascii]
    exact of_decide_eq_true bytes
  refine check_eq_ok.mpr ⟨?_, rfl⟩
  rw [boundedText_of_visible visible, Bool.true_and, Bool.not_eq_true']
  · exact any_eq_false.mpr fun char member => by
      rw [isControl_of_between (visible char member).1 (visible char member).2]
      exact Bool.false_ne_true
  · rintro rfl
    exact absurd eight (by decide)
  · rw [eight]
    decide

/-- A text without capitals is in lower case. -/
theorem toAsciiLowercase_eq_self (lower : ∀ char ∈ value.toList, char.isUpper = false) :
    toAsciiLowercase value = value := by
  have same : value.toList.map Char.toLower = value.toList.map id :=
    map_congr_left fun char member =>
      Char.toLower_eq_of_not_isUpper (by rw [lower char member]; exact Bool.false_ne_true)
  unfold toAsciiLowercase
  rw [same, map_id, String.ofList_toList]

theorem isUpper_of_isLowerHexDigit (digit : isLowerHexDigit char = true) :
    char.isUpper = false := by
  have bounds : ('a').toNat = 97 ∧ ('f').toNat = 102 := by decide
  simp only [isLowerHexDigit, Char.isDigit, Bool.or_eq_true, Bool.and_eq_true, decide_eq_true_eq,
    Char.le_def, UInt32.le_iff_toNat_le] at digit
  simp only [Char.isUpper, decide_eq_false_iff_not, UInt32.le_iff_toNat_le]
  change 48 ≤ char.toNat ∧ char.toNat ≤ 57 ∨ ('a').toNat ≤ char.toNat ∧ char.toNat ≤ ('f').toNat
    at digit
  change ¬ (65 ≤ char.toNat ∧ char.toNat ≤ 90)
  omega

/-- A canonical digest is a valid one, and in lower case. -/
theorem sha512_of_isCanonical (canonical : isCanonicalSha512 value = true) :
    isValidSha512 value = true ∧ toAsciiLowercase value = value := by
  obtain ⟨bytes, digits⟩ := Bool.and_eq_true_iff.mp canonical
  refine ⟨Bool.and_eq_true_iff.mpr ⟨bytes, all_eq_true.mpr fun char member => ?_⟩,
    toAsciiLowercase_eq_self fun char member =>
      isUpper_of_isLowerHexDigit (all_eq_true.mp digits char member)⟩
  have digit := all_eq_true.mp digits char member
  unfold isLowerHexDigit at digit
  rw [digit, Bool.true_or]

/-! ### Instants and snapshot ids -/

/-- What `to_rfc3339` writes of an instant. -/
structure Rfc3339 where
  text : String
  written : text.toList.all fun char => char.isDigit || char ∈ ['T', ':', '-', '+', '.']
  long : 25 ≤ text.toList.length
  short : text.toList.length ≤ 38

/-- The id of a snapshot: an instant of a year in four digits, and twelve bytes in hexadecimal. -/
structure SnapshotId where
  text : String
  written : text.toList.all fun char => isLowerHexDigit char || char ∈ ['T', 'Z', '-']
  long : text.toList.length = 50

def Rfc3339.epoch : Rfc3339 where
  text := "1970-01-01T00:00:00+00:00"
  written := by decide
  long := by decide
  short := by decide

theorem boundedText_of_rfc3339 (instant : Rfc3339) :
    boundedText instant.text stateTimestampMaxChars = true := by
  refine boundedText_of_visible (fun char member => ?_) ?_ (instant.short.trans (by decide))
  · have written := all_eq_true.mp instant.written char member
    rcases Bool.or_eq_true_iff.mp written with digit | sign
    · exact toNat_of_isAlphanum (by simp [Char.isAlphanum, digit])
    · have signs : ['T', ':', '-', '+', '.'].all
          (fun char => 0x20 < char.toNat && char.toNat < 0x7f) = true := by
        decide
      simpa using all_eq_true.mp signs char (of_decide_eq_true sign)
  · intro empty
    have long := instant.long
    rw [empty] at long
    exact absurd long (by decide)

theorem isLowerHexDigit_isAlphanum (digit : isLowerHexDigit char = true) :
    char.isAlphanum = true := by
  have bounds : ('a').toNat = 97 ∧ ('f').toNat = 102 := by decide
  simp only [isLowerHexDigit, Char.isDigit, Bool.or_eq_true, Bool.and_eq_true, decide_eq_true_eq,
    Char.le_def, UInt32.le_iff_toNat_le] at digit
  simp only [Char.isAlphanum, Char.isAlpha, Char.isUpper, Char.isLower, Char.isDigit,
    Bool.or_eq_true, Bool.and_eq_true, decide_eq_true_eq, UInt32.le_iff_toNat_le]
  change 48 ≤ char.toNat ∧ char.toNat ≤ 57 ∨ ('a').toNat ≤ char.toNat ∧ char.toNat ≤ ('f').toNat
    at digit
  change (65 ≤ char.toNat ∧ char.toNat ≤ 90 ∨ 97 ≤ char.toNat ∧ char.toNat ≤ 122) ∨
    48 ≤ char.toNat ∧ char.toNat ≤ 57
  omega

theorem validateRollbackSnapshotId_eq_ok (id : SnapshotId) :
    validateRollbackSnapshotId id.text = .ok () := by
  have plain (char : Char) (member : char ∈ id.text.toList) :
      char.isAlphanum = true ∨ char = '-' := by
    have written := all_eq_true.mp id.written char member
    rcases Bool.or_eq_true_iff.mp written with digit | sign
    · exact .inl (isLowerHexDigit_isAlphanum digit)
    · have signs : ['T', 'Z', '-'].all (fun char => char.isAlphanum || char = '-') = true := by
        decide
      simpa using all_eq_true.mp signs char (of_decide_eq_true sign)
  have ascii : isAscii id.text = true := all_eq_true.mpr fun char member => by
    refine decide_eq_true ?_
    rcases plain char member with letter | rfl
    · exact (toNat_of_isAlphanum letter).2.trans (by decide)
    · decide
  refine check_eq_ok.mpr ⟨⟨?_, ?_, all_eq_true.mpr fun char member => ?_⟩, rfl⟩
  · intro empty
    have long := id.long
    rw [empty] at long
    exact absurd long (by decide)
  · rw [Minecraft.utf8_length_of_isAscii ascii, id.long]
    decide
  · rcases plain char member with letter | rfl
    · rw [letter, Bool.true_or, Bool.true_or]
    · rfl

/-! ### Stored names -/

def storedDigits (index : Nat) : List Char :=
  List.replicate (3 - (Nat.toDigits 10 index).length) '0' ++ Nat.toDigits 10 index

theorem toList_storedFilename (index : Nat) : (storedFilename index).toList =
    "artifact-".toList ++ storedDigits index ++ ".bin".toList := by
  unfold storedFilename storedDigits
  have digits : (toString index).toList = Nat.toDigits 10 index := Nat.toList_repr
  simp only [String.toList_append, String.toList_ofList, digits, append_assoc]

theorem storedFilename_injective : Function.Injective storedFilename := by
  intro first second same
  have chars := congrArg String.toList same
  rw [toList_storedFilename, toList_storedFilename] at chars
  have digits := append_cancel_left (append_cancel_right chars)
  have value (index : Nat) : Nat.ofDigitChars 10 (storedDigits index) 0 = index := by
    unfold storedDigits
    rw [Nat.ofDigitChars_append, Nat.ofDigitChars_replicate_zero, Nat.mul_zero,
      Nat.ofDigitChars_ten_toDigits]
  rw [← value first, digits, value second]

variable {index : Nat}

theorem isDigit_of_mem_storedDigits (member : char ∈ storedDigits index) : char.isDigit = true := by
  rcases mem_append.mp member with zero | digit
  · rw [eq_of_mem_replicate zero]
    rfl
  · exact Nat.isDigit_of_mem_toDigits (by decide) (by decide) digit

theorem length_storedDigits (small : index < 1000) : (storedDigits index).length = 3 := by
  have most : (Nat.toDigits 10 index).length ≤ 3 :=
    (Nat.length_toDigits_le_iff (by decide) (by decide)).mpr small
  unfold storedDigits
  rw [length_append, length_replicate]
  omega

/-- What stored names are written with. -/
def storedChar (char : Char) : Bool :=
  char.isDigit || char ∈ ['a', 'r', 't', 'i', 'f', 'c', '-', '.', 'b', 'n']

theorem storedChar_of_mem (member : char ∈ (storedFilename index).toList) :
    storedChar char = true := by
  rw [toList_storedFilename] at member
  rcases mem_append.mp member with front | back
  · rcases mem_append.mp front with word | digit
    · have plain : "artifact-".toList.all storedChar = true := by decide
      exact all_eq_true.mp plain char word
    · unfold storedChar
      rw [isDigit_of_mem_storedDigits digit, Bool.true_or]
  · have plain : ".bin".toList.all storedChar = true := by decide
    exact all_eq_true.mp plain char back

theorem isUpper_of_isDigit (digit : char.isDigit = true) : char.isUpper = false :=
  isUpper_of_isLowerHexDigit (by rw [isLowerHexDigit, digit, Bool.true_or])

theorem storedChar_cases (stored : storedChar char = true) :
    (0x20 < char.toNat ∧ char.toNat < 0x7f) ∧ char.isUpper = false ∧
      char ∉ ' ' :: Minecraft.unsafeCharacters := by
  rcases Bool.or_eq_true_iff.mp stored with digit | letter
  · have alphanum : char.isAlphanum = true := by simp [Char.isAlphanum, digit]
    have never : (' ' :: Minecraft.unsafeCharacters).all (fun char => !char.isAlphanum) = true := by
      decide
    refine ⟨toNat_of_isAlphanum alphanum, isUpper_of_isDigit digit, fun member => ?_⟩
    have missing := all_eq_true.mp never char member
    rw [alphanum] at missing
    cases missing
  · have letters : ['a', 'r', 't', 'i', 'f', 'c', '-', '.', 'b', 'n'].all (fun char =>
        (0x20 < char.toNat && char.toNat < 0x7f) && !char.isUpper &&
          !decide (char ∈ ' ' :: Minecraft.unsafeCharacters)) = true := by
      decide
    have here := all_eq_true.mp letters char (of_decide_eq_true letter)
    simp only [Bool.and_eq_true, Bool.not_eq_true', decide_eq_true_eq, decide_eq_false_iff_not]
      at here
    exact ⟨here.1.1, here.1.2, here.2⟩

/-- Neither a dot nor a blank stands before the end of a stored name. -/
theorem ne_dot_of_mem_front (member : char ∈ "artifact-".toList ++ storedDigits index) :
    char ≠ '.' ∧ char ≠ ' ' := by
  rcases mem_append.mp member with word | digit
  · have plain : "artifact-".toList.all (fun char => char ≠ '.' && char ≠ ' ') = true := by decide
    simpa using all_eq_true.mp plain char word
  · have digit := isDigit_of_mem_storedDigits digit
    exact ⟨by rintro rfl; exact absurd digit (by decide),
      by rintro rfl; exact absurd digit (by decide)⟩

theorem validateFileName_storedFilename (small : index < 1000) :
    validateFileName (storedFilename index) = true := by
  have chars := toList_storedFilename index
  have plain (char : Char) (member : char ∈ (storedFilename index).toList) :=
    storedChar_cases (storedChar_of_mem member)
  have ascii : isAscii (storedFilename index) = true := all_eq_true.mpr fun char member =>
    decide_eq_true ((plain char member).1.2.trans (by decide))
  have length : (storedFilename index).toList.length = 16 := by
    rw [chars, length_append, length_append, length_storedDigits small]
    decide
  have differs (other : String) (short : other.toList.length ≠ 16) :
      storedFilename index ≠ other := by
    rintro rfl
    exact short length
  have separators : (storedFilename index).toList.any
      (fun char => char ∈ Minecraft.unsafeCharacters) = false :=
    any_eq_false.mpr fun char member unsafeChar =>
      (plain char member).2.2 (mem_cons_of_mem _ (of_decide_eq_true unsafeChar))
  have controls : (storedFilename index).toList.any Axial.Fs.isControl = false :=
    any_eq_false.mpr fun char member control =>
      Bool.false_ne_true ((isControl_of_between (plain char member).1.1
        (plain char member).1.2).symm.trans control)
  have finish : (storedFilename index).toList.getLast? = some 'n' := by
    rw [chars, getLast?_append_of_ne_nil _ (by decide)]
    decide
  have noDevice : Axial.Fs.windowsDeviceName (storedFilename index) = false := by
    refine Minecraft.windowsDeviceName_of_long ?_
    have front : ((storedFilename index).toList.takeWhile fun char => char ≠ '.') =
        "artifact-".toList ++ storedDigits index := by
      rw [chars, takeWhile_append_of_pos fun char member =>
        decide_eq_true (ne_dot_of_mem_front member).1]
      have stops : (".bin".toList.takeWhile fun char => char ≠ '.') = [] := by decide
      rw [stops, List.append_nil]
    have untrimmed : ("artifact-".toList ++ storedDigits index).rdropWhile
        (fun char => char = '.' ∨ char = ' ') = "artifact-".toList ++ storedDigits index := by
      refine rdropWhile_eq_self_iff.mpr fun some => ?_
      have last := getLast_mem some
      rw [decide_eq_true_eq, not_or]
      exact ne_dot_of_mem_front last
    rw [front, untrimmed, length_append, length_storedDigits small]
    decide
  unfold validateFileName Minecraft.windowsFileNameIsSafe
  rw [Minecraft.utf8_length_of_isAscii ascii, Minecraft.utf16Units_of_ascii ascii, length, noDevice,
    separators, controls, finish]
  simp only [ne_eq, differs "" (by decide), differs "." (by decide), differs ".." (by decide),
    not_false_eq_true, decide_true]
  decide

/-- The key of a stored name is the name itself. -/
theorem filenameKey_storedFilename (unicode : Minecraft.Unicode) (small : index < 1000) :
    filenameKey unicode (storedFilename index) = some ⟨storedFilename index⟩ := by
  have ascii : isAscii (storedFilename index) = true := all_eq_true.mpr fun char member =>
    decide_eq_true ((storedChar_cases (storedChar_of_mem member)).1.2.trans (by decide))
  have lower : toAsciiLowercase (storedFilename index) = storedFilename index :=
    toAsciiLowercase_eq_self fun char member => (storedChar_cases (storedChar_of_mem member)).2.1
  unfold filenameKey
  rw [Minecraft.key_of_ascii ascii (validateFileName_storedFilename small)]
  exact congrArg _ (congrArg _ lower)

/-! ### States -/

variable {libraries : PlanLibraries}

theorem admitIdentity_eq_ok (scan : IdentityScan) (installed : InstalledMod)
    (result : IdentityScan) :
    admitIdentity libraries scan installed = .ok result ↔
      ((∃ key, filenameKey libraries.unicode installed.filename = some key ∧ key ∉ scan.2) ∧
        validateStateToken "managed project id" installed.projectId = .ok () ∧
        validateStateToken "managed version id" installed.versionId = .ok () ∧
        toAsciiLowercase installed.projectId ∉ scan.1 ∧
        installed.ownershipClass = .compositionManaged ∧
        installed.size ≤ managedArtifactMaxBytes ∧
        isValidSha512 installed.integrity.sha512 = true) ∧
      (scan.1 ++ [toAsciiLowercase installed.projectId],
        scan.2 ++ (filenameKey libraries.unicode installed.filename).toList) = result := by
  unfold admitIdentity validateSha512Integrity
  simp only [guard_eq_ok, bind_eq_ok, pure_eq_ok, stateFilenameKey_eq_ok, check_eq_ok, not_not,
    not_lt]
  constructor
  · rintro ⟨key, same, _, project, _, version, freshId, freshKey, owned, small, _, ⟨valid, -⟩, rfl⟩
    exact ⟨⟨⟨key, same, freshKey⟩, project, version, freshId, owned, small, valid⟩, by rw [same]; rfl⟩
  · rintro ⟨⟨⟨key, same, freshKey⟩, project, version, freshId, owned, small, valid⟩, rfl⟩
    exact ⟨key, same, (), project, (), version, freshId, freshKey, owned, small, (),
      ⟨valid, trivial⟩, by rw [same]; rfl⟩

theorem foldl_identity (unicode : Minecraft.Unicode) (installedMods : List InstalledMod) :
    installedMods.foldl (fun (scan : IdentityScan) installed =>
        (scan.1 ++ [toAsciiLowercase installed.projectId],
          scan.2 ++ (filenameKey unicode installed.filename).toList)) ([], []) =
      (installedMods.map fun installed => toAsciiLowercase installed.projectId,
        installedMods.filterMap fun installed => filenameKey unicode installed.filename) := by
  induction installedMods using List.reverseRecOn with
  | nil => rfl
  | append_singleton installedMods installed ih =>
    rw [foldl_append, ih]
    simp only [foldl_cons, foldl_nil, map_append, map_cons, map_nil,
      filterMap_append, filterMap_cons, filterMap_nil]
    cases filenameKey unicode installed.filename <;> rfl

variable {state : CompositionState}

theorem distinct_of_validateState (valid : validateState libraries state = .ok ()) :
    (state.installedMods.map fun installed => toAsciiLowercase installed.projectId).Nodup := by
  unfold validateState at valid
  simp only [guard_eq_ok, bind_eq_ok, pure_eq_ok, foldlM_eq_ok admitIdentity_eq_ok,
    foldl_identity] at valid
  obtain ⟨_, -, -, -, _, ⟨each, -⟩, -⟩ := valid
  exact nodup_map_iff_earlier.mpr fun before installed after split =>
    (each before installed after split).2.2.2.1

/-- What makes a state with a sound graph valid is that its project ids differ by more than their
case. -/
theorem validateState_of_sound
    (sound : GraphSound libraries.unicode (state.installedMods.map .fromInstalled)
      state.dependencyEdges)
    (digest : canonicalStateGraphDigest libraries state = .ok state.graphSha512)
    (installedAt : boundedText state.installedAt stateTimestampMaxChars = true)
    (owned : ∀ installed ∈ state.installedMods, installed.ownershipClass = .compositionManaged) :
    validateState libraries state = .ok () ↔
      (state.installedMods.map fun installed => toAsciiLowercase installed.projectId).Nodup := by
  have count := sound.nodeCount
  rw [length_map] at count
  have keys := sound.filenames
  rw [map_map] at keys
  have graph : validateStateGraph libraries state = .ok () := by
    unfold validateStateGraph
    simp only [bind_eq_ok, digest, Except.ok.injEq, exists_eq_left']
    rw [if_neg (not_not.mpr rfl)]
    rfl
  constructor
  · exact distinct_of_validateState
  · intro distinct
    unfold validateState
    simp only [guard_eq_ok, bind_eq_ok, pure_eq_ok, mapError_eq_ok, graph, installedAt,
      foldlM_eq_ok admitIdentity_eq_ok, foldl_identity]
    refine ⟨(), trivial, Bool.false_ne_true, not_lt.mpr count, _, ⟨?_, rfl⟩, trivial⟩
    intro before installed after split
    have member : installed ∈ state.installedMods :=
      split ▸ mem_append_right _ mem_cons_self
    have here := sound.eachNode _ (mem_map_of_mem member)
    obtain ⟨key, same⟩ := exists_filenameKey here.filename
    refine ⟨⟨key, same, fun again => ?_⟩, validateStateToken_of_isModrinthId _ here.project,
      validateStateToken_of_isModrinthId _ here.version,
      nodup_map_iff_earlier.mp distinct before installed after split, owned installed member, ?_,
      (sha512_of_isCanonical here.sha512).1⟩
    · have taken := some_mem_map.mpr again
      rw [← same] at taken
      exact nodup_map_iff_earlier.mp keys before installed after split taken
    · have size := here.size
      unfold validateArtifactSize at size
      rw [ite_throw_eq_ok, not_or, not_lt] at size
      exact size.1.2

/-! ### Snapshots -/

/-- The artifacts that a snapshot of some mods is built with. -/
def rollbackArtifacts (installedMods : List InstalledMod) : List RollbackArtifact :=
  installedMods.zipIdx.map fun (installed, index) => rollbackArtifact installed index

variable {installedMods : List InstalledMod}

theorem mem_rollbackArtifacts {artifact : RollbackArtifact}
    (member : artifact ∈ rollbackArtifacts installedMods) :
    ∃ installed ∈ installedMods, ∃ index < installedMods.length,
      artifact = rollbackArtifact installed index := by
  obtain ⟨⟨installed, index⟩, inside, rfl⟩ := mem_map.mp member
  obtain ⟨-, small, same⟩ := mem_zipIdx inside
  refine ⟨installed, ?_, index, by omega, rfl⟩
  rw [same]
  exact getElem_mem _

/-- What does not depend on the place of a mod is read off the mods. -/
theorem map_rollbackArtifacts {Value : Type} (read : RollbackArtifact → Value)
    (readMod : InstalledMod → Value)
    (same : ∀ installed index, read (rollbackArtifact installed index) = readMod installed)
    (installedMods : List InstalledMod) :
    (rollbackArtifacts installedMods).map read = installedMods.map readMod := by
  unfold rollbackArtifacts
  rw [map_map]
  have alike : (read ∘ fun (pair : InstalledMod × Nat) => rollbackArtifact pair.1 pair.2) =
      readMod ∘ Prod.fst :=
    funext fun pair => same pair.1 pair.2
  rw [alike, ← map_map, zipIdx_map_fst]

theorem storedFilenames_nodup (installedMods : List InstalledMod) :
    ((rollbackArtifacts installedMods).map (·.storedFilename)).Nodup := by
  have indices : (rollbackArtifacts installedMods).map (·.storedFilename) =
      (installedMods.zipIdx.map Prod.snd).map storedFilename := by
    unfold rollbackArtifacts
    rw [map_map, map_map]
    rfl
  rw [indices, zipIdx_map_snd]
  exact List.Nodup.map storedFilename_injective nodup_range'

theorem addRollbackBytes_eq_ok (total : Nat) (artifact : RollbackArtifact) (result : Nat) :
    addRollbackBytes total artifact = .ok result ↔
      total + artifact.size < 2 ^ 64 ∧ total + artifact.size = result := by
  unfold addRollbackBytes checkedAdd
  by_cases small : total + artifact.size < 2 ^ 64
  · simp only [small, if_true, Except.ok.injEq, true_and]
  · simp only [small, if_false, reduceCtorEq, false_and]

theorem foldl_sizes (artifacts : List RollbackArtifact) :
    artifacts.foldl (fun total artifact => total + artifact.size) 0 =
      (artifacts.map (·.size)).sum := by
  induction artifacts using List.reverseRecOn with
  | nil => rfl
  | append_singleton artifacts artifact ih =>
    rw [foldl_append, ih, map_append, sum_append]
    rfl

theorem validateRollbackArtifactBudget_eq_ok {snapshot : RollbackSnapshot}
    (within : (snapshot.artifacts.map (·.size)).sum ≤ managedArtifactMaxBytes) :
    validateRollbackArtifactBudget snapshot = .ok () := by
  unfold validateRollbackArtifactBudget
  simp only [bind_eq_ok, foldlM_eq_ok addRollbackBytes_eq_ok, foldl_sizes]
  refine ⟨_, ⟨fun before artifact after split => ?_, rfl⟩, if_neg (not_lt.mpr within)⟩
  rw [split] at within
  exact (sum_earlier_le.trans within).trans_lt (by decide)

theorem admitArtifact_eq_ok (installedMods : List InstalledMod) (scan : ArtifactScan)
    (artifact : RollbackArtifact) (result : ArtifactScan) :
    admitArtifact libraries installedMods scan artifact = .ok result ↔
      ((∃ key, filenameKey libraries.unicode artifact.filename = some key ∧ key ∉ scan.1) ∧
        (∃ key, filenameKey libraries.unicode artifact.storedFilename = some key ∧ key ∉ scan.2) ∧
        validateStateToken "rollback project id" artifact.projectId = .ok () ∧
        validateStateToken "rollback version id" artifact.versionId = .ok () ∧
        isValidSha512 artifact.sha512 = true ∧
        ∃ installed, installedMods.find? (fun installed => installed.filename = artifact.filename) =
          some installed ∧ metadataDiffers artifact installed = false) ∧
      (scan.1 ++ (filenameKey libraries.unicode artifact.filename).toList,
        scan.2 ++ (filenameKey libraries.unicode artifact.storedFilename).toList) = result := by
  unfold admitArtifact validateSha512Integrity
  simp only [guard_eq_ok, bind_eq_ok, stateFilenameKey_eq_ok, check_eq_ok]
  constructor
  · rintro ⟨key, same, fresh, stored, sameStored, freshStored, _, project, _, version, _, ⟨valid, -⟩,
      found⟩
    cases inside : installedMods.find? fun installed => installed.filename = artifact.filename with
    | none =>
      rw [inside] at found
      simp only [throw_eq_ok] at found
    | some installed =>
      rw [inside] at found
      simp only [guard_eq_ok, pure_eq_ok, Bool.not_eq_true] at found
      obtain ⟨agrees, rfl⟩ := found
      refine ⟨⟨⟨key, same, fresh⟩, ⟨stored, sameStored, freshStored⟩, project, version, valid,
        installed, rfl, agrees⟩, ?_⟩
      rw [same, sameStored]
      rfl
  · rintro ⟨⟨⟨key, same, fresh⟩, ⟨stored, sameStored, freshStored⟩, project, version, valid,
      installed, inside, agrees⟩, rfl⟩
    refine ⟨key, same, fresh, stored, sameStored, freshStored, (), project, (), version, (),
      ⟨valid, trivial⟩, ?_⟩
    rw [inside, same, sameStored]
    simp only [guard_eq_ok, pure_eq_ok, Bool.not_eq_true]
    exact ⟨agrees, rfl⟩

theorem foldl_artifacts (unicode : Minecraft.Unicode) (artifacts : List RollbackArtifact) :
    artifacts.foldl (fun (scan : ArtifactScan) artifact =>
        (scan.1 ++ (filenameKey unicode artifact.filename).toList,
          scan.2 ++ (filenameKey unicode artifact.storedFilename).toList)) ([], []) =
      (artifacts.filterMap fun artifact => filenameKey unicode artifact.filename,
        artifacts.filterMap fun artifact => filenameKey unicode artifact.storedFilename) := by
  induction artifacts using List.reverseRecOn with
  | nil => rfl
  | append_singleton artifacts artifact ih =>
    rw [foldl_append, ih]
    simp only [foldl_cons, foldl_nil, filterMap_append, filterMap_cons,
      filterMap_nil]
    cases filenameKey unicode artifact.filename <;>
      cases filenameKey unicode artifact.storedFilename <;> rfl

variable {installed : InstalledMod}

theorem find_installed (distinct : (installedMods.map fun installed =>
      filenameKey libraries.unicode installed.filename).Nodup) (member : installed ∈ installedMods)
    : installedMods.find? (fun other => other.filename = installed.filename) = some installed := by
  cases found : installedMods.find? fun other => other.filename = installed.filename with
  | none =>
    have missing := find?_eq_none.mp found installed member
    simp at missing
  | some other =>
    have same : other.filename = installed.filename := by simpa using find?_some found
    rw [inj_on_of_nodup_map distinct (mem_of_find?_eq_some found) member
      (congrArg (filenameKey libraries.unicode) same)]

/-- An artifact agrees with the mod it is built of. -/
theorem metadataDiffers_rollbackArtifact (index : Nat)
    (owned : installed.ownershipClass = .compositionManaged)
    (lower : toAsciiLowercase installed.integrity.sha512 = installed.integrity.sha512) :
    metadataDiffers (rollbackArtifact installed index) installed = false := by
  unfold metadataDiffers rollbackArtifact sameAsciiCase Axial.Fs.eqIgnoreAsciiCase
  rw [lower, owned]
  simp only [ne_eq, not_true_eq_false, decide_false, decide_true, Bool.not_true, Bool.or_false]

/-- The snapshot of a valid state with a sound graph is valid. -/
theorem validateRollbackSnapshot_of_sound
    (sound : GraphSound libraries.unicode (state.installedMods.map .fromInstalled)
      state.dependencyEdges) (valid : validateState libraries state = .ok ())
    (owned : ∀ installed ∈ state.installedMods, installed.ownershipClass = .compositionManaged)
    (id : SnapshotId) (now : Rfc3339) :
    validateRollbackSnapshot libraries
      (rollbackSnapshot (.managedComposition state) id.text now.text) = .ok () := by
  have count := sound.nodeCount
  rw [length_map] at count
  have keys := sound.filenames
  rw [map_map] at keys
  have artifactKeys : ((rollbackArtifacts state.installedMods).map fun artifact =>
      filenameKey libraries.unicode artifact.filename).Nodup := by
    rw [map_rollbackArtifacts _ (fun installed => filenameKey libraries.unicode installed.filename)
      fun _ _ => rfl]
    exact keys
  have target : (rollbackSnapshot (.managedComposition state) id.text
      now.text).target.installedMods = state.installedMods := List.append_nil _
  have artifacts : (rollbackSnapshot (.managedComposition state) id.text now.text).artifacts =
      rollbackArtifacts state.installedMods := by
    rw [← target]
    rfl
  have length : (rollbackArtifacts state.installedMods).length = state.installedMods.length := by
    unfold rollbackArtifacts
    rw [length_map, length_zipIdx]
  have within : ((rollbackArtifacts state.installedMods).map (·.size)).sum ≤
      managedArtifactMaxBytes := by
    have bound := sound.bytes
    rw [map_map] at bound
    rw [map_rollbackArtifacts _ (fun installed => installed.size) fun _ _ => rfl]
    exact bound
  have stored : ∀ artifact ∈ rollbackArtifacts state.installedMods,
      filenameKey libraries.unicode artifact.storedFilename =
        some ⟨artifact.storedFilename⟩ := by
    intro artifact member
    obtain ⟨installed, -, index, small, rfl⟩ := mem_rollbackArtifacts member
    exact filenameKey_storedFilename _ (small.trans_le (count.trans (by decide)))
  unfold validateRollbackSnapshot
  simp only [guard_eq_ok, bind_eq_ok, foldlM_eq_ok (admitArtifact_eq_ok _), artifacts]
  refine ⟨not_not.mpr rfl, (), validateRollbackSnapshotId_eq_ok id,
    by rw [rollbackSnapshot, boundedText_of_rfc3339]; exact Bool.false_ne_true,
    not_lt.mpr (length ▸ count), (), validateRollbackArtifactBudget_eq_ok (artifacts ▸ within), (),
    ?_, _, ⟨?_, rfl⟩, ?_⟩
  · exact forM_eq_ok.mpr fun other member => mem_singleton.mp member ▸ valid
  · intro before artifact after split
    have member : artifact ∈ rollbackArtifacts state.installedMods :=
      split ▸ mem_append_right _ mem_cons_self
    have same := stored artifact member
    rw [foldl_artifacts]
    obtain ⟨installed, inside, index, small, rfl⟩ := mem_rollbackArtifacts member
    have here := sound.eachNode _ (mem_map_of_mem inside)
    obtain ⟨valid512, lower⟩ := sha512_of_isCanonical here.sha512
    obtain ⟨key, sameKey⟩ := exists_filenameKey here.filename
    refine ⟨⟨key, sameKey, fun again => ?_⟩, ⟨_, same, fun again => ?_⟩,
      validateStateToken_of_isModrinthId _ here.project,
      validateStateToken_of_isModrinthId _ here.version, ?_, installed, ?_, ?_⟩
    · have taken := some_mem_map.mpr again
      rw [← sameKey] at taken
      exact nodup_map_iff_earlier.mp artifactKeys before _ after split taken
    · obtain ⟨earlier, among, sameStored⟩ := mem_filterMap.mp again
      have listed : earlier ∈ rollbackArtifacts state.installedMods :=
        split ▸ mem_append_left _ among
      rw [stored earlier listed, Option.some_inj, PortablePathKey.mk.injEq] at sameStored
      exact nodup_map_iff_earlier.mp (storedFilenames_nodup state.installedMods) before _ after split
        (mem_map.mpr ⟨earlier, among, sameStored⟩)
    · show isValidSha512 (toAsciiLowercase installed.integrity.sha512) = true
      rw [show toAsciiLowercase installed.integrity.sha512 = installed.integrity.sha512 from lower]
      exact valid512
    · rw [target]
      exact find_installed keys inside
    · exact metadataDiffers_rollbackArtifact index (owned installed inside) lower
  · rw [foldl_artifacts, target, length_filterMap_eq_countP, countP_eq_length.mpr, length]
    · exact if_neg (not_not.mpr rfl)
    · intro artifact member
      obtain ⟨installed, inside, index, -, rfl⟩ := mem_rollbackArtifacts member
      obtain ⟨key, same⟩ :=
        exists_filenameKey (sound.eachNode _ (mem_map_of_mem inside)).filename
      exact Option.isSome_iff_exists.mpr ⟨key, same⟩

/-! ### Plans -/

/-- The state that a plan is saved as. -/
def stateOfPlan (plan : ManagedCompositionInstallPlan) (now : Rfc3339) : CompositionState :=
  stateFromPlan plan (installedGraphFromPlan plan) now.text

/-- A plan that can be saved, whenever that is, with the digest it was sealed with, and whose state
can be kept in a snapshot. -/
structure Representable (libraries : PlanLibraries) (plan : ManagedCompositionInstallPlan) :
    Prop where
  state : ∀ now : Rfc3339, validateState libraries (stateOfPlan plan now) = .ok ()
  digest : ∀ now : Rfc3339,
    canonicalStateGraphDigest libraries (stateOfPlan plan now) = .ok plan.graphDigest
  snapshot : ∀ (installedAt now : Rfc3339) (id : SnapshotId), validateRollbackSnapshot libraries
    (rollbackSnapshot (.managedComposition (stateOfPlan plan installedAt)) id.text now.text) =
      .ok ()

variable {edges : List ManagedDependencyEdge} {pins : List ManagedArtifactPin}
  {declarative : CompositionPlan} {gameVersion loader : String}
  {plan : ManagedCompositionInstallPlan}

theorem sealPlan_eq_ok
    (made : sealPlan libraries declarative gameVersion loader pins edges = .ok plan) :
    GraphSound libraries.unicode (plan.pins.map .fromPin) plan.edges ∧
      (plan.pins.Pairwise fun left right => left.projectId < right.projectId) ∧
      (plan.edges.Pairwise fun left right => left.key < right.key) ∧
      validateRequiredText plan.compositionId maxCompositionIdBytes .invalidCompositionId = .ok () ∧
      validateTargetValue plan.gameVersion = .ok () ∧ validateTargetValue plan.loader = .ok () ∧
      plan.graphDigest = graphDigest libraries.sha512
        ⟨plan.compositionId, plan.family, plan.tier, plan.gameVersion, plan.loader,
          (plan.pins.map (·.size)).sum⟩ (plan.pins.map .fromPin) plan.edges := by
  unfold sealPlan at made
  simp only [bind_eq_ok, pure_eq_ok] at made
  obtain ⟨total, admitted, rfl⟩ := made
  obtain ⟨sound, rfl⟩ := graph_of_sealable admitted
  obtain ⟨composition, version, loader⟩ := texts_of_sealable admitted
  have permuted : (sortPins pins).Perm pins := perm_insertionSort _ _
  have permutedEdges : (sortEdges edges).Perm edges := perm_insertionSort _ _
  have projects := sound.projects
  rw [map_map] at projects
  refine ⟨sound.perm (permuted.symm.map _) permutedEdges.symm, insertionSort_strict projects,
    insertionSort_strict (sound.distinct.map ManagedDependencyEdge.key_injective), composition, version,
    loader, ?_⟩
  rw [(permuted.map ManagedArtifactPin.size).sum_eq]

theorem nodes_of_plan (plan : ManagedCompositionInstallPlan) (now : Rfc3339) :
    (stateOfPlan plan now).installedMods.map CanonicalGraphNode.fromInstalled =
      plan.pins.map CanonicalGraphNode.fromPin :=
  map_map

/-- The digest of the state of a sealed plan is the one it was sealed with. -/
theorem digest_of_sealed
    (made : sealPlan libraries declarative gameVersion loader pins edges = .ok plan) (now : Rfc3339)
    : canonicalStateGraphDigest libraries (stateOfPlan plan now) = .ok plan.graphDigest := by
  obtain ⟨sound, ascending, ascendingEdges, composition, version, loader, digest⟩ :=
    sealPlan_eq_ok made
  have sizes : (stateOfPlan plan now).installedMods.map (·.size) = plan.pins.map (·.size) :=
    map_map
  rw [digest, ← nodes_of_plan plan now, ← sizes]
  refine canonicalStateGraphDigest_of_sound ?_ ?_ ascendingEdges composition version loader
  · rw [nodes_of_plan]
    exact sound
  · exact pairwise_map.mpr ascending

/-- A sealed plan can be saved if and only if its project ids differ by more than their case. -/
theorem representable_iff {declarative : CompositionPlan} {gameVersion loader : String}
    {pins : List ManagedArtifactPin} {edges : List ManagedDependencyEdge}
    {plan : ManagedCompositionInstallPlan}
    (made : sealPlan libraries declarative gameVersion loader pins edges = .ok plan) :
    Representable libraries plan ↔
      (pins.map fun pin => toAsciiLowercase pin.projectId).Nodup := by
  have sound (now : Rfc3339) : GraphSound libraries.unicode
      ((stateOfPlan plan now).installedMods.map .fromInstalled)
      (stateOfPlan plan now).dependencyEdges := by
    rw [nodes_of_plan]
    exact (sealPlan_eq_ok made).1
  have owned (now : Rfc3339) : ∀ installed ∈ (stateOfPlan plan now).installedMods,
      installed.ownershipClass = .compositionManaged :=
    forall_mem_map.mpr fun _ _ => rfl
  have permuted : plan.pins.Perm pins := by
    unfold sealPlan at made
    simp only [bind_eq_ok, pure_eq_ok] at made
    obtain ⟨total, -, rfl⟩ := made
    exact perm_insertionSort _ _
  have valid (now : Rfc3339) : validateState libraries (stateOfPlan plan now) = .ok () ↔
      (pins.map fun pin => toAsciiLowercase pin.projectId).Nodup := by
    rw [validateState_of_sound (sound now) (digest_of_sealed made now) (boundedText_of_rfc3339 now)
      (owned now), ← (permuted.map _).nodup_iff]
    show (List.map _ (plan.pins.map installedFromPin)).Nodup ↔ _
    rw [map_map]
    rfl
  constructor
  · intro representable
    exact (valid .epoch).mp (representable.state .epoch)
  · intro distinct
    exact ⟨fun now => (valid now).mpr distinct, digest_of_sealed made, fun installedAt now id =>
      validateRollbackSnapshot_of_sound (sound installedAt) ((valid installedAt).mpr distinct)
        (owned installedAt) id now⟩

/-! ### Projects of one spelling -/

def libraryPin (projectId filename : String) : ManagedArtifactPin where
  projectId
  versionId := "NFkjnzWE"
  filename
  downloadUrl := "https://cdn.modrinth.com/library.jar"
  size := 1
  sha512 := String.ofList (List.replicate 128 '0')
  role := .root

def libraryMod (projectId : String) : ManagedMod where
  artifactId := projectId
  projectId
  slug := projectId
  name := projectId
  condition := .always
  versionRange := ""
  exactGameVersions := []
  hardwareReq := none
  mutualExclusions := []

def libraryComposition (projectIds : List String) : CompositionPlan where
  compositionId := "libraries"
  family := .F
  loader := "fabric"
  mode := .managed
  tier := .core
  mods := projectIds.map libraryMod
  jvmPreset := ""
  warnings := []
  fallbackReason := ""

/-- Libraries that know the URL of the pins. -/
def plainLibraries (sha512 : List UInt8 → List UInt8) : PlanLibraries where
  unicode := .plain
  parseUrl url :=
    if url = "https://cdn.modrinth.com/library.jar" then
      some { scheme := "https", host := some "cdn.modrinth.com", username := "", password := none
             fragment := none }
    else none
  sha512

/-- What is sealable becomes a plan with its pins. -/
theorem exists_plan {total : Nat}
    (admitted : sealable libraries declarative gameVersion loader pins edges = .ok total) :
    ∃ plan, sealPlan libraries declarative gameVersion loader pins edges = .ok plan ∧
      plan.pins = sortPins pins := by
  unfold sealPlan
  rw [admitted]
  exact ⟨_, rfl, rfl⟩

/-- A library and one that it depends on, listed first. -/
def dependedOn : List ManagedArtifactPin :=
  [{ libraryPin "P7dR8mSH" "fabric-api.jar" with role := .requiredDependency },
    libraryPin "AANobbMI" "sodium.jar"]

def dependence : List ManagedDependencyEdge := [⟨"AANobbMI", "P7dR8mSH", "NFkjnzWE"⟩]

/-- Two libraries whose projects are spelled the same, up to case. -/
def twoLibraries : List ManagedArtifactPin :=
  [libraryPin "AANobbMI" "sodium.jar", libraryPin "aanobbmi" "other.jar"]

theorem sealable_dependedOn (sha512 : List UInt8 → List UInt8) :
    sealable (plainLibraries sha512) (libraryComposition ["AANobbMI"]) "1.21.1" "fabric" dependedOn
      dependence = .ok 2 :=
  (by decide +kernel : sealable (plainLibraries id) (libraryComposition ["AANobbMI"]) "1.21.1"
    "fabric" dependedOn dependence = .ok 2)

theorem sealable_twoLibraries (sha512 : List UInt8 → List UInt8) :
    sealable (plainLibraries sha512) (libraryComposition ["AANobbMI", "aanobbmi"]) "1.21.1" "fabric"
      twoLibraries [] = .ok 2 :=
  (by decide +kernel : sealable (plainLibraries id) (libraryComposition ["AANobbMI", "aanobbmi"])
    "1.21.1" "fabric" twoLibraries [] = .ok 2)

theorem representable_iff_dependedOn :
    ∃ plan, sealPlan (plainLibraries id) (libraryComposition ["AANobbMI"]) "1.21.1" "fabric"
        dependedOn dependence = .ok plan ∧ Representable (plainLibraries id) plan := by
  obtain ⟨plan, made, -⟩ := exists_plan (sealable_dependedOn id)
  exact ⟨plan, made, (representable_iff made).mpr (by decide)⟩

/-- A sealed plan has the pins and edges it was given, in their order and with the sum of their
sizes, and a graph in which all that is required depends on a root; and the state made of it has
its digest. -/
theorem sealed_installable
    (made : sealPlan libraries declarative gameVersion loader pins edges = .ok plan) :
    plan.pins.Perm pins ∧ plan.edges.Perm edges ∧
      plan.aggregateBytes = (plan.pins.map (·.size)).sum ∧
      (plan.pins.Pairwise fun left right => left.projectId < right.projectId) ∧
      (plan.edges.Pairwise fun left right => left.key < right.key) ∧
      GraphSound libraries.unicode (plan.pins.map .fromPin) plan.edges ∧
      ∀ now, canonicalStateGraphDigest libraries (stateOfPlan plan now) = .ok plan.graphDigest := by
  obtain ⟨sound, ascending, ascendingEdges, -⟩ := sealPlan_eq_ok made
  have digest := digest_of_sealed made
  unfold sealPlan at made
  simp only [bind_eq_ok, pure_eq_ok] at made
  obtain ⟨total, admitted, rfl⟩ := made
  have permuted : (sortPins pins).Perm pins := perm_insertionSort _ _
  refine ⟨permuted, perm_insertionSort _ _, ?_, ascending, ascendingEdges, sound, digest⟩
  exact (graph_of_sealable admitted).2.trans (permuted.map ManagedArtifactPin.size).sum_eq.symm

/-- The plan has its pins the other way round. -/
theorem sealed_installable_dependedOn :
    ∃ plan, sealPlan (plainLibraries id) (libraryComposition ["AANobbMI"]) "1.21.1" "fabric"
        dependedOn dependence = .ok plan ∧
      plan.pins = dependedOn.reverse ∧ plan.edges = dependence ∧ plan.aggregateBytes = 2 ∧
      (∃ root ∈ plan.pins.map CanonicalGraphNode.fromPin, root.role = .root ∧
        Relation.ReflTransGen (Depends plan.edges) root.projectId "P7dR8mSH") ∧
      canonicalStateGraphDigest (plainLibraries id) (stateOfPlan plan .epoch) =
        .ok plan.graphDigest := by
  obtain ⟨plan, made, sorted⟩ := exists_plan (sealable_dependedOn id)
  obtain ⟨-, edges, bytes, -, -, sound, digest⟩ := sealed_installable made
  have pins : plan.pins = dependedOn.reverse := sorted.trans (by decide +kernel)
  rw [pins] at bytes
  refine ⟨plan, made, pins, perm_singleton.mp edges, bytes, ?_, digest .epoch⟩
  rw [pins] at sound ⊢
  exact sound.reached _ (mem_map_of_mem (mem_reverse.mpr mem_cons_self)) rfl

/-- With any hash function, there is a sealed plan that cannot be saved. -/
theorem sealed_unrepresentable :
    ¬ ∃ sha512, ∀ declarative gameVersion loader pins edges plan,
      sealPlan (plainLibraries sha512) declarative gameVersion loader pins edges = .ok plan →
        Representable (plainLibraries sha512) plan := by
  rintro ⟨sha512, every⟩
  obtain ⟨plan, made, same⟩ := exists_plan (sealable_twoLibraries sha512)
  have valid := (every _ _ _ _ _ plan made).state .epoch
  have distinct := distinct_of_validateState valid
  have again : ¬ ((sortPins twoLibraries).map fun pin => toAsciiLowercase pin.projectId).Nodup := by
    decide
  refine again (same ▸ ?_)
  change (List.map _ (plan.pins.map installedFromPin)).Nodup at distinct
  rw [map_map] at distinct
  exact distinct

end Axial.Performance
