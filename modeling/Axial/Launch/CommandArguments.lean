/-
This file models the command line of a launch, `core/app/src/launch/plan.rs`: what the
launcher passes to Java, what the user adds, and the main class behind both. The user's
arguments are refused if they name what the launcher decides. Two things are not looked
at. Java has more options that select modules, agents and classes than the ones that are
refused; and an option whose value is the argument after it may be the last one, and then
Java takes the main class for that value.

Library, runtime and paths are checked by code that has modules of its own. What these
steps answer is given here, and so is what the version, the garbage collector and the
throttle add to the command line.
-/

import Axial.Minecraft.Libraries

namespace Axial.Launch

open Bytes List Fallible
open Axial.Fs (isControl)
open Axial.Minecraft (startsWith stripPrefix containsText isHexDigit)

/-! ### Requests -/

inductive LaunchPlanError where
  | libraryChanged
  | nativesUnavailable
  | runtimeChanged
  | runtimeIncompatible
  | invalidAccount
  | invalidMemory
  | invalidResolution
  | invalidJvmArguments
  | reservedJvmArgument
  | unsupportedJvmOption
  | jvmOptionOrdering
  | incompatiblePreset
  | invalidCommand
  deriving DecidableEq

structure LaunchAuthContext where
  playerName : String
  uuid : String
  accessToken : String
  clientId : String
  xuid : String

/-- What `jvm.rs` says of a runtime. -/
structure JvmSupport where
  shenandoah : Bool
  zgc : Bool
  generationalZgc : Bool
  hotspotTuning : Bool

structure LaunchOptions where
  minMemoryMb : Option Int
  maxMemoryMb : Option Int
  resolution : Option (Nat × Nat)
  extraJvmArgs : List String

structure LaunchPlanRequest where
  targetVersionId : String
  auth : LaunchAuthContext
  settings : LaunchOptions
  mainClass : String
  libraries : List String
  support : JvmSupport

/-- What the steps of a plan answer whose code stands elsewhere. -/
structure PlanSteps where
  offlineUuid : String → String
  libraryUnchanged : Bool
  runtimeCompatible : Bool
  presetKept : Bool
  nativesAvailable : Bool
  pathsEncoded : Bool
  natives : String
  resolved : List String × List String
  bootThrottleArgs : List String
  gcPresetArgs : List String
  revalidated : Except LaunchPlanError Unit

/-! ### Arguments of the user -/

/-- The key of the property that an argument sets. -/
def propertyKey (arg : String) : Option String :=
  (stripPrefix "-D" arg).map fun property =>
    String.ofList (property.toList.takeWhile fun char => char ≠ '=')

def runtimeTempDirectories : List String :=
  ["java.io.tmpdir", "jna.tmpdir", "org.lwjgl.system.SharedLibraryExtractPath",
    "io.netty.native.workdir"]

def setsRuntimeTempDirectory (arg : String) : Bool :=
  (propertyKey arg).any fun key => key ∈ runtimeTempDirectories

def ownedProperties : List String :=
  ["java.class.path", "java.library.path", "java.home", "org.lwjgl.librarypath",
    "minecraft.applet.TargetDirectory"]

def reservedOptions : List String :=
  ["-cp", "-classpath", "--class-path", "-jar", "-m", "--module", "--module-path", "-p"]

def reserved (arg : String) : Bool :=
  startsWith arg "-Xmx" || startsWith arg "-Xms" || startsWith arg "-javaagent" ||
    startsWith arg "-agent" || startsWith arg "-Xbootclasspath" ||
    setsRuntimeTempDirectory arg ||
    reservedOptions.any (fun option => arg = option || startsWith arg (option ++ "=")) ||
    (propertyKey arg).any fun key => key ∈ ownedProperties

/-- One turn of the loop of `validate_extra_args`. -/
def validateExtraArg (unlock : Option Nat) (support : Option JvmSupport) (index : Nat)
    (arg : String) : Except LaunchPlanError Unit := do
  if arg = "" ∨ ¬startsWith arg "-" = true ∨ arg.toList.any isControl = true then
    throw .invalidJvmArguments
  if reserved arg then throw .reservedJvmArgument
  if support.any (fun support => (arg = "-XX:+UseShenandoahGC" && !support.shenandoah) ||
      (arg = "-XX:+UseZGC" && !support.zgc) ||
      (arg = "-XX:+ZGenerational" && !support.generationalZgc)) then
    throw .unsupportedJvmOption
  if startsWith arg "-XX:G1NewSizePercent=" || startsWith arg "-XX:G1MaxNewSizePercent=" then
    if support.any fun support => !support.hotspotTuning then throw .unsupportedJvmOption
    if unlock.all fun unlock => index < unlock then throw .jvmOptionOrdering

def validateExtraArgs (args : List String) (support : Option JvmSupport) :
    Except LaunchPlanError Unit :=
  let unlock := args.findIdx? fun arg => arg = "-XX:+UnlockExperimentalVMOptions"
  args.zipIdx.forM fun (arg, index) => validateExtraArg unlock support index arg

def LaunchOptions.maximum (settings : LaunchOptions) : Int := settings.maxMemoryMb.getD 4096

def LaunchOptions.minimum (settings : LaunchOptions) : Int := settings.minMemoryMb.getD 512

def validateSettings (settings : LaunchOptions) (support : Option JvmSupport) :
    Except LaunchPlanError Unit := do
  if settings.resolution.any fun (width, height) =>
      !(320 ≤ width && width ≤ 16384) || !(320 ≤ height && height ≤ 16384) then
    throw .invalidResolution
  if ¬(512 ≤ settings.maximum ∧ settings.maximum ≤ 1024 * 1024) ∨
      ¬(256 ≤ settings.minimum ∧ settings.minimum ≤ settings.maximum) then
    throw .invalidMemory
  validateExtraArgs settings.extraJvmArgs support

/-! ### The command -/

def LaunchAuthContext.isOffline (auth : LaunchAuthContext) (offlineUuid : String → String) : Bool :=
  auth.accessToken = "0" && auth.clientId = "" && auth.xuid = "" &&
    auth.uuid = offlineUuid auth.playerName

def validPlayerName (auth : LaunchAuthContext) (offlineUuid : String → String) : Bool :=
  let length := (utf8 auth.playerName).length
  (if auth.isOffline offlineUuid then 3 ≤ length && length ≤ 16
    else auth.playerName ≠ "" && length ≤ 16) &&
    auth.playerName.toList.all fun char => char.isAlphanum || char = '_'

def configureNativePaths (args : List String) (natives : String) : List String :=
  args.filter (fun arg => !setsRuntimeTempDirectory arg) ++
    if natives = "" then [] else ["-Djava.library.path=" ++ natives]

def offlineHosts : List String :=
  "-Dminecraft.api.env=custom" :: ["auth", "account", "session", "services"].map fun service =>
    "-Dminecraft.api." ++ service ++ ".host=https://nope.invalid"

def legacyMirror : String :=
  "-Dfml.core.libraries.mirror=https://web.archive.org/web/20200830040255if_/" ++
    "http://files.minecraftforge.net/fmllibs/%s"

/-- What stands before the arguments of the user. -/
def launcherArgs (steps : PlanSteps) (request : LaunchPlanRequest) : List String :=
  configureNativePaths (steps.resolved.1 ++ steps.bootThrottleArgs ++ steps.gcPresetArgs ++
      ["-Xmx" ++ toString request.settings.maximum ++ "M",
        "-Xms" ++ toString request.settings.minimum ++ "M"]) steps.natives ++
    (if request.auth.isOffline steps.offlineUuid ∧
        request.targetVersionId ∈ ["1.16.4", "1.16.5"] then offlineHosts else []) ++
    (if request.targetVersionId ∈ ["1.5", "1.5.1", "1.5.2"] ∧
        "net.minecraftforge:legacyfixer:1.0" ∈ request.libraries then [legacyMirror] else [])

/-- Whether a text can be a main class. -/
def validMainClass (mainClass : String) : Bool :=
  mainClass ≠ "" && !startsWith mainClass "-" &&
    mainClass.toList.all fun char => char.isAlphanum || char ∈ ['.', '_', '$']

/-- Whether a text may stand in a command. -/
def validArgument (arg : String) : Bool :=
  !containsText arg "$\x7b" && !arg.toList.any fun char => char ∈ ['\x00', '\n', '\r']

def build (steps : PlanSteps) (request : LaunchPlanRequest) :
    Except LaunchPlanError (List String) := do
  if ¬steps.libraryUnchanged = true then throw .libraryChanged
  if ¬steps.runtimeCompatible = true then throw .runtimeIncompatible
  if ¬validPlayerName request.auth steps.offlineUuid = true ∨
      (utf8 request.auth.uuid).length ≠ 32 ∨ ¬request.auth.uuid.toList.all isHexDigit = true ∨
      request.auth.accessToken = "" then
    throw .invalidAccount
  validateSettings request.settings (some request.support)
  if ¬steps.presetKept = true then throw .incompatiblePreset
  if ¬steps.nativesAvailable = true then throw .nativesUnavailable
  if ¬steps.pathsEncoded = true then throw .invalidCommand
  if ¬validMainClass request.mainClass = true then throw .invalidCommand
  let args := launcherArgs steps request ++ request.settings.extraJvmArgs ++
    request.mainClass :: steps.resolved.2
  if 16384 < args.length ∨ 2 * 1024 * 1024 < (args.map fun arg => (utf8 arg).length).sum ∨
      ¬args.all validArgument = true then
    throw .invalidCommand
  steps.revalidated
  return args

/-! ### What Java makes of a command -/

/-- Whether the argument after these is the value of an option, for the options that take their
value from the argument after them. -/
def expecting (takes : String → Bool) (args : List String) : Bool :=
  args.foldl (fun expects arg => !expects && takes arg) false

/-- The last argument that sets a property. -/
def lastSetting (key : String) (args : List String) : Option String :=
  args.reverse.find? fun arg => propertyKey arg = some key

/-- The arguments that Java reads as options: those that are not the value of the one before. -/
def optionsFrom (takes : String → Bool) : Bool → List String → List String
  | _, [] => []
  | true, _ :: rest => optionsFrom takes false rest
  | false, arg :: rest => arg :: optionsFrom takes (takes arg) rest

/-- An option of this name, with its value after it or after an equals sign. -/
def Spells (option arg : String) : Prop := arg = option ∨ startsWith arg (option ++ "=") = true

/-- What Java takes for the choice of a class path, a module, a jar or an agent. -/
def SelectsEntrypoint (arg : String) : Prop :=
  arg ∈ ["-cp", "-classpath", "-jar", "-m", "-p"] ∨
    (∃ option ∈ ["--class-path", "--module", "--module-path", "--upgrade-module-path",
      "--add-modules", "--limit-modules", "--patch-module"], Spells option arg) ∨
    ∃ start ∈ ["-javaagent:", "-agentlib:", "-agentpath:", "-Xbootclasspath:",
      "-Xbootclasspath/a:", "-Xbootclasspath/p:", "-Xrun", "-XX:VMOptionsFile=",
      "-Djava.ext.dirs=", "-Djava.endorsed.dirs="], startsWith arg start = true

/-- Such a choice of which `validate_extra_args` knows nothing. -/
def Overlooked (arg : String) : Prop :=
  (∃ option ∈ ["--upgrade-module-path", "--add-modules", "--limit-modules", "--patch-module"],
    Spells option arg) ∨
    ∃ start ∈ ["-Xrun", "-XX:VMOptionsFile=", "-Djava.ext.dirs=", "-Djava.endorsed.dirs="],
      startsWith arg start = true

instance (option arg : String) : Decidable (Spells option arg) :=
  inferInstanceAs (Decidable (_ ∨ _))

instance (arg : String) : Decidable (Overlooked arg) :=
  inferInstanceAs (Decidable (_ ∨ _))

def SetsHeapBounds (arg : String) : Prop :=
  startsWith arg "-Xmx" = true ∨ startsWith arg "-Xms" = true

/-- The user's arguments behind those of the launcher take nothing over. -/
structure Contained (takes : String → Bool) (launcher user : List String) : Prop where
  settings : ∀ key ∈ ownedProperties ++ runtimeTempDirectories,
    (∀ arg ∈ user, propertyKey arg ≠ some key) ∧
      lastSetting key (launcher ++ user) = lastSetting key launcher
  entrypoints : ∀ arg ∈ optionsFrom takes (expecting takes launcher) user,
    ¬SelectsEntrypoint arg ∧ ¬SetsHeapBounds arg
  mainClass : expecting takes (launcher ++ user) = false

/-! ### What is refused -/

variable {args : List String}

theorem reserved_of_validated {support : Option JvmSupport}
    (validated : validateExtraArgs args support = .ok ()) : ∀ arg ∈ args, reserved arg = false := by
  intro arg member
  obtain ⟨index, inside, rfl⟩ := mem_iff_getElem.mp member
  have listed : (args[index], index) ∈ args.zipIdx := by
    rw [mk_mem_zipIdx_iff_getElem?]
    exact getElem?_eq_getElem inside
  have one := forM_eq_ok.mp validated _ listed
  unfold validateExtraArg at one
  obtain ⟨-, one⟩ := guard_eq_ok.mp one
  obtain ⟨free, -⟩ := guard_eq_ok.mp one
  exact Bool.eq_false_of_not_eq_true free

variable {arg key : String}

/-- An argument that is not reserved sets none of the launcher's properties. -/
theorem propertyKey_of_free (free : reserved arg = false)
    (owned : key ∈ ownedProperties ++ runtimeTempDirectories) : propertyKey arg ≠ some key := by
  intro sets
  unfold reserved setsRuntimeTempDirectory at free
  rw [sets] at free
  simp only [Option.any_some, Bool.or_eq_false_iff, decide_eq_false_iff_not] at free
  exact (mem_append.mp owned).elim free.2 free.1.1.2

theorem startsWith_trans {start more : String} (longer : startsWith more start = true)
    (starts : startsWith arg more = true) : startsWith arg start = true := by
  unfold startsWith at *
  rw [List.isPrefixOf_iff_prefix] at *
  exact longer.trans starts

theorem heap_of_free (free : reserved arg = false) : ¬SetsHeapBounds arg := by
  unfold reserved at free
  simp only [Bool.or_eq_false_iff] at free
  obtain ⟨⟨⟨⟨⟨⟨⟨maximum, minimum⟩, -⟩, -⟩, -⟩, -⟩, -⟩, -⟩ := free
  rintro (starts | starts)
  · exact Bool.false_ne_true (maximum.symm.trans starts)
  · exact Bool.false_ne_true (minimum.symm.trans starts)

/-- The choices that are not refused are the overlooked ones. -/
theorem selects_iff_overlooked (free : reserved arg = false) :
    SelectsEntrypoint arg ↔ Overlooked arg := by
  unfold reserved at free
  simp only [Bool.or_eq_false_iff, any_eq_false, decide_eq_true_eq, Bool.or_eq_true] at free
  obtain ⟨⟨⟨⟨⟨⟨⟨-, -⟩, javaagent⟩, agent⟩, bootclasspath⟩, -⟩, options⟩, -⟩ := free
  have refusedOption {option : String} (listed : option ∈ reservedOptions) : ¬Spells option arg :=
    options option listed
  have refusedStart {start more : String} (refused : startsWith arg start = false)
      (longer : startsWith more start = true) : ¬startsWith arg more = true := fun starts =>
    Bool.false_ne_true (refused.symm.trans (startsWith_trans longer starts))
  constructor
  · rintro (listed | ⟨option, listed, spells⟩ | ⟨start, listed, starts⟩)
    · have known : ∀ option ∈ ["-cp", "-classpath", "-jar", "-m", "-p"],
          option ∈ reservedOptions := by decide
      exact absurd (.inl rfl) (refusedOption (known arg listed))
    · simp only [mem_cons, not_mem_nil, or_false] at listed
      rcases listed with rfl | rfl | rfl | others
      · exact absurd spells (refusedOption (by decide))
      · exact absurd spells (refusedOption (by decide))
      · exact absurd spells (refusedOption (by decide))
      · exact .inl ⟨option, by simpa only [mem_cons, not_mem_nil, or_false] using others, spells⟩
    · simp only [mem_cons, not_mem_nil, or_false] at listed
      rcases listed with rfl | rfl | rfl | rfl | rfl | rfl | others
      · exact absurd starts (refusedStart javaagent (by decide))
      · exact absurd starts (refusedStart agent (by decide))
      · exact absurd starts (refusedStart agent (by decide))
      · exact absurd starts (refusedStart bootclasspath (by decide))
      · exact absurd starts (refusedStart bootclasspath (by decide))
      · exact absurd starts (refusedStart bootclasspath (by decide))
      · exact .inr ⟨start, by simpa only [mem_cons, not_mem_nil, or_false] using others, starts⟩
  · rintro (⟨option, listed, spells⟩ | ⟨start, listed, starts⟩)
    · exact .inr (.inl ⟨option, mem_append_right ["--class-path", "--module", "--module-path"]
        listed, spells⟩)
    · exact .inr (.inr ⟨start, mem_append_right ["-javaagent:", "-agentlib:", "-agentpath:",
        "-Xbootclasspath:", "-Xbootclasspath/a:", "-Xbootclasspath/p:"] listed, starts⟩)

theorem mem_of_mem_optionsFrom {takes : String → Bool} {expects : Bool}
    (member : arg ∈ optionsFrom takes expects args) : arg ∈ args := by
  induction args generalizing expects with
  | nil => cases expects <;> cases member
  | cons first rest ih =>
    cases expects with
    | true => exact mem_cons_of_mem _ (ih member)
    | false =>
      rcases mem_cons.mp member with rfl | later
      · exact mem_cons_self
      · exact mem_cons_of_mem _ (ih later)

theorem lastSetting_append {launcher user : List String}
    (unset : ∀ arg ∈ user, propertyKey arg ≠ some key) :
    lastSetting key (launcher ++ user) = lastSetting key launcher := by
  have none : user.reverse.find? (fun arg => propertyKey arg = some key) = none := by
    rw [find?_eq_none]
    intro arg member
    rw [decide_eq_true_eq]
    exact unset arg (mem_reverse.mp member)
  unfold lastSetting
  rw [reverse_append, find?_append, none, Option.none_or]

/-! ### What the launcher leaves open -/

section

variable {takes : String → Bool}

/-- Some arguments of which the last takes no value. -/
def EndsPlain (takes : String → Bool) (args : List String) : Prop :=
  ∃ before last, args = before ++ [last] ∧ takes last = false

theorem EndsPlain.append {args more : List String} (ends : EndsPlain takes args)
    (plain : ∀ arg ∈ more, takes arg = false) : EndsPlain takes (args ++ more) := by
  rcases eq_nil_or_concat more with rfl | ⟨before, last, rfl⟩
  · rwa [List.append_nil]
  · rw [concat_eq_append] at plain ⊢
    refine ⟨args ++ before, last, (append_assoc ..).symm, plain last ?_⟩
    exact mem_append_right _ (mem_singleton_self _)

theorem endsPlain_filter {keeps : String → Bool} {last : String} (kept : keeps last = true)
    (plain : takes last = false) : EndsPlain takes ((args ++ [last]).filter keeps) :=
  ⟨args.filter keeps, last, by rw [filter_append, filter_cons_of_pos kept,
    filter_nil], plain⟩

/-- After an argument that takes no value, Java reads on as from the start. -/
theorem EndsPlain.expecting_append (ends : EndsPlain takes args) (user : List String) :
    expecting takes (args ++ user) = expecting takes user := by
  obtain ⟨before, last, rfl, plain⟩ := ends
  unfold expecting
  rw [append_assoc, foldl_append, singleton_append, foldl_cons, plain,
    Bool.and_false]

theorem startsWith_of_append {start more rest : String}
    (longer : startsWith more start = true) : startsWith (more ++ rest) start = true := by
  unfold startsWith at *
  rw [List.isPrefixOf_iff_prefix] at *
  rw [String.toList_append]
  exact longer.trans (prefix_append _ _)

/-- The heap bounds are no settings of properties. -/
theorem setsRuntimeTempDirectory_heap (rest : String) :
    setsRuntimeTempDirectory ("-Xmx" ++ rest) = false ∧
      setsRuntimeTempDirectory ("-Xms" ++ rest) = false := by
  have other (start : String) (apart : "-D".toList.isPrefixOf (start ++ rest).toList = false) :
      setsRuntimeTempDirectory (start ++ rest) = false := by
    unfold setsRuntimeTempDirectory propertyKey stripPrefix
    rw [apart]
    rfl
  constructor
  · refine other _ ?_
    rw [String.toList_append]
    rfl
  · refine other _ ?_
    rw [String.toList_append]
    rfl

theorem launcherArgs_endsPlain (plain : ∀ arg,
    startsWith arg "-X" = true ∨ startsWith arg "-D" = true → takes arg = false)
    (steps : PlanSteps) (request : LaunchPlanRequest) :
    EndsPlain takes (launcherArgs steps request) := by
  have heap (rest : String) : takes ("-Xms" ++ rest) = false :=
    plain _ (Or.inl (startsWith_of_append (by decide)))
  have path : takes ("-Djava.library.path=" ++ steps.natives) = false :=
    plain _ (Or.inr (startsWith_of_append (by decide)))
  have hosts : ∀ arg ∈ offlineHosts, takes arg = false := by
    intro arg member
    have starts : offlineHosts.all fun arg => startsWith arg "-D" := by decide
    exact plain arg (Or.inr (all_eq_true.mp starts arg member))
  have mirror : takes legacyMirror = false :=
    plain _ (Or.inr (startsWith_of_append (by decide)))
  unfold launcherArgs configureNativePaths
  refine EndsPlain.append (EndsPlain.append (EndsPlain.append ?_ ?_) ?_) ?_
  · rw [append_cons]
    refine endsPlain_filter ?_ ?_
    · rw [String.append_assoc, (setsRuntimeTempDirectory_heap _).2]
      rfl
    · rw [String.append_assoc]
      exact heap _
  · intro arg member
    split at member
    · cases member
    · rw [mem_singleton.mp member]
      exact path
  · intro arg member
    split at member
    · exact hosts arg member
    · cases member
  · intro arg member
    split at member
    · rw [mem_singleton.mp member]
      exact mirror
    · cases member

/-- What a command that is built consists of. -/
theorem build_spec {steps : PlanSteps} {request : LaunchPlanRequest}
    (built : build steps request = .ok args) :
    args = launcherArgs steps request ++ request.settings.extraJvmArgs ++
        request.mainClass :: steps.resolved.2 ∧
      validateExtraArgs request.settings.extraJvmArgs (some request.support) = .ok () := by
  unfold build at built
  obtain ⟨-, built⟩ := guard_eq_ok.mp built
  obtain ⟨-, built⟩ := guard_eq_ok.mp built
  obtain ⟨-, built⟩ := guard_eq_ok.mp built
  obtain ⟨⟨⟩, settings, built⟩ := bind_eq_ok.mp built
  obtain ⟨-, built⟩ := guard_eq_ok.mp built
  obtain ⟨-, built⟩ := guard_eq_ok.mp built
  obtain ⟨-, built⟩ := guard_eq_ok.mp built
  obtain ⟨-, built⟩ := guard_eq_ok.mp built
  obtain ⟨-, built⟩ := guard_eq_ok.mp built
  obtain ⟨_, -, built⟩ := bind_eq_ok.mp built
  unfold validateSettings at settings
  obtain ⟨-, settings⟩ := guard_eq_ok.mp settings
  obtain ⟨-, validated⟩ := guard_eq_ok.mp settings
  exact ⟨(pure_eq_ok.mp built).symm, validated⟩

/-- The user's arguments take nothing over exactly if none of their options is an overlooked choice
or still waits for its value where the main class follows. Options that begin with `-X` or `-D`
have their values in themselves. -/
theorem build_contained_iff (plain : ∀ arg,
    startsWith arg "-X" = true ∨ startsWith arg "-D" = true → takes arg = false)
    {steps : PlanSteps} {request : LaunchPlanRequest} {args : List String}
    (built : build steps request = .ok args) :
    args = launcherArgs steps request ++ request.settings.extraJvmArgs ++
        request.mainClass :: steps.resolved.2 ∧
      (Contained takes (launcherArgs steps request) request.settings.extraJvmArgs ↔
        (∀ arg ∈ optionsFrom takes false request.settings.extraJvmArgs, ¬Overlooked arg) ∧
          expecting takes request.settings.extraJvmArgs = false) := by
  obtain ⟨whole, validated⟩ := build_spec built
  have free := reserved_of_validated validated
  have ends := launcherArgs_endsPlain plain steps request
  have same := ends.expecting_append request.settings.extraJvmArgs
  have start : expecting takes (launcherArgs steps request) = false := by
    have alone := ends.expecting_append []
    rwa [List.append_nil] at alone
  have chosen {arg : String} (member : arg ∈ optionsFrom takes false request.settings.extraJvmArgs) :
      SelectsEntrypoint arg ↔ Overlooked arg :=
    selects_iff_overlooked (free arg (mem_of_mem_optionsFrom member))
  refine ⟨whole, fun contained => ⟨fun arg member => ?_, same ▸ contained.mainClass⟩,
    fun ⟨known, closed⟩ => ⟨?_, ?_, ?_⟩⟩
  · have chooses := contained.entrypoints arg
    rw [start] at chooses
    exact mt (chosen member).mpr (chooses member).1
  · intro key owned
    have unset (arg : String) (member : arg ∈ request.settings.extraJvmArgs) :=
      propertyKey_of_free (free arg member) owned
    exact ⟨unset, lastSetting_append unset⟩
  · rw [start]
    intro arg member
    exact ⟨mt (chosen member).mp (known arg member),
      heap_of_free (free arg (mem_of_mem_optionsFrom member))⟩
  · rw [same]
    exact closed

end

/-! ### An option that waits for the main class -/

/-- The options of `java` that take their value from the argument after them. -/
def valueOptions : List String :=
  ["-cp", "-classpath", "--class-path", "-p", "--module-path", "--upgrade-module-path", "-m",
    "--module", "--add-modules", "--limit-modules", "--add-exports", "--add-opens", "--add-reads",
    "--patch-module", "--enable-native-access", "-d", "--describe-module", "--source"]

def takesNext (arg : String) : Bool := arg ∈ valueOptions

theorem takesNext_plain (arg : String)
    (starts : startsWith arg "-X" = true ∨ startsWith arg "-D" = true) : takesNext arg = false := by
  have none : valueOptions.all (fun option =>
      !startsWith option "-X" && !startsWith option "-D") = true := by decide
  refine decide_eq_false fun listed => ?_
  have both := all_eq_true.mp none arg listed
  simp only [Bool.and_eq_true, Bool.not_eq_true'] at both
  rcases starts with heap | property
  · exact Bool.false_ne_true (both.1.symm.trans heap)
  · exact Bool.false_ne_true (both.2.symm.trans property)

/-- Every check passes. -/
def demoSteps : PlanSteps where
  offlineUuid _ := ""
  libraryUnchanged := true
  runtimeCompatible := true
  presetKept := true
  nativesAvailable := true
  pathsEncoded := true
  natives := ""
  resolved := (["-cp", "a.jar"], ["--demo"])
  bootThrottleArgs := []
  gcPresetArgs := []
  revalidated := .ok ()

def demoRequest (extraJvmArgs : List String) : LaunchPlanRequest where
  targetVersionId := "1.20"
  auth := ⟨"Abc", "0123456789abcdef0123456789abcdef", "t", "", ""⟩
  settings := ⟨none, none, none, extraJvmArgs⟩
  mainClass := "a.Main"
  libraries := []
  support := ⟨true, true, true, true⟩

theorem build_addModules : build demoSteps (demoRequest ["--add-modules"]) = .ok
    ["-cp", "a.jar", "-Xmx4096M", "-Xms512M", "--add-modules", "a.Main", "--demo"] := by
  decide

theorem build_addOpens :
    build demoSteps (demoRequest ["-Xss4M", "--add-opens", "-Dexample"]) = .ok
      ["-cp", "a.jar", "-Xmx4096M", "-Xms512M", "-Xss4M", "--add-opens", "-Dexample", "a.Main",
        "--demo"] := by
  decide

/-- An option that is followed by its value takes nothing over. -/
theorem build_contained_addOpens : Contained takesNext
    (launcherArgs demoSteps (demoRequest ["-Xss4M", "--add-opens", "-Dexample"]))
    ["-Xss4M", "--add-opens", "-Dexample"] :=
  (build_contained_iff takesNext_plain build_addOpens).2.mpr (by decide)

/-- The main class becomes the name of a module. -/
theorem build_not_contained :
    ¬∀ (steps : PlanSteps) (request : LaunchPlanRequest) (args : List String),
      build steps request = .ok args →
      Contained takesNext (launcherArgs steps request) request.settings.extraJvmArgs := by
  intro contained
  have closed := (contained _ _ _ build_addModules).mainClass
  revert closed
  decide

end Axial.Launch
