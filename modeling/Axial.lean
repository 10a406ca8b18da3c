import Axial.Fs.Agreement
import Axial.Fs.Drain
import Axial.Fs.ReplayRuns
import Axial.App.TaskOwner
import Axial.Resource.PhysicalWork
import Axial.Resource.WorkGroup
import Axial.Minecraft.AncestorJournal
import Axial.Install.Scheduling
import Axial.Install.Settlement
import Axial.Launch.IntentRejection
import Axial.Launch.SessionSafety
import Axial.Minecraft.KnownGoodProjection
import Axial.Skins.Answered
import Axial.Update.Verified
import Axial.Minecraft.ForgeClosure
import Axial.Minecraft.InstallerSeal
import Axial.Performance.VersionOrder
import Axial.Performance.AppVersionOrder
import Axial.App.ChoiceOrder
import Axial.Install.SetupEnqueue
import Axial.Minecraft.BuildIdentity
import Axial.Minecraft.LibraryMerge
import Axial.Launch.LogChunks
import Axial.Launch.CommandArguments
import Axial.App.PackArchive
import Axial.Minecraft.ContentObservation
import Axial.App.Provenance
import Axial.Launch.ReportRecord
import Axial.App.DuplicateNames
import Axial.App.LogTail
import Axial.Minecraft.ComponentOutcome
import Axial.Minecraft.ActivationContract
