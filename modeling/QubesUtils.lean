import QubesUtils.Pure
import QubesUtils.PathLanguage
import QubesUtils.LinkTarget
import QubesUtils.SymlinkConfinement
import QubesUtils.NoFalseSuccess
import QubesUtils.UnpackReport
import QubesUtils.PartialFiles
import QubesUtils.GptReadBack
import QubesUtils.GptCrash
import QubesUtils.Crc32
import QubesUtils.GptHeaderBounds
import QubesUtils.GptWellFormed
import QubesUtils.GptRevalidate
import QubesUtils.GptAllOrNothing
import QubesUtils.GptExitStatus
import QubesUtils.GptPreconditions
import QubesUtils.SanitizeFit
import QubesUtils.NoOverrun
import QubesUtils.ValidatorFlags
import QubesUtils.ShortCounts
import QubesUtils.ResultMessage
import QubesUtils.RefusedEntry
import QubesUtils.TmpfileMode
import QubesUtils.AllowlistGenerator
import QubesUtils.CNumber
import QubesUtils.DeviceNumbers
import QubesUtils.Genfs
import QubesUtils.GenfsExact
import QubesUtils.GenfsPaths
import QubesUtils.GenfsTimes
import QubesUtils.ImageAgreement
import QubesUtils.ImageTint
import QubesUtils.Meminfo
import QubesUtils.MeminfoLoop
import QubesUtils.MeminfoRuns
import QubesUtils.OpendirComponents
import QubesUtils.QubeName
import QubesUtils.TintExact
import QubesUtils.Acceptance
import QubesUtils.CalmSender
import QubesUtils.Corruption
import QubesUtils.WithoutLinks
import QubesUtils.HotplugCalls
import QubesUtils.HotplugInterleaved
import QubesUtils.HotplugRun
import QubesUtils.GptRestart
import QubesUtils.Quota
import QubesUtils.Accounts
import QubesUtils.GptRoundTrip
