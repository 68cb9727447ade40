import InstallLinux.ShellTextProofs
import InstallLinux.ShellRunProofs
import InstallLinux.ShellScriptProofs
import InstallLinux.ShellEditsProofs
import InstallLinux.ShellQuoteProofs
import InstallLinux.ShellFilesProofs
import InstallLinux.JsonTextProofs
import InstallLinux.JsonSearchProofs
import InstallLinux.SetupRootDriveProofs
import InstallLinux.SetupMountPromptProofs
import InstallLinux.SetupMountPathProofs
import InstallLinux.SetupFormatLoopProofs
import InstallLinux.SetupSystemDiskProofs
import InstallLinux.SetupFstabProofs
import InstallLinux.SetupShareProofs
import InstallLinux.SetupHighpointProofs
import InstallLinux.SetupDriverProofs
import InstallLinux.SetupAutorunProofs
import InstallLinux.SetupOrderDataProofs
import InstallLinux.SetupSoftwareProofs
import InstallLinux.ShellCounterProofs
import InstallLinux.SetupDriveNamesProofs
import InstallLinux.SetupBootTableProofs
import InstallLinux.SetupAutoRaidProofs
import InstallLinux.SetupOrderIdProofs
import InstallLinux.ShellSedProofs
import InstallLinux.SetupGrubProofs
import InstallLinux.IndentTextProofs
import InstallLinux.SectionTextProofs
import InstallLinux.SetupNetplanProofs
import InstallLinux.SetupLegacyProofs
import InstallLinux.SetupTitleBarProofs
import InstallLinux.SetupReviewProofs
import InstallLinux.SetupReportProofs
import InstallLinux.SetupShareRetryProofs
import InstallLinux.SetupOrderSearchProofs
import InstallLinux.SetupOrderBootsProofs
import InstallLinux.SetupHostsProofs
import InstallLinux.SetupIntelDisplayProofs
import InstallLinux.SetupHighpointBootsProofs
import InstallLinux.SetupMasterProofs
import InstallLinux.SetupMasterFixesProofs
import InstallLinux.SetupMasterBootsProofs
import InstallLinux.SetupDeliveryProofs
import InstallLinux.SetupVizgenProofs
import InstallLinux.SetupPowerLimitProofs
