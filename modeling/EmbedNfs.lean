import EmbedNfs.Properties.AtMostOnce
import EmbedNfs.Properties.ClientIsolation
import EmbedNfs.Properties.ClientRecords
import EmbedNfs.Properties.ClientRestart
import EmbedNfs.Properties.ConfirmTokens
import EmbedNfs.Properties.DelegationCoherence
import EmbedNfs.Properties.DelegationLimits
import EmbedNfs.Properties.FilehandleSweep
import EmbedNfs.Properties.FilehandleTables
import EmbedNfs.Properties.Invalidation
import EmbedNfs.Properties.IoAdmission
import EmbedNfs.Properties.LastWriter
import EmbedNfs.Properties.LeaseExpiry
import EmbedNfs.Properties.LeaseReaping
import EmbedNfs.Properties.LockAttachment
import EmbedNfs.Properties.LockExclusion
import EmbedNfs.Properties.LockOpens
import EmbedNfs.Properties.LockOwners
import EmbedNfs.Properties.MemFsChange
import EmbedNfs.Properties.MemFsTree
import EmbedNfs.Properties.OrphanedState
import EmbedNfs.Properties.ReaddirEnumeration
import EmbedNfs.Properties.RecallCompleteness
import EmbedNfs.Properties.RecordMarking
import EmbedNfs.Properties.Restart
import EmbedNfs.Properties.Retirement
import EmbedNfs.Properties.RetirementFence
import EmbedNfs.Properties.RetryFidelity
import EmbedNfs.Properties.RevocationSignal
import EmbedNfs.Properties.ShareReservations
import EmbedNfs.Properties.StateOwnership
import EmbedNfs.Properties.StateidVersions
import EmbedNfs.Properties.V40Restart
import EmbedNfs.Properties.ReaddirSize
import EmbedNfs.Properties.XattrPaging
import EmbedNfs.Properties.RetiredMetadata
import EmbedNfs.Properties.CallbackSlots
import EmbedNfs.Properties.ReplyFraming
import EmbedNfs.Properties.MemFsAtomicity
import EmbedNfs.Properties.MemFsMoves
import EmbedNfs.Properties.SettableAttributes
import EmbedNfs.Properties.VerifyGetattr
import EmbedNfs.Properties.XdrRoundTrip
import EmbedNfs.Properties.CompoundShape
import EmbedNfs.Properties.StateidMeaning
