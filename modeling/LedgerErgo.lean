import LedgerErgo.Common.RwBufferQueue
import LedgerErgo.Common.GveEncode
import LedgerErgo.Helpers.InputFrame
import LedgerErgo.Ergo.Delivery
import LedgerErgo.Ergo.FullMachine
import LedgerErgo.Ergo.BoxErrors
import LedgerErgo.Ergo.SchnorrNonce
import LedgerErgo.Ergo.SchnorrVerify
import LedgerErgo.Commands.SignTx.OutputPhase
import LedgerErgo.Commands.SignTx.ChangeApproval
import LedgerErgo.Commands.SignTx.TokenIndex
import LedgerErgo.Commands.SignTx.Variants
import LedgerErgo.Commands.SignTx.Destination
import LedgerErgo.Commands.SignTx.Handler
import LedgerErgo.Commands.AttestInput.Response
import LedgerErgo.SessionIds
import LedgerErgo.ReviewRuns
import LedgerErgo.SessionEnds
import LedgerErgo.Consent
import LedgerErgo.Prompts
import LedgerErgo.SigningRuns
import LedgerErgo.BlindSigning
import LedgerErgo.AttestRuns
import LedgerErgo.InputRuns
import LedgerErgo.PartRuns
