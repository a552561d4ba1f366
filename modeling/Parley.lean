import Parley.Frame.Read
import Parley.Proofs.Cancelling
import Parley.Proofs.Contiguous
import Parley.Proofs.Cut
import Parley.Proofs.Handled
import Parley.Proofs.Stream
import Parley.Session.Run
import Parley.Proofs.Whole
import Parley.Proofs.Release
import Parley.Proofs.Releasing
import Parley.Proofs.Lifetime
import Parley.Proofs.Channel
import Parley.Proofs.Asking
import Parley.Proofs.Refusal
import Parley.Proofs.Agreement
import Parley.Proofs.Inherited
import Parley.Proofs.Grammar
import Parley.Proofs.Blocks
import Parley.Proofs.Withdrawal
import Parley.Proofs.Closest
import Parley.Proofs.Heard
import Parley.Proofs.Tables
import Parley.Proofs.Chronicle
import Parley.Proofs.Filing
import Parley.Proofs.Retracting
import Parley.Proofs.Segments
import Parley.Proofs.SingleCut
import Parley.Proofs.Identifiers
