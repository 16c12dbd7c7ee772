import RetiredCommand.Main
import RetiredCommand.StandardError
import RetiredCommand.Proofs.Accounting
import RetiredCommand.Proofs.Interruption
import RetiredCommand.Proofs.Exchange
import RetiredCommand.Proofs.Flushing
import RetiredCommand.Proofs.Filling
import RetiredCommand.Proofs.WholeLines
import RetiredCommand.Proofs.Text
import RetiredCommand.Proofs.Names
import RetiredCommand.Proofs.Flags
import RetiredCommand.Proofs.Reading
import RetiredCommand.Proofs.Sessions
import RetiredCommand.Proofs.UnknownFlags
import RetiredCommand.Proofs.Values
import RetiredCommand.Proofs.Paths
import RetiredCommand.Proofs.Outcomes
import RetiredCommand.Proofs.Cutting
import RetiredCommand.Proofs.Stopping
import RetiredCommand.Proofs.Duration
