import Blake2s.Backend.Doubles
import Blake2s.Derivation
import Blake2s.Proofs.Backend.Lawful
import Blake2s.Proofs.Block
import Blake2s.Proofs.Compress.Blocks
import Blake2s.Proofs.Compress.Columns
import Blake2s.Proofs.Compress.Counting
import Blake2s.Proofs.Compress.Masked
import Blake2s.Proofs.Compress.Rows
import Blake2s.Proofs.Config
import Blake2s.Proofs.Counter
import Blake2s.Proofs.Derivation
import Blake2s.Proofs.Engine.Alike
import Blake2s.Proofs.Engine.Offering
import Blake2s.Proofs.Engine.Operations
import Blake2s.Proofs.Engine.Total
import Blake2s.Proofs.Hasher
import Blake2s.Proofs.Host.Asking
import Blake2s.Proofs.Host.Demands
import Blake2s.Proofs.Host.Detection
import Blake2s.Proofs.Host.Exercised
import Blake2s.Proofs.Host.Lawful
import Blake2s.Proofs.Host.Offers
import Blake2s.Proofs.Host.Resolving
import Blake2s.Proofs.Host.Sound
import Blake2s.Proofs.Host.Verdict
import Blake2s.Proofs.Mac
import Blake2s.Proofs.Output
import Blake2s.Proofs.Parameters.Format
import Blake2s.Proofs.Parameters.Layout
import Blake2s.Proofs.SelfTest.Agreeing
import Blake2s.Proofs.SelfTest.Answers
import Blake2s.Proofs.SelfTest.Hashes
import Blake2s.Proofs.SelfTest.Offers
import Blake2s.Proofs.Session.Calls
import Blake2s.Proofs.Session.Failures
import Blake2s.Proofs.Session.Hashers
import Blake2s.Proofs.Session.Histories
import Blake2s.Proofs.Session.Initialization
import Blake2s.Proofs.Session.Interleaving
import Blake2s.Proofs.Session.Nesting
import Blake2s.Proofs.Session.Representation
import Blake2s.Proofs.Session.Resembling
import Blake2s.Proofs.Session.Runs
import Blake2s.Proofs.Session.Selecting
import Blake2s.Proofs.Session.Settled
import Blake2s.Proofs.Session.Steps
import Blake2s.Proofs.Session.Transparency
import Blake2s.Proofs.Standard.Evaluation
import Blake2s.Proofs.Standard.Numbers
import Blake2s.Proofs.Standard.Tables
import Blake2s.Proofs.State.Batches
import Blake2s.Proofs.State.Chunks
import Blake2s.Proofs.State.Content
import Blake2s.Proofs.State.Digest
import Blake2s.Proofs.State.Encoding
import Blake2s.Proofs.State.Failing
import Blake2s.Proofs.State.Increments
import Blake2s.Proofs.State.Starting
import Blake2s.Proofs.Text.Decimal
import Blake2s.Proofs.Text.Numerals
import Blake2s.Proofs.Verification
import Blake2s.Proofs.Words
import Blake2s.Session
import Blake2s.Standard.Mac
import Blake2s.Proofs.Compress.Inverse
import Blake2s.Proofs.SelfTest.Sequence
