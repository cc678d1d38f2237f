import Retry.Backoff
import Retry.Budget
import Retry.Calendar
import Retry.Context.Basic
import Retry.Context.Family
import Retry.Duration
import Retry.Fault.Basic
import Retry.Fault.Judged
import Retry.Fault.Message
import Retry.Gzip.Bits
import Retry.Gzip.Checksum
import Retry.Gzip.Huffman
import Retry.Gzip.Inflate
import Retry.Gzip.Member
import Retry.Http.Body
import Retry.Http.ContentEncoding
import Retry.Http.Date
import Retry.Http.Decoding
import Retry.Http.Exchange
import Retry.Http.Headers
import Retry.Http.MediaType
import Retry.Http.Retrier.Basic
import Retry.Http.Retrier.Run
import Retry.Http.RetryAfter
import Retry.Http.Status
import Retry.Jitter
import Retry.Journal
import Retry.Json.Number
import Retry.Json.Quoted
import Retry.Json.Record
import Retry.Json.Token
import Retry.Json.Tree
import Retry.Json.Value
import Retry.Layer
import Retry.Outcome
import Retry.Policy.Basic
import Retry.Policy.Run
import Retry.Proofs.Course
import Retry.Proofs.Delay
import Retry.Proofs.Draw
import Retry.Proofs.Http.Stopping
import Retry.Proofs.Faced
import Retry.Proofs.Isolation
import Retry.Proofs.Revoked
import Retry.Proofs.Journal
import Retry.Proofs.Limit
import Retry.Proofs.Likewise
import Retry.Proofs.Longest
import Retry.Proofs.Onward
import Retry.Proofs.Outcome
import Retry.Proofs.Played
import Retry.Proofs.Punctual
import Retry.Proofs.Reached
import Retry.Proofs.Results
import Retry.Proofs.Rounds
import Retry.Proofs.Laps
import Retry.Proofs.Sleeping
import Retry.Proofs.Spread
import Retry.Proofs.Stopping
import Retry.Proofs.Tally
import Retry.Proofs.Task
import Retry.Proofs.Time
import Retry.Proofs.Waiting
import Retry.Reason
import Retry.Record
import Retry.Sleeper
import Retry.Task
import Retry.Text.Bytes
import Retry.Text.Quoted
import Retry.Text.Unprintable
import Retry.Timeline
import Retry.Verdict
import Retry.Xml.Record
import Retry.Xml.Run
import Retry.Xml.Token
import Retry.Xml.Tree
import Retry.Proofs.Http.Reading
import Retry.Proofs.Http.Attempt
import Retry.Proofs.Http.Held
import Retry.Proofs.Http.Lifecycle
import Retry.Proofs.Http.Accepted
import Retry.Proofs.Http.Rejected
import Retry.Proofs.Http.RetryAfter
import Retry.Proofs.Http.Asking
import Retry.Proofs.Gzip.Member
import Retry.Proofs.Http.Decoding
import Retry.Proofs.Http.Ceiling
import Retry.Proofs.Family.Steps
import Retry.Proofs.Family.Lineage
import Retry.Proofs.Family.Cancelled
import Retry.Proofs.Family.Deadlines
import Retry.Proofs.Lockstep
import Retry.Proofs.Pacing
import Retry.Proofs.Beside
import Retry.Proofs.Timed
import Retry.Proofs.Backoff.Exact
import Retry.Proofs.Backoff.Caps
import Retry.Proofs.Muted
import Retry.Proofs.Layer
import Retry.Proofs.Text
import Retry.Proofs.Calendar
import Retry.Proofs.Http.Date.Pieces
import Retry.Proofs.Http.Date.Spelling
import Retry.Proofs.Http.Date.Text
import Retry.Proofs.Http.Date.Instant
import Retry.Proofs.Http.Grammar
import Retry.Proofs.Gzip.Steady
import Retry.Proofs.Gzip.Inflate
import Retry.Proofs.Gzip.Header
import Retry.Proofs.Gzip.Whole
import Retry.Proofs.Gzip.Stream
import Retry.Proofs.Http.Encoding
import Retry.Proofs.Http.Unpacking
import Retry.Proofs.Http.Untouched
import Retry.Proofs.Http.Dispatch
import Retry.Proofs.Fault.Chain
import Retry.Proofs.Fault.Wrapped
import Retry.Proofs.Fault.Carried
import Retry.Proofs.Lenience
import Retry.Proofs.Logged
import Retry.Proofs.Settings
import Retry.Proofs.Recording
import Retry.Proofs.Http.Chunks
