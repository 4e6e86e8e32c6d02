import BlindSign.Settings
import BlindSign.Proofs.CallOrder
import BlindSign.Proofs.Resubmission
import BlindSign.Proofs.QuotaOvershoot
import BlindSign.Proofs.DoubleCounting
import BlindSign.Proofs.Outcome
import BlindSign.Proofs.Accounting
import BlindSign.Proofs.Base64
import BlindSign.Proofs.Authentication
import BlindSign.Proofs.Fingerprint
import BlindSign.Proofs.Window
import BlindSign.Proofs.Retention
import BlindSign.Proofs.Expiry
import BlindSign.Proofs.Calendar
import BlindSign.Proofs.Isolation
import BlindSign.Proofs.Unread
import BlindSign.Proofs.Json.Records
import BlindSign.Proofs.Presentation
import BlindSign.Proofs.BodyLimit
import BlindSign.Proofs.History
import BlindSign.Proofs.Json.Grammar
import BlindSign.Proofs.Json.Values
import BlindSign.Proofs.Numerals
import BlindSign.Proofs.Replies
import BlindSign.Proofs.Quantities
import BlindSign.Proofs.Answers
import BlindSign.Proofs.Counters
import BlindSign.Proofs.Noting
import BlindSign.Proofs.Conservation
import BlindSign.Proofs.Integers
import BlindSign.Proofs.Net.Grammar
import BlindSign.Proofs.Net.Reading
import BlindSign.Proofs.Net.Writing
import BlindSign.Proofs.Formats
import BlindSign.Proofs.Settings
import BlindSign.Proofs.Accounts
import BlindSign.Proofs.Allowance
import BlindSign.Proofs.Hex
import BlindSign.Proofs.Requirements
import BlindSign.Proofs.Unambiguity
import BlindSign.Proofs.Statuses
import BlindSign.Proofs.QuantityTexts
import BlindSign.Proofs.KeyShares
import BlindSign.Proofs.Curve.Encodings
import BlindSign.Proofs.Base64Texts
import BlindSign.Proofs.BlindedQueries
import BlindSign.Proofs.HexTexts
import BlindSign.Proofs.Clients
import BlindSign.Proofs.Json.Fields
import BlindSign.Proofs.Json.Writing
import BlindSign.Proofs.Pieces
import BlindSign.Proofs.Warnings
import BlindSign.Proofs.Failures
