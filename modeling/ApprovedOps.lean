import ApprovedOps.Main
import ApprovedOps.Proofs.Dictionary
import ApprovedOps.Proofs.Text.Names
import ApprovedOps.Proofs.Text.Utf8
import ApprovedOps.Proofs.Text.Order
import ApprovedOps.Proofs.Files.Placed
import ApprovedOps.Proofs.Files.Normal
import ApprovedOps.Proofs.Files.Tree
import ApprovedOps.Proofs.Record.FileName
import ApprovedOps.Proofs.Number.Rounding
import ApprovedOps.Proofs.Variables.Cleaned
import ApprovedOps.Proofs.Variables.Decorated
import ApprovedOps.Proofs.Variables.Accepted
import ApprovedOps.Proofs.Variables.Relaxed
import ApprovedOps.Proofs.Document.Context
import ApprovedOps.Proofs.Document.Block
import ApprovedOps.Proofs.Document.Whole
import ApprovedOps.Proofs.Document.Operation
import ApprovedOps.Proofs.Document.Names
import ApprovedOps.Proofs.Document.Cut
import ApprovedOps.Proofs.Document.Divided
import ApprovedOps.Proofs.Store.Run
import ApprovedOps.Proofs.Store.Marker
import ApprovedOps.Proofs.Store.Ledger
import ApprovedOps.Proofs.Store.Sequential
import ApprovedOps.Proofs.Store.Ordered
import ApprovedOps.Proofs.Store.Stored
import ApprovedOps.Proofs.Store.Paths
import ApprovedOps.Proofs.Store.Contents
import ApprovedOps.Proofs.Store.Closing
import ApprovedOps.Proofs.Store.Unfinished
import ApprovedOps.Proofs.Store.Map
import ApprovedOps.Proofs.Store.Resubmitted
import ApprovedOps.Proofs.Store.Documents
import ApprovedOps.Proofs.Store.AtRest
import ApprovedOps.Proofs.Store.Kept
import ApprovedOps.Proofs.Store.Shelved
import ApprovedOps.Proofs.Store.Front
import ApprovedOps.Proofs.Store.Retried
import ApprovedOps.Proofs.Store.Identity
import ApprovedOps.Proofs.Toml.Strings
import ApprovedOps.Proofs.Toml.Tables
import ApprovedOps.Proofs.Project.Template
import ApprovedOps.Proofs.Project.Directories
import ApprovedOps.Proofs.Project.Initial
import ApprovedOps.Proofs.Command.Added
import ApprovedOps.Proofs.Document.Outline
import ApprovedOps.Proofs.Document.Balanced
import ApprovedOps.Proofs.Document.Sweep
import ApprovedOps.Proofs.Variables.Exact
import ApprovedOps.Proofs.Document.Covered
import ApprovedOps.Proofs.Store.Waited
import ApprovedOps.Proofs.Record.Respelled
import ApprovedOps.Proofs.Store.Reached
import ApprovedOps.Proofs.Command.Counted
import ApprovedOps.Proofs.GraphQL.Stable
import ApprovedOps.Proofs.Document.Agreement
import ApprovedOps.Proofs.Yaml.Assembled
