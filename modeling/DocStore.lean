import DocStore.Text
import DocStore.Decimal.Shortest
import DocStore.Json.Basic
import DocStore.Json.Number
import DocStore.Json.Parser
import DocStore.Json.Printer
import DocStore.Path
import DocStore.Access.GroupSet
import DocStore.Uuid
import DocStore.Document
import DocStore.Folder
import DocStore.Repository.Basic
import DocStore.Repository.Cabinet
import DocStore.Store.Basic
import DocStore.Cli.Similar
import DocStore.Cli.Grammar
import DocStore.Cli.Help
import DocStore.Cli.Refusal
import DocStore.Cli.Reader
import DocStore.Console
import DocStore.Main
import DocStore.Proofs.Repository.Keyed
import DocStore.Proofs.Json.Members
import DocStore.Proofs.Path.Edit
import DocStore.Proofs.Json.Sorted
import DocStore.Proofs.Path.Laws
import DocStore.Proofs.Store.Calls
import DocStore.Proofs.Store.Access
import DocStore.Proofs.Path.Text
import DocStore.Proofs.Access.GroupText
import DocStore.Proofs.Store.Valid
import DocStore.Proofs.Store.Outcomes
import DocStore.Proofs.Store.Deletion
import DocStore.Proofs.Store.Retry
import DocStore.Proofs.Store.Events
import DocStore.Proofs.Store.Interleaving
import DocStore.Proofs.Repository.Reopen
import DocStore.Proofs.Repository.Load
import DocStore.Proofs.Document.Codec
