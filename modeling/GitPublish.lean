import GitPublish.Client
import GitPublish.CommandLine.Grammar
import GitPublish.CommandLine.Help
import GitPublish.CommandLine.Invocation
import GitPublish.CommandLine.Read
import GitPublish.Config
import GitPublish.Config.Document
import GitPublish.Config.File
import GitPublish.FailureKind
import GitPublish.FileSystem.Action
import GitPublish.FileSystem.Basic
import GitPublish.FileSystem.Listing
import GitPublish.FileSystem.Trace
import GitPublish.Git.Call
import GitPublish.IoError
import GitPublish.LocalRunner
import GitPublish.Location
import GitPublish.Main
import GitPublish.OsError
import GitPublish.Path
import GitPublish.Program
import GitPublish.Proofs.Acceptance
import GitPublish.Proofs.Binding
import GitPublish.Proofs.Cleanup
import GitPublish.Proofs.Client
import GitPublish.Proofs.Committing
import GitPublish.Proofs.Config.Actions
import GitPublish.Proofs.Config.Assignment
import GitPublish.Proofs.Config.Document
import GitPublish.Proofs.Config.File
import GitPublish.Proofs.Config.History
import GitPublish.Proofs.Config.Overwriting
import GitPublish.Proofs.Config.Saving
import GitPublish.Proofs.Config.Settings
import GitPublish.Proofs.Config.Store
import GitPublish.Proofs.Copying
import GitPublish.Proofs.Diagnosis
import GitPublish.Proofs.Effect
import GitPublish.Proofs.FileSystem.Action
import GitPublish.Proofs.FileSystem.Again
import GitPublish.Proofs.FileSystem.Below
import GitPublish.Proofs.FileSystem.Entries
import GitPublish.Proofs.FileSystem.Kept
import GitPublish.Proofs.FileSystem.Listed
import GitPublish.Proofs.FileSystem.Listing
import GitPublish.Proofs.FileSystem.Making
import GitPublish.Proofs.FileSystem.Onward
import GitPublish.Proofs.FileSystem.Privacy
import GitPublish.Proofs.FileSystem.Removal
import GitPublish.Proofs.FileSystem.Replicated
import GitPublish.Proofs.FileSystem.Resolve
import GitPublish.Proofs.FileSystem.Walking
import GitPublish.Proofs.Home
import GitPublish.Proofs.Keeping
import GitPublish.Proofs.LeftBehind
import GitPublish.Proofs.LocalLooking
import GitPublish.Proofs.Location
import GitPublish.Proofs.Loudness
import GitPublish.Proofs.Merging
import GitPublish.Proofs.Naming
import GitPublish.Proofs.Options
import GitPublish.Proofs.Overlap
import GitPublish.Proofs.Path
import GitPublish.Proofs.Path.Ancestors
import GitPublish.Proofs.Path.Components
import GitPublish.Proofs.Placement
import GitPublish.Proofs.Precedence
import GitPublish.Proofs.Program
import GitPublish.Proofs.Publication
import GitPublish.Proofs.Publish
import GitPublish.Proofs.Reading
import GitPublish.Proofs.Renewal
import GitPublish.Proofs.Session
import GitPublish.Proofs.Shell.Quoting
import GitPublish.Proofs.Shell.Word
import GitPublish.Proofs.ShortForm
import GitPublish.Proofs.Spelling
import GitPublish.Proofs.Stage
import GitPublish.Proofs.Summary
import GitPublish.Proofs.Switching
import GitPublish.Proofs.Temporary
import GitPublish.Proofs.Text
import GitPublish.Proofs.Toml.Document
import GitPublish.Proofs.Toml.Text
import GitPublish.Proofs.Transcript
import GitPublish.Proofs.Url
import GitPublish.Proofs.WorkTree
import GitPublish.Publish
import GitPublish.RepoError
import GitPublish.Report
import GitPublish.Session
import GitPublish.Shell.Arithmetic
import GitPublish.Shell.Builtin
import GitPublish.Shell.Executable
import GitPublish.Shell.Expand
import GitPublish.Shell.Format
import GitPublish.Shell.Pattern
import GitPublish.Shell.Run
import GitPublish.Shell.Script
import GitPublish.Shell.State
import GitPublish.Shell.Test
import GitPublish.Shell.Token
import GitPublish.Shell.Word
import GitPublish.Text
import GitPublish.Toml.Number
import GitPublish.Toml.Print
import GitPublish.Toml.Read
import GitPublish.Toml.Scan
import GitPublish.Toml.Table
import GitPublish.Unicode.Compositions
import GitPublish.Unicode.Direction
import GitPublish.Unicode.DomainMapping
import GitPublish.Unicode.Joining
import GitPublish.Unicode.NormalForm
import GitPublish.Unicode.Printing
import GitPublish.Unicode.Runs
import GitPublish.Url.Domain
import GitPublish.Url.Host
import GitPublish.Url.Ipv4
import GitPublish.Url.Ipv6
import GitPublish.Url.Parse
import GitPublish.Url.Path
import GitPublish.Url.Percent
import GitPublish.Url.Punycode
