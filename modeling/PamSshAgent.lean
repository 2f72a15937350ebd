import PamSshAgent.Library.Fallible
import PamSshAgent.Library.Occurrence
import PamSshAgent.Library.Provenance
import PamSshAgent.Library.RewriteOnce
import PamSshAgent.Library.LastValue
import PamSshAgent.Library.Interaction
import PamSshAgent.Library.Interference
import PamSshAgent.Library.Typestate
import PamSshAgent.Library.Embedding
import PamSshAgent.Library.FailClosed
import PamSshAgent.Library.Halting
import PamSshAgent.Library.Threads
import PamSshAgent.Library.Responders
import PamSshAgent.Library.Interpretation
import PamSshAgent.Library.PrefixCode
import PamSshAgent.Rust.Text
import PamSshAgent.Rust.Str
import PamSshAgent.Rust.Error
import PamSshAgent.Rust.Path
import PamSshAgent.Rust.Duration
import PamSshAgent.Environment
import PamSshAgent.StrictUser
import PamSshAgent.SshKey
import PamSshAgent.Args.Expansions
import PamSshAgent.Args.Slices
import PamSshAgent.Args.Parse
import PamSshAgent.Args.Fields
import PamSshAgent.Args.TrustSources
import PamSshAgent.Args.PerUser
import PamSshAgent.Args.Reference
import PamSshAgent.Args.InPlace
import PamSshAgent.Args.AtOnce
import PamSshAgent.Args.Complete
import PamSshAgent.Args.WithoutStrict
import PamSshAgent.Fs.Tree
import PamSshAgent.Fs.Calls
import PamSshAgent.Fs.Walk
import PamSshAgent.Trust.Path
import PamSshAgent.Trust.Hops
import PamSshAgent.Trust.Race
import PamSshAgent.Trust.Kept
import PamSshAgent.Trust.Bounded
import PamSshAgent.Trust.Delivered
import PamSshAgent.Cmd.Run
import PamSshAgent.Cmd.Output
import PamSshAgent.Cmd.Schedule
import PamSshAgent.Cmd.Kill
import PamSshAgent.Cmd.Reap
import PamSshAgent.Cmd.Child
import PamSshAgent.Cmd.Drain
import PamSshAgent.Cmd.Deadline
import PamSshAgent.Policy.Filter
import PamSshAgent.Policy.Load
import PamSshAgent.Policy.Roles
import PamSshAgent.Policy.Halting
import PamSshAgent.Policy.Delivered
import PamSshAgent.Policy.Language
import PamSshAgent.Policy.Channels
import PamSshAgent.Policy.Restriction
import PamSshAgent.Auth.Agent
import PamSshAgent.Auth.Walk
import PamSshAgent.Auth.Connection
import PamSshAgent.Auth.Deadline
import PamSshAgent.Auth.Socket
import PamSshAgent.NativeCrypto
import PamSshAgent.Logging
import PamSshAgent.LogLines
import PamSshAgent.InitLogging
import PamSshAgent.Module.Authenticate
import PamSshAgent.Module.Sound
import PamSshAgent.Module.Confinement
import PamSshAgent.Module.HelperFile
import PamSshAgent.Module.Restriction
import PamSshAgent.Module.Phases
import PamSshAgent.Module.Order
import PamSshAgent.Module.FailClosed
import PamSshAgent.Module.Answers
import PamSshAgent.Module.Exact
import PamSshAgent.Module.Agreement
import PamSshAgent.Module.Authority
import PamSshAgent.Module.System
import PamSshAgent.Library.CMemory
import PamSshAgent.Pam.Entry
