import UtilityCss.ClassToken
import UtilityCss.CommandLine.Arguments
import UtilityCss.CommandLine.Command
import UtilityCss.CommandLine.Console
import UtilityCss.CommandLine.Request
import UtilityCss.CommandLine.Run
import UtilityCss.Compiler
import UtilityCss.Config.Loader
import UtilityCss.Config.Settings
import UtilityCss.Config.Validation
import UtilityCss.Decimal.Binary64
import UtilityCss.Decimal.Order
import UtilityCss.Decimal.Written
import UtilityCss.Disk.Basic
import UtilityCss.Disk.Glob
import UtilityCss.Disk.Path
import UtilityCss.Journal
import UtilityCss.Json.Basic
import UtilityCss.Json.Reader
import UtilityCss.Json.Token
import UtilityCss.Main
import UtilityCss.OrderedMap
import UtilityCss.Output
import UtilityCss.Pass
import UtilityCss.Pipeline
import UtilityCss.Proofs.Compiler.Declarations
import UtilityCss.Proofs.Compiler.LongestPrefix
import UtilityCss.Proofs.Compiler.Memory
import UtilityCss.Proofs.Config.Containment
import UtilityCss.Proofs.Config.LiveRules
import UtilityCss.Proofs.Config.Members
import UtilityCss.Proofs.Config.Merging
import UtilityCss.Proofs.Config.RepeatedKeys
import UtilityCss.Proofs.Decimal.Arithmetic
import UtilityCss.Proofs.Decimal.Canonical
import UtilityCss.Proofs.Decimal.Magnitudes
import UtilityCss.Proofs.Decimal.Powers
import UtilityCss.Proofs.Decimal.Range
import UtilityCss.Proofs.Decimal.Rounding
import UtilityCss.Proofs.Disk.NormalPaths
import UtilityCss.Proofs.Disk.Rewriting
import UtilityCss.Proofs.Disk.Writing
import UtilityCss.Proofs.Json.Grammar
import UtilityCss.Proofs.Json.Reading
import UtilityCss.Proofs.Json.RepeatedKeys
import UtilityCss.Proofs.LongestKey
import UtilityCss.Proofs.Output.Namespaces
import UtilityCss.Proofs.Pipeline.ExistingStylesheets
import UtilityCss.Proofs.Pipeline.FixedPoint
import UtilityCss.Proofs.Pipeline.FromScratch
import UtilityCss.Proofs.Pipeline.Journals
import UtilityCss.Proofs.Pipeline.Placement
import UtilityCss.Proofs.Pipeline.Rebuild
import UtilityCss.Proofs.Pipeline.Retrying
import UtilityCss.Proofs.Pipeline.Scanning
import UtilityCss.Proofs.Pipeline.Tracking
import UtilityCss.Proofs.Repetition
import UtilityCss.Proofs.Runner.OneShot
import UtilityCss.Proofs.Scheduler.Arrivals
import UtilityCss.Proofs.Scheduler.Chronicle
import UtilityCss.Proofs.Scheduler.Course
import UtilityCss.Proofs.Scheduler.Deadline
import UtilityCss.Proofs.Scheduler.LastEvent
import UtilityCss.Proofs.Scheduler.Queues
import UtilityCss.Proofs.Scheduler.RetryDelays
import UtilityCss.Proofs.Scheduler.RetryTrace
import UtilityCss.Proofs.Scheduler.Serving
import UtilityCss.Proofs.Scheduler.SingleFlight
import UtilityCss.Proofs.Scheduler.StepErrors
import UtilityCss.Proofs.Sources.Attributes
import UtilityCss.Proofs.Sources.Usage
import UtilityCss.Proofs.Stylesheet.Comment
import UtilityCss.Proofs.Stylesheet.Generated
import UtilityCss.Proofs.Stylesheet.Grammar
import UtilityCss.Proofs.Stylesheet.Layout
import UtilityCss.Proofs.Stylesheet.PlainRules
import UtilityCss.Proofs.Stylesheet.Recognition
import UtilityCss.Proofs.Stylesheet.Rendering
import UtilityCss.Proofs.Stylesheet.Spelling
import UtilityCss.Proofs.Stylesheet.StringContents
import UtilityCss.Proofs.Stylesheet.Walking
import UtilityCss.Proofs.Watch.BraceChoices
import UtilityCss.Proofs.Watch.BracePatterns
import UtilityCss.Proofs.Watch.FirstPoll
import UtilityCss.Proofs.Watch.Overruling
import UtilityCss.Proofs.Watch.Replay
import UtilityCss.Proofs.Watch.Sightings
import UtilityCss.Rule
import UtilityCss.Rule.Spec
import UtilityCss.Runner
import UtilityCss.Scheduler.Basic
import UtilityCss.Scheduler.Delay
import UtilityCss.Scheduler.Rehearsal
import UtilityCss.Scheduler.Session
import UtilityCss.Sources
import UtilityCss.Stylesheet.Parser
import UtilityCss.Stylesheet.Selector
import UtilityCss.Stylesheet.Source
import UtilityCss.Stylesheet.Walk
import UtilityCss.Text.Basic
import UtilityCss.Text.LowerCase
import UtilityCss.Text.Quoted
import UtilityCss.Text.Utf8
import UtilityCss.Text.Words
import UtilityCss.Watch.Braces
import UtilityCss.Watch.Watcher
import UtilityCss.Workbench
