import ClassLint.Analyzer
import ClassLint.Check.Basic
import ClassLint.Check.BuiltIn
import ClassLint.Check.ConstructorVisibility
import ClassLint.Check.LongMethod
import ClassLint.Check.MagicNumber
import ClassLint.Check.MethodScope
import ClassLint.Check.NamingConvention
import ClassLint.Check.NullReturn
import ClassLint.Check.Session
import ClassLint.Check.UnusedField
import ClassLint.ClassFile.AccessFlags
import ClassLint.ClassFile.Code
import ClassLint.ClassFile.Constant
import ClassLint.ClassFile.ConstantPool
import ClassLint.ClassFile.Decode
import ClassLint.ClassFile.Event
import ClassLint.ClassFile.Machine
import ClassLint.ClassFile.Reader
import ClassLint.CommandLine.Invocation
import ClassLint.CommandLine.Parse
import ClassLint.CommandLine.Run
import ClassLint.CommandLine.Usage
import ClassLint.Config.Basic
import ClassLint.Config.Decode
import ClassLint.Config.Load
import ClassLint.Config.Validation
import ClassLint.Decimal.Shortest
import ClassLint.Discovery
import ClassLint.Document.Basic
import ClassLint.Document.Json
import ClassLint.Document.Toml.Reader
import ClassLint.Document.Toml.Scalar
import ClassLint.Document.Toml.Text
import ClassLint.Document.Toml.Value
import ClassLint.Document.Yaml.Cursor
import ClassLint.Document.Yaml.Node
import ClassLint.Document.Yaml.Scalar
import ClassLint.Document.Yaml.Settings
import ClassLint.Document.Yaml.Token
import ClassLint.FileTree.Basic
import ClassLint.FileTree.Walk
import ClassLint.Glob
import ClassLint.Main
import ClassLint.Path
import ClassLint.Proofs.BrokenCode
import ClassLint.Proofs.Builds
import ClassLint.Proofs.ClassGrammar
import ClassLint.Proofs.ClassInvariant
import ClassLint.Proofs.ClassOutline
import ClassLint.Proofs.CodeTiling
import ClassLint.Proofs.ConfigOverrides
import ClassLint.Proofs.ConfigValidity
import ClassLint.Proofs.ConstantTable
import ClassLint.Proofs.DecodedClasses
import ClassLint.Proofs.DecodedNames
import ClassLint.Proofs.DisabledChecks
import ClassLint.Proofs.EventBound
import ClassLint.Proofs.EventHistory
import ClassLint.Proofs.EventOrder
import ClassLint.Proofs.ExactNumbers
import ClassLint.Proofs.ExitStatus
import ClassLint.Proofs.FaultAtomicity
import ClassLint.Proofs.FaultFreedom
import ClassLint.Proofs.FieldAccesses
import ClassLint.Proofs.FileDiscovery
import ClassLint.Proofs.FileNameGlobs
import ClassLint.Proofs.FloatValues
import ClassLint.Proofs.GlobLanguage
import ClassLint.Proofs.HeaderRestart
import ClassLint.Proofs.HiddenConstructors
import ClassLint.Proofs.InstructionReading
import ClassLint.Proofs.InstructionSet
import ClassLint.Proofs.JsonGrammar
import ClassLint.Proofs.JsonReports
import ClassLint.Proofs.LongMethods
import ClassLint.Proofs.MagicNumbers
import ClassLint.Proofs.MethodReports
import ClassLint.Proofs.MethodTracking
import ClassLint.Proofs.ModifiedUtf8
import ClassLint.Proofs.NullReturns
import ClassLint.Proofs.ParallelAnalysis
import ClassLint.Proofs.PathOrder
import ClassLint.Proofs.PathResolution
import ClassLint.Proofs.PoolEntries
import ClassLint.Proofs.Reading
import ClassLint.Proofs.RegexNotation
import ClassLint.Proofs.Replay
import ClassLint.Proofs.RunAccounting
import ClassLint.Proofs.RunnerIsolation
import ClassLint.Proofs.SlotFilling
import ClassLint.Proofs.TerminalSummary
import ClassLint.Proofs.TreeShape
import ClassLint.Proofs.Truncation
import ClassLint.Proofs.UnusedFields
import ClassLint.Proofs.Walks
import ClassLint.Proofs.WordAgreement
import ClassLint.Proofs.WordArithmetic
import ClassLint.Report.Call
import ClassLint.Report.Json
import ClassLint.Report.Styled
import ClassLint.Report.Terminal
import ClassLint.Runner
import ClassLint.Text.Digits
import ClassLint.Text.LetterCase
import ClassLint.Text.Utf8
