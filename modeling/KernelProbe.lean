import KernelProbe.Automation.Config
import KernelProbe.Automation.Controller
import KernelProbe.Automation.Hook
import KernelProbe.Automation.ModuleName
import KernelProbe.Automation.Modules
import KernelProbe.Automation.TranslateAddress
import KernelProbe.CommandLine.Invocation
import KernelProbe.CommandLine.Options
import KernelProbe.CommandLine.Perform
import KernelProbe.Debugger.Error
import KernelProbe.Debugger.Script
import KernelProbe.Elf.Image
import KernelProbe.Elf.Sections
import KernelProbe.Elf.Symbols
import KernelProbe.Embedding
import KernelProbe.Gdb.Channel
import KernelProbe.Gdb.Value
import KernelProbe.Interaction.Dict
import KernelProbe.Interaction.Program
import KernelProbe.Main
import KernelProbe.Memory.LittleEndian
import KernelProbe.Memory.Pages
import KernelProbe.Mi.Literal
import KernelProbe.Mi.Record
import KernelProbe.Mi.Value
import KernelProbe.Paging.Entry
import KernelProbe.Paging.Level
import KernelProbe.Paging.Walk
import KernelProbe.Rehearsal.CannedMemory
import KernelProbe.Rehearsal.Commands
import KernelProbe.Rehearsal.Conversation
import KernelProbe.Rehearsal.FileSystem
import KernelProbe.Rehearsal.Part
import KernelProbe.Rehearsal.Rulebook
import KernelProbe.Rehearsal.Session
import KernelProbe.Rehearsal.Stage
import KernelProbe.Rehearsal.SystemLayout
import KernelProbe.Rehearsal.Terminal
import KernelProbe.Session.Config
import KernelProbe.Session.Control
import KernelProbe.Session.Multiplexer
import KernelProbe.Session.Placeholder
import KernelProbe.Session.Pump
import KernelProbe.Session.Supervisor
import KernelProbe.Session.Transcript
import KernelProbe.Session.Worker
import KernelProbe.Symbols.Legacy
import KernelProbe.Symbols.LinkerMap
import KernelProbe.Symbols.Mangled
import KernelProbe.Symbols.Printer
import KernelProbe.Symbols.Symbol
import KernelProbe.Symbols.Table
import KernelProbe.Symbols.Trace
import KernelProbe.Target.Expression
import KernelProbe.Target.Simulated
import KernelProbe.Text.Blank
import KernelProbe.Text.Digits
import KernelProbe.Text.Lines
import KernelProbe.Text.Punycode
import KernelProbe.Text.Quoted
import KernelProbe.Text.Rest
import KernelProbe.Text.Search
import KernelProbe.Text.Utf16
import KernelProbe.Text.Utf8
import KernelProbe.Text.Visible
import KernelProbe.Proofs.Automation.SymbolFiles
import KernelProbe.Proofs.Debugger.Script
import KernelProbe.Proofs.Paging.Address
import KernelProbe.Proofs.Paging.Walk
import KernelProbe.Proofs.Session.Control
import KernelProbe.Proofs.Session.Requests
import KernelProbe.Proofs.Session.WorkerRequests
import KernelProbe.Proofs.Mi.Literal
import KernelProbe.Proofs.Mi.SingleLine
import KernelProbe.Proofs.Automation.ModuleName
import KernelProbe.Proofs.Memory.Writes
import KernelProbe.Proofs.Target.Memory
import KernelProbe.Proofs.Text.Utf16
import KernelProbe.Proofs.Text.Blank
import KernelProbe.Proofs.Mi.Value
import KernelProbe.Proofs.Mi.Record
import KernelProbe.Proofs.Mi.Results
import KernelProbe.Proofs.Gdb.Channel
import KernelProbe.Proofs.Gdb.Focus
import KernelProbe.Proofs.Gdb.Memory
import KernelProbe.Proofs.Session.Notices
import KernelProbe.Proofs.Session.Turns
import KernelProbe.Proofs.Session.Resumption
import KernelProbe.Proofs.Session.RequestLines
import KernelProbe.Proofs.Automation.SymbolTables
import KernelProbe.Proofs.Session.ResultLines
import KernelProbe.Proofs.Session.OperatorLines
import KernelProbe.Proofs.Text.Lines
import KernelProbe.Proofs.Session.Pump
import KernelProbe.Proofs.Session.Streams
import KernelProbe.Proofs.Automation.Arming
import KernelProbe.Proofs.Session.Multiplexer
import KernelProbe.Proofs.Session.Transcript
import KernelProbe.Proofs.Session.Generations
import KernelProbe.Proofs.Automation.Decisions
import KernelProbe.Proofs.Target.Breakpoints
import KernelProbe.Proofs.Automation.SharedBreakpoints
import KernelProbe.Proofs.Session.WorkerTurns
import KernelProbe.Proofs.Session.Processes
import KernelProbe.Proofs.Text.Pieces
import KernelProbe.Proofs.Session.Placeholder
import KernelProbe.Proofs.Automation.ModuleBases
import KernelProbe.Proofs.Paging.Alike
import KernelProbe.Proofs.Paging.Mapping
import KernelProbe.Proofs.Text.Numerals
import KernelProbe.Proofs.Text.Pattern
import KernelProbe.Proofs.Symbols.Table
import KernelProbe.Proofs.Symbols.Trace
import KernelProbe.Proofs.Symbols.LinkerMap
import KernelProbe.Proofs.Symbols.SectionLines
import KernelProbe.Proofs.Automation.AddressText
import KernelProbe.Proofs.Gdb.Value
import KernelProbe.Proofs.Mi.Spelling
import KernelProbe.Proofs.Debugger.CommandLines
import KernelProbe.Proofs.Session.UserCommands
import KernelProbe.Proofs.Automation.TranslationShown
import KernelProbe.Proofs.Embedding
import KernelProbe.Proofs.Embedding.Names
