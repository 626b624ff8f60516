import HackAssembler.Command.Arguments
import HackAssembler.Command.Help
import HackAssembler.Command.Run
import HackAssembler.Decimal.Shortest
import HackAssembler.Diagnostic
import HackAssembler.Dialect.Basic
import HackAssembler.Dialect.Codebook
import HackAssembler.Dialect.Datum
import HackAssembler.Dialect.Document
import HackAssembler.Dialect.Hack
import HackAssembler.Dialect.Sections
import HackAssembler.Disassembly
import HackAssembler.Encoding
import HackAssembler.Failure
import HackAssembler.Fault
import HackAssembler.Files.Access
import HackAssembler.Files.Path
import HackAssembler.Files.Tree
import HackAssembler.Listing
import HackAssembler.Machine.Field
import HackAssembler.Machine.Word
import HackAssembler.Main
import HackAssembler.OrderedMap
import HackAssembler.Program
import HackAssembler.Proofs.Acceptance
import HackAssembler.Proofs.Agreement
import HackAssembler.Proofs.AllOrNothing
import HackAssembler.Proofs.Allocation
import HackAssembler.Proofs.AssembledMeaning
import HackAssembler.Proofs.AssembledWords
import HackAssembler.Proofs.BinaryNumerals
import HackAssembler.Proofs.Bindings
import HackAssembler.Proofs.CanonicalCode
import HackAssembler.Proofs.CleanCode
import HackAssembler.Proofs.Comments
import HackAssembler.Proofs.Concatenation
import HackAssembler.Proofs.DecimalNumerals
import HackAssembler.Proofs.DefaultOutput
import HackAssembler.Proofs.Earlier
import HackAssembler.Proofs.Extension
import HackAssembler.Proofs.FirstFlaw
import HackAssembler.Proofs.FlawOrder
import HackAssembler.Proofs.Flaws
import HackAssembler.Proofs.Grammar
import HackAssembler.Proofs.LabelReferences
import HackAssembler.Proofs.Labelling
import HackAssembler.Proofs.Layout
import HackAssembler.Proofs.LayoutIndependence
import HackAssembler.Proofs.LinewiseReading
import HackAssembler.Proofs.ListedLines
import HackAssembler.Proofs.ListedRows
import HackAssembler.Proofs.Malformations
import HackAssembler.Proofs.Meaning
import HackAssembler.Proofs.MnemonicTables
import HackAssembler.Proofs.Outcomes
import HackAssembler.Proofs.OutputText
import HackAssembler.Proofs.Passes
import HackAssembler.Proofs.Reading
import HackAssembler.Proofs.Reassembly
import HackAssembler.Proofs.RelevantEntries
import HackAssembler.Proofs.Relocation
import HackAssembler.Proofs.Renaming
import HackAssembler.Proofs.SavedFiles
import HackAssembler.Proofs.SectionChecks
import HackAssembler.Proofs.ShownWords
import HackAssembler.Proofs.SingleLoads
import HackAssembler.Proofs.SourceLines
import HackAssembler.Proofs.SymbolNames
import HackAssembler.Proofs.TableRuns
import HackAssembler.Proofs.UnusedLabel
import HackAssembler.Proofs.VariableAddresses
import HackAssembler.Proofs.Verdict
import HackAssembler.Proofs.WellFormed
import HackAssembler.Resolution.Labels
import HackAssembler.Resolution.Variables
import HackAssembler.Source
import HackAssembler.Statement.Basic
import HackAssembler.Statement.Reading
import HackAssembler.Symbol
import HackAssembler.Text.Blank
import HackAssembler.Text.Lines
import HackAssembler.Text.Numeral
import HackAssembler.Text.Printable
import HackAssembler.Text.Quoted
import HackAssembler.Text.Style
import HackAssembler.Yaml.Node
import HackAssembler.Yaml.Scalar
import HackAssembler.Yaml.Text
import HackAssembler.Yaml.Token
import HackAssembler.Yaml.TokenStream
