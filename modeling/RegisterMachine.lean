import RegisterMachine.Main
import RegisterMachine.Proofs.AcceptedNumerals
import RegisterMachine.Proofs.AppendedImages
import RegisterMachine.Proofs.AssembledWords
import RegisterMachine.Proofs.Assignments
import RegisterMachine.Proofs.BitPatterns
import RegisterMachine.Proofs.BitVectors
import RegisterMachine.Proofs.ByteStores
import RegisterMachine.Proofs.CanonicalNumerals
import RegisterMachine.Proofs.CanonicalWords
import RegisterMachine.Proofs.CheckedStores
import RegisterMachine.Proofs.CommandArguments
import RegisterMachine.Proofs.DecimalIntegers
import RegisterMachine.Proofs.Disassembly
import RegisterMachine.Proofs.DocumentReading
import RegisterMachine.Proofs.EchoedAnswers
import RegisterMachine.Proofs.EffectRules
import RegisterMachine.Proofs.ExactStores
import RegisterMachine.Proofs.FaultLaw
import RegisterMachine.Proofs.FieldTuples
import RegisterMachine.Proofs.FirstRejection
import RegisterMachine.Proofs.Footprints
import RegisterMachine.Proofs.FormatFaults
import RegisterMachine.Proofs.ImageFiles
import RegisterMachine.Proofs.ImageRuns
import RegisterMachine.Proofs.IndependentWords
import RegisterMachine.Proofs.InstructionGrammar
import RegisterMachine.Proofs.JoinedSources
import RegisterMachine.Proofs.LineGrammar
import RegisterMachine.Proofs.LineInterpreter
import RegisterMachine.Proofs.Manifests
import RegisterMachine.Proofs.NumeralGrammar
import RegisterMachine.Proofs.Observation
import RegisterMachine.Proofs.OperandChecks
import RegisterMachine.Proofs.OperandTokens
import RegisterMachine.Proofs.OutputTexts
import RegisterMachine.Proofs.PaddedWords
import RegisterMachine.Proofs.PositionalNotation
import RegisterMachine.Proofs.PowersOfTwo
import RegisterMachine.Proofs.QuestionsAsked
import RegisterMachine.Proofs.RegisterDumps
import RegisterMachine.Proofs.RegisterInvariant
import RegisterMachine.Proofs.Results
import RegisterMachine.Proofs.Rotations
import RegisterMachine.Proofs.RunInvariants
import RegisterMachine.Proofs.RunIsolation
import RegisterMachine.Proofs.SingleTokens
import RegisterMachine.Proofs.SourceCollection
import RegisterMachine.Proofs.SourceLayout
import RegisterMachine.Proofs.SourceLines
import RegisterMachine.Proofs.SourceReports
import RegisterMachine.Proofs.StoppedRuns
import RegisterMachine.Proofs.Tokens
import RegisterMachine.Proofs.Toolchains
import RegisterMachine.Proofs.TruncatedDivision
import RegisterMachine.Proofs.UnbrokenTexts
import RegisterMachine.Proofs.WordConduct
import RegisterMachine.Proofs.WordEffects
import RegisterMachine.Proofs.WordElements
import RegisterMachine.Proofs.WordFields
import RegisterMachine.Proofs.WordStreams
import RegisterMachine.Proofs.WrittenFiles
import RegisterMachine.Proofs.WrittenLines
import RegisterMachine.Session
