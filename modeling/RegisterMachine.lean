import RegisterMachine.Derive.Tokens
import RegisterMachine.Main
import RegisterMachine.Proofs.LineGrammar
import RegisterMachine.Proofs.Contribution
import RegisterMachine.Proofs.RoundTrip
import RegisterMachine.Proofs.LocalRecovery
import RegisterMachine.Proofs.Stepping
import RegisterMachine.Proofs.Effects
import RegisterMachine.Proofs.Faults
import RegisterMachine.Proofs.BranchTargets
import RegisterMachine.Proofs.CounterBounds
import RegisterMachine.Proofs.WellFormed
import RegisterMachine.Proofs.Lockstep
import RegisterMachine.Proofs.Prelinking
import RegisterMachine.Proofs.BrokenInput
import RegisterMachine.Proofs.StraightLine
import RegisterMachine.Proofs.Output
import RegisterMachine.Proofs.Phases
import RegisterMachine.Proofs.CountPrecedence
import RegisterMachine.Proofs.Description
import RegisterMachine.Proofs.Enlargement
import RegisterMachine.Proofs.PositionNames
import RegisterMachine.Proofs.Mentions
import RegisterMachine.Proofs.SuppliedNames
import RegisterMachine.Proofs.ExactSteps
import RegisterMachine.Proofs.ForwardBranches
import RegisterMachine.Proofs.Indifference
import RegisterMachine.Proofs.SpareRegisters
import RegisterMachine.Proofs.UnnamedRegisters
import RegisterMachine.Proofs.Relabelling
import RegisterMachine.Proofs.LabelStores
import RegisterMachine.Proofs.OwnerUse
import RegisterMachine.Proofs.Rerun
import RegisterMachine.Proofs.LineAccount
import RegisterMachine.Proofs.Concatenation
import RegisterMachine.Proofs.LineEndings
import RegisterMachine.Proofs.Spellings
import RegisterMachine.Proofs.Registrations
import RegisterMachine.Proofs.LabelEdits
import RegisterMachine.Proofs.PrintedValues
import RegisterMachine.Proofs.OptionItems
import RegisterMachine.Proofs.LoggingWords
import RegisterMachine.Proofs.VariantArms
import RegisterMachine.Proofs.Numerals
import RegisterMachine.Proofs.TimeOfDay
import RegisterMachine.Proofs.ScannerCalls
import RegisterMachine.Proofs.NameInsertions
